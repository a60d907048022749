import SmartWallet.Bytes
import SmartWallet.Curve.Modular

set_option autoImplicit false

/-! # The curve edwards25519

The points of `-x² + y² = 1 + d x² y²` over the field of `2²⁵⁵ - 19` elements. A point is held as
`(X : Y : Z : T)` with `x = X / Z`, `y = Y / Z` and `x y = T / Z`; the addition law has no
exceptions. A point is written in 32 bytes: `y`, least significant byte first, with the low bit of
`x` in the top bit. Reading takes any 255-bit `y` and reduces it, and takes either sign for `x = 0`,
so a point near the neutral element can have two spellings; writing uses the least one. -/

namespace SmartWallet.Edwards25519

/-- The size of the field, `2²⁵⁵ - 19`. -/
def p : Nat := 0x7fffffffffffffffffffffffffffffffffffffffffffffffffffffffffffffed

/-- The order of the subgroup that the base point generates. -/
def order : Nat := 0x1000000000000000000000000000000014def9dea2f79cd65812631a5cf5d3ed

/-- An element of the field. -/
abbrev Coordinate := Fin p

/-- The element of the field that a number stands for. -/
def coordinate (v : Nat) : Coordinate := Modular.residue p (by decide) v

/-- The constant `d` of the curve equation. -/
def d : Coordinate :=
  coordinate 0x52036cee2b6ffe738cc740797779e89800700a4d4141d8ab75eb4dca135978a3

/-- A square root of `-1`. -/
def rootOfMinusOne : Coordinate :=
  coordinate 0x2b8324804fc1df0b2b4d00993dfbd7a72f431806ad2fe478c4ee1b274a0ea0b0

/-- A point in extended homogeneous coordinates. -/
structure Point where
  (x y z t : Coordinate)

namespace Point

/-- The neutral element. -/
def neutral : Point := ⟨coordinate 0, coordinate 1, coordinate 1, coordinate 0⟩

/-- The point with the given coordinates. -/
def ofAffine (x y : Coordinate) : Point := ⟨x, y, coordinate 1, x * y⟩

/-- The base point, of prime order `order`. -/
def base : Point :=
  ofAffine
    (coordinate 0x216936d3cd6e53fec0a4e231fdd6dc5c692cc7609525a7b2c9562d608f25d51a)
    (coordinate 0x6666666666666666666666666666666666666666666666666666666666666658)

/-- The sum of two points. -/
def add (s t : Point) : Point :=
  let a := (s.y - s.x) * (t.y - t.x)
  let b := (s.y + s.x) * (t.y + t.x)
  let c := (d + d) * s.t * t.t
  let e := (s.z + s.z) * t.z
  let f := b - a
  let g := e - c
  let h := e + c
  let i := b + a
  ⟨f * g, h * i, g * h, f * i⟩

/-- The inverse of a point. -/
def negate (s : Point) : Point := ⟨coordinate 0 - s.x, s.y, s.z, coordinate 0 - s.t⟩

/-- The multiple of a point by a number, by the binary digits of the number. -/
def multiply (k : Nat) (s : Point) : Point :=
  if k = 0 then neutral
  else
    let h := multiply (k / 2) (s.add s)
    if k % 2 = 1 then s.add h else h
termination_by k

/-- Whether the point is the neutral element. -/
def isNeutral (s : Point) : Bool := s.x = coordinate 0 ∧ s.y = s.z

/-- Whether eight times the point is the neutral element. -/
def hasSmallOrder (s : Point) : Bool := (multiply 8 s).isNeutral

def toBytes (s : Point) : Bytes32 :=
  let i := Modular.inverse s.z
  let x := (s.x * i).val
  let y := (s.y * i).val
  ⟨Bytes.ofNatLE 32
      (y + x % 2 * 0x8000000000000000000000000000000000000000000000000000000000000000),
    Bytes.length_ofNatLE _ _⟩

/-- A square root of `u / v`, if there is one. -/
def squareRootOfRatio? (u v : Coordinate) : Option Coordinate :=
  let v3 := v * v * v
  let r := u * v3 * Modular.power (u * v3 * v3 * v) ((p - 5) / 8)
  let check := v * r * r
  if check = u then some r
  else if check = coordinate 0 - u then some (r * rootOfMinusOne)
  else none

/-- The point that 32 bytes write, if there is one. -/
def ofBytes? (b : Bytes32) : Option Point :=
  let v := Bytes.toNatLE b.toList
  let sign := v / 0x8000000000000000000000000000000000000000000000000000000000000000
  let y := coordinate (v % 0x8000000000000000000000000000000000000000000000000000000000000000)
  let yy := y * y
  match squareRootOfRatio? (yy - coordinate 1) (d * yy + coordinate 1) with
  | none => none
  | some x => some (ofAffine (if x.val % 2 = sign then x else coordinate 0 - x) y)

end Point

end SmartWallet.Edwards25519
