import SmartWallet.Curve.Modular

set_option autoImplicit false

/-! # The curve P-256

The points of `y² = x³ - 3x + b` over the field of `p` elements, a group of prime order `n`. A point
is held in homogeneous coordinates, `(X : Y : Z)` standing for `(X / Z, Y / Z)` and `Z = 0` for the
neutral element. Since the order is odd one addition law serves sums, doublings and the neutral
element alike, with no case distinction. -/

namespace SmartWallet.P256

/-- The size of the field. -/
def p : Nat := 0xffffffff00000001000000000000000000000000ffffffffffffffffffffffff

/-- The order of the group. -/
def n : Nat := 0xffffffff00000000ffffffffffffffffbce6faada7179e84f3b9cac2fc632551

/-- An element of the field. -/
abbrev Coordinate := Fin p

/-- The element of the field that a number stands for. -/
def coordinate (v : Nat) : Coordinate := Modular.residue p (by decide) v

/-- A number of multiples, which counts modulo the order. -/
abbrev Scalar := Fin n

/-- The residue of a number modulo the order. -/
def scalar (v : Nat) : Scalar := Modular.residue n (by decide) v

/-- The coefficient of `x` in the curve equation, `-3`. -/
def a : Coordinate := coordinate (p - 3)

/-- The constant of the curve equation. -/
def b : Coordinate :=
  coordinate 0x5ac635d8aa3a93e7b3ebbd55769886bc651d06b0cc53b0f63bce3c3e27d2604b

/-- Whether a pair of coordinates lies on the curve. -/
def onCurve (x y : Coordinate) : Bool := y * y = x * x * x + a * x + b

/-- A point in homogeneous coordinates. -/
structure Point where
  (x y z : Coordinate)
deriving DecidableEq

namespace Point

/-- The neutral element. -/
def neutral : Point := ⟨coordinate 0, coordinate 1, coordinate 0⟩

/-- The point with the given coordinates. -/
def ofAffine (x y : Coordinate) : Point := ⟨x, y, coordinate 1⟩

/-- The generator of the group. -/
def generator : Point :=
  ofAffine
    (coordinate 0x6b17d1f2e12c4247f8bce6e563a440f277037d812deb33a0f4a13945d898c296)
    (coordinate 0x4fe342e2fe1a7f9b8ee7eb4a7c0f9e162bce33576b315ececbb6406837bf51f5)

/-- The sum of two points. -/
def add (s t : Point) : Point :=
  let b3 := b + b + b
  let xx := s.x * t.x
  let yy := s.y * t.y
  let zz := s.z * t.z
  let xy := s.x * t.y + t.x * s.y
  let xz := s.x * t.z + t.x * s.z
  let yz := s.y * t.z + t.y * s.z
  let u := a * xz + b3 * zz
  let v := a * xx + b3 * xz - a * a * zz
  let w := xx + xx + xx + a * zz
  ⟨xy * (yy - u) - yz * v, (yy + u) * (yy - u) + w * v, yz * (yy + u) + xy * w⟩

/-- The multiple of a point by a number, by the binary digits of the number. -/
def multiply (k : Nat) (s : Point) : Point :=
  if k = 0 then neutral
  else
    let h := multiply (k / 2) (s.add s)
    if k % 2 = 1 then s.add h else h
termination_by k

/-- The coordinates of a point other than the neutral element. -/
def toAffine? (s : Point) : Option (Coordinate × Coordinate) :=
  if s.z = coordinate 0 then none
  else
    let i := Modular.inverse s.z
    some (s.x * i, s.y * i)

end Point

end SmartWallet.P256
