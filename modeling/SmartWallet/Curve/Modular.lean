set_option autoImplicit false

/-! # Arithmetic modulo a number

Residues modulo `m` are the elements of `Fin m`, with its addition, subtraction and multiplication.
This module adds powers by repeated squaring and, for a prime modulus, the inverse by Fermat's
little theorem: `x ^ (m - 2)`, which is zero for zero. -/

namespace SmartWallet.Modular

variable {m : Nat}

/-- The residue of a number. -/
def residue (m : Nat) (pos : 0 < m) (v : Nat) : Fin m := ⟨v % m, Nat.mod_lt v pos⟩

/-- The power `x ^ e`, by the binary digits of `e`. -/
def power (x : Fin m) (e : Nat) : Fin m :=
  if e = 0 then residue m x.pos 1
  else
    let h := power (x * x) (e / 2)
    if e % 2 = 1 then x * h else h
termination_by e

/-- The inverse of a residue modulo a prime; zero has none and answers zero. -/
def inverse (x : Fin m) : Fin m := power x (m - 2)

end SmartWallet.Modular
