/-!
# Decimal numbers

A number that is no integer of 64 bits is held in double precision, that is with 53 significant
bits and below `2 ^ 1024`.  Nothing in the library reads such a number, but one that is too large
cannot be held, and a text that writes it is not accepted.

Three roundings decide what is too large.  A number is a coefficient times a power of ten.  The
coefficient takes the digits in front as long as it fits in 64 bits, and the digits after that count
for their places only (`Decimal.ofDigits`).  Then the coefficient, the power of ten and their
product are each rounded to double precision.  So a number just inside the range can be lost, and
the number of digits it is written with has a say in that.

`roundToBits_near` says that rounding goes to a nearest number of so many bits, and
`roundToBits_eq_self` that it leaves such a number alone.
-/

namespace SoapPolicy

/-- The size of a number: a coefficient and the power of ten it is multiplied by. -/
structure Decimal where
  /-- The coefficient. -/
  coefficient : Nat
  /-- The power of ten. -/
  exponent : Int
deriving DecidableEq

namespace Decimal

/-! ## Rounding -/

/-- The place of the last bit kept, when so many significant bits of a number are kept. -/
def lastPlace (bits n : Nat) : Nat :=
  Nat.pow 2 (n.log2 + 1 - bits)

/-- The nearest number with so many significant bits.  Halfway between two of them it is the one
with an even last bit. -/
def roundToBits (bits n : Nat) : Nat :=
  let place := lastPlace bits n
  let kept := n / place
  let dropped := n % place
  if 2 * dropped < place || 2 * dropped == place && kept % 2 == 0 then kept * place
  else (kept + 1) * place

/-- A rounded number is at most half of the last place away. -/
theorem roundToBits_near (bits n : Nat) :
    2 * roundToBits bits n ≤ 2 * n + lastPlace bits n ∧
      2 * n ≤ 2 * roundToBits bits n + lastPlace bits n := by
  have hpos : 0 < lastPlace bits n := Nat.two_pow_pos _
  have hsum : lastPlace bits n * (n / lastPlace bits n) + n % lastPlace bits n = n :=
    Nat.div_add_mod n _
  have hlt : n % lastPlace bits n < lastPlace bits n := Nat.mod_lt _ hpos
  have hkept : n / lastPlace bits n * lastPlace bits n
      = lastPlace bits n * (n / lastPlace bits n) := Nat.mul_comm _ _
  simp only [roundToBits]
  split
  · rename_i h
    simp only [Bool.or_eq_true, decide_eq_true_eq, Bool.and_eq_true, beq_iff_eq] at h
    omega
  · rename_i h
    simp only [Bool.or_eq_true, decide_eq_true_eq, Bool.and_eq_true, beq_iff_eq] at h
    rw [Nat.add_mul]
    omega

/-- A number that has no more bits than are kept is left alone. -/
theorem roundToBits_eq_self {bits n : Nat} (h : n.log2 < bits) : roundToBits bits n = n := by
  have hzero : n.log2 + 1 - bits = 0 := by omega
  have hplace : lastPlace bits n = 1 := by rw [lastPlace, hzero]
  simp [roundToBits, hplace, Nat.mod_one]

/-! ## Digits -/

/-- The number a digit stands for. -/
def digitValue (c : Char) : Nat :=
  c.toNat - '0'.toNat

/-- Take the digits before the point, after a coefficient.  Once a digit does not fit in 64 bits, it
and the digits after it count for their places. -/
def takeWhole : Nat → List Char → Decimal
  | n, [] => ⟨n, 0⟩
  | n, d :: ds =>
    if n * 10 + digitValue d < UInt64.size then takeWhole (n * 10 + digitValue d) ds
    else ⟨n, (d :: ds).length⟩

/-- Take the digits after the point, as long as they fit in 64 bits. -/
def takeFraction : Decimal → List Char → Decimal
  | n, [] => n
  | n, d :: ds =>
    if n.coefficient * 10 + digitValue d < UInt64.size then
      takeFraction ⟨n.coefficient * 10 + digitValue d, n.exponent - 1⟩ ds
    else n

/-- The number with these digits before and after the point, times a power of ten. -/
def ofDigits (whole fraction : List Char) (exponent : Int) : Decimal :=
  let n := takeFraction (takeWhole 0 whole) fraction
  ⟨n.coefficient, n.exponent + exponent⟩

/-! ## The range -/

/-- Whether a number can be held in double precision.  Powers of ten above the 308th cannot, and
they are told apart first, so that no power larger than this is ever computed. -/
def isHeld (n : Decimal) : Bool :=
  n.coefficient == 0 || n.exponent < 0 ||
    n.exponent ≤ 308 &&
      roundToBits 53 (roundToBits 53 n.coefficient * roundToBits 53 (Nat.pow 10 n.exponent.toNat))
        < Nat.pow 2 1024

/-- The text of a number. -/
def text (n : Decimal) : String :=
  toString n.coefficient ++ "e" ++ toString n.exponent

/-! ## Tests -/

section Tests

/-- Halfway between two numbers of 53 bits, the last bit comes out even. -/
example : roundToBits 53 (2 ^ 53 + 1) = 2 ^ 53 ∧ roundToBits 53 (2 ^ 53 + 3) = 2 ^ 53 + 4 := by
  decide +kernel

/-- The digit that does not fit counts for its place, and so do those after it. -/
example : ofDigits "184467440737095516167".toList [] 0 = ⟨1844674407370955161, 2⟩ := by
  decide +kernel

example : ofDigits ['1'] ['2', '5'] 7 = ⟨125, 5⟩ := by decide +kernel

example : isHeld ⟨1, 308⟩ ∧ ¬ isHeld ⟨1, 309⟩ := by decide +kernel

/-- The largest number in the range can be held with its seventeen digits, and not with three zeros
after them. -/
example : isHeld ⟨17976931348623157, 292⟩ ∧
    ¬ isHeld ⟨17976931348623157000, 289⟩ := by decide +kernel

end Tests

end Decimal

end SoapPolicy
