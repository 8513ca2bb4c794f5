/-!
# Decimal numerals and their two layouts

A decimal numeral is a whole number of some power of ten,
`ClassMachine.Decimal`. It can be laid out in two ways:

* `ClassMachine.Decimal.positional` – every digit in its place, however many
  zeros that takes, and a point only before a fraction: `1`, `0.0000001`;
* `ClassMachine.Decimal.scientific` – one digit before the point and a power of
  ten behind `e`: `1e16`, `1.5e-7`.

Which of the two a text uses, and what it does about signs and whole numbers, is
decided by whoever writes the text.
-/

namespace ClassMachine

/-- The number `digits * 10 ^ exponent`. -/
structure Decimal where
  digits : Nat
  exponent : Int
  deriving DecidableEq, Repr

namespace Decimal

/-! ### Digits -/

/-- The decimal digits of a natural number, highest first; zero has one digit. -/
def digitList (n : Nat) : List Char :=
  Nat.toDigits 10 n

/-- How many decimal digits a natural number has. -/
def digitCount (n : Nat) : Nat :=
  (digitList n).length

/-- Moves factors of ten from the digits into the exponent, at most `fuel` of them. -/
def stripZeros : Nat → Decimal → Decimal
  | 0, d => d
  | fuel + 1, d =>
    if d.digits ≠ 0 ∧ d.digits % 10 = 0 then
      stripZeros fuel ⟨d.digits / 10, d.exponent + 1⟩
    else d

/-- The same number with no factor of ten left in the digits. -/
def normalize (d : Decimal) : Decimal :=
  d.stripZeros (digitCount d.digits)

/-! ### Layouts -/

/-- Every digit in its place. The point stands only before a fraction, and a
number below one has one zero before it. -/
def positional (d : Decimal) : String :=
  let digits := digitList d.digits
  if 0 ≤ d.exponent then
    String.ofList (digits ++ List.replicate d.exponent.toNat '0')
  else
    let places := d.exponent.natAbs
    if places < digits.length then
      let whole := digits.length - places
      String.ofList (digits.take whole ++ '.' :: digits.drop whole)
    else
      String.ofList ('0' :: '.' :: (List.replicate (places - digits.length) '0' ++ digits))

/-- One digit before the point, the power of ten behind `e`; a numeral of one
digit has no point. -/
def scientific (d : Decimal) : String :=
  let digits := digitList d.digits
  let power := d.exponent + (digits.length : Int) - 1
  let mantissa := match digits with
    | [] => []
    | [c] => [c]
    | c :: rest => c :: '.' :: rest
  String.ofList mantissa ++ "e" ++ toString power

/-! ### Examples -/

example : positional ⟨1, 0⟩ = "1" := by decide +kernel
example : positional ⟨1, 23⟩ = "100000000000000000000000" := by decide +kernel
example : positional ⟨15, -1⟩ = "1.5" := by decide +kernel
example : positional ⟨1, -7⟩ = "0.0000001" := by decide +kernel
example : positional ⟨0, 0⟩ = "0" := by decide +kernel
example : scientific ⟨1, 16⟩ = "1e16" := by decide +kernel
example : scientific ⟨15, -8⟩ = "1.5e-7" := by decide +kernel
example : normalize ⟨1500, 2⟩ = ⟨15, 4⟩ := by decide +kernel

end Decimal

end ClassMachine
