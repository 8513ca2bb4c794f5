import ClassMachine.Decimal

/-!
# Reading a double

A number is written as a sign, a numeral and a power of ten, of which only the
numeral is required; it may also be `nan`, `inf` or `infinity`, in any case.
`ClassMachine.Decimal.readFloat?` reads such a text and
`ClassMachine.Decimal.toFloat` rounds the decimal it denotes to the nearest
double.
-/

namespace ClassMachine

namespace Decimal

/-! ### Rounding -/

/-- The nearest double. Beyond ten to the four hundredth on either side every
decimal is infinite or zero, so the power of ten is never built there. -/
def toFloat (d : Decimal) : Float :=
  let magnitude := d.exponent + (digitCount d.digits : Int)
  if d.digits = 0 ∨ magnitude < -400 then 0
  else if 400 < magnitude then 1 / 0
  else Float.ofScientific d.digits (d.exponent < 0) d.exponent.natAbs

/-! ### Grammar -/

/-- The number that a list of decimal digits denotes. -/
def ofDigits (digits : List Char) : Nat :=
  digits.foldl (fun n c => 10 * n + (c.toNat - '0'.toNat)) 0

/-- At least one digit, after an optional sign. -/
def signedInteger? (cs : List Char) : Option Int :=
  let (negative, digits) := match cs with
    | '-' :: rest => (true, rest)
    | '+' :: rest => (false, rest)
    | _ => (false, cs)
  if digits ≠ [] ∧ digits.all Char.isDigit then
    some (if negative then -(ofDigits digits : Int) else ofDigits digits)
  else none

/-- The power of ten behind a numeral; no text means the zeroth. -/
def power? : List Char → Option Int
  | [] => some 0
  | c :: rest => if c = 'e' ∨ c = 'E' then signedInteger? rest else none

/-- Digits with at most one point among them, then a power of ten. -/
def ofChars? (cs : List Char) : Option Decimal :=
  let whole := cs.takeWhile Char.isDigit
  let rest := cs.dropWhile Char.isDigit
  let (fraction, rest) := match rest with
    | '.' :: behind => (behind.takeWhile Char.isDigit, behind.dropWhile Char.isDigit)
    | _ => ([], rest)
  if whole = [] ∧ fraction = [] then none
  else (power? rest).map fun power =>
    ⟨ofDigits (whole ++ fraction), power - (fraction.length : Int)⟩

/-! ### Texts -/

/-- A magnitude: a decimal, or one of the words for infinity and for what is not
a number. -/
def magnitude? (cs : List Char) : Option Float :=
  let word := String.ofList (cs.map Char.toLower)
  if word = "inf" ∨ word = "infinity" then some (1 / 0)
  else if word = "nan" then some (0 / 0)
  else (ofChars? cs).map toFloat

/-- The double that a text denotes. -/
def readFloat? (s : String) : Option Float :=
  match s.toList with
  | '-' :: rest => (magnitude? rest).map (fun x => -x)
  | '+' :: rest => magnitude? rest
  | cs => magnitude? cs

/-! ### Examples -/

example : ofChars? "123456.7e-12".toList = some ⟨1234567, -13⟩ := by decide +kernel
example : ofChars? ".".toList = none := by decide +kernel
example : (readFloat? "-0").map Float.toBits = some 0x8000000000000000 := by
  decide +kernel
example : (readFloat? "Infinity").map Float.toBits = some 0x7FF0000000000000 := by
  decide +kernel

end Decimal

end ClassMachine
