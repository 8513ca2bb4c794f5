import ClassMachine.Decimal

/-!
# The shortest decimal that reads back

Every finite double is a whole number of some power of two, and the reals that
round to it form an interval around it. The text of a double uses the fewest
digits that lie in this interval; of the numerals of that length it takes the
nearest to the double, and of two equally near ones the upper.

* `ClassMachine.BinaryFraction` is a double taken apart, sign left out;
* `ClassMachine.Neighbourhood` is the interval on one decimal grid, as whole
  numbers, so that membership and distance are exact;
* `ClassMachine.Decimal.shortest` runs through the grids of 1, 2, … 17 digits and
  stops at the first one with a point in the interval.

If a grid has a point in the interval, one of the two grid points next to the
double lies there, so only these two are looked at. Seventeen digits always
suffice.
-/

namespace ClassMachine

/-! ### Doubles as binary fractions -/

/-- The number `mantissa * 2 ^ exponent`. `lowerNear` says that the next smaller
double is only half a unit away, as it is at powers of two. -/
structure BinaryFraction where
  mantissa : Nat
  exponent : Int
  lowerNear : Bool
  deriving DecidableEq, Repr

namespace BinaryFraction

/-- The magnitude of a finite double: the exponent field, biased by 1075 units in
the last place, and 52 bits of fraction below a leading one that only subnormal
numbers lack. -/
def ofFloat (x : Float) : BinaryFraction :=
  let bits := x.toBits.toNat
  let fraction : Nat := bits % Nat.pow 2 52
  let field : Nat := bits / Nat.pow 2 52 % Nat.pow 2 11
  if field = 0 then ⟨fraction, -1074, false⟩
  else ⟨Nat.pow 2 52 + fraction, (field : Int) - 1075, fraction = 0 ∧ 1 < field⟩

/-- Numerator of the number in quarters of a unit, beside `denominator`. -/
def scale (b : BinaryFraction) : Nat :=
  if 2 ≤ b.exponent then Nat.pow 2 (b.exponent - 2).toNat else 1

/-- Denominator that goes with `scale`. -/
def denominator (b : BinaryFraction) : Nat :=
  if 2 ≤ b.exponent then 1 else Nat.pow 2 (2 - b.exponent).toNat

/-- The `k` with `10 ^ (k - 1) ≤ b < 10 ^ k`, for a number that is not zero. -/
def decade (b : BinaryFraction) : Int :=
  let num := 4 * b.mantissa * b.scale
  let den := b.denominator
  if den ≤ num then Decimal.digitCount (num / den)
  else 1 - (Decimal.digitCount ((den + num - 1) / num - 1) : Int)

end BinaryFraction

/-! ### One decimal grid -/

/-- A double and the reals that round to it, measured on a decimal grid: in units
of the grid they are `centre / unit`, and `low / unit` to `high / unit`. -/
structure Neighbourhood where
  low : Nat
  centre : Nat
  high : Nat
  unit : Nat
  closed : Bool
  deriving Repr

namespace Neighbourhood

/-- The grid of `count` significant digits: its unit is `10 ^ (decade - count)`. A
tie between two doubles goes to the even mantissa, so exactly then the ends
belong to the interval. -/
def ofFraction (b : BinaryFraction) (count : Nat) : Neighbourhood :=
  let shift := (count : Int) - b.decade
  let scale := b.scale * (if 0 ≤ shift then Nat.pow 10 shift.toNat else 1)
  let unit := b.denominator * (if 0 ≤ shift then 1 else Nat.pow 10 shift.natAbs)
  { low := (4 * b.mantissa - if b.lowerNear then 1 else 2) * scale
    centre := 4 * b.mantissa * scale
    high := (4 * b.mantissa + 2) * scale
    unit := unit
    closed := b.mantissa % 2 = 0 }

/-- Does the grid point `d` round to the double? -/
def contains (h : Neighbourhood) (d : Nat) : Bool :=
  if h.closed then h.low ≤ d * h.unit && d * h.unit ≤ h.high
  else h.low < d * h.unit && d * h.unit < h.high

/-- The nearest grid point that rounds to the double, if there is one; the upper
of two equally near ones. -/
def nearest? (h : Neighbourhood) : Option Nat :=
  let below := h.centre / h.unit
  let above := below + 1
  match h.contains below, h.contains above with
  | true, true =>
    if h.centre - below * h.unit < above * h.unit - h.centre then some below else some above
  | true, false => some below
  | false, true => some above
  | false, false => none

/-- What is chosen rounds to the double. -/
theorem contains_of_nearest? {h : Neighbourhood} {d : Nat} (hd : h.nearest? = some d) :
    h.contains d = true := by
  unfold nearest? at hd
  simp only at hd
  split at hd
  · split at hd <;> (cases hd; assumption)
  · cases hd; assumption
  · cases hd; assumption
  · cases hd

end Neighbourhood

/-! ### The search -/

namespace Decimal

/-- Tries `fuel` grids, from `count` significant digits upwards. -/
def firstGrid (b : BinaryFraction) : Nat → Nat → Option Decimal
  | 0, _ => none
  | fuel + 1, count =>
    match (Neighbourhood.ofFraction b count).nearest? with
    | some d => some ⟨d, b.decade - count⟩
    | none => firstGrid b fuel (count + 1)

/-- The fewest digits that read back as the magnitude of the double `x`, which is
finite. -/
def shortest (x : Float) : Decimal :=
  let b := BinaryFraction.ofFloat x
  if b.mantissa = 0 then ⟨0, 0⟩
  else ((firstGrid b 17 1).getD ⟨b.mantissa, 0⟩).normalize

/-! ### Examples -/

example : shortest 0.1 = ⟨1, -1⟩ := by decide +kernel
example : shortest 5e-324 = ⟨5, -324⟩ := by decide +kernel
example : shortest 9007199254740993 = ⟨9007199254740992, 0⟩ := by decide +kernel
example : shortest 1.7976931348623157e308 = ⟨17976931348623157, 292⟩ := by decide +kernel
example : shortest 2.98023223876953125e-8 = ⟨29802322387695313, -24⟩ := by decide +kernel
example : shortest 0 = ⟨0, 0⟩ := by decide +kernel

end Decimal

end ClassMachine
