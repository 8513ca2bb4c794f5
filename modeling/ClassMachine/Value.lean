import ClassMachine.Expr
import ClassMachine.Decimal.Shortest

/-!
# Values

A value is a primitive, a reference to an object of the store, or a function.
Objects and functions have an identity: an object is known by its place in the
store, a function by the number it got when it was made. Numbers compare as
doubles do, so `NaN` differs from itself and the two zeros are equal.

`ClassMachine.Value.text` is the text of a value for clients. It is also the key
under which a property of that name is stored, `ClassMachine.Value.propertyKey`.
-/

namespace ClassMachine

/-- An object is known by its place in the store. -/
abbrev ObjectId := Nat

/-- A class is known by the number its definition drew. -/
abbrev ClassId := Nat

/-- A callable piece of client code. The number is its identity: two functions
made at different times differ even when they look the same. -/
structure Function where
  id : Nat
  name : String
  body : Expr

/-- What registers, properties and arguments hold. -/
inductive Value
  /-- The absence of a value, also what a missing property reads as. -/
  | undefined
  /-- A reference to nothing. -/
  | null
  | bool (b : Bool)
  | number (x : Float)
  | str (s : String)
  /-- A reference to an object. -/
  | ref (id : ObjectId)
  | function (f : Function)

instance : Inhabited Value := ⟨.undefined⟩

/-- The value that a literal denotes. -/
def Literal.value : Literal → Value
  | .undefined => .undefined
  | .null => .null
  | .bool b => .bool b
  | .number x => .number x
  | .str s => .str s

namespace Value

/-- A number that counts something. -/
def ofNat (n : Nat) : Value :=
  .number (Float.ofNat n)

/-! ### Equality -/

/-- Equality as clients see it: primitives by content, objects and functions by
identity, and never across kinds. -/
def sameAs : Value → Value → Bool
  | undefined, undefined => true
  | null, null => true
  | bool a, bool b => a == b
  | number x, number y => x == y
  | str s, str t => s == t
  | ref i, ref j => i == j
  | function f, function g => f.id == g.id
  | _, _ => false

/-! ### Numbers -/

/-- The number that arithmetic sees; whatever is no number counts as `NaN`. -/
def toFloat : Value → Float
  | number x => x
  | _ => 0 / 0

/-- The value as a natural number that fits 32 bits. -/
def toWord? : Value → Option Nat
  | number x =>
    let word := x.toUInt32.toNat
    if Float.ofNat word == x then some word else none
  | _ => none

/-- Does the double carry a minus sign? -/
def isNegative (x : Float) : Bool :=
  Nat.pow 2 63 ≤ x.toBits.toNat

/-- The text of a number: the shortest decimal that reads back, every digit in its
place, whole numbers without a fraction. -/
def numberText (x : Float) : String :=
  if x.isNaN then "NaN"
  else
    let sign := if isNegative x then "-" else ""
    if x.isInf then sign ++ "Infinity" else sign ++ (Decimal.shortest x).positional

/-- The diagnostic text of a number. It always shows that it is one: a whole number
has a fraction, and from `10 ^ 16` upwards and below `10 ^ (-4)` there is an
exponent. -/
def numberDebug (x : Float) : String :=
  if x.isNaN then "NaN"
  else
    let sign := if isNegative x then "-" else ""
    if x.isInf then sign ++ "inf"
    else
      let d := Decimal.shortest x
      let magnitude := d.exponent + (Decimal.digitCount d.digits : Int)
      if d.digits ≠ 0 ∧ (16 < magnitude ∨ magnitude < -3) then sign ++ d.scientific
      else if 0 ≤ d.exponent then sign ++ d.positional ++ ".0"
      else sign ++ d.positional

/-! ### Text -/

/-- The text of a value for clients. -/
def text : Value → String
  | undefined => "undefined"
  | null => "null"
  | bool b => if b then "true" else "false"
  | number x => numberText x
  | str s => s
  | ref _ => "[object Object]"
  | function f => "function " ++ f.name

/-- The key under which a property called by this value is stored. -/
def propertyKey (v : Value) : String :=
  v.text

/-- A string is its own key. -/
@[simp] theorem propertyKey_str (s : String) : propertyKey (.str s) = s := rfl

/-- Is the value exactly *true*? -/
def isTrue : Value → Bool
  | bool b => b
  | _ => false

end Value

/-! ### Examples -/

example : Value.numberText (-0.0) = "-0" := by decide +kernel
example : Value.numberText 1e23 = "100000000000000000000000" := by decide +kernel
example : Value.numberText (0 / 0) = "NaN" := by decide +kernel
example : Value.numberText (-1 / 0) = "-Infinity" := by decide +kernel
example : Value.numberDebug 1 = "1.0" := by decide +kernel
example : Value.numberDebug 1e16 = "1e16" := by decide +kernel
example : Value.numberDebug 9999999999999998 = "9999999999999998.0" := by decide +kernel
example : Value.numberDebug 0.0001 = "0.0001" := by decide +kernel
example : Value.numberDebug 0.00001 = "1e-5" := by decide +kernel
example : (Value.number 4294967295).toWord? = some 4294967295 := by decide +kernel
example : (Value.number 4294967296).toWord? = none := by decide +kernel
example : (Value.number 1.5).toWord? = none := by decide +kernel

end ClassMachine
