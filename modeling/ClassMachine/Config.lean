import ClassMachine.Settings

/-!
# Configuration from the environment

Two variables of the environment configure a machine. The depth limit is a decimal
number below `2 ^ 64`, with any number of leading zeros and at most one plus sign in
front; the log filter is any text. A variable whose bytes are no text counts as
unset.

`ClassMachine.Config.readDepth` reads the number from the left and stops at the first
character that makes it impossible: one that is no digit, or the digit with which
the value reaches `2 ^ 64`.
-/

namespace ClassMachine

/-! ### Variables -/

/-- A variable of the environment. -/
inductive Setting
  | unset
  | text (s : String)
  /-- Bytes that are no text. -/
  | undecodable
  deriving DecidableEq, Repr

namespace Setting

/-- The variable that holds the bytes. -/
def ofBytes (bytes : ByteArray) : Setting :=
  match String.fromUTF8? bytes with
  | some s => .text s
  | none => .undecodable

/-- The text of the variable, if it has one. -/
def text? : Setting → Option String
  | text s => some s
  | unset | undecodable => none

end Setting

/-! ### Numbers -/

namespace Config

/-- The variable with the depth limit. -/
def depthVariable : String :=
  "CLASS_FIELDS_MAX_DEPTH"

/-- The variable with the log filter. -/
def logVariable : String :=
  "CLASS_FIELDS_LOG"

/-- What is wrong with the text of a number. -/
inductive DepthFault
  | empty
  | notDigit
  | tooLarge
  deriving DecidableEq, Repr

/-- The wording of what is wrong. -/
def DepthFault.message : DepthFault → String
  | empty => "cannot parse integer from empty string"
  | notDigit => "invalid digit found in string"
  | tooLarge => "number too large to fit in target type"

/-- Depth limits are below this bound, the sixty-fourth power of two. -/
def depthBound : Nat :=
  18446744073709551616

/-- Reads digits from the left, with the value of the digits before them. -/
def readDigits : Nat → List Char → Except DepthFault Nat
  | value, [] => .ok value
  | value, c :: rest =>
    if c.isDigit then
      let longer := 10 * value + (c.toNat - '0'.toNat)
      if longer < depthBound then readDigits longer rest else .error .tooLarge
    else .error .notDigit

/-- Reads a depth limit. A sign alone has no digit. -/
def readDepth (s : String) : Except DepthFault Nat :=
  match s.toList with
  | [] => .error .empty
  | ['+'] => .error .notDigit
  | '+' :: digits => readDigits 0 digits
  | digits => readDigits 0 digits

end Config

/-! ### Configurations -/

/-- What the environment configures. -/
structure Config where
  maxDepth : Nat := 256
  logFilter : Option String := none
  deriving DecidableEq, Repr

/-- A depth limit that cannot be read. -/
structure ConfigFault where
  text : String
  reason : Config.DepthFault
  deriving DecidableEq, Repr

namespace ConfigFault

/-- The layers of the fault, outermost first. -/
def chain (f : ConfigFault) : List String :=
  [Config.depthVariable ++ " is not a number: " ++ f.text, f.reason.message]

/-- The layers on one line. -/
def line (f : ConfigFault) : String :=
  ": ".intercalate f.chain

end ConfigFault

namespace Config

/-- The depth limit that a variable sets. -/
def depthOf : Setting → Except ConfigFault Nat
  | .text s =>
    match readDepth s with
    | .ok depth => .ok depth
    | .error reason => .error { text := s, reason }
  | .unset | .undecodable => .ok ({} : Config).maxDepth

/-- The configuration under the values of the two variables. -/
def ofEnvironment (depth log : Setting) : Except ConfigFault Config :=
  match depthOf depth with
  | .ok maxDepth => .ok { maxDepth, logFilter := log.text? }
  | .error f => .error f

/-- The verbosity that a filter stands for. Without a filter only errors are shown; a
filter that is no verbosity is about some other component. -/
def verbosity (c : Config) : Verbosity :=
  match c.logFilter with
  | none | some "" => .error
  | some word => (Verbosity.ofWord? word).getD .off

/-- The settings of a machine under the configuration. -/
def settings (c : Config) : Settings :=
  { maxDepth := c.maxDepth, verbosity := c.verbosity }

/-! ### Examples -/

example : depthBound = Nat.pow 2 64 := by decide +kernel
example : readDepth "+007" = .ok 7 := by cbv
example : readDepth "+" = .error .notDigit := by cbv
example : readDepth "-0" = .error .notDigit := by cbv
example : readDepth "18446744073709551615" = .ok 18446744073709551615 := by cbv
example : readDepth "18446744073709551616" = .error .tooLarge := by cbv
example : readDepth "18446744073709551616x" = .error .tooLarge := by cbv
example : readDepth "1844674407370955161x6" = .error .notDigit := by cbv

end Config

end ClassMachine
