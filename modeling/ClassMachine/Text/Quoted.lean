import ClassMachine.Text.Unprintable
import ClassMachine.Text.Extending

/-!
# Text in quotes

A text stands between double quotes, with a backslash before a double quote and
before a backslash, short names for line feed, carriage return, tab and the
character zero, and the code point in braces for every other character that
cannot be printed or that extends the one before it. All else stands for itself,
the single quote too. `ClassMachine.Text.quoted` writes this form.
-/

namespace ClassMachine

namespace Text

/-- A character shown by number: a backslash, `u` and the code point in braces, in
lower case hexadecimal. -/
def numbered (c : Char) : List Char :=
  ['\\', 'u', '\x7b'] ++ Nat.toDigits 16 c.toNat ++ ['\x7d']

/-- How a character stands between quotes. -/
def escaped (c : Char) : List Char :=
  match c with
  | '"' => ['\\', '"']
  | '\\' => ['\\', '\\']
  | '\n' => ['\\', 'n']
  | '\r' => ['\\', 'r']
  | '\t' => ['\\', 't']
  | '\x00' => ['\\', '0']
  | c => if isUnprintable c || isExtending c then numbered c else [c]

/-- The text in quotes. -/
def quoted (s : String) : String :=
  String.ofList ('"' :: s.toList.flatMap escaped ++ ['"'])

/-! ### Examples -/

example : quoted "it's \"a\\b\"" = "\"it's \\\"a\\\\b\\\"\"" := by decide +kernel
example : quoted "\n\r\t\x00" = "\"\\n\\r\\t\\0\"" := by decide +kernel
example : quoted "\x1bé日😀\x7f" = "\"\\u\x7b1b\x7dé日😀\\u\x7b7f\x7d\"" := by
  decide +kernel

end Text

end ClassMachine
