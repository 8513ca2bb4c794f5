import ClassMachine.Session
import ClassMachine.Config

/-!
# A demonstration

Two classes, a point in the plane and one in space derived from it, an instance of
the second one, and its properties on the output. The classes are

```text
class Point { x = 1; y = this.x + 1; static origin = "0,0" }
class Point3 extends Point {
  get z() { return 3 }
  z
  constructor(...args) { super(...args); this.label = "(x, y, z)" }
}
```

`ClassMachine.Demo.outcome?` is what a run leaves behind under given variables of the
environment: an exit code, the output, and what goes to the diagnostic channel.
-/

namespace ClassMachine

namespace Demo

/-! ### The two classes -/

/-- A string that is written down. -/
def str (s : String) : Expr :=
  .literal (.str s)

/-- A number that is written down. -/
def num (x : Float) : Expr :=
  .literal (.number x)

/-- The content of a register. -/
def register (name : String) : Expr :=
  .primitive .register [str name]

/-- A property of what an expression evaluates to. -/
def property (target : Expr) (key : String) : Expr :=
  .reentry .get [target, str key]

/-- The receiver of the running code. -/
def receiver : Expr :=
  .primitive .receiver []

/-- A point in the plane. -/
def point : ClassExpr where
  name := some (str "Point")
  heritage := none
  constructor := none
  elements := [
    .field (.literal "x") false (some (num 1)),
    .field (.literal "y") false
      (some (.primitive .add [.primitive .expectNumber [property receiver "x"], num 1])),
    .field (.literal "origin") true (some (str "0,0"))]

/-- The label of the object in the register `this`. -/
def label : Expr :=
  let this := register "this"
  .primitive .concat [str "(", property this "x", str ", ", property this "y", str ", ",
    property this "z", str ")"]

/-- A point in space; its heritage is in the register `Point`. -/
def point3 : ClassExpr where
  name := some (str "Point3")
  heritage := some (register "Point")
  constructor := some (.sequence [
    .assign "this" (.reentry .forwardSuper []),
    .reentry .set [register "this", str "label", label]])
  elements := [
    .method "z" .getter false "z" (num 3),
    .field (.literal "z") false none]

/-! ### The run -/

/-- Writes a line to the output. -/
def printLine (line : String) : Action Unit :=
  writeLog (.value (.str line))

/-- Writes the properties of an object to the output, a line for each. -/
def printProperties (perform : Performer) (target : Value) : List String → Action Unit
  | [] => pure ()
  | key :: rest => do
    let v ← readProperty perform target key
    printLine (key ++ " = " ++ v.text)
    printProperties perform target rest

/-- Defines the classes, constructs a point in space and shows it. -/
def run (settings : Settings) (perform : Performer) : Action Unit := do
  let pointId ← evaluateClass perform {} point
  let pointClass := Value.ref (← classAt pointId).classObject
  writeRegister "Point" pointClass
  let point3Id ← evaluateClass perform {} point3
  let origin ← readProperty perform pointClass "origin"
  printLine ("Point.origin = " ++ origin.text)
  let made ← construct settings perform point3Id []
  printProperties perform (.ref made) (← objectAt made).keys

/-! ### What a run leaves behind -/

/-- The result of a run of the program. -/
structure Outcome where
  exitCode : UInt8
  output : String := ""
  diagnostics : String := ""
  deriving DecidableEq, Repr

/-- Lines of text, each with its end. -/
def unlines (lines : List String) : String :=
  String.join (lines.map fun line => line ++ "\n")

/-- The lines on the output of a machine. -/
def outputLines (m : Machine) : List String :=
  m.log.reverse.filterMap fun
    | .value v => some v.text
    | _ => none

/-- The announcements of a machine, as its log shows them. -/
def announcedLines (settings : Settings) (m : Machine) : List String :=
  if settings.announces then
    (m.trace.reverse.filterMap Event.line?).map fun line => "INFO: " ++ line
  else []

/-- The lines about a failure: one in the log, if it shows errors, and one beside
it. -/
def failureLines (settings : Settings) (e : Failure) : List String :=
  (if settings.verbosity.shows .error then ["ERROR: " ++ e.text] else []) ++ [e.text]

/-- The outcome of a run under the settings, if so many levels are enough. -/
def outcomeUnder? (levels : Nat) (settings : Settings) : Option Outcome :=
  match (run settings (interpret settings levels)).outcome .initial with
  | (some (.ok ()), m) =>
    some {
      exitCode := 0
      output := unlines (outputLines m)
      diagnostics := unlines (announcedLines settings m) }
  | (some (.error e), m) =>
    some {
      exitCode := 1
      output := unlines (outputLines m)
      diagnostics := unlines (announcedLines settings m ++ failureLines settings e) }
  | (none, _) => none

/-- The outcome of a run under the variables of the environment. Sixteen levels are
enough for the two classes. -/
def outcome? (depth log : Setting) : Option Outcome :=
  match Config.ofEnvironment depth log with
  | .ok config => outcomeUnder? 16 config.settings
  | .error f => some { exitCode := 2, diagnostics := unlines [f.line] }

/-! ### Examples -/

example : outcome? .unset .unset =
    some {
      exitCode := 0
      output := "Point.origin = 0,0\nx = 1\ny = 2\nz = 3\nlabel = (1, 2, 3)\n" } := by
  decide +kernel

example : outcome? (.text "1") .unset =
    some {
      exitCode := 1
      output := "Point.origin = 0,0\n"
      diagnostics :=
        "ERROR: ConstructionError: Maximum construction depth of 1 exceeded\n" ++
        "ConstructionError: Maximum construction depth of 1 exceeded\n" } := by
  decide +kernel

end Demo

end ClassMachine
