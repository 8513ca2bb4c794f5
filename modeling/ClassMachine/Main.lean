import ClassMachine.Demo

/-!
# The command line

Runs the demonstration under the variables of the environment.
-/

namespace ClassMachine

/-- The value of a variable of the environment. -/
def Setting.read (name : String) : IO Setting := do
  match ← IO.getEnv name with
  | some value => return .text value
  | none => return .unset

end ClassMachine

open ClassMachine in
/-- Runs the demonstration and ends with its exit code. -/
def main : IO UInt32 := do
  let depth ← Setting.read Config.depthVariable
  let log ← Setting.read Config.logVariable
  match Demo.outcome? depth log with
  | some outcome =>
    IO.print outcome.output
    IO.eprint outcome.diagnostics
    return outcome.exitCode.toUInt32
  | none => return 3
