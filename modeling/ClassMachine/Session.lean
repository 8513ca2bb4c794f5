import ClassMachine.Evaluation

/-!
# Sessions

A program is a list of expressions, run one after the other on the same machine. A
step that fails does not stop the program. For each step there is a report: its
outcome, what it has written to the log – also before it failed – and how many
classes there are after it.
-/

namespace ClassMachine

/-- What is known of a step after it has ended. -/
structure Report where
  outcome : Except Failure Value
  /-- What the step has written to the log, in order. -/
  log : List Entry
  classCount : Nat

/-- Runs a step with an empty log. There is no report if it does not end. -/
def runStep (settings : Settings) (levels : Nat) (e : Expr) (m : Machine) :
    Option (Report × Machine) :=
  match (interpret settings levels (.eval e {})).outcome { m with log := [] } with
  | (some outcome, m') =>
    some ({ outcome, log := m'.log.reverse, classCount := m'.registry.size }, m')
  | (none, _) => none

/-- Runs a program, up to a step that does not end. -/
def runProgram (settings : Settings) (levels : Nat) : Machine → List Expr → List Report
  | _, [] => []
  | m, e :: rest =>
    match runStep settings levels e m with
    | some (report, m') => report :: runProgram settings levels m' rest
    | none => []

end ClassMachine
