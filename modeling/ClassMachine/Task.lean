import ClassMachine.Machine

/-!
# Tasks

Two things can be asked of the machine from anywhere: to evaluate an expression in a
context, and to run the constructor of a class for a new-target. They need each
other, through any amount of client code, so neither can be defined before the
other. `ClassMachine.Task` names the two requests, each with the type of its answer,
and every operation of the machine that may run client code takes as an argument
the way in which tasks are performed, a `ClassMachine.Performer`. What is shown of
an operation is then shown for every performer of which the same is known.
-/

namespace ClassMachine

/-- What running code has at hand. -/
structure Context where
  receiver : Value := .undefined
  args : List Value := []

/-- A request to the machine, with the type of its answer. -/
inductive Task : Type → Type
  /-- Evaluate an expression. -/
  | eval (e : Expr) (ctx : Context) : Task Value
  /-- Run the constructor of a class, for an instance of the new-target. -/
  | construct (cls newTarget : ClassId) (args : List Value) : Task ObjectId

/-- A way to perform tasks. -/
abbrev Performer := ∀ ⦃α : Type⦄, Task α → Action α

/-- Calls a function. -/
def callFunction (perform : Performer) (f : Function) (receiver : Value) (args : List Value) :
    Action Value :=
  perform (.eval f.body { receiver, args })

end ClassMachine
