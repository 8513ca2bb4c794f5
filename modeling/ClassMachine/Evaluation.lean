import ClassMachine.Primitive

/-!
# Evaluating expressions

Each form of expression is evaluated by a definition of its own, which leaves the
evaluation of its parts to a performer. `ClassMachine.step` ties the forms and the
constructors together into a performer that is one level deeper than the given one,
and `ClassMachine.interpret` iterates it: it performs a task with at most so many
levels, and is broken off where a task needs more. So a task ends exactly if some
number of levels is enough for it.
-/

namespace ClassMachine

variable (settings : Settings) (perform : Performer) (ctx : Context)

/-! ### Parts -/

/-- Evaluates an expression. -/
def evaluate (e : Expr) : Action Value :=
  perform (.eval e ctx)

/-- Evaluates an expression that may be absent. -/
def evaluateOptional : Option Expr → Action Value
  | some e => evaluate perform ctx e
  | none => pure .undefined

/-- Evaluates expressions in order and answers with all values. -/
def evaluateAll : List Expr → Action (List Value)
  | [] => pure []
  | e :: rest => do
    let v ← evaluate perform ctx e
    let vs ← evaluateAll rest
    pure (v :: vs)

/-! ### Control -/

/-- Evaluates expressions in order and answers with the value of the last one. -/
def evaluateSequence (last : Value) : List Expr → Action Value
  | [] => pure last
  | e :: rest => do
    let v ← evaluate perform ctx e
    evaluateSequence v rest

/-- Evaluates the body; a failure goes into registers and the handler takes over. -/
def evaluateAttempt (body : Expr) (handler : Option Expr) : Action Value := do
  match ← observe (evaluate perform ctx body) with
  | .ok v => pure v
  | .error e =>
    note (.caught e)
    writeRegister "err" (.str e.text)
    writeRegister "kind" (.str e.word)
    evaluateOptional perform ctx handler

/-- Evaluates the body for each round, from the given one on. -/
def evaluateRounds (body : Expr) : Nat → Nat → Action Unit
  | _, 0 => pure ()
  | round, left + 1 => do
    writeRegister "i" (.ofNat round)
    discard <| evaluate perform ctx body
    evaluateRounds body (round + 1) left

/-! ### Definitions -/

/-- The property key that an expression, if there is one, evaluates to. -/
def evaluateName : Option Expr → Action (Option String)
  | some e => do return some (← evaluate perform ctx e).propertyKey
  | none => pure none

/-- The value that an expression, if there is one, evaluates to. -/
def evaluateHeritage : Option Expr → Action (Option Value)
  | some e => do return some (← evaluate perform ctx e)
  | none => pure none

/-- Makes the function of a method; a field stays as it is written. -/
def makeElement : ElementExpr → Action ClassElement
  | .method name kind isStatic functionName body => do
    return .method name kind isStatic (← newFunction functionName body)
  | .field name isStatic initializer => pure (.field name isStatic initializer)

/-- Makes the functions of all methods. -/
def makeElements : List ElementExpr → Action (List ClassElement)
  | [] => pure []
  | e :: rest => do
    let first ← makeElement e
    let others ← makeElements rest
    pure (first :: others)

/-- Evaluates the name, then the heritage, and then defines the class. -/
def evaluateClass (c : ClassExpr) : Action ClassId := do
  let name ← evaluateName perform ctx c.name
  let heritage ← evaluateHeritage perform ctx c.heritage
  let elements ← makeElements c.elements
  defineClass perform { name, heritage, constructor := c.constructor, elements }

/-- One half of an accessor, which null leaves out. -/
def accessorOf : Value → Action (Option Function)
  | .function f => pure (some f)
  | .null => pure none
  | _ => raise .functionExpected

/-- Evaluates the values of a property. -/
def evaluateProperty : PropertyExpr → Action Property
  | .data value writable enumerable configurable => do
    return .data (← evaluate perform ctx value) writable enumerable configurable
  | .accessor getter setter enumerable configurable => do
    let getter ← accessorOf (← evaluate perform ctx getter)
    let setter ← accessorOf (← evaluate perform ctx setter)
    return .accessor getter setter enumerable configurable

/-! ### Operations that may run client code -/

/-- Performs an operation that may run client code. -/
def performReentry (op : Reentry) (args : List Value) : Action Value :=
  let first := argAt args 0
  let second := argAt args 1
  let third := argAt args 2
  match op with
  | .super => do return .ref (← superCall perform args)
  | .forwardSuper => do return .ref (← superCall perform ctx.args)
  | .construct => do
    return .ref (← construct settings perform (← classIdOf first) (args.drop 1))
  | .constructValue => do return .ref (← constructValue settings perform first (args.drop 1))
  | .get => readProperty perform first second.propertyKey
  | .set => do
    assignProperty perform first second.propertyKey third
    return .undefined
  | .call => callValue perform first second (args.drop 2)
  | .invoke => invokeMethod perform first second.propertyKey (args.drop 2)
  | .getFor => do readFrom perform (← objectOf first) second.propertyKey third

/-! ### Expressions -/

/-- Evaluates an expression, its parts through the performer. -/
def evaluateExpr : Expr → Action Value
  | .literal l => pure l.value
  | .malformed defect => raise (.malformed defect)
  | .sequence steps => evaluateSequence perform ctx .undefined steps
  | .choose condition yes no => do
    if (← evaluate perform ctx condition).isTrue then evaluate perform ctx yes
    else evaluateOptional perform ctx no
  | .attempt body handler => evaluateAttempt perform ctx body handler
  | .loop rounds body => do
    evaluateRounds perform ctx body 0 rounds
    return .undefined
  | .assign name value => do
    let v ← evaluate perform ctx value
    writeRegister name v
    return v
  | .function name body => do return .function (← newFunction name body)
  | .classDefinition c => do return .ofNat (← evaluateClass perform ctx c)
  | .replaceInitializer cls name initializer => do
    let id ← classIdOf (← evaluate perform ctx cls)
    let key := (← evaluate perform ctx name).propertyKey
    replaceInitializer id key initializer
    return .undefined
  | .defineProperty object key property => do
    let target ← evaluate perform ctx object
    let key := (← evaluate perform ctx key).propertyKey
    let p ← evaluateProperty perform ctx property
    defineForClient (← objectOf target) key p
    return .undefined
  | .primitive op args => do performPrimitive ctx op (← evaluateAll perform ctx args)
  | .reentry op args => do performReentry settings perform ctx op (← evaluateAll perform ctx args)

/-! ### Levels -/

/-- Performs a task, everything inside it through the performer. -/
def step : Performer := fun _ task =>
  match task with
  | .eval e ctx => evaluateExpr settings perform ctx e
  | .construct cls newTarget args => constructFor settings perform cls newTarget args

/-- Performs a task with at most so many levels. -/
def interpret : Nat → Performer
  | 0 => fun _ _ => breakOff
  | levels + 1 => fun _ task => step settings (fun _ inner => interpret levels inner) task

/-- No level is enough for nothing. -/
theorem interpret_zero {α : Type} (task : Task α) :
    interpret settings 0 task = breakOff := rfl

/-- One more level performs one step more. -/
theorem interpret_succ {α : Type} (levels : Nat) (task : Task α) :
    interpret settings (levels + 1) task = step settings (interpret settings levels) task := rfl

end ClassMachine
