import ClassMachine.Registry
import ClassMachine.Trace
import ClassMachine.Settings

/-!
# The machine and its actions

`ClassMachine.Machine` is the whole state: the store, the registry, the frames of
the constructions in progress, and what clients see of it beside – registers and
log. An action, `ClassMachine.Action`, changes the machine and answers or fails; a
failure keeps what was changed before it. An action that does not end is broken off:
it has no outcome, but it leaves the machine as it was at that moment.

There are three ways in which an action deals with failures:

* `ClassMachine.raise` is where every failure begins: it notes the fault in the trace;
* `ClassMachine.during` runs an action as part of an activity, which adds a layer to
  a failure that passes through;
* `ClassMachine.observe` turns the outcome of an action into a value, so that work
  can be done before the failure travels on, or none.
-/

namespace ClassMachine

/-! ### The state -/

/-- What clients have written to the log. -/
inductive Entry
  /-- A list of values. -/
  | values (vs : List Value)
  /-- An object as it was when it was written. -/
  | object (id : ObjectId) (snapshot : Object)
  /-- A value by itself. -/
  | value (v : Value)
  /-- A class as it was when it was written, if there was one. -/
  | cls (snapshot : Option Class)

/-- The state of the machine. Frames, log and trace have the newest entry in front. -/
structure Machine where
  store : Store := {}
  registry : Registry := {}
  frames : List Frame := []
  /-- The number that the next function gets. -/
  nextFunction : Nat := 0
  registers : Std.ExtTreeMap String Value := {}
  log : List Entry := []
  trace : List Event := []

/-- The machine before anything has run. -/
def Machine.initial : Machine := {}

/-- What changes the machine and answers, fails, or is broken off. -/
abbrev Action := ExceptT Failure (OptionT (StateM Machine))

/-- The outcome of an action on a machine, which is nothing if the action is broken
off, and the machine that it leaves. -/
def Action.outcome {α : Type} (x : Action α) (m : Machine) :
    Option (Except Failure α) × Machine :=
  x.run.run.run m

/-! ### Failures -/

/-- The action that is broken off where it stands. -/
def breakOff {α : Type} : Action α :=
  ExceptT.mk (OptionT.mk (pure none))

/-- Notes an event. -/
def note (e : Event) : Action Unit :=
  modify fun m => { m with trace := e :: m.trace }

/-- Fails with a fault that has interrupted nothing yet. -/
def raise {α : Type} (f : Fault) : Action α := do
  note (.raised f)
  throw (.ofFault f)

/-- Fails with the fault that a pure operation has found, if it has found one. -/
def demand {α : Type} : Except Fault α → Action α
  | .ok a => pure a
  | .error f => raise f

/-- Runs an action and answers with its outcome. -/
def observe {α : Type} (x : Action α) : Action (Except Failure α) :=
  ExceptT.mk do
    let r ← x.run
    pure (.ok r)

/-- Goes on as an outcome says. -/
def settle {α : Type} : Except Failure α → Action α
  | .ok a => pure a
  | .error e => throw e

/-- Runs an action as part of an activity. -/
def during {α : Type} (activity : Activity) (x : Action α) : Action α := do
  note (.began activity)
  match ← observe x with
  | .ok a =>
    note (.finished activity)
    pure a
  | .error e =>
    note (.failed activity)
    throw (e.within activity.context)

/-! ### Objects and functions -/

/-- The object at a place. -/
def objectAt (id : ObjectId) : Action Object := do
  return (← get).store.object id

/-- Replaces the object at a place. -/
def putObject (id : ObjectId) (o : Object) : Action Unit :=
  modify fun m => { m with store := m.store.put id o }

/-- Makes an object. -/
def newObject (kind : ObjectKind) (prototype : Option ObjectId) : Action ObjectId := do
  let m ← get
  let (id, store) := m.store.add { kind, prototype }
  set { m with store }
  return id

/-- Makes a function. -/
def newFunction (name : String) (body : Expr) : Action Function := do
  let m ← get
  set { m with nextFunction := m.nextFunction + 1 }
  return { id := m.nextFunction, name, body }

/-- Defines a property of an object. -/
def defineOn (id : ObjectId) (key : String) (p : Property) : Action Unit := do
  putObject id (← demand ((← objectAt id).define key p))

/-! ### Classes and frames -/

/-- The class of that number. -/
def classAt (id : ClassId) : Action Class := do
  demand ((← get).registry.require id)

/-- The innermost frame. -/
def currentFrame : Action Frame := do
  match (← get).frames with
  | frame :: _ => pure frame
  | [] => raise .noConstruction

/-- Replaces the innermost frame. -/
def putFrame (frame : Frame) : Action Unit :=
  modify fun m => { m with frames := frame :: m.frames.tail }

/-- Begins a frame. -/
def pushFrame (frame : Frame) : Action Unit :=
  modify fun m => { m with frames := frame :: m.frames }

/-- Ends the innermost frame and answers with its last state. -/
def popFrame : Action Frame := do
  match (← get).frames with
  | frame :: rest =>
    modify fun m => { m with frames := rest }
    pure frame
  | [] => raise .frameLost

/-- Moves the innermost frame on. -/
def enterPhase (phase : Phase) : Action Unit := do
  putFrame ((← currentFrame).enter phase)

/-- Binds the object under construction of the innermost frame. -/
def bindThis (this : ObjectId) (phase : Phase) : Action Unit := do
  putFrame (← demand ((← currentFrame).bind? this phase))

/-! ### Registers and log -/

/-- The content of a register. -/
def readRegister (name : String) : Action Value := do
  return (← get).registers.getD name .undefined

/-- Puts a value into a register. -/
def writeRegister (name : String) (v : Value) : Action Unit :=
  modify fun m => { m with registers := m.registers.insert name v }

/-- Writes to the log. -/
def writeLog (entry : Entry) : Action Unit :=
  modify fun m => { m with log := entry :: m.log }

/-! ### Outcomes -/

section Outcomes

variable {α β : Type} (m : Machine)

@[simp] theorem outcome_pure (a : α) : (pure a : Action α).outcome m = (some (.ok a), m) := rfl

@[simp] theorem outcome_throw (e : Failure) :
    (throw e : Action α).outcome m = (some (.error e), m) := rfl

@[simp] theorem outcome_breakOff : (breakOff : Action α).outcome m = (none, m) := rfl

@[simp] theorem outcome_get : (get : Action Machine).outcome m = (some (.ok m), m) := rfl

@[simp] theorem outcome_set (m' : Machine) :
    (set m' : Action PUnit).outcome m = (some (.ok ⟨⟩), m') := rfl

@[simp] theorem outcome_modify (f : Machine → Machine) :
    (modify f : Action PUnit).outcome m = (some (.ok ⟨⟩), f m) := rfl

/-- An action followed by another: the second one runs on what the first one left,
if that has succeeded. -/
theorem outcome_bind (x : Action α) (f : α → Action β) :
    (x >>= f).outcome m =
      match x.outcome m with
      | (some (.ok a), m') => (f a).outcome m'
      | (some (.error e), m') => (some (.error e), m')
      | (none, m') => (none, m') := by
  simp only [Action.outcome, ExceptT.run_bind, OptionT.run_bind, Option.elimM, StateT.run_bind]
  rcases x.run.run.run m with ⟨_ | _ | _, _⟩ <;> rfl

@[simp] theorem outcome_map (g : α → β) (x : Action α) :
    (g <$> x).outcome m = ((x.outcome m).1.map (Except.map g), (x.outcome m).2) := by
  rw [map_eq_pure_bind, outcome_bind]
  rcases x.outcome m with ⟨_ | _ | _, _⟩ <;> rfl

/-- Observing an action ends whenever the action does, and never fails. -/
@[simp] theorem outcome_observe (x : Action α) :
    (observe x).outcome m = ((x.outcome m).1.map .ok, (x.outcome m).2) := by
  simp only [observe, Action.outcome, ExceptT.run_mk, OptionT.run_bind, Option.elimM,
    StateT.run_bind]
  rcases x.run.run.run m with ⟨_ | _, _⟩ <;> rfl

@[simp] theorem outcome_note (e : Event) :
    (note e).outcome m = (some (.ok ⟨⟩), { m with trace := e :: m.trace }) := rfl

@[simp] theorem outcome_raise (f : Fault) :
    (raise f : Action α).outcome m =
      (some (.error (.ofFault f)), { m with trace := .raised f :: m.trace }) := rfl

end Outcomes

end ClassMachine
