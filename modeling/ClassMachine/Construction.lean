import ClassMachine.Definition

/-!
# Constructing instances

A construction runs the constructor of a class for a new-target, in a frame of its
own. The constructor of a base class allocates the object, binds it and installs the
fields of the class; then its body runs. The constructor of a derived class starts
with nothing bound. Its body is expected to call the parent constructor
(`ClassMachine.superCall`): that constructs through the parent with the same
new-target, binds the object that comes back and installs the fields of the class on
it. A derived class without a constructor calls the parent with its own arguments.

Whatever happens, the frame is gone afterwards. The answer is the object that the
frame has bound in the end.
-/

namespace ClassMachine

variable (settings : Settings) (perform : Performer)

/-! ### Inside a frame -/

/-- Makes an instance of the new-target, without any field. -/
def allocate (newTarget : ClassId) : Action ObjectId := do
  let c ← classAt newTarget
  let this ← newObject (.instance newTarget) (some c.prototype)
  note (.allocated this newTarget)
  return this

/-- Binds the object, installs the fields of the class on it and lets the body go
on. -/
def adopt (this : ObjectId) (cls : ClassId) (phase : Phase) : Action Unit := do
  bindThis this phase
  installInstanceFields perform this cls
  enterPhase .fieldsInstalled
  enterPhase .body

/-- Calls the parent constructor from the innermost frame and answers with the
object under construction. -/
def superCall (args : List Value) : Action ObjectId := do
  let frame ← currentFrame
  let c ← classAt frame.cls
  match c.parent with
  | none => raise .noParent
  | some parent =>
    let this ← perform (.construct parent frame.newTarget args)
    adopt perform this frame.cls .thisBound
    note (.superReturned frame.cls this)
    return this

/-- Runs a constructor body; its value does not matter. -/
def runBody (cls : ClassId) (this : Option ObjectId) (body : Expr) (args : List Value) :
    Action Unit := do
  note (.bodyEntered cls this args)
  discard <| perform (.eval body { args })

/-- Runs the constructor of a class in a frame that has just begun. -/
def runConstructor (cls newTarget : ClassId) (args : List Value) : Action Unit := do
  let c ← classAt cls
  match c.kind with
  | .base =>
    let this ← allocate newTarget
    adopt perform this cls .allocated
    match c.constructor with
    | some body => runBody perform cls (some this) body args
    | none => pure ()
  | .derived =>
    match c.constructor with
    | some body => runBody perform cls none body args
    | none => discard <| superCall perform args

/-! ### The frame around it -/

/-- The object of a frame that has ended. -/
def Frame.result (f : Frame) : Except Fault ObjectId :=
  match f.this with
  | some this => .ok this
  | none => .error .neverBound

/-- Runs the constructor of a class for a new-target, if there is room for another
frame. -/
def constructFor (cls newTarget : ClassId) (args : List Value) : Action ObjectId := do
  note (.called cls newTarget)
  if settings.maxDepth ≤ (← get).frames.length then
    raise (.tooDeep settings.maxDepth)
  else
    pushFrame { cls, newTarget }
    let outcome ← observe (runConstructor perform cls newTarget args)
    let frame ← popFrame
    settle outcome
    demand frame.result

/-! ### From outside -/

/-- Announces a construction. The announcement needs the name of the class, so where
announcements are shown an unknown class is noticed here already. -/
def announceConstruction (cls : ClassId) : Action Unit := do
  match (← get).registry.require cls with
  | .ok c => note (.constructing c.displayName)
  | .error f => if settings.announces then raise f else pure ()

/-- Constructs an instance of a class. -/
def construct (cls : ClassId) (args : List Value) : Action ObjectId := do
  announceConstruction settings cls
  let this ← constructFor settings perform cls cls args
  note (.constructed cls this)
  return this

/-- The class that a value is the class object of. -/
def calledClass (callee : Value) : Action ClassId := do
  match callee with
  | .ref id =>
    match (← objectAt id).kind with
    | .classObject cls => pure cls
    | _ => raise (.notConstructor callee)
  | _ => raise (.notConstructor callee)

/-- Constructs an instance of the class of which the value is the class object. -/
def constructValue (callee : Value) (args : List Value) : Action ObjectId := do
  construct settings perform (← calledClass callee) args

/-- The object under construction in the innermost frame. -/
def thisObject : Action ObjectId := do
  match (← currentFrame).this with
  | some this => pure this
  | none => raise .unboundThis

end ClassMachine
