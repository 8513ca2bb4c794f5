import ClassMachine.Task

/-!
# Reading, assigning and calling

A property is read from the nearest object of the prototype chain that owns it: a
data property answers with its value, an accessor with what its getter returns for
the receiver, and where there is no getter or no owner the answer is undefined.

An assignment looks for the nearest owner too. A setter there is called; an
accessor without one and a property that is read-only refuse; in all other cases
the value becomes an own property of the receiver, which keeps its attributes if it
was there before.

On values that are no objects, `ClassMachine.readProperty` and
`ClassMachine.assignProperty` decide what happens.
-/

namespace ClassMachine

variable (perform : Performer)

/-! ### On objects -/

/-- Reads a property of an object on behalf of a receiver. -/
def readFrom (id : ObjectId) (key : String) (receiver : Value) : Action Value := do
  match (← get).store.search key id with
  | .owned _ (.data value ..) => pure value
  | .owned _ (.accessor (some getter) ..) => callFunction perform getter receiver []
  | .owned _ (.accessor none ..) => pure .undefined
  | .missing => pure .undefined
  | .endless => breakOff

/-- Defines a property of an object on behalf of a client. -/
def defineForClient (id : ObjectId) (key : String) (p : Property) : Action Unit := do
  defineOn id key p
  note (.changed id)

/-- The property that an assignment leaves on the receiver: an own data property
keeps its attributes, everything else is replaced by a plain property. -/
def Property.assigned (old : Option Property) (value : Value) : Property :=
  match old with
  | some (.data _ writable enumerable configurable) =>
    .data value writable enumerable configurable
  | _ => .plain value

/-- Makes the value an own property of the object. -/
def assignOwn (id : ObjectId) (key : String) (value : Value) : Action Unit := do
  let o ← objectAt id
  defineForClient id key (Property.assigned (o.property? key) value)

/-- Assigns to a property of an object. -/
def assignTo (id : ObjectId) (key : String) (value : Value) : Action Unit := do
  match (← get).store.search key id with
  | .owned _ (.accessor _ (some setter) ..) =>
    discard <| callFunction perform setter (.ref id) [value]
  | .owned _ (.accessor _ none ..) => raise (.noSetter key)
  | .owned _ (.data _ false ..) => raise (.readOnly key)
  | .owned _ (.data _ true ..) => assignOwn id key value
  | .missing => assignOwn id key value
  | .endless => breakOff

/-! ### On values -/

/-- Reads a property of a value. Only undefined and null refuse; other primitives
have no properties. -/
def readProperty (target : Value) (key : String) : Action Value :=
  match target with
  | .ref id => readFrom perform id key target
  | .undefined | .null => raise (.readOfNothing target key)
  | _ => pure .undefined

/-- Assigns to a property of a value, which has to be an object. -/
def assignProperty (target : Value) (key : String) (value : Value) : Action Unit :=
  match target with
  | .ref id => assignTo perform id key value
  | _ => raise (.writeToPrimitive target key)

/-- Calls a value, which has to be a function. -/
def callValue (callee receiver : Value) (args : List Value) : Action Value :=
  match callee with
  | .function f => callFunction perform f receiver args
  | _ => raise (.notFunction callee)

/-- Calls the function under a property of the receiver. -/
def invokeMethod (receiver : Value) (key : String) (args : List Value) : Action Value := do
  let callee ← readProperty perform receiver key
  callValue perform callee receiver args

/-! ### Descent -/

/-- Does the value descend from the prototype of the class? Values that are no
objects descend from nothing. -/
def instanceOf (v : Value) (cls : ClassId) : Action Bool := do
  let c ← classAt cls
  match v with
  | .ref id =>
    match (← get).store.descendsFrom? id c.prototype with
    | some answer => pure answer
    | none => breakOff
  | _ => pure false

end ClassMachine
