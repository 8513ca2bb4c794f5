import ClassMachine.Construction
import ClassMachine.Diagnostic

/-!
# Primitive operations

The operations that run no client code, on arguments that are already evaluated. An
argument that is missing counts as undefined. Operations on objects and classes
insist on a reference or on a class number, and check their arguments from left to
right.
-/

namespace ClassMachine

/-! ### Arguments -/

/-- The argument at a position. -/
def argAt (args : List Value) (i : Nat) : Value :=
  args.getD i .undefined

/-- The object that a value refers to. -/
def objectOf : Value → Action ObjectId
  | .ref id => pure id
  | _ => raise .objectExpected

/-- The class number that a value is. -/
def classIdOf (v : Value) : Action ClassId :=
  match v.toWord? with
  | some id => pure id
  | none => raise .classIdExpected

/-- The object that a value refers to, as a prototype; other values stand for none. -/
def linkOf : Value → Option ObjectId
  | .ref id => some id
  | _ => none

/-- The value of a prototype link. -/
def Value.ofLink : Option ObjectId → Value
  | some id => .ref id
  | none => .null

/-! ### Operations with more than one step -/

/-- Writes a value to the log, an object with all its properties. -/
def dump : Value → Action Unit
  | .ref id => do writeLog (.object id (← objectAt id))
  | v => writeLog (.value v)

/-- Fails because a value is not what was insisted on. -/
def refuse {α : Type} (v : Value) (expected : Expectation) : Action α := do
  raise (.unexpected (v.debug (← get).store) expected)

/-- Redirects the prototype link of an object. -/
def setPrototype (id : ObjectId) (prototype : Option ObjectId) : Action Unit := do
  putObject id ((← objectAt id).relink prototype)
  note (.relinked id)

/-- Removes a property of an object. -/
def deleteFrom (id : ObjectId) (key : String) : Action Bool := do
  let (answer, o) := (← objectAt id).delete key
  putObject id o
  note (.changed id)
  return answer

/-- Closes an object to new properties. -/
def preventExtensions (id : ObjectId) : Action Unit := do
  putObject id (← objectAt id).preventExtensions
  note (.changed id)

/-! ### All operations -/

/-- Performs a primitive operation. -/
def performPrimitive (ctx : Context) (op : Primitive) (args : List Value) : Action Value :=
  let first := argAt args 0
  let second := argAt args 1
  let third := argAt args 2
  match op with
  | .register => readRegister first.propertyKey
  | .log => do
    writeLog (.values args)
    return .undefined
  | .dump => do
    dump first
    return .undefined
  | .describe => do
    let id ← classIdOf first
    writeLog (.cls ((← get).registry.class? id))
    return .undefined
  | .receiver => pure ctx.receiver
  | .argument => pure <|
    match first.toWord? with
    | some i => argAt ctx.args i
    | none => .undefined
  | .argumentCount => pure (.ofNat ctx.args.length)
  | .add => pure (.number (first.toFloat + second.toFloat))
  | .less => pure (.bool (first.toFloat < second.toFloat))
  | .equal => pure (.bool (first.sameAs second))
  | .concat => pure (.str (String.join (args.map Value.text)))
  | .key => pure (.str first.propertyKey)
  | .debug => do return .str (first.debug (← get).store)
  | .expectNumber =>
    match first with
    | .number x => pure (.number x)
    | v => refuse v .number
  | .expectString =>
    match first with
    | .str s => pure (.str s)
    | v => refuse v .string
  | .expectObject =>
    match first with
    | .ref id => pure (.ref id)
    | v => refuse v .object
  | .this => do return .ref (← thisObject)
  | .phase => do
    match (← get).frames with
    | frame :: _ => return .str frame.phase.word
    | [] => return .undefined
  | .throw => raise (.uncaught first.text)
  | .instanceOf => do return .bool (← instanceOf first (← classIdOf second))
  | .classId => do
    match (← get).registry.classId? first.propertyKey with
    | some id => return .ofNat id
    | none => return .undefined
  | .classCount => do return .ofNat (← get).registry.size
  | .classObject => do return .ref (← classAt (← classIdOf first)).classObject
  | .prototype => do return .ref (← classAt (← classIdOf first)).prototype
  | .newObject => do return .ref (← newObject .ordinary (linkOf first))
  | .createProperty => do
    defineForClient (← objectOf first) second.propertyKey (.plain third)
    return .undefined
  | .createHidden => do
    defineForClient (← objectOf first) second.propertyKey (.hidden third)
    return .undefined
  | .delete => do return .bool (← deleteFrom (← objectOf first) second.propertyKey)
  | .hasOwn => do
    return .bool ((← objectAt (← objectOf first)).hasOwn second.propertyKey)
  | .isExtensible => do return .bool (← objectAt (← objectOf first)).extensible
  | .ownKeys => do return .str (",".intercalate (← objectAt (← objectOf first)).keys)
  | .preventExtensions => do
    preventExtensions (← objectOf first)
    return .undefined
  | .prototypeOf => do return .ofLink (← objectAt (← objectOf first)).prototype
  | .setPrototype => do
    setPrototype (← objectOf first) (linkOf second)
    return .undefined

end ClassMachine
