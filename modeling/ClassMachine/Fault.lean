import ClassMachine.Value

/-!
# Faults and failures

A fault is one thing that went wrong, named for its cause. While a failure travels
out of the library step it arose in, each step that was under way adds a fault of
its own as context, so a failure is a list of layers: contexts, outermost first,
and at the end the cause.

* `ClassMachine.Fault.kind?` sorts faults into the six kinds that clients can look
  for; faults of the surroundings, such as an unknown field in a replacement, have
  none.
* `ClassMachine.Fault.message` is the one place where faults are worded.
* `ClassMachine.Failure.find?` looks for a kind; it sees the outermost layer that has
  a kind and the innermost layer, and no layer in between.
-/

namespace ClassMachine

/-! ### Kinds -/

/-- The kinds of faults that clients can look for. -/
inductive FaultKind
  /-- A computed name or a static field failed while its class was being defined. -/
  | definition
  /-- An instance could not be constructed. -/
  | construction
  /-- Structural misuse, such as extending a value that is no class. -/
  | semantic
  /-- A use of the object under construction at the wrong time. -/
  | reference
  /-- A value or property that does not allow the operation. -/
  | type
  /-- An exception of the client. -/
  | thrown
  deriving DecidableEq, Repr

namespace FaultKind

/-- All kinds, in the order in which they are listed to clients. -/
def all : List FaultKind :=
  [.definition, .construction, .semantic, .reference, .type, .thrown]

/-- The word for a kind. -/
def word : FaultKind → String
  | .definition => "Definition"
  | .construction => "Construction"
  | .semantic => "Semantic"
  | .reference => "Reference"
  | .type => "Type"
  | .thrown => "Thrown"

/-- What a message of this kind starts with. -/
def lead : FaultKind → String
  | .definition => "DefinitionError: "
  | .construction => "ConstructionError: "
  | .semantic => "SemanticError: "
  | .reference => "ReferenceError: "
  | .type => "TypeError: "
  | .thrown => "Uncaught "

end FaultKind

/-! ### Faults -/

/-- What an operation on values insists on. -/
inductive Expectation
  | number
  | string
  | object
  deriving DecidableEq, Repr

/-- How an expectation is worded. -/
def Expectation.phrase : Expectation → String
  | .number => "a Number"
  | .string => "a String"
  | .object => "an object"

/-- How a defect of the program is worded. -/
def Defect.phrase : Defect → String
  | .form => "bad expression"
  | .number => "bad number literal"
  | .integer => "integer literal expected"
  | .element => "bad element"

/-- One thing that went wrong. -/
inductive Fault
  /-- Context: a computed field name of the class was being evaluated. -/
  | computedName (className : String)
  /-- Context: a static field of the class was being installed. -/
  | staticField (field className : String)
  /-- Context: an instance field of the class was being installed. -/
  | instanceField (field className : String)
  /-- Constructions would nest deeper than the limit. -/
  | tooDeep (limit : Nat)
  /-- No class has this number. -/
  | noSuchClass (id : ClassId)
  /-- A field has a name that is reserved. -/
  | reservedName (isStatic : Bool) (field className : String)
  /-- The heritage of a class is no class. -/
  | heritage (value : Value) (className : String)
  /-- No construction is in progress. -/
  | noConstruction
  /-- The class under construction has no parent. -/
  | noParent
  /-- The object under construction is bound already. -/
  | boundTwice
  /-- The object under construction is asked for before it is bound. -/
  | unboundThis
  /-- A constructor ended without binding an object. -/
  | neverBound
  /-- The value to be constructed is no class object. -/
  | notConstructor (callee : Value)
  /-- The value to be called is no function. -/
  | notFunction (callee : Value)
  /-- Undefined and null have no properties to read. -/
  | readOfNothing (target : Value) (key : String)
  /-- Only objects have properties to assign to. -/
  | writeToPrimitive (target : Value) (key : String)
  /-- The property assigned to has a getter only. -/
  | noSetter (key : String)
  /-- The property assigned to is read-only. -/
  | readOnly (key : String)
  /-- The property is not configurable. -/
  | notConfigurable (key : String)
  /-- The object takes no new properties. -/
  | notExtensible (key : String)
  /-- The client threw the value with this text. -/
  | uncaught (text : String)
  /-- There is no class of this number to change. -/
  | nothingToChange (id : ClassId)
  /-- The class declares no instance field of this name. -/
  | undeclaredField (field className : String)
  /-- The innermost construction vanished while it was running. -/
  | frameLost
  /-- An operation on objects got something else. -/
  | objectExpected
  /-- An operation on classes got something that is no class number. -/
  | classIdExpected
  /-- An accessor is neither a function nor null. -/
  | functionExpected
  /-- A place in the program that cannot be read was reached. -/
  | malformed (defect : Defect)
  /-- A value, shown by its diagnostic text, is not what the client insisted on. -/
  | unexpected (found : String) (expected : Expectation)

namespace Fault

/-- The kind of a fault, if it is of one that clients can look for. -/
def kind? : Fault → Option FaultKind
  | computedName .. | staticField .. => some .definition
  | instanceField .. | tooDeep .. => some .construction
  | noSuchClass .. | reservedName .. | heritage .. | noConstruction | noParent => some .semantic
  | boundTwice | unboundThis | neverBound => some .reference
  | notConstructor .. | notFunction .. | readOfNothing .. | writeToPrimitive .. | noSetter ..
  | readOnly .. | notConfigurable .. | notExtensible .. => some .type
  | uncaught .. => some .thrown
  | nothingToChange .. | undeclaredField .. | frameLost | objectExpected | classIdExpected
  | functionExpected | malformed .. | unexpected .. => none

/-- The wording of a fault without the lead of its kind. -/
def wording : Fault → String
  | computedName cls => s!"computed field name in class {cls} could not be evaluated"
  | staticField field cls => s!"static field {field} of class {cls} could not be initialized"
  | instanceField field cls => s!"field {field} of class {cls} could not be installed"
  | tooDeep limit => s!"Maximum construction depth of {limit} exceeded"
  | noSuchClass id => s!"Class {id} not found"
  | reservedName isStatic field cls =>
    let scope := if isStatic then "static " else ""
    s!"Classes may not have a {scope}field named '{field}' (class {cls})"
  | heritage value cls =>
    "Class extends value " ++ value.text ++ s!" is not a constructor (class {cls})"
  | noConstruction => "not inside a constructor"
  | noParent => "'super' keyword unexpected here"
  | boundTwice => "Super constructor may only be called once"
  | unboundThis => "Must call super constructor in derived class before accessing 'this'"
  | neverBound =>
    "Must call super constructor in derived class before returning from derived constructor"
  | notConstructor callee => callee.text ++ " is not a constructor"
  | notFunction callee => callee.text ++ " is not a function"
  | readOfNothing target key =>
    "Cannot read properties of " ++ target.text ++ s!" (reading '{key}')"
  | writeToPrimitive target key => s!"Cannot set property '{key}' of " ++ target.text
  | noSetter key => s!"Cannot set property {key} which has only a getter"
  | readOnly key => s!"Cannot assign to read only property '{key}'"
  | notConfigurable key => s!"Cannot redefine property: {key}"
  | notExtensible key => s!"Cannot define property {key}, object is not extensible"
  | uncaught text => text
  | nothingToChange id => s!"Class {id} not found"
  | undeclaredField field cls => s!"Field {field} not declared on class {cls}"
  | frameLost => "construction frame lost"
  | objectExpected => "object expected"
  | classIdExpected => "class id expected"
  | functionExpected => "function expected"
  | malformed defect => defect.phrase
  | unexpected found expected => s!"{found} is not " ++ expected.phrase

/-- The text of a fault. -/
def message (f : Fault) : String :=
  match f.kind? with
  | some kind => kind.lead ++ f.wording
  | none => f.wording

/-- Does the fault come from a client that insisted on a value it did not get? -/
def isBroken : Fault → Bool
  | unexpected .. => true
  | _ => false

end Fault

/-! ### Failures -/

/-- A fault together with the steps that it interrupted, outermost first. -/
structure Failure where
  contexts : List Fault
  cause : Fault

namespace Failure

/-- A fault that has interrupted nothing yet. -/
def ofFault (f : Fault) : Failure :=
  ⟨[], f⟩

/-- The failure of a step that the failure has interrupted. -/
def within (e : Failure) (context : Fault) : Failure :=
  ⟨context :: e.contexts, e.cause⟩

/-- All layers, outermost first; the cause is the last one. -/
def layers (e : Failure) : List Fault :=
  e.contexts ++ [e.cause]

/-- The texts of all layers, outermost first. -/
def chain (e : Failure) : List String :=
  e.layers.map Fault.message

/-- The texts of all layers on one line. -/
def text (e : Failure) : String :=
  ": ".intercalate e.chain

/-- The outermost layer. -/
def outermost (e : Failure) : Fault :=
  e.contexts.head?.getD e.cause

/-- The outermost kind among the layers. -/
def kind? (e : Failure) : Option FaultKind :=
  e.layers.findSome? Fault.kind?

/-- The word for a failure: its outermost kind, or else whether a client broke off
or something else is the matter. -/
def word (e : Failure) : String :=
  match e.kind? with
  | some kind => kind.word
  | none => if e.cause.isBroken then "panic" else "other"

/-- The layers that a search sees: the outermost one that has a kind, and the
innermost one. -/
def visible (e : Failure) : List Fault :=
  (e.layers.find? fun f => f.kind?.isSome).toList ++ [e.cause]

/-- The first visible layer whose kind satisfies the condition. -/
def find? (e : Failure) (p : FaultKind → Bool) : Option Fault :=
  e.visible.find? fun f => f.kind?.any p

/-! ### Layers -/

@[simp] theorem layers_ofFault (f : Fault) : (ofFault f).layers = [f] := rfl

@[simp] theorem layers_within (e : Failure) (context : Fault) :
    (e.within context).layers = context :: e.layers := rfl

@[simp] theorem cause_within (e : Failure) (context : Fault) :
    (e.within context).cause = e.cause := rfl

theorem outermost_eq_head (e : Failure) : some e.outermost = e.layers.head? := by
  rcases e with ⟨_ | ⟨c, cs⟩, f⟩ <;> rfl

end Failure

/-! ### Examples -/

example : ((Failure.ofFault (.uncaught "x")).within (.staticField "s" "C")).text =
    "DefinitionError: static field s of class C could not be initialized: Uncaught x" := by
  decide +kernel

end ClassMachine
