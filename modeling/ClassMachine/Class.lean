import ClassMachine.Store

/-!
# Classes

A class definition is a list of elements in source order. What remains of it once
it has been evaluated is a class: two lists of field records, whose initializers
are still to be run, beside the prototype that instances link to and the class
object that carries the static side.

* `ClassMachine.ClassDefinition` is the definition with its name and heritage
  evaluated and its functions made;
* `ClassMachine.FieldRecord` is one declared field;
* `ClassMachine.Class` is the class itself.
-/

namespace ClassMachine

/-! ### Definitions -/

/-- An element of a class body. -/
inductive ClassElement
  /-- A method or accessor, on the prototype or on the class object. -/
  | method (name : String) (kind : MethodKind) (isStatic : Bool) (function : Function)
  /-- A field of the instances or of the class object. -/
  | field (name : FieldName) (isStatic : Bool) (initializer : Option Expr)

/-- A class definition, elements in source order. -/
structure ClassDefinition where
  name : Option String := none
  /-- The value of the heritage, if there is one. -/
  heritage : Option Value := none
  constructor : Option Expr := none
  elements : List ClassElement := []

/-- What a class without a name is called in messages. -/
def anonymousName : String :=
  "<anonymous>"

/-- What the class is called in messages. -/
def ClassDefinition.displayName (d : ClassDefinition) : String :=
  d.name.getD anonymousName

/-! ### Field records -/

/-- One declared field: its name and its deferred initializer, if it has one. -/
structure FieldRecord where
  name : String
  initializer : Option Expr

namespace FieldRecord

/-- The diagnostic text of a field record. -/
def debug (r : FieldRecord) : String :=
  let has := if r.initializer.isSome then "true" else "false"
  s!"FieldRecord \x7bname: {r.name}, has_initializer: {has}\x7d"

/-- The records with every initializer under the name exchanged. -/
def replaceAll (name : String) (initializer : Option Expr) (records : List FieldRecord) :
    List FieldRecord :=
  records.map fun r => if r.name = name then { r with initializer := initializer } else r

/-- Exchanging initializers changes no name and no place. -/
@[simp] theorem map_name_replaceAll (name : String) (initializer : Option Expr)
    (records : List FieldRecord) :
    (replaceAll name initializer records).map FieldRecord.name =
      records.map FieldRecord.name := by
  simp only [replaceAll, List.map_map, List.map_inj_left, Function.comp_apply]
  intro r _
  split <;> rfl

end FieldRecord

/-! ### Classes -/

/-- How a class gets at the object under construction: a base class allocates it, a
derived one receives it from its parent. -/
inductive ConstructorKind
  | base
  | derived
  deriving DecidableEq, Repr

/-- The word for a constructor kind. -/
def ConstructorKind.word : ConstructorKind → String
  | base => "Base"
  | derived => "Derived"

/-- The kind that the presence of a parent decides. -/
def ConstructorKind.ofParent : Option ClassId → ConstructorKind
  | some _ => derived
  | none => base

/-- A class. -/
structure Class where
  id : ClassId
  name : Option String
  parent : Option ClassId
  kind : ConstructorKind
  /-- What instances link to. -/
  prototype : ObjectId
  /-- What static fields and methods live on. -/
  classObject : ObjectId
  constructor : Option Expr
  instanceFields : List FieldRecord
  staticFields : List FieldRecord

namespace Class

/-- What the class is called in messages. -/
def displayName (c : Class) : String :=
  c.name.getD anonymousName

/-- Exchanges the initializers of all instance fields of that name. -/
def replaceInitializer (c : Class) (field : String) (initializer : Option Expr) :
    Except Fault Class :=
  if c.instanceFields.any fun r => r.name = field then
    .ok { c with instanceFields := FieldRecord.replaceAll field initializer c.instanceFields }
  else .error (.undeclaredField field c.displayName)

theorem replaceInitializer_eq_error {c : Class} {field : String} {initializer : Option Expr}
    {f : Fault} (h : c.replaceInitializer field initializer = .error f) :
    f = .undeclaredField field c.displayName := by
  unfold replaceInitializer at h
  split at h <;> simp only [Except.error.injEq, reduceCtorEq] at h
  exact h.symm

/-- The diagnostic text of a class. -/
def debug (c : Class) : String :=
  let parent := match c.parent with
    | some p => s!"Some({p})"
    | none => "None"
  let records (rs : List FieldRecord) :=
    "[" ++ ", ".intercalate (rs.map FieldRecord.debug) ++ "]"
  s!"Class \x7bid: {c.id}, name: {c.displayName}, parent: {parent}, " ++
    "kind: " ++ c.kind.word ++ ", instance_fields: " ++ records c.instanceFields ++
    ", static_fields: " ++ records c.staticFields ++ "\x7d"

end Class

end ClassMachine
