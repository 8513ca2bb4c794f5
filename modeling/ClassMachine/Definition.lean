import ClassMachine.Installation

/-!
# Defining classes

A definition is evaluated in this order:

1. the field names that are written down are checked against the reserved ones, and
   the heritage has to be the class object of a registered class;
2. a number is drawn and the two objects of the class are made, its prototype and
   its class object (`ClassMachine.makeHomes`);
3. the elements are walked in source order: methods and accessors go onto one of
   the two objects, fields become records, and computed names are evaluated, each
   of them once (`ClassMachine.collectFields`);
4. the class is registered;
5. the static fields are installed on the class object, in order.

If a step fails, nothing of the later steps happens, and if the last one fails, the
registration is taken back. `ClassMachine.defineClass` puts the steps together.
-/

namespace ClassMachine

/-! ### Checks -/

/-- The field names that are reserved, on instances or on the class object. -/
def reservedNames (isStatic : Bool) : List String :=
  if isStatic then ["constructor", "prototype"] else ["constructor"]

/-- Does the element declare a field under a reserved name? A computed name is not
reserved, whatever it turns out to be. -/
def ClassElement.reserved? : ClassElement → Option (Bool × String)
  | .field (.literal name) isStatic _ =>
    if name ∈ reservedNames isStatic then some (isStatic, name) else none
  | _ => none

namespace ClassDefinition

/-- No field has a reserved name; the first offender is reported. -/
def checkNames (d : ClassDefinition) : Except Fault Unit :=
  match d.elements.findSome? ClassElement.reserved? with
  | some (isStatic, name) => .error (.reservedName isStatic name d.displayName)
  | none => .ok ()

/-- The registered class of which the value is the class object. -/
def classOfValue? (m : Machine) : Value → Option Class
  | .ref id =>
    match (m.store.object id).kind with
    | .classObject cls => m.registry.class? cls
    | _ => none
  | _ => none

/-- The parent that the heritage stands for. -/
def parent? (d : ClassDefinition) (m : Machine) : Except Fault (Option Class) :=
  match d.heritage with
  | none => .ok none
  | some value =>
    match classOfValue? m value with
    | some c => .ok (some c)
    | none => .error (.heritage value d.displayName)

/-- The fault of a reserved name. -/
theorem checkNames_eq_error {d : ClassDefinition} {f : Fault} (h : d.checkNames = .error f) :
    ∃ isStatic name, f = .reservedName isStatic name d.displayName := by
  unfold checkNames at h
  split at h <;> simp at h
  exact ⟨_, _, h.symm⟩

/-- The fault of a heritage that is no registered class. -/
theorem parent?_eq_error {d : ClassDefinition} {m : Machine} {f : Fault}
    (h : d.parent? m = .error f) : ∃ value, f = .heritage value d.displayName := by
  unfold parent? at h
  split at h <;> try split at h
  all_goals simp at h
  exact ⟨_, h.symm⟩

end ClassDefinition

/-! ### The two objects of a class -/

/-- The objects that methods live on. -/
structure Homes where
  prototype : ObjectId
  classObject : ObjectId

/-- The object that static or other methods live on. -/
def Homes.home (h : Homes) (isStatic : Bool) : ObjectId :=
  if isStatic then h.classObject else h.prototype

/-- Makes the prototype and the class object, each linked to that of the parent. The
class object owns the prototype for good, and the name until a static element takes
its place. -/
def makeHomes (id : ClassId) (name : Option String) (parent : Option Class) : Action Homes := do
  let prototype ← newObject .ordinary (parent.map Class.prototype)
  let classObject ← newObject (.classObject id) (parent.map Class.classObject)
  defineOn classObject "prototype" (.data (.ref prototype) false false false)
  match name with
  | some name => defineOn classObject "name" (.data (.str name) false false true)
  | none => pure ()
  return { prototype, classObject }

/-! ### Methods -/

/-- The property that a method becomes. A getter and a setter of one name share an
accessor; a method takes the place of both. -/
def Property.ofMethod (kind : MethodKind) (f : Function) (old : Option Property) : Property :=
  let (getter, setter) : Option Function × Option Function := match old with
    | some (.accessor getter setter ..) => (getter, setter)
    | _ => (none, none)
  match kind with
  | .method => .hidden (.function f)
  | .getter => .accessor (some f) setter false true
  | .setter => .accessor getter (some f) false true

/-- Puts a method or accessor onto an object. -/
def defineMethod (home : ObjectId) (name : String) (kind : MethodKind) (f : Function) :
    Action Unit := do
  let o ← objectAt home
  defineOn home name (Property.ofMethod kind f (o.property? name))

/-! ### Fields -/

/-- A field with its name evaluated. -/
structure DeclaredField where
  isStatic : Bool
  record : FieldRecord

/-- The records of the static fields, or of the other ones, in order. -/
def recordsOf (isStatic : Bool) (fields : List DeclaredField) : List FieldRecord :=
  (fields.filter fun f => f.isStatic == isStatic).map DeclaredField.record

variable (perform : Performer)

/-- The key that a field name stands for. -/
def fieldKey (cls : ClassId) (className : String) : FieldName → Action String
  | .literal name => pure name
  | .computed e => do
    let v ← during (.namingField cls className e) (perform (.eval e {}))
    pure v.propertyKey

/-- Evaluates one element; a field is what it answers with. -/
def evaluateElement (cls : ClassId) (className : String) (homes : Homes) :
    ClassElement → Action (Option DeclaredField)
  | .method name kind isStatic f => do
    defineMethod (homes.home isStatic) name kind f
    pure none
  | .field name isStatic initializer => do
    let key ← fieldKey perform cls className name
    pure (some { isStatic, record := { name := key, initializer } })

/-- Evaluates the elements in order and collects the fields among them. -/
def collectFields (cls : ClassId) (className : String) (homes : Homes) :
    List ClassElement → Action (List DeclaredField)
  | [] => pure []
  | e :: rest => do
    let first ← evaluateElement perform cls className homes e
    let others ← collectFields cls className homes rest
    pure (first.toList ++ others)

/-! ### The registry -/

/-- Draws the number of a new class. -/
def drawClassId : Action ClassId := do
  let m ← get
  let (id, registry) := m.registry.drawId
  set { m with registry }
  note (.numbered id)
  return id

/-- Registers a class and answers with the class that had its name before. -/
def registerClass (c : Class) : Action (Option ClassId) := do
  let m ← get
  let (shadowed, registry) := m.registry.register c
  set { m with registry }
  note (.registered c)
  return shadowed

/-- Takes a registration back. -/
def withdrawClass (id : ClassId) (shadowed : Option ClassId) : Action Unit := do
  let m ← get
  set { m with registry := m.registry.withdraw id shadowed }
  note (.withdrawn id (m.registry.hasSubclass id))

/-! ### The whole definition -/

/-- The class that a definition amounts to. -/
def ClassDefinition.toClass (d : ClassDefinition) (id : ClassId) (parent : Option Class)
    (homes : Homes) (fields : List DeclaredField) : Class where
  id := id
  name := d.name
  parent := parent.map Class.id
  kind := .ofParent (parent.map Class.id)
  prototype := homes.prototype
  classObject := homes.classObject
  constructor := d.constructor
  instanceFields := recordsOf false fields
  staticFields := recordsOf true fields

/-- Evaluates a class definition up to the point at which it can be registered. -/
def prepareClass (d : ClassDefinition) : Action Class := do
  note (.defining d.displayName)
  demand d.checkNames
  let parent ← demand (d.parent? (← get))
  let id ← drawClassId
  let homes ← makeHomes id d.name parent
  let fields ← collectFields perform id d.displayName homes d.elements
  return d.toClass id parent homes fields

/-- Registers a class and runs its static side, or takes everything back. -/
def launchClass (c : Class) : Action ClassId := do
  let shadowed ← registerClass c
  let activity := Activity.staticField c.id c.displayName c.classObject
  match ← observe (installFields perform activity c.classObject c.staticFields) with
  | .ok _ =>
    note (.completed c.id)
    pure c.id
  | .error e =>
    withdrawClass c.id shadowed
    throw e

/-- Defines a class and answers with its number. -/
def defineClass (d : ClassDefinition) : Action ClassId := do
  let c ← prepareClass perform d
  launchClass perform c

/-! ### Exchanging initializers -/

/-- Gives the instance fields of that name another initializer. -/
def replaceInitializer (id : ClassId) (field : String) (initializer : Option Expr) :
    Action Unit := do
  note (.replacing field id)
  let c ← demand ((← get).registry.requireForChange id)
  let c' ← demand (c.replaceInitializer field initializer)
  modify fun m => { m with registry := m.registry.put c' }
  note (.replaced id field initializer)

end ClassMachine
