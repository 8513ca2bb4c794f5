import ClassMachine.Proofs.Chains

/-!
# Machines that differ in the places of their objects

An object is known by its place, and which place it gets depends on how many objects there were
before. So the same client code makes different machines of two that differ in some objects which
it cannot get at. They differ in no more than the places, though. This file says what that means:
what a relocation of the objects makes of values, properties, classes, faults and so on, when a
machine is a relocation of another one, and when an action does to the one what another action
does to the other.

The relocated machine may have objects at places to which no object is relocated. Nothing leads to
them, and nothing is said of them. Nor is anything said of the traces, which no operation reads.

Main definitions: `ClassMachine.Relocation`, `ClassMachine.Machine.Relocated`,
`ClassMachine.Action.Follows`.
-/

namespace ClassMachine

variable {α β : Type}

/-- Where the objects of one machine stand in another one. -/
structure Relocation where
  place : ObjectId → ObjectId
  injective : ∀ ⦃i j : ObjectId⦄, place i = place j → i = j

instance : CoeFun Relocation fun _ => ObjectId → ObjectId := ⟨Relocation.place⟩

/-! ### What is relocated -/

section Data

variable (ρ : Relocation)

/-- The value as it is in the other machine. -/
def Value.relocate : Value → Value
  | .ref o => .ref (ρ o)
  | v => v

def Property.relocate : Property → Property
  | .data v writable enumerable configurable =>
    .data (v.relocate ρ) writable enumerable configurable
  | p => p

def Object.relocate (o : Object) : Object :=
  { o with
    prototype := o.prototype.map ρ
    properties := o.properties.map fun _ p => p.relocate ρ }

def Class.relocate (c : Class) : Class :=
  { c with prototype := ρ c.prototype, classObject := ρ c.classObject }

def Registry.relocate (r : Registry) : Registry :=
  { r with classes := r.classes.map fun _ c => c.relocate ρ }

def Frame.relocate (f : Frame) : Frame :=
  { f with this := f.this.map ρ }

def Entry.relocate : Entry → Entry
  | .values vs => .values (vs.map (Value.relocate ρ))
  | .object o snapshot => .object (ρ o) (snapshot.relocate ρ)
  | .value v => .value (v.relocate ρ)
  | .cls c? => .cls (c?.map (Class.relocate ρ))

/-- The fault as it is in the other machine; it may mention a value. -/
def Fault.relocate : Fault → Fault
  | .heritage v className => .heritage (v.relocate ρ) className
  | .notConstructor v => .notConstructor (v.relocate ρ)
  | .notFunction v => .notFunction (v.relocate ρ)
  | .readOfNothing v key => .readOfNothing (v.relocate ρ) key
  | .writeToPrimitive v key => .writeToPrimitive (v.relocate ρ) key
  | f => f

def Failure.relocate (e : Failure) : Failure :=
  ⟨e.contexts.map (Fault.relocate ρ), e.cause.relocate ρ⟩

def Context.relocate (ctx : Context) : Context :=
  { receiver := ctx.receiver.relocate ρ, args := ctx.args.map (Value.relocate ρ) }

def ClassDefinition.relocate (d : ClassDefinition) : ClassDefinition :=
  { d with heritage := d.heritage.map (Value.relocate ρ) }

def Homes.relocate (homes : Homes) : Homes :=
  { prototype := ρ homes.prototype, classObject := ρ homes.classObject }

def Store.Search.relocate : Store.Search → Store.Search
  | .owned owner p => .owned (ρ owner) (p.relocate ρ)
  | s => s

/-- The request as it is in the other machine. -/
def Task.relocate : Task α → Task α
  | .eval e ctx => .eval e (ctx.relocate ρ)
  | .construct cls newTarget args => .construct cls newTarget (args.map (Value.relocate ρ))

/-- The answer to it. -/
def Task.relocateAnswer : Task α → α → α
  | .eval .. => Value.relocate ρ
  | .construct .. => ρ

/-- What an action answers or fails with. -/
def relocateOutcome (f : α → β) : Except Failure α → Except Failure β
  | .ok a => .ok (f a)
  | .error e => .error (e.relocate ρ)

/-- What an operation on data answers or refuses with. -/
def relocateDemand (f : α → β) : Except Fault α → Except Fault β
  | .ok a => .ok (f a)
  | .error φ => .error (φ.relocate ρ)

end Data

/-! ### Values and faults -/

section Values

variable (ρ : Relocation)

namespace Value

/-- A text never shows the place of an object. -/
@[simp] theorem text_relocate (v : Value) : (v.relocate ρ).text = v.text := by
  cases v <;> rfl

@[simp] theorem propertyKey_relocate (v : Value) :
    (v.relocate ρ).propertyKey = v.propertyKey :=
  text_relocate ρ v

@[simp] theorem toFloat_relocate (v : Value) : (v.relocate ρ).toFloat = v.toFloat := by
  cases v <;> rfl

@[simp] theorem toWord?_relocate (v : Value) : (v.relocate ρ).toWord? = v.toWord? := by
  cases v <;> rfl

@[simp] theorem isTrue_relocate (v : Value) : (v.relocate ρ).isTrue = v.isTrue := by
  cases v <;> rfl

/-- Objects are the same exactly if they are in the other machine. -/
@[simp] theorem sameAs_relocate (v w : Value) :
    (v.relocate ρ).sameAs (w.relocate ρ) = v.sameAs w := by
  have hplace (i j : ObjectId) : (ρ i == ρ j) = (i == j) := by
    rw [Bool.eq_iff_iff, beq_iff_eq, beq_iff_eq]
    exact ⟨fun h => ρ.injective h, congrArg ρ⟩
  cases v <;> cases w <;> first | rfl | exact hplace _ _

theorem ofLink_relocate (link : Option ObjectId) :
    ofLink (link.map ρ) = (ofLink link).relocate ρ := by
  cases link <;> rfl

end Value

/-- A value that is taken for a link becomes the corresponding link. -/
theorem linkOf_relocate (v : Value) : linkOf (v.relocate ρ) = (linkOf v).map ρ := by
  cases v <;> rfl

/-- An argument that is missing is undefined on both sides. -/
theorem argAt_relocate (args : List Value) (i : Nat) :
    argAt (args.map (Value.relocate ρ)) i = (argAt args i).relocate ρ := by
  simp only [argAt, List.getD_eq_getElem?_getD, List.getElem?_map]
  cases args[i]? <;> rfl

@[simp] theorem Fault.kind?_relocate (f : Fault) : (f.relocate ρ).kind? = f.kind? := by
  cases f <;> rfl

/-- A message does not tell the place of an object. -/
@[simp] theorem Fault.message_relocate (f : Fault) : (f.relocate ρ).message = f.message := by
  have hwording : (f.relocate ρ).wording = f.wording := by
    cases f with
    | heritage | notConstructor | notFunction | readOfNothing | writeToPrimitive =>
      unfold wording
      simp only [relocate, Value.text_relocate]
    | _ => rfl
  rw [message, message, kind?_relocate, hwording]

namespace Failure

@[simp] theorem relocate_ofFault (f : Fault) :
    (ofFault f).relocate ρ = ofFault (f.relocate ρ) := rfl

theorem layers_relocate (e : Failure) :
    (e.relocate ρ).layers = e.layers.map (Fault.relocate ρ) := by
  simp [layers, relocate]

@[simp] theorem text_relocate (e : Failure) : (e.relocate ρ).text = e.text := by
  simp only [text, chain, layers_relocate, List.map_map]
  congr 2
  exact funext fun f => f.message_relocate ρ

@[simp] theorem word_relocate (e : Failure) : (e.relocate ρ).word = e.word := by
  have hkind : (e.relocate ρ).kind? = e.kind? := by
    rw [kind?, kind?, layers_relocate, List.findSome?_map]
    congr 1
    exact funext fun f => f.kind?_relocate ρ
  have hbroken : (e.relocate ρ).cause.isBroken = e.cause.isBroken := by
    simp only [relocate]
    cases e.cause <;> rfl
  rw [word, word, hkind, hbroken]

end Failure

end Values

/-! ### Objects -/

section Objects

variable (ρ : Relocation)

/-- Putting something into a table and changing all that is in it can be done in either order. -/
theorem map_insert {κ γ : Type} {cmp : κ → κ → Ordering} [Std.TransCmp cmp]
    [Std.LawfulEqCmp cmp] (t : Std.ExtTreeMap κ γ cmp) (f : γ → γ) (k : κ) (v : γ) :
    (t.insert k v).map (fun _ v => f v) = (t.map fun _ v => f v).insert k (f v) := by
  refine Std.ExtTreeMap.ext_getElem? fun k' => ?_
  simp only [Std.ExtTreeMap.getElem?_map, Std.ExtTreeMap.getElem?_insert]
  split <;> rfl

/-- So can taking something out. -/
theorem map_erase {κ γ : Type} {cmp : κ → κ → Ordering} [Std.TransCmp cmp]
    [Std.LawfulEqCmp cmp] (t : Std.ExtTreeMap κ γ cmp) (f : γ → γ) (k : κ) :
    (t.erase k).map (fun _ v => f v) = (t.map fun _ v => f v).erase k := by
  refine Std.ExtTreeMap.ext_getElem? fun k' => ?_
  simp only [Std.ExtTreeMap.getElem?_map, Std.ExtTreeMap.getElem?_erase]
  split <;> rfl

namespace Property

@[simp] theorem isConfigurable_relocate (p : Property) :
    (p.relocate ρ).isConfigurable = p.isConfigurable := by
  cases p <;> rfl

theorem ofMethod_relocate (kind : MethodKind) (f : Function) (old : Option Property) :
    ofMethod kind f (old.map (relocate ρ)) = (ofMethod kind f old).relocate ρ := by
  rcases old with _ | _ | _ <;> cases kind <;> rfl

theorem assigned_relocate (old : Option Property) (v : Value) :
    assigned (old.map (relocate ρ)) (v.relocate ρ) = (assigned old v).relocate ρ := by
  rcases old with _ | _ | _ <;> rfl

end Property

namespace Object

@[simp] theorem property?_relocate (o : Object) (key : String) :
    (o.relocate ρ).property? key = (o.property? key).map (Property.relocate ρ) :=
  Std.ExtTreeMap.getElem?_map

@[simp] theorem hasOwn_relocate (o : Object) (key : String) :
    (o.relocate ρ).hasOwn key = o.hasOwn key := by
  rw [hasOwn_eq_isSome, hasOwn_eq_isSome, property?_relocate, Option.isSome_map]

/-- A property is defined on the relocated object in the same way. -/
theorem define_relocate (o : Object) (key : String) (p : Property) :
    (o.relocate ρ).define key (p.relocate ρ) =
      relocateDemand ρ (relocate ρ) (o.define key p) := by
  have hinsert := map_insert o.properties (Property.relocate ρ) key p
  unfold define
  cases hold : o.property? key with
  | some old =>
    simp only [property?_relocate, hold, Option.map_some, Property.isConfigurable_relocate]
    split
    · simp [relocateDemand, relocate, hinsert]
    · rfl
  | none =>
    have hextensible : (o.relocate ρ).extensible = o.extensible := rfl
    simp only [property?_relocate, hold, Option.map_none, hextensible]
    split
    · simp [relocateDemand, relocate, hinsert]
    · rfl

/-- A property is removed from the relocated object in the same way. -/
theorem delete_relocate (o : Object) (key : String) : (o.relocate ρ).delete key =
    ((o.delete key).1, (o.delete key).2.relocate ρ) := by
  have herase := map_erase o.properties (Property.relocate ρ) key
  unfold delete
  cases hold : o.property? key with
  | some old =>
    simp only [property?_relocate, hold, Option.map_some, Property.isConfigurable_relocate]
    split
    · simp [relocate, herase]
    · rfl
  | none => simp [property?_relocate, hold]

end Object

end Objects

/-! ### Frames and classes -/

section Classes

variable (ρ : Relocation)

/-- Binding is refused on both sides or on none. -/
theorem Frame.bind?_relocate (f : Frame) (o : ObjectId) (phase : Phase) :
    (f.relocate ρ).bind? (ρ o) phase =
      relocateDemand ρ (relocate ρ) (f.bind? o phase) := by
  rw [bind?, bind?, relocate]
  cases f.this <;> rfl

/-- A construction without an object fails on both sides. -/
theorem Frame.result_relocate (f : Frame) :
    (f.relocate ρ).result = relocateDemand ρ ρ f.result := by
  rw [result, result, relocate]
  cases f.this <;> rfl

/-- A field that is not declared is refused by the same words. -/
theorem Class.replaceInitializer_relocate (c : Class) (field : String)
    (initializer : Option Expr) : (c.relocate ρ).replaceInitializer field initializer =
      relocateDemand ρ (relocate ρ) (c.replaceInitializer field initializer) := by
  have hfields : (c.relocate ρ).instanceFields = c.instanceFields := rfl
  simp only [replaceInitializer, hfields]
  split <;> rfl

namespace Registry

@[simp] theorem class?_relocate (r : Registry) (id : ClassId) :
    (r.relocate ρ).class? id = (r.class? id).map (Class.relocate ρ) :=
  Std.ExtTreeMap.getElem?_map

@[simp] theorem classId?_relocate (r : Registry) (name : String) :
    (r.relocate ρ).classId? name = r.classId? name := rfl

/-- A class that is asked for is there on both sides or on none. -/
theorem require_relocate (r : Registry) (id : ClassId) :
    (r.relocate ρ).require id = relocateDemand ρ (Class.relocate ρ) (r.require id) := by
  rw [require, require, class?_relocate]
  cases r.class? id <;> rfl

theorem requireForChange_relocate (r : Registry) (id : ClassId) :
    (r.relocate ρ).requireForChange id =
      relocateDemand ρ (Class.relocate ρ) (r.requireForChange id) := by
  rw [requireForChange, requireForChange, class?_relocate]
  cases r.class? id <;> rfl

@[simp] theorem size_relocate (r : Registry) : (r.relocate ρ).size = r.size :=
  Std.ExtTreeMap.size_map

theorem put_relocate (r : Registry) (c : Class) :
    (r.relocate ρ).put (c.relocate ρ) = (r.put c).relocate ρ :=
  congrArg (fun classes => { r with classes }) (map_insert ..).symm

/-- Names are texts, so the same class is shadowed. -/
theorem register_relocate (r : Registry) (c : Class) :
    (r.relocate ρ).register (c.relocate ρ) =
      ((r.register c).1, (r.register c).2.relocate ρ) := by
  have hname : (c.relocate ρ).name = c.name := rfl
  simp only [register, hname, put_relocate]
  cases c.name <;> rfl

/-- Parents are given by numbers, which are not relocated. -/
@[simp] theorem hasSubclass_relocate (r : Registry) (id : ClassId) :
    (r.relocate ρ).hasSubclass id = r.hasSubclass id := by
  rw [Bool.eq_iff_iff, hasSubclass_iff, hasSubclass_iff]
  simp only [class?_relocate, Option.map_eq_some_iff]
  constructor
  · rintro ⟨id', _, ⟨c, hc, rfl⟩, hparent⟩
    exact ⟨id', c, hc, hparent⟩
  · rintro ⟨id', c, hc, hparent⟩
    exact ⟨id', _, ⟨c, hc, rfl⟩, hparent⟩

/-- So the registration is taken back in the same way, and the name is given back to the same class.
-/
theorem withdraw_relocate (r : Registry) (id : ClassId) (shadowed : Option ClassId) :
    (r.relocate ρ).withdraw id shadowed = (r.withdraw id shadowed).relocate ρ := by
  have hname : ((r.relocate ρ).class? id).bind Class.name = (r.class? id).bind Class.name := by
    rw [class?_relocate]
    cases r.class? id <;> rfl
  have hnames : (r.relocate ρ).releaseName id shadowed = r.releaseName id shadowed := by
    simp only [releaseName, hname, classId?_relocate]
    rfl
  have herase := map_erase r.classes (Class.relocate ρ) id
  simp only [withdraw, hnames, hasSubclass_relocate]
  cases r.hasSubclass id <;> simp [relocate, herase]

end Registry

end Classes

/-! ### Stores -/

/-- The objects of the one store stand in the other one, and new ones get corresponding places. -/
structure Store.Relocated (ρ : Relocation) (s s' : Store) : Prop where
  object : ∀ o, s'.object (ρ o) = (s.object o).relocate ρ
  new : ∀ k, ρ (s.size + k) = s'.size + k
  size : s.size ≤ s'.size

namespace Store.Relocated

variable {ρ : Relocation} {s s' : Store} (h : s.Relocated ρ s')

include h

/-- The next new object comes to the corresponding place. -/
theorem place_size : ρ s.size = s'.size := h.new 0

/-- What is there on one side is there on the other. -/
theorem place_lt_iff (o : ObjectId) : ρ o < s'.size ↔ o < s.size := by
  constructor
  · intro ho
    by_contra hnot
    obtain ⟨k, rfl⟩ := Nat.exists_eq_add_of_le (Nat.le_of_not_lt hnot)
    rw [h.new] at ho
    exact Nat.not_lt.mpr (Nat.le_add_right ..) ho
  · intro ho
    by_contra hnot
    obtain ⟨k, hk⟩ := Nat.exists_eq_add_of_le (Nat.le_of_not_lt hnot)
    rw [← h.new] at hk
    rw [ρ.injective hk] at ho
    exact Nat.not_lt.mpr (Nat.le_add_right ..) ho

/-- A new object is put at corresponding places. -/
theorem add (o : Object) : (s.add o).2.Relocated ρ (s'.add (o.relocate ρ)).2 where
  object x := by
    have hplace : ρ x = s'.size ↔ x = s.size :=
      ⟨fun hx => ρ.injective (hx.trans h.place_size.symm), fun hx => hx ▸ h.place_size⟩
    simp only [object_add, hplace]
    split
    · rfl
    · exact h.object x
  new k := by
    rw [size_add, size_add, Nat.add_assoc, Nat.add_assoc]
    exact h.new (1 + k)
  size := by
    rw [size_add, size_add]
    exact Nat.succ_le_succ h.size

/-- Replacing an object does not touch the others, since no two places come to one. -/
theorem put (o : ObjectId) (x : Object) :
    (s.put o x).Relocated ρ (s'.put (ρ o) (x.relocate ρ)) where
  object o' := by
    have hplace : ρ o' = ρ o ↔ o' = o := ⟨fun ho => ρ.injective ho, congrArg ρ⟩
    simp only [object_put, hplace, h.place_lt_iff]
    split
    · rfl
    · exact h.object o'
  new k := by
    rw [size_put, size_put]
    exact h.new k
  size := by
    rw [size_put, size_put]
    exact h.size

/-- The search goes along the corresponding links. -/
theorem searchFrom (key : String) (fuel : Nat) (start : Option ObjectId) :
    s'.searchFrom key fuel (start.map ρ) = (s.searchFrom key fuel start).relocate ρ := by
  induction fuel generalizing start with
  | zero => cases start <;> rfl
  | succ fuel ih =>
    cases start with
    | none => rfl
    | some o =>
      simp only [Option.map_some, Store.searchFrom, h.object, Object.property?_relocate]
      cases (s.object o).property? key with
      | some p => rfl
      | none => exact ih _

/-- **A search finds the same**, although the other store may have more objects. -/
theorem search (key : String) (o : ObjectId) :
    s'.search key (ρ o) = (s.search key o).relocate ρ := by
  rw [Store.search, ← searchFrom_of_size_lt key (Nat.lt_succ_of_le h.size)]
  exact h.searchFrom key _ (some o)

/-- So does a walk to a given object. -/
theorem reachesFrom (goal : ObjectId) (fuel : Nat) (start : Option ObjectId) :
    s'.reachesFrom (ρ goal) fuel (start.map ρ) = s.reachesFrom goal fuel start := by
  induction fuel generalizing start with
  | zero => cases start <;> rfl
  | succ fuel ih =>
    cases start with
    | none => rfl
    | some o =>
      have hplace : ρ o = ρ goal ↔ o = goal := ⟨fun ho => ρ.injective ho, congrArg ρ⟩
      simp only [Option.map_some, Store.reachesFrom, hplace, h.object]
      split
      · rfl
      · exact ih _

/-- **A walk comes to the same.** -/
theorem descendsFrom? (o goal : ObjectId) :
    s'.descendsFrom? (ρ o) (ρ goal) = s.descendsFrom? o goal := by
  rw [Store.descendsFrom?, Store.descendsFrom?, h.object,
    ← reachesFrom_of_size_lt goal (Nat.lt_succ_of_le h.size)]
  exact h.reachesFrom goal _ _

/-- A diagnostic text shows an object without its place. -/
theorem debug (v : Value) : (v.relocate ρ).debug s' = v.debug s := by
  cases v with
  | ref o =>
    have hdebug : (s'.object (ρ o)).debug = (s.object o).debug := by
      rw [h.object]
      rfl
    unfold Value.debug
    simp only [Value.relocate, hdebug]
  | _ => rfl

end Store.Relocated

/-! ### Machines -/

/-- The second machine is a relocation of the first one. The log that was there before is the same;
the entries on top of it are relocated. -/
structure Machine.Relocated (ρ : Relocation) (log₀ : List Entry) (m m' : Machine) : Prop where
  store : m.store.Relocated ρ m'.store
  registry : m'.registry = m.registry.relocate ρ
  frames : m'.frames = m.frames.map (Frame.relocate ρ)
  nextFunction : m'.nextFunction = m.nextFunction
  registers : m'.registers = m.registers.map fun _ v => v.relocate ρ
  log : ∃ es, m.log = es ++ log₀ ∧ m'.log = es.map (Entry.relocate ρ) ++ log₀

/-- The checks of a definition are passed on both machines, or on none. -/
theorem ClassDefinition.checkNames_relocate (ρ : Relocation) (d : ClassDefinition) :
    (d.relocate ρ).checkNames = relocateDemand ρ id d.checkNames := by
  have helements : (d.relocate ρ).elements = d.elements := rfl
  rw [checkNames, checkNames, helements]
  cases d.elements.findSome? ClassElement.reserved? <;> rfl

/-- The heritage stands for the relocated class, or is refused with the relocated value. -/
theorem Machine.Relocated.parent? {ρ : Relocation} {log₀ : List Entry} {m m' : Machine}
    (h : m.Relocated ρ log₀ m') (d : ClassDefinition) : (d.relocate ρ).parent? m' =
      relocateDemand ρ (Option.map (Class.relocate ρ)) (d.parent? m) := by
  have hclass (v : Value) : ClassDefinition.classOfValue? m' (v.relocate ρ) =
      (ClassDefinition.classOfValue? m v).map (Class.relocate ρ) := by
    cases v with
    | ref o =>
      have hkind : (m'.store.object (ρ o)).kind = (m.store.object o).kind := by
        rw [h.store.object]
        rfl
      simp only [Value.relocate, ClassDefinition.classOfValue?, hkind, h.registry]
      cases (m.store.object o).kind <;> first | rfl | exact Registry.class?_relocate ..
    | _ => rfl
  cases hheritage : d.heritage with
  | none => simp [ClassDefinition.parent?, ClassDefinition.relocate, hheritage, relocateDemand]
  | some v =>
    simp only [ClassDefinition.parent?, ClassDefinition.relocate, hheritage, Option.map_some,
      hclass]
    cases ClassDefinition.classOfValue? m v <;> rfl

/-- The second action does to the relocation of a machine what the first one does to the machine,
and its answer corresponds to that of the first one. -/
def Action.Follows (ρ : Relocation) (log₀ : List Entry) (f : α → β) (x : Action α)
    (x' : Action β) : Prop :=
  ∀ ⦃m m' : Machine⦄, m.Relocated ρ log₀ m' →
    (x'.outcome m').1 = (x.outcome m).1.map (relocateOutcome ρ f) ∧
      (x.outcome m).2.Relocated ρ log₀ (x'.outcome m').2

section Machines

variable {ρ : Relocation} {log₀ : List Entry} {m m' : Machine}

namespace Machine.Relocated

variable (h : m.Relocated ρ log₀ m')

include h

/-- Nothing is said of the traces. -/
theorem note (e e' : Event) :
    ((Effect.note e).apply m).Relocated ρ log₀ ((Effect.note e').apply m') :=
  ⟨h.store, h.registry, h.frames, h.nextFunction, h.registers, h.log⟩

theorem with_store {s s' : Store} (hs : s.Relocated ρ s') :
    Machine.Relocated ρ log₀ { m with store := s } { m' with store := s' } :=
  ⟨hs, h.registry, h.frames, h.nextFunction, h.registers, h.log⟩

theorem with_registry {r r' : Registry} (hr : r' = r.relocate ρ) :
    Machine.Relocated ρ log₀ { m with registry := r } { m' with registry := r' } :=
  ⟨h.store, hr, h.frames, h.nextFunction, h.registers, h.log⟩

theorem with_frames {fs fs' : List Frame} (hfs : fs' = fs.map (Frame.relocate ρ)) :
    Machine.Relocated ρ log₀ { m with frames := fs } { m' with frames := fs' } :=
  ⟨h.store, h.registry, hfs, h.nextFunction, h.registers, h.log⟩

end Machine.Relocated

namespace Action.Follows

variable {x : Action α} {x' : Action β} {f : α → β}

/-- An action of one outcome. -/
theorem of_outcome
    (h : ∀ ⦃m m' : Machine⦄, m.Relocated ρ log₀ m' → ∃ r n n', x.outcome m = (r, n) ∧
      x'.outcome m' = (r.map (relocateOutcome ρ f), n') ∧ n.Relocated ρ log₀ n') :
    Follows ρ log₀ f x x' := by
  intro m m' hm
  obtain ⟨r, n, n', hx, hx', hn⟩ := h hm
  rw [hx, hx']
  exact ⟨rfl, hn⟩

theorem pure {a : α} {b : β} (h : b = f a) :
    Follows ρ log₀ f (Pure.pure a) (Pure.pure b) :=
  .of_outcome fun m m' hm => ⟨some (.ok a), m, m', rfl, h ▸ rfl, hm⟩

theorem breakOff : Follows ρ log₀ f ClassMachine.breakOff ClassMachine.breakOff :=
  .of_outcome fun m m' hm => ⟨none, m, m', rfl, rfl, hm⟩

theorem throw {e e' : Failure} (h : e' = e.relocate ρ) :
    Follows ρ log₀ f (MonadExcept.throw e) (MonadExcept.throw e') :=
  .of_outcome fun m m' hm => ⟨some (.error e), m, m', rfl, h ▸ rfl, hm⟩

theorem note (e e' : Event) :
    Follows ρ log₀ id (ClassMachine.note e) (ClassMachine.note e') :=
  .of_outcome fun _ _ hm => ⟨some (.ok ⟨⟩), _, _, rfl, rfl, hm.note e e'⟩

theorem raise {φ φ' : Fault} (h : φ' = φ.relocate ρ) :
    Follows ρ log₀ f (ClassMachine.raise φ) (ClassMachine.raise φ') :=
  .of_outcome fun _ _ hm => ⟨some (.error (.ofFault φ)), _, _, rfl, h ▸ rfl,
    hm.note (.raised φ) (.raised φ')⟩

/-- Changes that keep the machines in step. -/
theorem modify {g g' : Machine → Machine}
    (h : ∀ ⦃m m' : Machine⦄, m.Relocated ρ log₀ m' → (g m).Relocated ρ log₀ (g' m')) :
    Follows ρ log₀ id (modify g : Action PUnit) (modify g' : Action PUnit) :=
  .of_outcome fun _ _ hm => ⟨some (.ok ⟨⟩), _, _, rfl, rfl, h hm⟩

variable {γ δ : Type} {k : α → Action γ} {k' : β → Action δ} {g : γ → δ}

/-- The second action is given the corresponding answer. -/
theorem bind (hx : Follows ρ log₀ f x x')
    (hk : ∀ a, Follows ρ log₀ g (k a) (k' (f a))) : Follows ρ log₀ g (x >>= k) (x' >>= k') := by
  intro m m' hm
  obtain ⟨hr, hn⟩ := hx hm
  rw [outcome_bind, outcome_bind]
  rcases hx₁ : x.outcome m with ⟨_ | e | a, n⟩ <;>
    rcases hx₁' : x'.outcome m' with ⟨r', n'⟩ <;>
    rw [hx₁, hx₁'] at hr hn <;> obtain rfl := hr
  · exact ⟨rfl, hn⟩
  · exact ⟨rfl, hn⟩
  · exact hk a hn

/-- The machine is read, and the rest goes by what was read. -/
theorem bind_get {k : Machine → Action γ} {k' : Machine → Action δ}
    (hk : ∀ ⦃m m' : Machine⦄, m.Relocated ρ log₀ m' → Follows ρ log₀ g (k m) (k' m')) :
    Follows ρ log₀ g (get >>= k) (get >>= k') := by
  intro m m' hm
  rw [outcome_bind, outcome_bind]
  exact hk hm hm

/-- What is refused is refused with the corresponding fault. -/
theorem demand {r : Except Fault α} {r' : Except Fault β} (h : r' = relocateDemand ρ f r) :
    Follows ρ log₀ f (ClassMachine.demand r) (ClassMachine.demand r') := by
  subst h
  cases r with
  | ok a => exact .pure rfl
  | error φ => exact .raise rfl

theorem settle {r : Except Failure α} {r' : Except Failure β} (h : r' = relocateOutcome ρ f r) :
    Follows ρ log₀ f (ClassMachine.settle r) (ClassMachine.settle r') := by
  subst h
  cases r with
  | ok a => exact .pure rfl
  | error e => exact .throw rfl

/-- An outcome that is looked at is relocated as a whole. -/
theorem observe (hx : Follows ρ log₀ f x x') :
    Follows ρ log₀ (relocateOutcome ρ f) (ClassMachine.observe x) (ClassMachine.observe x') := by
  intro m m' hm
  obtain ⟨hr, hn⟩ := hx hm
  rw [outcome_observe, outcome_observe]
  refine ⟨?_, hn⟩
  rw [hr]
  cases (x.outcome m).1 <;> rfl

theorem discard (hx : Follows ρ log₀ f x x') :
    Follows ρ log₀ id (Functor.discard x) (Functor.discard x') := by
  rw [discard_eq_bind, discard_eq_bind]
  exact hx.bind fun _ => .pure rfl

/-- No activity has a value in the layer that it adds. -/
theorem during {a a' : Activity} (ha : a'.context = a.context) (hx : Follows ρ log₀ f x x') :
    Follows ρ log₀ f (ClassMachine.during a x) (ClassMachine.during a' x') := by
  have hcontext : a.context.relocate ρ = a.context := by
    cases a <;> rfl
  refine (Follows.note _ _).bind fun _ => hx.observe.bind fun r => ?_
  cases r with
  | ok v => exact (Follows.note _ _).bind fun _ => .pure rfl
  | error e =>
    refine (Follows.note _ _).bind fun _ => .throw ?_
    simp only [Failure.within, Failure.relocate, List.map_cons, hcontext, ha]

end Action.Follows

end Machines

end ClassMachine
