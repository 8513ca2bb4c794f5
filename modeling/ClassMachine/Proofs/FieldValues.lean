import Mathlib.Data.List.TakeWhile
import ClassMachine.Proofs.ClassGraph
import ClassMachine.Proofs.FieldHistory

/-!
# What fields make of an object

An instance has its properties from two sources: fields are installed on it, each of which
leaves a plain property, and clients change it. Nothing else that a machine does gets at the
properties of an instance. So what becomes of an instance that no client changes is what the
fields make of it, one after the other (`ClassMachine.Machine.Furnishes`).

The trace tells which fields these are, and the values that they have left
(`ClassMachine.installsOf`). What was noted before the object was made does not count
(`ClassMachine.sinceMade`). A value that the trace tells is the one that the record of its field
has given, at a moment at which the object was still without it (`ClassMachine.Machine.Yields`).

This is no law of single effects, since an effect may define any property of any object. It is
one of what is done as a whole: a client changes an object and this is noted; a field is
installed, and this is noted. Methods are put onto objects without a note, but these objects are
the two of a class, which are no instances, from the beginning and for good.

Main statement: `ClassMachine.interpret_furnishes`.
-/

namespace ClassMachine

variable {α : Type} {settings : Settings}

/-! ### The properties of an object -/

/-- Objects of this kind are instances. -/
def ObjectKind.IsInstance : ObjectKind → Prop
  | .instance _ => True
  | .ordinary | .classObject _ => False

namespace Object

/-- The properties of an object, without what it stands for and what it is linked to. -/
def content (o : Object) : Object :=
  { o with kind := .ordinary, prototype := none }

/-- The object with the value of a field, if it takes it. -/
def take (o : Object) (field : FieldRecord × Value) : Object :=
  match o.define field.1.name (.plain field.2) with
  | .ok o' => o'
  | .error _ => o

/-- The object with the values of fields, taken one after the other. -/
def takeAll (o : Object) (fields : List (FieldRecord × Value)) : Object :=
  fields.foldl take o

variable {o o' : Object}

theorem takeAll_append (o : Object) (fields fields' : List (FieldRecord × Value)) :
    o.takeAll (fields ++ fields') = (o.takeAll fields).takeAll fields' :=
  List.foldl_append

/-- What an object takes depends on its properties only. -/
theorem content_of_define {key : String} {p : Property} (h : o.define key p = .ok o') :
    o.content.define key p = .ok o'.content := by
  have hsame : o.content.property? key = o.property? key := rfl
  unfold define at h ⊢
  rw [hsame]
  split at h <;> split at h <;> cases h <;> simp_all [content]

end Object

/-- A place that is not used reads as no instance. -/
theorem Store.lt_of_isInstance {s : Store} {o : ObjectId} (h : (s.object o).kind.IsInstance) :
    o < s.size := by
  by_contra hge
  rw [Store.object_of_le (Nat.le_of_not_lt hge)] at h
  exact h

/-! ### Fields in a trace -/

/-- Is it the making of the object? -/
def Event.makes (o : ObjectId) : Event → Bool
  | allocated this _ => this == o
  | _ => false

/-- The field that has been installed on the object, and its value, if the event tells that. -/
def Event.installed? (o : ObjectId) : Event → Option (FieldRecord × Value)
  | installed this record value => if this = o then some (record, value) else none
  | _ => none

/-- The instance field that is finished on the object, if the event tells that. -/
def Event.finish? (o : ObjectId) : Event → Option FieldRecord
  | finished (.instanceField _ _ this record) => if this = o then some record else none
  | _ => none

/-- What has been noted since the object was made. -/
def sinceMade (T : List Event) (o : ObjectId) : List Event :=
  T.takeWhile fun e => !e.makes o

/-- The fields that have been installed on the object since it was made, the first one in front,
with the values that they have left. -/
def installsOf (T : List Event) (o : ObjectId) : List (FieldRecord × Value) :=
  ((sinceMade T o).filterMap (Event.installed? o)).reverse

/-- The instance fields that have been finished on the object since it was made, the first one in
front. -/
def finishesOf (T : List Event) (o : ObjectId) : List FieldRecord :=
  ((sinceMade T o).filterMap (Event.finish? o)).reverse

section Since

variable {T T' : List Event} {o : ObjectId}

/-- If the object was made in the newer part, the older one does not count. -/
theorem sinceMade_append_of_made (h : ∃ e ∈ T', e.makes o = true) :
    sinceMade (T' ++ T) o = sinceMade T' o := by
  induction T' with
  | nil => simp at h
  | cons e T' ih =>
    by_cases he : e.makes o = true
    · simp [sinceMade, he]
    · have hrest : ∃ e ∈ T', e.makes o = true := by simpa [he] using h
      simpa [sinceMade, he] using ih hrest

/-- Otherwise both do. -/
theorem sinceMade_append (h : ∀ e ∈ T', e.makes o = false) :
    sinceMade (T' ++ T) o = sinceMade T' o ++ sinceMade T o := by
  have hpass : ∀ e ∈ T', (!e.makes o) = true := by simpa using h
  rw [sinceMade, List.takeWhile_append_of_pos hpass, sinceMade,
    List.takeWhile_eq_self_iff.mpr hpass]
  rfl

theorem installsOf_append (h : ∀ e ∈ T', e.makes o = false) :
    installsOf (T' ++ T) o = installsOf T o ++ installsOf T' o := by
  simp [installsOf, sinceMade_append h]

theorem finishesOf_append (h : ∀ e ∈ T', e.makes o = false) :
    finishesOf (T' ++ T) o = finishesOf T o ++ finishesOf T' o := by
  simp [finishesOf, sinceMade_append h]

end Since

/-- The event tells nothing about the making of objects and about fields that are done. -/
def Event.IsTidy (e : Event) : Prop :=
  ∀ o, e.makes o = false ∧ e.installed? o = none ∧ e.finish? o = none

section Tidy

variable {new : List Event} (h : ∀ e ∈ new, e.IsTidy) (o : ObjectId)

include h

theorem sinceMade_of_tidy : sinceMade new o = new :=
  List.takeWhile_eq_self_iff.mpr fun e he => by simp [(h e he o).1]

theorem installsOf_of_tidy : installsOf new o = [] := by
  rw [installsOf, sinceMade_of_tidy h, List.filterMap_eq_nil_iff.mpr fun e he => (h e he o).2.1]
  rfl

theorem finishesOf_of_tidy : finishesOf new o = [] := by
  rw [finishesOf, sinceMade_of_tidy h, List.filterMap_eq_nil_iff.mpr fun e he => (h e he o).2.2]
  rfl

end Tidy

/-! ### What becomes of instances -/

/-- What has become of instances between two machines, and what was noted meanwhile. -/
structure Machine.FurnishedBy (m : Machine) (new : List Event) (m' : Machine) : Prop where
  trace : m'.trace = new ++ m.trace
  size : m.store.size ≤ m'.store.size
  kind : ∀ o < m.store.size, (m'.store.object o).kind = (m.store.object o).kind
  /-- What is told to be made was not there. -/
  made : ∀ o, ∀ e ∈ new, e.makes o = true → m.store.size ≤ o
  /-- What is an instance, and was not there, is told to be made. -/
  told : ∀ o, m.store.size ≤ o → (m'.store.object o).kind.IsInstance →
    ∃ e ∈ new, e.makes o = true
  /-- An instance that no client has changed has taken the values of fields, and nothing else. -/
  properties : ∀ o, (m'.store.object o).kind.IsInstance → .changed o ∉ new →
    (m'.store.object o).content = (m.store.object o).content.takeAll (installsOf new o)
  /-- These are the fields that are finished on it. -/
  finished : ∀ o, (m'.store.object o).kind.IsInstance →
    (installsOf new o).map Prod.fst = finishesOf new o

/-- How the value of a field came about, before it was installed: the field had been begun, the rule
of its record gave the value, and then the object was still without it. -/
def Machine.Yields (settings : Settings) (m : Machine) (earlier : List Event) (o : ObjectId)
    (record : FieldRecord) (value : Value) : Prop :=
  ∃ levels m₁ m₂ cls className before,
    m.FurnishedBy (.began (.instanceField cls className o record) :: before) m₁ ∧
    (fieldValue (interpret settings levels) o record).outcome m₁ = (some (.ok value), m₂) ∧
    m.FurnishedBy earlier m₂ ∧ (m₂.store.object o).kind.IsInstance

/-- What has become of instances between two machines; and the values are those that the records
of the fields have given. -/
structure Machine.SuppliedBy (settings : Settings) (m : Machine) (new : List Event) (m' : Machine) :
    Prop extends m.FurnishedBy new m' where
  values : ∀ later o record value earlier, new = later ++ .installed o record value :: earlier →
    (∀ e ∈ later, e.makes o = false) → (m'.store.object o).kind.IsInstance →
    m.Yields settings earlier o record value

/-- What may have become of instances. -/
def Machine.Furnishes (settings : Settings) (m m' : Machine) : Prop :=
  ∃ new, m.SuppliedBy settings new m'

namespace Machine

variable {m m' m'' : Machine} {new new' : List Event}

theorem FurnishedBy.trans (h : m.FurnishedBy new m') (h' : m'.FurnishedBy new' m'') :
    m.FurnishedBy (new' ++ new) m'' where
  trace := by rw [h'.trace, h.trace, List.append_assoc]
  size := Nat.le_trans h.size h'.size
  kind o ho := (h'.kind o (Nat.lt_of_lt_of_le ho h.size)).trans (h.kind o ho)
  made o e he hmakes := by
    rcases List.mem_append.mp he with he | he
    · exact Nat.le_trans h.size (h'.made o e he hmakes)
    · exact h.made o e he hmakes
  told o ho hinstance := by
    rcases Nat.lt_or_ge o m'.store.size with hlt | hge
    · rw [h'.kind o hlt] at hinstance
      obtain ⟨e, he, hmakes⟩ := h.told o ho hinstance
      exact ⟨e, List.mem_append_right _ he, hmakes⟩
    · obtain ⟨e, he, hmakes⟩ := h'.told o hge hinstance
      exact ⟨e, List.mem_append_left _ he, hmakes⟩
  properties o hinstance hchanged := by
    rw [List.mem_append, not_or] at hchanged
    have hlater := h'.properties o hinstance hchanged.1
    rcases Nat.lt_or_ge o m'.store.size with hlt | hge
    · have hnone : ∀ e ∈ new', e.makes o = false := fun e he => by
        by_contra hmakes
        exact Nat.not_lt_of_le (h'.made o e he (by simpa using hmakes)) hlt
      rw [h'.kind o hlt] at hinstance
      rw [hlater, h.properties o hinstance hchanged.2, installsOf_append hnone,
        Object.takeAll_append]
    · -- the object was made in the second part, and is a blank one in both machines before
      have hblank : m'.store.object o = m.store.object o := by
        rw [Store.object_of_le hge, Store.object_of_le (Nat.le_trans h.size hge)]
      rw [hlater, hblank, installsOf, installsOf,
        sinceMade_append_of_made (h'.told o hge hinstance)]
  finished o hinstance := by
    have hlater := h'.finished o hinstance
    rcases Nat.lt_or_ge o m'.store.size with hlt | hge
    · have hnone : ∀ e ∈ new', e.makes o = false := fun e he => by
        by_contra hmakes
        exact Nat.not_lt_of_le (h'.made o e he (by simpa using hmakes)) hlt
      rw [h'.kind o hlt] at hinstance
      rw [installsOf_append hnone, finishesOf_append hnone, List.map_append, hlater,
        h.finished o hinstance]
    · rw [installsOf, finishesOf, sinceMade_append_of_made (h'.told o hge hinstance)]
      exact hlater

/-- What leaves the instances as they are, and notes nothing of them. -/
theorem FurnishedBy.of_tidy (htrace : m'.trace = new ++ m.trace) (hnew : ∀ e ∈ new, e.IsTidy)
    (hsize : m.store.size ≤ m'.store.size)
    (hkind : ∀ o < m.store.size, (m'.store.object o).kind = (m.store.object o).kind)
    (hsame : ∀ o, (m'.store.object o).kind.IsInstance → o < m.store.size ∧
      (m'.store.object o).content = (m.store.object o).content) : m.FurnishedBy new m' where
  trace := htrace
  size := hsize
  kind := hkind
  made o e he hmakes := by simp [(hnew e he o).1] at hmakes
  told o ho hinstance := absurd (hsame o hinstance).1 (Nat.not_lt_of_le ho)
  properties o hinstance _ := by
    rw [(hsame o hinstance).2, installsOf_of_tidy hnew]
    rfl
  finished o _ := by
    rw [installsOf_of_tidy hnew, finishesOf_of_tidy hnew]
    rfl

theorem FurnishedBy.refl (m : Machine) : m.FurnishedBy [] m :=
  .of_tidy rfl (by simp) (Nat.le_refl _) (fun _ _ => rfl) fun _ h => ⟨Store.lt_of_isInstance h, rfl⟩

/-- An object is replaced by another one of its kind, and something is noted of it, if it is an
instance. -/
theorem FurnishedBy.put (id : ObjectId) {o' : Object} (hkind : o'.kind = (m.store.object id).kind)
    (htrace : m'.trace = new ++ m.trace) (hstore : m'.store = m.store.put id o')
    (hmakes : ∀ o, ∀ e ∈ new, e.makes o = false)
    (hothers : ∀ o, (m.store.object o).kind.IsInstance → o ≠ id → installsOf new o = [] ∧
      finishesOf new o = [])
    (hself : (m.store.object id).kind.IsInstance →
      (.changed id ∉ new → o'.content = (m.store.object id).content.takeAll (installsOf new id)) ∧
      (installsOf new id).map Prod.fst = finishesOf new id) : m.FurnishedBy new m' := by
  have hobject (o : ObjectId) (hne : o ≠ id) : m'.store.object o = m.store.object o := by
    rw [hstore, Store.object_put, if_neg fun h => hne h.1]
  have hput (hlt : id < m.store.size) : m'.store.object id = o' := by
    rw [hstore, Store.object_put, if_pos ⟨rfl, hlt⟩]
  have hkinds (o : ObjectId) : (m'.store.object o).kind = (m.store.object o).kind := by
    rw [hstore, Store.object_put]
    split
    next h => rw [h.1, hkind]
    next => rfl
  refine ⟨htrace, by rw [hstore, Store.size_put], fun o _ => hkinds o,
    fun o e he h => by simp [hmakes o e he] at h, fun o ho h => ?_, fun o h hchanged => ?_,
    fun o h => ?_⟩
  all_goals rw [hkinds] at h
  · exact absurd (Store.lt_of_isInstance h) (Nat.not_lt_of_le ho)
  · by_cases hne : o = id
    · subst hne
      rw [hput (Store.lt_of_isInstance h), (hself h).1 hchanged]
    · rw [hobject o hne, (hothers o h hne).1]
      rfl
  · by_cases hne : o = id
    · subst hne
      exact (hself h).2
    · rw [(hothers o h hne).1, (hothers o h hne).2]
      rfl

/-- Something was noted before. -/
theorem Yields.trans {earlier : List Event} {o : ObjectId} {record : FieldRecord} {value : Value}
    (h : m.FurnishedBy new m') (hyields : m'.Yields settings earlier o record value) :
    m.Yields settings (earlier ++ new) o record value := by
  obtain ⟨levels, m₁, m₂, cls, className, before, hbegan, hvalue, hfurnished, hinstance⟩ := hyields
  exact ⟨levels, m₁, m₂, cls, className, before ++ new, h.trans hbegan, hvalue,
    h.trans hfurnished, hinstance⟩

/-- An instance that was not made meanwhile was one before. -/
theorem FurnishedBy.isInstance (h : m.FurnishedBy new m') {o : ObjectId}
    (hmakes : ∀ e ∈ new, e.makes o = false) (ho : (m'.store.object o).kind.IsInstance) :
    (m.store.object o).kind.IsInstance := by
  have hlt : o < m.store.size := by
    by_contra hge
    obtain ⟨e, he, hmade⟩ := h.told o (Nat.le_of_not_lt hge) ho
    simp [hmakes e he] at hmade
  rwa [h.kind o hlt] at ho

/-- Something was noted afterwards. -/
theorem SuppliedBy.yields (h : m.SuppliedBy settings new m') (h' : m'.FurnishedBy new' m'')
    {between earlier : List Event} {o : ObjectId} {record : FieldRecord} {value : Value}
    (hnew : new = between ++ .installed o record value :: earlier)
    (hmakes : ∀ e ∈ new' ++ between, e.makes o = false)
    (ho : (m''.store.object o).kind.IsInstance) : m.Yields settings earlier o record value :=
  h.values between o record value earlier hnew (fun e he => hmakes e (List.mem_append_right _ he))
    (h'.isInstance (fun e he => hmakes e (List.mem_append_left _ he)) ho)

theorem SuppliedBy.trans (h : m.SuppliedBy settings new m') (h' : m'.SuppliedBy settings new' m'') :
    m.SuppliedBy settings (new' ++ new) m'' where
  toFurnishedBy := h.toFurnishedBy.trans h'.toFurnishedBy
  values later o record value earlier hsplit hmakes ho := by
    rcases List.append_eq_append_iff.mp hsplit with ⟨between, rfl, hnew⟩ | ⟨between, rfl, hnew⟩
    · exact h.yields h'.toFurnishedBy hnew hmakes ho
    · rcases between with _ | ⟨e, between⟩
      · have hnew : new = [] ++ .installed o record value :: earlier := hnew.symm
        exact h.yields h'.toFurnishedBy hnew (by simpa using hmakes) ho
      · obtain ⟨rfl, rfl⟩ := List.cons.inj hnew
        exact .trans h.toFurnishedBy (h'.values later o record value between rfl hmakes ho)

/-- A field is installed, with the value that its record has given. -/
theorem SuppliedBy.install (h : m.SuppliedBy settings new m') {a : Activity} {target : ObjectId}
    {field : FieldRecord} {v : Value}
    (hyields : (m'.store.object target).kind.IsInstance → m.Yields settings new target field v)
    (h' : m'.FurnishedBy [.finished a, .installed target field v] m'') :
    m.SuppliedBy settings (.finished a :: .installed target field v :: new) m'' where
  toFurnishedBy := h.toFurnishedBy.trans h'
  values later o record value earlier hsplit hmakes ho := by
    match later with
    | [] => simp at hsplit
    | [_] =>
      obtain ⟨-, ⟨rfl, rfl, rfl⟩, rfl⟩ : _ ∧ (target = o ∧ field = record ∧ v = value) ∧
        new = earlier := by simpa using hsplit
      exact hyields (h'.isInstance (by simp [Event.makes]) ho)
    | _ :: _ :: between =>
      obtain ⟨rfl, rfl, hnew⟩ : _ ∧ _ ∧ new = between ++ .installed o record value :: earlier := by
        simpa using hsplit
      exact h.yields h' hnew hmakes ho

/-- Where no field is installed on an instance, there are no values. -/
theorem FurnishedBy.supplied (h : m.FurnishedBy new m')
    (hnone : ∀ o record value, .installed o record value ∈ new →
      ¬ (m'.store.object o).kind.IsInstance) : m.SuppliedBy settings new m' where
  toFurnishedBy := h
  values later o record value earlier hnew _ hinstance :=
    absurd hinstance (hnone o record value (by simp [hnew]))

/-- Where nothing is noted of fields, there are no values. -/
theorem FurnishedBy.supplied_of_tidy (h : m.FurnishedBy new m') (hnew : ∀ e ∈ new, e.IsTidy) :
    m.SuppliedBy settings new m' :=
  h.supplied fun o record value hmem => by
    simpa [Event.installed?] using (hnew _ hmem o).2.1

theorem Furnishes.refl (m : Machine) : m.Furnishes settings m :=
  ⟨[], (FurnishedBy.refl m).supplied_of_tidy (by simp)⟩

theorem Furnishes.trans (h : m.Furnishes settings m') (h' : m'.Furnishes settings m'') :
    m.Furnishes settings m'' := by
  obtain ⟨new, h⟩ := h
  obtain ⟨new', h'⟩ := h'
  exact ⟨new' ++ new, h.trans h'⟩

end Machine

open Machine

/-- The law of what becomes of instances. -/
def furnishLaw (settings : Settings) : Law where
  ended := Machine.Furnishes settings
  broken := Machine.Furnishes settings
  refl := .refl
  trans := .trans
  late h := h
  trans_broken := .trans

/-- The law says nothing of how an action has ended. -/
theorem furnishLaw_holds {m m' : Machine} {r : Option (Except Failure α)} :
    (furnishLaw settings).Holds m r m' ↔ m.Furnishes settings m' := by
  cases r <;> rfl

/-- The effect leaves the instances as they are, and notes nothing of them. -/
def Effect.IsTidy : Effect → Prop
  | .note e => e.IsTidy
  | .object kind _ => ¬ kind.IsInstance
  | .define .. | .delete .. | .close _ => False
  | _ => True

theorem furnishLaw_allows {e : Effect} (h : e.IsTidy) : (furnishLaw settings).Allows e := by
  intro m
  obtain ⟨new, hnew, htidy⟩ : ∃ new, (e.apply m).trace = new ++ m.trace ∧ ∀ x ∈ new, x.IsTidy := by
    cases e with
    | note e => exact ⟨[e], rfl, by simpa [Effect.IsTidy] using h⟩
    | relink id => exact ⟨[.relinked id], rfl, by
        simp [Event.IsTidy, Event.makes, Event.installed?, Event.finish?]⟩
    | define | delete | close => exact h.elim
    | _ => exact ⟨[], rfl, by simp⟩
  refine ⟨new, FurnishedBy.supplied_of_tidy (.of_tidy hnew htidy (e.size_apply m)
    (fun o ho => (e.object_apply ho).1) fun o ho => ?_) htidy⟩
  cases e with
  | object kind prototype =>
    simp only [Effect.apply, Store.object_add] at ho ⊢
    split at ho
    next => exact absurd ho h
    next hne => exact ⟨Store.lt_of_isInstance ho, by rw [if_neg hne]⟩
  | relink id prototype =>
    simp only [Effect.apply, Store.object_put] at ho ⊢
    split at ho
    next hid =>
      rw [if_pos hid, hid.1]
      exact ⟨hid.2, rfl⟩
    next hid =>
      rw [if_neg hid]
      exact ⟨Store.lt_of_isInstance ho, rfl⟩
  | define | delete | close => exact h.elim
  | _ => exact ⟨Store.lt_of_isInstance ho, rfl⟩

/-! ### Changes of objects -/

section Changes

variable {m : Machine} {id : ObjectId} {o' : Object}

/-- A client changes an object, and this is noted. -/
theorem furnishes_changed (hkind : o'.kind = (m.store.object id).kind) :
    m.Furnishes settings
      { m with store := m.store.put id o', trace := .changed id :: m.trace } := by
  have htidy : ∀ e ∈ [Event.changed id], e.IsTidy := by
    simp [Event.IsTidy, Event.makes, Event.installed?, Event.finish?]
  refine ⟨[.changed id], FurnishedBy.supplied_of_tidy (.put id hkind rfl rfl
    (fun o e he => (htidy e he o).1)
    (fun o _ _ => ⟨installsOf_of_tidy htidy o, finishesOf_of_tidy htidy o⟩) fun _ =>
      ⟨fun h => absurd List.mem_cons_self h, ?_⟩) htidy⟩
  rw [installsOf_of_tidy htidy, finishesOf_of_tidy htidy]
  rfl

/-- An object that is no instance is changed. -/
theorem furnishes_put (hid : ¬ (m.store.object id).kind.IsInstance)
    (hkind : o'.kind = (m.store.object id).kind) :
    m.Furnishes settings { m with store := m.store.put id o' } :=
  ⟨[], FurnishedBy.supplied_of_tidy
    (.put id hkind rfl rfl (by simp) (fun _ _ _ => ⟨rfl, rfl⟩) fun h => absurd h hid) (by simp)⟩

theorem furnishes_raised (m : Machine) (f : Fault) :
    m.Furnishes settings ((Effect.note (.raised f)).apply m) :=
  furnishLaw_allows (e := .note (.raised f)) (fun _ => ⟨rfl, rfl, rfl⟩) m

theorem defineForClient_furnishes (id : ObjectId) (key : String) (p : Property) :
    (defineForClient id key p).Obeys (furnishLaw settings) := by
  intro m
  rw [Action.Ensures, defineForClient, outcome_bind, outcome_defineOn]
  cases h : (m.store.object id).define key p with
  | ok o' => exact furnishes_changed (Object.shape_of_define h).1
  | error f => exact furnishes_raised m f

theorem deleteFrom_furnishes (id : ObjectId) (key : String) :
    (deleteFrom id key).Obeys (furnishLaw settings) :=
  fun _ => furnishes_changed (Object.shape_delete _ key).1

theorem preventExtensions_furnishes (id : ObjectId) :
    (preventExtensions id).Obeys (furnishLaw settings) :=
  fun _ => furnishes_changed rfl

end Changes

/-- A new instance has no properties. -/
theorem allocate_furnishes (newTarget : ClassId) :
    (allocate newTarget).Obeys (furnishLaw settings) := by
  intro m
  rcases hc : m.registry.class? newTarget with _ | c
  · exact .bind_error (outcome_classAt_of_none hc) (furnishes_raised m _)
  refine .bind_ok (outcome_classAt_of_some hc) ?_
  let o := m.store.size
  let m' : Machine := (Effect.note (.allocated o newTarget)).apply
    ((Effect.object (.instance newTarget) (some c.prototype)).apply m)
  have hobject (x : ObjectId) : m'.store.object x =
      if x = o then { kind := .instance newTarget, prototype := some c.prototype }
      else m.store.object x := Store.object_add ..
  have hinstalls (x : ObjectId) : installsOf [.allocated o newTarget] x = [] := by
    simp only [installsOf, sinceMade, List.takeWhile_cons]
    split <;> rfl
  have hmade : m.FurnishedBy [.allocated o newTarget] m' := by
    refine ⟨rfl, ?_, ?_, ?_, ?_, ?_, ?_⟩
    · exact Nat.le_of_lt (by simp [m', Effect.apply])
    · intro x hx
      rw [hobject, if_neg (Nat.ne_of_lt hx)]
    · intro x e he hmakes
      obtain rfl := List.mem_singleton.mp he
      exact Nat.le_of_eq (beq_iff_eq.mp hmakes)
    · intro x hx hinstance
      by_cases hxo : x = o
      · exact ⟨_, List.mem_cons_self, beq_iff_eq.mpr hxo.symm⟩
      · rw [hobject, if_neg hxo] at hinstance
        exact absurd (Store.lt_of_isInstance hinstance) (Nat.not_lt_of_le hx)
    · intro x _ _
      rw [hinstalls, hobject]
      split
      next hxo =>
        rw [hxo, Store.object_of_le (Nat.le_refl _)]
        rfl
      next => rfl
    · intro x _
      rw [hinstalls]
      simp only [finishesOf, sinceMade, List.takeWhile_cons]
      split <;> rfl
  exact .of_outcome (r := some (.ok o)) (n := m') rfl
    (show m.Furnishes settings m' from ⟨_, hmade.supplied (by simp)⟩)

/-! ### Fields -/

section Fields

variable {perform : Performer}
  (heval : ∀ e ctx, (perform (.eval e ctx)).Obeys (furnishLaw settings))

/-- **What is ensured when a field is installed**, given what is ensured of its value. -/
theorem installField_ensures {target : ObjectId} {record : FieldRecord} {m : Machine}
    {P : Option (Except Failure Value) → Machine → Prop}
    {Q : Option (Except Failure Unit) → Machine → Prop}
    (hvalue : (fieldValue perform target record).Ensures m P)
    (hok : ∀ v m₁ o', P (some (.ok v)) m₁ →
      (m₁.store.object target).define record.name (.plain v) = .ok o' → Q (some (.ok ⟨⟩))
        { m₁ with
          store := m₁.store.put target o'
          trace := .installed target record v :: m₁.trace })
    (hrefused : ∀ v m₁ f, P (some (.ok v)) m₁ →
      Q (some (.error (.ofFault f))) ((Effect.note (.raised f)).apply m₁))
    (herror : ∀ e m₁, P (some (.error e)) m₁ → Q (some (.error e)) m₁)
    (hbroken : ∀ m₁, P none m₁ → Q none m₁) :
    (installField perform target record).Ensures m Q := by
  refine hvalue.bind (fun v m₁ _ h => ?_) herror hbroken
  rw [Action.Ensures, outcome_bind, outcome_defineOn]
  cases hdefine : (m₁.store.object target).define record.name (.plain v) with
  | ok o' => exact hok v m₁ o' h hdefine
  | error f => exact hrefused v m₁ f h

include heval

/-- The value of a field comes from client code, which changes no properties otherwise. -/
theorem fieldValue_furnishes (target : ObjectId) (record : FieldRecord) :
    (fieldValue perform target record).Obeys (furnishLaw settings) := by
  unfold fieldValue
  split
  · exact heval _ _
  · exact MadeOf.obeys_evaluations (A := Effect.IsTidy) (readFrom_client _ _ _)
      (fun _ => furnishLaw_allows) heval

omit heval in
/-- The value of an instance field is defined, and the field is finished. -/
theorem furnishedBy_of_define {m : Machine} {target : ObjectId} {record : FieldRecord} {v : Value}
    {o' : Object} (cls : ClassId) (className : String)
    (h : (m.store.object target).define record.name (.plain v) = .ok o') :
    m.FurnishedBy [.finished (.instanceField cls className target record),
        .installed target record v]
      ((Effect.note (.finished (.instanceField cls className target record))).apply
        { m with
          store := m.store.put target o'
          trace := .installed target record v :: m.trace }) := by
  refine .put target (Object.shape_of_define h).1 rfl rfl ?_ ?_ ?_
  · simp [Event.makes]
  · intro o _ hne
    simp [installsOf, finishesOf, sinceMade, Event.makes, Event.installed?, Event.finish?,
      Ne.symm hne]
  · intro _
    have hinstalls : installsOf [.finished (.instanceField cls className target record),
        .installed target record v] target = [(record, v)] := by
      simp [installsOf, sinceMade, Event.makes, List.filterMap_cons, Event.installed?]
    refine ⟨fun _ => ?_, ?_⟩
    · rw [hinstalls]
      simp only [Object.takeAll, List.foldl_cons, List.foldl_nil, Object.take,
        Object.content_of_define h]
    · rw [hinstalls]
      simp [finishesOf, sinceMade, Event.makes, Event.finish?]

/-- What an installation has done to the properties of objects is in order, if it has succeeded as
soon as the activity is finished. -/
def Machine.FurnishesOnce (m : Machine) (settings : Settings) (a : Activity) :
    Option (Except Failure Unit) → Machine → Prop
  | some (.ok _), m' => m.Furnishes settings ((Effect.note (.finished a)).apply m')
  | _, m' => m.Furnishes settings m'

/-- **An instance takes the values of its fields**, as they are finished. -/
theorem instanceField_furnishes (hperform : ∃ levels, perform = interpret settings levels)
    (cls : ClassId) (className : String) (target : ObjectId) (record : FieldRecord) :
    (during (.instanceField cls className target record)
      (installField perform target record)).Obeys (furnishLaw settings) := by
  intro m
  obtain ⟨levels, hlevels⟩ := hperform
  let a := Activity.instanceField cls className target record
  let m₁ := (Effect.note (.began a)).apply m
  have hnoted {e : Event} (he : e.IsTidy) (m : Machine) :
      m.Furnishes settings ((Effect.note e).apply m) := furnishLaw_allows (e := .note e) he m
  have hbegan : m.Furnishes settings m₁ := hnoted (fun _ => ⟨rfl, rfl, rfl⟩) m
  have hvalue : (fieldValue perform target record).Ensures m₁ fun r m' =>
      m₁.Furnishes settings m' ∧ (fieldValue perform target record).outcome m₁ = (r, m') :=
    ⟨furnishLaw_holds.mp (fieldValue_furnishes heval target record m₁), rfl⟩
  -- the value is installed in the last step but one, and only the last one says that it is
  refine during_ensures (P := m.FurnishesOnce settings a) ?_ (fun _ _ h => h)
    (fun e m' h => Furnishes.trans h (hnoted (fun _ => ⟨rfl, rfl, rfl⟩) m')) fun _ h => h
  refine installField_ensures hvalue (fun v m₂ o' h hdefine => ?_)
    (fun v m₂ f h => (hbegan.trans h.1).trans (furnishes_raised m₂ f))
    (fun e m₂ h => hbegan.trans h.1) fun m₂ h => hbegan.trans h.1
  obtain ⟨⟨new, hnew⟩, houtcome⟩ := h
  obtain ⟨began, hbegan⟩ := hbegan
  obtain rfl : [.began a] = began := List.append_cancel_right hbegan.trace
  have hsupplied := hbegan.trans hnew
  exact ⟨_, hsupplied.install (fun hinstance => ⟨levels, m₁, m₂, cls, className, [],
    hbegan.toFurnishedBy, hlevels ▸ houtcome, hsupplied.toFurnishedBy, hinstance⟩)
    (furnishedBy_of_define cls className hdefine)⟩

/-! ### Definitions -/

/-- The two objects of a class are there, and are no instances. -/
def Machine.HasHomes (m : Machine) (homes : Homes) : Prop :=
  ∀ isStatic, homes.home isStatic < m.store.size ∧
    ¬ (m.store.object (homes.home isStatic)).kind.IsInstance

omit heval in
theorem Machine.HasHomes.later {m m' : Machine} {homes : Homes} (hm : m.HasHomes homes)
    (h : m.Furnishes settings m') : m'.HasHomes homes := by
  obtain ⟨new, h⟩ := h
  intro isStatic
  obtain ⟨hborn, hkind⟩ := hm isStatic
  exact ⟨Nat.lt_of_lt_of_le hborn h.size, by rwa [h.kind _ hborn]⟩

/-- The law of what becomes of instances, where the two objects of a class are there. -/
def homesLaw (settings : Settings) (homes : Homes) : Law where
  ended m m' := m.HasHomes homes → m.Furnishes settings m'
  broken m m' := m.HasHomes homes → m.Furnishes settings m'
  refl m _ := Furnishes.refl m
  trans h h' hm := Furnishes.trans (h hm) (h' (hm.later (h hm)))
  late h := h
  trans_broken h h' hm := Furnishes.trans (h hm) (h' (hm.later (h hm)))

/-- What is put onto the two objects of a class. -/
inductive Operations.Homing (homes : Homes) : ∀ ⦃α : Type⦄, (Performer → Action α) → Prop
  | method (name : String) (kind : MethodKind) (isStatic : Bool) (f : Function) :
    Homing homes fun _ => defineMethod (homes.home isStatic) name kind f
  | field (record : FieldRecord) :
    Homing homes fun perform => installField perform homes.classObject record

/-- What client code does besides is no matter of the two objects. -/
theorem MadeOf.homesLaw {homes : Homes} {F : Performer → Action α}
    (hF : MadeOf Effect.IsTidy (.Homing homes) F) :
    (F perform).Obeys (homesLaw settings homes) := by
  have furnished {β : Type} {x : Action β} (hx : x.Obeys (furnishLaw settings)) :
      x.Obeys (ClassMachine.homesLaw settings homes) :=
    hx.mono (fun _ _ h _ => h) fun _ _ h _ => h
  refine hF.obeys (fun e he m _ => furnishLaw_allows he m) (fun β G hG => ?_) fun e ctx =>
    furnished (heval e ctx)
  cases hG with
  | method name kind isStatic f =>
    intro m
    rw [Action.Ensures, outcome_defineMethod_eq, outcome_defineOn]
    split
    next o' h => exact fun hm => furnishes_put (hm isStatic).2 (Object.shape_of_define h).1
    next f h => exact fun _ => furnishes_raised m f
  | field record =>
    intro m
    refine installField_ensures (furnished (fieldValue_furnishes heval _ record) m)
      (fun v m₁ o' h hdefine hm => Furnishes.trans (h hm) ?_)
      (fun v m₁ f h hm => Furnishes.trans (h hm) (furnishes_raised m₁ f)) (fun _ _ h => h)
      fun _ h => h
    obtain ⟨-, hhome⟩ := (hm.later (h hm)) true
    let m' : Machine :=
      { m₁ with
        store := m₁.store.put homes.classObject o'
        trace := .installed homes.classObject record v :: m₁.trace }
    have hput : m₁.FurnishedBy [.installed homes.classObject record v] m' := by
      refine .put homes.classObject (Object.shape_of_define hdefine).1 rfl rfl
        (by simp [Event.makes]) (fun o _ hne => ?_) fun h => absurd h hhome
      simp [installsOf, finishesOf, sinceMade, Event.makes, Event.installed?, Event.finish?,
        Ne.symm hne]
    refine ⟨_, hput.supplied fun o record' value hmem hinstance => ?_⟩
    obtain ⟨rfl, -, -⟩ : o = homes.classObject ∧ record' = record ∧ value = v := by
      simpa using hmem
    exact hhome (hput.isInstance (by simp [Event.makes]) hinstance)

omit heval in
theorem Machine.furnishes_prepared (m : Machine) (d : ClassDefinition) (parent : Option Class) :
    m.Furnishes settings (m.prepared d parent) ∧ (m.prepared d parent).HasHomes m.homes := by
  have hsize : (m.prepared d parent).store.size = m.store.size + 2 :=
    (m.numbered d.displayName).size_withHomes ..
  have hobject := (m.numbered d.displayName).object_withHomes m.nextClass d.name parent
  have htidy : ∀ e ∈ [Event.numbered m.nextClass, .defining d.displayName], e.IsTidy := by
    simp [Event.IsTidy, Event.makes, Event.installed?, Event.finish?]
  refine ⟨⟨_, FurnishedBy.supplied_of_tidy (.of_tidy rfl htidy ?_ ?_ ?_) htidy⟩, ?_⟩
  · rw [hsize]
    exact Nat.le_add_right ..
  · intro o ho
    exact congrArg Object.kind ((m.numbered d.displayName).object_withHomes_of_lt _ _ _ ho)
  · intro o ho
    have ho' := hobject o
    rw [Machine.prepared, ho'] at ho ⊢
    split at ho
    next => exact absurd ho id
    next hclass =>
      rw [if_neg hclass]
      split at ho
      next => exact absurd ho id
      next hprototype =>
        rw [if_neg hprototype]
        exact ⟨Store.lt_of_isInstance ho, rfl⟩
  · rintro (_ | _)
    · exact ⟨by rw [hsize]; exact Nat.lt_add_of_pos_right (by simp), fun h => by
        rw [show m.homes.home false = (m.numbered d.displayName).homes.prototype from rfl,
          Machine.prepared, object_withHomes_prototype] at h
        exact h⟩
    · exact ⟨by rw [hsize]; exact Nat.lt_succ_self _, fun h => by
        rw [show m.homes.home true = (m.numbered d.displayName).homes.classObject from rfl,
          Machine.prepared, object_withHomes_classObject] at h
        exact h⟩

theorem prepareClass_furnishes (d : ClassDefinition) (m : Machine) :
    (prepareClass perform d).Ensures m fun r m' => m.Furnishes settings m' ∧
      ∀ c, r = some (.ok c) → m'.HasHomes ⟨c.prototype, c.classObject⟩ := by
  refine prepareClass_ensures (fun f _ => ⟨?_, by simp⟩) fun parent _ => ?_
  · exact Furnishes.trans (furnishLaw_allows (e := .note (.defining d.displayName))
      (fun _ => ⟨rfl, rfl, rfl⟩) m) (furnishes_raised _ f)
  · obtain ⟨hprepared, hhomes⟩ := m.furnishes_prepared d parent
    have hcollect := collectFields_of_method (A := Effect.IsTidy) (X := .Homing m.homes)
      m.nextClass d.displayName m.homes
      (fun name e he => by rcases he with rfl | rfl | rfl <;> exact fun _ => ⟨rfl, rfl, rfl⟩)
      (fun _ _ _ _ => .operation (.method ..)) d.elements
    refine (hcollect.homesLaw heval (m.prepared d parent)).mono fun r m' h => ?_
    have hm' : (m.prepared d parent).Furnishes settings m' := by cases r <;> exact h hhomes
    refine ⟨Furnishes.trans hprepared hm', fun c hc => ?_⟩
    obtain ⟨fields, -, rfl⟩ := eq_ok_of_map hc
    exact hhomes.later hm'

theorem launchClass_furnishes {c : Class} {m : Machine}
    (hm : m.HasHomes ⟨c.prototype, c.classObject⟩) :
    (launchClass perform c).Ensures m ((furnishLaw settings).Holds m) := by
  have apply {e : Effect} (he : e.IsTidy) (m : Machine) : m.Furnishes settings (e.apply m) :=
    furnishLaw_allows he m
  have hlaunched : m.Furnishes settings (m.launched c) :=
    Furnishes.trans (apply (e := .register c) trivial m)
      (apply (e := .note (.registered c)) (fun _ => ⟨rfl, rfl, rfl⟩) _)
  have hinstall : MadeOf Effect.IsTidy (.Homing ⟨c.prototype, c.classObject⟩) fun perform =>
      installFields perform (.staticField c.id c.displayName c.classObject) c.classObject
        c.staticFields :=
    installFields_of_field (fun r => .during
      (fun e he => by rcases he with rfl | rfl | rfl <;> exact fun _ => ⟨rfl, rfl, rfl⟩)
      (.operation (.field r))) _
  refine launchClass_ensures (hinstall.homesLaw heval (m.launched c)) (fun m' h => ?_)
    (fun e m' h => ?_) fun m' h => Furnishes.trans hlaunched (h hm)
  · exact Furnishes.trans (Furnishes.trans hlaunched (h hm))
      (apply (e := .note (.completed c.id)) (fun _ => ⟨rfl, rfl, rfl⟩) _)
  · exact Furnishes.trans (Furnishes.trans hlaunched (h hm)) (Furnishes.trans
      (apply (e := .withdraw ..) trivial _)
      (apply (e := .note (.withdrawn ..)) (fun _ => ⟨rfl, rfl, rfl⟩) _))

/-- **A definition** leaves the instances alone, but for what client code in it does. -/
theorem defineClass_furnishes (d : ClassDefinition) :
    (defineClass perform d).Obeys (furnishLaw settings) := by
  intro m
  refine (prepareClass_furnishes heval d m).bind (fun c m₁ _ h => ?_) (fun _ _ h => h.1)
    fun _ h => h.1
  exact (launchClass_furnishes heval (h.2 c rfl)).mono fun _ _ => .of_ended h.1

end Fields

/-! ### All calls, all tasks -/

/-- What concerns instances and is looked at as a whole. -/
inductive Operations.Furnishing : ∀ ⦃α : Type⦄, (Performer → Action α) → Prop
  | define (id : ObjectId) (key : String) (p : Property) :
    Furnishing fun _ => defineForClient id key p
  | delete (id : ObjectId) (key : String) : Furnishing fun _ => deleteFrom id key
  | close (id : ObjectId) : Furnishing fun _ => preventExtensions id
  | allocate (newTarget : ClassId) : Furnishing fun _ => allocate newTarget
  | field (cls : ClassId) (className : String) (target : ObjectId) (record : FieldRecord) :
    Furnishing fun perform =>
      during (.instanceField cls className target record) (installField perform target record)
  | task (cls newTarget : ClassId) (args : List Value) :
    Furnishing fun perform => perform (.construct cls newTarget args)
  | defineClass (d : ClassDefinition) : Furnishing fun perform => defineClass perform d

instance : Hosts Effect.IsTidy .Furnishing where
  effect e he hwrite _ := by
    cases e with
    | note e => cases e <;> first | exact fun _ => ⟨rfl, rfl, rfl⟩ | exact he.elim
    | object kind => exact fun h => by rw [show kind = .ordinary from he] at h; exact h
    | define | delete | close => exact absurd trivial hwrite
    | _ => trivial
  define id key p := .operation (.define id key p)
  delete id key := .operation (.delete id key)
  close id := .operation (.close id)

instance : HostsFrames Effect.IsTidy .Furnishing where
  frame _ := trivial
  superReturned _ _ := fun _ => ⟨rfl, rfl, rfl⟩
  bodyEntered _ _ _ := fun _ => ⟨rfl, rfl, rfl⟩
  fields := installInstanceFields_hosted (fun _ _ _ _ _ => fun _ => ⟨rfl, rfl, rfl⟩)
    fun cls className target record => .operation (.field cls className target record)

theorem constructFor_tidy (settings : Settings) (cls newTarget : ClassId) (args : List Value) :
    MadeOf Effect.IsTidy .Furnishing fun perform =>
      constructFor settings perform cls newTarget args := by
  refine constructFor_madeOf settings (fun e he => ?_)
    (runConstructor_hosted (fun _ _ _ => .operation (.task ..)) cls (.operation (.allocate _)) args)
  cases e with
  | note e => cases e <;> first | exact fun _ => ⟨rfl, rfl, rfl⟩ | exact he.elim
  | push | pop => trivial
  | _ => exact he.elim

theorem call_tidy (settings : Settings) (c : Call α) :
    MadeOf Effect.IsTidy .Furnishing fun perform => c.run settings perform := by
  refine call_hosted (fun _ _ _ => .operation (.task ..)) (fun cls args => ?_)
    (fun d => .operation (.defineClass d))
    (fun _ _ _ => replaceInitializer_hosted (fun e he => ?_) (fun _ => trivial) _ _ _) c
  · exact .bind (announceConstruction_hosted fun _ _ => ⟨rfl, rfl, rfl⟩) fun _ =>
      .bind (constructFor_tidy ..) fun _ => .bind (.note (fun _ => ⟨rfl, rfl, rfl⟩) trivial)
        fun _ => .pure _
  · cases e <;> first | exact fun _ => ⟨rfl, rfl, rfl⟩ | exact he.elim

section Tasks

variable {levels : Nat}
  (hp : ∀ ⦃β : Type⦄ (task : Task β), (interpret settings levels task).Obeys (furnishLaw settings))

include hp

theorem MadeOf.furnishes {F : Performer → Action α} (hF : MadeOf Effect.IsTidy .Furnishing F) :
    (F (interpret settings levels)).Obeys (furnishLaw settings) := by
  have heval (e : Expr) (ctx : Context) := hp (.eval e ctx)
  refine hF.obeys (fun _ => furnishLaw_allows) (fun β G hG => ?_) heval
  cases hG with
  | define id key p => exact defineForClient_furnishes id key p
  | delete id key => exact deleteFrom_furnishes id key
  | close id => exact preventExtensions_furnishes id
  | allocate newTarget => exact allocate_furnishes newTarget
  | field cls className target record =>
    exact instanceField_furnishes heval ⟨levels, rfl⟩ cls className target record
  | task cls newTarget args => exact hp (.construct cls newTarget args)
  | defineClass d => exact defineClass_furnishes heval d

/-- **Each level passes the law on.** -/
theorem step_furnishes (task : Task α) :
    (step settings (interpret settings levels) task).Obeys (furnishLaw settings) := by
  cases task with
  | eval e ctx => exact (evaluateExpr_madeOf ctx (fun _ => call_tidy settings) e).furnishes hp
  | construct cls newTarget args =>
    exact (constructFor_tidy settings cls newTarget args).furnishes hp

end Tasks

theorem interpret_furnishes (settings : Settings) (levels : Nat) (task : Task α) :
    (interpret settings levels task).Obeys (furnishLaw settings) := by
  induction levels generalizing α with
  | zero => exact .breakOff
  | succ levels ih => exact step_furnishes (fun _ task => ih task) task

/-- **What becomes of instances in a call**, or in a task: fields give them their properties, as
long as no client changes them. -/
theorem call_furnishes (settings : Settings) (levels : Nat) (c : Call α) :
    (c.run settings (interpret settings levels)).Obeys (furnishLaw settings) :=
  (call_tidy settings c).furnishes fun _ => interpret_furnishes settings levels

end ClassMachine
