import Mathlib.Data.List.Nodup
import ClassMachine.Object

/-!
# The order of the keys of an object

An object keeps its keys in one container and its properties in another, and every operation has to
attend to both. What they come to is described by one list: the properties with their keys, in the
order in which the keys were defined (`ClassMachine.PropertyList`). On the list,

* a configurable property is redefined where it stands;
* a new property goes to the end, if there may be new ones;
* a configurable property is removed, and stands at the end when it is defined once more;
* what is refused leaves the list as it is.

An object mirrors a list if both show the same keys, in the same order, and the same properties
(`ClassMachine.Object.Mirrors`). Each operation gets the same answer from the two and leaves an
object that mirrors the list left, so the same is true of any number of operations.

Main statement: `ClassMachine.insertion_ordered`.
-/

namespace ClassMachine

/-! ### Properties in a list -/

/-- Properties under keys, in the order in which the keys were defined. -/
structure PropertyList where
  entries : List (String × Property) := []
  extensible : Bool := true

namespace PropertyList

def keys (l : PropertyList) : List String :=
  l.entries.map Prod.fst

def property? (l : PropertyList) (key : String) : Option Property :=
  l.entries.lookup key

def hasOwn (l : PropertyList) (key : String) : Bool :=
  l.keys.contains key

/-- Defines a property: where the old one stands if there is one, else at the end. -/
def define (l : PropertyList) (key : String) (p : Property) : Except Fault PropertyList :=
  match l.property? key with
  | some old =>
    if old.isConfigurable then
      .ok { l with entries := l.entries.map fun e => if e.1 = key then (key, p) else e }
    else .error (.notConfigurable key)
  | none =>
    if l.extensible then .ok { l with entries := l.entries ++ [(key, p)] }
    else .error (.notExtensible key)

/-- Removes a property. The answer is whether there is none afterwards. -/
def delete (l : PropertyList) (key : String) : Bool × PropertyList :=
  match l.property? key with
  | some old =>
    if old.isConfigurable then
      (true, { l with entries := l.entries.filter (·.1 != key) })
    else (false, l)
  | none => (true, l)

/-- Closes the list to new properties. -/
def preventExtensions (l : PropertyList) : PropertyList :=
  { l with extensible := false }

end PropertyList

/-! ### Operations -/

/-- An operation on properties. -/
inductive PropertyOperation
  | define (key : String) (p : Property)
  | delete (key : String)
  | preventExtensions

/-- What an operation answers. -/
inductive PropertyAnswer
  | defined
  | refused (f : Fault)
  | deleted (gone : Bool)
  | closed

/-- The answer to a definition. One that is refused leaves everything as it is. -/
def PropertyAnswer.ofDefine {σ : Type} (before : σ) : Except Fault σ → PropertyAnswer × σ
  | .ok after => (.defined, after)
  | .error f => (.refused f, before)

/-- The answer to a removal. -/
def PropertyAnswer.ofDelete {σ : Type} (result : Bool × σ) : PropertyAnswer × σ :=
  (.deleted result.1, result.2)

/-- The operation on an object. -/
def Object.operate (o : Object) : PropertyOperation → PropertyAnswer × Object
  | .define key p => PropertyAnswer.ofDefine o (o.define key p)
  | .delete key => PropertyAnswer.ofDelete (o.delete key)
  | .preventExtensions => (.closed, o.preventExtensions)

/-- The operation on a list. -/
def PropertyList.operate (l : PropertyList) : PropertyOperation → PropertyAnswer × PropertyList
  | .define key p => PropertyAnswer.ofDefine l (l.define key p)
  | .delete key => PropertyAnswer.ofDelete (l.delete key)
  | .preventExtensions => (.closed, l.preventExtensions)

/-- One operation after the other: the answers, and what there is in the end. -/
def operateAll {σ : Type} (operate : σ → PropertyOperation → PropertyAnswer × σ) :
    σ → List PropertyOperation → List PropertyAnswer × σ
  | s, [] => ([], s)
  | s, op :: ops =>
    let first := operate s op
    let others := operateAll operate first.2 ops
    (first.1 :: others.1, others.2)

/-! ### The list through its views -/

namespace PropertyList

theorem lookup_cons_eq (e : String × Property) (entries : List (String × Property))
    (key : String) :
    (e :: entries).lookup key = if e.1 = key then some e.2 else entries.lookup key := by
  rw [List.lookup_cons]
  by_cases he : e.1 = key
  · simp [he]
  · have hne : (key == e.1) = false := beq_eq_false_iff_ne.mpr (Ne.symm he)
    rw [hne, if_neg he]

theorem lookup_isSome_iff {entries : List (String × Property)} {key : String} :
    (entries.lookup key).isSome ↔ key ∈ entries.map Prod.fst := by
  induction entries with
  | nil => simp
  | cons e entries ih =>
    rw [lookup_cons_eq, List.map_cons, List.mem_cons, ← ih, eq_comm (b := e.1)]
    by_cases he : e.1 = key <;> simp [he]

/-- A property that is put where the old one stands is found under its key. -/
theorem lookup_replace (entries : List (String × Property)) (key : String) (p : Property)
    (key' : String) :
    (entries.map fun e => if e.1 = key then (key, p) else e).lookup key' =
      if key = key' then (entries.lookup key).map fun _ => p else entries.lookup key' := by
  induction entries with
  | nil => simp
  | cons e entries ih =>
    rw [List.map_cons, lookup_cons_eq, lookup_cons_eq e, lookup_cons_eq e, ih]
    by_cases he : e.1 = key
    · by_cases hkey : key = key' <;> simp [he, hkey]
    · by_cases hkey : key = key'
      · subst hkey
        simp [he]
      · simp [he, hkey]

/-- The entries of other keys are found as before when those of a key are removed. -/
theorem lookup_remove (entries : List (String × Property)) (key key' : String) :
    (entries.filter (·.1 != key)).lookup key' =
      if key = key' then none else entries.lookup key' := by
  induction entries with
  | nil => simp
  | cons e entries ih =>
    rw [List.filter_cons, lookup_cons_eq]
    by_cases he : e.1 = key
    · rw [if_neg (by simp [he]), ih]
      by_cases hkey : key = key' <;> simp [he, hkey]
    · rw [if_pos (by simp [he]), lookup_cons_eq, ih]
      by_cases hkey : key = key'
      · subst hkey
        simp [he]
      · simp [hkey]

variable {l l' : PropertyList} {key : String} {p : Property}

theorem mem_keys : key ∈ l.keys ↔ (l.property? key).isSome :=
  lookup_isSome_iff.symm

theorem property?_of_define (h : l.define key p = .ok l') (key' : String) :
    l'.property? key' = if key = key' then some p else l.property? key' := by
  unfold define at h
  split at h
  next old hold =>
    split at h <;> cases h
    rw [property?, lookup_replace, ← property?, hold, ← property?, Option.map_some]
  next hnone =>
    split at h <;> cases h
    rw [property?, List.lookup_append, lookup_cons_eq, ← property?, List.lookup_nil]
    by_cases hkey : key = key'
    · rw [← hkey, hnone, Option.none_or]
    · rw [if_neg hkey, if_neg hkey, Option.or_none]

theorem keys_of_define (h : l.define key p = .ok l') :
    l'.keys = if (l.property? key).isSome then l.keys else l.keys ++ [key] := by
  unfold define at h
  split at h
  next old hold =>
    split at h <;> cases h
    have hkey (e : String × Property) : (if e.1 = key then (key, p) else e).1 = e.1 := by
      by_cases he : e.1 = key <;> simp [he]
    simp [keys, hold, hkey]
  next hnone =>
    split at h <;> cases h
    simp [keys, hnone]

theorem extensible_of_define (h : l.define key p = .ok l') : l'.extensible = l.extensible := by
  unfold define at h
  split at h <;> split at h <;> cases h <;> rfl

theorem fst_delete (l : PropertyList) (key : String) :
    (l.delete key).1 = (l.property? key).all Property.isConfigurable := by
  unfold delete
  split
  · split <;> simp [*]
  · simp [*]

theorem keys_delete (l : PropertyList) (key : String) :
    (l.delete key).2.keys =
      if (l.property? key).any Property.isConfigurable then l.keys.filter (· != key)
      else l.keys := by
  unfold delete
  split
  · split
    · simp only [*, Option.any_some, if_true, keys, List.filter_map]
      rfl
    · simp [*]
  · simp [*]

theorem property?_delete (l : PropertyList) (key key' : String) :
    (l.delete key).2.property? key' =
      if key = key' ∧ (l.property? key).any Property.isConfigurable then none
      else l.property? key' := by
  unfold delete
  split
  · split
    · rw [property?, lookup_remove, ← property?]
      simp [*]
    · simp [*]
  · simp [*]

theorem extensible_delete (l : PropertyList) (key : String) :
    (l.delete key).2.extensible = l.extensible := by
  unfold delete
  split
  · split <;> rfl
  · rfl

end PropertyList

/-! ### Objects and lists -/

/-- The object shows what the list does, and its keys differ. -/
structure Object.Mirrors (o : Object) (l : PropertyList) : Prop where
  keys : o.keys = l.keys
  property? : ∀ key, o.property? key = l.property? key
  extensible : o.extensible = l.extensible
  nodup : o.keys.Nodup

namespace Object.Mirrors

variable {o o' : Object} {l l' : PropertyList}

theorem mem_keys (h : o.Mirrors l) (key : String) : key ∈ o.keys ↔ key ∈ o.properties := by
  rw [h.keys, PropertyList.mem_keys, ← h.property?, ← hasOwn_eq_isSome, Object.hasOwn,
    Std.ExtTreeMap.contains_iff_mem]

theorem hasOwn (h : o.Mirrors l) (key : String) : o.hasOwn key = l.hasOwn key := by
  rw [hasOwn_eq_isSome, h.property?, PropertyList.hasOwn, Bool.eq_iff_iff, List.contains_iff_mem,
    PropertyList.mem_keys]

theorem new (kind : ObjectKind) (prototype : Option ObjectId) :
    Object.Mirrors { kind, prototype } {} where
  keys := rfl
  property? _ := by simp [Object.property?, PropertyList.property?]
  extensible := rfl
  nodup := List.nodup_nil

/-- A definition succeeds on both or is refused by both. -/
theorem define_agrees (h : o.Mirrors l) (key : String) (p : Property) :
    (∃ o' l', o.define key p = .ok o' ∧ l.define key p = .ok l') ∨
      ∃ f, o.define key p = .error f ∧ l.define key p = .error f := by
  unfold Object.define PropertyList.define
  rw [h.property? key, h.extensible]
  cases l.property? key with
  | some old => cases hold : old.isConfigurable <;> simp [hold]
  | none => cases l.extensible <;> simp

/-- A definition that succeeds on both leaves an object and a list that show the same. -/
theorem of_define (h : o.Mirrors l) {key : String} {p : Property}
    (ho : o.define key p = .ok o') (hl : l.define key p = .ok l') : o'.Mirrors l' where
  keys := by
    rw [keys_of_define ho, PropertyList.keys_of_define hl, h.property?, h.keys]
  property? key' := by
    rw [property?_of_define ho, PropertyList.property?_of_define hl, h.property?]
  extensible := by
    rw [extensible_define ho, PropertyList.extensible_of_define hl, h.extensible]
  nodup := by
    rw [keys_of_define ho]
    split
    · exact h.nodup
    next hnew =>
      have hkey : key ∉ o.keys := by
        rwa [h.keys, PropertyList.mem_keys, ← h.property?]
      rw [← List.concat_eq_append]
      exact h.nodup.concat hkey

/-- A removal has the same answer on both and leaves an object and a list that show the same. -/
theorem delete (h : o.Mirrors l) (key : String) :
    (o.delete key).1 = (l.delete key).1 ∧ (o.delete key).2.Mirrors (l.delete key).2 := by
  constructor
  · rw [fst_delete, PropertyList.fst_delete, h.property?]
  · constructor
    case keys => rw [keys_delete, PropertyList.keys_delete, h.property?, h.keys]
    case property? =>
      intro key'
      rw [property?_delete, PropertyList.property?_delete, h.property?, h.property?]
    case extensible => rw [extensible_delete, PropertyList.extensible_delete, h.extensible]
    case nodup =>
      rw [keys_delete]
      split
      · exact h.nodup.filter _
      · exact h.nodup

/-- One operation. -/
theorem operate (h : o.Mirrors l) (op : PropertyOperation) :
    (o.operate op).1 = (l.operate op).1 ∧ (o.operate op).2.Mirrors (l.operate op).2 := by
  cases op with
  | define key p =>
    rw [Object.operate, PropertyList.operate]
    rcases h.define_agrees key p with ⟨o', l', ho, hl⟩ | ⟨f, ho, hl⟩
    · rw [ho, hl]
      exact ⟨rfl, h.of_define ho hl⟩
    · rw [ho, hl]
      exact ⟨rfl, h⟩
  | delete key =>
    obtain ⟨hanswer, hafter⟩ := h.delete key
    exact ⟨congrArg PropertyAnswer.deleted hanswer, hafter⟩
  | preventExtensions => exact ⟨rfl, h.keys, h.property?, rfl, h.nodup⟩

/-- Any number of operations. -/
theorem operateAll (h : o.Mirrors l) (ops : List PropertyOperation) :
    (operateAll Object.operate o ops).1 = (operateAll PropertyList.operate l ops).1 ∧
      (operateAll Object.operate o ops).2.Mirrors (operateAll PropertyList.operate l ops).2 := by
  induction ops generalizing o l with
  | nil => exact ⟨rfl, h⟩
  | cons op ops ih =>
    obtain ⟨hanswer, hafter⟩ := h.operate op
    obtain ⟨hanswers, hend⟩ := ih hafter
    exact ⟨congrArg₂ List.cons hanswer hanswers, hend⟩

end Object.Mirrors

/-- **An object is a list of its properties in the order of their definition.** Whatever operations
there are on a new object, the answers are those that a list gives; and in the end the keys of the
object are without duplicates, they are the keys of its properties, and keys, properties and
extensibility are those of the list. -/
theorem insertion_ordered (kind : ObjectKind) (prototype : Option ObjectId)
    (ops : List PropertyOperation) :
    ∃ answers o l, operateAll Object.operate { kind, prototype } ops = (answers, o) ∧
      operateAll PropertyList.operate {} ops = (answers, l) ∧
      o.keys.Nodup ∧ (∀ key, key ∈ o.keys ↔ key ∈ o.properties) ∧
      o.keys = l.keys ∧ (∀ key, o.property? key = l.property? key) ∧
      (∀ key, o.hasOwn key = l.hasOwn key) ∧ o.extensible = l.extensible := by
  obtain ⟨hanswers, h⟩ := (Object.Mirrors.new kind prototype).operateAll ops
  exact ⟨_, _, _, Prod.ext rfl rfl, Prod.ext hanswers.symm rfl, h.nodup, h.mem_keys, h.keys,
    h.property?, h.hasOwn, h.extensible⟩

/-- A key that was removed comes back at the end, and not at all if the object is closed by then. -/
example : let define (key : String) := PropertyOperation.define key (.plain .undefined)
    let keys (ops : List PropertyOperation) :=
      (operateAll Object.operate { kind := .ordinary, prototype := none } ops).2.keys
    keys [define "a", define "b", define "a", .delete "a", define "a"] = ["b", "a"] ∧
      keys [define "a", define "b", .preventExtensions, .delete "a", define "a"] = ["b"] := by
  decide +kernel

end ClassMachine
