import Mathlib.Data.List.Nodup
import ClassMachine.Machine

/-!
# The chronicle of the registry

The part of the trace that is about the registry is its chronicle
(`ClassMachine.Machine.chronicle`): which numbers were drawn, which classes were
registered, which definitions were completed or withdrawn, which initializers were
exchanged. The registry is a function of its chronicle, and
`ClassMachine.Registry.Follows` says which one. A class is there if its definition is
under way or completed, or if it was kept when its registration was taken back; and it
is the class that was registered, but for its initializers, which are those that the
exchanges since have left (`ClassMachine.Chronicle.fieldsOf`).

There is one lemma for each change of the registry. The only delicate change is a
withdrawal (`ClassMachine.Registry.Follows.withdraw`). It may remove the class, so no
other class may be kept just for the sake of this one. That is why a kept class has a
subclass that is *not* under way: definitions end in the reverse of the order in which
they began, so when a class is kept, all definitions inside its own one have ended.
-/

namespace ClassMachine

/-! ### Events of the registry -/

/-- Is the event about the registry? -/
def Event.isRegistral : Event → Bool
  | numbered _ | registered _ | completed _ | withdrawn .. | replaced .. => true
  | _ => false

/-- The class whose being there the event is about. -/
def Event.subject? : Event → Option ClassId
  | numbered id | completed id | withdrawn id _ => some id
  | registered c => some c.id
  | _ => none

/-- The number that was drawn, if the event is that. -/
def Event.number? : Event → Option ClassId
  | numbered id => some id
  | _ => none

/-- The class that was registered, if the event is that. -/
def Event.class? : Event → Option Class
  | registered c => some c
  | _ => none

/-- Events about a registry, the newest one in front. -/
abbrev Chronicle := List Event

/-- The part of a trace that is about the registry. -/
def chronicleOf (T : List Event) : Chronicle :=
  T.filter Event.isRegistral

/-- The chronicle of the machine. -/
def Machine.chronicle (m : Machine) : Chronicle :=
  chronicleOf m.trace

namespace Chronicle

variable (H : Chronicle) (id : ClassId)

/-- The class has been registered. -/
def Registered : Prop :=
  ∃ c : Class, .registered c ∈ H ∧ c.id = id

/-- The definition of the class has succeeded. -/
def Completed : Prop :=
  .completed id ∈ H

/-- The registration of the class was taken back. -/
def Withdrawn : Prop :=
  ∃ kept, .withdrawn id kept ∈ H

/-- The class is registered and its static fields are being installed. -/
def Running : Prop :=
  Registered H id ∧ ¬ Completed H id ∧ ¬ Withdrawn H id

/-- The records of the instance fields of a class: as registered, with the exchanges
that came later. -/
def fieldsOf : Chronicle → ClassId → List FieldRecord
  | [], _ => []
  | .registered c :: H, id => if c.id = id then c.instanceFields else fieldsOf H id
  | .replaced cls field initializer :: H, id =>
    if cls = id then FieldRecord.replaceAll field initializer (fieldsOf H id)
    else fieldsOf H id
  | _ :: H, id => fieldsOf H id

variable {H id}

@[simp] theorem registered_cons {e : Event} :
    Registered (e :: H) id ↔ (∃ c, e = .registered c ∧ c.id = id) ∨ Registered H id := by
  simp [Registered, or_and_right, exists_or, eq_comm]

@[simp] theorem completed_cons {e : Event} :
    Completed (e :: H) id ↔ e = .completed id ∨ Completed H id := by
  simp [Completed, eq_comm]

@[simp] theorem withdrawn_cons {e : Event} :
    Withdrawn (e :: H) id ↔ (∃ kept, e = .withdrawn id kept) ∨ Withdrawn H id := by
  simp [Withdrawn, exists_or, eq_comm]

/-- An event that registers nothing lets no definition be under way. -/
theorem Running.of_cons {e : Event} (he : e.class? = none) (h : Running (e :: H) id) :
    Running H id := by
  simp only [Running, registered_cons, completed_cons, withdrawn_cons, not_or] at h ⊢
  refine ⟨h.1.resolve_left ?_, h.2.1.2, h.2.2.2⟩
  rintro ⟨c, rfl, -⟩
  simp [Event.class?] at he

end Chronicle

open Chronicle

/-! ### Classes with other fields -/

/-- The class with other instance fields. -/
def Class.withFields (c : Class) (fields : List FieldRecord) : Class :=
  { c with instanceFields := fields }

section WithFields

variable (c : Class) (fields : List FieldRecord)

@[simp] theorem Class.id_withFields : (c.withFields fields).id = c.id := rfl

@[simp] theorem Class.name_withFields : (c.withFields fields).name = c.name := rfl

@[simp] theorem Class.parent_withFields : (c.withFields fields).parent = c.parent := rfl

@[simp] theorem Class.kind_withFields : (c.withFields fields).kind = c.kind := rfl

@[simp] theorem Class.instanceFields_withFields : (c.withFields fields).instanceFields = fields :=
  rfl

@[simp] theorem Class.withFields_withFields (fields' : List FieldRecord) :
    (c.withFields fields).withFields fields' = c.withFields fields' := rfl

@[simp] theorem Class.withFields_self : c.withFields c.instanceFields = c := rfl

/-- What an exchange of initializers makes of a class. -/
theorem Class.replaceInitializer_eq_ok {c c' : Class} {field : String}
    {initializer : Option Expr} (h : c.replaceInitializer field initializer = .ok c') :
    c' = c.withFields (FieldRecord.replaceAll field initializer c.instanceFields) := by
  unfold replaceInitializer at h
  split at h <;> simp only [Except.ok.injEq, reduceCtorEq] at h
  exact h.symm

end WithFields

/-! ### The registry and its chronicle -/

/-- The registry is what its chronicle says. -/
structure Registry.Follows (r : Registry) (H : Chronicle) : Prop where
  /-- The numbers were drawn in order. -/
  numbers : H.filterMap Event.number? = (List.range' 1 r.lastId).reverse
  /-- No number was registered twice. -/
  nodup : ((H.filterMap Event.class?).map Class.id).Nodup
  /-- The numbers of registered classes were drawn. -/
  drawn : ∀ c, .registered c ∈ H → c.id ≤ r.lastId
  /-- Registered classes are of the kind that their parent decides, and younger than
  it. -/
  kind : ∀ c, .registered c ∈ H → c.kind = .ofParent c.parent ∧ ∀ p ∈ c.parent, p < c.id
  /-- A completed definition was under way, and is not withdrawn any more. -/
  completed : ∀ id, Completed H id → Registered H id ∧ ¬ Withdrawn H id
  /-- A withdrawn definition was under way. -/
  withdrawn : ∀ id, Withdrawn H id → Registered H id
  /-- A class that is there is as registered, but for exchanged initializers. -/
  known : ∀ id c, r.class? id = some c →
    ∃ c₀, .registered c₀ ∈ H ∧ c₀.id = id ∧ c = c₀.withFields (fieldsOf H id)
  /-- A class that is not withdrawn is there. -/
  present : ∀ id, Registered H id → ¬ Withdrawn H id → (r.class? id).isSome
  /-- A class that is withdrawn is there if it was kept. -/
  kept : ∀ id kept, .withdrawn id kept ∈ H → (r.class? id).isSome = kept
  /-- The parent of a class that is there is there. -/
  parent : ∀ id c p, r.class? id = some c → c.parent = some p → (r.class? p).isSome
  /-- A kept class has a subclass of which the definition has ended. -/
  needed : ∀ id, Withdrawn H id → (r.class? id).isSome →
    ∃ id' c, r.class? id' = some c ∧ c.parent = some id ∧ ¬ Running H id'

namespace Registry.Follows

variable {r : Registry} {H : Chronicle} (h : r.Follows H)

include h

theorem registered_le {id : ClassId} (hid : Registered H id) : id ≤ r.lastId := by
  obtain ⟨c, hc, rfl⟩ := hid
  exact h.drawn c hc

theorem registered_of_class? {id : ClassId} {c : Class} (hc : r.class? id = some c) :
    Registered H id := by
  obtain ⟨c₀, hc₀, hid, -⟩ := h.known id c hc
  exact ⟨c₀, hc₀, hid⟩

theorem class?_id {id : ClassId} {c : Class} (hc : r.class? id = some c) : c.id = id := by
  obtain ⟨c₀, -, hid, rfl⟩ := h.known id c hc
  exact hid

theorem class?_kind {id : ClassId} {c : Class} (hc : r.class? id = some c) :
    c.kind = .ofParent c.parent := by
  obtain ⟨c₀, hc₀, -, rfl⟩ := h.known id c hc
  exact (h.kind c₀ hc₀).1

theorem parent_lt {id : ClassId} {c : Class} (hc : r.class? id = some c) {p : ClassId}
    (hp : c.parent = some p) : p < id := by
  obtain ⟨c₀, hc₀, rfl, rfl⟩ := h.known id c hc
  exact (h.kind c₀ hc₀).2 p hp

/-- No number was registered for two classes. -/
theorem registered_unique {c c' : Class} (hc : .registered c ∈ H) (hc' : .registered c' ∈ H)
    (hid : c.id = c'.id) : c = c' :=
  List.inj_on_of_nodup_map h.nodup (List.mem_filterMap.mpr ⟨_, hc, rfl⟩)
    (List.mem_filterMap.mpr ⟨_, hc', rfl⟩) hid

omit h in
/-- What is registered later has another number. -/
theorem id_ne_of_append {new : Chronicle} (h : r.Follows (new ++ H)) {c c' : Class}
    (hc' : .registered c' ∈ new) (hc : .registered c ∈ H) : c'.id ≠ c.id := by
  have hnodup := h.nodup
  rw [List.filterMap_append, List.map_append, List.nodup_append] at hnodup
  exact hnodup.2.2 c'.id (List.mem_map_of_mem (List.mem_filterMap.mpr ⟨_, hc', rfl⟩)) c.id
    (List.mem_map_of_mem (List.mem_filterMap.mpr ⟨_, hc, rfl⟩))

/-- A class that was withdrawn is there as long as it has a subclass. -/
theorem kept_iff {id : ClassId} {kept : Bool} (hid : .withdrawn id kept ∈ H) :
    kept = true ↔ r.hasSubclass id := by
  rw [← h.kept id kept hid, hasSubclass_iff]
  constructor
  · intro hsome
    obtain ⟨id', c, hc, hp, -⟩ := h.needed id ⟨kept, hid⟩ hsome
    exact ⟨id', c, hc, hp⟩
  · rintro ⟨id', c, hc, hp⟩
    exact h.parent id' c id hc hp

/-- **Which classes are there.** -/
theorem contains_iff {id : ClassId} :
    r.contains id ↔
      Registered H id ∧ (Running H id ∨ Completed H id ∨ .withdrawn id true ∈ H) := by
  rw [Registry.contains_eq_isSome]
  constructor
  · intro hid
    obtain ⟨c, hc⟩ := Option.isSome_iff_exists.mp hid
    refine ⟨h.registered_of_class? hc, ?_⟩
    by_cases hw : Withdrawn H id
    · obtain ⟨kept, hkept⟩ := hw
      obtain rfl : true = kept := hid.symm.trans (h.kept id kept hkept)
      exact .inr (.inr hkept)
    · by_cases hcompleted : Completed H id
      · exact .inr (.inl hcompleted)
      · exact .inl ⟨h.registered_of_class? hc, hcompleted, hw⟩
  · rintro ⟨hr, hid | hid | hid⟩
    · exact h.present id hr hid.2.2
    · exact h.present id hr (h.completed id hid).2
    · exact h.kept id true hid

/-! ### The changes -/

/-- Drawing a number. -/
theorem number : r.drawId.2.Follows (.numbered r.drawId.1 :: H) where
  numbers := by
    simp [Event.number?, h.numbers, List.range'_1_concat, Nat.add_comm]
  nodup := h.nodup
  drawn c hc := Nat.le_succ_of_le (h.drawn c (by simpa using hc))
  kind c hc := h.kind c (by simpa using hc)
  completed id hid := by simpa using h.completed id (by simpa using hid)
  withdrawn id hid := by simpa using h.withdrawn id (by simpa using hid)
  known id c hc := by simpa [fieldsOf] using h.known id c hc
  present id hr hw := h.present id (by simpa using hr) (by simpa using hw)
  kept id kept hid := h.kept id kept (by simpa using hid)
  parent := h.parent
  needed id hw hid := by
    simpa [Running] using h.needed id (by simpa using hw) hid

/-- Registering a class of a number that is not in use, under a parent that is there. -/
theorem register {c : Class} (hid : c.id ≤ r.lastId) (hnew : ¬ Registered H c.id)
    (hkind : c.kind = .ofParent c.parent)
    (hparent : ∀ p ∈ c.parent, p < c.id ∧ (r.class? p).isSome) :
    (r.register c).2.Follows (.registered c :: H) := by
  -- the number is not in use, so no class that is there is replaced
  have hne {id : ClassId} {c' : Class} (hc' : r.class? id = some c') : c.id ≠ id := by
    rintro rfl
    exact hnew (h.registered_of_class? hc')
  have hclass {id : ClassId} (hid : (r.class? id).isSome) :
      ((r.register c).2.class? id).isSome := by
    rw [class?_register]
    split
    · rfl
    · exact hid
  constructor
  case numbers => rw [lastId_register]; exact h.numbers
  case nodup =>
    refine List.nodup_cons.mpr ⟨?_, h.nodup⟩
    intro hmem
    apply hnew
    obtain ⟨c', hc', hid⟩ := List.mem_map.mp hmem
    obtain ⟨e, he, hec⟩ := List.mem_filterMap.mp hc'
    cases e <;> simp only [Event.class?, reduceCtorEq, Option.some.injEq] at hec
    exact ⟨c', hec ▸ he, hid⟩
  case drawn =>
    intro c' hc'
    obtain rfl | hc' : c' = c ∨ .registered c' ∈ H := by simpa using hc'
    · simpa using hid
    · simpa using h.drawn c' hc'
  case kind =>
    intro c' hc'
    obtain rfl | hc' : c' = c ∨ .registered c' ∈ H := by simpa using hc'
    · exact ⟨hkind, fun p hp => (hparent p hp).1⟩
    · exact h.kind c' hc'
  case completed =>
    intro id hid
    have := h.completed id (by simpa using hid)
    simp [this]
  case withdrawn =>
    intro id hid
    simp [h.withdrawn id (by simpa using hid)]
  case known =>
    intro id c' hc'
    rw [class?_register] at hc'
    split at hc'
    next hid =>
      obtain rfl : c = c' := by simpa using hc'
      exact ⟨c, by simp, hid, by simp [fieldsOf, hid]⟩
    next hid =>
      obtain ⟨c₀, hc₀, hid₀, rfl⟩ := h.known id c' hc'
      exact ⟨c₀, by simp [hc₀], hid₀, by simp [fieldsOf, hid]⟩
  case present =>
    intro id hr hw
    by_cases hid : c.id = id
    · simp [class?_register, hid]
    · exact hclass (h.present id (by simpa [hid] using hr) (by simpa using hw))
  case kept =>
    intro id kept hid
    have hkept : .withdrawn id kept ∈ H := by simpa using hid
    have hne : c.id ≠ id := by
      rintro rfl
      exact hnew (h.withdrawn _ ⟨kept, hkept⟩)
    simpa [class?_register, hne] using h.kept id kept hkept
  case parent =>
    intro id c' p hc' hp
    rw [class?_register] at hc'
    split at hc'
    · obtain rfl : c = c' := by simpa using hc'
      exact hclass (hparent p hp).2
    · exact hclass (h.parent id c' p hc' hp)
  case needed =>
    -- the subclass that the class was kept for is there still, and has another number
    intro id hw hid
    have hw : Withdrawn H id := by simpa using hw
    have hne' : c.id ≠ id := by
      rintro rfl
      exact hnew (h.withdrawn _ hw)
    obtain ⟨id', c', hc', hp, hrun⟩ := h.needed id hw (by simpa [class?_register, hne'] using hid)
    exact ⟨id', c', by simpa [class?_register, hne hc'] using hc', hp,
      by simpa [Running, hne hc'] using hrun⟩

/-- Completing a definition that is under way. -/
theorem complete {id : ClassId} (hid : Running H id) : r.Follows (.completed id :: H) where
  numbers := h.numbers
  nodup := h.nodup
  drawn c hc := h.drawn c (by simpa using hc)
  kind c hc := h.kind c (by simpa using hc)
  completed id' hid' := by
    obtain rfl | hid' : id = id' ∨ Completed H id' := by simpa using hid'
    · simpa using ⟨hid.1, hid.2.2⟩
    · simpa using h.completed id' hid'
  withdrawn id' hid' := by simpa using h.withdrawn id' (by simpa using hid')
  known id' c hc := by simpa [fieldsOf] using h.known id' c hc
  present id' hr hw := h.present id' (by simpa using hr) (by simpa using hw)
  kept id' kept hid' := h.kept id' kept (by simpa using hid')
  parent := h.parent
  needed id' hw hid' := by
    obtain ⟨id'', c, hc, hp, hrun⟩ := h.needed id' (by simpa using hw) hid'
    exact ⟨id'', c, hc, hp, fun hrun' => hrun (hrun'.of_cons rfl)⟩

/-- Withdrawing the youngest definition that is under way. -/
theorem withdraw {id : ClassId} (hid : Running H id) (hyoungest : ∀ id', Running H id' → id' ≤ id)
    (shadowed : Option ClassId) :
    (r.withdraw id shadowed).Follows (.withdrawn id (r.hasSubclass id) :: H) := by
  have hclass {id' : ClassId} (hne : id ≠ id') :
      (r.withdraw id shadowed).class? id' = r.class? id' := by simp [class?_withdraw, hne]
  have hold {id' : ClassId} {c : Class} (hc : (r.withdraw id shadowed).class? id' = some c) :
      r.class? id' = some c := by
    rw [class?_withdraw] at hc
    split at hc
    · simp at hc
    · exact hc
  constructor
  case numbers => exact h.numbers
  case nodup => exact h.nodup
  case drawn => exact fun c hc => h.drawn c (by simpa using hc)
  case kind => exact fun c hc => h.kind c (by simpa using hc)
  case completed =>
    intro id' hid'
    have hid' : Completed H id' := by simpa using hid'
    have hne : id ≠ id' := by
      rintro rfl
      exact hid.2.1 hid'
    simpa [hne] using h.completed id' hid'
  case withdrawn =>
    intro id' hid'
    obtain rfl | hid' : id = id' ∨ Withdrawn H id' := by simpa using hid'
    · simpa using hid.1
    · simpa using h.withdrawn id' hid'
  case known =>
    intro id' c hc
    simpa [fieldsOf] using h.known id' c (hold hc)
  case present =>
    intro id' hr hw
    obtain ⟨hne, hw⟩ : ¬ id = id' ∧ ¬ Withdrawn H id' := by simpa using hw
    rw [hclass hne]
    exact h.present id' (by simpa using hr) hw
  case kept =>
    intro id' kept hid'
    obtain ⟨rfl, rfl⟩ | hid' : (id' = id ∧ kept = r.hasSubclass id) ∨ .withdrawn id' kept ∈ H := by
      simpa using hid'
    · rw [class?_withdraw]
      cases hsub : r.hasSubclass id'
      · simp
      · simpa using h.present id' hid.1 hid.2.2
    · rw [hclass (by rintro rfl; exact hid.2.2 ⟨kept, hid'⟩)]
      exact h.kept id' kept hid'
  case parent =>
    -- the parent of a class that is there has a subclass, so it is not removed
    intro id' c p hc hp
    rw [class?_withdraw, if_neg]
    · exact h.parent id' c p (hold hc) hp
    · rintro ⟨rfl, hsub⟩
      exact Bool.false_ne_true (hsub.symm.trans (hasSubclass_iff.mpr ⟨id', c, hold hc, hp⟩))
  case needed =>
    intro id' hw hid'
    obtain rfl | hw : id = id' ∨ Withdrawn H id' := by simpa using hw
    · -- a subclass is younger, so it is not under way any more
      rw [class?_withdraw] at hid'
      split at hid'
      next => simp at hid'
      next hsub =>
        obtain ⟨y, c, hc, hp⟩ := hasSubclass_iff.mp (by simpa using hsub)
        have hlt := h.parent_lt hc hp
        refine ⟨y, c, (hclass (Nat.ne_of_lt hlt)).trans hc, hp, fun hrun => ?_⟩
        exact absurd (hyoungest y (hrun.of_cons rfl)) (Nat.not_le_of_lt hlt)
    · -- the subclass that it was kept for is not this one, since this one is under way
      have hne : id ≠ id' := by
        rintro rfl
        exact hid.2.2 hw
      rw [hclass hne] at hid'
      obtain ⟨y, c, hc, hp, hrun⟩ := h.needed id' hw hid'
      have hy : id ≠ y := by
        rintro rfl
        exact hrun hid
      exact ⟨y, c, (hclass hy).trans hc, hp, fun hrun' => hrun (hrun'.of_cons rfl)⟩

/-- Exchanging initializers of a class. -/
theorem replace {id : ClassId} {c c' : Class} {field : String} {initializer : Option Expr}
    (hc : r.class? id = some c) (hc' : c.replaceInitializer field initializer = .ok c') :
    (r.put c').Follows (.replaced id field initializer :: H) := by
  obtain rfl := Class.replaceInitializer_eq_ok hc'
  obtain ⟨c₀, hc₀, rfl, rfl⟩ := h.known id c hc
  -- parents, and which classes are there, do not depend on the fields
  have hclass (id' : ClassId) (fields : List FieldRecord) :
      ((r.put (c₀.withFields fields)).class? id').map Class.parent =
        (r.class? id').map Class.parent := by
    rw [class?_put]
    split
    next hid => rw [← hid, Class.id_withFields, hc]; rfl
    next => rfl
  have hsome (id' : ClassId) (fields : List FieldRecord) :
      ((r.put (c₀.withFields fields)).class? id').isSome = (r.class? id').isSome := by
    simpa using congrArg Option.isSome (hclass id' fields)
  constructor
  case numbers => exact h.numbers
  case nodup => exact h.nodup
  case drawn => exact fun c hc => h.drawn c (by simpa using hc)
  case kind => exact fun c hc => h.kind c (by simpa using hc)
  case completed => exact fun id hid => by simpa using h.completed id (by simpa using hid)
  case withdrawn => exact fun id hid => by simpa using h.withdrawn id (by simpa using hid)
  case known =>
    intro id c hc
    rw [class?_put] at hc
    split at hc
    next hid =>
      obtain rfl : _ = c := by simpa using hc
      exact ⟨c₀, by simpa using hc₀, hid, by simp [fieldsOf, ← hid]⟩
    next hid =>
      obtain ⟨c₁, hc₁, hid₁, rfl⟩ := h.known id c hc
      exact ⟨c₁, by simpa using hc₁, hid₁, by simp_all [fieldsOf]⟩
  case present =>
    exact fun id hr hw => (hsome id _).trans (h.present id (by simpa using hr) (by simpa using hw))
  case kept => exact fun id kept hid => (hsome id _).trans (h.kept id kept (by simpa using hid))
  case parent =>
    intro id c p hc hp
    have hmap := hclass id (FieldRecord.replaceAll field initializer (fieldsOf H c₀.id))
    simp only [Class.withFields_withFields, Class.instanceFields_withFields] at hc
    rw [hc, Option.map_some, eq_comm, Option.map_eq_some_iff] at hmap
    obtain ⟨c', hc', hp'⟩ := hmap
    exact (hsome p _).trans (h.parent id c' p hc' (hp'.trans hp))
  case needed =>
    intro id hw hid
    obtain ⟨id', c, hc, hp, hrun⟩ := h.needed id (by simpa using hw) (hsome id _ ▸ hid)
    have hmap := hclass id' (FieldRecord.replaceAll field initializer (fieldsOf H c₀.id))
    rw [hc, Option.map_some, Option.map_eq_some_iff] at hmap
    obtain ⟨c', hc', hp'⟩ := hmap
    exact ⟨id', c', hc', hp'.trans hp, fun hrun' => hrun (hrun'.of_cons rfl)⟩

end Registry.Follows

/-! ### Ancestors -/

/-- The class of that number has that parent, or none. -/
def Registry.HasParent (r : Registry) (id : ClassId) (parent : Option ClassId) : Prop :=
  ∃ c, r.class? id = some c ∧ c.parent = parent

/-- The ancestors of a class, from a base class on, and the class itself at the end. -/
inductive Lineage (HasParent : ClassId → Option ClassId → Prop) : List ClassId → ClassId → Prop
  | base {id : ClassId} (h : HasParent id none) : Lineage HasParent [id] id
  | derived {ids : List ClassId} {parent id : ClassId} (hparent : Lineage HasParent ids parent)
    (h : HasParent id (some parent)) : Lineage HasParent (ids ++ [id]) id

section Lineage

variable {P Q : ClassId → Option ClassId → Prop} {ids ids' : List ClassId} {id : ClassId}

theorem Lineage.mono (h : Lineage P ids id) (hPQ : ∀ id p, P id p → Q id p) :
    Lineage Q ids id := by
  induction h with
  | base h => exact .base (hPQ _ _ h)
  | derived _ h ih => exact .derived ih (hPQ _ _ h)

/-- A class has one lineage. -/
theorem Lineage.unique (hP : ∀ id p p', P id p → P id p' → p = p') (h : Lineage P ids id)
    (h' : Lineage P ids' id) : ids = ids' := by
  induction h generalizing ids' with
  | base h =>
    cases h' with
    | base => rfl
    | derived _ h' => exact absurd (hP _ _ _ h h') (by simp)
  | derived _ h ih =>
    cases h' with
    | base h' => exact absurd (hP _ _ _ h h') (by simp)
    | derived hparent h' =>
      obtain rfl := Option.some.inj (hP _ _ _ h h')
      rw [ih hparent]

/-- A lineage ends with its class. -/
theorem Lineage.getLast? (h : Lineage P ids id) : ids.getLast? = some id := by
  cases h <;> simp

/-- A lineage begins with a base class. -/
theorem Lineage.head? (h : Lineage P ids id) : ∃ base, ids.head? = some base ∧ P base none := by
  induction h with
  | base h => exact ⟨_, rfl, h⟩
  | derived _ _ ih =>
    obtain ⟨base, hhead, hbase⟩ := ih
    exact ⟨base, by simp [List.head?_append, hhead], hbase⟩

end Lineage

/-- If parents are older than their subclasses, a lineage begins with the oldest class and
ends with the youngest. -/
theorem Lineage.pairwise {HasParent : ClassId → Option ClassId → Prop} {ids : List ClassId}
    {id : ClassId} (h : Lineage HasParent ids id)
    (hlt : ∀ id p, HasParent id (some p) → p < id) :
    ids.Pairwise (· < ·) ∧ ∀ x ∈ ids, x ≤ id := by
  induction h with
  | base => simp
  | @derived ids parent id _ hid ih =>
    have hparent := hlt id parent hid
    constructor
    · rw [List.pairwise_append]
      exact ⟨ih.1, List.pairwise_singleton .., fun x hx y hy => by
        obtain rfl : y = id := by simpa using hy
        exact Nat.lt_of_le_of_lt (ih.2 x hx) hparent⟩
    · intro x hx
      rcases List.mem_append.mp hx with hx | hx
      · exact Nat.le_of_lt (Nat.lt_of_le_of_lt (ih.2 x hx) hparent)
      · exact Nat.le_of_eq (by simpa using hx)

/-- The class was registered with that parent, or none. -/
def Chronicle.HasParent (H : Chronicle) (id : ClassId) (parent : Option ClassId) : Prop :=
  ∃ c : Class, .registered c ∈ H ∧ c.id = id ∧ c.parent = parent

theorem Chronicle.HasParent.mono {H H' : Chronicle} (h : H ⊆ H') {id : ClassId}
    {parent : Option ClassId} (hid : H.HasParent id parent) : H'.HasParent id parent := by
  obtain ⟨c, hc, hid⟩ := hid
  exact ⟨c, h hc, hid⟩

theorem Registry.Follows.hasParent {r : Registry} {H : Chronicle} (h : r.Follows H)
    {id : ClassId} {c : Class} (hc : r.class? id = some c) : H.HasParent id c.parent := by
  obtain ⟨c₀, hc₀, hid, rfl⟩ := h.known id c hc
  exact ⟨c₀, hc₀, hid, rfl⟩

theorem Registry.Follows.hasParent_unique {r : Registry} {H : Chronicle} (h : r.Follows H)
    (id : ClassId) (p p' : Option ClassId) (hp : H.HasParent id p) (hp' : H.HasParent id p') :
    p = p' := by
  obtain ⟨c, hc, rfl, rfl⟩ := hp
  obtain ⟨c', hc', hid, rfl⟩ := hp'
  rw [h.registered_unique hc hc' hid.symm]

/-- **Every class that is there has a lineage**, all of which is there. -/
theorem Registry.Follows.exists_lineage {r : Registry} {H : Chronicle} (h : r.Follows H)
    {id : ClassId} (hid : (r.class? id).isSome) : ∃ ids, Lineage r.HasParent ids id := by
  -- parents are older than their subclasses
  induction id using Nat.strongRecOn with
  | ind id ih =>
    obtain ⟨c, hc⟩ := Option.isSome_iff_exists.mp hid
    cases hp : c.parent with
    | none => exact ⟨[id], .base ⟨c, hc, hp⟩⟩
    | some p =>
      obtain ⟨ids, hids⟩ := ih p (h.parent_lt hc hp) (h.parent id c p hc hp)
      exact ⟨ids ++ [id], .derived hids ⟨c, hc, hp⟩⟩

end ClassMachine
