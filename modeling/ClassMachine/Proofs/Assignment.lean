import ClassMachine.Proofs.Chains
import ClassMachine.Proofs.Integrity

/-!
# What an assignment comes to

An assignment has two parts that look at different objects. The search goes along the chain and
ends at the nearest owner of the key, whichever object this is; the write goes to the receiver.
In between nothing happens, so at the write it is still known what the search has found: either
the receiver owns a writable value, or it does not own the key at all. In the second case the
write is refused exactly if the receiver is closed.

In the first case it should never be refused, since only the value changes. But the write is a
definition like any other, and so it is refused if the property is not configurable, although it
is writable. Except for this, the five cases are those of ordinary assignment
(`ClassMachine.Machine.AssignmentLaw`).

Main statement: `ClassMachine.assignment_law`.
-/

namespace ClassMachine

/-! ### What the write changes -/

/-- In the second store the object has the property under the key and the given keys, and apart
from this both stores are the same. -/
structure Store.Differs (s s' : Store) (o : ObjectId) (key : String) (p : Property)
    (keys : List String) : Prop where
  property : (s'.object o).property? key = some p
  keys : (s'.object o).keys = keys
  otherKeys : ∀ key', key' ≠ key → (s'.object o).property? key' = (s.object o).property? key'
  kind : (s'.object o).kind = (s.object o).kind
  prototype : (s'.object o).prototype = (s.object o).prototype
  extensible : (s'.object o).extensible = (s.object o).extensible
  otherObjects : ∀ o', o' ≠ o → s'.object o' = s.object o'
  size : s'.size = s.size

/-- A definition changes the one property, and adds its key at the end if it is a new one. -/
theorem Store.differs_put {s : Store} {o : ObjectId} {key : String} {p : Property} {o' : Object}
    (ho : o < s.size) (h : (s.object o).define key p = .ok o') :
    s.Differs (s.put o o') o key p
      (if ((s.object o).property? key).isSome then (s.object o).keys
        else (s.object o).keys ++ [key]) := by
  have hself : (s.put o o').object o = o' := by rw [object_put, if_pos ⟨rfl, ho⟩]
  obtain ⟨hkind, hprototype⟩ := Object.shape_of_define h
  constructor
  case property => rw [hself, Object.property?_of_define h, if_pos rfl]
  case keys => rw [hself, Object.keys_of_define h]
  case otherKeys =>
    intro key' hne
    rw [hself, Object.property?_of_define h, if_neg (Ne.symm hne)]
  case kind => rw [hself, hkind]
  case prototype => rw [hself, hprototype]
  case extensible => rw [hself, Object.extensible_define h]
  case otherObjects =>
    intro q hne
    rw [object_put, if_neg fun hq => hne hq.1]
  case size => exact size_put ..

/-- An object takes each definition that it has no reason to refuse. -/
theorem Object.define_of_no_refusal {o : Object} {key : String} (h : o.refusal? key = none)
    (p : Property) : ∃ o', o.define key p = .ok o' := by
  unfold refusal? at h
  unfold define
  split at h <;> split at h <;> simp_all

/-! ### How an assignment ends -/

/-- The action succeeds and writes the value: it leaves a machine of which the store is a different
one at this place and the trace tells so, and nothing else has happened. There the value is read
from the object, on whoever's behalf. -/
def Action.Writes (x : Action Unit) (m : Machine) (o : ObjectId) (key : String) (value : Value)
    (enumerable configurable : Bool) (keys : List String) : Prop :=
  ∃ store m', x.outcome m = (some (.ok ⟨⟩), m') ∧
    m' = { m with store, trace := .changed o :: m.trace } ∧
    m.store.Differs store o key (.data value true enumerable configurable) keys ∧
    ∀ perform receiver, (readFrom perform o key receiver).outcome m' = (some (.ok value), m')

/-- Is the property a value that can be assigned to? -/
def Property.isWritable : Property → Bool
  | data _ writable .. => writable
  | accessor .. => false

/-- **What an assignment comes to**, by the nearest of these objects that owns the key. -/
structure Machine.AssignmentLaw (m : Machine) (perform : Performer) (o : ObjectId) (key : String)
    (value : Value) (os : List ObjectId) : Prop where
  /-- A setter is called, once and with the object as its receiver. How the assignment ends is
  up to it, and nothing else is done. -/
  setter : ∀ owner getter setter enumerable configurable,
    m.store.nearest? key os = some (owner, .accessor getter (some setter) enumerable configurable) →
    (assignTo perform o key value).outcome m =
      (discard <| callFunction perform setter (.ref o) [value]).outcome m
  /-- An accessor without a setter refuses. -/
  noSetter : ∀ owner getter enumerable configurable,
    m.store.nearest? key os = some (owner, .accessor getter none enumerable configurable) →
    (assignTo perform o key value).FailsAs m .type (.noSetter key)
  /-- So does a value that is read-only, whichever object owns it. -/
  readOnly : ∀ owner old enumerable configurable,
    m.store.nearest? key os = some (owner, .data old false enumerable configurable) →
    (assignTo perform o key value).FailsAs m .type (.readOnly key)
  /-- A writable value of the object itself is exchanged, if it is configurable too; then its
  attributes and the order of the keys stay. -/
  own : ∀ old enumerable configurable,
    m.store.nearest? key os = some (o, .data old true enumerable configurable) →
    if configurable then
      (assignTo perform o key value).Writes m o key value enumerable true (m.store.object o).keys
    else (assignTo perform o key value).FailsAs m .type (.notConfigurable key)
  /-- If there is no property, or only a writable value of another object, then the object gets
  a property of its own behind its other ones, unless it is closed. -/
  fresh : (∀ owner p, m.store.nearest? key os = some (owner, p) → owner ≠ o ∧ p.isWritable) →
    if (m.store.object o).extensible then
      (assignTo perform o key value).Writes m o key value true true
        ((m.store.object o).keys ++ [key])
    else (assignTo perform o key value).FailsAs m .type (.notExtensible key)

/-! ### The write -/

section Write

variable {m : Machine} {o : ObjectId} {key : String}

/-- Where the object has no reason to refuse, the value is written. -/
theorem assignOwn_writes (ho : o < m.store.size) (h : (m.store.object o).refusal? key = none)
    {value : Value} {enumerable configurable : Bool}
    (hp : Property.assigned ((m.store.object o).property? key) value =
      .data value true enumerable configurable) :
    (assignOwn o key value).Writes m o key value enumerable configurable
      (if ((m.store.object o).property? key).isSome then (m.store.object o).keys
        else (m.store.object o).keys ++ [key]) := by
  obtain ⟨o', ho'⟩ := Object.define_of_no_refusal h (.data value true enumerable configurable)
  have hdiffers := Store.differs_put ho ho'
  refine ⟨m.store.put o o', _, ?_, rfl, hdiffers, fun perform receiver => ?_⟩
  · simp only [assignOwn, defineForClient, objectAt, bind_assoc, pure_bind, outcome_bind,
      outcome_get, hp, outcome_defineOn, ho', outcome_note]
  · have hsearch := Store.search_of_property? hdiffers.property
    simp only [readFrom, outcome_bind, outcome_get, hsearch, outcome_pure]

/-- A value that is writable and configurable is exchanged in its place. -/
theorem assignOwn_exchanges (ho : o < m.store.size) {old : Value} {enumerable : Bool}
    (hp : (m.store.object o).property? key = some (.data old true enumerable true))
    (value : Value) :
    (assignOwn o key value).Writes m o key value enumerable true (m.store.object o).keys := by
  have hno : (m.store.object o).refusal? key = none := by
    simp [Object.refusal?, hp, Property.isConfigurable]
  have hassigned : Property.assigned ((m.store.object o).property? key) value =
      .data value true enumerable true := congrArg (Property.assigned · value) hp
  simpa [hp] using assignOwn_writes ho hno hassigned

/-- A value under a new key goes behind all others. -/
theorem assignOwn_appends (ho : o < m.store.size)
    (hnone : (m.store.object o).property? key = none) (hopen : (m.store.object o).extensible)
    (value : Value) :
    (assignOwn o key value).Writes m o key value true true
      ((m.store.object o).keys ++ [key]) := by
  have hno : (m.store.object o).refusal? key = none := by simp [Object.refusal?, hnone, hopen]
  have hassigned : Property.assigned ((m.store.object o).property? key) value =
      .data value true true true := congrArg (Property.assigned · value) hnone
  simpa [hnone] using assignOwn_writes ho hno hassigned

/-- Where it has one, this is what the write fails with. -/
theorem assignOwn_refuses {f : Fault} (h : (m.store.object o).refusal? key = some f)
    (value : Value) : (assignOwn o key value).FailsAs m .type f := by
  refine ⟨?_, ?_⟩
  · unfold Object.refusal? at h
    split at h <;> split at h <;> cases h <;> rfl
  · rw [assignOwn, objectAt, bind_assoc, Action.Fails, outcome_bind, outcome_get]
    exact (defineOn_fails h _).bind _

end Write

/-! ### The search and the write together -/

section Law

variable {m : Machine} {o : ObjectId} {key : String} {rest : List ObjectId}

/-- If the object owns the key, it is the nearest owner itself. -/
theorem Store.nearest?_self {s : Store} {p : Property}
    (h : (s.object o).property? key = some p) : s.nearest? key (o :: rest) = some (o, p) := by
  simp [nearest?, h]

/-- Only what the object owns is found at the object, since the chain does not come back to it. -/
theorem Store.Chain.property?_of_nearest? {s : Store} (hchain : s.Chain (some o) (o :: rest))
    {p : Property} (h : s.nearest? key (o :: rest) = some (o, p)) :
    (s.object o).property? key = some p := by
  have hsearch := hchain.search_eq key
  rw [h] at hsearch
  exact property?_of_searchFrom hsearch

theorem Action.Writes.congr {x y : Action Unit} {value : Value} {enumerable configurable : Bool}
    {keys : List String} (h : y.Writes m o key value enumerable configurable keys)
    (hxy : x.outcome m = y.outcome m) : x.Writes m o key value enumerable configurable keys := by
  unfold Writes at h ⊢
  rwa [hxy]

theorem Action.FailsAs.congr {x y : Action Unit} {kind : FaultKind} {f : Fault}
    (h : y.FailsAs m kind f) (hxy : x.outcome m = y.outcome m) : x.FailsAs m kind f :=
  ⟨h.1, hxy.trans h.2⟩

/-- If the nearest property does not stand in the way, the value is written to the object. -/
theorem Store.Chain.outcome_assignTo_of_writable (hchain : m.store.Chain (some o) (o :: rest))
    (h : ∀ owner p, m.store.nearest? key (o :: rest) = some (owner, p) → p.isWritable)
    (perform : Performer) (value : Value) :
    (assignTo perform o key value).outcome m = (assignOwn o key value).outcome m := by
  rw [hchain.outcome_assignTo]
  rcases hnearest : m.store.nearest? key (o :: rest) with
    _ | ⟨owner, ⟨_, _ | _, _, _⟩ | ⟨_, _ | _, _, _⟩⟩
  case none | some.data.true => rfl
  all_goals simpa [Property.isWritable] using h _ _ hnearest

/-- **An assignment along a chain that ends.** -/
theorem Store.Chain.assignmentLaw (hchain : m.store.Chain (some o) (o :: rest))
    (ho : o < m.store.size) (perform : Performer) (value : Value) :
    m.AssignmentLaw perform o key value (o :: rest) := by
  constructor
  case setter =>
    intro owner getter setter enumerable configurable h
    rw [hchain.outcome_assignTo, h]
  case noSetter =>
    intro owner getter enumerable configurable h
    exact ⟨rfl, by rw [Action.Fails, hchain.outcome_assignTo, h]⟩
  case readOnly =>
    intro owner old enumerable configurable h
    exact ⟨rfl, by rw [Action.Fails, hchain.outcome_assignTo, h]⟩
  case own =>
    intro old enumerable configurable h
    have hp := hchain.property?_of_nearest? h
    have hwritable : ∀ owner p, m.store.nearest? key (o :: rest) = some (owner, p) →
        p.isWritable := by
      intro owner p hnearest
      cases h.symm.trans hnearest
      rfl
    have hwrite := hchain.outcome_assignTo_of_writable hwritable perform value
    split
    next hfree =>
      subst hfree
      exact (assignOwn_exchanges ho hp value).congr hwrite
    next hfixed =>
      have hrefusal : (m.store.object o).refusal? key = some (.notConfigurable key) := by
        simp [Object.refusal?, hp, Property.isConfigurable, hfixed]
      exact (assignOwn_refuses hrefusal value).congr hwrite
  case fresh =>
    intro hnearest
    have hwritable owner p (h : m.store.nearest? key (o :: rest) = some (owner, p)) :
        p.isWritable := (hnearest owner p h).2
    have hwrite := hchain.outcome_assignTo_of_writable hwritable perform value
    have hnone : (m.store.object o).property? key = none := by
      by_contra hown
      obtain ⟨p, hp⟩ := Option.ne_none_iff_exists'.mp hown
      exact (hnearest o p (Store.nearest?_self hp)).1 rfl
    split
    next hopen => exact (assignOwn_appends ho hnone hopen value).congr hwrite
    next hclosed =>
      have hrefusal : (m.store.object o).refusal? key = some (.notExtensible key) := by
        simp [Object.refusal?, hnone, hclosed]
      exact (assignOwn_refuses hrefusal value).congr hwrite

end Law

/-- **The law of assignment.** In a store without cycles, whatever is assigned to whichever key of
an object: there is a chain from the object on, and the nearest property along it decides. A
setter is called, and does the rest. An accessor without a setter, a read-only value, a closed
object without the key, and an own value that is writable but not configurable refuse, and nothing
changes. In all other cases the value is written to the object, and is read from it afterwards:
one of its own is exchanged in its place, and a new one is put behind all others. -/
theorem assignment_law (m : Machine) (hm : m.store.Acyclic) (perform : Performer) (o : ObjectId)
    (ho : o < m.store.size) (key : String) (value : Value) :
    ∃ os, m.store.Chain (some o) os ∧ m.AssignmentLaw perform o key value os := by
  obtain ⟨rest, hchain⟩ := hm.exists_chain o
  exact ⟨o :: rest, hchain, hchain.assignmentLaw ho perform value⟩

/-- An object that inherits a value from another one:
`o = Object.create({ x: 1 })`. -/
def inheritingObject : Expr :=
  .sequence [
    .assign "p" (.primitive .newObject [.literal .null]),
    .primitive .createProperty
      [.primitive .register [.literal (.str "p")], .literal (.str "x"), .literal (.number 1)],
    .primitive .newObject [.primitive .register [.literal (.str "p")]]]

theorem assignment_law_of_inheritingObject : ∃ m, (AtRest {} m ∧ m.store.Acyclic ∧
    1 < m.store.size) ∧ ∃ os, m.store.Chain (some 1) os ∧ os.length = 2 ∧
      m.AssignmentLaw (interpret {} 9) 1 "x" .null os := by
  have hrun : ((runStep {} 9 inheritingObject .initial).any fun p => decide p.2.LinksKept &&
      decide (1 < p.2.store.size) && (p.2.store.object 1).prototype == some 0 &&
      (p.2.store.object 0).prototype == none) = true := by
    decide +kernel
  obtain ⟨⟨report, m⟩, hm, h⟩ := (Option.any_eq_true ..).mp hrun
  simp only [Bool.and_eq_true, decide_eq_true_eq, beq_iff_eq] at h
  obtain ⟨⟨⟨hkept, hsize⟩, h₁⟩, h₀⟩ := h
  have hm : AtRest {} m := .step .initial hm
  have hacyclic := ((Occurs.rest hm).linksBack.descends hkept).acyclic
  obtain ⟨os, hchain, hlaw⟩ := assignment_law m hacyclic (interpret {} 9) 1 hsize "x" .null
  refine ⟨m, ⟨hm, hacyclic, hsize⟩, os, hchain, ?_, hlaw⟩
  cases hchain with
  | cons h =>
    rw [h₁] at h
    cases h with
    | cons h =>
      rw [h₀] at h
      cases h
      rfl

/-- An object with a writable value that is not configurable. -/
def lockedObject : Expr :=
  .defineProperty (.primitive .newObject [.literal .null]) (.literal (.str "x"))
    (.data (.literal (.number 1)) true true false)

/-- Is the property a value that can be assigned to and listed, but not redefined? -/
def Property.isLocked : Property → Bool
  | data _ writable enumerable configurable => writable && enumerable && !configurable
  | accessor .. => false

/-- **An own writable value that cannot be assigned to**, although the object is its nearest
owner and open. -/
theorem assignment_refused : ∃ m, (AtRest {} m ∧ m.store.Acyclic ∧ 0 < m.store.size) ∧
    (∃ old, (m.store.object 0).property? "x" = some (.data old true true false)) ∧
    (m.store.object 0).extensible ∧
    ∀ perform, (assignTo perform 0 "x" .null).FailsAs m .type (.notConfigurable "x") := by
  have hrun : ((runStep {} 9 lockedObject .initial).any fun p => decide p.2.LinksKept &&
      decide (0 < p.2.store.size) && (p.2.store.object 0).extensible &&
      ((p.2.store.object 0).property? "x").any Property.isLocked) = true := by
    decide +kernel
  obtain ⟨⟨report, m⟩, hm, h⟩ := (Option.any_eq_true ..).mp hrun
  simp only [Bool.and_eq_true, decide_eq_true_eq] at h
  obtain ⟨⟨⟨hkept, hsize⟩, hopen⟩, hproperty⟩ := h
  have hm : AtRest {} m := .step .initial hm
  have hacyclic := ((Occurs.rest hm).linksBack.descends hkept).acyclic
  obtain ⟨p, hp, hflags⟩ := (Option.any_eq_true ..).mp hproperty
  obtain ⟨old, rfl⟩ : ∃ old, p = .data old true true false := by
    rcases p with ⟨old, _ | _, _ | _, _ | _⟩ | _ <;> simp [Property.isLocked] at hflags
    exact ⟨old, rfl⟩
  refine ⟨m, ⟨hm, hacyclic, hsize⟩, ⟨old, hp⟩, hopen, fun perform => ?_⟩
  obtain ⟨rest, hchain⟩ := hacyclic.exists_chain 0
  have hlaw : m.AssignmentLaw perform 0 "x" .null (0 :: rest) :=
    hchain.assignmentLaw hsize perform .null
  simpa using hlaw.own old true false (Store.nearest?_self hp)

end ClassMachine
