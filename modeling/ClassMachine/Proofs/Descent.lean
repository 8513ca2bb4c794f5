import ClassMachine.Proofs.ClassGraph
import ClassMachine.Proofs.Identity

/-!
# Descent

Whether a value descends from a class is found out by a walk along the links of the store, from
object to object; which classes a class comes from is said by the numbers of the registry, from
parent to parent. As long as clients redirect no links, the two say the same of instances: an
instance is linked to the prototype of its class, and this prototype to that of the parent, so
the walk meets the prototypes of the lineage one after the other
(`ClassMachine.Machine.Coherent.reachesFrom`). It meets no other ones, and it ends, since a
prototype is younger than that of the parent.

Main statement: `ClassMachine.instanceOf_lineage`.
-/

namespace ClassMachine

namespace Machine

variable {m : Machine}

/-! ### Along the prototypes of a lineage -/

/-- A prototype is younger than the object that it was linked to. -/
theorem Houses.link_lt {c : Class} (h : m.Houses c) (hkept : m.LinksKept) {o : ObjectId}
    (ho : (m.store.object c.prototype).prototype = some o) : o < c.prototype := by
  obtain ⟨parent, -, hparent, hlink, -⟩ := h.parent
  rw [hlink.prototype_eq hkept] at ho
  obtain ⟨p, hp, rfl⟩ := Option.map_eq_some_iff.mp ho
  exact (hparent p hp).2

variable (hm : m.Coherent) (hhoused : m.Housed) (hkept : m.LinksKept) {a : Class}
  (ha : m.registry.class? a.id = some a)

include hm hhoused ha

/-- Two classes that are there have the same prototype only if they are the same. -/
theorem Coherent.prototype_eq_iff {c : Class} (hc : m.registry.class? c.id = some c) :
    c.prototype = a.prototype ↔ a.id = c.id := by
  constructor
  · exact fun h => ((hm.houses hhoused hc).eq_of_prototype (hm.houses hhoused ha) h).symm
  · intro hid
    rw [hid, hc] at ha
    exact congrArg Class.prototype (Option.some.inj ha)

include hkept

/-- **The walk along the links** of the prototypes of a lineage meets the prototype of a class
exactly if the class is of the lineage. -/
theorem Coherent.reachesFrom {ids : List ClassId} {id : ClassId}
    (h : Lineage m.registry.HasParent ids id) :
    ∀ c fuel, m.registry.class? id = some c → c.prototype < fuel →
      m.store.reachesFrom a.prototype fuel (some c.prototype) = some (decide (a.id ∈ ids)) := by
  -- induction on the lineage, from the base class on; the walk starts at its other end
  induction h with
  | @base id hbase =>
    intro c fuel hc hfuel
    obtain ⟨c', hc', hnone⟩ := hbase
    obtain rfl : c' = c := Option.some.inj (hc'.symm.trans hc)
    obtain rfl := hm.follows.class?_id hc
    obtain ⟨fuel, rfl⟩ := Nat.exists_eq_succ_of_ne_zero (Nat.ne_of_gt (Nat.zero_lt_of_lt hfuel))
    have hlinked := hm.linkedToParent hhoused hkept hc
    rw [LinkedToParent, hnone] at hlinked
    rw [Store.reachesFrom, hlinked.1]
    simp only [hm.prototype_eq_iff hhoused ha hc, Store.reachesFrom, List.mem_singleton]
    split <;> simp [*]
  | @derived ids parent id hlineage hderived ih =>
    intro c fuel hc hfuel
    obtain ⟨c', hc', hsome⟩ := hderived
    obtain rfl : c' = c := Option.some.inj (hc'.symm.trans hc)
    obtain rfl := hm.follows.class?_id hc
    obtain ⟨fuel, rfl⟩ := Nat.exists_eq_succ_of_ne_zero (Nat.ne_of_gt (Nat.zero_lt_of_lt hfuel))
    have hlinked := hm.linkedToParent hhoused hkept hc
    rw [LinkedToParent, hsome] at hlinked
    obtain ⟨p, hp, hlink, -⟩ := hlinked
    have hlt : p.prototype < c'.prototype := (hm.houses hhoused hc).link_lt hkept hlink
    rw [Store.reachesFrom, hlink, ih p fuel hp (Nat.lt_of_lt_of_le hlt (Nat.le_of_lt_succ hfuel))]
    simp only [hm.prototype_eq_iff hhoused ha hc, List.mem_append, List.mem_singleton]
    split <;> simp [*]

end Machine

/-! ### Descent at all moments -/

/-- A construction for the class has made the object, or has handed it out. -/
def Machine.BuiltFor (m : Machine) (cls : ClassId) (o : ObjectId) : Prop :=
  .allocated o cls ∈ m.trace ∨ .constructed cls o ∈ m.trace

/-- An object that was built for a class is linked to the prototype of the class. -/
theorem Machine.BuiltFor.prototype_eq {m : Machine} (hm : m.Coherent) (haccounted : m.Accounted)
    (hkept : m.LinksKept) {o : ObjectId} {c : Class} (hc : m.registry.class? c.id = some c)
    (ho : m.BuiltFor c.id o) : (m.store.object o).prototype = some c.prototype := by
  have ho : .allocated o c.id ∈ m.trace := ho.elim id (haccounted.handedOut c.id o)
  obtain ⟨since, before, htrace, -, -, c₀, hc₀, hid, hprototype⟩ := haccounted.isInstance ho
  rw [hm.prototype_eq hc hc₀ hid]
  refine hprototype.resolve_right fun hrelinked => ?_
  have hmem : .relinked o ∈ m.trace := htrace ▸ List.mem_append_left _ hrelinked
  simpa [Event.relinked?] using hkept _ hmem

/-- What is found out about a value. -/
theorem outcome_instanceOf {m : Machine} {c : Class} {id : ClassId}
    (hc : m.registry.class? id = some c) (v : Value) :
    (instanceOf v id).outcome m =
      match v with
      | .ref o => ((m.store.descendsFrom? o c.prototype).map .ok, m)
      | _ => (some (.ok false), m) := by
  rw [instanceOf, outcome_bind, outcome_classAt_of_some hc]
  cases v
  case ref o =>
    simp only [outcome_bind, outcome_get]
    cases m.store.descendsFrom? o c.prototype <;> rfl
  all_goals rfl

/-- **Descent agrees with the lineage.** At all moments of a program during which no client has
redirected a link, an instance that was built for a class descends from exactly those classes
that are of the lineage of this class: the class itself, its parent, and so on. A value that is no
object descends from no class. -/
theorem instanceOf_lineage (settings : Settings) (m : Machine)
    (hm : AtRest settings m ∨ Reachable settings m) (hkept : m.LinksKept) :
    (∀ cls o, m.registry.contains cls → m.BuiltFor cls o →
      ∃ ids, Lineage m.registry.HasParent ids cls ∧ ∀ a, m.registry.contains a →
        (instanceOf (.ref o) a).outcome m = (some (.ok (decide (a ∈ ids))), m)) ∧
    ∀ v, (∀ o, v ≠ .ref o) → ∀ a, m.registry.contains a →
      (instanceOf v a).outcome m = (some (.ok false), m) := by
  obtain ⟨hcoherent, hhoused⟩ := housed_of_moment hm
  have haccounted : m.Accounted := accounted_of_moment hm
  simp only [Registry.contains_eq_isSome]
  constructor
  · intro cls o hcls ho
    obtain ⟨c, hc⟩ := Option.isSome_iff_exists.mp hcls
    obtain rfl := hcoherent.follows.class?_id hc
    obtain ⟨ids, hids⟩ := hcoherent.follows.exists_lineage hcls
    refine ⟨ids, hids, fun a ha => ?_⟩
    obtain ⟨a, ha⟩ := Option.isSome_iff_exists.mp ha
    obtain rfl := hcoherent.follows.class?_id ha
    have hborn : c.prototype < m.store.size := by
      have h := hcoherent.houses hhoused hc
      exact Nat.lt_trans h.prototype_lt h.born
    rw [outcome_instanceOf ha]
    simp only [Store.descendsFrom?, ho.prototype_eq hcoherent haccounted hkept hc]
    rw [hcoherent.reachesFrom hhoused hkept ha hids c _ hc (Nat.lt_succ_of_lt hborn)]
    rfl
  · intro v hv a ha
    obtain ⟨c, hc⟩ := Option.isSome_iff_exists.mp ha
    rw [outcome_instanceOf hc]
    cases v with
    | ref o => exact absurd rfl (hv o)
    | _ => rfl

/-- The event hands the object out as an instance of the class. -/
def Event.handsOut (cls : ClassId) (o : ObjectId) : Event → Bool
  | constructed cls' o' => cls' == cls && o' == o
  | _ => false

/-- An instance of a class with a parent; its two classes have four objects, so it is the fifth
one. -/
theorem instanceOf_lineage_of_twoFields :
    ∃ m, (AtRest {} m ∧ m.LinksKept ∧ m.registry.contains 2 ∧ m.registry.contains 1 ∧
        m.BuiltFor 2 4) ∧
      (∃ ids, Lineage m.registry.HasParent ids 2 ∧
        (instanceOf (.ref 4) 1).outcome m = (some (.ok (decide (1 ∈ ids))), m)) ∧
      (instanceOf .null 1).outcome m = (some (.ok false), m) := by
  let construction : Expr := .reentry .constructValue [.primitive .classObject [twoFields]]
  have hrun : ((runStep {} 9 construction .initial).any fun p => decide p.2.LinksKept &&
      p.2.registry.contains 2 && p.2.registry.contains 1 &&
      p.2.trace.any (Event.handsOut 2 4)) = true := by
    decide +kernel
  obtain ⟨⟨report, m⟩, hm, h⟩ := (Option.any_eq_true ..).mp hrun
  simp only [Bool.and_eq_true, decide_eq_true_eq, List.any_eq_true] at h
  obtain ⟨⟨⟨hkept, hchild⟩, hparent⟩, e, he, hhanding⟩ := h
  have hbuilt : m.BuiltFor 2 4 := by
    cases e with
    | constructed cls o =>
      obtain ⟨rfl, rfl⟩ : cls = 2 ∧ o = 4 := by simpa [Event.handsOut] using hhanding
      exact .inr he
    | _ => simp [Event.handsOut] at hhanding
  have hm : AtRest {} m := .step .initial hm
  obtain ⟨hinstances, hothers⟩ := instanceOf_lineage {} m (.inl hm) hkept
  obtain ⟨ids, hids, hanswers⟩ := hinstances 2 4 hchild hbuilt
  exact ⟨m, ⟨hm, hkept, hchild, hparent, hbuilt⟩, ⟨ids, hids, hanswers 1 hparent⟩,
    hothers .null (by simp) 1 hparent⟩

end ClassMachine
