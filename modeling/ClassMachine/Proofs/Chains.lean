import Mathlib.Data.Fintype.EquivFin
import Mathlib.Data.List.Perm.Subperm
import Mathlib.Logic.Relation
import ClassMachine.Proofs.ConfinedRuns
import ClassMachine.Proofs.Descent

/-!
# Chains of prototypes

Reading, assigning and asking for descent walk along the links of the store, and nothing in
these walks stops them but the end of the chain. It ends because links lead back in time. An
object gets its link when it is made, to an object that client code could get at, which is an
object that was there. A link that is redirected may lead anywhere, but this is noted
(`ClassMachine.Machine.LinksBack`). So as long as clients redirect no links, the places along a
chain go down.

What a walk finds is then said without it: by a look at the objects of the chain, one after the
other (`ClassMachine.Store.nearest?`). For this the places need not go down. It is enough that no
object is an ancestor of itself (`ClassMachine.Store.Acyclic`).

A walk has fuel for one object more than there are. That is enough in every store, since a chain
on which it would have to go further goes on forever
(`ClassMachine.Store.searchFrom_of_size_lt`).

Main statement: `ClassMachine.property_lookup`.
-/

namespace ClassMachine

/-! ### Links lead back -/

/-- A link leads to an object that is older, unless a client has redirected it. -/
def Machine.LinksBack (m : Machine) : Prop :=
  ∀ o < m.store.size, ∀ q ∈ (m.store.object o).prototype, q < o ∨ .relinked o ∈ m.trace

/-- An effect that makes up no references keeps it so. -/
theorem Effect.Visible.linksBack {H : ObjectId → Prop} {m : Machine} {e : Effect}
    (he : e.Visible H m.store.size) (hm : m.LinksBack) : (e.apply m).LinksBack := by
  intro o ho q hq
  obtain ⟨new, hnew⟩ := e.trace_apply m
  rcases Nat.lt_or_ge o m.store.size with hold | hnewer
  · obtain ⟨-, hlink | ⟨prototype, rfl⟩⟩ := e.object_apply hold
    · rw [hlink] at hq
      exact (hm o hold q hq).imp_right fun hmem => hnew ▸ List.mem_append_right new hmem
    · exact .inr List.mem_cons_self
  · -- a new object is linked to one that is seen, so to one that is there
    cases e with
    | object kind prototype =>
      have ho : o = m.store.size := by
        simp only [apply, Store.size_add] at ho
        exact Nat.le_antisymm (Nat.le_of_lt_succ ho) hnewer
      subst ho
      simp only [apply, Store.object_add, if_pos] at hq
      exact .inl (he q hq).1
    | define =>
      rw [size_apply_define] at ho
      exact absurd hnewer (Nat.not_le_of_lt ho)
    | delete | close | relink =>
      simp only [apply, Store.size_put] at ho
      exact absurd hnewer (Nat.not_le_of_lt ho)
    | _ => exact absurd hnewer (Nat.not_le_of_lt ho)

theorem Machine.Visibly.linksBack {H : ObjectId → Prop} {m m' : Machine} (h : m.Visibly H m')
    (hm : m.LinksBack) : m'.LinksBack := by
  induction h with
  | refl => exact hm
  | step he _ ih => exact ih (he.linksBack hm)

/-- **Links lead back** in every machine that occurs in a program. -/
theorem Occurs.linksBack {settings : Settings} {m : Machine} (hm : Occurs settings m) :
    m.LinksBack := by
  have hrest : ∀ m, AtRest settings m → m.Closed ∧ m.LinksBack := by
    refine (Contract.moments (fun m => m.Closed ∧ m.LinksBack) (fun _ => True)
      (step_keeps_reach settings) ⟨Machine.initial_closed, ?_⟩ (fun _ h => ⟨h.1.clear, h.2⟩) ?_
      (fun _ _ _ _ _ => trivial) fun _ _ _ _ => trivial).1
    · exact fun _ ho => absurd ho (Nat.not_lt_zero _)
    · rintro e m _ _ ⟨hclosed, hback⟩ h
      obtain ⟨hspares, -⟩ := h _ hclosed (visible_step _ _ e)
      exact ⟨hspares.hides, hspares.visibly.linksBack hback⟩
  induction hm with
  | rest hm => exact (hrest _ hm).2
  | broken hm e stop levels =>
    obtain ⟨hclosed, hback⟩ := hrest _ hm
    exact (interpretUntil_respects settings stop levels (.eval e {}) (visible_step _ 0 e) _
      (Nat.zero_le _) hclosed.clear).1.visibly.linksBack hback
  | client _ _ hvisible ih => exact hvisible.linksBack ih

/-! ### Chains -/

namespace Store

/-- The objects that a walk along the links comes to, the first one in front. -/
inductive Chain (s : Store) : Option ObjectId → List ObjectId → Prop
  | nil : Chain s none []
  | cons {o : ObjectId} {rest : List ObjectId} (h : Chain s (s.object o).prototype rest) :
    Chain s (some o) (o :: rest)

/-- The first of the objects that owns the key, with its property. -/
def nearest? (s : Store) (key : String) (os : List ObjectId) : Option (ObjectId × Property) :=
  os.findSome? fun o => ((s.object o).property? key).map (o, ·)

/-- Each link of the store leads to an older object. -/
def Descends (s : Store) : Prop :=
  ∀ o q, (s.object o).prototype = some q → q < o

section Chain

variable {s : Store}

/-- If links lead back there is a chain from every object on, and the places along it go
down. -/
theorem Descends.exists_chain (hs : s.Descends) (o : ObjectId) :
    ∃ rest, s.Chain (some o) (o :: rest) ∧ (o :: rest).Pairwise (· > ·) := by
  -- induction on the place, since the link leads to a smaller one
  induction o using Nat.strongRecOn with
  | ind o ih =>
    cases hlink : (s.object o).prototype with
    | none => exact ⟨[], .cons (hlink ▸ .nil), List.pairwise_singleton ..⟩
    | some q =>
      have hlt : q < o := hs o q hlink
      obtain ⟨rest, hrest, hpairwise⟩ := ih q hlt
      refine ⟨q :: rest, .cons (hlink ▸ hrest), List.pairwise_cons.mpr ⟨fun x hx => ?_, hpairwise⟩⟩
      rcases List.mem_cons.mp hx with rfl | hx
      · exact hlt
      · exact Nat.lt_trans (List.rel_of_pairwise_cons hpairwise hx) hlt

/-- There is one chain from each place on. -/
theorem Chain.unique {start : Option ObjectId} {os os' : List ObjectId} (h : s.Chain start os)
    (h' : s.Chain start os') : os = os' := by
  induction h generalizing os' with
  | nil =>
    cases h'
    rfl
  | cons _ ih =>
    cases h' with
    | cons h' => rw [ih h']

/-- What follows on an object of a chain is the chain from this object on. -/
theorem Chain.of_append {start : Option ObjectId} {before after : List ObjectId} {o : ObjectId}
    (h : s.Chain start (before ++ o :: after)) : s.Chain (some o) (o :: after) := by
  induction before generalizing start with
  | nil =>
    cases h with
    | cons h => exact .cons h
  | cons _ before ih =>
    cases h with
    | cons h => exact ih h

/-- A chain that ends meets no object twice, since it would go on in the same way. -/
theorem Chain.nodup {start : Option ObjectId} {os : List ObjectId} (h : s.Chain start os) :
    os.Nodup := by
  induction h with
  | nil => exact List.nodup_nil
  | @cons o rest h ih =>
    refine List.nodup_cons.mpr ⟨fun hmem => ?_, ih⟩
    obtain ⟨before, after, rfl⟩ := List.append_of_mem hmem
    have hlength := congrArg List.length ((Chain.cons h).unique h.of_append)
    simp only [List.length_cons, List.length_append] at hlength
    omega

theorem Chain.start_eq {start : Option ObjectId} {o : ObjectId} {rest : List ObjectId}
    (h : s.Chain start (o :: rest)) : start = some o := by
  cases h
  rfl

/-- All objects of a chain but the last one are linked to something, so they are in use. -/
theorem Chain.lt_size {start : Option ObjectId} {os : List ObjectId} (h : s.Chain start os) :
    ∀ o ∈ os.dropLast, o < s.size := by
  induction h with
  | nil => simp
  | @cons o rest h ih =>
    cases rest with
    | nil => simp
    | cons q rest =>
      intro x hx
      rcases List.mem_cons.mp hx with rfl | hx
      · by_contra hunused
        have hlink := h.start_eq
        simp [object_of_le (Nat.le_of_not_lt hunused), blank] at hlink
      · exact ih x hx

/-- A chain is no longer than there are objects, but for the object that it begins with. -/
theorem Chain.length_le {o : ObjectId} {rest : List ObjectId}
    (h : s.Chain (some o) (o :: rest)) : rest.length ≤ s.size := by
  have hnodup : (o :: rest).dropLast.Nodup := h.nodup.sublist (List.dropLast_sublist _)
  have hsubset : (o :: rest).dropLast ⊆ List.range s.size := fun x hx =>
    List.mem_range.mpr (h.lt_size x hx)
  simpa using (hnodup.subperm hsubset).length_le

/-- A search with enough fuel finds the nearest owner, if there is one. -/
theorem Chain.searchFrom_eq {start : Option ObjectId} {os : List ObjectId} (h : s.Chain start os)
    (key : String) {fuel : Nat} (hfuel : os.length ≤ fuel) :
    s.searchFrom key fuel start = match s.nearest? key os with
      | some (owner, p) => .owned owner p
      | none => .missing := by
  induction h generalizing fuel with
  | nil => cases fuel <;> rfl
  | @cons o rest _ ih =>
    obtain ⟨fuel, rfl⟩ := Nat.exists_eq_succ_of_ne_zero (Nat.ne_zero_of_lt hfuel)
    rw [searchFrom, nearest?, List.findSome?_cons]
    cases hp : (s.object o).property? key with
    | some p => rfl
    | none => exact ih (Nat.le_of_succ_le_succ hfuel)

/-- A walk with enough fuel finds out whether the goal is on the chain. -/
theorem Chain.reachesFrom_eq {start : Option ObjectId} {os : List ObjectId} (h : s.Chain start os)
    (goal : ObjectId) {fuel : Nat} (hfuel : os.length ≤ fuel) :
    s.reachesFrom goal fuel start = some (decide (goal ∈ os)) := by
  induction h generalizing fuel with
  | nil => cases fuel <;> rfl
  | @cons o rest _ ih =>
    obtain ⟨fuel, rfl⟩ := Nat.exists_eq_succ_of_ne_zero (Nat.ne_zero_of_lt hfuel)
    rw [reachesFrom, ih (Nat.le_of_succ_le_succ hfuel)]
    by_cases hgoal : o = goal
    · simp [hgoal]
    · simp [hgoal, Ne.symm hgoal]

/-- So a search finds the nearest owner, if there is one. -/
theorem Chain.search_eq {o : ObjectId} {os : List ObjectId} (h : s.Chain (some o) os)
    (key : String) : s.search key o = match s.nearest? key os with
      | some (owner, p) => .owned owner p
      | none => .missing := by
  cases h with
  | cons h => exact (Chain.cons h).searchFrom_eq key (Nat.succ_le_succ (Chain.cons h).length_le)

end Chain

/-! ### Fuel -/

/-- The store with the links of some objects taken away. -/
def cut (s : Store) (stop : ObjectId → Bool) : Store :=
  ⟨s.objects.mapIdx fun o x => if stop o then { x with prototype := none } else x⟩

section Fuel

variable {s : Store}

theorem size_cut (stop : ObjectId → Bool) : (s.cut stop).size = s.size := by
  simp [cut, size]

theorem object_cut (stop : ObjectId → Bool) (o : ObjectId) : (s.cut stop).object o =
    if stop o then { s.object o with prototype := none } else s.object o := by
  simp only [object, cut, Array.getD_eq_getD_getElem?, Array.getElem?_mapIdx]
  cases s.objects[o]? with
  | some x => rfl
  | none => cases stop o <;> rfl

/-- A search does not follow the links of owners. -/
theorem searchFrom_cut (key : String) (fuel : Nat) (start : Option ObjectId) :
    (s.cut fun o => ((s.object o).property? key).isSome).searchFrom key fuel start =
      s.searchFrom key fuel start := by
  induction fuel generalizing start with
  | zero => cases start <;> rfl
  | succ fuel ih =>
    cases start with
    | none => rfl
    | some o =>
      rw [searchFrom, searchFrom, object_cut]
      cases hp : (s.object o).property? key with
      | some p => simp [show Object.property? { s.object o with prototype := none } key = some p
          from hp]
      | none => simpa [hp] using ih _

/-- A walk does not follow the link of its goal. -/
theorem reachesFrom_cut (goal : ObjectId) (fuel : Nat) (start : Option ObjectId) :
    (s.cut (· == goal)).reachesFrom goal fuel start = s.reachesFrom goal fuel start := by
  induction fuel generalizing start with
  | zero => cases start <;> rfl
  | succ fuel ih =>
    cases start with
    | none => rfl
    | some o =>
      rw [reachesFrom, reachesFrom, object_cut]
      by_cases hgoal : o = goal
      · rw [if_pos hgoal, if_pos hgoal]
      · simpa [hgoal] using ih _

/-- If a search comes to an end, and owners are linked to nothing, then the chain ends. -/
theorem exists_chain_of_searchFrom {key : String} {fuel : Nat} {start : Option ObjectId}
    (howner : ∀ o, ((s.object o).property? key).isSome → (s.object o).prototype = none)
    (h : s.searchFrom key fuel start ≠ .endless) : ∃ os, s.Chain start os := by
  induction fuel generalizing start with
  | zero =>
    cases start with
    | none => exact ⟨[], .nil⟩
    | some o => exact absurd rfl h
  | succ fuel ih =>
    cases start with
    | none => exact ⟨[], .nil⟩
    | some o =>
      rw [searchFrom] at h
      split at h
      next p hp => exact ⟨[o], .cons (howner o (by simp [hp]) ▸ .nil)⟩
      next =>
        obtain ⟨rest, hrest⟩ := ih h
        exact ⟨o :: rest, .cons hrest⟩

/-- If a walk comes to an end, and its goal is linked to nothing, then the chain ends. -/
theorem exists_chain_of_reachesFrom {goal : ObjectId} {fuel : Nat} {start : Option ObjectId}
    (hgoal : (s.object goal).prototype = none) (h : s.reachesFrom goal fuel start ≠ none) :
    ∃ os, s.Chain start os := by
  induction fuel generalizing start with
  | zero =>
    cases start with
    | none => exact ⟨[], .nil⟩
    | some o => exact absurd rfl h
  | succ fuel ih =>
    cases start with
    | none => exact ⟨[], .nil⟩
    | some o =>
      rw [reachesFrom] at h
      split at h
      next heq => exact ⟨[o], .cons (heq ▸ hgoal ▸ .nil)⟩
      next =>
        obtain ⟨rest, hrest⟩ := ih h
        exact ⟨o :: rest, .cons hrest⟩

/-- A chain that ends has no more objects than a search has fuel. -/
theorem Chain.length_le_succ {start : Option ObjectId} {os : List ObjectId}
    (h : s.Chain start os) : os.length ≤ s.size + 1 := by
  cases h with
  | nil => exact Nat.zero_le _
  | cons hrest => exact Nat.succ_le_succ (Chain.cons hrest).length_le

/-- **More fuel finds nothing else.** -/
theorem searchFrom_of_size_lt (key : String) {fuel : Nat} (hfuel : s.size < fuel)
    (o : ObjectId) : s.searchFrom key fuel (some o) = s.search key o := by
  obtain ⟨s', hsize, howner, hsame⟩ : ∃ s' : Store, s'.size = s.size ∧
      (∀ o, ((s'.object o).property? key).isSome → (s'.object o).prototype = none) ∧
      ∀ fuel start, s'.searchFrom key fuel start = s.searchFrom key fuel start := by
    refine ⟨_, size_cut _, fun o ho => ?_, searchFrom_cut key⟩
    rw [object_cut] at ho ⊢
    split at ho <;> simp_all
  rw [search, ← hsame, ← hsame]
  by_cases hends : ∃ os, s'.Chain (some o) os
  · obtain ⟨os, hos⟩ := hends
    have hlength := hsize ▸ hos.length_le_succ
    rw [hos.searchFrom_eq key (Nat.le_trans hlength hfuel), hos.searchFrom_eq key hlength]
  · have hendless (fuel : Nat) : s'.searchFrom key fuel (some o) = .endless := by
      by_contra h
      exact hends (exists_chain_of_searchFrom howner h)
    rw [hendless, hendless]

/-- And a walk comes to nothing else. -/
theorem reachesFrom_of_size_lt (goal : ObjectId) {fuel : Nat} (hfuel : s.size < fuel)
    (start : Option ObjectId) :
    s.reachesFrom goal fuel start = s.reachesFrom goal (s.size + 1) start := by
  obtain ⟨s', hsize, hgoal, hsame⟩ : ∃ s' : Store, s'.size = s.size ∧
      (s'.object goal).prototype = none ∧
      ∀ fuel start, s'.reachesFrom goal fuel start = s.reachesFrom goal fuel start :=
    ⟨_, size_cut _, by simp [object_cut], reachesFrom_cut goal⟩
  rw [← hsame, ← hsame]
  by_cases hends : ∃ os, s'.Chain start os
  · obtain ⟨os, hos⟩ := hends
    have hlength := hsize ▸ hos.length_le_succ
    rw [hos.reachesFrom_eq goal (Nat.le_trans hlength hfuel), hos.reachesFrom_eq goal hlength]
  · have hendless (fuel : Nat) : s'.reachesFrom goal fuel start = none := by
      by_contra h
      exact hends (exists_chain_of_reachesFrom hgoal h)
    rw [hendless, hendless]

end Fuel

/-! ### Stores without cycles -/

/-- The object is linked to the other one, as its prototype. -/
def Links (s : Store) (o q : ObjectId) : Prop :=
  (s.object o).prototype = some q

/-- No object is an ancestor of itself. Links may have been redirected, as long as this does not
close a cycle. -/
def Acyclic (s : Store) : Prop :=
  ∀ o, ¬ Relation.TransGen s.Links o o

section Acyclic

variable {s : Store}

/-- If links lead to older objects only, there is no cycle. -/
theorem Descends.acyclic (hs : s.Descends) : s.Acyclic := by
  have hlt : ∀ o q, Relation.TransGen s.Links o q → q < o := by
    intro o q h
    induction h with
    | single h => exact hs _ _ h
    | tail _ h ih => exact Nat.lt_trans (hs _ _ h) ih
  exact fun o h => Nat.lt_irrefl o (hlt o o h)

/-- Without a cycle one can go up along the links only so often, since there are only so many
objects. -/
theorem Acyclic.wellFounded (hs : s.Acyclic) : WellFounded fun q o => s.Links o q := by
  -- where no object is, there is no link
  have hunused : ∀ o, s.size ≤ o → Acc (fun q o => s.Links o q) o := by
    refine fun o ho => ⟨o, fun q hq => ?_⟩
    simp [Links, object_of_le ho, blank] at hq
  let Above (q o : Fin s.size) : Prop := Relation.TransGen s.Links o q
  have : IsTrans (Fin s.size) Above := ⟨fun _ _ _ h h' => h'.trans h⟩
  have : Std.Irrefl Above := ⟨fun o => hs o⟩
  have hwf : WellFounded Above := Finite.wellFounded_of_trans_of_irrefl Above
  have hused : ∀ o : Fin s.size, Acc (fun q o => s.Links o q) (o : ObjectId) := by
    intro o
    induction o using hwf.induction with
    | _ o ih =>
      refine ⟨(o : ObjectId), fun q hq => ?_⟩
      rcases Nat.lt_or_ge q s.size with hlt | hle
      · exact ih ⟨q, hlt⟩ (.single hq)
      · exact hunused q hle
  refine ⟨fun o => ?_⟩
  rcases Nat.lt_or_ge o s.size with hlt | hle
  · exact hused ⟨o, hlt⟩
  · exact hunused o hle

/-- **Without a cycle every chain ends.** -/
theorem Acyclic.exists_chain (hs : s.Acyclic) (o : ObjectId) :
    ∃ rest, s.Chain (some o) (o :: rest) := by
  induction o using hs.wellFounded.induction with
  | _ o ih =>
    cases hlink : (s.object o).prototype with
    | none => exact ⟨[], .cons (hlink ▸ .nil)⟩
    | some q =>
      obtain ⟨rest, hrest⟩ := ih q hlink
      exact ⟨q :: rest, .cons (hlink ▸ hrest)⟩

end Acyclic

end Store

/-! ### Walks at all moments -/

/-- As long as clients redirect no links, all links lead to older objects. -/
theorem Machine.LinksBack.descends {m : Machine} (hm : m.LinksBack) (hkept : m.LinksKept) :
    m.store.Descends := by
  intro o q hq
  rcases Nat.lt_or_ge o m.store.size with ho | ho
  · refine (hm o ho q hq).resolve_right fun hmem => ?_
    simpa [Event.relinked?] using hkept _ hmem
  · rw [Store.object_of_le ho] at hq
    simp [Store.blank] at hq

/-- What the walks from an object do, along these objects. -/
structure Machine.Walks (m : Machine) (o : ObjectId) (os : List ObjectId) : Prop where
  chain : m.store.Chain (some o) os
  /-- Each object of the chain is older than the one before, so none is met twice. -/
  down : os.Pairwise (· > ·)
  /-- Reading a property acts on the nearest owner: its value is the answer, or what its getter
  makes of the receiver, or nothing. -/
  read : ∀ perform key receiver, (readFrom perform o key receiver).outcome m =
    match m.store.nearest? key os with
    | some (_, .data value ..) => (some (.ok value), m)
    | some (_, .accessor (some getter) ..) => (callFunction perform getter receiver []).outcome m
    | some (_, .accessor none ..) | none => (some (.ok .undefined), m)
  /-- So does assigning to a property, up to the write. -/
  assign : ∀ perform key value, (assignTo perform o key value).outcome m =
    match m.store.nearest? key os with
    | some (_, .accessor _ (some setter) ..) =>
      (discard <| callFunction perform setter (.ref o) [value]).outcome m
    | some (_, .accessor _ none ..) =>
      (some (.error (.ofFault (.noSetter key))), (Effect.note (.raised (.noSetter key))).apply m)
    | some (_, .data _ false ..) =>
      (some (.error (.ofFault (.readOnly key))), (Effect.note (.raised (.readOnly key))).apply m)
    | some (_, .data _ true ..) | none => (assignOwn o key value).outcome m
  /-- The object descends from the classes of which the prototype is further on in the chain. -/
  descent : ∀ id c, m.registry.class? id = some c →
    (instanceOf (.ref o) id).outcome m = (some (.ok (decide (c.prototype ∈ os.tail))), m)

/-- What the nearest owner of the chain has under the key says what an assignment does. -/
theorem Store.Chain.outcome_assignTo {m : Machine} {o : ObjectId} {os : List ObjectId}
    (h : m.store.Chain (some o) os) (perform : Performer) (key : String) (value : Value) :
    (assignTo perform o key value).outcome m =
      match m.store.nearest? key os with
      | some (_, .accessor _ (some setter) ..) =>
        (discard <| callFunction perform setter (.ref o) [value]).outcome m
      | some (_, .accessor _ none ..) =>
        (some (.error (.ofFault (.noSetter key))), (Effect.note (.raised (.noSetter key))).apply m)
      | some (_, .data _ false ..) =>
        (some (.error (.ofFault (.readOnly key))), (Effect.note (.raised (.readOnly key))).apply m)
      | some (_, .data _ true ..) | none => (assignOwn o key value).outcome m := by
  simp only [assignTo, outcome_bind, outcome_get, h.search_eq]
  rcases m.store.nearest? key os with
    _ | ⟨owner, ⟨_, _ | _, _, _⟩ | ⟨_, _ | _, _, _⟩⟩ <;> rfl

/-- It also says what a read does. -/
theorem Store.Chain.outcome_readFrom {m : Machine} {o : ObjectId} {os : List ObjectId}
    (h : m.store.Chain (some o) os) (perform : Performer) (key : String) (receiver : Value) :
    (readFrom perform o key receiver).outcome m =
      match m.store.nearest? key os with
      | some (_, .data value ..) => (some (.ok value), m)
      | some (_, .accessor (some getter) ..) => (callFunction perform getter receiver []).outcome m
      | some (_, .accessor none ..) | none => (some (.ok .undefined), m) := by
  simp only [readFrom, outcome_bind, outcome_get, h.search_eq]
  rcases m.store.nearest? key os with _ | ⟨owner, _ | ⟨_ | _, _⟩⟩ <;> rfl

/-- The walks from an object follow its chain, which the fuel of the searches is enough for. -/
theorem Store.Chain.walks {m : Machine} {o : ObjectId} {rest : List ObjectId}
    (h : m.store.Chain (some o) (o :: rest)) (hdown : (o :: rest).Pairwise (· > ·)) :
    m.Walks o (o :: rest) := by
  have hlength : rest.length ≤ m.store.size := h.length_le
  refine ⟨h, hdown, h.outcome_readFrom, h.outcome_assignTo, fun id c hc => ?_⟩
  cases h with
  | cons hrest =>
    rw [outcome_instanceOf hc]
    simp only [Store.descendsFrom?, hrest.reachesFrom_eq _ (Nat.le_succ_of_le hlength)]
    rfl

/-- **Property lookup.** In every machine that occurs in a program, as long as clients have
redirected no links, each link leads to an older object. So from each object on there is a
chain that ends and meets no object twice, and the walks of the machine follow it: a property is
read from, and assigned on behalf of, the nearest object that owns it, and descent is being
further on in the chain. -/
theorem property_lookup (settings : Settings) (m : Machine) (hm : Occurs settings m)
    (hkept : m.LinksKept) :
    (∀ o q, (m.store.object o).prototype = some q → q < o) ∧ ∀ o, ∃ os, m.Walks o os := by
  have hdescends := hm.linksBack.descends hkept
  refine ⟨hdescends, fun o => ?_⟩
  obtain ⟨rest, hchain, hdown⟩ := hdescends.exists_chain o
  exact ⟨o :: rest, hchain.walks hdown⟩

/-- An instance of a class with a parent. -/
theorem property_lookup_of_twoFields : ∃ m, (Occurs {} m ∧ m.LinksKept) ∧
    (∀ o q, (m.store.object o).prototype = some q → q < o) ∧
    ∃ os, m.Walks 4 os ∧ os.length = 3 := by
  let construction : Expr := .reentry .constructValue [.primitive .classObject [twoFields]]
  have hrun : ((runStep {} 9 construction .initial).any fun p => decide p.2.LinksKept &&
      (p.2.store.object 4).prototype == some 2 && (p.2.store.object 2).prototype == some 0 &&
      (p.2.store.object 0).prototype == none) = true := by
    decide +kernel
  obtain ⟨⟨report, m⟩, hm, h⟩ := (Option.any_eq_true ..).mp hrun
  simp only [Bool.and_eq_true, decide_eq_true_eq, beq_iff_eq] at h
  obtain ⟨⟨⟨hkept, h₄⟩, h₂⟩, h₀⟩ := h
  have hm : Occurs {} m := .rest (.step .initial hm)
  obtain ⟨hdescends, hwalks⟩ := property_lookup {} m hm hkept
  obtain ⟨os, hos⟩ := hwalks 4
  refine ⟨m, ⟨hm, hkept⟩, hdescends, os, hos, ?_⟩
  obtain ⟨hchain⟩ := hos
  cases hchain with
  | cons h =>
    rw [h₄] at h
    cases h with
    | cons h =>
      rw [h₂] at h
      cases h with
      | cons h =>
        rw [h₀] at h
        cases h
        rfl

end ClassMachine
