import ClassMachine.Proofs.ClassGraph
import ClassMachine.Proofs.DefinitionOrder

/-!
# Class objects and their kinds

Whether a value is the class object of a registered class can be asked in two ways. The registry
knows the class objects of its classes (`ClassMachine.Value.IsClass`). A definition that checks
its heritage asks the object instead: it has a kind, and if this is the kind of a class object, it
names the class by its number.

That a class object has the kind of its class is part of what the registry and the store agree on
(`ClassMachine.class_graph`). For the converse no other object may have that kind. None has, because
an object of such a kind is made in one place only, for a number that has just been drawn
(`ClassMachine.Machine.KindsApart`).

Main statement: `ClassMachine.Occurs.kind_iff`.
-/

namespace ClassMachine

/-! ### The kinds of class objects -/

/-- Of the objects that have the kind of a class object, no two have the same number, and these
numbers have been drawn. -/
structure Machine.KindsApart (m : Machine) : Prop where
  drawn : ∀ o id, (m.store.object o).kind = .classObject id → id ≤ m.registry.lastId
  unique : ∀ o o' id, (m.store.object o).kind = .classObject id →
    (m.store.object o').kind = .classObject id → o' = o

/-- The effect makes no object of such a kind. -/
def Effect.MakesNoClass : Effect → Prop
  | .object (.classObject _) _ => False
  | _ => True

namespace Effect

variable {e : Effect}

/-- An object that has such a kind has had it before. -/
theorem MakesNoClass.kind_of_apply (he : e.MakesNoClass) {m : Machine} {o : ObjectId}
    {id : ClassId} (hkind : ((e.apply m).store.object o).kind = .classObject id) :
    (m.store.object o).kind = .classObject id := by
  rcases Nat.lt_or_ge o m.store.size with ho | ho
  · rwa [(e.object_apply ho).1] at hkind
  -- nothing is at this place before, so the kind would be that of a new object
  have hblank (hsize : (e.apply m).store.size = m.store.size) :
      (m.store.object o).kind = .classObject id := by
    rw [Store.object_of_le (hsize ▸ ho)] at hkind
    cases hkind
  cases e with
  | object kind prototype =>
    simp only [apply, Store.object_add] at hkind
    split at hkind
    · obtain rfl : kind = .classObject id := hkind
      exact he.elim
    · exact hkind
  | define => exact hblank (size_apply_define ..)
  | delete | close | relink => exact hblank (Store.size_put ..)
  | _ => exact hkind

theorem IsClient.makesNoClass (he : e.IsClient) : e.MakesNoClass := by
  cases e with
  | object kind prototype =>
    obtain rfl : kind = .ordinary := he
    trivial
  | _ => trivial

theorem IsConstructing.makesNoClass (he : e.IsConstructing) : e.MakesNoClass := by
  rcases he with he | he
  · exact he.makesNoClass
  · cases e with
    | object kind prototype =>
      obtain ⟨cls, rfl⟩ := he
      trivial
    | _ => trivial

theorem IsReplacing.makesNoClass (he : e.IsReplacing) : e.MakesNoClass := by
  rcases he with he | he
  · exact he.makesNoClass
  · cases e with
    | object => exact he.elim
    | _ => trivial

theorem IsCollecting.makesNoClass {cls : ClassId} {className : String}
    (he : e.IsCollecting cls className) : e.MakesNoClass := by
  rcases he with he | ⟨name, rfl | rfl | rfl⟩
  · exact he.makesNoClass
  all_goals trivial

end Effect

/-- The law of kinds: once they are apart, they stay so. -/
def kindsLaw : Law where
  ended m m' := m.KindsApart → m'.KindsApart
  broken m m' := m.KindsApart → m'.KindsApart
  refl _ := id
  trans h h' := h' ∘ h
  late h := h
  trans_broken h h' := h' ∘ h

theorem kindsLaw_holds {α : Type} {m m' : Machine} {r : Option (Except Failure α)} :
    kindsLaw.Holds m r m' ↔ (m.KindsApart → m'.KindsApart) := by
  cases r <;> rfl

/-- Only making a class object has to be looked at. -/
theorem kindsLaw_allows {e : Effect} (he : e.MakesNoClass) : kindsLaw.Allows e := fun m hm =>
  ⟨fun o id h => Nat.le_trans (hm.drawn o id (he.kind_of_apply h)) (e.lastId_apply m),
    fun o o' id h h' => hm.unique o o' id (he.kind_of_apply h) (he.kind_of_apply h')⟩

namespace Machine

variable {m m' : Machine}

/-- Kinds and numbers are all that matters. -/
theorem KindsApart.of_eq (hm : m.KindsApart) (hstore : m'.store = m.store)
    (hlast : m'.registry.lastId = m.registry.lastId) : m'.KindsApart :=
  ⟨fun o id h => hlast ▸ hm.drawn o id (hstore ▸ h),
    fun o o' id h h' => hm.unique o o' id (hstore ▸ h) (hstore ▸ h')⟩

/-- **A class object is made for a number that has just been drawn.** -/
theorem KindsApart.prepared (hm : m.KindsApart) (d : ClassDefinition) (parent : Option Class) :
    (m.prepared d parent).KindsApart := by
  have hnumbered : (m.numbered d.displayName).KindsApart :=
    kindsLaw_allows (e := .note (.numbered m.nextClass)) trivial _ <|
      kindsLaw_allows (e := .draw) trivial _ <|
        kindsLaw_allows (e := .note (.defining d.displayName)) trivial m hm
  -- an object of such a kind is the new one, or was there
  have hkind {o : ObjectId} {id : ClassId}
      (h : ((m.prepared d parent).store.object o).kind = .classObject id) :
      (id = m.nextClass ∧ o = m.homes.classObject) ∨
        (m.store.object o).kind = .classObject id := by
    rw [Machine.prepared, object_withHomes] at h
    split at h
    next ho => exact .inl ⟨(ObjectKind.classObject.inj h).symm, ho⟩
    · split at h
      · cases h
      · exact .inr h
  have hold {o : ObjectId} (h : (m.store.object o).kind = .classObject m.nextClass) : False :=
    Nat.not_succ_le_self _ (hm.drawn o _ h)
  constructor
  case drawn =>
    intro o id h
    rcases hkind h with ⟨rfl, -⟩ | h
    · exact Nat.le_refl _
    · exact hnumbered.drawn o id h
  case unique =>
    intro o o' id h h'
    rcases hkind h with ⟨rfl, rfl⟩ | h <;> rcases hkind h' with ⟨hid, rfl⟩ | h'
    · rfl
    · exact (hold h').elim
    · exact (hold (hid ▸ h)).elim
    · exact hm.unique o o' id h h'

end Machine

section Definition

variable {perform : Performer} (hp : ∀ ⦃β : Type⦄ (task : Task β), (perform task).Obeys kindsLaw)

include hp

theorem defineClass_kindsLaw (d : ClassDefinition) : (defineClass perform d).Obeys kindsLaw := by
  have hcollect (m : Machine) (homes : Homes) : (collectFields perform m.nextClass d.displayName
      homes d.elements).Obeys kindsLaw :=
    (collectFields_madeOf ..).obeys_evaluations
      (fun e he => kindsLaw_allows he.makesNoClass) fun e ctx => hp (.eval e ctx)
  refine .bind (fun m => prepareClass_ensures (fun f _ hm => ?_) fun parent _ => ?_) fun c m => ?_
  · exact hm.of_eq rfl rfl
  · refine (hcollect m m.homes (m.prepared d parent)).mono fun r m' h => ?_
    exact kindsLaw_holds.mpr fun hm => kindsLaw_holds.mp h (hm.prepared d parent)
  · have hinstall : (installFields perform (.staticField c.id c.displayName c.classObject)
        c.classObject c.staticFields).Obeys kindsLaw :=
      installFields_obeys (fun _ _ he => kindsLaw_allows he.isFraming.isConstructing.makesNoClass)
        (fun _ _ he => kindsLaw_allows (by rcases he with rfl | rfl | rfl <;> trivial))
        (fun e ctx => hp (.eval e ctx)) _
    have hlaunched (hm : m.KindsApart) : (m.launched c).KindsApart :=
      hm.of_eq rfl (Registry.lastId_register ..)
    refine launchClass_ensures (hinstall (m.launched c)) (fun m' h hm => ?_) (fun e m' h hm => ?_)
      fun m' h hm => h (hlaunched hm)
    · exact (h (hlaunched hm)).of_eq rfl rfl
    · exact (h (hlaunched hm)).of_eq rfl rfl

/-- **Each level passes the law on.** -/
theorem step_kindsLaw (settings : Settings) ⦃α : Type⦄ (task : Task α) :
    (step settings perform task).Obeys kindsLaw :=
  step_obeys_of_operations (fun _ he => kindsLaw_allows he.makesNoClass) hp
    (fun id field initializer => (replaceInitializer_madeOf id field initializer).obeys_alone
      fun _ he => kindsLaw_allows he.makesNoClass)
    (defineClass_kindsLaw hp) settings task

end Definition

/-- **Kinds are apart at all moments.** -/
theorem kindsApart_moments (settings : Settings) :
    (∀ m, AtRest settings m → m.KindsApart) ∧ ∀ m, Reachable settings m → m.KindsApart := by
  have hblank (o : ObjectId) (id : ClassId) :
      (Machine.initial.store.object o).kind ≠ .classObject id := by
    rw [Store.object_of_le (Nat.zero_le _)]
    exact ObjectKind.noConfusion
  exact Contract.moments (K := .ofLaws fun _ _ => kindsLaw) _ _
    (fun _ hp => step_kindsLaw hp settings)
    ⟨fun o id h => absurd h (hblank o id), fun o _ id h => absurd h (hblank o id)⟩
    (fun _ hm => hm.of_eq rfl rfl) (fun _ _ _ _ hm h => h hm) (fun _ _ _ hm h => h hm)
    fun _ m he => kindsLaw_allows he.makesNoClass m

/-! ### Class objects of registered classes -/

section Occurs

variable {settings : Settings} {m : Machine} (hm : Occurs settings m)

include hm

theorem Occurs.housed : m.Housed :=
  (hm.of_moments (P := fun m => m.Coherent ∧ m.Housed) (graph_moments settings)
    fun e m he ⟨hcoherent, hhoused⟩ => by
      have he := he.keepsRegistry
      obtain ⟨hsettles, hgraph⟩ :=
        registryLaw_allows he (graphLaw_allows_keepsRegistry he) m hcoherent
      exact ⟨hsettles.coherent, hgraph.2 hhoused⟩).2

/-- **The kind of a class object** is that of its class, and no other object has it. -/
theorem Occurs.kind_iff {id : ClassId} {c : Class} (hc : m.registry.class? id = some c)
    (o : ObjectId) : (m.store.object o).kind = .classObject id ↔ o = c.classObject := by
  have hkind : (m.store.object c.classObject).kind = .classObject id := by
    rw [(hm.coherent.houses hm.housed hc).kind, hm.coherent.follows.class?_id hc]
  have hapart : m.KindsApart := hm.of_moments (kindsApart_moments settings)
    fun _ m he => kindsLaw_allows he.makesNoClass m
  constructor
  · exact fun h => hapart.unique _ _ id hkind h
  · rintro rfl
    exact hkind

end Occurs

/-- The value is the class object of a registered class. -/
def Value.IsClass (m : Machine) (v : Value) : Prop :=
  ∃ id c, m.registry.class? id = some c ∧ v = .ref c.classObject

/-- **What a definition asks of its heritage** is whether it is the class object of a registered
class. -/
theorem Occurs.classOfValue?_isSome_iff {settings : Settings} {m : Machine}
    (hm : Occurs settings m) {v : Value} :
    (ClassDefinition.classOfValue? m v).isSome ↔ v.IsClass m := by
  constructor
  · intro h
    obtain ⟨c, hc⟩ := Option.isSome_iff_exists.mp h
    unfold ClassDefinition.classOfValue? at hc
    split at hc
    next o =>
      split at hc
      next id hkind => exact ⟨id, c, hc, congrArg Value.ref ((hm.kind_iff hc o).mp hkind)⟩
      next => cases hc
    next => cases hc
  · rintro ⟨id, c, hc, rfl⟩
    simp [ClassDefinition.classOfValue?, (hm.kind_iff hc _).mpr rfl, hc]

end ClassMachine
