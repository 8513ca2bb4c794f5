import ClassMachine.Proofs.Persistence

/-!
# Classes and their objects

A class is told of in two ways: the registry has it under its number and knows the number of
its parent, and the store has its two objects, which are linked to those of the parent. The
two agree at all moments (`ClassMachine.Machine.Housed`), because the objects are made for the
class before any client code can get at them, and because what matters of them cannot be taken
from them: the kind of the class object, its fixed property `prototype`, and, unless a client
redirects one of them, the two links.

| what agrees | why it stays so |
|---|---|
| the kind of the class object | objects keep their kinds |
| its property `prototype` | objects keep properties that are not configurable |
| the links to the objects of the parent | objects keep their links, unless redirected |
| whose objects they are | they are made one right after the other, for this class |

Main statement: `ClassMachine.class_graph`.
-/

namespace ClassMachine

variable {α : Type}

/-! ### The objects of one class -/

namespace Machine

/-- The object is linked so, unless a client has redirected the link. -/
def LinkedTo (m : Machine) (o : ObjectId) (prototype : Option ObjectId) : Prop :=
  (m.store.object o).prototype = prototype ∨ .relinked o ∈ m.trace

/-- The two objects of the class are there, and they are what they were made as. -/
structure Houses (m : Machine) (c : Class) : Prop where
  adjacent : c.classObject = c.prototype + 1
  born : c.classObject < m.store.size
  ordinary : (m.store.object c.prototype).kind = .ordinary
  kind : (m.store.object c.classObject).kind = .classObject c.id
  fixed : (m.store.object c.classObject).property? "prototype" =
    some (.data (.ref c.prototype) false false false)
  /-- The objects are linked to those of the parent, which are older. -/
  parent : ∃ parent : Option Class, parent.map Class.id = c.parent ∧
    (∀ p ∈ parent, .registered p ∈ m.trace ∧ p.prototype < c.prototype) ∧
    m.LinkedTo c.prototype (parent.map Class.prototype) ∧
    m.LinkedTo c.classObject (parent.map Class.classObject)

/-- All classes that were registered have their objects. -/
def Housed (m : Machine) : Prop :=
  ∀ c, .registered c ∈ m.trace → m.Houses c

variable {m m' : Machine} {c : Class}

theorem Persists.of_eq (hstore : m'.store = m.store) (htrace : m'.trace = m.trace) :
    m.Persists m' :=
  ⟨Nat.le_of_eq (by rw [hstore]), fun _ _ => by rw [hstore], fun _ _ _ _ hp _ => by rwa [hstore],
    [], htrace, fun _ _ => .inl (by rw [hstore])⟩

theorem Persists.linkedTo (h : m.Persists m') {o : ObjectId} (ho : o < m.store.size)
    {prototype : Option ObjectId} (hlinked : m.LinkedTo o prototype) :
    m'.LinkedTo o prototype := by
  rcases hlinked with hlinked | hrelinked
  · obtain ⟨new, hnew, hlink⟩ := h.link
    rcases hlink o ho with hsame | hrelinked
    · exact .inl (hsame.trans hlinked)
    · exact .inr (hnew ▸ List.mem_append_left _ hrelinked)
  · exact .inr (h.mem_trace hrelinked)

theorem Houses.prototype_lt (h : m.Houses c) : c.prototype < c.classObject := by
  rw [h.adjacent]
  exact Nat.lt_succ_self _

/-- A class keeps its objects. -/
theorem Houses.later (h : m.Houses c) (h' : m.Persists m') : m'.Houses c := by
  have hprototype : c.prototype < m.store.size := Nat.lt_trans h.prototype_lt h.born
  obtain ⟨parent, hid, hparent, hlink, hlink'⟩ := h.parent
  refine ⟨h.adjacent, Nat.lt_of_lt_of_le h.born h'.size, ?_, ?_, ?_, parent, hid,
    fun p hp => ⟨h'.mem_trace (hparent p hp).1, (hparent p hp).2⟩,
    h'.linkedTo hprototype hlink, h'.linkedTo h.born hlink'⟩
  · rw [h'.kind _ hprototype, h.ordinary]
  · rw [h'.kind _ h.born, h.kind]
  · exact h'.fixed _ h.born _ _ h.fixed rfl

/-! ### Distinctness -/

/-- A class object is that of one class only. -/
theorem Houses.eq_of_classObject (h : m.Houses c) {c' : Class} (h' : m.Houses c')
    (heq : c.classObject = c'.classObject) : c.id = c'.id := by
  have hkind := h.kind
  rw [heq, h'.kind] at hkind
  exact (ObjectKind.classObject.inj hkind).symm

/-- So is a prototype, since the class object is the object made next. -/
theorem Houses.eq_of_prototype (h : m.Houses c) {c' : Class} (h' : m.Houses c')
    (heq : c.prototype = c'.prototype) : c.id = c'.id :=
  h.eq_of_classObject h' (by rw [h.adjacent, h'.adjacent, heq])

/-- No class object is a prototype. -/
theorem Houses.classObject_ne_prototype (h : m.Houses c) {c' : Class} (h' : m.Houses c') :
    c.classObject ≠ c'.prototype := by
  intro heq
  have hkind := h.kind
  rw [heq, h'.ordinary] at hkind
  simp at hkind

end Machine

/-! ### The law -/

/-- The law of classes and their objects: objects keep what they keep, so classes keep their
objects. -/
def graphLaw : Law where
  ended m m' := m.Persists m' ∧ (m.Housed → m'.Housed)
  broken m m' := m.Persists m' ∧ (m.Housed → m'.Housed)
  refl m := ⟨.refl m, id⟩
  trans h h' := ⟨h.1.trans h'.1, h'.2 ∘ h.2⟩
  late h := h
  trans_broken h h' := ⟨h.1.trans h'.1, h'.2 ∘ h.2⟩

/-- The law says nothing of how an action has ended. -/
theorem graphLaw_holds {m m' : Machine} {r : Option (Except Failure α)} :
    graphLaw.Holds m r m' ↔ m.Persists m' ∧ (m.Housed → m'.Housed) := by
  cases r <;> rfl

/-- What no class is registered by leaves the classes with their objects. -/
theorem Machine.Housed.later {m m' : Machine} (h : m.Housed) (h' : m.Persists m')
    (hsame : ∀ c, .registered c ∈ m'.trace → .registered c ∈ m.trace) : m'.Housed :=
  fun c hc => (h c (hsame c hc)).later h'

/-- Only registering a class has to be looked at. -/
theorem graphLaw_allows {e : Effect} (h : ∀ c, e ≠ .note (.registered c)) :
    graphLaw.Allows e := by
  intro m
  refine ⟨e.persists_apply m, fun hm => hm.later (e.persists_apply m) fun c hc => ?_⟩
  cases e with
  | note e =>
    refine (List.mem_cons.mp hc).resolve_left ?_
    rintro rfl
    exact h c rfl
  | relink id => exact (List.mem_cons.mp hc).resolve_left (by simp)
  | define => rwa [Effect.trace_apply_define] at hc
  | _ => exact hc

theorem graphLaw_allows_keepsRegistry {e : Effect} (h : e.KeepsRegistry) : graphLaw.Allows e := by
  refine graphLaw_allows ?_
  rintro c rfl
  simp [Effect.KeepsRegistry, Event.isRegistral] at h

theorem graphLaw_allows_isReplacing {e : Effect} (h : e.IsReplacing) : graphLaw.Allows e := by
  refine graphLaw_allows ?_
  rintro c rfl
  simp [Effect.IsReplacing, Effect.IsClient, Event.IsClient, Event.IsReplacing] at h

/-! ### Making the objects -/

namespace Machine

variable {m : Machine} {d : ClassDefinition} {parent : Option Class}

/-- Making the objects of a class leaves all others as they are. -/
theorem persists_withHomes (m : Machine) (id : ClassId) (name : Option String)
    (parent : Option Class) : m.Persists (m.withHomes id name parent) where
  size := by simp
  kind o ho := by rw [object_withHomes_of_lt m id name parent ho]
  fixed o ho key p hp _ := by rwa [object_withHomes_of_lt m id name parent ho]
  link := ⟨[], rfl, fun o ho => .inl (by rw [object_withHomes_of_lt m id name parent ho])⟩

theorem prepared_graphLaw (m : Machine) (d : ClassDefinition) (parent : Option Class) :
    graphLaw.ended m (m.prepared d parent) := by
  have hnumbered : graphLaw.ended m (m.numbered d.displayName) :=
    graphLaw.trans (graphLaw_allows (e := .note (.defining d.displayName)) (by simp) m)
      (graphLaw.trans (graphLaw_allows (e := .draw) (by simp) _)
        (graphLaw_allows (e := .note (.numbered m.nextClass)) (by simp) _))
  have hhomes := persists_withHomes (m.numbered d.displayName) m.nextClass d.name parent
  exact graphLaw.trans hnumbered ⟨hhomes, fun h => h.later hhomes fun _ => id⟩

/-- **The objects of a class that is defined** are there as soon as they are made. -/
theorem houses_prepared (hm : m.Coherent) (hhoused : m.Housed) (hd : d.Accepted m parent)
    (fields : List DeclaredField) :
    (m.prepared d parent).Houses (d.toClass m.nextClass parent m.homes fields) := by
  have hclassObject : (m.prepared d parent).store.object m.homes.classObject =
      .ofClass m.nextClass d.name m.homes.prototype (parent.map Class.classObject) :=
    (m.numbered d.displayName).object_withHomes_classObject m.nextClass d.name parent
  have hprototype : (m.prepared d parent).store.object m.homes.prototype =
      { kind := .ordinary, prototype := parent.map Class.prototype } :=
    (m.numbered d.displayName).object_withHomes_prototype m.nextClass d.name parent
  refine ⟨rfl, ?_, congrArg Object.kind hprototype, congrArg Object.kind hclassObject, ?_, ?_⟩
  · exact Nat.lt_of_lt_of_eq (Nat.lt_succ_self _) (size_withHomes ..).symm
  · exact (congrArg (Object.property? · "prototype") hclassObject).trans
      (Object.property?_ofClass_prototype ..)
  · rcases hparent : parent with _ | p
    · subst hparent
      exact ⟨none, rfl, by simp, .inl (congrArg Object.prototype hprototype),
        .inl (congrArg Object.prototype hclassObject)⟩
    · -- the parent is as it was registered, but for its fields
      subst hparent
      obtain ⟨id, hp⟩ := d.parent?_eq_ok hd.2 rfl
      obtain ⟨p₀, hp₀, hid, rfl⟩ := hm.follows.known id p hp
      have hp₀ : .registered p₀ ∈ m.trace := List.mem_of_mem_filter hp₀
      have hborn := Nat.lt_trans (hhoused p₀ hp₀).prototype_lt (hhoused p₀ hp₀).born
      refine ⟨some p₀, rfl, ?_, .inl (congrArg Object.prototype hprototype),
        .inl (congrArg Object.prototype hclassObject)⟩
      rintro _ ⟨⟩
      exact ⟨(m.prepared_graphLaw d _).1.mem_trace hp₀, hborn⟩

end Machine

/-! ### Definitions -/

section Definition

variable {perform : Performer}
  (hp : ∀ ⦃β : Type⦄ (task : Task β), (perform task).Obeys (registryLaw graphLaw))

include hp

/-- A class that is ready to be registered has its objects. -/
theorem prepareClass_houses (d : ClassDefinition) {m : Machine} (hm : m.Coherent) :
    (prepareClass perform d).Ensures m fun r m' => graphLaw.Holds m r m' ∧
      ∀ c, r = some (.ok c) → m.Housed → m'.Houses c := by
  refine prepareClass_ensures (fun f _ => ⟨?_, by simp⟩) fun parent hd => ?_
  · exact graphLaw.trans (graphLaw_allows (e := .note (.defining d.displayName)) (by simp) m)
      (graphLaw_allows (e := .note (.raised f)) (by simp) _)
  · have hcollect : (collectFields perform m.nextClass d.displayName m.homes d.elements).Obeys
        (registryLaw graphLaw) :=
      MadeOf.registryLaw (fun _ => graphLaw_allows_keepsRegistry) hp
        ((collectFields_madeOf (X := .none) ..).mono (fun _ h => h.keepsRegistry)
          fun _ _ h => h.elim)
    refine (hcollect (m.prepared d parent)).mono fun r m' h => ?_
    have h := h.of_registryLaw (hm.prepared d parent)
    refine ⟨Law.holds_map.mpr (h.of_ended (m.prepared_graphLaw d parent)),
      fun c hc hhoused => ?_⟩
    obtain ⟨fields, -, rfl⟩ := eq_ok_of_map hc
    exact (Machine.houses_prepared hm hhoused hd fields).later (graphLaw_holds.mp h).1

/-- Launching a class that has its objects. -/
theorem launchClass_houses {c : Class} {m : Machine} (hm : (m.launched c).Coherent) :
    (launchClass perform c).Ensures m fun _ m' =>
      m.Persists m' ∧ (m.Housed → m.Houses c → m'.Housed) := by
  have hpersists : m.Persists (m.launched c) :=
    (Effect.persists_apply (.register c) m).trans (Effect.persists_apply _ _)
  have hlaunched (hhoused : m.Housed) (hc : m.Houses c) : (m.launched c).Housed := by
    intro c' hc'
    rcases List.mem_cons.mp hc' with he | hc'
    · obtain rfl := Event.registered.inj he
      exact hc.later hpersists
    · exact (hhoused c' hc').later hpersists
  have hstatic : (installFields perform (.staticField c.id c.displayName c.classObject)
      c.classObject c.staticFields).Obeys (registryLaw graphLaw) :=
    MadeOf.registryLaw (fun _ => graphLaw_allows_keepsRegistry) hp
      ((installFields_madeOf (A := Effect.KeepsRegistry) (X := .none)
        (fun _ _ h => h.isFraming.isConstructing.keepsRegistry)
        (fun _ _ h => h.keepsRegistry) _).mono (fun _ => id) fun _ _ h => h.elim)
  have hafter {m' : Machine} (h : graphLaw.ended (m.launched c) m') :
      m.Persists m' ∧ (m.Housed → m.Houses c → m'.Housed) :=
    ⟨hpersists.trans h.1, fun hhoused hc => h.2 (hlaunched hhoused hc)⟩
  refine launchClass_ensures ((hstatic (m.launched c)).mono fun _ _ h => h.of_registryLaw hm)
    (fun m' h => ?_) (fun e m' h => ?_) fun m' h => hafter h
  · have hnote := graphLaw_allows (e := .note (.completed c.id)) (by simp) m'
    exact hafter (graphLaw.trans h hnote)
  · have hwithdraw := graphLaw_allows (e := .withdraw c.id (m.registry.register c).1) (by simp) m'
    have hnote := graphLaw_allows
      (e := .note (.withdrawn c.id (m'.registry.hasSubclass c.id))) (by simp)
    exact hafter (graphLaw.trans h (graphLaw.trans hwithdraw (hnote _)))

theorem defineClass_graphLaw (d : ClassDefinition) :
    (defineClass perform d).Obeys (registryLaw graphLaw) := by
  have heval (e : Expr) (ctx : Context) : (perform (.eval e ctx)).Obeys (registryLaw .trivial) :=
    (hp (.eval e ctx)).mono (fun _ _ h hm => ⟨(h hm).1, trivial⟩)
      fun _ _ h hm => ⟨(h hm).1, trivial⟩
  refine fun m => registryLaw_of_trivial
    (defineClass_registryLaw (fun _ _ _ => trivial) heval d m) fun hm => ?_
  refine ((prepareClass_fresh (L := .trivial) (fun _ _ _ => trivial) heval d hm).and
    (prepareClass_houses hp d hm)).bind (fun c m₁ _ h => ?_) (fun _ _ h => h.2.1) fun _ h => h.2.1
  obtain ⟨⟨hlaw, hfresh⟩, hgraph, hhouses⟩ := h
  have hlaunched := ((hfresh c rfl).2.launched (hlaw hm).1.coherent).coherent
  refine (launchClass_houses hp hlaunched).mono fun r m₂ h₂ => ?_
  exact graphLaw_holds.mpr ⟨hgraph.1.trans h₂.1, fun hhoused =>
    h₂.2 (hgraph.2 hhoused) (hhouses c rfl hhoused)⟩

end Definition

/-! ### Classes and their objects at all moments -/

/-- **Each level passes the contract on.** -/
theorem step_keeps_graph (settings : Settings) {perform : Performer}
    (hp : perform.Keeps (.ofLaws fun _ _ => registryLaw graphLaw)) :
    (step settings perform).Keeps (.ofLaws fun _ _ => registryLaw graphLaw) := fun _ =>
  step_obeys_registryLaw (fun _ => graphLaw_allows_keepsRegistry) hp
    (fun _ => graphLaw_allows_isReplacing) (fun d => defineClass_graphLaw hp d) settings

/-- **Classes have their objects at all moments.** -/
theorem graph_moments (settings : Settings) :
    (∀ m, AtRest settings m → m.Coherent ∧ m.Housed) ∧
      ∀ m, Reachable settings m → m.Coherent ∧ m.Housed := by
  refine Contract.moments _ _ (fun _ => step_keeps_graph settings) ?_ ?_ ?_ ?_ ?_
  · exact ⟨Machine.initial_coherent, by simp [Machine.Housed, Machine.initial]⟩
  · rintro m ⟨hm, hhoused⟩
    have hclear : m.Persists { m with log := [] } := .of_eq rfl rfl
    exact ⟨⟨hm.follows, hm.names⟩, hhoused.later hclear fun _ => id⟩
  · rintro e m r m' ⟨hm, hhoused⟩ h
    obtain ⟨hsettles, hgraph⟩ := h hm
    exact ⟨hsettles.coherent, hgraph.2 hhoused⟩
  · rintro e m m' ⟨hm, hhoused⟩ h
    obtain ⟨hcontinues, hgraph⟩ := h hm
    exact ⟨hcontinues.coherent, hgraph.2 hhoused⟩
  · rintro e m he ⟨hm, hhoused⟩
    have he := he.keepsRegistry
    obtain ⟨hsettles, hgraph⟩ := registryLaw_allows he (graphLaw_allows_keepsRegistry he) m hm
    exact ⟨hsettles.coherent, hgraph.2 hhoused⟩

theorem housed_of_moment {settings : Settings} {m : Machine}
    (hm : AtRest settings m ∨ Reachable settings m) : m.Coherent ∧ m.Housed :=
  hm.elim ((graph_moments settings).1 m) ((graph_moments settings).2 m)

/-- The object of which the event redirects the link. -/
def Event.relinked? : Event → Option ObjectId
  | relinked o => some o
  | _ => none

namespace Machine

/-- No client has ever redirected the link of an object. -/
def LinksKept (m : Machine) : Prop :=
  ∀ e ∈ m.trace, e.relinked? = none

instance (m : Machine) : Decidable m.LinksKept :=
  inferInstanceAs (Decidable (∀ e ∈ m.trace, e.relinked? = none))

variable {m : Machine}

theorem LinkedTo.prototype_eq {o : ObjectId} {prototype : Option ObjectId}
    (h : m.LinkedTo o prototype) (hkept : m.LinksKept) :
    (m.store.object o).prototype = prototype :=
  h.resolve_right fun ho => by simpa [Event.relinked?] using hkept _ ho

/-- The objects of the class are linked to those of its parent. -/
def LinkedToParent (m : Machine) (c : Class) : Prop :=
  match c.parent with
  | some parent => ∃ p, m.registry.class? parent = some p ∧
      (m.store.object c.prototype).prototype = some p.prototype ∧
      (m.store.object c.classObject).prototype = some p.classObject
  | none => (m.store.object c.prototype).prototype = none ∧
      (m.store.object c.classObject).prototype = none

/-- A class is there as it was registered, but for its fields, and has its objects. -/
theorem Coherent.houses (hm : m.Coherent) (hhoused : m.Housed) {id : ClassId} {c : Class}
    (hc : m.registry.class? id = some c) : m.Houses c := by
  obtain ⟨c₀, hc₀, -, rfl⟩ := hm.follows.known id c hc
  have h := hhoused c₀ (List.mem_of_mem_filter hc₀)
  exact ⟨h.adjacent, h.born, h.ordinary, h.kind, h.fixed, h.parent⟩

theorem Coherent.linkedToParent (hm : m.Coherent) (hhoused : m.Housed) (hkept : m.LinksKept)
    {id : ClassId} {c : Class} (hc : m.registry.class? id = some c) : m.LinkedToParent c := by
  obtain ⟨parent, hparent, hregistered, hprototype, hclassObject⟩ :=
    (hm.houses hhoused hc).parent
  have hprototype := hprototype.prototype_eq hkept
  have hclassObject := hclassObject.prototype_eq hkept
  cases parent with
  | none =>
    obtain hnone : c.parent = none := hparent.symm
    rw [LinkedToParent, hnone]
    exact ⟨hprototype, hclassObject⟩
  | some p₀ =>
    obtain hsome : c.parent = some p₀.id := hparent.symm
    rw [LinkedToParent, hsome]
    -- the parent is there, as it was registered
    obtain ⟨p, hp⟩ := Option.isSome_iff_exists.mp (hm.follows.parent id c p₀.id hc hsome)
    obtain ⟨p₁, hp₁, hid, rfl⟩ := hm.follows.known p₀.id p hp
    have hp₀ : .registered p₀ ∈ m.chronicle :=
      List.mem_filter.mpr ⟨(hregistered p₀ rfl).1, rfl⟩
    obtain rfl := hm.follows.registered_unique hp₁ hp₀ hid
    exact ⟨_, hp, hprototype, hclassObject⟩

/-- The registry and the store agree on the classes. -/
structure GraphAgrees (m : Machine) : Prop where
  /-- The class object is of the kind of its class. -/
  kind : ∀ id c, m.registry.class? id = some c →
    (m.store.object c.classObject).kind = .classObject id
  /-- The class object has the prototype for good. -/
  fixed : ∀ id c, m.registry.class? id = some c →
    (m.store.object c.classObject).property? "prototype" =
      some (.data (.ref c.prototype) false false false)
  /-- Different classes have different objects. -/
  distinct : ∀ id c id' c', m.registry.class? id = some c → m.registry.class? id' = some c' →
    id ≠ id' → c.prototype ≠ c'.prototype ∧ c.classObject ≠ c'.classObject
  /-- No class object is a prototype, of the same class or of another one. -/
  apart : ∀ id c id' c', m.registry.class? id = some c → m.registry.class? id' = some c' →
    c.classObject ≠ c'.prototype
  /-- As long as clients redirect no links, the objects are linked to those of the parent. -/
  links : m.LinksKept → ∀ id c, m.registry.class? id = some c → m.LinkedToParent c

end Machine

/-- **The registry and the store agree on the classes** at all moments of a program, whatever
the program has tried to do to their objects. -/
theorem class_graph (settings : Settings) (m : Machine)
    (hm : AtRest settings m ∨ Reachable settings m) : m.GraphAgrees := by
  obtain ⟨hcoherent, hhoused⟩ := housed_of_moment hm
  have houses {id : ClassId} {c : Class} (hc : m.registry.class? id = some c) :
      m.Houses c ∧ c.id = id := ⟨hcoherent.houses hhoused hc, hcoherent.follows.class?_id hc⟩
  constructor
  case kind =>
    intro id c hc
    obtain ⟨h, rfl⟩ := houses hc
    exact h.kind
  case fixed => exact fun id c hc => (houses hc).1.fixed
  case distinct =>
    intro id c id' c' hc hc' hne
    obtain ⟨h, rfl⟩ := houses hc
    obtain ⟨h', rfl⟩ := houses hc'
    exact ⟨fun heq => hne (h.eq_of_prototype h' heq), fun heq => hne (h.eq_of_classObject h' heq)⟩
  case apart => exact fun id c id' c' hc hc' =>
    (houses hc).1.classObject_ne_prototype (houses hc').1
  case links => exact fun hkept id c hc => hcoherent.linkedToParent hhoused hkept hc

/-- A class with a parent, and attempts to take the prototype from its class object:
`c = class extends (class {}) { static prototype() {} }` would fail, so the client goes on with
`c = class extends (class {}) {}`, assigns to `c.prototype`, redefines it, and deletes it. -/
def robbedClass : Expr :=
  let parent : Expr := .classDefinition
    { name := none, heritage := none, constructor := none, elements := [] }
  let child (elements : List ElementExpr) : Expr := .classDefinition
    { name := none, heritage := some (.primitive .classObject [parent]), constructor := none,
      elements }
  let c : Expr := .primitive .register [.literal (.str "c")]
  let prototype : Expr := .literal (.str "prototype")
  .sequence
    [.attempt (child [.method "prototype" .method true "" (.literal .undefined)]) none,
      .assign "c" (.primitive .classObject [child []]),
      .attempt (.reentry .set [c, prototype, .literal .null]) none,
      .attempt (.primitive .createProperty [c, prototype, .literal .null]) none,
      .primitive .delete [c, prototype]]

/-- After these attempts there are three classes; the class with a parent is the last one. -/
theorem class_graph_of_robbedClass :
    ∃ m, (AtRest {} m ∧ m.LinksKept ∧
      ∃ c, m.registry.class? 4 = some c ∧ c.parent = some 3) ∧ m.GraphAgrees := by
  have hrun : ((runStep {} 9 robbedClass .initial).any fun p =>
      decide p.2.LinksKept && (p.2.registry.class? 4).any fun c => c.parent == some 3) = true := by
    decide +kernel
  obtain ⟨⟨report, m⟩, hm, h⟩ := (Option.any_eq_true ..).mp hrun
  obtain ⟨hkept, hclass⟩ := (Bool.and_eq_true ..).mp h
  obtain ⟨c, hc, hparent⟩ := (Option.any_eq_true ..).mp hclass
  have hm : AtRest {} m := .step .initial hm
  exact ⟨m, ⟨hm, of_decide_eq_true hkept, c, hc, beq_iff_eq.mp hparent⟩,
    class_graph {} m (.inl hm)⟩

end ClassMachine
