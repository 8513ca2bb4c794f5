import ClassMachine.Proofs.Registration

/-!
# The names of levels

Each field that is installed on an instance is installed in the name of a class: the text of its
failure has this name, not the number of the class. The name is read once, when the level begins.
So it has to be shown that it is the name that the class was registered with, whatever has become
of the class since (`ClassMachine.Machine.NamesLevels`).

Main statement: `ClassMachine.levels_named`.
-/

namespace ClassMachine

variable {α : Type}

/-- Wherever the fields of a class are installed, the class was registered with the name that they
are installed in. -/
def Machine.NamesLevels (m : Machine) : Prop :=
  ∀ frame cls className target records,
    .installing frame cls className target records ∈ m.trace →
      ∃ c, .registered c ∈ m.trace ∧ c.id = cls ∧ c.displayName = className

/-- The law that it stays so. -/
def levelNamesLaw : Law where
  ended m m' := m.NamesLevels → m'.NamesLevels
  broken m m' := m.NamesLevels → m'.NamesLevels
  refl _ h := h
  trans h h' hm := h' (h hm)
  late h := h
  trans_broken h h' hm := h' (h hm)

/-- The effect does not note that the fields of a class are going to be installed. -/
def Effect.OpensNoLevel : Effect → Prop
  | .note (.installing ..) => False
  | _ => True

/-- What was registered stays registered. -/
theorem Machine.NamesLevels.of_named {m m' : Machine} (hm : m.NamesLevels) {new : List Event}
    (hnew : m'.trace = new ++ m.trace) (h : ∀ frame cls className target records,
      .installing frame cls className target records ∈ new →
        ∃ c, .registered c ∈ m.trace ∧ c.id = cls ∧ c.displayName = className) :
    m'.NamesLevels := by
  intro frame cls className target records hmem
  rw [hnew] at hmem ⊢
  obtain ⟨c, hc, hclass⟩ := (List.mem_append.mp hmem).elim (h _ _ _ _ _) (hm _ _ _ _ _)
  exact ⟨c, List.mem_append_right new hc, hclass⟩

theorem levelNamesLaw_allows {e : Effect} (h : e.OpensNoLevel) : levelNamesLaw.Allows e := by
  intro m hm
  obtain ⟨new, hnew, hnone⟩ : ∃ new, (e.apply m).trace = new ++ m.trace ∧
      ∀ frame cls className target records,
        .installing frame cls className target records ∉ new := by
    cases e with
    | note e =>
      refine ⟨[e], rfl, fun _ _ _ _ _ hmem => ?_⟩
      rw [← List.mem_singleton.mp hmem] at h
      exact h
    | relink => exact ⟨[.relinked _], rfl, by simp⟩
    | define => exact ⟨[], Effect.trace_apply_define .., by simp⟩
    | _ => exact ⟨[], rfl, by simp⟩
  exact hm.of_named hnew fun _ _ _ _ _ hmem => absurd hmem (hnone _ _ _ _ _)

/-- The effect leaves the registry alone, and opens no level. -/
def Effect.KeepsNames (e : Effect) : Prop :=
  e.KeepsRegistry ∧ e.OpensNoLevel

theorem Effect.IsClient.keepsNames {e : Effect} (h : e.IsClient) : e.KeepsNames := by
  refine ⟨h.keepsRegistry, ?_⟩
  cases e with
  | note e => cases e <;> first | exact trivial | exact h.elim
  | _ => trivial

theorem Effect.IsDefining.opensNoLevel {e : Effect} (h : e.IsDefining) : e.OpensNoLevel := by
  cases e with
  | note e => cases e <;> first | exact trivial | exact (h.elim id id).elim
  | _ => trivial

theorem Effect.IsReplacing.opensNoLevel {e : Effect} (h : e.IsReplacing) : e.OpensNoLevel := by
  cases e with
  | note e => cases e <;> first | exact trivial | exact (h.elim id id).elim
  | _ => trivial

theorem levelNamesLaw_allows_registry {e : Effect} (h : e.KeepsNames) :
    (registryLaw levelNamesLaw).Allows e :=
  registryLaw_allows h.1 (levelNamesLaw_allows h.2)

/-! ### Opening a level -/

/-- The name of a class that is there is the one that it was registered with. -/
theorem Machine.Coherent.registered_displayName {m : Machine} (hm : m.Coherent) {cls : ClassId}
    {c : Class} (hc : m.registry.class? cls = some c) :
    ∃ c₀, .registered c₀ ∈ m.trace ∧ c₀.id = cls ∧ c₀.displayName = c.displayName := by
  obtain ⟨c₀, hc₀, hid, rfl⟩ := hm.follows.known cls c hc
  exact ⟨c₀, List.mem_of_mem_filter hc₀, hid, rfl⟩

section Fields

variable {perform : Performer}
  (heval : ∀ e ctx, (perform (.eval e ctx)).Obeys (registryLaw levelNamesLaw))

include heval

/-- **The fields of a class are installed in its name.** -/
theorem installInstanceFields_named (this : ObjectId) (cls : ClassId) :
    (installInstanceFields perform this cls).Obeys (registryLaw levelNamesLaw) := by
  refine fun m => registryLaw_ensures fun hm => ?_
  rcases hc : m.registry.class? cls with _ | c
  · exact .bind_error (outcome_classAt_of_none hc)
      (registryLaw_note rfl (levelNamesLaw_allows (e := .note (.raised _)) trivial) m)
  refine .bind_ok (outcome_classAt_of_some hc) (.bind_ok (a := m) (n := m) rfl ?_)
  let e := Event.installing m.frames.head? cls c.displayName this c.instanceFields
  let m₁ := (Effect.note e).apply m
  have hopened : (registryLaw levelNamesLaw).ended m m₁ := by
    have htrace : m₁.trace = [e] ++ m.trace := rfl
    refine fun hm => ⟨.of_eq hm rfl (List.filter_cons_of_neg (p := Event.isRegistral) (a := e)
      Bool.false_ne_true), fun hnames => hnames.of_named htrace ?_⟩
    rintro _ _ _ _ _ hmem
    obtain ⟨rfl, rfl, rfl, rfl, rfl⟩ := Event.installing.inj (List.mem_singleton.mp hmem)
    exact hm.registered_displayName hc
  have hfields : MadeOf Effect.KeepsNames .none fun perform =>
      installFields perform (.instanceField cls c.displayName this) this c.instanceFields := by
    refine installFields_madeOf (fun r e he => ?_) (fun r e he => ?_) _
    · rcases he with he | ⟨v, rfl⟩
      · exact he.keepsNames
      · exact ⟨rfl, trivial⟩
    · rcases he with rfl | rfl | rfl <;> exact ⟨rfl, trivial⟩
  have hobeys := hfields.obeys_evaluations (fun _ => levelNamesLaw_allows_registry) heval
  exact .bind_ok (a := ⟨⟩) (n := m₁) rfl ((hobeys m₁).mono fun _ _ => .of_ended hopened)

end Fields

/-! ### All calls, all tasks -/

/-- What tells of the names of classes, or changes what is known of them. -/
inductive Operations.Naming : ∀ ⦃α : Type⦄, (Performer → Action α) → Prop
  | fields (this : ObjectId) (cls : ClassId) :
    Naming fun perform => installInstanceFields perform this cls
  | task (cls newTarget : ClassId) (args : List Value) :
    Naming fun perform => perform (.construct cls newTarget args)
  | defineClass (d : ClassDefinition) : Naming fun perform => defineClass perform d
  | replace (id : ClassId) (field : String) (initializer : Option Expr) :
    Naming fun _ => replaceInitializer id field initializer

instance : Hosts Effect.KeepsNames .Naming :=
  .of_client fun _ => Effect.IsClient.keepsNames

instance : HostsFrames Effect.KeepsNames .Naming where
  frame _ := ⟨trivial, trivial⟩
  superReturned _ _ := ⟨rfl, trivial⟩
  bodyEntered _ _ _ := ⟨rfl, trivial⟩
  fields this cls := .operation (.fields this cls)

theorem constructFor_naming (settings : Settings) (cls newTarget : ClassId) (args : List Value) :
    MadeOf Effect.KeepsNames .Naming fun perform =>
      constructFor settings perform cls newTarget args := by
  refine constructFor_madeOf settings (fun e he => ?_)
    (runConstructor_hosted (fun _ _ _ => .operation (.task ..)) cls
      (allocate_madeOf newTarget (fun _ => Effect.IsClient.keepsNames)
        (fun _ => ⟨trivial, trivial⟩) fun _ => ⟨rfl, trivial⟩) args)
  cases e with
  | note e => cases e <;> first | exact ⟨rfl, trivial⟩ | exact he.elim
  | push | pop => exact ⟨trivial, trivial⟩
  | _ => exact he.elim

theorem call_naming (settings : Settings) (c : Call α) :
    MadeOf Effect.KeepsNames .Naming fun perform => c.run settings perform :=
  call_hosted (fun _ _ _ => .operation (.task ..))
    (fun _ _ => .bind (announceConstruction_hosted fun _ => ⟨rfl, trivial⟩) fun _ =>
      .bind (constructFor_naming ..) fun _ => .bind (.note ⟨rfl, trivial⟩ trivial) fun _ => .pure _)
    (fun d => .operation (.defineClass d)) (fun _ _ _ => .operation (.replace ..)) c

/-- The contract that all tasks leave the names to the classes. -/
def levelNamesContract : Contract :=
  .ofLaws fun _ _ => registryLaw levelNamesLaw

section Tasks

variable {perform : Performer} (hp : perform.Keeps levelNamesContract)

include hp

theorem MadeOf.named {F : Performer → Action α} (hF : MadeOf Effect.KeepsNames .Naming F) :
    (F perform).Obeys (ClassMachine.registryLaw levelNamesLaw) := by
  have heval (e : Expr) (ctx : Context) := hp (.eval e ctx)
  refine hF.obeys (fun _ => levelNamesLaw_allows_registry) (fun β G hG => ?_) heval
  cases hG with
  | fields this cls => exact installInstanceFields_named heval this cls
  | task cls newTarget args => exact hp (.construct cls newTarget args)
  | defineClass d =>
    exact defineClass_registryLaw (fun _ he => levelNamesLaw_allows he.opensNoLevel) heval d
  | replace id field initializer =>
    exact replaceInitializer_registryLaw (fun _ he => levelNamesLaw_allows he.opensNoLevel)
      id field initializer

theorem call_named (settings : Settings) (c : Call α) :
    (c.run settings perform).Obeys (registryLaw levelNamesLaw) :=
  (call_naming settings c).named hp

/-- **Each level passes the contract on.** -/
theorem step_keeps_levelNames (settings : Settings) :
    (step settings perform).Keeps levelNamesContract := by
  intro β task
  cases task with
  | eval e ctx => exact (evaluateExpr_madeOf ctx (fun _ => call_naming settings) e).named hp
  | construct cls newTarget args => exact (constructFor_naming settings cls newTarget args).named hp

end Tasks

/-- **Fields are installed in the names of their classes** at all moments. -/
theorem levels_named (settings : Settings) :
    (∀ m, AtRest settings m → m.Coherent ∧ m.NamesLevels) ∧
      ∀ m, Reachable settings m → m.Coherent ∧ m.NamesLevels := by
  refine Contract.moments _ _ (fun _ hp => step_keeps_levelNames hp settings)
    ⟨Machine.initial_coherent, by simp [Machine.NamesLevels, Machine.initial]⟩
    (fun m h => ⟨⟨h.1.follows, h.1.names⟩, h.2⟩) (fun e m r m' hm h => ?_)
    (fun e m m' hm h => ?_) fun e m he hm => ?_
  · obtain ⟨hsettles, hnames⟩ := h hm.1
    exact ⟨hsettles.coherent, hnames hm.2⟩
  · obtain ⟨hcontinues, hnames⟩ := h hm.1
    exact ⟨hcontinues.coherent, hnames hm.2⟩
  · obtain ⟨hsettles, hnames⟩ := levelNamesLaw_allows_registry he.keepsNames m hm.1
    exact ⟨hsettles.coherent, hnames hm.2⟩

theorem names_of_moment {settings : Settings} {m : Machine}
    (hm : AtRest settings m ∨ Reachable settings m) : m.NamesLevels := by
  obtain ⟨hrest, hmoment⟩ := levels_named settings
  exact hm.elim (fun hm => (hrest m hm).2) fun hm => (hmoment m hm).2

end ClassMachine
