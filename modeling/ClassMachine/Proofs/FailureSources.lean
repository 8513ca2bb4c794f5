import ClassMachine.Proofs.Failures
import ClassMachine.Proofs.Steps

/-!
# Where failures come from

A step fails for one of two reasons (`ClassMachine.Source`): it has raised a fault after all had
gone well up to there, or a step inside it has failed. In the second case the failure goes on as it
is. A stage, and no other step, puts one layer on what it fails with
(`ClassMachine.Step.source`). And no step but code of clients goes on after a step inside it has
failed (`ClassMachine.Step.succeedsStrictly`).

Both follow from what the operations are put together from (`ClassMachine.Passes`). Constructions
are looked at by themselves, since they take off a frame before a failure goes on.
-/

namespace ClassMachine

variable {α β : Type}

/-! ### Sources of failures -/

/-- A registration is taken back. -/
def Event.IsWithdrawal (x : Event) : Prop :=
  ∃ id kept, x = .withdrawn id kept

/-- **Where a failure comes from**, by the trace at its end: all went well until the fault was
raised or a step of the given kind failed, and nothing but withdrawals came after that. -/
inductive Source (settings : Settings) (perform : Performer) (C : Step → Prop) (m : Machine) :
    Failure → List Event → Prop
  | raised {m₁ : Machine} {f : Fault} {undone : List Event}
      (hcalm : m.Reports (some (.ok ())) m₁) (hundone : ∀ x ∈ undone, x.IsWithdrawal) :
    Source settings perform C m (.ofFault f) (undone ++ .raised f :: m₁.trace)
  | inside {m₁ m₂ : Machine} {s : Step} {e : Failure} {undone : List Event} (hs : C s)
      (hcalm : m.Reports (some (.ok ())) m₁)
      (hfails : (s.run settings perform).outcome m₁ = (some (.error e), m₂))
      (hundone : ∀ x ∈ undone, x.IsWithdrawal) :
    Source settings perform C m e (undone ++ m₂.trace)

namespace Source

variable {settings : Settings} {perform : Performer} {C : Step → Prop} {m m' : Machine}
  {e : Failure} {T : List Event}

/-- The fault is what the trace ends with. -/
theorem fault {f : Fault} (hcalm : m.Reports (some (.ok ())) m') :
    Source settings perform C m (.ofFault f) (.raised f :: m'.trace) :=
  @raised _ _ _ _ _ _ [] hcalm (by simp)

/-- What has gone well before does not matter. -/
theorem after {a : α} (hm : m.Reports (some (.ok a)) m') (h : Source settings perform C m' e T) :
    Source settings perform C m e T := by
  cases h with
  | raised hcalm hundone => exact .raised (hm.after hcalm) hundone
  | inside hs hcalm hfails hundone => exact .inside hs (hm.after hcalm) hfails hundone

/-- Nor does what is taken back afterwards. -/
theorem undoing (h : Source settings perform C m e T) {undone : List Event}
    (hundone : ∀ x ∈ undone, x.IsWithdrawal) : Source settings perform C m e (undone ++ T) := by
  cases h with
  | raised hcalm h =>
    rw [← List.append_assoc]
    exact .raised hcalm fun x hx => (List.mem_append.mp hx).elim (hundone x) (h x)
  | inside hs hcalm hfails h =>
    rw [← List.append_assoc]
    exact .inside hs hcalm hfails fun x hx => (List.mem_append.mp hx).elim (hundone x) (h x)

end Source

/-- Every failure of the action has its source in a fault or in such a step. -/
structure Action.FailsBy (settings : Settings) (perform : Performer) (C : Step → Prop)
    (x : Action α) : Prop where
  reports : x.Reports
  source : ∀ m e m', x.outcome m = (some (.error e), m') →
    Source settings perform C m e m'.trace

namespace Action.FailsBy

variable {settings : Settings} {perform : Performer} {C : Step → Prop} {x : Action α}
  {f : α → Action β}

theorem breakOff : (breakOff : Action α).FailsBy settings perform C :=
  ⟨.breakOff, fun _ _ _ h => by cases h⟩

theorem of_does {A : Effect → Prop} (h : ∀ m, x.Does A m) : x.FailsBy settings perform C := by
  refine ⟨.of_does h, fun m e m' hm => ?_⟩
  cases h m with
  | answers _ h => cases h.symm.trans hm
  | raises _ h =>
    cases h.symm.trans hm
    exact .fault .refl

/-- A step by itself. -/
theorem of_step {s : Step} (hs : C s) (h : (s.run settings perform).Reports) :
    (s.run settings perform).FailsBy settings perform C := by
  refine ⟨h, fun m e m' hm => ?_⟩
  exact @Source.inside _ _ _ _ _ _ _ _ [] hs .refl hm (by simp)

/-- Where the second action fails, the first one has gone well. -/
theorem bind (hx : x.FailsBy settings perform C) (hf : ∀ a, (f a).FailsBy settings perform C) :
    (x >>= f).FailsBy settings perform C := by
  refine ⟨hx.reports.bind fun a => (hf a).reports, fun m e m' h => ?_⟩
  rw [outcome_bind] at h
  rcases hm : x.outcome m with ⟨_ | e₁ | a, m₁⟩ <;> rw [hm] at h
  · cases h
  · cases h
    exact hx.source m e m' hm
  · exact ((hf a).source m₁ e m' h).after (hx.reports.of_outcome hm)

/-- What was caught is over; the handler may fail by itself. -/
theorem attempt {g : Except Failure α → Action β} {handler : Failure → Action β}
    (hx : x.FailsBy settings perform C) (hok : ∀ a, (g (.ok a)).FailsBy settings perform C)
    (hhandler : ∀ e, (handler e).FailsBy settings perform C)
    (herror : ∀ e, g (.error e) = note (.caught e) >>= fun _ => handler e) :
    (observe x >>= g).FailsBy settings perform C := by
  refine ⟨hx.reports.attempt (fun a => (hok a).reports) (fun e => (hhandler e).reports) herror,
    fun m e m' h => ?_⟩
  rw [outcome_bind, outcome_observe] at h
  rcases hm : x.outcome m with ⟨_ | e₁ | a, m₁⟩ <;> rw [hm] at h
  · cases h
  · -- what the handler fails with comes after a failure that is over
    have hhandled : (g (.error e₁)).outcome m₁ = (some (.error e), m') := h
    rw [herror] at hhandled
    exact ((hhandler e₁).source _ e m' hhandled).after ((hx.reports.of_outcome hm).caught ())
  · exact ((hok a).source m₁ e m' h).after (hx.reports.of_outcome hm)

/-- What is taken back is noted on top of what the failure has left. -/
theorem undoing {g : Except Failure α → Action β} {undo : Action Unit}
    (hx : x.FailsBy settings perform C) (hok : ∀ a, (g (.ok a)).FailsBy settings perform C)
    (hundo : ∀ m, ∃ es, (∀ e ∈ es, Effect.IsUndoing e) ∧
      undo.outcome m = (some (.ok ⟨⟩), Effect.applyAll es m))
    (herror : ∀ e, g (.error e) = undo >>= fun _ => throw e) :
    (observe x >>= g).FailsBy settings perform C := by
  refine ⟨hx.reports.undoing (fun a => (hok a).reports) hundo herror, fun m e m' h => ?_⟩
  rw [outcome_bind, outcome_observe] at h
  rcases hm : x.outcome m with ⟨_ | e₁ | a, m₁⟩ <;> rw [hm] at h
  · cases h
  · obtain ⟨es, hes, hundo⟩ := hundo m₁
    obtain ⟨undone, hundone, hwithdrawn⟩ := Effect.trace_applyAll
      (fun e he m => Effect.IsUndoing.trace_apply (hes e he) m) m₁
    have hthrown : (g (.error e₁)).outcome m₁ = (some (.error e), m') := h
    rw [herror, outcome_bind, hundo] at hthrown
    cases hthrown
    rw [hundone]
    exact (hx.source _ _ _ hm).undoing hwithdrawn
  · exact ((hok a).source m₁ e m' h).after (hx.reports.of_outcome hm)

end Action.FailsBy

/-- **What is put together fails by its parts**, if it begins no activity by itself. -/
theorem MadeOf.failsBy {A : Effect → Prop} {X : Operations} {settings : Settings}
    {p perform : Performer} {C : Step → Prop} {F : Performer → Action α} (hF : MadeOf A X F)
    (hA : ∀ e, A e → e.IsLocal)
    (hX : ∀ ⦃β : Type⦄ (G : Performer → Action β), X G → (G p).FailsBy settings perform C)
    (heval : ∀ e ctx, (p (.eval e ctx)).FailsBy settings perform C) :
    (F p).FailsBy settings perform C := by
  induction hF with
  | steps _ h => exact .of_does h
  | breakOff => exact .breakOff
  | eval e ctx => exact heval e ctx
  | operation h => exact hX _ h
  | bind _ _ hF hG => exact hF.bind hG
  | read _ _ hF => exact .bind (.of_does (Action.does_get A)) hF
  | during h => exact absurd rfl ((hA _ (h _ (.inl rfl))).2 _)
  | attempt _ _ _ _ herror hF hok hH => exact hF.attempt hok hH fun e => congrFun (herror e) p
  | undoing _ _ _ hundo herror hF hok =>
    refine hF.undoing hok (fun m => ?_) fun e => congrFun (herror e) p
    obtain ⟨es, hes, h⟩ := hundo m
    exact ⟨es, fun e he => (hes e he).2, h⟩
  | popping hpop => exact absurd rfl (hA _ hpop).1

/-- **What is put together from steps fails by them.** -/
theorem Passes.failsBy {settings : Settings} {perform : Performer} {C : Step → Prop}
    {F : Performer → Action α} (hF : Passes settings C F)
    (hreports : ∀ s, C s → (s.run settings perform).Reports) :
    (F perform).FailsBy settings perform C := by
  induction hF with
  | @alone _ x hx =>
    exact hx.failsBy (p := fun _ _ => breakOff) (fun _ => id) (fun _ _ h => h.elim)
      fun _ _ => .breakOff
  | step hs => exact .of_step hs (hreports _ hs)
  | bind _ _ hF hG => exact hF.bind hG
  | read _ hF => exact .bind (.of_does (Action.does_get fun _ => True)) hF
  | undoing _ _ hundo herror hF hok =>
    exact hF.undoing hok hundo fun e => congrFun (herror e) perform

/-! ### Steps that fail -/

namespace Step

/-- The failure of the step, given what goes wrong in it: a stage adds its layer. -/
def within (e : Failure) : Step → Failure
  | stage activity => e.within activity.context
  | _ => e

/-- The machine on which the step does its work: a stage notes its beginning. -/
def begun (m : Machine) : Step → Machine
  | stage activity => (Effect.note (.began activity)).apply m
  | _ => m

/-- The trace at the end of the step that fails: a stage notes that too. -/
def ended (T : List Event) : Step → List Event
  | stage activity => .failed activity :: T
  | _ => T

end Step

section Sources

variable {settings : Settings} {perform : Performer}
  (hframes : perform.Keeps (framesContract settings)) (hreports : perform.Keeps reportsContract)

include hframes hreports

theorem Step.reports (s : Step) : (s.run settings perform).Reports := by
  induction s using Step.induction with
  | h s inside =>
    have of_passes {α : Type} {F : Performer → Action α} (hs : ¬ s.IsTask)
        (hF : Passes settings (Inside · s) F) : (F perform).Reports :=
      (hF.failsBy (inside hs)).reports
    cases s with
    | task t => exact hreports t
    | call c => exact call_reports hframes hreports c
    | construction cls newTarget args =>
      exact constructFor_reports hframes hreports cls newTarget args
    | body cls this code args => exact of_passes id (body_passes cls this code args)
    | function f receiver args => exact of_passes id (function_passes f receiver args)
    | stage activity =>
      obtain ⟨β, F, g, hF, hrun⟩ := stage_passes settings activity
      rw [hrun]
      exact (of_passes id hF).during.bind fun _ => .of_does fun _ =>
        .answers (A := fun _ => True) (List.forall_mem_nil _) rfl

/-- A construction fails by its depth, by its constructor, or because no object was bound. -/
theorem constructFor_failsBy (cls newTarget : ClassId) (args : List Value) :
    (constructFor settings perform cls newTarget args).FailsBy settings perform
      (Step.Inside · (.construction cls newTarget args)) := by
  refine ⟨constructFor_reports hframes hreports cls newTarget args, fun m e m' h => ?_⟩
  have hcalled : m.Reports (some (.ok ())) ((Effect.note (.called cls newTarget)).apply m) :=
    .note (e := .called cls newTarget) trivial rfl
  have hbegun : m.Reports (some (.ok ())) (m.begun cls newTarget) := hcalled
  have hrun : (runConstructor perform cls newTarget args).FailsBy settings perform
      (Step.Inside · (.construction cls newTarget args)) :=
    (runConstructor_passes (fun _ _ _ => .field) (fun _ _ => .body) .super).failsBy fun s _ =>
      s.reports hframes hreports
  rcases Nat.lt_or_ge m.frames.length settings.maxDepth with hroom | hfull
  · rw [outcome_constructFor hroom] at h
    rcases hm : (runConstructor perform cls newTarget args).outcome (m.begun cls newTarget) with
      ⟨_ | r, m₁⟩ <;> rw [hm] at h
    · cases h
    -- the frame is still there to be taken off
    have hown := runConstructor_ownFrameLaw hframes cls newTarget args (m.begun cls newTarget)
    rw [Action.Ensures, hm] at hown
    obtain ⟨f, hf⟩ := hown.1 _ m.frames rfl
    cases r with
    | error e₁ =>
      cases (outcome_finishConstruction_of_error hf e₁).symm.trans h
      exact (hrun.source _ _ _ hm).after hbegun
    | ok _ =>
      have hunbound := (outcome_finishConstruction_of_ok hf).symm.trans h
      have hsource : Source settings perform (Step.Inside · (.construction cls newTarget args)) m
          (.ofFault .neverBound) (.raised .neverBound :: m₁.trace) :=
        .fault (hbegun.after (hrun.reports.of_outcome hm))
      split at hunbound <;> cases hunbound
      exact hsource
  · cases (outcome_constructFor_of_full hfull perform cls newTarget args).symm.trans h
    exact .fault hcalled

/-- **The source of a failing step**: a fault or a failing step inside it, and a stage adds its
layer to what comes from there, while all other steps leave it as it is. -/
theorem Step.source {s : Step} (hs : ¬ s.IsTask) {m m' : Machine} {e : Failure}
    (h : (s.run settings perform).outcome m = (some (.error e), m')) :
    ∃ e' T, Source settings perform (Inside · s) (s.begun m) e' T ∧ e = s.within e' ∧
      m'.trace = s.ended T := by
  have of_failsBy {α : Type} {x : Action α} (hx : x.FailsBy settings perform (Inside · s))
      {n n' : Machine} {e' : Failure} (hn : x.outcome n = (some (.error e'), n')) :
      Source settings perform (Inside · s) n e' n'.trace := hx.source n e' n' hn
  have of_passes {α : Type} {F : Performer → Action α} (hF : Passes settings (Inside · s) F) :
      (F perform).FailsBy settings perform (Inside · s) :=
    hF.failsBy fun s' _ => s'.reports hframes hreports
  cases s with
  | task => exact absurd trivial hs
  | call c => exact ⟨e, _, (of_passes (call_passes c)).source _ _ _ h, rfl, rfl⟩
  | construction cls newTarget args =>
    exact ⟨e, _, (constructFor_failsBy hframes hreports cls newTarget args).source _ _ _ h, rfl,
      rfl⟩
  | body cls this code args =>
    exact ⟨e, _, (of_passes (body_passes cls this code args)).source _ _ _ h, rfl, rfl⟩
  | function f receiver args =>
    exact ⟨e, _, (of_passes (function_passes f receiver args)).source _ _ _ h, rfl, rfl⟩
  | stage activity =>
    obtain ⟨β, F, g, hF, hrun⟩ := stage_passes settings activity
    rw [hrun, outcome_bind, outcome_during] at h
    rcases hm : (F perform).outcome ((Effect.note (.began activity)).apply m) with
      ⟨_ | e' | b, m₁⟩ <;> rw [hm] at h
    · cases h
    · cases h
      exact ⟨e', m₁.trace, (of_passes hF).source _ _ _ hm, rfl, rfl⟩
    · cases h

/-- A task fails by the steps that are inside it one level below. -/
theorem task_source (t : Task α) {m m' : Machine} {e : Failure}
    (h : (step settings perform t).outcome m = (some (.error e), m')) :
    Source settings perform (Step.Inside · (.task t)) m e m'.trace := by
  cases t with
  | eval code ctx =>
    refine ((evaluateExpr_client ctx code).failsBy (fun _ => Effect.IsClient.isLocal) ?_
      fun e' ctx' => ?_).source m e m' h
    · rintro β _ ⟨c, rfl⟩
      exact .of_step (s := .call c) .call (Step.reports hframes hreports _)
    · exact .of_step (s := .task (.eval e' ctx')) .part (Step.reports hframes hreports _)
  | construct cls newTarget args =>
    exact (Action.FailsBy.of_step (s := .construction cls newTarget args) .constructor
      (Step.reports hframes hreports _)).source m e m' h

end Sources

/-! ### Steps that succeed -/

/-- A performer that is broken off where a task fails. -/
def Performer.strict (perform : Performer) : Performer := fun _ task => do
  match ← observe (perform task) with
  | .ok a => pure a
  | .error _ => breakOff

/-- With the performer, the operation succeeds only where no task fails in it. -/
def SucceedsStrictly (perform : Performer) (F : Performer → Action α) : Prop :=
  ∀ m a m', (F perform).outcome m = (some (.ok a), m') →
    (F perform.strict).outcome m = (some (.ok a), m')

theorem SucceedsStrictly.task (perform : Performer) (t : Task α) :
    SucceedsStrictly perform fun p => p t := by
  intro m a m' h
  simp only [Performer.strict, outcome_bind, outcome_observe, h]
  rfl

theorem SucceedsStrictly.bind {perform : Performer} {F : Performer → Action α}
    {G : α → Performer → Action β} (hF : SucceedsStrictly perform F)
    (hG : ∀ a, SucceedsStrictly perform (G a)) :
    SucceedsStrictly perform fun p => F p >>= fun a => G a p := by
  intro m b m' h
  obtain ⟨a, m₁, ha, hb⟩ := outcome_bind_eq_ok.mp h
  exact outcome_bind_eq_ok.mpr ⟨a, m₁, hF m a m₁ ha, hG a m₁ b m' hb⟩

/-- **What is put together from steps succeeds only where they do.** -/
theorem Passes.succeedsStrictly {settings : Settings} {perform : Performer} {C : Step → Prop}
    {F : Performer → Action α} (hF : Passes settings C F)
    (hsteps : ∀ s, C s → SucceedsStrictly perform fun p => s.run settings p) :
    SucceedsStrictly perform F := by
  induction hF with
  | alone => exact fun _ _ _ h => h
  | step hs => exact hsteps _ hs
  | bind _ _ hF hG => exact hF.bind hG
  | read _ hF => exact .bind (F := fun _ => get) (fun _ _ _ h => h) hF
  | @undoing _ _ F G undo _ _ hundo herror hF hok =>
    intro m b m' h
    rw [outcome_bind, outcome_observe] at h ⊢
    rcases hm : (F perform).outcome m with ⟨_ | e | a, m₁⟩ <;> rw [hm] at h
    · cases h
    · -- a failure goes on when everything is taken back
      have hthrown : (G (.error e) perform).outcome m₁ = (some (.ok b), m') := h
      obtain ⟨es, -, hundo⟩ := hundo m₁
      rw [herror, outcome_bind, hundo] at hthrown
      cases hthrown
    · rw [hF m a m₁ hm]
      exact hok a m₁ b m' h

theorem SucceedsStrictly.during {perform : Performer} {F : Performer → Action α}
    (hF : SucceedsStrictly perform F) (activity : Activity) :
    SucceedsStrictly perform fun p => during activity (F p) := by
  intro m a m' h
  rw [outcome_during] at h ⊢
  rcases hm : (F perform).outcome ((Effect.note (.began activity)).apply m) with
    ⟨_ | e | b, m₁⟩ <;> rw [hm] at h
  · cases h
  · cases h
  · rw [hF _ b m₁ hm]
    exact h

/-- After a constructor that has failed, a construction cannot succeed. -/
theorem outcome_finishConstruction_error_ne_ok (e : Failure) (m m' : Machine) (o : ObjectId) :
    (finishConstruction (.error e)).outcome m ≠ (some (.ok o), m') := by
  rcases hm : m.frames with _ | ⟨f, rest⟩
  · rw [finishConstruction, outcome_bind, outcome_popFrame, hm]
    simp
  · rw [outcome_finishConstruction_of_error hm]
    simp

theorem SucceedsStrictly.constructFor {settings : Settings} {perform : Performer}
    {cls newTarget : ClassId} {args : List Value}
    (h : SucceedsStrictly perform fun p => runConstructor p cls newTarget args) :
    SucceedsStrictly perform fun p => constructFor settings p cls newTarget args := by
  intro m o m' hm
  rcases Nat.lt_or_ge m.frames.length settings.maxDepth with hroom | hfull
  · rw [outcome_constructFor hroom] at hm ⊢
    rcases hrun : (runConstructor perform cls newTarget args).outcome (m.begun cls newTarget) with
      ⟨_ | e | _, m₁⟩ <;> rw [hrun] at hm
    · cases hm
    · exact absurd hm (outcome_finishConstruction_error_ne_ok e m₁ m' o)
    · rw [h _ _ m₁ hrun]
      exact hm
  · rw [outcome_constructFor_of_full hfull] at hm
    cases hm

/-- **Nothing is passed over.** A step succeeds only where no task fails in it. -/
theorem Step.succeedsStrictly (settings : Settings) (perform : Performer) (s : Step) :
    SucceedsStrictly perform fun p => s.run settings p := by
  induction s using Step.induction with
  | h s inside =>
    cases s with
    | task t => exact .task perform t
    | call c => exact (call_passes c).succeedsStrictly (inside id)
    | construction cls newTarget args =>
      exact .constructFor ((runConstructor_passes (fun _ _ _ => .field) (fun _ _ => .body)
        .super).succeedsStrictly (inside id))
    | body cls this code args => exact (body_passes cls this code args).succeedsStrictly (inside id)
    | function f receiver args =>
      exact (function_passes f receiver args).succeedsStrictly (inside id)
    | stage activity =>
      obtain ⟨β, F, g, hF, hrun⟩ := stage_passes settings activity
      simp only [hrun]
      exact ((hF.succeedsStrictly (inside id)).during activity).bind fun _ _ _ _ h => h

end ClassMachine
