import ClassMachine.Proofs.DepthLimit
import ClassMachine.Proofs.Persistence

/-!
# What the verbosity decides

The verbosity is about what a log shows. But the announcement of a construction has the name of
the class in it, so a machine that shows announcements looks the class up before anything else,
and one that shows none does so in the frame of the construction, for which there has to be room.
If there is no such class, both fail in the same way, unless there is no room: then one machine
fails because there is no class of that number, and the other because it is at its depth.

That is the only difference. Two runs under verbosities of both kinds are the same, except that
the one notes a call of a constructor that the other does not come to; and they are the same up
to the moment at which they part, at the construction of an unknown class in full depth
(`ClassMachine.Settings.Parted`). Whatever reads the machine does not read its trace, and so the
calls noted make no difference for what comes next (`ClassMachine.agreement`).

Main statement: `ClassMachine.verbosity_law`.
-/

namespace ClassMachine

variable {α β : Type}

/-! ### Machines that are alike -/

/-- The events that do not depend on the verbosity. -/
def withoutCalls (T : List Event) : List Event :=
  T.filter fun e => !e.isCall

theorem withoutCalls_append (T T' : List Event) :
    withoutCalls (T ++ T') = withoutCalls T ++ withoutCalls T' :=
  List.filter_append ..

/-- The machine without the calls that it has noted. -/
def Machine.uncalled (m : Machine) : Machine :=
  { m with trace := withoutCalls m.trace }

/-- The machines are the same, with the same trace apart from calls of constructors. -/
def Machine.Alike (m m' : Machine) : Prop :=
  m.uncalled = m'.uncalled

namespace Machine.Alike

variable {m m' : Machine}

theorem congr (h : m.Alike m') (f : Machine → β) : f m.uncalled = f m'.uncalled :=
  congrArg f h

theorem untraced_eq (h : m.Alike m') : m.untraced = m'.untraced :=
  h.congr Machine.untraced

theorem trace_eq (h : m.Alike m') : withoutCalls m.trace = withoutCalls m'.trace :=
  h.congr Machine.trace

theorem registry_eq (h : m.Alike m') : m.registry = m'.registry :=
  h.congr Machine.registry

theorem frames_eq (h : m.Alike m') : m.frames = m'.frames :=
  h.congr Machine.frames

theorem log_eq (h : m.Alike m') : m.log = m'.log :=
  h.congr Machine.log

theorem mk (huntraced : m.untraced = m'.untraced)
    (htrace : withoutCalls m.trace = withoutCalls m'.trace) : m.Alike m' := by
  have h := congrArg (fun n : Machine => { n with trace := withoutCalls m.trace }) huntraced
  unfold Alike uncalled
  rw [← htrace]
  exact h

/-- More may be noted in both of them, and calls in one of them alone. -/
theorem noted (h : m.Alike m') (new new' : List Event)
    (hnew : withoutCalls new = withoutCalls new') :
    Machine.Alike { m with trace := new ++ m.trace } { m' with trace := new' ++ m'.trace } := by
  refine .mk h.untraced_eq ?_
  rw [withoutCalls_append, withoutCalls_append, hnew, h.trace_eq]

end Machine.Alike

/-! ### Where runs part -/

/-- The traces have come to the moment at which an unknown class is to be constructed in full
depth. Up to there they agree, but for calls. Then the first one, of a machine that shows no
announcements, tells that the construction is too deep, and the second one, of a machine that does,
that there is no such class. -/
def Settings.Parts (quiet loud : Settings) (T T' : List Event) : Prop :=
  quiet.announces = false ∧ loud.announces = true ∧ ∃ cls before before',
    withoutCalls before = withoutCalls before' ∧
    .raised (.tooDeep quiet.maxDepth) :: .called cls cls :: before <:+ T ∧
    .raised (.noSuchClass cls) :: before' <:+ T'

/-- The machines have parted, one way or the other. -/
def Settings.Parted (s s' : Settings) (m m' : Machine) : Prop :=
  s.Parts s' m.trace m'.trace ∨ s'.Parts s m'.trace m.trace

section Parted

variable {s s' : Settings}

theorem Settings.Parts.mono {T T' U U' : List Event} (h : s.Parts s' T T') (hT : T <:+ U)
    (hT' : T' <:+ U') : s.Parts s' U U' := by
  obtain ⟨hquiet, hloud, cls, before, before', hbefore, hdeep, hunknown⟩ := h
  exact ⟨hquiet, hloud, cls, before, before', hbefore, hdeep.trans hT, hunknown.trans hT'⟩

/-- Machines that have parted do not come together again. -/
theorem Settings.Parted.mono {m m' n n' : Machine} (h : s.Parted s' m m')
    (hm : m.trace <:+ n.trace) (hm' : m'.trace <:+ n'.trace) : s.Parted s' n n' :=
  h.imp (·.mono hm hm') (·.mono hm' hm)

/-- Two traces tell different things once they have parted. -/
theorem Settings.Parts.withoutCalls_ne {T T' : List Event} (h : s.Parts s' T T') :
    withoutCalls T ≠ withoutCalls T' := by
  intro heq
  obtain ⟨-, -, cls, before, before', hbefore, hdeep, hunknown⟩ := h
  have hdeep' : .raised (.tooDeep s.maxDepth) :: withoutCalls before <:+ withoutCalls T := by
    simpa [withoutCalls, Event.isCall] using hdeep.filter fun e => !e.isCall
  have hunknown' : .raised (.noSuchClass cls) :: withoutCalls before' <:+ withoutCalls T' := by
    simpa [withoutCalls, Event.isCall] using hunknown.filter fun e => !e.isCall
  -- both are the same number of events away from the start
  rw [heq] at hdeep'
  rw [← hbefore] at hunknown'
  have hsame := List.suffix_of_suffix_length_le hdeep' hunknown' (Nat.le_refl _)
  have hhead := (List.cons.inj (hsame.eq_of_length rfl)).1
  simp at hhead

theorem Settings.Parted.not_alike {m m' : Machine} (h : s.Parted s' m m') : ¬ m.Alike m' := by
  intro halike
  rcases h with h | h
  · exact h.withoutCalls_ne halike.trace_eq
  · exact h.withoutCalls_ne halike.trace_eq.symm

end Parted

/-- Two runs have come to the same result and to machines that are alike, or they have parted. -/
def Settings.SameOrParted (s s' : Settings) (o o' : β × Machine) : Prop :=
  (o.1 = o'.1 ∧ o.2.Alike o'.2) ∨ s.Parted s' o.2 o'.2

/-- Two runs have come to the same result and to machines that are alike exactly if they have not
parted. -/
def Settings.SameUnlessParted (s s' : Settings) (o o' : β × Machine) : Prop :=
  (o.1 = o'.1 ∧ o.2.Alike o'.2) ↔ ¬ s.Parted s' o.2 o'.2

theorem Settings.SameOrParted.symm {s s' : Settings} {o o' : β × Machine}
    (h : s.SameOrParted s' o o') : s'.SameOrParted s o' o := by
  rcases h with ⟨hr, halike⟩ | hparted
  · exact .inl ⟨hr.symm, Eq.symm halike⟩
  · exact .inr (Or.symm hparted)

theorem Settings.SameOrParted.unless {s s' : Settings} {o o' : β × Machine}
    (h : s.SameOrParted s' o o') : s.SameUnlessParted s' o o' :=
  ⟨fun hsame hparted => hparted.not_alike hsame.2, h.resolve_right⟩

/-! ### Actions that agree -/

/-- From machines that are alike, the first action and the second one come to the same, or they
part. -/
structure Action.Agrees (s s' : Settings) (x y : Action α) : Prop where
  grows : x.Obeys growthLaw
  grows' : y.Obeys growthLaw
  same : ∀ m m', m.Alike m' → s.SameOrParted s' (x.outcome m) (y.outcome m')

/-- What comes next only adds to the trace. -/
theorem trace_suffix_bind {f : α → Action β} (hf : ∀ a, (f a).Obeys growthLaw) (x : Action α)
    (m : Machine) : (x.outcome m).2.trace <:+ ((x >>= f).outcome m).2.trace := by
  rw [outcome_bind]
  rcases x.outcome m with ⟨_ | e | a, m₁⟩
  · exact List.suffix_rfl
  · exact List.suffix_rfl
  · exact (hf a).suffix m₁

namespace Action.Agrees

variable {s s' : Settings} {x y : Action α} {f g : α → Action β}

theorem of_effects {A : Effect → Prop} (hx : x.IgnoresTrace) (h : ∀ m, ∃ r es,
      (∀ e ∈ es, A e) ∧ x.outcome m = (some r, Effect.applyAll es m)) : Agrees s s' x x where
  grows := growthLaw_of_effects h
  grows' := growthLaw_of_effects h
  same m m' halike := by
    refine .inl ?_
    rw [hx m, hx m', halike.untraced_eq]
    refine ⟨rfl, .mk rfl ?_⟩
    rw [withoutCalls_append, withoutCalls_append, halike.trace_eq]

theorem breakOff : Agrees s s' (breakOff : Action α) (ClassMachine.breakOff : Action α) :=
  ⟨.breakOff, .breakOff, fun _ _ halike => .inl ⟨rfl, halike⟩⟩

theorem bind (h : Agrees s s' x y) (hfg : ∀ a, Agrees s s' (f a) (g a)) :
    Agrees s s' (x >>= f) (y >>= g) where
  grows := h.grows.bind fun a => (hfg a).grows
  grows' := h.grows'.bind fun a => (hfg a).grows'
  same m m' halike := by
    rcases h.same m m' halike with ⟨hr, halike₁⟩ | hparted
    · rw [outcome_bind, outcome_bind]
      generalize x.outcome m = o at hr halike₁
      generalize y.outcome m' = o' at hr halike₁
      obtain ⟨r, m₁⟩ := o
      obtain ⟨r', m₁'⟩ := o'
      obtain rfl : r = r' := hr
      rcases r with _ | e | a
      · exact .inl ⟨rfl, halike₁⟩
      · exact .inl ⟨rfl, halike₁⟩
      · exact (hfg a).same m₁ m₁' halike₁
    · exact .inr (hparted.mono (trace_suffix_bind (fun a => (hfg a).grows) x m)
        (trace_suffix_bind (fun a => (hfg a).grows') y m'))

theorem read {f g : Machine → Action α} (hg : ∀ m, g m.untraced = g m)
    (h : ∀ m, Agrees s s' (f m) (g m)) : Agrees s s' (get >>= f) (get >>= g) where
  grows := .bind (fun _ => growthLaw.refl _) fun m => (h m).grows
  grows' := .bind (fun _ => growthLaw.refl _) fun m => (h m).grows'
  same m m' halike := by
    -- the two machines differ in their traces only, and those are not looked at
    have hsame : g m' = g m := by rw [← hg m', ← hg m, halike.untraced_eq]
    have h := (h m).same m m' halike
    rw [← hsame] at h
    exact h

theorem observe (h : Agrees s s' x y) : Agrees s s' (observe x) (ClassMachine.observe y) where
  grows := h.grows.observe
  grows' := h.grows'.observe
  same m m' halike := by
    rw [outcome_observe, outcome_observe]
    exact (h.same m m' halike).imp_left fun hsame =>
      ⟨congrArg (Option.map Except.ok) hsame.1, hsame.2⟩

end Action.Agrees

/-- Actions are compared under another verbosity. -/
def agreement (s s' : Settings) : Comparison fun _ => True where
  Holds _ x y := x.Agrees s s' y
  effects _ _ hx h := .of_effects hx h
  breakOff _ := .breakOff
  bind _ _ _ _ _ _ h hfg := h.bind hfg
  read _ _ _ _ hg h := .read hg h
  observe _ _ _ h := h.observe

/-! ### Constructions -/

/-- **The one place where the verbosity matters**: an unknown class for which there is no room. -/
theorem construct_parts {s s' : Settings} {p q : Performer} (hquiet : s.announces = false)
    (hloud : s'.announces = true) {m m' : Machine} (halike : m.Alike m') {cls : ClassId}
    (hcls : m.registry.class? cls = none) (args : List Value) :
    s.SameOrParted s' ((construct s p cls args).outcome m)
      ((construct s' q cls args).outcome m') := by
  have hcls' : m'.registry.class? cls = none := halike.registry_eq ▸ hcls
  rw [outcome_construct_of_quiet hcls hquiet, outcome_construct_of_loud hcls' hloud]
  split
  · exact .inr (.inl ⟨hquiet, hloud, cls, m.trace, m'.trace, halike.trace_eq, List.suffix_rfl,
      List.suffix_rfl⟩)
  · exact .inl ⟨rfl, halike.noted [.raised (.noSuchClass cls), .called cls cls]
      [.raised (.noSuchClass cls)] rfl⟩

section Levels

variable {s s' : Settings} (hdepth : s.maxDepth = s'.maxDepth)

include hdepth

/-- Under one verbosity or two of a kind, an unknown class gives rise to the same failure. -/
theorem construct_fails_alike {p q : Performer} (hkind : s.announces = s'.announces)
    {m m' : Machine} (halike : m.Alike m') {cls : ClassId}
    (hcls : m.registry.class? cls = none) (args : List Value) :
    s.SameOrParted s' ((construct s p cls args).outcome m)
      ((construct s' q cls args).outcome m') := by
  have hcls' : m'.registry.class? cls = none := halike.registry_eq ▸ hcls
  refine .inl ?_
  cases hs : s.announces with
  | true =>
    rw [outcome_construct_of_loud hcls hs, outcome_construct_of_loud hcls' (hkind ▸ hs)]
    exact ⟨rfl, halike.noted [_] [_] rfl⟩
  | false =>
    rw [outcome_construct_of_quiet hcls hs, outcome_construct_of_quiet hcls' (hkind ▸ hs),
      ← hdepth, ← halike.frames_eq]
    split
    · exact ⟨rfl, halike.noted [_, _] [_, _] rfl⟩
    · exact ⟨rfl, halike.noted [_, _] [_, _] rfl⟩

section Level

variable {p q : Performer} (hpq : ∀ ⦃α : Type⦄ (task : Task α), (p task).Agrees s s' (q task))

include hpq

/-- What goes on in a frame of its own does not depend on the verbosity. -/
theorem constructFor_agrees (cls newTarget : ClassId) (args : List Value) :
    (constructFor s p cls newTarget args).Agrees s s' (constructFor s' q cls newTarget args) := by
  have hlimit : constructFor s' q cls newTarget args = constructFor s q cls newTarget args := by
    rw [constructFor, constructFor, hdepth]
  rw [hlimit]
  exact (construction_madeOf s cls newTarget args).compared_constructions (K := agreement s s')
    (p := p) (q := q) (fun _ _ => trivial) hpq

theorem construct_agrees (cls : ClassId) (args : List Value) :
    (construct s p cls args).Agrees s s' (construct s' q cls args) where
  grows := call_obeys growthLaw_allows s (fun _ task => (hpq task).grows) (.construct cls args)
  grows' := call_obeys growthLaw_allows s' (fun _ task => (hpq task).grows') (.construct cls args)
  same m m' halike := by
    rcases hc : m.registry.class? cls with _ | c
    · by_cases hkind : s.announces = s'.announces
      · exact construct_fails_alike hdepth hkind halike hc args
      · cases hs : s.announces with
        | false => exact construct_parts hs (by simpa [hs] using hkind) halike hc args
        | true =>
          have hc' : m'.registry.class? cls = none := halike.registry_eq ▸ hc
          have hs' : s'.announces = false := by simpa [hs] using hkind
          exact (construct_parts hs' hs (Eq.symm halike) hc' args).symm
    · have hc' : m'.registry.class? cls = some c := halike.registry_eq ▸ hc
      have hrest := (agreement s s').bind (constructFor_agrees hdepth hpq cls cls args) fun this =>
        (agreement s s').bind_pure ((agreement s s').note (e := .constructed cls this) trivial)
          fun _ => this
      rw [outcome_construct_of_some hc, outcome_construct_of_some hc']
      exact hrest.same _ _ (halike.noted [.constructing c.displayName] [_] rfl)

theorem call_agrees (c : Call α) : (c.run s p).Agrees s s' (c.run s' q) :=
  call_compared (K := agreement s s') hpq (construct_agrees hdepth hpq) c

/-- **Each level passes on** that the verbosity is another one. -/
theorem step_agrees (task : Task α) : (step s p task).Agrees s s' (step s' q task) :=
  step_compared (K := agreement s s') hpq (construct_agrees hdepth hpq)
    (constructFor_agrees hdepth hpq) task

end Level

/-! ### Whole runs -/

theorem interpret_agrees (levels : Nat) (task : Task α) :
    (interpret s levels task).Agrees s s' (interpret s' levels task) := by
  induction levels generalizing α with
  | zero => exact .breakOff
  | succ levels ih =>
    rw [interpret_succ, interpret_succ]
    exact step_agrees hdepth (fun _ inner => ih inner) task

end Levels

/-- The machine that a program leaves. If a step does not end, that is the machine which the step
leaves at the moment at which it is broken off. -/
def leftBy (settings : Settings) (levels : Nat) : Machine → List Expr → Machine
  | m, [] => m
  | m, e :: rest =>
    match (interpret settings levels (.eval e {})).outcome { m with log := [] } with
    | (some _, m') => leftBy settings levels m' rest
    | (none, m') => m'

section Programs

variable {settings : Settings} {levels : Nat}
  (hgrows : ∀ ⦃α : Type⦄ (task : Task α), (interpret settings levels task).Obeys growthLaw)

include hgrows

theorem trace_suffix_leftBy (m : Machine) (es : List Expr) :
    m.trace <:+ (leftBy settings levels m es).trace := by
  induction es generalizing m with
  | nil => exact List.suffix_rfl
  | cons e rest ih =>
    have hstep := (hgrows (.eval e {})).suffix { m with log := [] }
    rw [leftBy]
    generalize (interpret settings levels (.eval e {})).outcome { m with log := [] } = o at hstep ⊢
    obtain ⟨_ | r, m₁⟩ := o
    · exact hstep
    · exact hstep.trans (ih m₁)

/-- A program goes on from where its first step has come to. -/
theorem trace_suffix_leftBy_cons (m : Machine) (e : Expr) (rest : List Expr) :
    ((interpret settings levels (.eval e {})).outcome { m with log := [] }).2.trace <:+
      (leftBy settings levels m (e :: rest)).trace := by
  rw [leftBy]
  rcases (interpret settings levels (.eval e {})).outcome { m with log := [] } with ⟨_ | r, m₁⟩
  · exact List.suffix_rfl
  · exact trace_suffix_leftBy hgrows m₁ rest

end Programs

/-- **Programs agree step by step**, from machines that are alike. -/
theorem program_agrees {s s' : Settings} (hdepth : s.maxDepth = s'.maxDepth) (levels : Nat)
    (es : List Expr) {m m' : Machine} (halike : m.Alike m') :
    s.SameOrParted s' (runProgram s levels m es, leftBy s levels m es)
      (runProgram s' levels m' es, leftBy s' levels m' es) := by
  have hagrees ⦃α : Type⦄ (task : Task α) := interpret_agrees hdepth levels task
  -- induction on the steps that are left
  induction es generalizing m m' with
  | nil => exact .inl ⟨rfl, halike⟩
  | cons e rest ih =>
    have hcleared : Machine.Alike { m with log := [] } { m' with log := [] } := by
      have h := halike.congr fun n => ({ n with log := [] } : Machine)
      exact h
    rcases (hagrees (.eval e {})).same _ _ hcleared with ⟨hr, halike₁⟩ | hparted
    · simp only [runProgram, runStep, leftBy]
      generalize (interpret s levels (.eval e {})).outcome { m with log := [] } = o at hr halike₁
      generalize (interpret s' levels (.eval e {})).outcome { m' with log := [] } = o'
        at hr halike₁
      obtain ⟨r, m₁⟩ := o
      obtain ⟨r', m₁'⟩ := o'
      obtain rfl : r = r' := hr
      rcases r with _ | r
      · exact .inl ⟨rfl, halike₁⟩
      · -- the reports of the step are the same
        have hlog : m₁.log = m₁'.log := halike₁.log_eq
        have hregistry : m₁.registry = m₁'.registry := halike₁.registry_eq
        dsimp only
        rw [hlog, hregistry]
        exact (ih halike₁).imp_left fun hsame => ⟨congrArg (_ :: ·) hsame.1, hsame.2⟩
    · exact .inr (hparted.mono
        (trace_suffix_leftBy_cons (fun _ task => (hagrees task).grows) m e rest)
        (trace_suffix_leftBy_cons (fun _ task => (hagrees task).grows') m' e rest))

/-- **What the verbosity decides.** Two runs of a call, of a task or of a program under two
verbosities, from the same machine, come to the same result, or to the same reports, and leave
the same machine, but for calls noted, exactly if they have not parted: if there was no moment at
which an unknown class was to be constructed in full depth, one of them showing announcements and
the other not. -/
theorem verbosity_law (settings : Settings) (verbosity : Verbosity) (levels : Nat) (m : Machine) :
    let other := { settings with verbosity }
    (∀ {α : Type} (c : Call α), settings.SameUnlessParted other
      ((c.run settings (interpret settings levels)).outcome m)
      ((c.run other (interpret other levels)).outcome m)) ∧
    (∀ {α : Type} (task : Task α), settings.SameUnlessParted other
      ((interpret settings levels task).outcome m) ((interpret other levels task).outcome m)) ∧
    ∀ es : List Expr, settings.SameUnlessParted other
      (runProgram settings levels m es, leftBy settings levels m es)
      (runProgram other levels m es, leftBy other levels m es) := by
  intro other
  have hdepth : settings.maxDepth = other.maxDepth := rfl
  have hagrees ⦃α : Type⦄ (task : Task α) := interpret_agrees hdepth levels task
  refine ⟨fun c => ?_, fun task => ?_, fun es => ?_⟩
  · exact ((call_agrees hdepth hagrees c).same m m rfl).unless
  · exact ((hagrees task).same m m rfl).unless
  · exact (program_agrees hdepth levels es rfl).unless

/-- At depth zero there is no room for a construction. Which failure comes of an unknown class then
depends on whether announcements are shown. -/
theorem verbosity_seen :
    ((construct { maxDepth := 0, verbosity := .error } (interpret {} 0) 99 []).outcome
      .initial).1 = some (.error (.ofFault (.tooDeep 0))) ∧
    ((construct { maxDepth := 0, verbosity := .info } (interpret {} 0) 99 []).outcome
      .initial).1 = some (.error (.ofFault (.noSuchClass 99))) :=
  ⟨rfl, rfl⟩

end ClassMachine
