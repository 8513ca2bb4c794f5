import ClassMachine.Proofs.DepthLimit
import ClassMachine.Proofs.Identity
import ClassMachine.Proofs.Integrity

/-!
# What runs while a failure is on its way

From the moment at which a failure is raised until client code catches it, nothing runs: no
object is touched, no register, and no entry is written to the log. Activities are interrupted,
registrations are taken back and frames end, and that is all
(`ClassMachine.Machine.Unwinds`). So no later step of a body runs that a failure has passed,
whatever it is, and no initializer of a field behind the one that has failed.

That something does not run cannot be seen in the machine at the end. So a run is compared with
the same run broken off earlier, at a moment at which the trace says that a failure is on its way
(`ClassMachine.travelling`); as to what happens after this moment, there are only the two
possibilities of `ClassMachine.Machine.FailureEnds`.

Main statement: `ClassMachine.call_stopsAt`.
-/

namespace ClassMachine

open Machine

variable {α β : Type}

/-! ### How failures end -/

/-- Between the two machines nothing has run, but a failure was on its way. -/
structure Machine.Unwinds (m m' : Machine) : Prop where
  trace : ∃ new, m'.trace = new ++ m.trace ∧ ∀ x ∈ new, x.IsUnwinding
  store : m'.store = m.store
  registers : m'.registers = m.registers
  log : m'.log = m.log
  nextFunction : m'.nextFunction = m.nextFunction
  /-- Frames have ended, at most. -/
  frames : m'.frames <:+ m.frames

/-- How a failure that is on its way ends: it is caught, or it is what is left in the end. -/
inductive Machine.FailureEnds (m : Machine) : Option (Except Failure α) → Machine → Prop
  | caught {r : Option (Except Failure α)} {m' : Machine} {new : List Event} {e : Failure}
    (htrace : m'.trace = new ++ m.trace) (he : .caught e ∈ new) : FailureEnds m r m'
  | escaped {e : Failure} {m' : Machine} (h : m.Unwinds m') : FailureEnds m (some (.error e)) m'

namespace Machine

variable {m m' m'' : Machine}

theorem Unwinds.refl (m : Machine) : m.Unwinds m :=
  ⟨⟨[], rfl, by simp⟩, rfl, rfl, rfl, rfl, List.suffix_rfl⟩

theorem Unwinds.trans (h : m.Unwinds m') (h' : m'.Unwinds m'') : m.Unwinds m'' where
  trace := by
    obtain ⟨new, hnew, hunwinding⟩ := h.trace
    obtain ⟨new', hnew', hunwinding'⟩ := h'.trace
    exact ⟨new' ++ new, by rw [hnew', hnew, List.append_assoc], fun x hx =>
      (List.mem_append.mp hx).elim (hunwinding' x) (hunwinding x)⟩
  store := h'.store.trans h.store
  registers := h'.registers.trans h.registers
  log := h'.log.trans h.log
  nextFunction := h'.nextFunction.trans h.nextFunction
  frames := h'.frames.trans h.frames

theorem Unwinds.failed (m : Machine) (a : Activity) :
    m.Unwinds ((Effect.note (.failed a)).apply m) :=
  ⟨⟨[.failed a], rfl, by simp [Event.IsUnwinding]⟩, rfl, rfl, rfl, rfl, List.suffix_rfl⟩

theorem Unwinds.tail {f : Frame} {rest : List Frame} (h : m.frames = f :: rest) :
    m.Unwinds { m with frames := rest } :=
  ⟨⟨[], rfl, by simp⟩, rfl, rfl, rfl, rfl, h ▸ List.suffix_cons f rest⟩

/-- What takes registrations back does not run anything. -/
theorem Unwinds.applyAll {es : List Effect} (h : ∀ e ∈ es, e.IsUndoing) (m : Machine) :
    m.Unwinds (Effect.applyAll es m) := by
  refine Effect.applyAll_induction (P := m.Unwinds) (fun e he m' hm' => hm'.trans ?_) (.refl m)
  have hundoing := h e he
  cases e with
  | note e =>
    cases e with
    | withdrawn id kept =>
      exact ⟨⟨[.withdrawn id kept], rfl, by simp [Event.IsUnwinding]⟩, rfl, rfl, rfl, rfl,
        List.suffix_rfl⟩
    | _ => exact hundoing.elim
  | withdraw => exact ⟨⟨[], rfl, by simp⟩, rfl, rfl, rfl, rfl, List.suffix_rfl⟩
  | _ => exact hundoing.elim

/-- Once it is caught, it does not matter what follows. -/
theorem FailureEnds.of_caught {new : List Event} {e : Failure} {r : Option (Except Failure α)}
    (htrace : m'.trace = new ++ m.trace) (he : .caught e ∈ new) (hgrows : m'.trace <:+ m''.trace) :
    m.FailureEnds r m'' := by
  obtain ⟨later, hlater⟩ := hgrows
  exact .caught (by rw [← hlater, htrace, List.append_assoc]) (List.mem_append_right later he)

end Machine

/-- What was noted at first, with no failure on its way then, does not matter for the failure
that is on its way when an action is broken off. -/
theorem Machine.Reports.travelling_eq {m m' m₁ : Machine} {old new : List Event}
    (h : m'.Reports (none : Option (Except Failure α)) m₁) (hold : m'.trace = old ++ m.trace)
    (hcalm : travelling old = none) (hnew : m₁.trace = new ++ m.trace) :
    ∃ new', m₁.trace = new' ++ m'.trace ∧ travelling new = travelling new' := by
  obtain ⟨new', hnew', htells⟩ := h
  have hsplit : new = new' ++ old := by
    rw [hnew', hold, ← List.append_assoc] at hnew
    exact (List.append_cancel_right hnew).symm
  exact ⟨new', hnew', hsplit ▸ (htells.orderly.append hcalm).2.1⟩

/-! ### Pairs of actions -/

/-- Wherever the first action is broken off with a failure on its way, nothing runs in the second
one until the failure is caught. Otherwise the first one ends as the second one does. -/
structure Action.Unwinds (x y : Action α) : Prop where
  refines : x.Refines y
  reports : x.Reports
  grows : y.Obeys growthLaw
  ends : ∀ m m₁ new, x.outcome m = (none, m₁) → m₁.trace = new ++ m.trace →
    travelling new ≠ none → m₁.FailureEnds (y.outcome m).1 (y.outcome m).2

namespace Action.Unwinds

variable {x y : Action α} {f g : α → Action β}

/-- An action that asks no performer. -/
theorem of_does {A : Effect → Prop} (h : ∀ m, x.Does A m) : x.Unwinds x where
  refines := .refl x
  reports := .of_does h
  grows m := by
    cases h m with
    | answers hes h =>
      exact .of_outcome h (growthLaw.ended_applyAll (fun e _ => growthLaw_allows e) m)
    | raises hf h => exact .of_outcome h (growthLaw_allows (.note _) m)
  ends m m₁ new hx := by
    cases h m with
    | answers hes h => simp [h] at hx
    | raises hf h => simp [h] at hx

/-- At its beginning no failure is on its way. -/
theorem breakOff (hgrows : y.Obeys growthLaw) : (breakOff : Action α).Unwinds y where
  refines _ _ _ hx := by simp at hx
  reports := .breakOff
  grows := hgrows
  ends m m₁ new hx hnew htravelling := by
    obtain rfl : m = m₁ := (Prod.mk.inj hx).2
    obtain rfl : new = [] := by simpa using hnew
    exact absurd rfl htravelling

theorem bind (h : x.Unwinds y) (hfg : ∀ a, (f a).Unwinds (g a)) :
    (x >>= f).Unwinds (y >>= g) where
  refines := h.refines.bind fun a => (hfg a).refines
  reports := h.reports.bind fun a => (hfg a).reports
  grows := h.grows.bind fun a => (hfg a).grows
  ends m m₁ new hx hnew htravelling := by
    rw [outcome_bind] at hx ⊢
    rcases hm : x.outcome m with ⟨_ | e | a, m₂⟩ <;> rw [hm] at hx
    · -- broken off in the first part: what follows runs only if the failure was caught
      obtain rfl := (Prod.mk.inj hx).2
      have hends := h.ends m m₂ new hm hnew htravelling
      generalize y.outcome m = o at hends ⊢
      rcases o with ⟨r, m'⟩
      cases hends with
      | escaped h => exact .escaped h
      | caught htrace he =>
        rcases r with _ | e | a
        · exact .caught htrace he
        · exact .caught htrace he
        · exact .of_caught htrace he ((hfg a).grows.suffix m')
    · simp at hx
    · rw [h.refines _ _ _ hm]
      have hx : (f a).outcome m₂ = (none, m₁) := hx
      have hreports := h.reports m
      have hlater := (hfg a).reports m₂
      rw [Action.Ensures, hm] at hreports
      rw [Action.Ensures, hx] at hlater
      obtain ⟨old, hold, htells⟩ := hreports
      obtain ⟨new', hnew', hsame⟩ := hlater.travelling_eq hold (htells.travelling _ rfl) hnew
      exact (hfg a).ends m₂ m₁ new' hx hnew' (hsame ▸ htravelling)

/-- An action whose outcome is looked at: of what follows a failure it has to be known what it
makes of a failure that nothing has run since, and what is on its way when it is broken off
itself. -/
theorem bind_observe {f g : Except Failure α → Action β} (h : x.Unwinds y)
    (hreports : (observe x >>= f).Reports) (hok : ∀ a, (f (.ok a)).Unwinds (g (.ok a)))
    (hrefines : ∀ e, (f (.error e)).Refines (g (.error e)))
    (hgrows : ∀ e, (g (.error e)).Obeys growthLaw)
    (hescaped : ∀ (e : Failure) (m₁ m' : Machine), m₁.Unwinds m' →
      m₁.FailureEnds ((g (.error e)).outcome m').1 ((g (.error e)).outcome m').2)
    (hbroken : ∀ (e : Failure) (m m' m₁ : Machine) (new : List Event),
      m.Reports (some (.error e : Except Failure α)) m' →
      (f (.error e)).outcome m' = (none, m₁) → m₁.trace = new ++ m.trace → travelling new ≠ none →
      m₁.FailureEnds ((g (.error e)).outcome m').1 ((g (.error e)).outcome m').2) :
    (observe x >>= f).Unwinds (observe y >>= g) where
  refines := h.refines.observe.bind fun r => by
    cases r with
    | ok a => exact (hok a).refines
    | error e => exact hrefines e
  reports := hreports
  grows := h.grows.observe.bind fun r => by
    cases r with
    | ok a => exact (hok a).grows
    | error e => exact hgrows e
  ends m m₁ new hx hnew htravelling := by
    rw [outcome_bind, outcome_observe] at hx ⊢
    rcases hm : x.outcome m with ⟨_ | e | a, m₂⟩ <;> rw [hm] at hx
    · obtain rfl := (Prod.mk.inj hx).2
      have hends := h.ends m m₂ new hm hnew htravelling
      generalize y.outcome m = o at hends ⊢
      rcases o with ⟨r, m'⟩
      cases hends with
      | escaped h => exact hescaped _ m₂ m' h
      | caught htrace he =>
        rcases r with _ | e | a
        · exact .caught htrace he
        · exact .of_caught htrace he ((hgrows e).suffix m')
        · exact .of_caught htrace he ((hok a).grows.suffix m')
    all_goals
      rw [h.refines _ _ _ hm]
      have hreported := h.reports m
      rw [Action.Ensures, hm] at hreported
    · exact hbroken e m m₂ m₁ new hreported hx hnew htravelling
    · have hx : (f (.ok a)).outcome m₂ = (none, m₁) := hx
      have hlater := (hok a).reports m₂
      rw [Action.Ensures, hx] at hlater
      obtain ⟨old, hold, htells⟩ := hreported
      obtain ⟨new', hnew', hsame⟩ := hlater.travelling_eq hold (htells.travelling _ rfl) hnew
      exact (hok a).ends m₂ m₁ new' hx hnew' (hsame ▸ htravelling)

/-- A failure is caught, and something else goes on. -/
theorem attempt {f g : Except Failure α → Action β} {handler handler' : Failure → Action β}
    (h : x.Unwinds y) (hok : ∀ a, (f (.ok a)).Unwinds (g (.ok a)))
    (hhandler : ∀ e, (handler e).Unwinds (handler' e))
    (hf : ∀ e, f (.error e) = note (.caught e) >>= fun _ => handler e)
    (hg : ∀ e, g (.error e) = note (.caught e) >>= fun _ => handler' e) :
    (observe x >>= f).Unwinds (observe y >>= g) := by
  have hnote (e : Failure) : (note (.caught e)).Obeys growthLaw := growthLaw_allows (.note _)
  refine bind_observe h
    (h.reports.attempt (fun a => (hok a).reports) (fun e => (hhandler e).reports) hf) hok
    (fun e => ?_) (fun e => ?_) (fun e m₁ m' h => ?_)
    fun e m m' m₁ new hreported hx hnew hgoes => ?_
  · rw [hf, hg]
    exact .bind (.refl _) fun _ => (hhandler e).refines
  · rw [hg]
    exact (hnote e).bind fun _ => (hhandler e).grows
  · rw [hg]
    obtain ⟨events, hevents, -⟩ := h.trace
    have hcaught : ((Effect.note (.caught e)).apply m').trace =
        (.caught e :: events) ++ m₁.trace := congrArg _ hevents
    exact .of_caught hcaught List.mem_cons_self ((hhandler e).grows.suffix _)
  · -- with the failure caught, no failure is on its way
    rw [hf] at hx
    rw [hg]
    have hx : (handler e).outcome ((Effect.note (.caught e)).apply m') = (none, m₁) := hx
    obtain ⟨old, hold, -⟩ := hreported
    have hcaught : ((Effect.note (.caught e)).apply m').trace = (.caught e :: old) ++ m.trace :=
      congrArg _ hold
    have hlater := (hhandler e).reports ((Effect.note (.caught e)).apply m')
    rw [Action.Ensures, hx] at hlater
    obtain ⟨new', hnew', hsame⟩ := hlater.travelling_eq hcaught rfl hnew
    exact (hhandler e).ends _ m₁ new' hx hnew' (hsame ▸ hgoes)

/-- Something is taken back before a failure goes on. -/
theorem undoing {f g : Except Failure α → Action β} {undo : Action Unit} (h : x.Unwinds y)
    (hok : ∀ a, (f (.ok a)).Unwinds (g (.ok a)))
    (hundo : ∀ m, ∃ es, (∀ e ∈ es, Effect.IsUndoing e) ∧
      undo.outcome m = (some (.ok ⟨⟩), Effect.applyAll es m))
    (hf : ∀ e, f (.error e) = undo >>= fun _ => throw e)
    (hg : ∀ e, g (.error e) = undo >>= fun _ => throw e) :
    (observe x >>= f).Unwinds (observe y >>= g) := by
  have hundone (e : Failure) (m : Machine) : ∃ es, (∀ e ∈ es, Effect.IsUndoing e) ∧
      (undo >>= fun _ => throw e : Action β).outcome m =
        (some (.error e), Effect.applyAll es m) := by
    obtain ⟨es, hes, hundo⟩ := hundo m
    exact ⟨es, hes, by rw [outcome_bind, hundo]; rfl⟩
  refine bind_observe h (h.reports.undoing (fun a => (hok a).reports) hundo hf) hok (fun e => ?_)
    (fun e m => ?_) (fun e m₁ m' h => ?_) fun e m m' m₁ new _ hx => ?_
  · rw [hf, hg]
    exact .refl _
  all_goals rw [hg]
  · obtain ⟨es, -, hes⟩ := hundone e m
    exact .of_outcome hes (growthLaw.ended_applyAll (fun e _ => growthLaw_allows e) m)
  · obtain ⟨es, hes, hundone⟩ := hundone e m'
    rw [hundone]
    exact .escaped (h.trans (.applyAll hes m'))
  · obtain ⟨es, -, hes⟩ := hundone e m'
    simp [hf, hes] at hx

/-- An activity is interrupted. -/
theorem during {activity : Activity} (h : x.Unwinds y) :
    (ClassMachine.during activity x).Unwinds (ClassMachine.during activity y) where
  refines m r m' hx := by
    rw [outcome_during] at hx ⊢
    rcases hm : x.outcome ((Effect.note (.began activity)).apply m) with ⟨_ | e | a, m₂⟩ <;>
      rw [hm] at hx
    · simp at hx
    all_goals
      rw [h.refines _ _ _ hm]
      exact hx
  reports := h.reports.during
  grows m := by
    have hbegan : m.trace <:+ ((Effect.note (.began activity)).apply m).trace :=
      List.suffix_cons _ _
    have hgrows := hbegan.trans (h.grows.suffix _)
    rw [Action.Ensures, outcome_during]
    generalize y.outcome ((Effect.note (.began activity)).apply m) = o at hgrows ⊢
    rcases o with ⟨_ | e | a, m'⟩
    · exact hgrows
    · exact hgrows.trans (List.suffix_cons _ _)
    · exact hgrows.trans (List.suffix_cons _ _)
  ends m m₁ new hx hnew htravelling := by
    rw [outcome_during] at hx ⊢
    rcases hm : x.outcome ((Effect.note (.began activity)).apply m) with ⟨_ | e | a, m₂⟩ <;>
      rw [hm] at hx
    · obtain rfl := (Prod.mk.inj hx).2
      have hreports := h.reports ((Effect.note (.began activity)).apply m)
      rw [Action.Ensures, hm] at hreports
      have hbegan : ((Effect.note (.began activity)).apply m).trace =
          [.began activity] ++ m.trace := rfl
      obtain ⟨new', hnew', hsame⟩ := hreports.travelling_eq hbegan rfl hnew
      have hends := h.ends _ m₂ new' hm hnew' (hsame ▸ htravelling)
      generalize y.outcome ((Effect.note (.began activity)).apply m) = o at hends ⊢
      rcases o with ⟨r, m'⟩
      cases hends with
      | escaped h => exact .escaped (h.trans (.failed m' activity))
      | caught htrace he =>
        rcases r with _ | e | a
        · exact .caught htrace he
        · exact .of_caught htrace he (List.suffix_cons _ _)
        · exact .of_caught htrace he (List.suffix_cons _ _)
    · simp at hx
    · simp at hx

end Action.Unwinds

/-- **Nothing runs in what is put together** while a failure is on its way, if nothing does in its
parts and no frame is taken off. -/
theorem MadeOf.unwinds {A : Effect → Prop} {X : Operations} {p q : Performer}
    {F : Performer → Action α} (hF : MadeOf A X F) (hA : ¬ A .pop)
    (hX : ∀ ⦃β : Type⦄ (G : Performer → Action β), X G → (G p).Unwinds (G q))
    (heval : ∀ e ctx, (p (.eval e ctx)).Unwinds (q (.eval e ctx))) : (F p).Unwinds (F q) := by
  induction hF with
  | steps _ h => exact .of_does h
  | breakOff => exact .breakOff .breakOff
  | eval e ctx => exact heval e ctx
  | operation h => exact hX _ h
  | bind _ _ hF hG => exact hF.bind hG
  | read _ _ hF => exact .bind (.of_does (Action.does_get A)) hF
  | during _ _ hF => exact hF.during
  | attempt _ _ _ _ herror hF hok hH =>
    exact hF.attempt hok hH (fun e => congrFun (herror e) p) fun e => congrFun (herror e) q
  | undoing _ _ _ hundo herror hF hok =>
    refine hF.undoing hok (fun m => ?_) (fun e => congrFun (herror e) p) fun e =>
      congrFun (herror e) q
    obtain ⟨es, hes, h⟩ := hundo m
    exact ⟨es, fun e he => (hes e he).2, h⟩
  | popping hpop => exact absurd hpop hA

/-! ### Constructions -/

section Operations

variable {settings : Settings} {p q : Performer}
  (hframes : p.Keeps (framesContract settings)) (hreports : p.Keeps reportsContract)
  (hkept : ∀ ⦃β : Type⦄ (task : Task β), (q task).Obeys ClassMachine.keptLaw)
  (hpq : ∀ ⦃β : Type⦄ (task : Task β), (p task).Unwinds (q task))

include hpq

theorem runConstructor_unwinds (cls newTarget : ClassId) (args : List Value) :
    (runConstructor p cls newTarget args).Unwinds (runConstructor q cls newTarget args) := by
  refine (runConstructor_madeOf (A := (· ≠ .pop)) (fun _ => Effect.IsFraming.ne_pop) cls (by simp)
    (by simp) args).unwinds (by simp) ?_ fun e ctx => hpq (.eval e ctx)
  rintro β _ ⟨cls, newTarget, args⟩
  exact hpq (.construct cls newTarget args)

include hframes hreports hkept

/-- **A construction** takes off its frame when its constructor has failed, and that is all. -/
theorem constructFor_unwinds (cls newTarget : ClassId) (args : List Value) :
    (constructFor settings p cls newTarget args).Unwinds
      (constructFor settings q cls newTarget args) where
  refines := (construction_madeOf settings cls newTarget args).refines fun _ task =>
    (hpq task).refines
  reports := constructFor_reports hframes hreports cls newTarget args
  grows := (construction_madeOf settings cls newTarget args).obeys_constructions
    (fun e _ => growthLaw_allows e) fun _ task => (hpq task).grows
  ends m m₁ new hx hnew htravelling := by
    have hrun := constructFor_broken hx
    have hroom : m.frames.length < settings.maxDepth := by
      by_contra hfull
      simp [outcome_constructFor_of_full (Nat.le_of_not_lt hfull)] at hx
    have hunwinds := runConstructor_unwinds hpq cls newTarget args
    have hlater := hunwinds.reports (m.begun cls newTarget)
    rw [Action.Ensures, hrun] at hlater
    have hbegun : (m.begun cls newTarget).trace = [.called cls newTarget] ++ m.trace := rfl
    obtain ⟨new', hnew', hsame⟩ := hlater.travelling_eq hbegun rfl hnew
    have hends := hunwinds.ends _ m₁ new' hrun hnew' (hsame ▸ htravelling)
    rw [outcome_constructFor hroom]
    rcases hm : (runConstructor q cls newTarget args).outcome (m.begun cls newTarget) with
      ⟨_ | outcome, m'⟩ <;> rw [hm] at hends
    · cases hends with
      | caught htrace he => exact .caught htrace he
    · cases hends with
      | caught htrace he =>
        exact .of_caught htrace he ((finishConstruction_grows outcome).suffix m')
      | @escaped e _ h =>
        -- the frame is there to be taken off
        obtain ⟨f, rest, hm', -⟩ :=
          runConstructor_ended (runConstructor_keptLaw hkept cls newTarget args) hm
        simp only [outcome_finishConstruction_of_error hm']
        exact .escaped (h.trans (.tail hm'))

/-- What a call and an expression are made of. -/
theorem MadeOf.unwinds_framed {F : Performer → Action α}
    (hF : MadeOf (· ≠ .pop) (Operations.Framed settings) F) : (F p).Unwinds (F q) := by
  refine hF.unwinds (by simp) (fun β G hG => ?_) fun e ctx => hpq (.eval e ctx)
  cases hG with
  | task cls newTarget args => exact hpq (.construct cls newTarget args)
  | frame cls newTarget args =>
    exact constructFor_unwinds hframes hreports hkept hpq cls newTarget args

theorem step_unwinds (task : Task α) : (step settings p task).Unwinds (step settings q task) := by
  cases task with
  | eval e ctx =>
    exact (evaluateExpr_framed settings ctx e).unwinds_framed hframes hreports hkept hpq
  | construct cls newTarget args =>
    exact constructFor_unwinds hframes hreports hkept hpq cls newTarget args

end Operations

/-! ### Runs -/

/-- A task may be broken off behind another one that has failed; then the failure is on its way. -/
theorem until_unwinds {p q : Performer} {task : Task α} (h : (p task).Unwinds (q task))
    {stop : Machine → Bool} (hreports : (p.until stop task).Reports) :
    (p.until stop task).Unwinds (q task) where
  refines m r m' hx := h.refines m r m' (until_refines p stop task m r m' hx)
  reports := hreports
  grows := h.grows
  ends m m₁ new hx hnew htravelling := by
    rw [outcome_until] at hx
    split at hx
    · obtain rfl := (Prod.mk.inj hx).2
      obtain rfl : new = [] := by simpa using hnew
      exact absurd rfl htravelling
    · rcases hm : (p task).outcome m with ⟨_ | r, m₂⟩ <;> simp only [hm] at hx
      · obtain rfl := (Prod.mk.inj hx).2
        exact h.ends m m₂ new hm hnew htravelling
      · split at hx
        · obtain rfl := (Prod.mk.inj hx).2
          -- the failure on its way is the one of the task
          have hreported := h.reports m
          rw [Action.Ensures, hm] at hreported
          obtain ⟨new', hnew', htells⟩ := hreported
          obtain rfl : new' = new := List.append_cancel_right (hnew'.symm.trans hnew)
          rw [h.refines _ _ _ hm]
          rw [htells.travelling r rfl] at htravelling
          cases r with
          | ok a => exact absurd rfl htravelling
          | error e => exact .escaped (.refl m₂)
        · simp at hx

theorem interpretUntil_keeps_reports (settings : Settings) (stop : Machine → Bool) (levels : Nat) :
    (interpretUntil settings stop levels).Keeps ((framesContract settings).and reportsContract) :=
  interpretUntil_keeps (fun _ h => by
    obtain ⟨hframes, hreports⟩ := Performer.keeps_and.mp h
    exact Performer.keeps_and.mpr
      ⟨step_keeps_frames hframes, step_keeps_reports hframes hreports⟩) stop levels

/-- A run that is broken off, and the same run that is not. -/
theorem interpretUntil_unwinds (settings : Settings) (stop : Machine → Bool) {levels levels' : Nat}
    (hlevels : levels ≤ levels') (task : Task α) :
    (interpretUntil settings stop levels task).Unwinds (interpret settings levels' task) := by
  induction levels generalizing levels' α with
  | zero =>
    refine .breakOff ?_
    rw [← interpretUntil_never]
    exact interpretUntil_obeys growthLaw_allows settings _ levels' task
  | succ levels ih =>
    obtain ⟨levels', rfl⟩ := Nat.exists_eq_succ_of_ne_zero (Nat.ne_zero_of_lt hlevels)
    obtain ⟨hframes, hreports⟩ :=
      Performer.keeps_and.mp (interpretUntil_keeps_reports settings stop levels)
    obtain ⟨-, hstep⟩ :=
      Performer.keeps_and.mp (interpretUntil_keeps_reports settings stop (levels + 1))
    exact until_unwinds (step_unwinds hframes hreports (fun _ => interpret_keptLaw settings levels')
      (fun _ task => ih (Nat.le_of_succ_le_succ hlevels) task) task) (hstep task)

theorem call_unwinds (settings : Settings) (stop : Machine → Bool) {levels levels' : Nat}
    (hlevels : levels ≤ levels') (c : Call α) :
    (c.run settings (interpretUntil settings stop levels)).Unwinds
      (c.run settings (interpret settings levels')) := by
  obtain ⟨hframes, hreports⟩ :=
    Performer.keeps_and.mp (interpretUntil_keeps_reports settings stop levels)
  exact (call_framed settings c).unwinds_framed hframes hreports
    (fun _ => interpret_keptLaw settings levels')
    fun _ => interpretUntil_unwinds settings stop hlevels

/-- In the call, nothing runs from the moment on at which the trace is this one: wherever the call
is broken off later than that, the machine is as it is in the end, but for what a failure on its
way does. -/
def Call.StopsAt (c : Call α) (settings : Settings) (levels : Nat) (m : Machine) (T : List Event)
    (m' : Machine) : Prop :=
  ∀ stop levels' m₁, levels' ≤ levels →
    (c.run settings (interpretUntil settings stop levels')).outcome m = (none, m₁) →
    T <:+ m₁.trace → m₁.Unwinds m'

/-- What was noted stays noted. -/
theorem trace_lasting : Lasting fun m m' => m.trace <:+ m'.trace where
  refl _ := List.suffix_rfl
  trans := List.IsSuffix.trans
  effect e m := growthLaw_allows e m

/-- What a call has noted when it is broken off, it notes in any case. -/
theorem call_broken_suffix (settings : Settings) (stop : Machine → Bool) {levels levels' : Nat}
    (hlevels : levels ≤ levels') (c : Call α) (m : Machine) :
    ((c.run settings (interpretUntil settings stop levels)).outcome m).2.trace <:+
      ((c.run settings (interpret settings levels')).outcome m).2.trace := by
  let never : Machine → Bool := fun _ => false
  have hnever : ∀ m, never m = true → stop m = true := by simp [never]
  have h := (call_madeOf settings c).precedes trace_lasting fun _ task =>
    interpretUntil_precedes trace_lasting settings hnever hlevels task
  rw [← interpretUntil_never]
  exact h.between m

/-- **Nothing runs any more** from the moment on at which a fault is raised that is not caught. -/
theorem call_stopsAt {settings : Settings} {levels : Nat} {c : Call α} {m m' : Machine}
    {r : Except Failure α}
    (h : (c.run settings (interpret settings levels)).outcome m = (some r, m'))
    {later earlier : List Event} {f : Fault}
    (htrace : m'.trace = (later ++ .raised f :: earlier) ++ m.trace)
    (hcaught : ∀ e, .caught e ∉ later) :
    c.StopsAt settings levels m (.raised f :: earlier ++ m.trace) m' := by
  intro stop levels' m₁ hlevels hbroken hsuffix
  have hunwinds := call_unwinds settings stop hlevels c
  have hreported := hunwinds.reports m
  have hbetween := call_broken_suffix settings stop hlevels c m
  rw [Action.Ensures, hbroken] at hreported
  rw [hbroken, h] at hbetween
  obtain ⟨new, hnew, htells⟩ := hreported
  -- the fault has been raised already, and what was noted since is noted in the end as well
  obtain ⟨since, hsince⟩ := hsuffix
  obtain ⟨rest, hrest⟩ := hbetween
  obtain rfl : since ++ .raised f :: earlier = new := by
    rw [hnew, ← List.append_assoc] at hsince
    exact List.append_cancel_right hsince
  obtain rfl : rest ++ since = later := by
    rw [hnew, htrace, ← List.append_assoc, ← List.append_assoc] at hrest
    exact List.append_cancel_right (List.append_cancel_right hrest)
  obtain ⟨interrupted, -, hgoes⟩ := htells.orderly.travelling_of_raised fun e he =>
    hcaught e (List.mem_append_right rest he)
  have hends := hunwinds.ends m m₁ _ hbroken hnew (by simp [hgoes])
  rw [h] at hends
  cases hends with
  | escaped h => exact h
  | @caught _ _ new' e htrace' he =>
    obtain rfl : new' = rest := List.append_cancel_right (htrace'.symm.trans hrest.symm)
    exact absurd (List.mem_append_left since he) (hcaught e)

end ClassMachine
