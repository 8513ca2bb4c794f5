import ClassMachine.Proofs.FrameStack

/-!
# What becomes of failures

A failure begins as a fault and travels outwards. On its way it gets a layer from each
activity that it interrupts, until client code catches it or the operation fails with it.
Nothing else happens to it, and the trace shows this: while a failure is on its way
(`ClassMachine.travelling`), the only events are the ends of the activities under way
(`ClassMachine.activeOf`), from the innermost one outwards, withdrawals of registrations, and
the one that says that the failure was caught (`ClassMachine.Orderly`).

So the trace of an operation tells how it ends (`ClassMachine.Tells`). This is shown along
the lines of `ClassMachine.MadeOf`, which knows the ways in which actions deal with failures.
A construction has to be looked at by itself: it takes off a frame before the failure goes
on, and this works because the frame is there.

Main statements: `ClassMachine.interpret_keeps_reports`, `ClassMachine.Tells.explains`.
-/

namespace ClassMachine

variable {α β : Type}

/-! ### Activities and failures in a trace -/

/-- The activities under way, the innermost one in front. -/
def activeOf : List Event → List Activity
  | [] => []
  | .began a :: T => a :: activeOf T
  | .finished _ :: T | .failed _ :: T => (activeOf T).tail
  | _ :: T => activeOf T

/-- The failure on its way, with the layers that it has got so far. -/
def travelling : List Event → Option Failure
  | [] => none
  | .raised f :: _ => some (.ofFault f)
  | .failed a :: T => (travelling T).map (·.within a.context)
  | .caught _ :: _ => none
  | _ :: T => travelling T

/-- The event may be noted after the trace. -/
def MayFollow : Event → List Event → Prop
  | .finished a, T => a ∈ (activeOf T).head? ∧ travelling T = none
  | .failed a, T => a ∈ (activeOf T).head? ∧ travelling T ≠ none
  | .caught e, T => travelling T = some e
  | .withdrawn .., _ => True
  | _, T => travelling T = none

/-- Activities end in the reverse of the order in which they began, and fail exactly if a
failure is on its way. -/
def Orderly : List Event → Prop
  | [] => True
  | e :: T => MayFollow e T ∧ Orderly T

/-- What is noted after a trace that no failure is on its way in. -/
theorem Orderly.append {new T : List Event} (h : Orderly new) (hT : travelling T = none) :
    activeOf (new ++ T) = activeOf new ++ activeOf T ∧ travelling (new ++ T) = travelling new ∧
      (Orderly T → Orderly (new ++ T)) := by
  induction new with
  | nil => exact ⟨rfl, hT, id⟩
  | cons e new ih =>
    obtain ⟨he, hnew⟩ := h
    obtain ⟨hactive, htravelling, horderly⟩ := ih hnew
    -- the innermost activity is one of the new ones, so the older ones do not matter
    have hhead {a : Activity} (ha : a ∈ (activeOf new).head?) :
        a ∈ (activeOf (new ++ T)).head? ∧
          (activeOf (new ++ T)).tail = (activeOf new).tail ++ activeOf T := by
      rw [hactive]
      cases hn : activeOf new with
      | nil => simp [hn] at ha
      | cons b rest => simpa [hn] using ha
    cases e with
    | began a => simp_all [activeOf, travelling, Orderly, MayFollow]
    | finished a | failed a =>
      obtain ⟨hmem, htail⟩ := hhead he.1
      simp_all [activeOf, travelling, Orderly, MayFollow]
    | _ => simp_all [activeOf, travelling, Orderly, MayFollow]

/-- The failure that an outcome is. -/
def failureOf : Except Failure α → Option Failure
  | .ok _ => none
  | .error e => some e

/-- The events of an action that has such an outcome: in the end no activity is under way,
and the failure on its way is the one that the action fails with. -/
structure Tells (r : Option (Except Failure α)) (new : List Event) : Prop where
  orderly : Orderly new
  active : ∀ r', r = some r' → activeOf new = []
  travelling : ∀ r', r = some r' → travelling new = failureOf r'

namespace Tells

variable {r : Option (Except Failure α)} {new : List Event}

theorem nil_none : Tells (none : Option (Except Failure α)) [] :=
  ⟨trivial, by simp, by simp⟩

theorem of_ended {r : Except Failure α} (horderly : Orderly new) (hactive : activeOf new = [])
    (htravelling : ClassMachine.travelling new = failureOf r) : Tells (some r) new :=
  ⟨horderly, fun _ _ => hactive, fun _ hr => Option.some.inj hr ▸ htravelling⟩

theorem raised (f : Fault) : Tells (some (.error (.ofFault f) : Except Failure α)) [.raised f] :=
  .of_ended ⟨rfl, trivial⟩ rfl rfl

/-- An outcome that means the same for failures. -/
theorem congr {r' : Except Failure α} {r'' : Except Failure β} (h : Tells (some r') new)
    (hr : failureOf r'' = failureOf r') : Tells (some r'') new :=
  .of_ended h.orderly (h.active r' rfl) ((h.travelling r' rfl).trans hr.symm)

/-- A broken off action tells less. -/
theorem broken (h : Tells r new) : Tells (none : Option (Except Failure β)) new :=
  ⟨h.orderly, by simp, by simp⟩

/-- What follows an answer. -/
theorem append {a : β} {old : List Event} (h : Tells r new)
    (hold : Tells (some (.ok a : Except Failure β)) old) : Tells r (new ++ old) := by
  obtain ⟨hactive, htravelling, horderly⟩ := h.orderly.append (hold.travelling _ rfl)
  refine ⟨horderly hold.orderly, fun r' hr => ?_, fun r' hr => ?_⟩
  · rw [hactive, h.active r' hr, hold.active _ rfl]
    rfl
  · rw [htravelling, h.travelling r' hr]

/-- Plain events. -/
theorem plain {a : α} (h : ∀ e ∈ new, e.IsPlain) : Tells (some (.ok a : Except Failure α)) new := by
  induction new with
  | nil => exact .of_ended trivial rfl rfl
  | cons e new ih =>
    have hnew := ih fun e he => h e (List.mem_cons_of_mem _ he)
    have he := h e List.mem_cons_self
    have hcalm : ClassMachine.travelling new = none := hnew.travelling _ rfl
    have hactive : activeOf new = [] := hnew.active _ rfl
    obtain ⟨hfollow, hactive', hcalm'⟩ : MayFollow e new ∧ activeOf (e :: new) = [] ∧
        ClassMachine.travelling (e :: new) = none := by
      cases e <;> simp_all [Event.IsPlain, MayFollow, activeOf, ClassMachine.travelling]
    exact .of_ended ⟨hfollow, hnew.orderly⟩ hactive' hcalm'

/-- The events of an activity around those of an action. -/
theorem during {a : Activity} (h : Tells r new) :
    Tells (none : Option (Except Failure α)) (new ++ [.began a]) ∧
    (∀ x, r = some (.ok x) →
      Tells (some (.ok x : Except Failure α)) (.finished a :: (new ++ [.began a]))) ∧
    ∀ e, r = some (.error e) → Tells (some (.error (e.within a.context) : Except Failure α))
      (.failed a :: (new ++ [.began a])) := by
  obtain ⟨hactive, htravelling, horderly⟩ := h.orderly.append (T := [.began a]) rfl
  have horderly := horderly ⟨rfl, trivial⟩
  refine ⟨⟨horderly, by simp, by simp⟩, fun x hr => ?_, fun e hr => ?_⟩
  · have hcalm := htravelling.trans (h.travelling _ hr)
    rw [h.active _ hr] at hactive
    have hhead : a ∈ (activeOf (new ++ [.began a])).head? := by simp [hactive, activeOf]
    exact .of_ended ⟨⟨hhead, hcalm⟩, horderly⟩ (by simp [activeOf, hactive]) hcalm
  · have hfailure := htravelling.trans (h.travelling _ hr)
    rw [h.active _ hr] at hactive
    have hhead : a ∈ (activeOf (new ++ [.began a])).head? := by simp [hactive, activeOf]
    exact .of_ended ⟨⟨hhead, by simp [hfailure, failureOf]⟩, horderly⟩
      (by simp [activeOf, hactive]) (by simp [ClassMachine.travelling, hfailure, failureOf])

/-- A failure is caught. -/
theorem caught {e : Failure} (h : Tells (some (.error e : Except Failure α)) new) (b : β) :
    Tells (some (.ok b : Except Failure β)) (.caught e :: new) :=
  .of_ended ⟨h.travelling _ rfl, h.orderly⟩ (h.active _ rfl) rfl

/-- What is taken back before a failure goes on. -/
theorem withdrawn {e : Failure} (h : Tells (some (.error e : Except Failure α)) new)
    {undone : List Event} (hundone : ∀ e ∈ undone, ∃ id kept, e = .withdrawn id kept) :
    Tells (some (.error e : Except Failure β)) (undone ++ new) := by
  induction undone with
  | nil => exact h.congr rfl
  | cons e undone ih =>
    have hrest := ih fun e he => hundone e (List.mem_cons_of_mem _ he)
    obtain ⟨id, kept, rfl⟩ := hundone e List.mem_cons_self
    exact ⟨⟨trivial, hrest.orderly⟩, hrest.active, hrest.travelling⟩

end Tells

/-! ### Actions that tell how they end -/

/-- What is noted from one machine to the other tells of such an outcome. -/
def Machine.Reports (m : Machine) (r : Option (Except Failure α)) (m' : Machine) : Prop :=
  ∃ new, m'.trace = new ++ m.trace ∧ Tells r new

/-- What the action notes tells how it ends. -/
def Action.Reports (x : Action α) : Prop :=
  ∀ m, x.Ensures m m.Reports

theorem Action.Reports.of_outcome {x : Action α} (hx : x.Reports) {m m' : Machine}
    {r : Option (Except Failure α)} (h : x.outcome m = (r, m')) : m.Reports r m' := by
  have hm := hx m
  rwa [Action.Ensures, h] at hm

theorem Effect.IsPlain.trace_apply {e : Effect} (h : e.IsPlain) (m : Machine) :
    ∃ new, (e.apply m).trace = new ++ m.trace ∧ ∀ x ∈ new, x.IsPlain := by
  cases e with
  | note e => exact ⟨[e], rfl, by simpa [IsPlain] using h⟩
  | relink id => exact ⟨[.relinked id], rfl, by simp [Event.IsPlain]⟩
  | define => exact ⟨[], trace_apply_define .., by simp⟩
  | _ => exact ⟨[], rfl, by simp⟩

theorem Effect.IsUndoing.trace_apply {e : Effect} (h : e.IsUndoing) (m : Machine) :
    ∃ new, (e.apply m).trace = new ++ m.trace ∧ ∀ x ∈ new, ∃ id kept, x = .withdrawn id kept := by
  cases e with
  | note e =>
    cases e with
    | withdrawn id kept => exact ⟨[_], rfl, fun x hx => ⟨id, kept, List.mem_singleton.mp hx⟩⟩
    | _ => exact h.elim
  | withdraw => exact ⟨[], rfl, by simp⟩
  | _ => exact h.elim

/-- What all effects note, if each of them notes events of one kind. -/
theorem Effect.trace_applyAll {P : Event → Prop} {es : List Effect}
    (h : ∀ e ∈ es, ∀ m : Machine, ∃ new, (e.apply m).trace = new ++ m.trace ∧ ∀ x ∈ new, P x)
    (m : Machine) : ∃ new, (applyAll es m).trace = new ++ m.trace ∧ ∀ x ∈ new, P x := by
  induction es generalizing m with
  | nil => exact ⟨[], rfl, by simp⟩
  | cons e es ih =>
    obtain ⟨new, hnew, hP⟩ := h e (by simp) m
    obtain ⟨new', hnew', hP'⟩ := ih (fun e he => h e (by simp [he])) (e.apply m)
    refine ⟨new' ++ new, by rw [applyAll_cons, hnew', hnew, List.append_assoc], fun x hx => ?_⟩
    exact (List.mem_append.mp hx).elim (hP' x) (hP x)

namespace Machine.Reports

variable {m m' m'' : Machine} {r : Option (Except Failure α)}

theorem refl {a : α} : m.Reports (some (.ok a)) m :=
  ⟨[], rfl, .plain (by simp)⟩

/-- What follows an answer. -/
theorem after {b : β} (h : m.Reports (some (.ok b)) m') (h' : m'.Reports r m'') :
    m.Reports r m'' := by
  obtain ⟨new, hnew, htells⟩ := h
  obtain ⟨new', hnew', htells'⟩ := h'
  exact ⟨new' ++ new, by rw [hnew', hnew, List.append_assoc], htells'.append htells⟩

theorem congr {r' : Except Failure α} {r'' : Except Failure β} (h : m.Reports (some r') m')
    (hr : failureOf r'' = failureOf r') : m.Reports (some r'') m' := by
  obtain ⟨new, hnew, htells⟩ := h
  exact ⟨new, hnew, htells.congr hr⟩

theorem broken (h : m.Reports r m') : m.Reports (none : Option (Except Failure β)) m' := by
  obtain ⟨new, hnew, htells⟩ := h
  exact ⟨new, hnew, htells.broken⟩

/-- A plain event is noted. -/
theorem note {a : α} {e : Event} (he : e.IsPlain) (h : m'.trace = e :: m.trace) :
    m.Reports (some (.ok a)) m' :=
  ⟨[e], h, .plain (by simpa)⟩

/-- A failure is caught. -/
theorem caught {e : Failure} (h : m.Reports (some (.error e : Except Failure α)) m') (b : β) :
    m.Reports (some (.ok b)) ((Effect.note (.caught e)).apply m') := by
  obtain ⟨new, hnew, htells⟩ := h
  exact ⟨.caught e :: new, congrArg (Event.caught e :: ·) hnew, htells.caught b⟩

theorem raised {f : Fault} (h : m'.trace = .raised f :: m.trace) :
    m.Reports (some (.error (.ofFault f) : Except Failure α)) m' :=
  ⟨[.raised f], h, .raised f⟩

end Machine.Reports

namespace Action.Reports

variable {x : Action α} {f : α → Action β}

theorem breakOff : (breakOff : Action α).Reports :=
  fun _ => ⟨[], rfl, .nil_none⟩

theorem of_does {A : Effect → Prop} (h : ∀ m, x.Does A m) : x.Reports := by
  intro m
  cases h m with
  | answers hes h =>
    refine .of_outcome h ?_
    obtain ⟨new, hnew, hplain⟩ := Effect.trace_applyAll
      (fun e he m => Effect.IsPlain.trace_apply (hes e he).2 m) m
    exact ⟨new, hnew, .plain hplain⟩
  | raises _ h => exact .of_outcome h (.raised rfl)

theorem bind (hx : x.Reports) (hf : ∀ a, (f a).Reports) : (x >>= f).Reports := fun m =>
  (hx m).bind (fun a m' _ h => (hf a m').mono fun _ _ => h.after) (fun _ _ h => h.congr rfl)
    fun _ h => h.broken

theorem during {activity : Activity} (hx : x.Reports) : (during activity x).Reports := by
  intro m
  let m₁ : Machine := (Effect.note (.began activity)).apply m
  have htrace {new : List Event} {m₂ : Machine} (hnew : m₂.trace = new ++ m₁.trace) :
      m₂.trace = (new ++ [.began activity]) ++ m.trace := by
    rw [hnew, List.append_assoc]
    rfl
  refine during_ensures (hx m₁) ?_ ?_ ?_
  · rintro a m₂ ⟨new, hnew, htells⟩
    exact ⟨.finished activity :: (new ++ [.began activity]), congrArg _ (htrace hnew),
      htells.during.2.1 a rfl⟩
  · rintro e m₂ ⟨new, hnew, htells⟩
    exact ⟨.failed activity :: (new ++ [.began activity]), congrArg _ (htrace hnew),
      htells.during.2.2 e rfl⟩
  · rintro m₂ ⟨new, hnew, htells⟩
    exact ⟨_, htrace hnew, htells.during.1.broken⟩

theorem attempt {g : Except Failure α → Action β} {handler : Failure → Action β} (hx : x.Reports)
    (hok : ∀ a, (g (.ok a)).Reports) (hhandler : ∀ e, (handler e).Reports)
    (herror : ∀ e, g (.error e) = note (.caught e) >>= fun _ => handler e) :
    (observe x >>= g).Reports := by
  refine fun m => (hx m).bind_observe (fun r m₁ _ h => ?_) fun _ h => h.broken
  cases r with
  | ok a => exact (hok a m₁).mono fun _ _ => h.after
  | error e =>
    rw [herror]
    exact .bind_ok (n := (Effect.note (.caught e)).apply m₁) rfl
      ((hhandler e _).mono fun _ _ => (h.caught ()).after)

theorem undoing {g : Except Failure α → Action β} {undo : Action Unit} (hx : x.Reports)
    (hok : ∀ a, (g (.ok a)).Reports)
    (hundo : ∀ m, ∃ es, (∀ e ∈ es, Effect.IsUndoing e) ∧
      undo.outcome m = (some (.ok ⟨⟩), Effect.applyAll es m))
    (herror : ∀ e, g (.error e) = undo >>= fun _ => throw e) : (observe x >>= g).Reports := by
  refine fun m => (hx m).bind_observe (fun r m₁ _ h => ?_) fun _ h => h.broken
  cases r with
  | ok a => exact (hok a m₁).mono fun _ _ => h.after
  | error e =>
    rw [herror]
    obtain ⟨new, hnew, htells⟩ := h
    obtain ⟨es, hes, hundo⟩ := hundo m₁
    obtain ⟨undone, hundone, hwithdrawn⟩ := Effect.trace_applyAll
      (fun e he m => Effect.IsUndoing.trace_apply (hes e he) m) m₁
    refine .bind_ok hundo ⟨undone ++ new, ?_, htells.withdrawn hwithdrawn⟩
    rw [List.append_assoc, ← hnew]
    exact hundone

end Action.Reports

/-- **What is put together tells how it ends** if its parts do and no frame is taken off. -/
theorem MadeOf.reports {A : Effect → Prop} {X : Operations} {perform : Performer}
    {F : Performer → Action α} (hF : MadeOf A X F) (hA : ¬ A .pop)
    (hX : ∀ ⦃β : Type⦄ (G : Performer → Action β), X G → (G perform).Reports)
    (heval : ∀ e ctx, (perform (.eval e ctx)).Reports) : (F perform).Reports := by
  induction hF with
  | steps _ h => exact .of_does h
  | breakOff => exact .breakOff
  | eval e ctx => exact heval e ctx
  | operation h => exact hX _ h
  | bind _ _ hF hG => exact hF.bind hG
  | read _ _ hF => exact .bind (.of_does (Action.does_get A)) hF
  | during _ _ hF => exact hF.during
  | attempt _ _ _ _ herror hF hok hH =>
    exact hF.attempt hok hH fun e => congrFun (herror e) perform
  | undoing _ _ _ hundo herror hF hok =>
    refine hF.undoing hok (fun m => ?_) fun e => congrFun (herror e) perform
    obtain ⟨es, hes, h⟩ := hundo m
    exact ⟨es, fun e he => (hes e he).2, h⟩
  | popping hpop => exact absurd hpop hA

/-! ### All operations -/

/-- The contract that what a task notes tells how it ends. -/
def reportsContract : Contract where
  Holds _ _ m r m' := m.Reports r m'
  start _ _ := ⟨[], rfl, .nil_none⟩
  late h := h.broken

section Operations

variable {settings : Settings} {perform : Performer}
  (hframes : perform.Keeps (framesContract settings)) (hreports : perform.Keeps reportsContract)

include hreports

/-- What is made of anything but constructions that take off their frame. -/
theorem MadeOf.reports_of_keeps {A : Effect → Prop} {F : Performer → Action α}
    (hF : MadeOf A .Constructions F) (hA : ¬ A .pop) : (F perform).Reports := by
  refine hF.reports hA ?_ fun e ctx => hreports (.eval e ctx)
  rintro β _ ⟨cls, newTarget, args⟩
  exact hreports (.construct cls newTarget args)

theorem runConstructor_reports (cls newTarget : ClassId) (args : List Value) :
    (runConstructor perform cls newTarget args).Reports :=
  (runConstructor_madeOf (A := (· ≠ .pop)) (fun _ => Effect.IsFraming.ne_pop) cls (by simp)
    (by simp) args).reports_of_keeps hreports (by simp)

include hframes

/-- **A construction tells how it ends**, since its frame is there to be taken off. -/
theorem constructFor_reports (cls newTarget : ClassId) (args : List Value) :
    (constructFor settings perform cls newTarget args).Reports := by
  intro m
  have h₁ : m.Reports (some (.ok ())) ((Effect.note (.called cls newTarget)).apply m) :=
    .note (e := .called cls newTarget) trivial rfl
  have h₂ : m.Reports (some (.ok ())) (m.begun cls newTarget) := h₁
  refine constructFor_ensures (P := fun r m' =>
    (ownFrameLaw settings).Holds (m.begun cls newTarget) r m' ∧
      (m.begun cls newTarget).Reports r m') (h₁.after (.raised rfl))
    (fun _ => ⟨runConstructor_ownFrameLaw hframes cls newTarget args _,
      runConstructor_reports hreports cls newTarget args _⟩)
    (fun r m₃ h => ?_) fun m₃ h => h₂.after h.2.broken
  obtain ⟨f', hm₃⟩ := h.1.1 _ m.frames rfl
  have h₃ : m.Reports (some r) m₃ := h₂.after h.2
  refine finishConstruction_ensures hm₃ ?_ ?_ ?_
  · rintro o rfl -
    exact h₃.congr rfl
  · rintro rfl
    exact h₃.after (.raised rfl)
  · rintro e rfl
    exact h₃.congr rfl

/-- What a call and an expression are made of. -/
theorem MadeOf.reports_framed {F : Performer → Action α}
    (hF : MadeOf (· ≠ .pop) (Operations.Framed settings) F) : (F perform).Reports := by
  refine hF.reports (by simp) (fun β G hG => ?_) fun e ctx => hreports (.eval e ctx)
  cases hG with
  | task cls newTarget args => exact hreports (.construct cls newTarget args)
  | frame cls newTarget args => exact constructFor_reports hframes hreports cls newTarget args

theorem call_reports (c : Call α) : (c.run settings perform).Reports :=
  (call_framed settings c).reports_framed hframes hreports

/-- **Each level passes the contract on.** -/
theorem step_keeps_reports : (step settings perform).Keeps reportsContract := by
  intro α task
  cases task with
  | eval e ctx => exact (evaluateExpr_framed settings ctx e).reports_framed hframes hreports
  | construct cls newTarget args => exact constructFor_reports hframes hreports cls newTarget args

end Operations

/-- The performers of all levels keep to their frames and tell how tasks end. -/
theorem interpret_keeps_reports (settings : Settings) (levels : Nat) :
    (interpret settings levels).Keeps ((framesContract settings).and reportsContract) := by
  refine interpret_keeps (fun perform h => ?_) levels
  obtain ⟨hframes, hreports⟩ := Performer.keeps_and.mp h
  exact Performer.keeps_and.mpr ⟨step_keeps_frames hframes, step_keeps_reports hframes hreports⟩

/-! ### The way of a failure -/

/-- **On the way out** a failure gets exactly the layers of the activities that it
interrupts. -/
theorem Orderly.travelling_of_raised {later earlier : List Event} {f : Fault}
    (h : Orderly (later ++ .raised f :: earlier)) (hcaught : ∀ e, .caught e ∉ later) :
    ∃ interrupted, activeOf earlier = interrupted ++ activeOf (later ++ .raised f :: earlier) ∧
      travelling (later ++ .raised f :: earlier) =
        some ⟨(interrupted.map Activity.context).reverse, f⟩ := by
  -- induction on what comes later, the newest event last
  induction later with
  | nil => exact ⟨[], rfl, rfl⟩
  | cons e later ih =>
    obtain ⟨he, hlater⟩ := h
    obtain ⟨interrupted, hactive, htravelling⟩ := ih hlater fun e he =>
      hcaught e (List.mem_cons_of_mem _ he)
    -- nothing but these may follow while a failure is on its way
    cases e with
    | failed a =>
      obtain ⟨rest, hrest⟩ := List.head?_eq_some_iff.mp he.1
      have hrest : activeOf (later ++ .raised f :: earlier) = a :: rest := hrest
      exact ⟨interrupted ++ [a], by simp [hactive, activeOf, hrest],
        by simp [travelling, htravelling, Failure.within]⟩
    | caught e => exact absurd List.mem_cons_self (hcaught e)
    | withdrawn => exact ⟨interrupted, hactive, htravelling⟩
    | finished a => exact absurd he.2 (by simp [htravelling])
    | _ => exact absurd he (by simp [MayFollow, htravelling])

/-- A failure on its way was raised and not caught since. -/
theorem exists_raised_of_travelling {T : List Event} {e : Failure} (h : travelling T = some e) :
    ∃ later f earlier, T = later ++ .raised f :: earlier ∧ ∀ e, .caught e ∉ later := by
  induction T generalizing e with
  | nil => simp [travelling] at h
  | cons x T ih =>
    have further {e : Failure} (h : travelling T = some e) (hx : ∀ e, x ≠ .caught e) :
        ∃ later f earlier, x :: T = later ++ .raised f :: earlier ∧ ∀ e, .caught e ∉ later := by
      obtain ⟨later, f, earlier, rfl, hcaught⟩ := ih h
      refine ⟨x :: later, f, earlier, rfl, fun e he => ?_⟩
      exact (List.mem_cons.mp he).elim (fun he => hx e he.symm) (hcaught e)
    cases x with
    | raised f => exact ⟨[], f, T, rfl, by simp⟩
    | caught => simp [travelling] at h
    | failed a =>
      obtain ⟨e', he', -⟩ := Option.map_eq_some_iff.mp h
      exact further he' (by simp)
    | _ => exact further h (by simp)

/-- What the events of an operation say about its outcome. -/
structure Explains (new : List Event) (r : Except Failure α) : Prop where
  orderly : Orderly new
  /-- A fault that is not caught any more is the cause of a failure, under one layer for each
  activity that was under way when the fault was raised, the outermost one first. -/
  raised : ∀ later f earlier, new = later ++ .raised f :: earlier → (∀ e, .caught e ∉ later) →
    r = .error ⟨((activeOf earlier).map Activity.context).reverse, f⟩
  /-- Every failure comes from such a fault. -/
  cause : ∀ e, r = .error e → ∃ later f earlier, new = later ++ .raised f :: earlier ∧
    (∀ e, .caught e ∉ later) ∧ e = ⟨((activeOf earlier).map Activity.context).reverse, f⟩

theorem Tells.explains {new : List Event} {r : Except Failure α} (h : Tells (some r) new) :
    Explains new r := by
  have raised (later : List Event) (f : Fault) (earlier : List Event)
      (hnew : new = later ++ .raised f :: earlier) (hcaught : ∀ e, .caught e ∉ later) :
      r = .error ⟨((activeOf earlier).map Activity.context).reverse, f⟩ := by
    have horderly := h.orderly
    have hactive := h.active r rfl
    have hfailure := h.travelling r rfl
    rw [hnew] at horderly hactive hfailure
    obtain ⟨interrupted, hinterrupted, htravelling⟩ := horderly.travelling_of_raised hcaught
    -- no activity is left over, so the failure has interrupted all of them
    rw [hactive, List.append_nil] at hinterrupted
    rw [htravelling, ← hinterrupted] at hfailure
    cases r with
    | ok a => simp [failureOf] at hfailure
    | error e => rw [Option.some.inj hfailure]
  refine ⟨h.orderly, raised, fun e hr => ?_⟩
  subst hr
  obtain ⟨later, f, earlier, hnew, hcaught⟩ := exists_raised_of_travelling (h.travelling _ rfl)
  exact ⟨later, f, earlier, hnew, hcaught, Except.error.inj (raised later f earlier hnew hcaught)⟩

end ClassMachine
