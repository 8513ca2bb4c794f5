import ClassMachine.Session
import ClassMachine.Proofs.Operations

/-!
# The moments of a run

A program runs client code at many moments, in the middle of definitions and
constructions as well as between its steps. What holds at all of them is stated here
by breaking runs off: `ClassMachine.interpretUntil` performs tasks like
`ClassMachine.interpret`, but is broken off in front of and behind a task if the
machine is in one of the given states, and leaves the machine as it is then.

* `ClassMachine.AtRest` are the machines between two steps of a program;
* `ClassMachine.Reachable` are the machines that a broken off step leaves, and what
  client effects make of them. For every machine that client code meets there is such a
  run: the one that is broken off behind the last task before. It does not matter
  whether the step would have ended.

`ClassMachine.Contract` is what is known of a task from its start and its end. A
contract that a performer passes on to the performer one level deeper is kept by all
runs (`ClassMachine.interpretUntil_keeps`), broken off or not, and so gives what holds
at all moments (`ClassMachine.Contract.moments`).
-/

namespace ClassMachine

variable {α : Type}

/-! ### Breaking off -/

/-- Performs tasks, but is broken off if the machine is in one of the given states in
front of a task or behind it. -/
def Performer.until (stop : Machine → Bool) (perform : Performer) : Performer := fun _ task => do
  if stop (← get) then breakOff
  else
    let r ← observe (perform task)
    if stop (← get) then breakOff else settle r

/-- Performs a task with at most so many levels, broken off in the given states. -/
def interpretUntil (settings : Settings) (stop : Machine → Bool) : Nat → Performer
  | 0 => fun _ _ => breakOff
  | levels + 1 => Performer.until stop fun _ task =>
    step settings (fun _ inner => interpretUntil settings stop levels inner) task

theorem interpretUntil_succ (settings : Settings) (stop : Machine → Bool) (levels : Nat) :
    interpretUntil settings stop (levels + 1) =
      (step settings (interpretUntil settings stop levels)).until stop := rfl

/-- Observing an action and going on as it has ended is the action itself. -/
theorem observe_settle (x : Action α) : (observe x >>= settle) = x := by
  funext m
  change (observe x >>= settle).outcome m = x.outcome m
  rw [outcome_bind, outcome_observe]
  rcases x.outcome m with ⟨_ | _ | _, _⟩ <;> rfl

theorem until_never (perform : Performer) : perform.until (fun _ => false) = perform := by
  funext α task
  exact observe_settle (perform task)

theorem outcome_until (stop : Machine → Bool) (perform : Performer) (task : Task α) (m : Machine) :
    (perform.until stop task).outcome m =
      if stop m then (none, m) else match (perform task).outcome m with
        | (none, m') => (none, m')
        | (some r, m') => if stop m' then (none, m') else (some r, m') := by
  simp only [Performer.until, outcome_bind, outcome_get]
  split
  · rfl
  · simp only [outcome_bind, outcome_observe]
    rcases (perform task).outcome m with ⟨_ | r, m'⟩
    · rfl
    · simp only [Option.map_some, outcome_get]
      split
      · rfl
      · cases r <;> rfl

/-- A task that has begun leaves the machine as it does if it is never broken off. -/
theorem snd_outcome_until (stop : Machine → Bool) (perform : Performer) (task : Task α)
    (m : Machine) : ((perform.until stop task).outcome m).2 =
      if stop m then m else ((perform task).outcome m).2 := by
  rw [outcome_until]
  split
  · rfl
  · rcases (perform task).outcome m with ⟨_ | r, m'⟩
    · rfl
    · simp only
      split <;> rfl

/-- Being broken off in more states is being broken off earlier. -/
theorem Action.Refines.until {p q : Performer} {task : Task α} (h : (p task).Refines (q task))
    {stop stop' : Machine → Bool} (hstop : ∀ m, stop' m = true → stop m = true) :
    (p.until stop task).Refines (q.until stop' task) := by
  intro m r m' hm
  rw [outcome_until] at hm ⊢
  split at hm
  · simp at hm
  next hgo =>
    rw [if_neg (mt (hstop m) hgo)]
    rcases hx : (p task).outcome m with ⟨_ | r₁, m₁⟩ <;> simp only [hx] at hm
    · simp at hm
    · split at hm
      · simp at hm
      next hgo₁ =>
        rw [h _ _ _ hx]
        simp only
        rw [if_neg (mt (hstop m₁) hgo₁)]
        exact hm

theorem until_refines (perform : Performer) (stop : Machine → Bool) (task : Task α) :
    (perform.until stop task).Refines (perform task) := by
  have h : (perform.until stop task).Refines (perform.until (fun _ => false) task) :=
    (Action.Refines.refl _).until (by simp)
  rwa [until_never] at h

/-- **A run that is never broken off is a run.** -/
theorem interpretUntil_never (settings : Settings) (levels : Nat) :
    interpretUntil settings (fun _ => false) levels = interpret settings levels := by
  induction levels with
  | zero => rfl
  | succ levels ih =>
    rw [interpretUntil_succ, until_never, ih]
    rfl

/-- **A run that was not broken off ends as the run does.** -/
theorem interpretUntil_refines (settings : Settings) (stop : Machine → Bool) (levels : Nat)
    (task : Task α) :
    (interpretUntil settings stop levels task).Refines (interpret settings levels task) := by
  induction levels generalizing α with
  | zero =>
    intro m r m' h
    simp [interpretUntil] at h
  | succ levels ih =>
    intro m r m' h
    exact (step_madeOf settings task).refines (fun _ inner => ih inner) m r m'
      (until_refines _ stop task m r m' h)

/-! ### Programs -/

/-- The machine between two steps of a program, its log still from the step before. -/
inductive AtRest (settings : Settings) : Machine → Prop
  | initial : AtRest settings .initial
  | step {m m' : Machine} {levels : Nat} {e : Expr} {report : Report} (hm : AtRest settings m)
      (h : runStep settings levels e m = some (report, m')) : AtRest settings m'

/-- The machine at some moment of a program: a step has come to a task or has left one,
and client code has gone on by itself since. -/
def Reachable (settings : Settings) (m' : Machine) : Prop :=
  ∃ m e stop levels es, AtRest settings m ∧ (∀ e ∈ es, Effect.IsClient e) ∧
    m' = Effect.applyAll es
      ((interpretUntil settings stop levels (.eval e {})).outcome { m with log := [] }).2

/-- A step that is broken off leaves a machine as it is at some moment. -/
theorem AtRest.reachable {settings : Settings} {m : Machine} (hm : AtRest settings m) (e : Expr)
    (stop : Machine → Bool) (levels : Nat) : Reachable settings
      ((interpretUntil settings stop levels (.eval e {})).outcome { m with log := [] }).2 :=
  ⟨m, e, stop, levels, [], hm, by simp, rfl⟩

/-! ### Contracts -/

/-- What is known of a task from the machine before, the outcome and the machine after.
Nothing can be known of a break at once, nor of a break behind the task but not of the
task. -/
structure Contract where
  Holds : ∀ ⦃α : Type⦄, Task α → Machine → Option (Except Failure α) → Machine → Prop
  start {α : Type} (task : Task α) (m : Machine) : Holds task m none m
  late {α : Type} {task : Task α} {m m' : Machine} {r : Except Failure α} :
    Holds task m (some r) m' → Holds task m none m'

/-- The performer keeps the contract. -/
def Performer.Keeps (perform : Performer) (K : Contract) : Prop :=
  ∀ ⦃α : Type⦄ (task : Task α) (m : Machine), (perform task).Ensures m (K.Holds task m)

/-- The contract that every task obeys its law. -/
def Contract.ofLaws (law : ∀ ⦃α : Type⦄, Task α → Law) : Contract where
  Holds _ task m r m' := (law task).Holds m r m'
  start task m := (law task).late ((law task).refl m)
  late {_ task _ _ _} h := (law task).late h

/-- Both contracts. -/
def Contract.and (K K' : Contract) : Contract where
  Holds _ task m r m' := K.Holds task m r m' ∧ K'.Holds task m r m'
  start task m := ⟨K.start task m, K'.start task m⟩
  late h := ⟨K.late h.1, K'.late h.2⟩

theorem Performer.keeps_and {perform : Performer} {K K' : Contract} :
    perform.Keeps (K.and K') ↔ perform.Keeps K ∧ perform.Keeps K' :=
  ⟨fun h => ⟨fun _ task m => (h task m).1, fun _ task m => (h task m).2⟩,
    fun h _ task m => ⟨h.1 task m, h.2 task m⟩⟩

theorem Performer.Keeps.until {perform : Performer} {K : Contract} (h : perform.Keeps K)
    (stop : Machine → Bool) : (perform.until stop).Keeps K := by
  intro α task m
  have hm := h task m
  simp only [Action.Ensures, Performer.until, outcome_bind, outcome_get] at hm ⊢
  split
  · exact K.start task m
  · simp only [outcome_bind, outcome_observe]
    generalize (perform task).outcome m = o at hm
    rcases o with ⟨_ | r, m'⟩
    · exact hm
    · simp only [Option.map_some, outcome_get]
      split
      · exact K.late hm
      · cases r <;> exact hm

/-- **What every level passes on is kept by all runs**, broken off or not. -/
theorem interpretUntil_keeps {settings : Settings} {K : Contract}
    (h : ∀ perform : Performer, perform.Keeps K → (step settings perform).Keeps K)
    (stop : Machine → Bool) (levels : Nat) : (interpretUntil settings stop levels).Keeps K := by
  induction levels with
  | zero => exact fun _ task m => K.start task m
  | succ levels ih => exact (h _ ih).until stop

theorem interpret_keeps {settings : Settings} {K : Contract}
    (h : ∀ perform : Performer, perform.Keeps K → (step settings perform).Keeps K)
    (levels : Nat) : (interpret settings levels).Keeps K := by
  rw [← interpretUntil_never]
  exact interpretUntil_keeps h _ _

/-- **What holds at all moments**, given a contract that all runs keep: what is there at first, is
not touched when the log is emptied, and is passed on from the start of a step to its end, holds
between steps; what every step that starts so has at a break, and client effects do not touch, holds
at every moment. -/
theorem Contract.moments_of_runs {settings : Settings} {K : Contract} (Rest Moment : Machine → Prop)
    (h : ∀ stop levels, (interpretUntil settings stop levels).Keeps K)
    (initial : Rest .initial) (clear : ∀ m, Rest m → Rest { m with log := [] })
    (ended : ∀ e m r m', Rest m → K.Holds (.eval e {}) m (some r) m' → Rest m')
    (broken : ∀ e m m', Rest m → K.Holds (.eval e {}) m none m' → Moment m')
    (client : ∀ e m, Effect.IsClient e → Moment m → Moment (e.apply m)) :
    (∀ m, AtRest settings m → Rest m) ∧ ∀ m, Reachable settings m → Moment m := by
  have hrest : ∀ m, AtRest settings m → Rest m := by
    -- induction on the steps of the program
    intro m hm
    induction hm with
    | initial => exact initial
    | @step m m' levels e report _ hrun ih =>
      have hK := h (fun _ => false) levels (.eval e {}) { m with log := [] }
      rw [interpretUntil_never] at hK
      simp only [runStep] at hrun
      split at hrun
      next r m₁ hr =>
        simp only [Option.some.injEq, Prod.mk.injEq] at hrun
        rw [Action.Ensures, hr] at hK
        exact hrun.2 ▸ ended e _ r _ (clear _ ih) hK
      next => simp at hrun
  refine ⟨hrest, ?_⟩
  rintro m' ⟨m, e, stop, levels, es, hm, hes, rfl⟩
  have hbreak : Moment
      ((interpretUntil settings stop levels (.eval e {})).outcome { m with log := [] }).2 := by
    have hK := h stop levels (.eval e {}) { m with log := [] }
    unfold Action.Ensures at hK
    generalize (interpretUntil settings stop levels (.eval e {})).outcome { m with log := [] } = o
      at hK
    rcases o with ⟨_ | r, m₁⟩
    · exact broken e _ _ (clear _ (hrest m hm)) hK
    · -- the step has ended before it was broken off, which says more
      exact broken e _ _ (clear _ (hrest m hm)) (K.late hK)
  exact Effect.applyAll_induction (fun e he m => client e m (hes e he)) hbreak

/-- The same, given a contract that every level passes on. -/
theorem Contract.moments {settings : Settings} {K : Contract} (Rest Moment : Machine → Prop)
    (h : ∀ perform : Performer, perform.Keeps K → (step settings perform).Keeps K)
    (initial : Rest .initial) (clear : ∀ m, Rest m → Rest { m with log := [] })
    (ended : ∀ e m r m', Rest m → K.Holds (.eval e {}) m (some r) m' → Rest m')
    (broken : ∀ e m m', Rest m → K.Holds (.eval e {}) m none m' → Moment m')
    (client : ∀ e m, Effect.IsClient e → Moment m → Moment (e.apply m)) :
    (∀ m, AtRest settings m → Rest m) ∧ ∀ m, Reachable settings m → Moment m :=
  moments_of_runs Rest Moment (interpretUntil_keeps h) initial clear ended broken client

end ClassMachine
