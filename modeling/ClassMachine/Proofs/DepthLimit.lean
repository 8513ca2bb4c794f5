import ClassMachine.Proofs.Comparison
import ClassMachine.Session

/-!
# The limit on nested constructions

Constructions may nest only so deep, and one that would nest deeper fails. Nothing else in the
machine looks at the limit. So a run under one limit tells what happens under a greater one: the
two runs do the same, effect for effect, until a construction of the first one is refused. A run
in which none is refused – not even inside an attempt that catches the failure – is the same run
under every greater limit.

That two actions go together in this way is `ClassMachine.Action.Loosened`. It is closed under
putting actions together (`ClassMachine.loosening`), so it is shown of one construction, where the
limits differ, and passed on from level to level (`ClassMachine.step_loosened`).

Main statement: `ClassMachine.depth_limit_monotone`.
-/

namespace ClassMachine

variable {α β : Type}

/-! ### Called and refused constructions -/

/-- Does the event tell that a constructor is called? -/
def Event.isCall : Event → Bool
  | called .. => true
  | _ => false

/-- Does the event tell that a construction was refused because of its depth? -/
def Event.isTooDeep : Event → Bool
  | raised (.tooDeep _) => true
  | _ => false

/-- No construction has ever been refused because of its depth. -/
def Machine.NeverTooDeep (m : Machine) : Prop :=
  ∀ e ∈ m.trace, e.isTooDeep = false

instance (m : Machine) : Decidable m.NeverTooDeep :=
  inferInstanceAs (Decidable (∀ e ∈ m.trace, e.isTooDeep = false))

/-- The law that what was noted stays noted. -/
def growthLaw : Law where
  ended m m' := m.trace <:+ m'.trace
  broken m m' := m.trace <:+ m'.trace
  refl _ := List.suffix_rfl
  trans := List.IsSuffix.trans
  late h := h
  trans_broken := List.IsSuffix.trans

theorem growthLaw_allows (e : Effect) : growthLaw.Allows e := by
  intro m
  obtain ⟨new, hnew⟩ := e.trace_apply m
  exact ⟨new, hnew.symm⟩

theorem Action.Obeys.suffix {x : Action α} (h : x.Obeys growthLaw) (m : Machine) :
    m.trace <:+ (x.outcome m).2.trace := by
  have hm := h m
  unfold Action.Ensures at hm
  generalize x.outcome m = o at hm ⊢
  rcases o with ⟨_ | _, m'⟩ <;> exact hm

theorem growthLaw_of_effects {A : Effect → Prop} {x : Action α} (h : ∀ m, ∃ r es,
      (∀ e ∈ es, A e) ∧ x.outcome m = (some r, Effect.applyAll es m)) : x.Obeys growthLaw := by
  intro m
  obtain ⟨r, es, -, h⟩ := h m
  rw [Action.Ensures, h]
  exact growthLaw.ended_applyAll (fun e _ => growthLaw_allows e) m

/-- If no construction has been refused in the end, none had been before. -/
theorem Machine.NeverTooDeep.earlier {m m' : Machine} (h : m'.NeverTooDeep)
    (hgrows : m.trace <:+ m'.trace) : m.NeverTooDeep :=
  fun e he => h e (hgrows.subset he)

/-! ### Actions under a looser limit -/

/-- The second action is the first one under a looser limit: where the first one ends and no
construction has been refused, the second one ends in the same way. -/
structure Action.Loosened (x y : Action α) : Prop where
  grows : x.Obeys growthLaw
  same : ∀ m r m', x.outcome m = (some r, m') → m'.NeverTooDeep → y.outcome m = (some r, m')

namespace Action.Loosened

variable {x y : Action α} {f g : α → Action β}

theorem refl (h : x.Obeys growthLaw) : x.Loosened x :=
  ⟨h, fun _ _ _ hx _ => hx⟩

theorem bind (h : x.Loosened y) (hfg : ∀ a, (f a).Loosened (g a)) :
    (x >>= f).Loosened (y >>= g) where
  grows := h.grows.bind fun a => (hfg a).grows
  same m r m' hx hm' := by
    rw [outcome_bind] at hx ⊢
    rcases hm : x.outcome m with ⟨_ | e | a, m₁⟩ <;> simp only [hm] at hx
    · simp at hx
    · obtain ⟨hr, rfl⟩ := Prod.mk.inj hx
      rw [h.same m _ m₁ hm hm']
      exact congrArg (·, m₁) hr
    · -- nothing was refused in the first part, since that would still be noted
      have hgrows := (hfg a).grows m₁
      rw [Action.Ensures, hx] at hgrows
      rw [h.same m _ m₁ hm (hm'.earlier hgrows)]
      exact (hfg a).same m₁ r m' hx hm'

theorem observe (h : x.Loosened y) : (observe x).Loosened (observe y) where
  grows := h.grows.observe
  same m r m' hx hm' := by
    rw [outcome_observe] at hx ⊢
    rcases hm : x.outcome m with ⟨_ | r₁, m₁⟩ <;> simp only [hm] at hx
    · simp at hx
    · obtain ⟨hr, rfl⟩ := Prod.mk.inj hx
      rw [h.same m _ m₁ hm hm']
      exact congrArg (·, m₁) hr

/-- Nothing is known of an action that is broken off at once. -/
theorem breakOff : (breakOff : Action α).Loosened y :=
  ⟨.breakOff, fun m r m' hx => by simp at hx⟩

end Action.Loosened

/-- Actions are compared under a looser limit. -/
def loosening : Comparison fun _ => True :=
  .ofActions (fun _ x y => x.Loosened y) (fun _ _ h => .refl (growthLaw_of_effects h))
    (fun _ => .breakOff) (fun _ _ _ _ _ _ h hfg => h.bind hfg) fun _ _ _ h => h.observe

/-! ### One level -/

theorem pure_grows (a : α) : (pure a : Action α).Obeys growthLaw :=
  growthLaw.refl

theorem finishConstruction_grows (r : Except Failure Unit) :
    (finishConstruction r).Obeys growthLaw := by
  refine .bind (fun m => ?_) fun f => .bind ?_ fun _ => ?_
  · rw [Action.Ensures, outcome_popFrame]
    split
    · exact List.suffix_rfl
    · exact List.suffix_cons _ _
  · intro m
    cases r <;> exact List.suffix_rfl
  · intro m
    cases f.result with
    | ok o => exact List.suffix_rfl
    | error fault => exact List.suffix_cons _ _

section Level

variable {p q : Performer} (hpq : ∀ ⦃α : Type⦄ (task : Task α), (p task).Loosened (q task))
  {settings : Settings} {limit : Nat} (hlimit : settings.maxDepth ≤ limit)

include hpq hlimit

/-- **The one place where the limit matters.** -/
theorem constructFor_loosened (cls newTarget : ClassId) (args : List Value) :
    (constructFor settings p cls newTarget args).Loosened
      (constructFor { settings with maxDepth := limit } q cls newTarget args) where
  grows := by
    have hp ⦃α : Type⦄ (task : Task α) : loosening.Holds (p task) (p task) :=
      .refl (hpq task).grows
    exact ((construction_madeOf settings cls newTarget args).compared_constructions
      (fun _ _ => trivial) hp).grows
  same m r m' hx hm' := by
    rcases Nat.lt_or_ge m.frames.length settings.maxDepth with hroom | hfull
    · have hrun : loosening.Holds (runConstructor p cls newTarget args)
          (runConstructor q cls newTarget args) :=
        (runConstructor_madeOf (A := fun _ => True) (fun _ _ => trivial) cls (fun _ => trivial)
          (fun _ => trivial) args).compared_constructions (fun _ _ => trivial) hpq
      have hwhole := hrun.observe.bind fun r => .refl (finishConstruction_grows r)
      have hroom' : m.frames.length < { settings with maxDepth := limit : Settings }.maxDepth :=
        Nat.lt_of_lt_of_le hroom hlimit
      rw [outcome_constructFor_of_room hroom] at hx
      rw [outcome_constructFor_of_room hroom']
      exact hwhole.same _ r m' hx hm'
    · -- the construction is refused, and that is noted
      rw [outcome_constructFor_of_full hfull] at hx
      obtain ⟨-, rfl⟩ := Prod.mk.inj hx
      exact absurd (hm' _ List.mem_cons_self) (by simp [Event.isTooDeep])

theorem construct_loosened (cls : ClassId) (args : List Value) :
    (construct settings p cls args).Loosened
      (construct { settings with maxDepth := limit } q cls args) := by
  have hannounce : loosening.Holds (announceConstruction settings cls)
      (announceConstruction { settings with maxDepth := limit } cls) :=
    (announceConstruction_madeOf (A := fun _ => True) (X := .none) (fun _ _ => trivial)
      fun _ => trivial).compared_alone (F := fun _ => announceConstruction settings cls) hpq
  refine hannounce.bind fun _ => (constructFor_loosened hpq hlimit cls cls args).bind fun this =>
    .refl ?_
  exact .bind (fun _ => growthLaw_allows (.note _) _) fun _ => pure_grows this

/-- **Each level passes on** that the limit is looser. -/
theorem step_loosened (task : Task α) :
    (step settings p task).Loosened (step { settings with maxDepth := limit } q task) :=
  step_compared (K := loosening) hpq (construct_loosened hpq hlimit)
    (constructFor_loosened hpq hlimit) task

end Level

/-! ### Whole runs -/

section Runs

variable {settings : Settings} {limit : Nat} (hlimit : settings.maxDepth ≤ limit)
  {levels levels' : Nat} (hlevels : levels ≤ levels')

include hlimit hlevels

theorem interpret_loosened (task : Task α) :
    (interpret settings levels task).Loosened
      (interpret { settings with maxDepth := limit } levels' task) := by
  induction levels generalizing levels' α with
  | zero => exact .breakOff
  | succ levels ih =>
    obtain ⟨levels', rfl⟩ := Nat.exists_eq_succ_of_ne_zero (Nat.ne_zero_of_lt hlevels)
    rw [interpret_succ, interpret_succ]
    exact step_loosened (fun _ inner => ih (Nat.le_of_succ_le_succ hlevels) inner) hlimit task

theorem runStep_loosened {e : Expr} {m m' : Machine} {report : Report}
    (h : runStep settings levels e m = some (report, m')) (hm' : m'.NeverTooDeep) :
    runStep { settings with maxDepth := limit } levels' e m = some (report, m') := by
  rw [runStep] at h ⊢
  rcases hrun : (interpret settings levels (.eval e {})).outcome { m with log := [] } with
    ⟨_ | r, m₁⟩ <;> simp only [hrun] at h
  · simp at h
  · obtain ⟨hreport, rfl⟩ := Prod.mk.inj (Option.some.inj h)
    rw [(interpret_loosened hlimit hlevels (.eval e {})).same _ r m₁ hrun hm']
    exact congrArg (fun report => some (report, m₁)) hreport

end Runs

/-- Runs a program all of whose steps end. For each step there is its report and the machine that
it has left. -/
def runSteps (settings : Settings) (levels : Nat) :
    Machine → List Expr → Option (List (Report × Machine))
  | _, [] => some []
  | m, e :: rest => do
    let first ← runStep settings levels e m
    let others ← runSteps settings levels first.2 rest
    return first :: others

/-- The reports are those of the program. -/
theorem runProgram_of_runSteps {settings : Settings} {levels : Nat} {m : Machine}
    {es : List Expr} {run : List (Report × Machine)}
    (h : runSteps settings levels m es = some run) :
    run.length = es.length ∧ runProgram settings levels m es = run.map Prod.fst := by
  induction es generalizing m run with
  | nil =>
    obtain rfl : [] = run := Option.some.inj h
    exact ⟨rfl, rfl⟩
  | cons e rest ih =>
    obtain ⟨first, hfirst, h⟩ := Option.bind_eq_some_iff.mp h
    obtain ⟨others, hothers, h⟩ := Option.bind_eq_some_iff.mp h
    obtain rfl : first :: others = run := Option.some.inj h
    obtain ⟨hlength, hreports⟩ := ih hothers
    refine ⟨congrArg Nat.succ hlength, ?_⟩
    rw [runProgram, hfirst]
    exact congrArg (first.1 :: ·) hreports

/-- **A run that the limit does not hinder is the same run under every greater limit.** If all
steps of a program end, and no construction is refused because of its depth, not even one of which
a client catches the failure, then under every greater limit all steps end as well, with the same
reports and on the same machines, so with the same registry and the same objects. -/
theorem depth_limit_monotone (settings : Settings) (limit : Nat)
    (hlimit : settings.maxDepth ≤ limit) (levels : Nat) (es : List Expr) (m : Machine)
    (run : List (Report × Machine)) (hrun : runSteps settings levels m es = some run)
    (hdeep : ∀ p ∈ run, p.2.NeverTooDeep) (levels' : Nat) (hlevels : levels ≤ levels') :
    runSteps { settings with maxDepth := limit } levels' m es = some run ∧
      runProgram { settings with maxDepth := limit } levels' m es =
        runProgram settings levels m es := by
  have hsame : runSteps { settings with maxDepth := limit } levels' m es = some run := by
    -- induction on the steps of the program
    induction es generalizing m run with
    | nil => exact hrun
    | cons e rest ih =>
      obtain ⟨first, hfirst, h⟩ := Option.bind_eq_some_iff.mp hrun
      obtain ⟨others, hothers, h⟩ := Option.bind_eq_some_iff.mp h
      obtain rfl : first :: others = run := Option.some.inj h
      obtain ⟨hdeep, hrest⟩ := List.forall_mem_cons.mp hdeep
      refine Option.bind_eq_some_iff.mpr ⟨first, runStep_loosened hlimit hlevels hfirst hdeep, ?_⟩
      exact Option.bind_eq_some_iff.mpr ⟨others, ih first.2 others hothers hrest, rfl⟩
  refine ⟨hsame, ?_⟩
  rw [(runProgram_of_runSteps hrun).2, (runProgram_of_runSteps hsame).2]

/-- Constructs an instance of a class with a parent, so two constructions nest. -/
def nestedConstruction : Expr :=
  let parent : Expr := .classDefinition
    { name := none, heritage := none, constructor := none, elements := [] }
  let child : Expr := .classDefinition
    { name := none, heritage := some (.primitive .classObject [parent]), constructor := none,
      elements := [] }
  .reentry .constructValue [.primitive .classObject [child]]

/-- A limit of two is enough for it, so three make no difference; a limit of one is not. -/
theorem depth_limit_monotone_of_nestedConstruction :
    (∃ run, (runSteps { maxDepth := 2 } 9 .initial [nestedConstruction] = some run ∧
        ∀ p ∈ run, p.2.NeverTooDeep) ∧
      runSteps { maxDepth := 3 } 9 .initial [nestedConstruction] = some run ∧
      runProgram { maxDepth := 3 } 9 .initial [nestedConstruction] =
        runProgram { maxDepth := 2 } 9 .initial [nestedConstruction]) ∧
    ∃ run, runSteps { maxDepth := 1 } 9 .initial [nestedConstruction] = some run ∧
      ¬ ∀ p ∈ run, p.2.NeverTooDeep := by
  constructor
  · have hrun : ((runSteps { maxDepth := 2 } 9 .initial [nestedConstruction]).any fun run =>
        decide (∀ p ∈ run, p.2.NeverTooDeep)) = true := by decide +kernel
    obtain ⟨run, hrun, hdeep⟩ := (Option.any_eq_true ..).mp hrun
    have hdeep := of_decide_eq_true hdeep
    exact ⟨run, ⟨hrun, hdeep⟩, depth_limit_monotone { maxDepth := 2 } 3 (by decide) 9 _ .initial
      run hrun hdeep 9 (Nat.le_refl 9)⟩
  · have hrun : ((runSteps { maxDepth := 1 } 9 .initial [nestedConstruction]).any fun run =>
        !decide (∀ p ∈ run, p.2.NeverTooDeep)) = true := by decide +kernel
    obtain ⟨run, hrun, hdeep⟩ := (Option.any_eq_true ..).mp hrun
    exact ⟨run, hrun, of_decide_eq_false (by simpa using hdeep)⟩

end ClassMachine
