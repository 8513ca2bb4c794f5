import ClassMachine.Proofs.Moments
import ClassMachine.Proofs.Stages

/-!
# What the trace tells of a definition

A definition runs client code in stages: each computed name is one, and so is each static field.
The trace tells when a stage begins and how it ends, together with the number of the definition.
These events come from the definition itself and from nothing else. Before it begins, its number
is not drawn, so there is nothing to tell; and what runs inside of its stages, or after it, draws
numbers of its own and tells of the stages of those
(`ClassMachine.Machine.TacitOn`).

Main statements: `ClassMachine.tacit_tasks`, `ClassMachine.tacit_moments`.
-/

namespace ClassMachine

variable {α : Type}

/-! ### The stages of a definition -/

/-- The definition that the activity is a stage of. -/
def Activity.definition? : Activity → Option ClassId
  | namingField cls .. | staticField cls .. => some cls
  | instanceField .. => none

/-- The definition that the event tells of a stage of. -/
def Event.definition? : Event → Option ClassId
  | began activity | finished activity | failed activity => activity.definition?
  | _ => none

/-- What the trace tells of the stages of a definition, the newest event in front. -/
def Machine.stages (m : Machine) (id : ClassId) : List Event :=
  m.trace.filter fun e => e.definition? = some id

/-- The effect tells of a stage of the definition. -/
def Effect.Tells : Effect → ClassId → Prop
  | .note e, id => e.definition? = some id
  | _, _ => False

namespace Effect

theorem stages_apply {e : Effect} {id : ClassId} (h : ¬ e.Tells id) (m : Machine) :
    (e.apply m).stages id = m.stages id := by
  cases e with
  | note e => exact List.filter_cons_of_neg (by simpa [Tells] using h)
  | relink o =>
    have hnone : (Event.relinked o).definition? = none := rfl
    exact List.filter_cons_of_neg (by simp [hnone])
  | define => rw [Machine.stages, trace_apply_define, Machine.stages]
  | _ => rfl

/-- Numbers go up. -/
theorem lastId_apply (e : Effect) (m : Machine) :
    m.registry.lastId ≤ (e.apply m).registry.lastId := by
  cases e with
  | draw => exact Nat.le_succ _
  | register c => exact Nat.le_of_eq (Registry.lastId_register ..).symm
  | define => exact Nat.le_of_eq (congrArg Registry.lastId (registry_apply_define ..)).symm
  | _ => exact Nat.le_refl _

theorem IsClient.not_tells {e : Effect} (h : e.IsClient) (id : ClassId) : ¬ e.Tells id := by
  cases e with
  | note e => cases e <;> simp_all [IsClient, Event.IsClient, Tells, Event.definition?]
  | _ => exact not_false

theorem IsConstructing.not_tells {e : Effect} (h : e.IsConstructing) (id : ClassId) :
    ¬ e.Tells id := by
  rcases h with h | h
  · exact h.not_tells id
  · cases e with
    | note e =>
      cases e with
      | began a | finished a | failed a =>
        cases a <;> simp_all [Event.IsConstructing, Activity.IsInstance, Tells, Event.definition?,
          Activity.definition?]
      | _ => simp [Tells, Event.definition?]
    | _ => exact not_false

theorem IsReplacing.not_tells {e : Effect} (h : e.IsReplacing) (id : ClassId) : ¬ e.Tells id := by
  rcases h with h | h
  · exact h.not_tells id
  · cases e with
    | note e => cases e <;> simp_all [Event.IsReplacing, Tells, Event.definition?]
    | _ => exact not_false

/-- The stages of an activity are told of its own definition. -/
theorem IsNoteOf.not_tells {activity : Activity} {e : Effect} (h : e.IsNoteOf activity)
    {id : ClassId} (hid : activity.definition? ≠ some id) : ¬ e.Tells id := by
  rcases h with rfl | rfl | rfl <;> exact hid

theorem IsCollecting.not_tells {cls : ClassId} {className : String} {e : Effect}
    (h : e.IsCollecting cls className) {id : ClassId} (hid : id ≠ cls) : ¬ e.Tells id := by
  rcases h with h | ⟨name, h⟩
  · exact h.not_tells id
  · exact h.not_tells fun heq => hid (Option.some.inj heq).symm

end Effect

/-! ### The law -/

/-- Of these definitions, only those that have begun meanwhile are told of. -/
structure Machine.TacitOn (S : ClassId → Prop) (m m' : Machine) : Prop where
  lastId : m.registry.lastId ≤ m'.registry.lastId
  stages : ∀ id, S id → id ≤ m.registry.lastId ∨ m'.registry.lastId < id →
    m'.stages id = m.stages id

/-- Of all definitions, only those that have begun meanwhile are told of. -/
abbrev Machine.Tacit : Machine → Machine → Prop :=
  Machine.TacitOn fun _ => True

namespace Machine.TacitOn

variable {S : ClassId → Prop} {m m' m'' : Machine}

theorem refl (m : Machine) : m.TacitOn S m :=
  ⟨Nat.le_refl _, fun _ _ _ => rfl⟩

theorem trans (h : m.TacitOn S m') (h' : m'.TacitOn S m'') : m.TacitOn S m'' where
  lastId := Nat.le_trans h.lastId h'.lastId
  stages id hS hid := by
    rw [h'.stages id hS (hid.imp_left fun hle => Nat.le_trans hle h.lastId),
      h.stages id hS (hid.imp_right (Nat.lt_of_le_of_lt h'.lastId))]

theorem mono {S' : ClassId → Prop} (h : m.TacitOn S m') (hS : ∀ id, S' id → S id) :
    m.TacitOn S' m' :=
  ⟨h.lastId, fun id hid => h.stages id (hS id hid)⟩

/-- What is told of a definition that has begun meanwhile does not matter. -/
theorem widen {id : ClassId} (h : m.TacitOn (· ≠ id) m') (hold : m.registry.lastId < id)
    (hnew : id ≤ m'.registry.lastId) : m.Tacit m' := by
  refine ⟨h.lastId, fun id' _ hid' => h.stages id' ?_ hid'⟩
  rintro rfl
  rcases hid' with hle | hlt
  · exact Nat.not_lt_of_le hle hold
  · exact Nat.not_lt_of_le hnew hlt

theorem of_effect {e : Effect} (h : ∀ id, S id → ¬ e.Tells id) (m : Machine) :
    m.TacitOn S (e.apply m) :=
  ⟨e.lastId_apply m, fun id hid _ => Effect.stages_apply (h id hid) m⟩

end Machine.TacitOn

/-- The law that only definitions that have begun meanwhile are told of. -/
def tacitLaw (S : ClassId → Prop) : Law where
  ended := Machine.TacitOn S
  broken := Machine.TacitOn S
  refl := .refl
  trans := .trans
  late h := h
  trans_broken := .trans

/-- The law says nothing of how an action has ended. -/
theorem tacitLaw_holds {S : ClassId → Prop} {m m' : Machine} {r : Option (Except Failure α)} :
    (tacitLaw S).Holds m r m' ↔ m.TacitOn S m' := by
  cases r <;> rfl

theorem tacitLaw_allows {S : ClassId → Prop} {e : Effect} (h : ∀ id, S id → ¬ e.Tells id) :
    (tacitLaw S).Allows e :=
  .of_effect h

/-- The contract that every task obeys the law, for all definitions. -/
def tacitContract : Contract :=
  .ofLaws fun _ _ => tacitLaw fun _ => True

/-! ### Definitions -/

namespace Machine

theorem stages_prepared (m : Machine) (d : ClassDefinition) (parent : Option Class)
    (id : ClassId) : (m.prepared d parent).stages id = m.stages id := by
  simp [stages, prepared, withHomes, numbered, Effect.apply, Event.definition?]

theorem stages_launched (m : Machine) (c : Class) (id : ClassId) :
    (m.launched c).stages id = m.stages id :=
  Effect.stages_apply (by simp [Effect.Tells, Event.definition?]) _

theorem stages_completed (m : Machine) (cls id : ClassId) :
    (m.completed cls).stages id = m.stages id :=
  Effect.stages_apply (by simp [Effect.Tells, Event.definition?]) _

theorem stages_withdrawn (m : Machine) (cls : ClassId) (shadowed : Option ClassId)
    (id : ClassId) : (m.withdrawn cls shadowed).stages id = m.stages id :=
  Effect.stages_apply (by simp [Effect.Tells, Event.definition?]) _

end Machine

section Definition

variable {perform : Performer} (hp : perform.Keeps tacitContract)

include hp

theorem eval_tacit (S : ClassId → Prop) (e : Expr) (ctx : Context) :
    (perform (.eval e ctx)).Obeys (tacitLaw S) :=
  Action.Obeys.mono (hp (.eval e ctx)) (fun _ _ h => h.mono fun _ _ => trivial)
    fun _ _ h => h.mono fun _ _ => trivial

/-- What is evaluated for a definition tells of no other one. -/
theorem collectFields_tacit (id : ClassId) (className : String) (homes : Homes)
    (elements : List ClassElement) :
    (collectFields perform id className homes elements).Obeys (tacitLaw (· ≠ id)) :=
  (collectFields_madeOf id className homes elements).obeys_evaluations
    (fun _ he => tacitLaw_allows fun _ => he.not_tells) (eval_tacit hp _)

theorem installField_tacit (S : ClassId → Prop) (target : ObjectId) (record : FieldRecord) :
    (installField perform target record).Obeys (tacitLaw S) :=
  (installField_madeOf target record).obeys_evaluations
    (fun _ he => tacitLaw_allows fun id _ => he.isFraming.isConstructing.not_tells id)
    (eval_tacit hp S)

/-- Nor does what is installed for it. -/
theorem staticFields_tacit (c : Class) :
    (installFields perform (.staticField c.id c.displayName c.classObject) c.classObject
      c.staticFields).Obeys (tacitLaw (· ≠ c.id)) := by
  refine installFields_obeys
    (fun _ _ he => tacitLaw_allows fun id _ => he.isFraming.isConstructing.not_tells id)
    (fun r e he => ?_) (eval_tacit hp _) c.staticFields
  exact tacitLaw_allows fun id hid => he.not_tells fun heq => hid (Option.some.inj heq).symm

theorem prepareClass_tacit (d : ClassDefinition) (m : Machine) :
    (prepareClass perform d).Ensures m fun r m' => m.Tacit m' ∧
      ∀ c, r = some (.ok c) → c.id = m.nextClass ∧ c.id ≤ m'.registry.lastId := by
  refine prepareClass_ensures (fun f _ => ⟨?_, by simp⟩) fun parent _ => ?_
  · have hnote (e : Event) (he : e.definition? = none) (m : Machine) :
        m.Tacit ((Effect.note e).apply m) := .of_effect (by simp [Effect.Tells, he]) m
    exact (hnote (.defining d.displayName) rfl m).trans (hnote (.raised f) rfl _)
  · have hprepared : m.TacitOn (· ≠ m.nextClass) (m.prepared d parent) :=
      ⟨Nat.le_succ _, fun id _ _ => m.stages_prepared d parent id⟩
    refine (collectFields_tacit hp m.nextClass d.displayName m.homes d.elements _).mono
      fun r m' h => ?_
    have h := tacitLaw_holds.mp h
    have hnew : m.nextClass ≤ m'.registry.lastId := h.lastId
    refine ⟨(hprepared.trans h).widen (Nat.lt_succ_self _) hnew, fun c hc => ?_⟩
    obtain ⟨fields, -, rfl⟩ := eq_ok_of_map hc
    exact ⟨rfl, hnew⟩

theorem launchClass_tacit (c : Class) (m : Machine) :
    (launchClass perform c).Ensures m fun _ m' => m.TacitOn (· ≠ c.id) m' := by
  have hlaunched : m.TacitOn (· ≠ c.id) (m.launched c) :=
    ⟨Nat.le_of_eq (Registry.lastId_register ..).symm, fun id _ _ => m.stages_launched c id⟩
  refine launchClass_ensures (staticFields_tacit hp c (m.launched c)) (fun m' h => ?_)
    (fun e m' h => ?_) fun m' h => hlaunched.trans (tacitLaw_holds.mp h)
  · exact (hlaunched.trans (tacitLaw_holds.mp h)).trans
      ⟨Nat.le_refl _, fun id _ _ => m'.stages_completed c.id id⟩
  · exact (hlaunched.trans (tacitLaw_holds.mp h)).trans
      ⟨Nat.le_refl _, fun id _ _ => m'.stages_withdrawn c.id _ id⟩

/-- **A definition tells of itself** and of those that begin inside of it. -/
theorem defineClass_tacit (d : ClassDefinition) :
    (defineClass perform d).Obeys (tacitLaw fun _ => True) := by
  intro m
  refine (prepareClass_tacit hp d m).bind (fun c m₁ _ h => ?_) (fun _ _ h => h.1) fun _ h => h.1
  obtain ⟨htacit, hc⟩ := h
  obtain ⟨hid, hdrawn⟩ := hc c rfl
  refine (launchClass_tacit hp c m₁).mono fun r m₂ h₂ => tacitLaw_holds.mpr ?_
  exact ((htacit.mono fun _ _ => trivial).trans h₂).widen (hid ▸ Nat.lt_succ_self _)
    (Nat.le_trans hdrawn h₂.lastId)

end Definition

/-! ### All tasks and calls -/

section Calls

variable {perform : Performer} (hp : perform.Keeps tacitContract)

include hp

theorem call_tacit (settings : Settings) (c : Call α) :
    (c.run settings perform).Obeys (tacitLaw fun _ => True) :=
  call_obeys_of_operations (fun _ he => tacitLaw_allows fun id _ => he.not_tells id) hp
    (fun _ _ _ => (replaceInitializer_madeOf ..).obeys_alone
      fun _ he => tacitLaw_allows fun id _ => he.not_tells id)
    (defineClass_tacit hp) settings c

/-- **Each level passes the contract on.** -/
theorem step_keeps_tacit (settings : Settings) : (step settings perform).Keeps tacitContract :=
  fun _ => step_obeys_of_operations (L := tacitLaw fun _ => True)
    (fun _ he => tacitLaw_allows fun id _ => he.not_tells id) hp
    (fun _ _ _ => (replaceInitializer_madeOf ..).obeys_alone
      fun _ he => tacitLaw_allows fun id _ => he.not_tells id)
    (defineClass_tacit hp) settings

end Calls

/-- The performers of runs keep the contract. -/
theorem interpretUntil_tacit (settings : Settings) (stop : Machine → Bool) (levels : Nat) :
    (interpretUntil settings stop levels).Keeps tacitContract :=
  interpretUntil_keeps (fun _ hp => step_keeps_tacit hp settings) stop levels

/-- **Only its own definition tells of a stage**: once a number is drawn, no task and no call
adds to what the trace tells of it. -/
theorem tacit_tasks (settings : Settings) (stop : Machine → Bool) (levels : Nat) {m : Machine}
    {id : ClassId} (hid : id ≤ m.registry.lastId) :
    (∀ ⦃β : Type⦄ (task : Task β), (interpretUntil settings stop levels task).Ensures m
      fun _ m' => m'.stages id = m.stages id) ∧
    ∀ ⦃β : Type⦄ (c : Call β), (c.run settings (interpretUntil settings stop levels)).Ensures m
      fun _ m' => m'.stages id = m.stages id := by
  have hp := interpretUntil_tacit settings stop levels
  refine ⟨fun β task => ?_, fun β c => ?_⟩
  · refine Action.Ensures.mono (hp task m) fun r m' h => ?_
    exact (tacitLaw_holds.mp h).stages id trivial (.inl hid)
  · refine (call_tacit hp settings c m).mono fun r m' h => ?_
    exact (tacitLaw_holds.mp h).stages id trivial (.inl hid)

/-! ### All moments -/

/-- Nothing is told of a number that is not drawn. -/
def Machine.Unforetold (m : Machine) : Prop :=
  ∀ id, m.registry.lastId < id → m.stages id = []

theorem Machine.Unforetold.later {m m' : Machine} (h : m.Unforetold) (htacit : m.Tacit m') :
    m'.Unforetold := by
  intro id hid
  rw [htacit.stages id trivial (.inr hid), h id (Nat.lt_of_le_of_lt htacit.lastId hid)]

/-- **Nothing is told of a number before it is drawn**, at any moment of a program. -/
theorem tacit_moments (settings : Settings) :
    (∀ m, AtRest settings m → m.Unforetold) ∧ ∀ m, Reachable settings m → m.Unforetold :=
  Contract.moments _ _ (fun _ hp => step_keeps_tacit hp settings) (fun _ _ => rfl) (fun _ h => h)
    (fun _ _ _ _ hm h => hm.later h) (fun _ _ _ hm h => hm.later h)
    fun _ _ he hm => hm.later (.of_effect (fun id _ => he.not_tells id) _)

end ClassMachine
