import ClassMachine.Proofs.FrameStack

/-!
# The lifetime of a frame

A frame is there as long as the construction runs that has begun it. Between its beginning
and its end the frame may be seen at many moments, and this file compares any two of them.

A moment in the middle of a run is one at which the run is broken off. So two moments of a
run are two runs of the same task, of which one is broken off earlier than the other, or the
other one is not broken off at all. The one that is broken off earlier is a beginning of the
other one (`ClassMachine.Action.Begins`): it ends where the other one does, if it ends, and
where it is broken off, all frames that were there before it are what they will be in the
other run, but for objects that are not bound yet (`ClassMachine.Machine.KeptTo`).

Main statements: `ClassMachine.interpretUntil_begins` and, for the frame that a construction
begins, `ClassMachine.runConstructor_frame`.
-/

namespace ClassMachine

variable {α β : Type}

/-! ### Frames at a depth -/

/-- The frame is what has become of the other one: it is of the same class, for the same
new-target, and once it has an object it has this one. -/
structure Frame.Kept (f f' : Frame) : Prop where
  cls : f'.cls = f.cls
  newTarget : f'.newTarget = f.newTarget
  this : ∀ o, f.this = some o → f'.this = some o

theorem Frame.Kept.refl (f : Frame) : f.Kept f :=
  ⟨rfl, rfl, fun _ => id⟩

theorem Frame.Kept.trans {f f' f'' : Frame} (h : f.Kept f') (h' : f'.Kept f'') : f.Kept f'' :=
  ⟨h'.cls.trans h.cls, h'.newTarget.trans h.newTarget, fun o ho => h'.this o (h.this o ho)⟩

namespace Machine

/-- The frame with so many frames below it. -/
def frameAt (m : Machine) (depth : Nat) : Option Frame :=
  m.frames.reverse[depth]?

/-- The frames at these depths have been kept. -/
def KeptTo (n : Nat) (m m' : Machine) : Prop :=
  ∀ depth < n, ∀ f, m.frameAt depth = some f → ∃ f', m'.frameAt depth = some f' ∧ f.Kept f'

variable {n : Nat} {m m' m'' : Machine}

theorem KeptTo.of_frames (h : m'.frames = m.frames) (n : Nat) : KeptTo n m m' :=
  fun _ _ f hf => ⟨f, by rw [frameAt, h]; exact hf, .refl f⟩

theorem KeptTo.refl (n : Nat) (m : Machine) : KeptTo n m m :=
  .of_frames rfl n

theorem KeptTo.trans (h : KeptTo n m m') (h' : KeptTo n m' m'') : KeptTo n m m'' := by
  intro depth hdepth f hf
  obtain ⟨f', hf', hkept⟩ := h depth hdepth f hf
  obtain ⟨f'', hf'', hkept'⟩ := h' depth hdepth f' hf'
  exact ⟨f'', hf'', hkept.trans hkept'⟩

theorem KeptTo.mono {n' : Nat} (h : KeptTo n' m m') (hn : n ≤ n') : KeptTo n m m' :=
  fun depth hdepth => h depth (Nat.lt_of_lt_of_le hdepth hn)

section Cons

variable {f : Frame} {rest : List Frame} (h : m.frames = f :: rest)

include h

/-- The innermost frame is the one at the greatest depth. -/
theorem frameAt_length : m.frameAt rest.length = some f := by
  simp [frameAt, h]

/-- Without the innermost frame, the others are as they were. -/
theorem frameAt_of_lt {depth : Nat} (hdepth : depth < rest.length) (hm' : m'.frames = rest) :
    m'.frameAt depth = m.frameAt depth := by
  simp [frameAt, h, hm', List.getElem?_append_left, hdepth]

/-- Another version of the innermost frame. -/
theorem KeptTo.of_head {f' : Frame} (hm' : m'.frames = f' :: rest) (hf : f.Kept f') (n : Nat) :
    KeptTo n m m' := by
  intro depth _ g hg
  rcases Nat.lt_or_ge depth rest.length with hlt | hge
  · have hsame (m : Machine) (f : Frame) (hm : m.frames = f :: rest) :
        m.frameAt depth = rest.reverse[depth]? := by
      simp [frameAt, hm, List.getElem?_append_left, hlt]
    exact ⟨g, by rw [hsame m' f' hm', ← hsame m f h]; exact hg, .refl g⟩
  · have hlt : depth < m.frames.reverse.length := (List.getElem?_eq_some_iff.mp hg).1
    obtain rfl : depth = rest.length := by
      rw [h, List.length_reverse, List.length_cons] at hlt
      omega
    obtain rfl : f = g := Option.some.inj ((frameAt_length h).symm.trans hg)
    exact ⟨f', frameAt_length hm', hf⟩

end Cons

theorem frameAt_eq_head? {depth : Nat} (h : m.frames.length = depth + 1) :
    m.frameAt depth = m.frames.head? := by
  obtain ⟨f, rest, hm⟩ := List.exists_cons_of_length_eq_add_one h
  obtain rfl : rest.length = depth := by simpa [hm] using h
  rw [frameAt_length hm, hm]
  rfl

end Machine

open Machine

/-! ### The law -/

/-- The law of all actions: the frames that were there are kept. -/
def keptLaw : Law where
  ended m m' := m'.frames.length = m.frames.length ∧ KeptTo m.frames.length m m'
  broken m m' := KeptTo m.frames.length m m'
  refl m := ⟨rfl, .refl _ m⟩
  trans h h' := ⟨h'.1.trans h.1, h.2.trans (h.1 ▸ h'.2)⟩
  late h := h.2
  trans_broken h h' := h.2.trans (h.1 ▸ h')

theorem keptLaw_allows {e : Effect} (h : e.KeepsFrames) : keptLaw.Allows e := fun m =>
  ⟨congrArg List.length (h.frames_apply m), .of_frames (h.frames_apply m) _⟩

/-- However it ends, an action that obeys the law keeps the frames. -/
theorem Action.Obeys.kept {x : Action α} (hx : x.Obeys keptLaw) (m : Machine) :
    KeptTo m.frames.length m (x.outcome m).2 := by
  have h := hx m
  unfold Action.Ensures at h
  generalize x.outcome m = o at h ⊢
  rcases o with ⟨_ | _, m'⟩
  · exact h
  · exact h.2

/-! ### Beginnings -/

/-- The first action is a beginning of the second one: where it ends, the other one ends in the
same way, and where it is broken off, the frames are kept until the other one stops. -/
structure Action.Begins (x y : Action α) : Prop where
  refines : x.Refines y
  obeys : y.Obeys keptLaw
  kept : ∀ m m₁, x.outcome m = (none, m₁) → KeptTo m.frames.length m₁ (y.outcome m).2

namespace Action.Begins

variable {x y : Action α} {f g : α → Action β}

/-- Wherever the first action stops, the frames are kept until the other one does. -/
theorem kept_outcome (h : x.Begins y) (m : Machine) :
    KeptTo m.frames.length (x.outcome m).2 (y.outcome m).2 := by
  rcases hx : x.outcome m with ⟨_ | r, m₁⟩
  · exact h.kept m m₁ hx
  · rw [h.refines _ _ _ hx]
    exact .refl _ m₁

theorem refl (h : x.Obeys keptLaw) : x.Begins x where
  refines := .refl x
  obeys := h
  kept m m₁ hm := by
    rw [hm]
    exact .refl _ m₁

theorem bind (h : x.Begins y) (hfg : ∀ a, (f a).Begins (g a)) : (x >>= f).Begins (y >>= g) where
  refines := h.refines.bind fun a => (hfg a).refines
  obeys := h.obeys.bind fun a => (hfg a).obeys
  kept m m₁ hm := by
    have hlaw := h.obeys m
    rw [Action.Ensures] at hlaw
    rw [outcome_bind] at hm ⊢
    rcases hx : x.outcome m with ⟨_ | e | a, m₂⟩ <;> simp only [hx] at hm
    · -- the first part of the one has stopped, and the other one goes on
      obtain rfl := (Prod.mk.inj hm).2
      have hkept := h.kept m m₂ hx
      rcases hy : y.outcome m with ⟨_ | e | a, m₃⟩ <;> rw [hy] at hkept hlaw
      · exact hkept
      · exact hkept
      · exact hkept.trans (hlaw.1 ▸ (hfg a).obeys.kept m₃)
    · simp at hm
    · have hy := h.refines _ _ _ hx
      rw [hy] at hlaw
      rw [hy]
      exact hlaw.1 ▸ (hfg a).kept m₂ m₁ hm

theorem observe (h : x.Begins y) : (observe x).Begins (observe y) where
  refines := h.refines.observe
  obeys := h.obeys.observe
  kept m m₁ hm := by
    rw [outcome_observe] at hm ⊢
    rcases hx : x.outcome m with ⟨_ | r, m₂⟩ <;> simp [hx] at hm
    exact hm ▸ h.kept m m₂ hx

/-- Stopping at once is a beginning of everything. -/
theorem breakOff (h : y.Obeys keptLaw) : (breakOff : Action α).Begins y where
  refines m r m' hm := by simp at hm
  obeys := h
  kept m m₁ hm := by
    obtain rfl : m = m₁ := by simpa using hm
    exact h.kept m

end Action.Begins

/-! ### What runs in a frame -/

/-- What leaves the frames alone obeys the law. -/
theorem MadeOf.keptLaw {x : Action α} (hx : MadeOf Effect.KeepsFrames .none fun _ => x) :
    x.Obeys ClassMachine.keptLaw :=
  hx.obeys_alone fun _ => keptLaw_allows

theorem enterPhase_keptLaw (phase : Phase) : (enterPhase phase).Obeys keptLaw := by
  intro m
  rcases hm : m.frames with _ | ⟨f, rest⟩
  · exact .bind_error (outcome_currentFrame_of_nil hm)
      (keptLaw_allows (e := .note (.raised .noConstruction)) (by simp [Effect.KeepsFrames]) m)
  · have hkept : f.Kept { f with phase } := ⟨rfl, rfl, fun _ => id⟩
    exact .of_outcome (outcome_enterPhase hm phase) ⟨by simp [hm], .of_head hm rfl hkept _⟩

/-- An object is bound to a frame that has none, or not at all. -/
theorem bindThis_keptLaw (this : ObjectId) (phase : Phase) :
    (bindThis this phase).Obeys keptLaw := by
  intro m
  rcases hm : m.frames with _ | ⟨f, rest⟩
  · exact .bind_error (outcome_currentFrame_of_nil hm)
      (keptLaw_allows (e := .note (.raised .noConstruction)) (by simp [Effect.KeepsFrames]) m)
  rw [Action.Ensures, outcome_bindThis hm]
  cases hfree : f.this with
  | none =>
    have hkept : f.Kept { f with this := some this, phase } := ⟨rfl, rfl, by simp [hfree]⟩
    exact ⟨by simp [hm], .of_head hm rfl hkept _⟩
  | some => exact keptLaw_allows (e := .note (.raised .boundTwice)) (by simp [Effect.KeepsFrames]) m

/-- Actions that leave the frames alone are compared by how far they come. -/
def beginning : Comparison Effect.KeepsFrames :=
  .ofActions (fun _ x y => x.Begins y)
    (fun _ x h => .refl fun m => by
      obtain ⟨r, es, hes, h⟩ := h m
      rw [Action.Ensures, h]
      exact keptLaw.ended_applyAll (fun e he => keptLaw_allows (hes e he)) m)
    (fun _ => .refl .breakOff) (fun _ _ _ _ _ _ h hfg => h.bind hfg) fun _ _ _ h => h.observe

section Operations

variable {p q : Performer}
  (hpq : ∀ ⦃α : Type⦄ (task : Task α), (p task).Begins (q task)) {settings : Settings}

include hpq

/-- What is made of effects that leave the frames alone, of evaluations and of operations that
are beginnings of each other. -/
theorem MadeOf.begins {X : Operations} {F : Performer → Action α}
    (hF : MadeOf Effect.KeepsFrames X F)
    (hX : ∀ ⦃β : Type⦄ (G : Performer → Action β), X G → (G p).Begins (G q)) :
    (F p).Begins (F q) :=
  hF.compared (K := beginning) (p := p) (q := q) (fun _ => id) (fun e ctx => hpq (.eval e ctx)) hX

theorem client_begins {F : Performer → Action α} (hF : MadeOf Effect.IsClient .none F) :
    (F p).Begins (F q) :=
  (hF.of_client fun _ => Effect.IsClient.keepsFrames).begins hpq fun _ _ h => h.elim

theorem adopt_begins (this : ObjectId) (cls : ClassId) (phase : Phase) :
    (adopt p this cls phase).Begins (adopt q this cls phase) :=
  .bind (.refl (bindThis_keptLaw this phase)) fun _ =>
    .bind ((installInstanceFields_madeOf (X := .none) (fun _ => Effect.IsClient.keepsFrames)
      (fun e he => by rintro rfl; exact he) this cls).begins hpq fun _ _ h => h.elim) fun _ =>
      .bind (.refl (enterPhase_keptLaw _)) fun _ => .refl (enterPhase_keptLaw _)

theorem superCall_begins (args : List Value) : (superCall p args).Begins (superCall q args) := by
  refine .bind (client_begins hpq currentFrame_client) fun f =>
    .bind (client_begins hpq (classAt_client f.cls)) fun c => ?_
  split
  · exact client_begins hpq (raise_client (by simp))
  next parent _ =>
    exact .bind (hpq (.construct parent f.newTarget args)) fun this =>
      .bind (adopt_begins hpq this f.cls .thisBound) fun _ => .refl (MadeOf.keptLaw
        (.bind (.note (by simp [Effect.KeepsFrames]) trivial) fun _ => .pure this))

theorem runBody_begins (cls : ClassId) (this : Option ObjectId) (body : Expr) (args : List Value) :
    (runBody p cls this body args).Begins (runBody q cls this body args) :=
  (runBody_madeOf (X := .none) (by simp [Effect.KeepsFrames]) body).begins hpq fun _ _ h => h.elim

theorem runConstructor_begins (cls newTarget : ClassId) (args : List Value) :
    (runConstructor p cls newTarget args).Begins (runConstructor q cls newTarget args) := by
  refine .bind (client_begins hpq (classAt_client cls)) fun c => ?_
  split
  · refine .bind (.refl (MadeOf.keptLaw (allocate_madeOf newTarget
      (fun _ => Effect.IsClient.keepsFrames) (fun _ => trivial) (by simp [Effect.KeepsFrames]))))
      fun this => .bind (adopt_begins hpq this cls .allocated) fun _ => ?_
    split
    · exact runBody_begins hpq _ _ _ _
    · exact .refl (MadeOf.keptLaw (.pure _))
  · split
    · exact runBody_begins hpq _ _ _ _
    · exact .bind (superCall_begins hpq args) fun _ => .refl (MadeOf.keptLaw (.pure _))

end Operations

/-! ### The frame around it -/

section Finish

variable {m : Machine} {f : Frame} {rest : List Frame} (hm : m.frames = f :: rest)

include hm

theorem frames_finishConstruction (outcome : Except Failure Unit) :
    ((finishConstruction outcome).outcome m).2.frames = rest := by
  cases outcome with
  | error e => rw [outcome_finishConstruction_of_error hm]
  | ok _ =>
    rw [outcome_finishConstruction_of_ok hm]
    cases f.this <;> rfl

theorem finishConstruction_keeps (outcome : Except Failure Unit) :
    KeptTo rest.length m ((finishConstruction outcome).outcome m).2 := fun _ hdepth g hg =>
  ⟨g, (frameAt_of_lt hm hdepth (frames_finishConstruction hm outcome)).trans hg, .refl g⟩

end Finish

/-- Taking the frame off is not broken off. -/
theorem finishConstruction_ends (outcome : Except Failure Unit) (m : Machine) :
    ((finishConstruction outcome).outcome m).1 ≠ none := by
  rcases hm : m.frames with _ | ⟨f, rest⟩
  · simp [finishConstruction, outcome_bind, outcome_popFrame, hm]
  · cases outcome with
    | error e => simp [outcome_finishConstruction_of_error hm]
    | ok _ =>
      rw [outcome_finishConstruction_of_ok hm]
      cases f.this <;> simp

/-- A frame has begun, and those below are as they were. -/
theorem Machine.begun_keeps (m : Machine) (cls newTarget : ClassId) :
    KeptTo m.frames.length m (m.begun cls newTarget) := fun _ hdepth f hf =>
  ⟨f, (frameAt_of_lt (m := m.begun cls newTarget) rfl hdepth rfl).symm.trans hf, .refl f⟩

/-- A constructor that has ended leaves its frame on top of as many as there were. -/
theorem runConstructor_ended {perform : Performer} {cls newTarget : ClassId} {args : List Value}
    (hobeys : (runConstructor perform cls newTarget args).Obeys keptLaw) {m m₁ : Machine}
    {r : Except Failure Unit} (h : (runConstructor perform cls newTarget args).outcome
      (m.begun cls newTarget) = (some r, m₁)) :
    ∃ f rest, m₁.frames = f :: rest ∧ rest.length = m.frames.length := by
  have hlaw := hobeys (m.begun cls newTarget)
  rw [Action.Ensures, h] at hlaw
  obtain ⟨f, rest, hm₁⟩ := List.exists_cons_of_length_eq_add_one hlaw.1
  have hlength : m₁.frames.length = m.frames.length + 1 := hlaw.1
  rw [hm₁] at hlength
  exact ⟨f, rest, hm₁, Nat.succ.inj hlength⟩

/-- A construction is broken off in its constructor. -/
theorem constructFor_broken {settings : Settings} {perform : Performer} {cls newTarget : ClassId}
    {args : List Value} {m m₁ : Machine}
    (h : (constructFor settings perform cls newTarget args).outcome m = (none, m₁)) :
    (runConstructor perform cls newTarget args).outcome (m.begun cls newTarget) = (none, m₁) := by
  rcases Nat.lt_or_ge m.frames.length settings.maxDepth with hroom | hfull
  · rw [outcome_constructFor hroom] at h
    rcases hx : (runConstructor perform cls newTarget args).outcome (m.begun cls newTarget) with
      ⟨_ | r, m₂⟩ <;> simp only [hx] at h
    · obtain rfl := (Prod.mk.inj h).2
      rfl
    · exact absurd (congrArg Prod.fst h) (finishConstruction_ends r m₂)
  · simp [outcome_constructFor_of_full hfull] at h

/-- A construction that succeeds hands out the object of its frame. -/
theorem constructFor_ok {settings : Settings} {perform : Performer} {cls newTarget : ClassId}
    {args : List Value} (hobeys : (runConstructor perform cls newTarget args).Obeys keptLaw)
    {m m' : Machine} {o : ObjectId}
    (h : (constructFor settings perform cls newTarget args).outcome m = (some (.ok o), m')) :
    ∃ m₁ f, (runConstructor perform cls newTarget args).outcome (m.begun cls newTarget) =
      (some (.ok ⟨⟩), m₁) ∧ m₁.frameAt m.frames.length = some f ∧ f.this = some o := by
  rcases Nat.lt_or_ge m.frames.length settings.maxDepth with hroom | hfull
  · rw [outcome_constructFor hroom] at h
    rcases hx : (runConstructor perform cls newTarget args).outcome (m.begun cls newTarget) with
      ⟨_ | r, m₁⟩ <;> simp only [hx] at h
    · simp at h
    · obtain ⟨f, rest, hm₁, hlength⟩ := runConstructor_ended hobeys hx
      cases r with
      | error e => simp [outcome_finishConstruction_of_error hm₁] at h
      | ok _ =>
        refine ⟨m₁, f, rfl, hlength ▸ Machine.frameAt_length hm₁, ?_⟩
        rw [outcome_finishConstruction_of_ok hm₁] at h
        split at h <;> simp_all
  · simp [outcome_constructFor_of_full hfull] at h

section Operations

variable {p q : Performer}
  (hpq : ∀ ⦃α : Type⦄ (task : Task α), (p task).Begins (q task)) {settings : Settings}

include hpq

theorem constructFor_begins (cls newTarget : ClassId) (args : List Value) :
    (constructFor settings p cls newTarget args).Begins
      (constructFor settings q cls newTarget args) := by
  have hrun := runConstructor_begins hpq cls newTarget args
  refine ⟨(construction_madeOf settings cls newTarget args).refines fun _ task =>
    (hpq task).refines, fun m => ?_, fun m m₁ hm => ?_⟩
  · rcases Nat.lt_or_ge m.frames.length settings.maxDepth with hroom | hfull
    · have hbegun := m.begun_keeps cls newTarget
      have hkept := hrun.obeys.kept (m.begun cls newTarget)
      rw [Action.Ensures, outcome_constructFor hroom]
      rcases h : (runConstructor q cls newTarget args).outcome (m.begun cls newTarget) with
        ⟨_ | r, m₁⟩
      · rw [h] at hkept
        exact hbegun.trans (hkept.mono (Nat.le_succ _))
      · obtain ⟨f, rest, hm₁, hlength⟩ := runConstructor_ended hrun.obeys h
        rw [h] at hkept
        have hended : keptLaw.ended m ((finishConstruction r).outcome m₁).2 :=
          ⟨by rw [frames_finishConstruction hm₁, hlength], (hbegun.trans (hkept.mono
            (Nat.le_succ _))).trans (hlength ▸ finishConstruction_keeps hm₁ r)⟩
        change keptLaw.Holds m ((finishConstruction r).outcome m₁).1
          ((finishConstruction r).outcome m₁).2
        generalize (finishConstruction r).outcome m₁ = o at hended ⊢
        rcases o with ⟨_ | _, m'⟩
        · exact keptLaw.late hended
        · exact hended
    · rw [Action.Ensures, outcome_constructFor_of_full hfull]
      exact keptLaw.trans (keptLaw_allows (e := .note (.called cls newTarget))
        (by simp [Effect.KeepsFrames]) m) (keptLaw_allows
          (e := .note (.raised (.tooDeep settings.maxDepth))) (by simp [Effect.KeepsFrames]) _)
  · have hkept := hrun.kept _ _ (constructFor_broken hm)
    rcases Nat.lt_or_ge m.frames.length settings.maxDepth with hroom | hfull
    · rw [outcome_constructFor hroom]
      rcases hy : (runConstructor q cls newTarget args).outcome (m.begun cls newTarget) with
        ⟨_ | r, m₂⟩ <;> rw [hy] at hkept
      · exact hkept.mono (Nat.le_succ _)
      · obtain ⟨f, rest, hm₂, hlength⟩ := runConstructor_ended hrun.obeys hy
        exact (hkept.mono (Nat.le_succ _)).trans (hlength ▸ finishConstruction_keeps hm₂ r)
    · simp [outcome_constructFor_of_full hfull] at hm

/-- **The frame of a construction** is of the class, for the new-target, and if it has an object
when its constructor is broken off, it has this one when the constructor goes on. -/
theorem runConstructor_frame (hp : ∀ ⦃α : Type⦄ (task : Task α), (p task).Obeys keptLaw)
    (m : Machine) (cls newTarget : ClassId) (args : List Value) :
    ∃ f₁ f₂, ((runConstructor p cls newTarget args).outcome (m.begun cls newTarget)).2.frameAt
        m.frames.length = some f₁ ∧
      ((runConstructor q cls newTarget args).outcome (m.begun cls newTarget)).2.frameAt
        m.frames.length = some f₂ ∧ f₁.cls = cls ∧ f₁.newTarget = newTarget ∧ f₁.Kept f₂ := by
  have hrun := runConstructor_begins hpq cls newTarget args
  have hobeys := (runConstructor_begins (fun _ task => .refl (hp task)) cls newTarget args).obeys
  -- the frame that has begun is still there, and its object, if any, is there to stay
  obtain ⟨f₁, hf₁, hbegun⟩ := hobeys.kept (m.begun cls newTarget) m.frames.length
    (Nat.lt_succ_self _) _ (Machine.frameAt_length (show _ = _ :: m.frames from rfl))
  obtain ⟨f₂, hf₂, hkept⟩ := hrun.kept_outcome (m.begun cls newTarget)
    m.frames.length (Nat.lt_succ_self _) f₁ hf₁
  exact ⟨f₁, f₂, hf₁, hf₂, hbegun.cls, hbegun.newTarget, hkept⟩

theorem construct_begins (cls : ClassId) (args : List Value) :
    (construct settings p cls args).Begins (construct settings q cls args) :=
  .bind (.refl (MadeOf.keptLaw (announceConstruction_madeOf
    (fun _ => Effect.IsClient.keepsFrames) (by simp [Effect.KeepsFrames])))) fun _ =>
    .bind (constructFor_begins hpq cls cls args) fun this => .refl (MadeOf.keptLaw
      (.bind (.note (by simp [Effect.KeepsFrames]) trivial) fun _ => .pure this))

/-! ### All calls, all tasks -/

theorem call_begins (c : Call α) : (c.run settings p).Begins (c.run settings q) := by
  cases c with
  | construct cls args => exact construct_begins hpq cls args
  | constructValue callee args =>
    exact .bind (client_begins hpq (calledClass_client callee)) fun cls =>
      construct_begins hpq cls args
  | super args => exact superCall_begins hpq args
  | define d =>
    exact ((defineClass_madeOf (X := .none) d).mono (fun _ => Effect.IsDefining.keepsFrames)
      fun _ _ => .operation).begins hpq fun _ _ h => h.elim
  | replace cls field initializer =>
    exact ((replaceInitializer_madeOf (X := .none) cls field initializer).mono
      (fun _ => Effect.IsReplacing.keepsFrames) fun _ _ => .operation).begins hpq
        fun _ _ h => h.elim
  | get target key => exact client_begins hpq (readProperty_client target key)
  | set target key value => exact client_begins hpq (assignProperty_client target key value)
  | call callee receiver args => exact client_begins hpq (callValue_client callee receiver args)
  | invoke receiver key args => exact client_begins hpq (invokeMethod_client receiver key args)

/-- **Each level passes beginnings on.** -/
theorem step_begins (task : Task α) : (step settings p task).Begins (step settings q task) := by
  cases task with
  | eval e ctx =>
    refine ((evaluateExpr_client ctx e).mono (fun _ => Effect.IsClient.keepsFrames)
      fun _ _ => .operation).begins hpq ?_
    rintro β _ ⟨c, rfl⟩
    exact call_begins hpq c
  | construct cls newTarget args => exact constructFor_begins hpq cls newTarget args

end Operations

/-! ### Runs of one task -/

/-- Being broken off in more states is being broken off earlier. -/
theorem until_begins {p q : Performer} {task : Task α} (h : (p task).Begins (q task))
    {stop stop' : Machine → Bool} (hstop : ∀ m, stop' m = true → stop m = true) :
    (p.until stop task).Begins (q.until stop' task) := by
  have hobeys : (q.until stop' task).Obeys keptLaw := by
    intro m
    have hlaw := h.obeys m
    rw [Action.Ensures] at hlaw ⊢
    rw [outcome_until]
    split
    · exact .refl _ m
    · rcases hm : (q task).outcome m with ⟨_ | r, m'⟩ <;> rw [hm] at hlaw
      · exact hlaw
      · simp only
        split
        · exact keptLaw.late hlaw
        · exact hlaw
  refine ⟨h.refines.until hstop, hobeys, fun m m₁ hm => ?_⟩
  rw [outcome_until] at hm
  split at hm
  · obtain rfl := (Prod.mk.inj hm).2
    exact hobeys.kept m
  next hgo =>
    rw [snd_outcome_until, if_neg (mt (hstop m) hgo)]
    rcases hx : (p task).outcome m with ⟨_ | r₁, m₂⟩ <;> simp only [hx] at hm
    · obtain rfl := (Prod.mk.inj hm).2
      exact h.kept m m₂ hx
    · rw [h.refines _ _ _ hx]
      split at hm
      · obtain rfl := (Prod.mk.inj hm).2
        exact .refl _ m₂
      · simp at hm

theorem interpretUntil_keptLaw (settings : Settings) (stop : Machine → Bool) (levels : Nat)
    (task : Task α) : (interpretUntil settings stop levels task).Obeys keptLaw := by
  induction levels generalizing α with
  | zero => exact .breakOff
  | succ levels ih =>
    rw [interpretUntil_succ]
    exact (until_begins (step_begins (fun _ task => .refl (ih task)) task) fun _ => id).obeys

/-- **A run that is broken off earlier is a beginning of one that is broken off later.** -/
theorem interpretUntil_begins (settings : Settings) {stop stop' : Machine → Bool}
    (hstop : ∀ m, stop' m = true → stop m = true) {levels levels' : Nat}
    (hlevels : levels ≤ levels') (task : Task α) :
    (interpretUntil settings stop levels task).Begins
      (interpretUntil settings stop' levels' task) := by
  induction levels generalizing levels' α with
  | zero => exact .breakOff (interpretUntil_keptLaw settings stop' levels' task)
  | succ levels ih =>
    obtain ⟨levels', rfl⟩ := Nat.exists_eq_succ_of_ne_zero (Nat.ne_zero_of_lt hlevels)
    rw [interpretUntil_succ, interpretUntil_succ]
    exact until_begins (step_begins (fun _ task => ih (Nat.le_of_succ_le_succ hlevels) task) task)
      hstop

end ClassMachine
