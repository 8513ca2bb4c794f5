import Mathlib.Logic.Relation
import ClassMachine.Proofs.Moments

/-!
# The discipline of the frame stack

A construction pushes a frame and takes it off again, whatever happens in between. So
every call of the machine leaves as many frames as it has found, all of them as they
were but for the innermost one, and of that one it is known how it may have changed:
its object may have been bound and its phase may have moved on
(`ClassMachine.Frame.Forward`). A construction does not even touch the innermost frame.

The reason is `ClassMachine.Frame.bind?`. Client code gets at the innermost frame only
through calls of the parent constructor, and such a call changes the frame in two
moments: when it binds the object, and when all fields are installed on it
(`ClassMachine.Frame.Adopted`). A frame that is bound refuses to be bound again, so
whatever runs in between leaves the frame alone (`ClassMachine.Frame.Moved.eq_of_bound`).

Main statement: `ClassMachine.frameStack_discipline`.
-/

namespace ClassMachine

variable {α : Type}

/-! ### How a frame moves -/

/-- The order of the phases of one frame. -/
inductive Phase.Next : Phase → Phase → Prop
  | allocate : Next .awaitingSuper .allocated
  | bind : Next .awaitingSuper .thisBound
  | installAllocated : Next .allocated .fieldsInstalled
  | installBound : Next .thisBound .fieldsInstalled
  | run : Next .fieldsInstalled .body

namespace Frame

/-- The object of the frame is bound exactly if the frame does not wait for it. -/
def Sound (f : Frame) : Prop :=
  f.this = none ↔ f.phase = .awaitingSuper

/-- What may have become of a frame: its classes are the same, its object is not
exchanged, and if a missing object means that the frame waits for it, then the phase
has moved on in order or not at all. -/
structure Forward (f f' : Frame) : Prop where
  cls : f'.cls = f.cls
  newTarget : f'.newTarget = f.newTarget
  this : ∀ this, f.this = some this → f'.this = some this
  phase : (f.this = none → f.phase = .awaitingSuper) →
    Relation.ReflTransGen Phase.Next f.phase f'.phase

/-- What an attempt to bind the object and to install the fields does to a frame:
nothing, or it stops with the object bound, or it gets through to the body. -/
inductive Adopted (this : ObjectId) (phase : Phase) : Frame → Frame → Prop
  | refused (f : Frame) : Adopted this phase f f
  | stopped {f : Frame} (h : f.this = none) :
    Adopted this phase f { f with this := some this, phase }
  | done {f : Frame} (h : f.this = none) :
    Adopted this phase f { f with this := some this, phase := .body }

theorem Adopted.sound {this : ObjectId} {phase : Phase} {f f' : Frame}
    (h : Adopted this phase f f') (hphase : phase ≠ .awaitingSuper) (hf : f.Sound) : f'.Sound := by
  cases h with
  | refused => exact hf
  | stopped => simpa [Sound] using hphase
  | done => simp [Sound]

/-- What client code does to the innermost frame. -/
inductive Moved : Frame → Frame → Prop
  | refl (f : Frame) : Moved f f
  | adopted {f f' : Frame} {this : ObjectId} (h : Adopted this .thisBound f f') : Moved f f'

/-- **A bound frame stays as it is.** -/
theorem Moved.eq_of_bound {f f' : Frame} (h : Moved f f') (hf : f.this ≠ none) : f' = f := by
  rcases h with _ | ⟨_ | h | h⟩
  · rfl
  · rfl
  · exact absurd h hf
  · exact absurd h hf

theorem Moved.trans {f f' f'' : Frame} (h : Moved f f') (h' : Moved f' f'') : Moved f f'' := by
  rcases h with _ | ⟨_ | h | h⟩
  · exact h'
  · exact h'
  · rw [h'.eq_of_bound (by simp)]
    exact .adopted (.stopped h)
  · rw [h'.eq_of_bound (by simp)]
    exact .adopted (.done h)

theorem Moved.sound {f f' : Frame} (h : Moved f f') (hf : f.Sound) : f'.Sound := by
  rcases h with _ | h
  · exact hf
  · exact h.sound (by simp) hf

theorem Moved.forward {f f' : Frame} (h : Moved f f') : f.Forward f' := by
  rcases h with _ | ⟨_ | h | h⟩
  · exact ⟨rfl, rfl, fun _ => id, fun _ => .refl⟩
  · exact ⟨rfl, rfl, fun _ => id, fun _ => .refl⟩
  · refine ⟨rfl, rfl, by simp [h], fun hf => ?_⟩
    rw [hf h]
    exact .single .bind
  · refine ⟨rfl, rfl, by simp [h], fun hf => ?_⟩
    rw [hf h]
    exact ((Relation.ReflTransGen.single .bind).tail .installBound).tail .run

end Frame

/-! ### How the stack moves -/

/-- What client code does to the frames: the innermost one may have moved, the others
are as they were. -/
inductive FramesMoved : List Frame → List Frame → Prop
  | nil : FramesMoved [] []
  | cons {f f' : Frame} (h : f.Moved f') (rest : List Frame) :
    FramesMoved (f :: rest) (f' :: rest)

namespace FramesMoved

variable {fs fs' fs'' : List Frame}

theorem refl : ∀ fs, FramesMoved fs fs
  | [] => .nil
  | f :: rest => .cons (.refl f) rest

theorem trans (h : FramesMoved fs fs') (h' : FramesMoved fs' fs'') : FramesMoved fs fs'' := by
  cases h with
  | nil => exact h'
  | cons h rest =>
    cases h' with
    | cons h' => exact .cons (h.trans h') rest

theorem head_forward (h : FramesMoved fs fs') {f : Frame} (hf : f ∈ fs.head?) :
    ∃ f' ∈ fs'.head?, f.Forward f' := by
  cases h with
  | nil => simp at hf
  | @cons _ f' h rest =>
    obtain rfl : _ = f := by simpa using hf
    exact ⟨f', rfl, h.forward⟩

theorem length_eq (h : FramesMoved fs fs') : fs'.length = fs.length := by
  cases h <;> rfl

theorem tail_eq (h : FramesMoved fs fs') : fs'.tail = fs.tail := by
  cases h <;> rfl

/-- A bound innermost frame stays as it is. -/
theorem eq_of_bound {f : Frame} {rest : List Frame} (h : FramesMoved (f :: rest) fs')
    (hf : f.this ≠ none) : fs' = f :: rest := by
  cases h with
  | cons h => rw [h.eq_of_bound hf]

theorem sound (h : FramesMoved fs fs') (hfs : ∀ f ∈ fs, f.Sound) : ∀ f ∈ fs', f.Sound := by
  cases h with
  | nil => exact hfs
  | cons h rest =>
    simp only [List.forall_mem_cons] at hfs ⊢
    exact ⟨h.sound hfs.1, hfs.2⟩

end FramesMoved

/-! ### What is never broken -/

/-- What holds of the frames at a break as well: their number stays within the limit,
they stay sound, and none is lost. -/
structure FramesSafe (settings : Settings) (m m' : Machine) : Prop where
  length : m.frames.length ≤ settings.maxDepth → m'.frames.length ≤ settings.maxDepth
  sound : (∀ f ∈ m.frames, f.Sound) → ∀ f ∈ m'.frames, f.Sound
  lost : .raised .frameLost ∈ m'.trace → .raised .frameLost ∈ m.trace

namespace FramesSafe

variable {settings : Settings} {m m' m'' : Machine}

theorem refl (m : Machine) : FramesSafe settings m m :=
  ⟨id, id, id⟩

theorem trans (h : FramesSafe settings m m') (h' : FramesSafe settings m' m'') :
    FramesSafe settings m m'' :=
  ⟨h'.length ∘ h.length, h'.sound ∘ h.sound, h.lost ∘ h'.lost⟩

/-- Frames that have moved are safe, as long as none was lost. -/
theorem of_moved (h : FramesMoved m.frames m'.frames)
    (hlost : .raised .frameLost ∈ m'.trace → .raised .frameLost ∈ m.trace) :
    FramesSafe settings m m' :=
  ⟨fun hm => h.length_eq ▸ hm, h.sound, hlost⟩

end FramesSafe

/-- The law of client code. -/
def framesLaw (settings : Settings) : Law where
  ended m m' := FramesMoved m.frames m'.frames ∧ FramesSafe settings m m'
  broken := FramesSafe settings
  refl m := ⟨.refl _, .refl m⟩
  trans h h' := ⟨h.1.trans h'.1, h.2.trans h'.2⟩
  late h := h.2
  trans_broken h h' := h.2.trans h'

/-- The law of what happens in a frame of its own: the frame is still there in the
end. -/
def ownFrameLaw (settings : Settings) : Law where
  ended m m' := (∀ f rest, m.frames = f :: rest → ∃ f', m'.frames = f' :: rest) ∧
    FramesSafe settings m m'
  broken := FramesSafe settings
  refl m := ⟨fun f _ h => ⟨f, h⟩, .refl m⟩
  trans h h' := by
    refine ⟨fun f rest hm => ?_, h.2.trans h'.2⟩
    obtain ⟨f', hm'⟩ := h.1 f rest hm
    exact h'.1 f' rest hm'
  late h := h.2
  trans_broken h h' := h.2.trans h'

/-- The law of constructions: all frames are as they were. -/
def constructionLaw (settings : Settings) : Law where
  ended m m' := m'.frames = m.frames ∧ FramesSafe settings m m'
  broken := FramesSafe settings
  refl m := ⟨rfl, .refl m⟩
  trans h h' := ⟨h'.1.trans h.1, h.2.trans h'.2⟩
  late h := h.2
  trans_broken h h' := h.2.trans h'

/-- The law of each task. -/
def Task.framesLaw (settings : Settings) : Task α → Law
  | .eval .. => ClassMachine.framesLaw settings
  | .construct .. => constructionLaw settings

/-- The contract that each task obeys its law. -/
def framesContract (settings : Settings) : Contract :=
  .ofLaws fun _ task => task.framesLaw settings

/-! ### Effects that leave the frames alone -/

/-- The effect changes no frame and tells of no lost one. -/
def Effect.KeepsFrames : Effect → Prop
  | .push _ | .pop | .frame _ => False
  | .note e => e ≠ .raised .frameLost
  | _ => True

theorem Effect.IsClient.keepsFrames {e : Effect} (h : e.IsClient) : e.KeepsFrames := by
  cases e with
  | note e => cases e <;> simp_all [IsClient, Event.IsClient, KeepsFrames]
  | push | pop | frame => exact h
  | _ => trivial

theorem Effect.IsDefining.keepsFrames {e : Effect} (h : e.IsDefining) : e.KeepsFrames := by
  rcases h with h | h
  · exact h.keepsFrames
  · cases e with
    | note e => cases e <;> simp_all [Event.IsDefining, KeepsFrames]
    | push | pop | frame => exact h
    | _ => trivial

theorem Effect.IsReplacing.keepsFrames {e : Effect} (h : e.IsReplacing) : e.KeepsFrames := by
  rcases h with h | h
  · exact h.keepsFrames
  · cases e with
    | note e => cases e <;> simp_all [Event.IsReplacing, KeepsFrames]
    | push | pop | frame => exact h
    | _ => trivial

theorem Effect.KeepsFrames.frames_apply {e : Effect} (h : e.KeepsFrames) (m : Machine) :
    (e.apply m).frames = m.frames := by
  cases e with
  | push | pop | frame => exact h.elim
  | define => exact frames_apply_define ..
  | _ => rfl

/-- What client code does by itself changes no frame. -/
theorem Effect.frames_applyAll_of_client {es : List Effect} (hes : ∀ e ∈ es, e.IsClient)
    (m : Machine) : (applyAll es m).frames = m.frames :=
  applyAll_induction (P := fun m' => m'.frames = m.frames)
    (fun e he m' hm' => ((hes e he).keepsFrames.frames_apply m').trans hm') rfl

theorem Effect.KeepsFrames.not_lost {e : Effect} (h : e.KeepsFrames) {m : Machine}
    (hm : .raised .frameLost ∈ (e.apply m).trace) : .raised .frameLost ∈ m.trace := by
  cases e with
  | note e =>
    rcases List.mem_cons.mp hm with he | hm
    · exact absurd he.symm h
    · exact hm
  | define =>
    rw [trace_apply_define] at hm
    exact hm
  | relink => exact (List.mem_cons.mp hm).resolve_left (by simp)
  | _ => exact hm

section Operations

variable {settings : Settings} {perform : Performer}

theorem constructionLaw_allows {e : Effect} (h : e.KeepsFrames) :
    (constructionLaw settings).Allows e := by
  intro m
  have hf := h.frames_apply m
  exact ⟨hf, .of_moved (hf ▸ .refl _) h.not_lost⟩

/-- A construction is nothing that client code may not do. -/
theorem Action.Obeys.of_construction {x : Action α} (hx : x.Obeys (constructionLaw settings)) :
    x.Obeys (framesLaw settings) :=
  hx.mono (fun _ _ h => ⟨h.1 ▸ .refl _, h.2⟩) fun _ _ h => h

theorem framesLaw_allows {e : Effect} (h : e.KeepsFrames) : (framesLaw settings).Allows e :=
  fun m => ⟨h.frames_apply m ▸ .refl _, (constructionLaw_allows h m).2⟩

theorem Action.Obeys.ownFrame {x : Action α} (hx : x.Obeys (framesLaw settings)) :
    x.Obeys (ownFrameLaw settings) := by
  refine hx.mono (fun m m' h => ⟨fun f rest hm => ?_, h.2⟩) fun _ _ h => h
  have hmoved := h.1
  rw [hm] at hmoved
  generalize m'.frames = fs' at hmoved
  cases hmoved with
  | @cons _ f' => exact ⟨f', rfl⟩

/-! ### What runs in a frame -/

variable (hp : perform.Keeps (framesContract settings))

include hp

/-- What is made of effects that leave the frames alone obeys the law of client code. -/
theorem MadeOf.framesLaw {F : Performer → Action α} (hF : MadeOf Effect.KeepsFrames .none F) :
    (F perform).Obeys (ClassMachine.framesLaw settings) :=
  hF.obeys_evaluations (fun _ => framesLaw_allows) fun e ctx => hp (.eval e ctx)

/-- **Adopting an object** changes the innermost frame at most as far as it gets. -/
theorem adopt_frames {m : Machine} {f : Frame} {rest : List Frame} (hm : m.frames = f :: rest)
    (this : ObjectId) (cls : ClassId) {phase : Phase} (hphase : phase ≠ .awaitingSuper) :
    (adopt perform this cls phase).Ensures m fun r m' => FramesSafe settings m m' ∧
      (r.isSome → ∃ f', m'.frames = f' :: rest ∧ f.Adopted this phase f') ∧
      (r = some (.ok ⟨⟩) → f.this = none ∧
        m'.frames = { f with this := some this, phase := .body } :: rest) := by
  have safe {f' : Frame} (hf' : f.Adopted this phase f') {m' : Machine}
      (hm' : m'.frames = f' :: rest)
      (hlost : .raised .frameLost ∈ m'.trace → .raised .frameLost ∈ m.trace) :
      FramesSafe settings m m' := by
    refine ⟨fun h => by simpa [hm, hm'] using h, fun h => ?_, hlost⟩
    rw [hm, List.forall_mem_cons] at h
    rw [hm', List.forall_mem_cons]
    exact ⟨hf'.sound hphase h.1, h.2⟩
  rcases hf : f.this with _ | bound
  · -- the frame is bound at first, so what the initializers do leaves it alone
    let f₁ : Frame := { f with this := some this, phase }
    let m₁ : Machine := { m with frames := f₁ :: rest }
    have h₁ : (bindThis this phase).outcome m = (some (.ok ⟨⟩), m₁) := by
      rw [outcome_bindThis hm, hf]
    have safe₁ : FramesSafe settings m m₁ := safe (.stopped hf) rfl id
    have hinstall := (installInstanceFields_madeOf (X := .none)
      (fun _ => Effect.IsClient.keepsFrames) (fun e he => by rintro rfl; exact he) this
      cls).framesLaw hp m₁
    refine .bind_ok h₁ (hinstall.bind (fun _ m₂ _ h₂ => ?_) (fun e m₂ h₂ => ?_)
      fun m₂ h₂ => ⟨safe₁.trans h₂, by simp⟩)
    · have hm₂ : m₂.frames = f₁ :: rest := h₂.1.eq_of_bound (by simp [f₁])
      refine .bind_ok (outcome_enterPhase hm₂ _) (.of_outcome (outcome_enterPhase rfl _) ?_)
      exact ⟨safe (.done hf) rfl fun h => safe₁.lost (h₂.2.lost h), fun _ => ⟨_, rfl, .done hf⟩,
        fun _ => ⟨rfl, rfl⟩⟩
    · have hm₂ : m₂.frames = f₁ :: rest := h₂.1.eq_of_bound (by simp [f₁])
      exact ⟨safe₁.trans h₂.2, fun _ => ⟨f₁, hm₂, .stopped hf⟩, by simp⟩
  · refine .bind_error (e := .ofFault .boundTwice)
      (n := (Effect.note (.raised .boundTwice)).apply m) ?_ ?_
    · rw [outcome_bindThis hm, hf]
      rfl
    · exact ⟨safe (.refused f) hm fun h => by simpa [Effect.apply] using h,
        fun _ => ⟨f, hm, .refused f⟩, by simp⟩

theorem superCall_framesLaw (args : List Value) :
    (superCall perform args).Obeys (framesLaw settings) := by
  intro m
  refine superCall_ensures (fun fault hfault => framesLaw_allows (e := .note (.raised fault))
    (by simpa [Effect.KeepsFrames] using hfault) m) fun f rest c p hm _ _ => ?_
  -- the construction leaves the frame alone, so it is the same one that adopts the object
  refine (hp (.construct p f.newTarget args) m).bind (fun this m₃ _ h₃ => ?_)
    (fun _ _ h => ⟨h.1 ▸ .refl _, h.2⟩) fun _ h => h
  have hm₃ : m₃.frames = f :: rest := h₃.1.trans hm
  have hended {m₄ : Machine} (hsafe : FramesSafe settings m₃ m₄)
      (h₄ : ∃ f', m₄.frames = f' :: rest ∧ f.Adopted this .thisBound f') :
      (framesLaw settings).ended m m₄ := by
    obtain ⟨f', hm₄, hf'⟩ := h₄
    refine ⟨?_, h₃.2.trans hsafe⟩
    rw [hm, hm₄]
    exact .cons (.adopted hf') rest
  exact (adopt_frames hp hm₃ this f.cls (by simp)).bind
    (fun _ m₄ _ h₄ => (framesLaw settings).trans (hended h₄.1 (h₄.2.1 rfl))
      (framesLaw_allows (e := .note (.superReturned f.cls this)) (by simp [Effect.KeepsFrames])
        m₄)) (fun _ m₄ h₄ => hended h₄.1 (h₄.2.1 rfl))
    fun m₄ h₄ => h₃.2.trans h₄.1

omit hp in
/-- What a call of the parent constructor that succeeds consists of. -/
theorem superCall_ok {args : List Value} {m m' : Machine} {this : ObjectId}
    (h : (superCall perform args).outcome m = (some (.ok this), m')) :
    ∃ f ∈ m.frames.head?, ∃ c p m₁ m₂, m.registry.class? f.cls = some c ∧ c.parent = some p ∧
      (perform (.construct p f.newTarget args)).outcome m = (some (.ok this), m₁) ∧
      (adopt perform this f.cls .thisBound).outcome m₁ = (some (.ok ⟨⟩), m₂) ∧
      m' = (Effect.note (.superReturned f.cls this)).apply m₂ := by
  obtain ⟨f, m₁, hf, hclass⟩ := outcome_bind_eq_ok.mp h
  obtain ⟨rfl, rest, hframes⟩ := currentFrame_ok hf
  obtain ⟨c, m₂, hc, hparent⟩ := outcome_bind_eq_ok.mp hclass
  obtain ⟨rfl, hc⟩ := classAt_ok hc
  split at hparent
  · simp at hparent
  next p hp =>
    obtain ⟨o, m₃, hconstruct, hrest⟩ := outcome_bind_eq_ok.mp hparent
    obtain ⟨_, m₄, hadopt, hnote⟩ := outcome_bind_eq_ok.mp hrest
    obtain ⟨rfl, rfl⟩ : o = this ∧ (Effect.note (.superReturned f.cls o)).apply m₄ = m' := by
      simpa [Except.map, Effect.apply] using hnote
    exact ⟨f, by simp [hframes], c, p, m₃, m₄, hc, hp, hconstruct, hadopt, rfl⟩

/-- A call of the parent constructor that succeeds has bound its object, to a frame that had
none. -/
theorem superCall_bound {args : List Value} {m m' : Machine} {this : ObjectId}
    (h : (superCall perform args).outcome m = (some (.ok this), m')) :
    ∃ f rest, m.frames = f :: rest ∧ f.this = none ∧
      m'.frames = { f with this := some this, phase := .body } :: rest := by
  obtain ⟨f, hf, c, p, m₁, m₂, -, -, hconstruct, hadopt, rfl⟩ := superCall_ok h
  obtain ⟨rest, hm⟩ := List.head?_eq_some_iff.mp hf
  have hlaw := hp (.construct p f.newTarget args) m
  rw [Action.Ensures, hconstruct] at hlaw
  have hm₁ : m₁.frames = f :: rest := hlaw.1.trans hm
  have hphase : Phase.thisBound ≠ .awaitingSuper := by simp
  have hadopted := adopt_frames hp hm₁ this f.cls hphase
  rw [Action.Ensures, hadopt] at hadopted
  obtain ⟨hfree, hm₂⟩ := hadopted.2.2 rfl
  exact ⟨f, rest, hm, hfree, hm₂⟩

theorem runBody_framesLaw (cls : ClassId) (this : Option ObjectId) (body : Expr)
    (args : List Value) : (runBody perform cls this body args).Obeys (framesLaw settings) :=
  (runBody_madeOf (X := .none) (by simp [Effect.KeepsFrames]) body).framesLaw hp

/-- Adopting an object keeps to the frame it runs in. -/
theorem adopt_ownFrameLaw (this : ObjectId) (cls : ClassId) {phase : Phase}
    (hphase : phase ≠ .awaitingSuper) :
    (adopt perform this cls phase).Obeys (ownFrameLaw settings) := by
  intro m
  rcases hm : m.frames with _ | ⟨f, rest⟩
  · have hbind : (bindThis this phase).outcome m = (some (.error (.ofFault .noConstruction)),
        (Effect.note (.raised .noConstruction)).apply m) := by
      rw [bindThis, outcome_bind, outcome_currentFrame_of_nil hm]
    exact .bind_error hbind ⟨by simp [hm], (framesLaw_allows (by simp [Effect.KeepsFrames]) m).2⟩
  · refine (adopt_frames hp hm this cls hphase).mono fun r m' h => ?_
    cases r with
    | none => exact h.1
    | some r =>
      obtain ⟨f', hm', -⟩ := h.2.1 rfl
      exact ⟨fun g rest' hg => ⟨f', by simp_all⟩, h.1⟩

theorem runConstructor_ownFrameLaw (cls newTarget : ClassId) (args : List Value) :
    (runConstructor perform cls newTarget args).Obeys (ownFrameLaw settings) := by
  have hclass := (classAt_client (X := .none) cls).of_client fun _ => Effect.IsClient.keepsFrames
  refine (hclass.framesLaw hp).ownFrame.bind fun c => ?_
  split
  · have hallocate := allocate_madeOf (X := .none) newTarget
      (fun _ => Effect.IsClient.keepsFrames) (fun _ => trivial) (by simp [Effect.KeepsFrames])
    refine (hallocate.framesLaw hp).ownFrame.bind fun this =>
      (adopt_ownFrameLaw hp this cls (by simp)).bind fun _ => ?_
    split
    · exact (runBody_framesLaw hp _ _ _ _).ownFrame
    · exact fun m => (ownFrameLaw settings).refl m
  · split
    · exact (runBody_framesLaw hp _ _ _ _).ownFrame
    · exact (superCall_framesLaw hp args).ownFrame.bind fun _ m => (ownFrameLaw settings).refl m

/-- **A construction leaves all frames as they were**, the innermost one included. -/
theorem constructFor_constructionLaw (cls newTarget : ClassId) (args : List Value) :
    (constructFor settings perform cls newTarget args).Obeys (constructionLaw settings) := by
  intro m
  have raised {m' : Machine} (h : (constructionLaw settings).ended m m') {fault : Fault}
      (hfault : fault ≠ .frameLost) :
      (constructionLaw settings).ended m ((Effect.note (.raised fault)).apply m') :=
    (constructionLaw settings).trans h
      (constructionLaw_allows (by simpa [Effect.KeepsFrames] using hfault) m')
  have h₁ : (constructionLaw settings).ended m ((Effect.note (.called cls newTarget)).apply m) :=
    constructionLaw_allows (by simp [Effect.KeepsFrames]) m
  refine constructFor_ensures (P := fun r m' => FramesSafe settings m (m.begun cls newTarget) ∧
    (ownFrameLaw settings).Holds (m.begun cls newTarget) r m') (raised h₁ (by simp))
    (fun hroom => ⟨?_, runConstructor_ownFrameLaw hp cls newTarget args _⟩) (fun r m₃ h => ?_)
    fun m₃ h => h.1.trans h.2
  · -- there is room for the frame, and it begins as a sound one
    refine ⟨fun _ => hroom, fun h => ?_, h₁.2.lost⟩
    exact List.forall_mem_cons.mpr ⟨by simp [Frame.Sound], h⟩
  · -- the constructor has kept to its frame, which is taken off now
    obtain ⟨f', hm₃⟩ := h.2.1 _ m.frames rfl
    have h₄ : (constructionLaw settings).ended m { m₃ with frames := m.frames } :=
      ⟨rfl, id, id, h.1.lost ∘ h.2.2.lost⟩
    exact finishConstruction_ensures hm₃ (fun _ _ _ => h₄) (fun _ => raised h₄ (by simp))
      fun _ _ => h₄

theorem construct_constructionLaw (cls : ClassId) (args : List Value) :
    (construct settings perform cls args).Obeys (constructionLaw settings) :=
  .bind (MadeOf.obeys_alone (announceConstruction_madeOf (fun _ => Effect.IsClient.keepsFrames)
    (by simp [Effect.KeepsFrames])) fun _ => constructionLaw_allows)
    fun _ => .bind (constructFor_constructionLaw hp cls cls args) fun this m =>
      constructionLaw_allows (e := .note (.constructed cls this)) (by simp [Effect.KeepsFrames]) m

theorem constructValue_constructionLaw (callee : Value) (args : List Value) :
    (constructValue settings perform callee args).Obeys (constructionLaw settings) :=
  .bind (MadeOf.obeys_alone (calledClass_client callee) fun _ h =>
    constructionLaw_allows h.keepsFrames) fun _ => construct_constructionLaw hp _ args

/-! ### All calls, all tasks -/

theorem call_framesLaw (c : Call α) : (c.run settings perform).Obeys (framesLaw settings) := by
  have access {F : Performer → Action α} (hF : MadeOf Effect.IsClient .none F) :
      (F perform).Obeys (framesLaw settings) :=
    (hF.of_client fun _ => Effect.IsClient.keepsFrames).framesLaw hp
  cases c with
  | construct cls args => exact (construct_constructionLaw hp cls args).of_construction
  | constructValue callee args =>
    exact (constructValue_constructionLaw hp callee args).of_construction
  | super args => exact superCall_framesLaw hp args
  | define d =>
    exact ((defineClass_madeOf d).mono (fun _ => Effect.IsDefining.keepsFrames) fun _ _ =>
      .operation).framesLaw hp
  | replace cls field initializer =>
    exact ((replaceInitializer_madeOf cls field initializer).mono
      (fun _ => Effect.IsReplacing.keepsFrames) fun _ _ => .operation).framesLaw hp
  | get target key => exact access (readProperty_client target key)
  | set target key value => exact access (assignProperty_client target key value)
  | call callee receiver args => exact access (callValue_client callee receiver args)
  | invoke receiver key args => exact access (invokeMethod_client receiver key args)

/-- **Each level passes the contract on.** -/
theorem step_keeps_frames : (step settings perform).Keeps (framesContract settings) := by
  intro α task
  cases task with
  | eval e ctx =>
    refine (evaluateExpr_client ctx e).obeys
      (fun _ h => framesLaw_allows (Effect.IsClient.keepsFrames h)) ?_ fun e ctx =>
        hp (.eval e ctx)
    rintro β _ ⟨c, rfl⟩
    exact call_framesLaw hp c
  | construct cls newTarget args => exact constructFor_constructionLaw hp cls newTarget args

end Operations

theorem interpret_keeps_frames (settings : Settings) (levels : Nat) :
    (interpret settings levels).Keeps (framesContract settings) :=
  interpret_keeps (fun _ => step_keeps_frames) levels

/-! ### The discipline -/

/-- What holds of the frames at every moment. -/
structure FramesInOrder (settings : Settings) (m : Machine) : Prop where
  length : m.frames.length ≤ settings.maxDepth
  sound : ∀ f ∈ m.frames, f.Sound
  not_lost : .raised .frameLost ∉ m.trace

theorem FramesInOrder.of_safe {settings : Settings} {m m' : Machine}
    (h : FramesInOrder settings m) (hm : FramesSafe settings m m') : FramesInOrder settings m' :=
  ⟨hm.length h.length, hm.sound h.sound, h.not_lost ∘ hm.lost⟩

/-- Does the call ask for a construction? -/
def Call.IsConstruction : Call α → Prop
  | construct .. | constructValue .. => True
  | _ => False

theorem construction_frames {settings : Settings} {perform : Performer}
    (hp : perform.Keeps (framesContract settings)) {c : Call α} (hc : c.IsConstruction)
    {m m' : Machine} {r : Except Failure α}
    (h : (c.run settings perform).outcome m = (some r, m')) : m'.frames = m.frames := by
  have hlaw : (c.run settings perform).Ensures m ((constructionLaw settings).Holds m) := by
    cases c with
    | construct cls args => exact construct_constructionLaw hp cls args m
    | constructValue callee args => exact constructValue_constructionLaw hp callee args m
    | _ => exact hc.elim
  rw [Action.Ensures, h] at hlaw
  exact hlaw.1

/-- What a call that ends does to the frames, started from any machine at all. -/
theorem call_frames {settings : Settings} {c : Call α} {levels : Nat} {m m' : Machine}
    {r : Except Failure α}
    (h : (c.run settings (interpret settings levels)).outcome m = (some r, m')) :
    m'.frames.length = m.frames.length ∧ m'.frames.tail = m.frames.tail ∧
    (∀ f ∈ m.frames.head?, ∃ f' ∈ m'.frames.head?, f.Forward f') ∧
    (c.IsConstruction → m'.frames = m.frames) ∧
    (.raised .frameLost ∈ m'.trace → .raised .frameLost ∈ m.trace) := by
  have hp := interpret_keeps_frames settings levels
  have hlaw := call_framesLaw hp c m
  rw [Action.Ensures, h] at hlaw
  exact ⟨hlaw.1.length_eq, hlaw.1.tail_eq, fun _ => hlaw.1.head_forward,
    fun hc => construction_frames hp hc h, hlaw.2.lost⟩

/-- The frames at the moments of a program, and between its steps. -/
theorem frames_moments (settings : Settings) :
    (∀ m, AtRest settings m → m.frames = [] ∧ .raised .frameLost ∉ m.trace) ∧
    ∀ m, Reachable settings m → FramesInOrder settings m := by
  have hended : ∀ e m r m', m.frames = [] ∧ .raised .frameLost ∉ m.trace →
      (framesContract settings).Holds (.eval e {}) m (some r) m' →
      m'.frames = [] ∧ .raised .frameLost ∉ m'.trace := fun e m r m' hm h =>
    ⟨List.length_eq_zero_iff.mp (by simp [h.1.length_eq, hm.1]), hm.2 ∘ h.2.lost⟩
  exact Contract.moments _ (FramesInOrder settings)
    (fun _ => step_keeps_frames) (by simp [Machine.initial]) (fun _ h => h) hended
    (fun e m m' hm h => ⟨h.length (by simp [hm.1]), h.sound (by simp [hm.1]), hm.2 ∘ h.lost⟩)
    fun e m he h => h.of_safe (framesLaw_allows he.keepsFrames m).2

/-- **The discipline of the frame stack.** Every call that ends, well or badly, leaves
as many frames as it has found, those below the innermost one as they were, the
innermost one moved forward at most, and no frame has been lost meanwhile; a
construction leaves the innermost one as it was, too. So at every moment of a program
there are no more frames than the limit allows, each of them sound – which is why a
call made then moves the innermost one through the phases in order –, no frame has
ever been lost, and between the steps of a program there are no frames at all. -/
theorem frameStack_discipline (settings : Settings) :
    (∀ ⦃α : Type⦄ (c : Call α) (levels : Nat) (m m' : Machine) (r : Except Failure α),
      (c.run settings (interpret settings levels)).outcome m = (some r, m') →
        m'.frames.length = m.frames.length ∧ m'.frames.tail = m.frames.tail ∧
        (∀ f ∈ m.frames.head?, ∃ f' ∈ m'.frames.head?, f.Forward f') ∧
        (c.IsConstruction → m'.frames = m.frames) ∧
        (.raised .frameLost ∈ m'.trace → .raised .frameLost ∈ m.trace)) ∧
    (∀ m, Reachable settings m → FramesInOrder settings m ∧
      ∀ ⦃α : Type⦄ (c : Call α) (levels : Nat) (m' : Machine) (r : Except Failure α),
        (c.run settings (interpret settings levels)).outcome m = (some r, m') →
          ∀ f ∈ m.frames.head?, ∃ f' ∈ m'.frames.head?, f.Forward f' ∧
            Relation.ReflTransGen Phase.Next f.phase f'.phase) ∧
    ∀ m, AtRest settings m → m.frames = [] := by
  obtain ⟨hrest, hmoment⟩ := frames_moments settings
  refine ⟨fun α c levels m m' r h => call_frames h,
    fun m hm => ⟨hmoment m hm, fun α c levels m' r h f hf => ?_⟩, fun m hm => (hrest m hm).1⟩
  obtain ⟨f', hf', hforward⟩ := (call_frames h).2.2.1 f hf
  have hsound : f.Sound := (hmoment m hm).sound f (List.mem_of_mem_head? hf)
  exact ⟨f', hf', hforward, hforward.phase hsound.mp⟩

/-- A class that makes an instance of itself while it is being defined. -/
def selfMade : Expr :=
  .classDefinition
    { name := none, heritage := none, constructor := some (.literal .undefined),
      elements := [.field (.literal "instance") true
        (some (.reentry .constructValue [.primitive .receiver []]))] }

/-- A call of the parent constructor that fails leaves the frame it was made in, a moment in
the body of a constructor has one frame, and after the step there is none. -/
theorem frameStack_discipline_of_selfMade :
    (∃ f e m', ((Call.super []).run {} (interpret {} 1)).outcome { frames := [f] } =
      (some (.error e), m') ∧ m'.frames.length = 1 ∧ ∃ f' ∈ m'.frames.head?, f.Forward f') ∧
    (∃ m, (Reachable {} m ∧ m.frames.length = 1) ∧ FramesInOrder {} m) ∧
    ∃ m, (AtRest {} m ∧ m.registry.contains 1) ∧ m.frames = [] := by
  obtain ⟨hcall, hmoment, hrest⟩ := frameStack_discipline {}
  refine ⟨?_, ?_, ?_⟩
  · let f : Frame := { cls := 1, newTarget := 1 }
    have h : ((Call.super []).run {} (interpret {} 1)).outcome { frames := [f] } =
        (some (.error (.ofFault (.noSuchClass 1))),
          { frames := [f], trace := [.raised (.noSuchClass 1)] }) := by
      simp [f, Call.run, superCall, outcome_bind, outcome_currentFrame, outcome_classAt,
        Registry.class?]
    obtain ⟨hlength, -, hhead, -⟩ := hcall _ _ _ _ _ h
    exact ⟨f, _, _, h, hlength, hhead f rfl⟩
  · let stop (m : Machine) : Bool := !m.frames.isEmpty
    let m := ((interpretUntil {} stop 9 (.eval selfMade {})).outcome
      { Machine.initial with log := [] }).2
    have hm : Reachable {} m := AtRest.initial.reachable selfMade stop 9
    exact ⟨m, ⟨hm, by decide +kernel⟩, (hmoment m hm).1⟩
  · have hrun : ((runStep {} 9 selfMade .initial).any fun p => p.2.registry.contains 1) =
        true := by decide +kernel
    obtain ⟨⟨report, m⟩, hm, h⟩ := (Option.any_eq_true ..).mp hrun
    have hm : AtRest {} m := .step .initial hm
    exact ⟨m, ⟨hm, h⟩, hrest m hm⟩

end ClassMachine
