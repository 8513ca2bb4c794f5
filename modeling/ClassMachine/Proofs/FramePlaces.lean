import ClassMachine.Proofs.Instances
import ClassMachine.Proofs.Lifetimes

/-!
# The places of frames

The frames on the stack are not just any frames. A frame is there because client code has
asked for an instance, and then it is for the class asked for, or because the frame below
has called the constructor of its parent, and then it is for this parent and the same
new-target (`ClassMachine.Machine.Links`). The object that it binds was made for this
new-target after the frame had begun, so it is younger than all objects that were bound
before, and no two frames hold the same one (`ClassMachine.Frame.Placed`).

A frame is placed on those below it, and none of these changes as long as it is there. So
what an action has to show is that the frames are placed that it begins itself, and that of
the frames it has found only the innermost one may have received an object, and a new one
(`ClassMachine.Machine.Stands`).

Main statement: `ClassMachine.frames_in_place`.
-/

namespace ClassMachine

variable {α : Type}

/-! ### The place of a frame -/

/-- The phase is one in which a frame of a class of this kind may be seen by client code. -/
def Phase.Fits : Phase → ConstructorKind → Prop
  | allocated, kind => kind = .base
  | awaitingSuper, kind | thisBound, kind => kind = .derived
  | fieldsInstalled, _ | body, _ => True

/-- A frame of the class may begin on top of these frames, for the new-target: the class is
the new-target itself, or the parent of the class of the innermost frame, which is for the
same new-target. -/
def Machine.Links (m : Machine) (cls newTarget : ClassId) (below : List Frame) : Prop :=
  cls = newTarget ∨ ∃ g ∈ below.head?, g.newTarget = newTarget ∧
    ∃ c, m.registry.class? g.cls = some c ∧ c.parent = some cls

/-- The frame is as it should be on top of these frames. -/
structure Frame.Placed (m : Machine) (f : Frame) (below : List Frame) : Prop where
  sound : f.Sound
  phase : ∃ c, m.registry.class? f.cls = some c ∧ f.phase.Fits c.kind
  links : m.Links f.cls f.newTarget below
  /-- The object was made for the new-target. -/
  allocated : ∀ o ∈ f.this, .allocated o f.newTarget ∈ m.trace
  /-- The objects of the frames below are older. -/
  younger : ∀ o ∈ f.this, ∀ g ∈ below, ∀ o' ∈ g.this, o' < o

/-- The frames above a base are as they should be. -/
def Machine.PlacedOn (m : Machine) (base : List Frame) : List Frame → Prop
  | [] => True
  | f :: above => f.Placed m (above ++ base) ∧ m.PlacedOn base above

/-- A frame of a derived class that waits for its object has a phase of its kind whatever client
code does. -/
theorem Frame.Moved.fits {f f' : Frame} (h : f.Moved f') (hf : f.phase = .awaitingSuper) :
    f'.phase.Fits .derived := by
  rcases h with _ | ⟨_ | _ | _⟩
  · rw [hf]; rfl
  · rw [hf]; rfl
  · rfl
  · trivial

namespace Machine

variable {m m' m'' : Machine} {base above : List Frame}

theorem placedOn_concat {f : Frame} :
    m.PlacedOn base (above ++ [f]) ↔ m.PlacedOn (f :: base) above ∧ f.Placed m base := by
  induction above with
  | nil => simp [PlacedOn]
  | cons g above ih => simp [PlacedOn, ih, and_assoc]

theorem PlacedOn.placed {f : Frame} {below : List Frame}
    (h : m.PlacedOn base (above ++ f :: below)) : f.Placed m (below ++ base) := by
  induction above with
  | nil => exact h.1
  | cons g above ih => exact ih h.2

theorem Links.later {cls newTarget : ClassId} {below : List Frame}
    (h : m.Links cls newTarget below) (hm : m.Coherent) (hm' : m.Continues m') :
    m'.Links cls newTarget below := by
  refine h.imp_right fun ⟨g, hg, hnewTarget, c, hc, hparent⟩ => ⟨g, hg, hnewTarget, ?_⟩
  obtain ⟨fields, hc'⟩ := hm'.later.class? hm hm'.coherent hc
  exact ⟨_, hc', hparent⟩

end Machine

/-! ### How the stack goes on -/

/-- The machine has gone on, and has come to these frames: the frames above the base have
begun meanwhile, and are as they should be. -/
structure Machine.Proceeds (m : Machine) (base above : List Frame) (m' : Machine) : Prop where
  frames : m'.frames = above ++ base
  accounted : m'.Accounted
  advances : m.Advances m'
  placed : m'.PlacedOn base above

/-- The frames that were there have become the base: at most the innermost one has moved,
and if it has received an object, the object is new. -/
structure Machine.Stands (m : Machine) (base above : List Frame) (m' : Machine) : Prop
    extends m.Proceeds base above m' where
  moved : FramesMoved m.frames base
  receives : ∀ f' ∈ base.head?, ∀ o ∈ f'.this,
    (∃ f ∈ m.frames.head?, f.this = some o) ∨ m.Gains f'.newTarget o m'

namespace Machine

variable {m m' m'' : Machine} {base above : List Frame}

theorem Proceeds.refl (hm : m.Accounted) : m.Proceeds m.frames [] m :=
  ⟨rfl, hm, .refl m, trivial⟩

theorem Proceeds.after (h : m.Advances m') (h' : m'.Proceeds base above m'') :
    m.Proceeds base above m'' :=
  ⟨h'.frames, h'.accounted, h.trans h'.advances, h'.placed⟩

/-- If the frames that were there are as they were, nothing has moved. -/
theorem Proceeds.stands (h : m.Proceeds m.frames above m') : m.Stands m.frames above m' :=
  ⟨h, .refl _, fun f hf _ ho => .inl ⟨f, hf, ho⟩⟩

theorem Stands.trans (h : m.Stands m'.frames [] m') (h' : m'.Stands base above m'') :
    m.Stands base above m'' where
  toProceeds := .after h.advances h'.toProceeds
  moved := h.moved.trans h'.moved
  receives f'' hf'' o ho := by
    rcases h'.receives f'' hf'' o ho with ⟨f', hf', ho'⟩ | hgains
    · -- the object was there in between, so the frame had it then
      obtain ⟨g, hg, hforward⟩ := h'.moved.head_forward hf'
      obtain rfl : g = f'' := Option.some.inj (hg.symm.trans hf'')
      rw [hforward.newTarget]
      exact (h.receives f' hf' o ho').imp_right fun hgains => hgains.later h'.advances
    · exact .inr (.earlier h.advances hgains)

/-- A frame that has adopted an object which was made meanwhile has moved. -/
theorem Proceeds.adopted {f f' : Frame} {rest : List Frame} (hf : m.frames = f :: rest)
    {o : ObjectId}
    (hgains : m.Gains f.newTarget o m') (hadvances : m.Advances m')
    (h : m'.Proceeds (f' :: rest) above m'') (hadopted : f.Adopted o .thisBound f') :
    m.Stands (f' :: rest) above m'' where
  toProceeds := .after hadvances h
  moved := by
    rw [hf]
    exact .cons (.adopted hadopted) rest
  receives g hg x hx := by
    obtain rfl : f' = g := by simpa using hg
    cases hadopted with
    | refused => exact .inl ⟨f, by simp [hf], hx⟩
    | stopped | done =>
      obtain rfl : o = x := by simpa using hx
      exact .inr (hgains.later h.advances)

/-- A constructor has run in the frame, which is another version of it now. The frames below
are as they were, and if the frame has an object, it was made meanwhile. -/
structure Runs (m : Machine) (f : Frame) (rest above : List Frame) (f' : Frame) (m' : Machine) :
    Prop extends m.Proceeds (f' :: rest) above m' where
  cls : f'.cls = f.cls
  newTarget : f'.newTarget = f.newTarget
  gains : ∀ o ∈ f'.this, m.Gains f.newTarget o m'

theorem Runs.refl (hm : m.Accounted) {f : Frame} {rest : List Frame} (hf : m.frames = f :: rest)
    (hfree : f.this = none) : m.Runs f rest [] f m :=
  ⟨⟨hf, hm, .refl m, trivial⟩, rfl, rfl, by simp [hfree]⟩

/-- A frame that has adopted an object which was made meanwhile. -/
theorem Runs.of_adopted {f f' : Frame} {rest : List Frame} (hfree : f.this = none) {o : ObjectId}
    {phase : Phase} (hgains : m.Gains f.newTarget o m') (hadvances : m.Advances m')
    (h : m'.Proceeds (f' :: rest) above m'') (hadopted : f.Adopted o phase f') :
    m.Runs f rest above f' m'' := by
  have hthis : ∀ x, some o = some x → m.Gains f.newTarget x m'' := fun x hx =>
    Option.some.inj hx ▸ hgains.later h.advances
  cases hadopted with
  | refused => exact ⟨.after hadvances h, rfl, rfl, by simp [hfree]⟩
  | stopped | done => exact ⟨.after hadvances h, rfl, rfl, hthis⟩

/-- A frame in which a constructor runs is as it should be, if it may begin where it has and its
phase is one of its kind. -/
theorem Runs.frame_placed (hm : m.Coherent) (ha : m.Accounted) {f f' : Frame} {rest : List Frame}
    (hf : m.frames = f :: rest) (hlinks : m.Links f.cls f.newTarget rest)
    (h : m.Runs f rest above f' m') (hm' : m.Continues m') (hsound : f'.Sound)
    (hphase : ∃ c, m.registry.class? f.cls = some c ∧ f'.phase.Fits c.kind) :
    f'.Placed m' rest where
  sound := hsound
  phase := by
    obtain ⟨c, hc, hfits⟩ := hphase
    obtain ⟨fields, hc'⟩ := hm'.later.class? hm hm'.coherent hc
    rw [← h.cls] at hc'
    exact ⟨_, hc', hfits⟩
  links := by
    rw [h.cls, h.newTarget]
    exact hlinks.later hm hm'
  allocated o ho := by
    rw [h.newTarget]
    exact (h.gains o ho).allocated
  younger o ho g hg o' ho' :=
    Nat.lt_of_lt_of_le (ha.bound g (by simp [hf, hg]) o' ho') (h.gains o ho).new

/-- Client code in the frame is nothing else than a part of its constructor. -/
theorem Runs.stands {f f' : Frame} {rest : List Frame} (h : m.Runs f rest [] f' m')
    (h' : m'.Stands base above m'') :
    ∃ f'', f'.Moved f'' ∧ base = f'' :: rest ∧ m.Runs f rest above f'' m'' := by
  have hmoved := h'.moved
  rw [h.frames, List.nil_append] at hmoved
  cases hmoved with
  | @cons _ f'' hmoved =>
    refine ⟨f'', hmoved, rfl, .after h.advances h'.toProceeds, hmoved.forward.cls.trans h.cls,
      hmoved.forward.newTarget.trans h.newTarget, fun o ho => ?_⟩
    rcases h'.receives f'' rfl o ho with ⟨g, hg, hthis⟩ | hgains
    · obtain rfl : f' = g := by simpa [h.frames] using hg
      exact (h.gains o hthis).later h'.advances
    · rw [hmoved.forward.newTarget, h.newTarget] at hgains
      exact .earlier h.advances hgains

end Machine

/-- The law of client code. -/
def placesLaw : Law where
  ended m m' := m.Accounted → m.Stands m'.frames [] m'
  broken m m' := m.Accounted → ∃ base above, m.Stands base above m'
  refl _ hm := (Machine.Proceeds.refl hm).stands
  trans h h' hm := (h hm).trans (h' (h hm).accounted)
  late h hm := ⟨_, _, h hm⟩
  trans_broken h h' hm := by
    obtain ⟨base, above, h'⟩ := h' (h hm).accounted
    exact ⟨base, above, (h hm).trans h'⟩

/-- What has begun is gone, and the frames are as they were. -/
theorem Machine.Proceeds.ended {m m' : Machine} (h : m.Proceeds m.frames [] m') :
    placesLaw.ended m m' := by
  intro _
  rw [show m'.frames = m.frames from h.frames]
  exact h.stands

/-- The law is to be shown from machines on only in which all instances are accounted for. -/
theorem placesLaw_ensures {x : Action α} {m : Machine}
    (h : m.Accounted → x.Ensures m (placesLaw.Holds m)) : x.Ensures m (placesLaw.Holds m) := by
  unfold Action.Ensures at *
  generalize x.outcome m = o at h ⊢
  rcases o with ⟨_ | _, m'⟩ <;> exact fun hm => h hm hm

theorem placesLaw_allows {e : Effect} (h : e.KeepsInstances) : placesLaw.Allows e := by
  intro m hm
  rw [h.frames_apply]
  exact Machine.Proceeds.stands
    ⟨h.frames_apply m, h.accounted_apply hm, h.advances_apply m, trivial⟩

/-- What is known of a constructor that runs in a frame: if it is broken off, the frame is sound,
and its phase is one of the kind of its class. -/
def Machine.RunsIn (m : Machine) (f : Frame) (rest : List Frame) (r : Option (Except Failure Unit))
    (m' : Machine) : Prop :=
  ∃ above f', m.Runs f rest above f' m' ∧ (r.isSome → above = []) ∧
    (r = none → f'.Sound ∧ ∃ c, m.registry.class? f.cls = some c ∧ f'.phase.Fits c.kind)

namespace Machine.Runs

variable {m m' m'' : Machine} {f f' : Frame} {rest : List Frame}

theorem ended (h : m.Runs f rest [] f' m') {r : Except Failure Unit} :
    m.RunsIn f rest (some r) m' :=
  ⟨[], f', h, fun _ => rfl, by simp⟩

/-- Client code in the frame is nothing else than a part of its constructor. -/
theorem client (h : m.Runs f rest [] f' m') {r : Option (Except Failure Unit)}
    (h' : placesLaw.Holds m' r m'') (ha : m'.Accounted) (hmoved : ∀ f'', f'.Moved f'' →
      f''.Sound ∧ ∃ c, m.registry.class? f.cls = some c ∧ f''.phase.Fits c.kind) :
    m.RunsIn f rest r m'' := by
  cases r with
  | some r =>
    obtain ⟨f'', -, -, h''⟩ := h.stands (h' ha)
    exact h''.ended
  | none =>
    obtain ⟨base, above, hstands⟩ := h' ha
    obtain ⟨f'', hf'', -, h''⟩ := h.stands hstands
    exact ⟨above, f'', h'', by simp, fun _ => hmoved f'' hf''⟩

theorem raised (h : m.Runs f rest [] f' m') (fault : Fault) {e : Failure} :
    m.RunsIn f rest (some (.error e)) ((Effect.note (.raised fault)).apply m') := by
  obtain ⟨f'', -, -, h''⟩ :=
    h.stands (placesLaw_allows (e := .note (.raised fault)) id m' h.accounted)
  exact h''.ended

end Machine.Runs

/-- What is known of a construction: it leaves the frames as they were, and hands out an
object that was made meanwhile. -/
structure Machine.Constructs (m : Machine) (newTarget : ClassId)
    (r : Option (Except Failure ObjectId)) (m' : Machine) : Prop where
  proceeds : ∃ above, m.Proceeds m.frames above m' ∧ (r.isSome → above = [])
  gains : ∀ o, r = some (.ok o) → m.Gains newTarget o m'

namespace Machine.Constructs

variable {m m' m'' : Machine} {newTarget : ClassId} {r : Option (Except Failure ObjectId)}

theorem holds (h : m.Constructs newTarget r m') : placesLaw.Holds m r m' := by
  obtain ⟨above, hproceeds, habove⟩ := h.proceeds
  cases r with
  | none => exact fun _ => ⟨_, _, hproceeds.stands⟩
  | some r =>
    obtain rfl := habove rfl
    exact hproceeds.ended

/-- A construction that has ended leaves all frames as they were. -/
theorem frames_eq {r : Except Failure ObjectId} (h : m.Constructs newTarget (some r) m') :
    m'.frames = m.frames := by
  obtain ⟨above, hproceeds, habove⟩ := h.proceeds
  obtain rfl := habove rfl
  exact hproceeds.frames

/-- A construction that fails hands out nothing. -/
theorem error {e : Failure} (h : m.Proceeds m.frames [] m') :
    m.Constructs newTarget (some (.error e)) m' :=
  ⟨⟨[], h, fun _ => rfl⟩, by simp⟩

end Machine.Constructs

/-- What is known of a task: evaluations obey the law, and constructions proceed if the
frame has its place. -/
def Task.Places : Task α → Machine → Option (Except Failure α) → Machine → Prop
  | .eval .., m, r, m' => (registryLaw placesLaw).Holds m r m'
  | .construct cls newTarget _, m, r, m' => m.Coherent → m.Accounted →
    m.Links cls newTarget m.frames → m.Constructs newTarget r m'

/-- The contract of frames and their places. -/
def placesContract : Contract where
  Holds _ := Task.Places
  start task m := by
    cases task with
    | eval => exact (registryLaw placesLaw).late ((registryLaw placesLaw).refl m)
    | construct => exact fun _ hm _ => ⟨⟨[], .refl hm, fun _ => rfl⟩, by simp⟩
  late := by
    intro α task m m' r h
    cases task with
    | eval => exact (registryLaw placesLaw).late h
    | construct =>
      intro hm ha hl
      obtain ⟨above, hproceeds, -⟩ := (h hm ha hl).proceeds
      exact ⟨⟨above, hproceeds, by simp⟩, by simp⟩

/-! ### What runs in a frame -/

section Operations

variable {settings : Settings} {perform : Performer}
  (hregistry : perform.Keeps registryContract) (hplaces : perform.Keeps placesContract)

include hplaces

theorem eval_placesLaw (e : Expr) (ctx : Context) :
    (perform (.eval e ctx)).Obeys (registryLaw placesLaw) :=
  hplaces (.eval e ctx)

/-- What neither makes instances nor touches the registry or the frames obeys the law. -/
theorem MadeOf.placesLaw {F : Performer → Action α}
    (hF : MadeOf (fun e => e.KeepsRegistry ∧ e.KeepsInstances) .none F) :
    (F perform).Obeys (ClassMachine.registryLaw ClassMachine.placesLaw) :=
  hF.obeys_evaluations (fun _ h => registryLaw_allows h.1 (placesLaw_allows h.2))
    (eval_placesLaw hplaces)

omit hplaces in
theorem Effect.IsClient.keeps {e : Effect} (h : e.IsClient) : e.KeepsRegistry ∧ e.KeepsInstances :=
  ⟨h.keepsRegistry, h.keepsInstances⟩

/-- **Adopting an object** changes the innermost frame as far as it gets, and leaves the
others alone. -/
theorem adopt_proceeds {m : Machine} (hm : m.Coherent) (ha : m.Accounted) {f : Frame}
    {rest : List Frame} (hf : m.frames = f :: rest) {o : ObjectId} (ho : o < m.store.size)
    (cls : ClassId) (phase : Phase) :
    (adopt perform o cls phase).Ensures m fun r m' => ∃ above f',
      m.Proceeds (f' :: rest) above m' ∧ f.Adopted o phase f' ∧ (r.isSome → above = []) ∧
      (r = none → f' = { f with this := some o, phase }) ∧
      (r = some (.ok ⟨⟩) → f' = { f with this := some o, phase := .body }) := by
  rcases hfree : f.this with _ | bound
  · -- the frame is bound at first, so what the initializers do leaves it alone
    let f₁ : Frame := { f with this := some o, phase }
    let m₁ : Machine := { m with frames := f₁ :: rest }
    have h₁ : (bindThis o phase).outcome m = (some (.ok ⟨⟩), m₁) := by
      rw [outcome_bindThis hf, hfree]
    have hbound {m' : Machine} (ha' : m'.Accounted) (hm' : m'.frames = f₁ :: rest) (phase : Phase) :
        Machine.Accounted { m' with frames := { f₁ with phase } :: rest } := by
      refine ha'.with_frames fun g hg x hx => ?_
      rcases List.mem_cons.mp hg with rfl | hg
      · exact ha'.bound f₁ (by simp [hm']) x hx
      · exact ha'.bound g (by simp [hm', hg]) x hx
    have ha₁ : m₁.Accounted := by
      refine ha.with_frames fun g hg x hx => ?_
      rcases List.mem_cons.mp hg with rfl | hg
      · obtain rfl : o = x := by simpa [f₁] using hx
        exact ho
      · exact ha.bound g (by simp [hf, hg]) x hx
    have hm₁ : m₁.Coherent := ⟨hm.follows, hm.names⟩
    have hadvances : m.Advances m₁ := .of_eq rfl rfl
    have hstays {base above : List Frame} {m' : Machine} (h : m₁.Stands base above m') :
        base = f₁ :: rest :=
      FramesMoved.eq_of_bound (show FramesMoved (f₁ :: rest) base from h.moved) (by simp [f₁])
    have hinstall := (installInstanceFields_madeOf (X := .none)
      (fun _ => Effect.IsClient.keeps) (fun e he => by cases e <;> simp_all [Event.IsInstalling,
        Effect.KeepsRegistry, Effect.KeepsInstances, Event.isRegistral, Event.IsMaking]) o
      cls).placesLaw hplaces m₁
    refine .bind_ok h₁ (hinstall.bind (fun _ m₂ _ h₂ => ?_) (fun e m₂ h₂ => ?_) fun m₂ h₂ => ?_)
    · have hstands := (h₂ hm₁).2 ha₁
      have hm₂ : m₂.frames = f₁ :: rest := hstays hstands
      refine .bind_ok (outcome_enterPhase hm₂ _) (.of_outcome (outcome_enterPhase rfl _) ?_)
      exact ⟨[], _, ⟨rfl, hbound hstands.accounted hm₂ .body,
        (hadvances.trans hstands.advances).trans (.of_eq rfl rfl), trivial⟩, .done hfree,
        fun _ => rfl, by simp, fun _ => rfl⟩
    · have hstands := (h₂ hm₁).2 ha₁
      rw [hstays hstands] at hstands
      exact ⟨[], f₁, .after hadvances hstands.toProceeds, .stopped hfree, fun _ => rfl, by simp,
        by simp⟩
    · obtain ⟨base, above, hstands⟩ := (h₂ hm₁).2 ha₁
      obtain rfl := hstays hstands
      exact ⟨above, f₁, .after hadvances hstands.toProceeds, .stopped hfree, by simp, fun _ => rfl,
        by simp⟩
  · refine .bind_error (e := .ofFault .boundTwice)
      (n := (Effect.note (.raised .boundTwice)).apply m) ?_ ?_
    · rw [outcome_bindThis hf, hfree]
      rfl
    · have hproceeds := (placesLaw_allows (e := .note (.raised .boundTwice)) id m ha).toProceeds
      exact ⟨[], f, ⟨hf, hproceeds.accounted, hproceeds.advances, trivial⟩, .refused f,
        fun _ => rfl, by simp, by simp⟩

include hregistry

/-- **Calling the parent constructor** obeys the law: the frame receives the object that the
construction hands out. -/
theorem superCall_places {m : Machine} (hm : m.Coherent) (args : List Value) :
    (superCall perform args).Ensures m (placesLaw.Holds m) := by
  refine placesLaw_ensures fun ha => superCall_ensures (fun fault _ =>
    placesLaw_allows (e := .note (.raised fault)) id m) fun f rest c p hf hc hp => ?_
  have hlinks : m.Links p f.newTarget m.frames := .inr ⟨f, by simp [hf], rfl, c, hc, hp⟩
  have hconstruct : (perform (.construct p f.newTarget args)).Ensures m fun r m₁ =>
      (registryLaw .trivial).Holds m r m₁ ∧ m.Constructs f.newTarget r m₁ :=
    ⟨hregistry (.construct p f.newTarget args) m,
      hplaces (.construct p f.newTarget args) m hm ha hlinks⟩
  refine hconstruct.bind (fun o m₁ _ h₁ => ?_) (fun _ _ h => h.2.holds) fun _ h => h.2.holds
  have hm₁ : m₁.Coherent := (h₁.1 hm).1.coherent
  obtain ⟨above₁, hproceeds, -⟩ := h₁.2.proceeds
  have hgains := h₁.2.gains o rfl
  have hstands {above : List Frame} {f' : Frame} {m' : Machine}
      (h : m₁.Proceeds (f' :: rest) above m') (hadopted : f.Adopted o .thisBound f') :
      m.Stands (f' :: rest) above m' := h.adopted hf hgains hproceeds.advances hadopted
  refine (adopt_proceeds hplaces hm₁ hproceeds.accounted (h₁.2.frames_eq.trans hf) hgains.born f.cls
    .thisBound).bind (fun _ m₂ _ h₂ => ?_) (fun _ m₂ h₂ => ?_) fun m₂ h₂ => ?_
  · obtain ⟨above, f', h₂, hadopted, habove, -⟩ := h₂
    obtain rfl := habove rfl
    have h₂ : placesLaw.ended m m₂ := fun _ => h₂.frames ▸ hstands h₂ hadopted
    exact placesLaw.trans h₂ (placesLaw_allows (e := .note (.superReturned f.cls o)) id m₂)
  · obtain ⟨above, f', h₂, hadopted, habove, -⟩ := h₂
    obtain rfl := habove rfl
    exact fun _ => h₂.frames ▸ hstands h₂ hadopted
  · obtain ⟨above, f', h₂, hadopted, -⟩ := h₂
    exact fun _ => ⟨_, _, hstands h₂ hadopted⟩

/-- **Running the constructor of a base class**: it makes the object and adopts it, and then the
frame is bound, so that the body leaves it as it is. -/
theorem runConstructor_places_of_base {m : Machine} (hm : m.Coherent) (ha : m.Accounted) {f : Frame}
    {rest : List Frame} (hf : m.frames = f :: rest) (hfree : f.this = none) {c : Class}
    (hc : m.registry.class? f.cls = some c) (hkind : c.kind = .base) (args : List Value) :
    (runConstructor perform f.cls f.newTarget args).Ensures m (m.RunsIn f rest) := by
  have hstart := Machine.Runs.refl ha hf hfree
  refine .bind_ok (outcome_classAt_of_some hc) ?_
  simp only [hkind]
  rcases hc' : m.registry.class? f.newTarget with _ | c'
  · exact .bind_error (Machine.outcome_allocate_of_none hc') (hstart.raised _)
  have hid : c'.id = f.newTarget := hm.follows.class?_id hc'
  rw [← hid] at hc'
  let m₁ := m.withInstance c'
  have hallocate : (allocate f.newTarget).outcome m = (some (.ok m.store.size), m₁) :=
    hid ▸ Machine.outcome_allocate_of_some hc'
  obtain ⟨ha₁, hgains⟩ := ha.withInstance hm hc'
  rw [hid] at hgains
  have hsettles : m.Settles m₁ := .of_eq hm rfl
    (Effect.KeepsRegistry.chronicle_apply (e := .note (.allocated m.store.size c'.id)) rfl _)
  have hm₁ := hsettles.coherent
  refine .bind_ok hallocate ?_
  have hlaw : (adopt perform m.store.size f.cls .allocated).Obeys (registryLaw .trivial) :=
    MadeOf.registryLaw (fun _ _ _ => trivial) hregistry ((adopt_madeOf _ _ _).mono
      (fun _ h => h.isConstructing.keepsRegistry) fun _ _ => .operation)
  have hruns {above : List Frame} {f' : Frame} {m' : Machine}
      (h : m₁.Proceeds (f' :: rest) above m') (hadopted : f.Adopted m.store.size .allocated f') :
      m.Runs f rest above f' m' := .of_adopted hfree hgains (.withInstance m c') h hadopted
  refine ((hlaw m₁).and (adopt_proceeds hplaces hm₁ ha₁ hf hgains.born f.cls .allocated)).bind
    (fun _ m₂ _ h₂ => ?_) (fun _ m₂ h₂ => ?_) fun m₂ h₂ => ?_
  · obtain ⟨hregistry₂, above, f', h₂, hadopted, habove, -, hdone⟩ := h₂
    obtain rfl := habove rfl
    obtain rfl := hdone rfl
    have h₂ := hruns h₂ hadopted
    split
    next body _ =>
      have hbody : ((runBody perform f.cls (some m.store.size) body args)).Ensures m₂
          ((registryLaw placesLaw).Holds m₂) :=
        (runBody_madeOf (X := .none) ⟨rfl, id⟩ body).placesLaw hplaces m₂
      exact hbody.mono fun r m₃ h₃ => h₂.client
        (h₃.of_registryLaw (hregistry₂ hm₁).1.coherent) h₂.accounted
        fun f' hmoved => by
          obtain rfl := hmoved.eq_of_bound (by simp)
          exact ⟨by simp [Frame.Sound], c, hc, trivial⟩
    · exact .of_outcome rfl h₂.ended
  · obtain ⟨-, above, f', h₂, hadopted, habove, -⟩ := h₂
    obtain rfl := habove rfl
    exact (hruns h₂ hadopted).ended
  · obtain ⟨-, above, f', h₂, hadopted, -, hstopped, -⟩ := h₂
    obtain rfl := hstopped rfl
    exact ⟨above, _, hruns h₂ hadopted, by simp, fun _ => ⟨by simp [Frame.Sound], c, hc, hkind⟩⟩

/-- **Running the constructor of a derived class**: it is client code, or calls the parent
constructor as client code may. -/
theorem runConstructor_places_of_derived {m : Machine} (hm : m.Coherent) (ha : m.Accounted)
    {f : Frame} {rest : List Frame} (hf : m.frames = f :: rest) (hfree : f.this = none)
    (hphase : f.phase = .awaitingSuper) {c : Class} (hc : m.registry.class? f.cls = some c)
    (hkind : c.kind = .derived) (args : List Value) :
    (runConstructor perform f.cls f.newTarget args).Ensures m (m.RunsIn f rest) := by
  have client {r : Option (Except Failure Unit)} {m' : Machine} (h : placesLaw.Holds m r m') :
      m.RunsIn f rest r m' := (Machine.Runs.refl ha hf hfree).client h ha fun f' hmoved =>
    ⟨hmoved.sound (by simp [Frame.Sound, hfree, hphase]), c, hc, hkind ▸ hmoved.fits hphase⟩
  refine .bind_ok (outcome_classAt_of_some hc) ?_
  simp only [hkind]
  split
  next body _ =>
    have hbody : (runBody perform f.cls none body args).Obeys (registryLaw placesLaw) :=
      (runBody_madeOf (X := .none) ⟨rfl, id⟩ body).placesLaw hplaces
    exact (hbody m).mono fun r m' h => client (h.of_registryLaw hm)
  · exact (superCall_places hregistry hplaces hm args).bind (fun _ _ _ h => client h)
      (fun _ _ h => client h) fun _ h => client h

/-- **Running a constructor** in a frame that has just begun. -/
theorem runConstructor_places {m : Machine} (hm : m.Coherent) (ha : m.Accounted) {f : Frame}
    {rest : List Frame} (hf : m.frames = f :: rest) (hfree : f.this = none)
    (hphase : f.phase = .awaitingSuper) (args : List Value) :
    (runConstructor perform f.cls f.newTarget args).Ensures m (m.RunsIn f rest) := by
  rcases hc : m.registry.class? f.cls with _ | c
  · exact .bind_error (outcome_classAt_of_none hc) ((Machine.Runs.refl ha hf hfree).raised _)
  · cases hkind : c.kind with
    | base => exact runConstructor_places_of_base hregistry hplaces hm ha hf hfree hc hkind args
    | derived =>
      exact runConstructor_places_of_derived hregistry hplaces hm ha hf hfree hphase hc hkind args

/-! ### The frame around it -/

/-- **A construction** begins a frame that has its place, and takes it off again. -/
theorem constructFor_places {m : Machine} (hm : m.Coherent) (ha : m.Accounted)
    {cls newTarget : ClassId} (hlinks : m.Links cls newTarget m.frames) (args : List Value) :
    (constructFor settings perform cls newTarget args).Ensures m (m.Constructs newTarget) := by
  let m₂ := m.begun cls newTarget
  have h₁ : m.Stands m.frames [] ((Effect.note (.called cls newTarget)).apply m) :=
    placesLaw_allows (e := .note (.called cls newTarget)) id m ha
  have raised {m' : Machine} (h : m.Proceeds m.frames [] m') (fault : Fault) :
      m.Constructs newTarget (some (.error (.ofFault fault)))
        ((Effect.note (.raised fault)).apply m') := by
    have hnote := placesLaw_allows (e := .note (.raised fault)) id m' h.accounted
    exact .error ⟨h.frames, hnote.accounted, h.advances.trans hnote.advances, trivial⟩
  have hm₂ : m.Settles m₂ := .of_eq hm rfl rfl
  have ha₂ : m₂.Accounted :=
    h₁.accounted.with_frames <| List.forall_mem_cons.mpr ⟨by simp, h₁.accounted.bound⟩
  have hadvances₂ : m.Advances m₂ := h₁.advances.trans (.of_eq rfl rfl)
  have hregistry₂ : (runConstructor perform cls newTarget args).Ensures m₂
      ((registryLaw .trivial).Holds m₂) :=
    MadeOf.registryLaw (fun _ _ _ => trivial) hregistry (runConstructor_madeOf
      (fun _ h => h.isConstructing.keepsRegistry) cls (fun _ => trivial) (fun _ => rfl) args) m₂
  refine constructFor_ensures (raised h₁.toProceeds _) (fun _ => hregistry₂.and
    (runConstructor_places hregistry hplaces hm₂.coherent ha₂ (f := { cls, newTarget }) rfl rfl rfl
      args)) (fun outcome m₃ h₃ => ?_) fun m₃ h₃ => ?_
  · -- the frame is taken off, and all others are as they were
    obtain ⟨-, above, f', h₃, habove, -⟩ := h₃
    obtain rfl := habove rfl
    have hm₃ : m₃.frames = f' :: m.frames := h₃.frames
    have h₄ : m.Proceeds m.frames [] { m₃ with frames := m.frames } :=
      ⟨rfl, h₃.accounted.with_frames fun g hg => h₃.accounted.bound g (by simp [hm₃, hg]),
        (hadvances₂.trans h₃.advances).trans (.of_eq rfl rfl), trivial⟩
    refine finishConstruction_ensures hm₃
      (fun this _ hthis => ⟨⟨[], h₄, fun _ => rfl⟩, fun o ho => ?_⟩)
      (fun _ => raised h₄ _) fun _ _ => .error h₄
    obtain rfl : this = o := Except.ok.inj (Option.some.inj ho)
    exact .earlier hadvances₂ ((h₃.gains this hthis).later (.of_eq rfl rfl))
  · -- the frame is the first one of those that have begun meanwhile
    obtain ⟨hregistry₃, above, f', h₃, -, hphase⟩ := h₃
    obtain ⟨hsound, hphase⟩ := hphase rfl
    have hlinks₂ : m₂.Links cls newTarget m.frames := hlinks.later hm hm₂.toContinues
    have hplaced := h₃.frame_placed hm₂.coherent ha₂ rfl hlinks₂ (hregistry₃ hm₂.coherent).1 hsound
      hphase
    refine ⟨⟨above ++ [f'], ⟨?_, h₃.accounted, hadvances₂.trans h₃.advances,
      Machine.placedOn_concat.mpr ⟨h₃.placed, hplaced⟩⟩, by simp⟩, by simp⟩
    rw [List.append_assoc]
    exact h₃.frames

/-- A construction for a client hands out an object that was made meanwhile, and notes it. -/
theorem construct_places {m : Machine} (hm : m.Coherent) (ha : m.Accounted) (cls : ClassId)
    (args : List Value) :
    (construct settings perform cls args).Ensures m fun r m' => placesLaw.Holds m r m' ∧
      ∀ o, r = some (.ok o) → ∃ m₁, m.Gains cls o m₁ ∧
        m' = (Effect.note (.constructed cls o)).apply m₁ := by
  have hannounce : (announceConstruction settings cls).Obeys (registryLaw placesLaw) :=
    MadeOf.placesLaw hplaces (F := fun _ => announceConstruction settings cls)
      (announceConstruction_madeOf (fun _ => Effect.IsClient.keeps) fun _ => ⟨rfl, id⟩)
  refine (hannounce m).bind (fun _ m₁ _ h₁ => ?_) (fun _ _ h => ⟨(h hm).2, by simp⟩)
    fun _ h => ⟨(h hm).2, by simp⟩
  obtain ⟨hsettles, hlaw₁⟩ := h₁ hm
  have h₁ := hlaw₁ ha
  refine (constructFor_places hregistry hplaces hsettles.coherent h₁.accounted (.inl rfl) args).bind
    (fun o m₂ _ h₂ => ?_) (fun _ _ h => ⟨h.holds.of_ended hlaw₁, by simp⟩)
    fun _ h => ⟨h.holds.of_ended hlaw₁, by simp⟩
  obtain ⟨above, hproceeds, habove⟩ := h₂.proceeds
  obtain rfl := habove rfl
  have hgains := h₂.gains o rfl
  let m₃ := (Effect.note (.constructed cls o)).apply m₂
  have h₃ : m₁.Proceeds m₁.frames [] m₃ := ⟨hproceeds.frames,
    hgains.accounted hproceeds.accounted, hgains.advances hproceeds.advances cls, trivial⟩
  refine .of_outcome rfl ⟨placesLaw.trans hlaw₁ h₃.ended, fun o' ho => ?_⟩
  obtain rfl : o = o' := by simpa using ho
  exact ⟨m₂, .earlier h₁.advances hgains, rfl⟩

theorem constructValue_places {m : Machine} (hm : m.Coherent) (ha : m.Accounted) (callee : Value)
    (args : List Value) :
    (constructValue settings perform callee args).Ensures m (placesLaw.Holds m) := by
  have hcalled : (calledClass callee).Obeys (registryLaw placesLaw) :=
    MadeOf.placesLaw hplaces (F := fun _ => calledClass callee)
      ((calledClass_client callee).of_client fun _ => Effect.IsClient.keeps)
  refine (hcalled m).bind (fun cls m₁ _ h₁ => ?_) (fun _ _ h => (h hm).2) fun _ h => (h hm).2
  obtain ⟨hsettles, hlaw₁⟩ := h₁ hm
  exact (construct_places hregistry hplaces hsettles.coherent (hlaw₁ ha).accounted cls args).mono
    fun _ _ h => h.1.of_ended hlaw₁

/-! ### All calls, all tasks -/

theorem call_placesLaw (c : Call α) : (c.run settings perform).Obeys (registryLaw placesLaw) := by
  have access {F : Performer → Action α} (hF : MadeOf Effect.IsClient .none F) :
      (F perform).Obeys (registryLaw placesLaw) :=
    (hF.of_client fun _ => Effect.IsClient.keeps).placesLaw hplaces
  have hcall := call_registryLaw hregistry settings c
  cases c with
  | construct cls args =>
    exact fun m => registryLaw_of_trivial (hcall m) fun hm => placesLaw_ensures fun ha =>
      (construct_places hregistry hplaces hm ha cls args).mono fun _ _ => And.left
  | constructValue callee args =>
    exact fun m => registryLaw_of_trivial (hcall m) fun hm => placesLaw_ensures fun ha =>
      constructValue_places hregistry hplaces hm ha callee args
  | super args =>
    exact fun m => registryLaw_of_trivial (hcall m) fun hm =>
      superCall_places hregistry hplaces hm args
  | define d =>
    exact defineClass_registryLaw (fun _ h => placesLaw_allows h.keepsInstances)
      (eval_placesLaw hplaces) d
  | replace cls field initializer =>
    exact replaceInitializer_registryLaw (fun _ h => placesLaw_allows h.keepsInstances) cls field
      initializer
  | get target key => exact access (readProperty_client target key)
  | set target key value => exact access (assignProperty_client target key value)
  | call callee receiver args => exact access (callValue_client callee receiver args)
  | invoke receiver key args => exact access (invokeMethod_client receiver key args)

/-- **Each level passes the contract on.** -/
theorem step_keeps_places : (step settings perform).Keeps placesContract := by
  intro α task
  cases task with
  | eval e ctx =>
    refine (evaluateExpr_client ctx e).obeys
      (fun _ h => registryLaw_allows (Effect.IsClient.keepsRegistry h)
        (placesLaw_allows (Effect.IsClient.keepsInstances h))) ?_ (eval_placesLaw hplaces)
    rintro β _ ⟨c, rfl⟩
    exact call_placesLaw hregistry hplaces c
  | construct cls newTarget args =>
    exact fun m hm ha hlinks => constructFor_places hregistry hplaces hm ha hlinks args

end Operations

/-! ### The places at all moments -/

namespace Machine

variable {m m' : Machine} {base : List Frame}

/-- The places of frames depend on the registry and on what was noted. -/
theorem PlacedOn.mono (hregistry : m'.registry = m.registry) (htrace : m.trace ⊆ m'.trace)
    {above : List Frame} (h : m.PlacedOn base above) : m'.PlacedOn base above := by
  induction above with
  | nil => trivial
  | cons f above ih =>
    obtain ⟨hf, habove⟩ := h
    refine ⟨⟨hf.sound, ?_, ?_, fun o ho => htrace (hf.allocated o ho), hf.younger⟩, ih habove⟩
    · rw [hregistry]
      exact hf.phase
    · rw [Links, hregistry]
      exact hf.links

/-- The new-targets are there: each one is the class of a frame further down, if not of this
one. -/
theorem PlacedOn.newTarget {fs : List Frame} (h : m.PlacedOn [] fs) :
    ∀ f ∈ fs, m.registry.contains f.newTarget := by
  induction fs with
  | nil => simp
  | cons f below ih =>
    obtain ⟨hf, hbelow⟩ := h
    rw [List.append_nil] at hf
    refine List.forall_mem_cons.mpr ⟨?_, ih hbelow⟩
    rcases hf.links with hcls | ⟨g, hg, hnewTarget, -⟩
    · obtain ⟨c, hc, -⟩ := hf.phase
      rw [← hcls, Registry.contains_eq_isSome, hc]
      rfl
    · exact hnewTarget ▸ ih hbelow g (List.mem_of_mem_head? hg)

/-- No two frames hold the same object. -/
theorem PlacedOn.nodup {fs : List Frame} (h : m.PlacedOn [] fs) :
    (fs.filterMap Frame.this).Nodup := by
  induction fs with
  | nil => simp
  | cons f below ih =>
    obtain ⟨hf, hbelow⟩ := h
    rw [List.append_nil] at hf
    cases hthis : f.this with
    | none => rw [List.filterMap_cons_none hthis]; exact ih hbelow
    | some o =>
      rw [List.filterMap_cons_some hthis, List.nodup_cons]
      refine ⟨fun ho => ?_, ih hbelow⟩
      obtain ⟨g, hg, hthis'⟩ := List.mem_filterMap.mp ho
      exact Nat.lt_irrefl o (hf.younger o hthis g hg o hthis')

/-- What holds of the frames whenever client code runs. -/
structure FramesInPlace (m : Machine) : Prop where
  /-- The class of a frame and its new-target are registered. -/
  registered : ∀ f ∈ m.frames, m.registry.contains f.cls ∧ m.registry.contains f.newTarget
  /-- The frame has an object exactly if it does not wait for one. -/
  sound : ∀ f ∈ m.frames, f.Sound
  /-- The phase of the frame is one of the kind of its class. -/
  phase : ∀ f ∈ m.frames, ∃ c, m.registry.class? f.cls = some c ∧ f.phase.Fits c.kind
  /-- The object of the frame is an instance of the new-target. -/
  kind : ∀ f ∈ m.frames, ∀ o ∈ f.this,
    o < m.store.size ∧ (m.store.object o).kind = .instance f.newTarget
  /-- The frame is for its own class, or for that of the frame below. -/
  links : ∀ above f below, m.frames = above ++ f :: below → m.Links f.cls f.newTarget below
  /-- No two frames have the same object. -/
  distinct : (m.frames.filterMap Frame.this).Nodup

theorem PlacedOn.framesInPlace (ha : m.Accounted) (h : m.PlacedOn [] m.frames) :
    m.FramesInPlace := by
  have hplaced : ∀ above f below, m.frames = above ++ f :: below → f.Placed m below := by
    intro above f below hf
    rw [hf] at h
    simpa using h.placed
  have hmem : ∀ f ∈ m.frames, ∃ below, f.Placed m below := by
    intro f hf
    obtain ⟨above, below, hsplit⟩ := List.append_of_mem hf
    exact ⟨below, hplaced above f below hsplit⟩
  refine ⟨fun f hf => ⟨?_, h.newTarget f hf⟩, fun f hf => ?_, fun f hf => ?_, fun f hf o ho => ?_,
    fun above f below hf => (hplaced above f below hf).links, h.nodup⟩
  all_goals obtain ⟨below, hf'⟩ := hmem f hf
  · obtain ⟨c, hc, -⟩ := hf'.phase
    rw [Registry.contains_eq_isSome, hc]
    rfl
  · exact hf'.sound
  · exact hf'.phase
  · obtain ⟨since, before, -, hborn, hkind, -⟩ := ha.isInstance (hf'.allocated o ho)
    exact ⟨hborn, hkind⟩

end Machine

/-- The contracts of the registry and of the places of frames. -/
def placedContract : Contract :=
  registryContract.and placesContract

theorem step_keeps_placed (settings : Settings) (perform : Performer)
    (hp : perform.Keeps placedContract) : (step settings perform).Keeps placedContract := by
  obtain ⟨hregistry, hplaces⟩ := Performer.keeps_and.mp hp
  exact Performer.keeps_and.mpr ⟨step_keeps_registry hregistry settings,
    step_keeps_places hregistry hplaces⟩

/-- **Instances are accounted for at all moments**, and frames are in their places. -/
theorem places_moments (settings : Settings) :
    (∀ m, AtRest settings m → m.Coherent ∧ m.Accounted ∧ m.frames = []) ∧
      ∀ m, Reachable settings m → m.Coherent ∧ m.Accounted ∧ m.PlacedOn [] m.frames := by
  refine Contract.moments _ _ (step_keeps_placed settings)
    ⟨Machine.initial_coherent, ⟨?_, ?_, ?_, ?_, ?_⟩, rfl⟩ ?_ ?_ ?_ ?_
  · simp [Machine.initial]
  · simp [Machine.initial, constructedOf]
  · simp [Machine.initial, constructedOf]
  · simp [Machine.initial]
  · simp [Machine.initial]
  · exact fun m h => ⟨⟨h.1.follows, h.1.names⟩,
      ⟨h.2.1.instances, h.2.1.once, h.2.1.constructed, h.2.1.handedOut, h.2.1.bound⟩, h.2.2⟩
  · rintro e m r m' ⟨hm, ha, hf⟩ ⟨-, hlaw⟩
    obtain ⟨hsettles, hlaw⟩ := hlaw hm
    have hstands := hlaw ha
    have hmoved := hstands.moved
    rw [hf] at hmoved
    exact ⟨hsettles.coherent, hstands.accounted, List.length_eq_zero_iff.mp hmoved.length_eq⟩
  · rintro e m m' ⟨hm, ha, hf⟩ ⟨-, hlaw⟩
    obtain ⟨hcontinues, hlaw⟩ := hlaw hm
    obtain ⟨base, above, hstands⟩ := hlaw ha
    have hmoved := hstands.moved
    rw [hf] at hmoved
    obtain rfl : base = [] := List.length_eq_zero_iff.mp hmoved.length_eq
    refine ⟨hcontinues.coherent, hstands.accounted, ?_⟩
    rw [hstands.frames, List.append_nil]
    exact hstands.placed
  · rintro e m he ⟨hm, ha, hplaced⟩
    have hsettles := (registryLaw_allows (L := .trivial) he.keepsRegistry (fun _ => trivial) m hm).1
    refine ⟨hsettles.coherent, he.keepsInstances.accounted_apply ha, ?_⟩
    rw [he.keepsInstances.frames_apply]
    exact hplaced.mono (he.keepsRegistry.registry_apply m) fun e' he' =>
      (he.keepsInstances.advances_apply m).mem_trace he'

/-- Instances are accounted for at all moments. -/
theorem accounted_of_moment {settings : Settings} {m : Machine}
    (hm : AtRest settings m ∨ Reachable settings m) : m.Accounted := by
  obtain ⟨hrest, hmoment⟩ := places_moments settings
  exact hm.elim (fun hm => (hrest m hm).2.1) fun hm => (hmoment m hm).2.1

/-- **Frames are in their places.** Whenever client code runs, the class of each frame and its
new-target are registered; it has an object unless it waits for one, and its phase is one of
the kind of its class; its object is an instance of the new-target; it is for its own class, or
the constructor of this class was called from the frame below, as that of the parent; and
no two frames have the same object.

A frame lasts as long as the construction that has begun it. Of two moments of a construction,
at which it is broken off, at the first one in more states than at the second, the frame is there
at both, for the class and the new-target, and if it has an object at the first one, it has this
one at the second: an object is bound to a frame once. -/
theorem frames_in_place (settings : Settings) :
    (∀ m, Reachable settings m → m.FramesInPlace) ∧
    ∀ m (cls newTarget : ClassId) (args : List Value) (stop stop' : Machine → Bool)
      (levels levels' : Nat) m₁ m₂, (∀ m, stop' m = true → stop m = true) → levels ≤ levels' →
      (constructFor settings (interpretUntil settings stop levels) cls newTarget args).outcome m =
        (none, m₁) →
      (constructFor settings (interpretUntil settings stop' levels') cls newTarget args).outcome m =
        (none, m₂) →
      ∃ f₁ f₂, m₁.frameAt m.frames.length = some f₁ ∧ m₂.frameAt m.frames.length = some f₂ ∧
        f₁.cls = cls ∧ f₁.newTarget = newTarget ∧ f₁.Kept f₂ := by
  constructor
  · intro m hm
    obtain ⟨-, ha, hplaced⟩ := (places_moments settings).2 m hm
    exact hplaced.framesInPlace ha
  · intro m cls newTarget args stop stop' levels levels' m₁ m₂ hstop hlevels h₁ h₂
    obtain ⟨f₁, f₂, hf₁, hf₂, hcls, hnewTarget, hkept⟩ := runConstructor_frame
      (fun _ => interpretUntil_begins settings hstop hlevels)
      (fun _ => interpretUntil_keptLaw settings stop levels) m cls newTarget args
    rw [constructFor_broken h₁] at hf₁
    rw [constructFor_broken h₂] at hf₂
    exact ⟨f₁, f₂, hf₁, hf₂, hcls, hnewTarget, hkept⟩

/-- A class with a parent, both with a field and without a constructor:
`class extends (class { x = undefined }) { y = undefined }`. -/
def twoFields : Expr :=
  .classDefinition
    { name := none,
      heritage := some (.primitive .classObject [.classDefinition
        { name := none, heritage := none, constructor := none,
          elements := [.field (.literal "x") false (some (.literal .undefined))] }]),
      constructor := none,
      elements := [.field (.literal "y") false (some (.literal .undefined))] }

/-- There are two frames when the initializer of the parent's field runs, and the frame of the
class itself, which has no object then, has one when that of its own field runs. -/
theorem frames_in_place_of_twoFields :
    (∃ m, (Reachable {} m ∧ m.frames.length = 2) ∧ m.FramesInPlace) ∧
    ∃ m stop stop' m₁ m₂, ((∀ m, stop' m = true → stop m = true) ∧
      (constructFor {} (interpretUntil {} stop 9) 2 2 []).outcome m = (none, m₁) ∧
      (constructFor {} (interpretUntil {} stop' 9) 2 2 []).outcome m = (none, m₂)) ∧
      ∃ f₁ f₂, m₁.frameAt m.frames.length = some f₁ ∧ m₂.frameAt m.frames.length = some f₂ ∧
        f₁.cls = 2 ∧ f₁.newTarget = 2 ∧ f₁.Kept f₂ := by
  obtain ⟨hmoment, hkept⟩ := frames_in_place {}
  constructor
  · let stop (m : Machine) : Bool := m.frames.length == 2
    let construction : Expr := .reentry .constructValue [.primitive .classObject [twoFields]]
    let m := ((interpretUntil {} stop 9 (.eval construction {})).outcome
      { Machine.initial with log := [] }).2
    have hm : Reachable {} m := AtRest.initial.reachable construction stop 9
    exact ⟨m, ⟨hm, by decide +kernel⟩, hmoment m hm⟩
  · let bound (m : Machine) : Bool := m.frames.getLast?.any fun f => f.this.isSome
    let begun (m : Machine) : Bool := bound m || m.frames.length == 2
    let m := (((runStep {} 9 twoFields .initial).map Prod.snd).getD .initial)
    let run (stop : Machine → Bool) :=
      (constructFor {} (interpretUntil {} stop 9) 2 2 []).outcome m
    have hbegun : ∀ m, bound m = true → begun m = true := fun m h =>
      Bool.or_eq_true_iff.mpr (.inl h)
    have hbroken : (run begun).1.isNone ∧ (run bound).1.isNone := by decide +kernel
    rcases h₁ : run begun with ⟨_ | r, m₁⟩
    · rcases h₂ : run bound with ⟨_ | r, m₂⟩
      · exact ⟨m, begun, bound, m₁, m₂, ⟨hbegun, h₁, h₂⟩,
          hkept m 2 2 [] begun bound 9 9 m₁ m₂ hbegun (Nat.le_refl 9) h₁ h₂⟩
      · simp [h₂] at hbroken
    · simp [h₁] at hbroken

end ClassMachine
