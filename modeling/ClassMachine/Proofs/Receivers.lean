import ClassMachine.Proofs.FrameStack

/-!
# The receivers of initializers

The initializer of an instance field runs with a receiver. That is the object which the innermost
frame has bound, and the frame is of the class that declares the field. Client code can see this
at the moment at which the initializer begins, and nothing has been noted then since the field
was begun (`ClassMachine.Machine.Receives`).

So of the trace only the newest event matters, and the law of client code is simple: an action
leaves trace and frames alone, or notes something last that is not the beginning of a field
(`ClassMachine.Machine.Quiet`).

Main statement: `ClassMachine.runConstructor_receives`.
-/

namespace ClassMachine

variable {α : Type}

namespace Machine

variable {m m' : Machine}

/-- The field of the class has just been begun on the object. -/
def BeginsField (m : Machine) (cls : ClassId) (o : ObjectId) : Prop :=
  ∃ className record old, m.trace = .began (.instanceField cls className o record) :: old

/-- If a field has just been begun, it is one of the class of the innermost frame, and is begun
on the object of this frame. -/
def Receives (m : Machine) : Prop :=
  ∀ cls o, m.BeginsField cls o → ∃ f ∈ m.frames.head?, f.cls = cls ∧ f.this = some o

/-- No field has just been begun. -/
def Quiet (m : Machine) : Prop :=
  ∀ cls o, ¬ m.BeginsField cls o

/-- Neither the trace nor the frames are other ones. -/
def Idles (m m' : Machine) : Prop :=
  m'.trace = m.trace ∧ m'.frames = m.frames

theorem Quiet.receives (h : m.Quiet) : m.Receives :=
  fun cls o hbegins => (h cls o hbegins).elim

theorem Quiet.of_trace (h : m.Quiet) (htrace : m'.trace = m.trace) : m'.Quiet := by
  unfold Quiet BeginsField at *
  rwa [htrace]

theorem Receives.of_idles (h : m.Receives) (h' : m.Idles m') : m'.Receives := by
  unfold Receives BeginsField at *
  rwa [h'.1, h'.2]

end Machine

open Machine

/-! ### The law of client code -/

/-- The event is not the beginning of an instance field. -/
def Event.IsQuiet : Event → Prop
  | began activity => ¬ activity.IsInstance
  | _ => True

/-- Such an event has been noted last. -/
theorem Event.IsQuiet.quiet {e : Event} (h : e.IsQuiet) {m : Machine} {old : List Event}
    (hm : m.trace = e :: old) : m.Quiet := by
  rintro cls o ⟨className, record, old', hbegins⟩
  obtain rfl := (List.cons.inj (hm.symm.trans hbegins)).1
  exact h trivial

/-- The law of client code. -/
def receiversLaw : Law where
  ended m m' := m.Idles m' ∨ m'.Quiet
  broken m m' := m.Idles m' ∨ m'.Receives
  refl _ := .inl ⟨rfl, rfl⟩
  trans := by
    rintro m m' m'' h (h' | h')
    · exact h.imp (fun h => ⟨h'.1.trans h.1, h'.2.trans h.2⟩) fun h => h.of_trace h'.1
    · exact .inr h'
  late h := h.imp_right Quiet.receives
  trans_broken := by
    rintro m m' m'' h (h' | h')
    · exact h.imp (fun h => ⟨h'.1.trans h.1, h'.2.trans h.2⟩) fun h => h.receives.of_idles h'
    · exact .inr h'

/-- The effect changes no frame and begins no instance field. -/
def Effect.IsQuiet : Effect → Prop
  | .note e => e.IsQuiet
  | .push _ | .pop | .frame _ => False
  | _ => True

namespace Effect

theorem IsClient.isQuiet {e : Effect} (h : e.IsClient) : e.IsQuiet := by
  cases e with
  | note e => cases e <;> simp_all [IsClient, Event.IsClient, IsQuiet, Event.IsQuiet]
  | push | pop | frame => exact h
  | _ => trivial

theorem IsDefining.isQuiet {e : Effect} (h : e.IsDefining) : e.IsQuiet := by
  rcases h with h | h
  · exact h.isQuiet
  · cases e with
    | note e => cases e <;> first | exact h | trivial
    | push | pop | frame => exact h
    | _ => trivial

theorem IsReplacing.isQuiet {e : Effect} (h : e.IsReplacing) : e.IsQuiet := by
  rcases h with h | h
  · exact h.isQuiet
  · cases e with
    | note e => cases e <;> first | exact h.elim | trivial
    | push | pop | frame => exact h
    | _ => trivial

end Effect

theorem receiversLaw_allows {e : Effect} (h : e.IsQuiet) : receiversLaw.Allows e := by
  intro m
  cases e with
  | note e => exact .inr (Event.IsQuiet.quiet h rfl)
  | relink id => exact .inr (Event.IsQuiet.quiet (e := .relinked id) trivial rfl)
  | push | pop | frame => exact h.elim
  | define => exact .inl ⟨Effect.trace_apply_define .., Effect.frames_apply_define ..⟩
  | _ => exact .inl ⟨rfl, rfl⟩

/-- What is known of an action that begins in quiet: when it ends, it is quiet again. -/
def Quietens (r : Option (Except Failure α)) (m : Machine) : Prop :=
  m.Receives ∧ (r.isSome → m.Quiet)

theorem Machine.Quiet.quietens {m m' : Machine} (h : m.Quiet) (htrace : m'.trace = m.trace)
    {r : Option (Except Failure α)} : Quietens r m' :=
  ⟨(h.of_trace htrace).receives, fun _ => h.of_trace htrace⟩

theorem Event.IsQuiet.quietens {e : Event} (h : e.IsQuiet) {m : Machine}
    {r : Option (Except Failure α)} : Quietens r ((Effect.note e).apply m) :=
  Quiet.quietens (h.quiet rfl) rfl

theorem Quietens.holds {m m' : Machine} {r : Option (Except Failure α)} (h : Quietens r m') :
    receiversLaw.Holds m r m' := by
  cases r with
  | none => exact .inr h.1
  | some r => exact .inr (h.2 rfl)

theorem Law.Holds.quietens {m m' : Machine} {r : Option (Except Failure α)}
    (h : receiversLaw.Holds m r m') (hm : m.Quiet) : Quietens r m' := by
  cases r with
  | none => exact ⟨h.elim hm.receives.of_idles id, by simp⟩
  | some r => exact Quiet.quietens (h.elim (fun h => hm.of_trace h.1) id) rfl

/-- What is known of each task. -/
def Task.Receives : Task α → Machine → Option (Except Failure α) → Machine → Prop
  | .eval .., m, r, m' => receiversLaw.Holds m r m'
  | .construct .., m, r, m' => receiversLaw.Holds m r m' ∧ (r.isSome → m'.Quiet)

/-- The contract of initializers and their receivers. -/
def receiversContract : Contract where
  Holds _ := Task.Receives
  start task m := by
    cases task with
    | eval => exact receiversLaw.late (receiversLaw.refl m)
    | construct => exact ⟨receiversLaw.late (receiversLaw.refl m), by simp⟩
  late := by
    intro α task m m' r h
    cases task with
    | eval => exact receiversLaw.late h
    | construct => exact ⟨receiversLaw.late h.1, by simp⟩

/-! ### What runs in a frame -/

section Operations

variable {settings : Settings} {perform : Performer}
  (hframes : perform.Keeps (framesContract settings)) (hreceivers : perform.Keeps receiversContract)

include hreceivers

/-- What is made of effects that begin no field obeys the law. -/
theorem MadeOf.receiversLaw {F : Performer → Action α} (hF : MadeOf Effect.IsQuiet .none F) :
    (F perform).Obeys ClassMachine.receiversLaw :=
  hF.obeys_evaluations (fun _ => receiversLaw_allows) fun e ctx => hreceivers (.eval e ctx)

theorem client_receiversLaw {F : Performer → Action α} (hF : MadeOf Effect.IsClient .none F) :
    (F perform).Obeys receiversLaw :=
  MadeOf.receiversLaw hreceivers (hF.of_client fun _ => Effect.IsClient.isQuiet)

include hframes

/-- **A field is begun** on the object of its frame, which is still there in the end. -/
theorem installField_receives {m : Machine} {f : Frame} {rest : List Frame}
    (hm : m.frames = f :: rest) {o : ObjectId} (hthis : f.this = some o) (className : String)
    (record : FieldRecord) :
    (during (.instanceField f.cls className o record) (installField perform o record)).Ensures m
      fun r m' => Quietens r m' ∧ (r.isSome → m'.frames = f :: rest) := by
  let m₁ := (Effect.note (.began (.instanceField f.cls className o record))).apply m
  have hm₁ : m₁.Receives := by
    rintro cls x ⟨className', record', old, hbegins⟩
    obtain ⟨rfl, -, rfl, -⟩ :=
      Activity.instanceField.inj (Event.began.inj (List.cons.inj hbegins).1)
    exact ⟨f, by simp [m₁, Effect.apply, hm], rfl, hthis⟩
  have hinstall := installField_madeOf (X := .none) o record
  have hquiet := hinstall.mono (fun _ h => h.isDefining.isQuiet) fun _ _ => .operation
  have hkeeps := hinstall.mono (fun _ h => h.isDefining.keepsFrames) fun _ _ => .operation
  refine .bind_ok (n := m₁) rfl (((hquiet.receiversLaw hreceivers m₁).and
    (hkeeps.framesLaw hframes m₁)).bind_observe
      (fun r m₂ _ h => ?_) fun m₂ h => ⟨⟨h.1.elim hm₁.of_idles id, by simp⟩, by simp⟩)
  have hm₂ : m₂.frames = f :: rest := by
    have hmoved : FramesMoved (f :: rest) m₂.frames := hm ▸ h.2.1
    exact hmoved.eq_of_bound (by simp [hthis])
  cases r with
  | ok => exact ⟨Event.IsQuiet.quietens (e := .finished _) trivial, fun _ => hm₂⟩
  | error => exact ⟨Event.IsQuiet.quietens (e := .failed _) trivial, fun _ => hm₂⟩

/-- So are all fields of a class. -/
theorem installFields_receive {f : Frame} {rest : List Frame} {o : ObjectId}
    (hthis : f.this = some o) (className : String) (records : List FieldRecord) {m : Machine}
    (hm : m.frames = f :: rest) (hquiet : m.Quiet) :
    (installFields perform (.instanceField f.cls className o) o records).Ensures m
      fun r m' => Quietens r m' ∧ (r.isSome → m'.frames = f :: rest) := by
  induction records generalizing m with
  | nil => exact .of_outcome rfl ⟨hquiet.quietens rfl, fun _ => hm⟩
  | cons record records ih =>
    exact (installField_receives hframes hreceivers hm hthis className record).bind
      (fun _ m₁ _ h₁ => ih (h₁.2 rfl) (h₁.1.2 rfl)) (fun _ _ h => h) fun _ h => h

/-- **Adopting an object** ends in quiet, wherever it begins. -/
theorem adopt_receives {m : Machine} {f : Frame} {rest : List Frame} (hm : m.frames = f :: rest)
    (o : ObjectId) (phase : Phase) :
    (adopt perform o f.cls phase).Ensures m Quietens := by
  cases hfree : f.this with
  | some bound =>
    refine .bind_error (e := .ofFault .boundTwice)
      (n := (Effect.note (.raised .boundTwice)).apply m) ?_
      (Event.IsQuiet.quietens (e := .raised _) trivial)
    rw [outcome_bindThis hm, hfree]
    rfl
  | none =>
    let f₁ : Frame := { f with this := some o, phase }
    let m₁ : Machine := { m with frames := f₁ :: rest }
    have h₁ : (bindThis o phase).outcome m = (some (.ok ⟨⟩), m₁) := by
      rw [outcome_bindThis hm, hfree]
    have hinstall : (installInstanceFields perform o f₁.cls).Ensures m₁
        fun r m' => Quietens r m' ∧ (r.isSome → m'.frames = f₁ :: rest) := by
      rcases hc : m₁.registry.class? f₁.cls with _ | c
      · exact .bind_error (outcome_classAt_of_none hc)
          ⟨Event.IsQuiet.quietens (e := .raised _) trivial, fun _ => rfl⟩
      · refine .bind_ok (outcome_classAt_of_some hc) ?_
        let installing : Event := .installing (some f₁) f₁.cls c.displayName o c.instanceFields
        let m₂ := (Effect.note installing).apply m₁
        refine .bind_ok (a := m₁) (n := m₁) rfl (.bind_ok (a := ⟨⟩) (n := m₂) rfl ?_)
        exact installFields_receive hframes hreceivers rfl c.displayName c.instanceFields rfl
          (Event.IsQuiet.quiet (e := installing) trivial rfl)
    refine .bind_ok h₁ (hinstall.bind (fun _ m₂ _ h₂ => ?_) (fun _ _ h => h.1) fun _ h => h.1)
    refine .bind_ok (outcome_enterPhase (h₂.2 rfl) _) (.of_outcome (outcome_enterPhase rfl _) ?_)
    exact (h₂.1.2 rfl).quietens (by rfl)

theorem superCall_receiversLaw (args : List Value) :
    (superCall perform args).Obeys receiversLaw := by
  intro m
  refine superCall_ensures (fun fault _ =>
    receiversLaw_allows (e := .note (.raised fault)) trivial m) fun f rest c p hm _ _ => ?_
  have hconstruct : (perform (.construct p f.newTarget args)).Ensures m fun r m₁ =>
      (constructionLaw settings).Holds m r m₁ ∧ receiversLaw.Holds m r m₁ ∧
        (r.isSome → m₁.Quiet) :=
    ⟨hframes (.construct p f.newTarget args) m, hreceivers (.construct p f.newTarget args) m⟩
  refine hconstruct.bind (fun o m₁ _ h₁ => ?_) (fun _ _ h => h.2.1) fun _ h => h.2.1
  refine (adopt_receives hframes hreceivers (h₁.1.1.trans hm) o .thisBound).bind
    (fun _ m₂ _ h₂ => ?_) (fun _ _ h => h.holds) fun _ h => h.holds
  exact .of_outcome rfl (Event.IsQuiet.quietens (e := .superReturned f.cls o) trivial).holds

/-- **Running a constructor** in quiet: whenever a field is begun, and so at all moments at which
the constructor may be broken off, its receiver is the object of the innermost frame. -/
theorem runConstructor_receives {m : Machine} {f : Frame} {rest : List Frame}
    (hm : m.frames = f :: rest) (hquiet : m.Quiet) (newTarget : ClassId) (args : List Value) :
    (runConstructor perform f.cls newTarget args).Ensures m Quietens := by
  have body {m : Machine} (hquiet : m.Quiet) (this : Option ObjectId) (body : Expr) :
      (runBody perform f.cls this body args).Ensures m Quietens :=
    (MadeOf.receiversLaw hreceivers (runBody_madeOf trivial body) m).mono fun _ _ h =>
      h.quietens hquiet
  rcases hc : m.registry.class? f.cls with _ | c
  · exact .bind_error (outcome_classAt_of_none hc) (Event.IsQuiet.quietens (e := .raised _) trivial)
  refine .bind_ok (outcome_classAt_of_some hc) ?_
  split
  · have hallocate : (allocate newTarget).Ensures m fun r m₁ =>
        (constructionLaw settings).Holds m r m₁ ∧ receiversLaw.Holds m r m₁ :=
      ⟨(allocate_madeOf newTarget (fun _ => Effect.IsClient.keepsFrames) (fun _ => trivial)
          (by simp [Effect.KeepsFrames])).obeys_alone (fun _ => constructionLaw_allows) m,
        (allocate_madeOf newTarget (fun _ => Effect.IsClient.isQuiet) (fun _ => trivial)
          fun _ => trivial).obeys_alone (fun _ => receiversLaw_allows) m⟩
    refine hallocate.bind (fun o m₁ _ h₁ => ?_) (fun _ _ h => h.2.quietens hquiet)
      fun _ h => h.2.quietens hquiet
    refine (adopt_receives hframes hreceivers (h₁.1.1.trans hm) o .allocated).bind
      (fun _ m₂ _ h₂ => ?_) (fun _ _ h => h) fun _ h => h
    split
    · exact body (h₂.2 rfl) _ _
    · exact .of_outcome rfl h₂
  · split
    · exact body hquiet _ _
    · exact (superCall_receiversLaw hframes hreceivers args m).bind
        (fun _ _ _ h => h.quietens hquiet) (fun _ _ h => h.quietens hquiet)
        fun _ h => h.quietens hquiet

/-! ### The frame around it, and all tasks -/

theorem constructFor_receives (cls newTarget : ClassId) (args : List Value) (m : Machine) :
    (constructFor settings perform cls newTarget args).Ensures m Quietens := by
  have hquiet : (m.begun cls newTarget).Quiet :=
    Event.IsQuiet.quiet (e := .called cls newTarget) trivial rfl
  have hrun : (runConstructor perform cls newTarget args).Ensures (m.begun cls newTarget) _ :=
    (runConstructor_ownFrameLaw hframes cls newTarget args _).and (runConstructor_receives
      hframes hreceivers (f := { cls, newTarget }) rfl hquiet newTarget args)
  refine constructFor_ensures (Event.IsQuiet.quietens (e := .raised _) trivial) (fun _ => hrun)
    (fun r m₃ h₃ => ?_) fun _ h => ⟨h.2.1, by simp⟩
  obtain ⟨f', hm₃⟩ := h₃.1.1 _ m.frames rfl
  have hquiet₃ : m₃.Quiet := h₃.2.2 rfl
  exact finishConstruction_ensures hm₃ (fun _ _ _ => hquiet₃.quietens (by rfl))
    (fun _ => Event.IsQuiet.quietens (e := .raised _) trivial)
    fun _ _ => hquiet₃.quietens (by rfl)

theorem construct_receiversLaw (cls : ClassId) (args : List Value) :
    (construct settings perform cls args).Obeys receiversLaw :=
  .bind (MadeOf.obeys_alone (announceConstruction_madeOf (fun _ => Effect.IsClient.isQuiet)
    fun _ => trivial) fun _ => receiversLaw_allows) fun _ =>
    .bind (fun m => (constructFor_receives hframes hreceivers cls cls args m).mono
      fun _ _ h => h.holds) fun this =>
      MadeOf.obeys_alone (A := Effect.IsQuiet) (.bind (.note trivial trivial) fun _ => .pure this)
        fun _ => receiversLaw_allows

theorem call_receiversLaw (c : Call α) : (c.run settings perform).Obeys receiversLaw := by
  cases c with
  | construct cls args => exact construct_receiversLaw hframes hreceivers cls args
  | constructValue callee args =>
    exact .bind (client_receiversLaw hreceivers (calledClass_client callee)) fun cls =>
      construct_receiversLaw hframes hreceivers cls args
  | super args => exact superCall_receiversLaw hframes hreceivers args
  | define d =>
    exact MadeOf.receiversLaw hreceivers ((defineClass_madeOf d).mono
      (fun _ => Effect.IsDefining.isQuiet) fun _ _ => .operation)
  | replace cls field initializer =>
    exact MadeOf.receiversLaw hreceivers ((replaceInitializer_madeOf cls field initializer).mono
      (fun _ => Effect.IsReplacing.isQuiet) fun _ _ => .operation)
  | get target key => exact client_receiversLaw hreceivers (readProperty_client target key)
  | set target key value =>
    exact client_receiversLaw hreceivers (assignProperty_client target key value)
  | call callee receiver args =>
    exact client_receiversLaw hreceivers (callValue_client callee receiver args)
  | invoke receiver key args =>
    exact client_receiversLaw hreceivers (invokeMethod_client receiver key args)

/-- **Each level passes the contract on.** -/
theorem step_keeps_receivers : (step settings perform).Keeps receiversContract := by
  intro α task
  cases task with
  | eval e ctx =>
    refine (evaluateExpr_client ctx e).obeys
      (fun _ h => receiversLaw_allows (Effect.IsClient.isQuiet h)) ?_
      fun e ctx => hreceivers (.eval e ctx)
    rintro β _ ⟨c, rfl⟩
    exact call_receiversLaw hframes hreceivers c
  | construct cls newTarget args =>
    exact fun m => (constructFor_receives hframes hreceivers cls newTarget args m).mono
      fun _ _ h => ⟨h.holds, h.2⟩

end Operations

/-- **All runs keep the contract**, with that of frames. -/
theorem interpretUntil_keeps_receivers (settings : Settings) (stop : Machine → Bool)
    (levels : Nat) : (interpretUntil settings stop levels).Keeps
      ((framesContract settings).and receiversContract) := by
  refine interpretUntil_keeps (fun perform hp => ?_) stop levels
  obtain ⟨hframes, hreceivers⟩ := Performer.keeps_and.mp hp
  exact Performer.keeps_and.mpr
    ⟨step_keeps_frames hframes, step_keeps_receivers hframes hreceivers⟩

end ClassMachine
