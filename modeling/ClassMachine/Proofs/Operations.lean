import ClassMachine.Proofs.Client

/-!
# What the operations on classes are made of

Definitions, constructions and exchanges of initializers use effects that are not open
to client code. Each operation has effects of its own
(`ClassMachine.Effect.IsConstructing`, `ClassMachine.Effect.IsDefining`,
`ClassMachine.Effect.IsReplacing`), and this file shows that it uses no others. A law
that does not care for the effects of an operation therefore holds of the operation.

Together with the results on client code this covers the whole machine:
`ClassMachine.step_madeOf`.

Where the frames do matter, a construction and a call of the parent constructor are taken apart
by `ClassMachine.constructFor_ensures` and `ClassMachine.superCall_ensures`.
-/

namespace ClassMachine

variable {α : Type} {A : Effect → Prop} {X : Operations}

/-! ### The effects of each operation -/

/-- Is an instance field being installed? -/
def Activity.IsInstance : Activity → Prop
  | instanceField .. => True
  | namingField .. | staticField .. => False

/-- The events of what goes on in the frame of a construction. -/
def Event.IsFraming : Event → Prop
  | installing .. | installed .. | superReturned .. | bodyEntered .. => True
  | began activity | finished activity | failed activity => activity.IsInstance
  | _ => False

/-- The events of a construction. -/
def Event.IsConstructing : Event → Prop
  | constructing _ | called .. | allocated .. | installing .. | installed .. | superReturned ..
  | bodyEntered .. | constructed .. | raised _ => True
  | began activity | finished activity | failed activity => activity.IsInstance
  | _ => False

/-- The events of a definition. -/
def Event.IsDefining : Event → Prop
  | defining _ | numbered _ | registered _ | installed .. | completed _ | withdrawn .. => True
  | began activity | finished activity | failed activity => ¬ activity.IsInstance
  | _ => False

/-- The events of an exchange of initializers. -/
def Event.IsReplacing : Event → Prop
  | replacing .. | replaced .. => True
  | _ => False

/-- The effects of what goes on in the frame of a construction, but for making the instance. -/
def Effect.IsFraming (e : Effect) : Prop :=
  e.IsClient ∨ match e with
    | .note e => e.IsFraming
    | .frame _ => True
    | _ => False

/-- The effects of a construction. -/
def Effect.IsConstructing (e : Effect) : Prop :=
  e.IsClient ∨ match e with
    | .note e => e.IsConstructing
    | .object kind _ => ∃ cls, kind = .instance cls
    | .push _ | .pop | .frame _ => True
    | _ => False

/-- The effects of a definition. -/
def Effect.IsDefining (e : Effect) : Prop :=
  e.IsClient ∨ match e with
    | .note e => e.IsDefining
    | .object .. | .draw | .register _ | .withdraw .. => True
    | _ => False

/-- The effects of an exchange of initializers. -/
def Effect.IsReplacing (e : Effect) : Prop :=
  e.IsClient ∨ match e with
    | .note e => e.IsReplacing
    | .exchange _ => True
    | _ => False

theorem MadeOf.of_client {B : Effect → Prop} {F : Performer → Action α}
    (hF : MadeOf Effect.IsClient X F) (h : ∀ e, e.IsClient → B e) : MadeOf B X F :=
  hF.mono h fun _ _ hG => .operation hG

/-- All effects that are open to client code are enough to make client code of. -/
theorem Hosts.of_client (h : ∀ e : Effect, e.IsClient → A e) : Hosts A X where
  effect e he _ _ := h e he
  define id key p := (Hosts.define (A := Effect.IsClient) id key p).of_client h
  delete id key := (Hosts.delete (A := Effect.IsClient) id key).of_client h
  close id := (Hosts.close (A := Effect.IsClient) id).of_client h

/-! ### Installing fields -/

theorem fieldValue_client (target : ObjectId) (record : FieldRecord) :
    MadeOf Effect.IsClient X fun perform => fieldValue perform target record := by
  unfold fieldValue
  split
  · exact .eval _ _
  · exact readFrom_client _ _ _

/-- Installing a field uses effects of clients, and tells what was installed. -/
def Effect.IsInstalling (target : ObjectId) (record : FieldRecord) (e : Effect) : Prop :=
  e.IsClient ∨ ∃ v, e = .note (.installed target record v)

theorem Effect.IsInstalling.isFraming {target : ObjectId} {record : FieldRecord} {e : Effect}
    (h : e.IsInstalling target record) : e.IsFraming := by
  rcases h with h | ⟨v, rfl⟩
  · exact .inl h
  · exact .inr trivial

theorem Effect.IsInstalling.isDefining {target : ObjectId} {record : FieldRecord} {e : Effect}
    (h : e.IsInstalling target record) : e.IsDefining := by
  rcases h with h | ⟨v, rfl⟩
  · exact .inl h
  · exact .inr trivial

theorem installField_madeOf (target : ObjectId) (record : FieldRecord) :
    MadeOf (Effect.IsInstalling target record) X fun perform =>
      installField perform target record :=
  .bind ((fieldValue_client target record).of_client fun _ => .inl) fun v =>
    .bind ((defineOn_client _ _ _).of_client fun _ => .inl) fun _ => .note (.inr ⟨v, rfl⟩) trivial

/-- Fields are installed one after the other, each as a whole. -/
theorem installFields_of_field {activity : FieldRecord → Activity} {target : ObjectId}
    (hfield : ∀ r, MadeOf A X fun perform => during (activity r) (installField perform target r))
    (records : List FieldRecord) :
    MadeOf A X fun perform => installFields perform activity target records := by
  induction records with
  | nil => exact .pure _
  | cons r rest ih => exact .bind (hfield r) fun _ => ih

theorem during_installField_madeOf {activity : Activity} {target : ObjectId}
    {record : FieldRecord} (hfield : ∀ e : Effect, e.IsInstalling target record → A e)
    (h : ∀ e : Effect, e.IsNoteOf activity → A e) :
    MadeOf A X fun perform => during activity (installField perform target record) :=
  .during h ((installField_madeOf target record).mono hfield fun _ _ => .operation)

theorem installFields_madeOf {activity : FieldRecord → Activity} {target : ObjectId}
    (hfield : ∀ r, ∀ e : Effect, e.IsInstalling target r → A e)
    (h : ∀ r, ∀ e : Effect, e.IsNoteOf (activity r) → A e) (records : List FieldRecord) :
    MadeOf A X fun perform => installFields perform activity target records :=
  installFields_of_field (fun r => during_installField_madeOf (hfield r) (h r)) records

/-- The law of installing fields is the one of their effects and of their initializers. -/
theorem installFields_obeys {L : Law} {perform : Performer} {activity : FieldRecord → Activity}
    {target : ObjectId} (hfield : ∀ r, ∀ e : Effect, e.IsInstalling target r → L.Allows e)
    (h : ∀ r, ∀ e : Effect, e.IsNoteOf (activity r) → L.Allows e)
    (heval : ∀ e ctx, (perform (.eval e ctx)).Obeys L) (records : List FieldRecord) :
    (installFields perform activity target records).Obeys L :=
  (installFields_madeOf (A := L.Allows) hfield h records).obeys_evaluations (fun _ h => h) heval

/-! ### Constructions -/

theorem Effect.IsClient.isConstructing {e : Effect} (h : e.IsClient) : e.IsConstructing :=
  .inl h

theorem Effect.IsConstructing.note {e : Event} (h : e.IsConstructing) :
    (Effect.note e).IsConstructing :=
  .inr h

theorem Effect.IsFraming.note {e : Event} (h : e.IsFraming) : (Effect.note e).IsFraming :=
  .inr h

theorem Effect.IsFraming.ne_pop {e : Effect} (h : e.IsFraming) : e ≠ .pop := by
  rintro rfl
  simp [Effect.IsFraming, Effect.IsClient] at h

theorem Effect.IsFraming.isConstructing {e : Effect} (h : e.IsFraming) : e.IsConstructing := by
  rcases h with h | h
  · exact h.isConstructing
  · cases e with
    | note e => cases e <;> first | exact h.elim | exact .note h
    | frame f => exact .inr trivial
    | _ => exact h.elim

/-- The events of installing the instance fields of a class. -/
def Event.IsInstalling : Event → Prop
  | installing .. | installed .. => True
  | began activity | finished activity | failed activity => activity.IsInstance
  | _ => False

theorem Event.IsInstalling.isFraming {e : Event} (h : e.IsInstalling) : e.IsFraming := by
  cases e <;> trivial

/-- A field is installed by effects of clients, the one that tells of it, and those of the
activity. -/
theorem instanceField_madeOf (hclient : ∀ e : Effect, e.IsClient → A e)
    (hnote : ∀ e : Event, e.IsInstalling → A (.note e)) (cls : ClassId) (className : String)
    (target : ObjectId) (record : FieldRecord) : MadeOf A X fun perform =>
      during (.instanceField cls className target record) (installField perform target record) := by
  refine during_installField_madeOf (fun e h => ?_) fun e h => ?_
  · rcases h with h | ⟨v, rfl⟩
    · exact hclient e h
    · exact hnote _ trivial
  · rcases h with rfl | rfl | rfl <;> exact hnote _ trivial

theorem installInstanceFields_hosted [Hosts A X]
    (hnote : ∀ frame cls className target records,
      A (.note (.installing frame cls className target records)))
    (hfield : ∀ cls className target record, MadeOf A X fun perform =>
      during (.instanceField cls className target record) (installField perform target record))
    (this : ObjectId) (cls : ClassId) :
    MadeOf A X fun perform => installInstanceFields perform this cls :=
  .bind (classAt_client cls) fun _ => .read (fun _ => rfl) fun _ =>
    .bind (.note (hnote ..) trivial) fun _ => installFields_of_field (hfield _ _ _) _

theorem installInstanceFields_madeOf (hclient : ∀ e : Effect, e.IsClient → A e)
    (hnote : ∀ e : Event, e.IsInstalling → A (.note e)) (this : ObjectId) (cls : ClassId) :
    MadeOf A X fun perform => installInstanceFields perform this cls :=
  have : Hosts A X := .of_client hclient
  installInstanceFields_hosted (fun _ _ _ _ _ => hnote _ trivial)
    (instanceField_madeOf hclient hnote) _ _

/-- What goes on in the frame of a construction can be made of such effects and operations: what
the client code in it can be made of, changes and notes of the frame, and the fields of a class,
which are installed as a whole. -/
class HostsFrames (A : Effect → Prop) (X : Operations) : Prop extends Hosts A X where
  frame : ∀ f, A (.frame f)
  superReturned : ∀ cls this, A (.note (.superReturned cls this))
  bodyEntered : ∀ cls this args, A (.note (.bodyEntered cls this args))
  fields : ∀ this cls, MadeOf A X fun perform => installInstanceFields perform this cls

theorem HostsFrames.of_framing (h : ∀ e : Effect, e.IsFraming → A e) : HostsFrames A X where
  toHosts := .of_client fun e he => h e (.inl he)
  frame _ := h _ (.inr trivial)
  superReturned _ _ := h _ (.note trivial)
  bodyEntered _ _ _ := h _ (.note trivial)
  fields := installInstanceFields_madeOf (fun e he => h e (.inl he)) fun _ he =>
    h _ (.note he.isFraming)

instance : HostsFrames Effect.IsFraming X :=
  .of_framing fun _ => id

section Hosts

variable [Hosts A X]

theorem announceConstruction_hosted {settings : Settings} {cls : ClassId}
    (hnote : ∀ name, A (.note (.constructing name))) :
    MadeOf A X fun _ => announceConstruction settings cls := by
  refine .read (fun _ => rfl) fun m => ?_
  rw [Registry.require]
  split
  · exact .note (hnote _) trivial
  next h =>
    split
    · split at h <;> simp only [Except.error.injEq, reduceCtorEq] at h
      exact raise_client (by simp [← h])
    · exact .pure _

theorem calledClass_hosted (callee : Value) : MadeOf A X fun _ => calledClass callee := by
  cases callee with
  | ref id =>
    refine .bind (objectAt_client id) fun o => ?_
    split
    · exact .pure _
    · exact raise_client (by simp)
  | _ => exact raise_client (by simp)

end Hosts

theorem calledClass_client (callee : Value) :
    MadeOf Effect.IsClient X fun _ => calledClass callee :=
  calledClass_hosted callee

section Frames

variable [HostsFrames A X]

theorem putFrame_hosted (f : Frame) : MadeOf A X fun _ => putFrame f :=
  .effects (fun _ => rfl) fun _ =>
    ⟨_, [.frame f], by simpa using ⟨HostsFrames.frame (X := X) f, trivial⟩, rfl⟩

theorem enterPhase_hosted (phase : Phase) : MadeOf A X fun _ => enterPhase phase :=
  .bind currentFrame_client fun _ => putFrame_hosted _

theorem bindThis_hosted (this : ObjectId) (phase : Phase) :
    MadeOf A X fun _ => bindThis this phase :=
  .bind currentFrame_client fun _ => .bind (.demand fun _ h => Hosts.raised X
    (by simp [Frame.bind?_eq_error h])) fun _ => putFrame_hosted _

theorem adopt_hosted (this : ObjectId) (cls : ClassId) (phase : Phase) :
    MadeOf A X fun perform => adopt perform this cls phase :=
  .bind (bindThis_hosted this phase) fun _ =>
    .bind (HostsFrames.fields _ _) fun _ =>
      .bind (enterPhase_hosted _) fun _ => enterPhase_hosted _

variable (hconstruct : ∀ cls newTarget args,
  MadeOf A X fun perform => perform (.construct cls newTarget args))

include hconstruct

theorem superCall_hosted (args : List Value) :
    MadeOf A X fun perform => superCall perform args := by
  refine .bind currentFrame_client fun frame => .bind (classAt_client _) fun c => ?_
  split
  · exact raise_client (by simp)
  · exact .bind (hconstruct ..) fun _ => .bind (adopt_hosted _ _ _) fun _ =>
      .bind (.note (HostsFrames.superReturned X _ _) trivial) fun _ => .pure _

end Frames

theorem adopt_madeOf (this : ObjectId) (cls : ClassId) (phase : Phase) :
    MadeOf Effect.IsFraming X fun perform => adopt perform this cls phase :=
  adopt_hosted this cls phase

theorem superCall_madeOf (args : List Value) :
    MadeOf Effect.IsFraming .Constructions fun perform => superCall perform args :=
  superCall_hosted (fun _ _ _ => .operation (.mk ..)) args

theorem allocate_madeOf (newTarget : ClassId) (hclient : ∀ e : Effect, e.IsClient → A e)
    (hobject : ∀ prototype, A (.object (.instance newTarget) prototype))
    (hnote : ∀ this, A (.note (.allocated this newTarget))) :
    MadeOf A X fun _ => allocate newTarget :=
  .bind ((classAt_client _).of_client hclient) fun c =>
    .bind (.effects (fun _ => rfl) fun _ =>
      ⟨_, [.object (.instance newTarget) (some c.prototype)],
        by simpa using ⟨hobject _, trivial⟩, rfl⟩) fun _ =>
        .bind (.note (hnote _) trivial) fun _ => .pure _

theorem runBody_madeOf {cls : ClassId} {this : Option ObjectId} {args : List Value}
    (hnote : A (.note (.bodyEntered cls this args))) (body : Expr) :
    MadeOf A X fun perform => runBody perform cls this body args :=
  .bind (.note hnote trivial) fun _ => .discard (.eval _ _)

theorem runConstructor_hosted [HostsFrames A X] (hconstruct : ∀ cls newTarget args,
    MadeOf A X fun perform => perform (.construct cls newTarget args)) (cls : ClassId)
    {newTarget : ClassId} (hallocate : MadeOf A X fun _ => allocate newTarget)
    (args : List Value) :
    MadeOf A X fun perform => runConstructor perform cls newTarget args := by
  have hbody {this : Option ObjectId} (body : Expr) :
      MadeOf A X fun perform => runBody perform cls this body args :=
    runBody_madeOf (HostsFrames.bodyEntered X ..) body
  refine .bind (classAt_client _) fun c => ?_
  split
  · refine .bind hallocate fun _ => .bind (adopt_hosted _ _ _) fun _ => ?_
    split
    · exact hbody _
    · exact .pure _
  · split
    · exact hbody _
    · exact .discard (superCall_hosted hconstruct _)

theorem runConstructor_madeOf (hframing : ∀ e : Effect, e.IsFraming → A e) (cls : ClassId)
    {newTarget : ClassId} (hobject : ∀ prototype, A (.object (.instance newTarget) prototype))
    (hnote : ∀ this, A (.note (.allocated this newTarget))) (args : List Value) :
    MadeOf A .Constructions fun perform => runConstructor perform cls newTarget args :=
  have : HostsFrames A .Constructions := .of_framing hframing
  runConstructor_hosted (fun _ _ _ => .operation (.mk ..)) cls
    (allocate_madeOf newTarget (fun _ h => hframing _ (.inl h)) hobject hnote) args

/-- The effects of the frame around a constructor. -/
def Effect.IsSurrounding : Effect → Prop
  | .note (.called ..) | .note (.raised _) | .push _ | .pop => True
  | _ => False

theorem Effect.IsSurrounding.isConstructing {e : Effect} (h : e.IsSurrounding) :
    e.IsConstructing := by
  cases e with
  | note e => cases e <;> first | exact h.elim | exact .note trivial
  | push | pop => exact .inr trivial
  | _ => exact h.elim

/-- The frame around a constructor is made of little, whatever the constructor is made of. -/
theorem constructFor_madeOf (settings : Settings) {cls newTarget : ClassId} {args : List Value}
    (hA : ∀ e : Effect, e.IsSurrounding → A e)
    (hrun : MadeOf A X fun perform => runConstructor perform cls newTarget args) :
    MadeOf A X fun perform => constructFor settings perform cls newTarget args := by
  refine .bind (.note (hA _ trivial) trivial) fun _ => .read (fun _ => rfl) fun m => ?_
  split
  · exact .raise (hA _ trivial)
  · refine .bind (.effects (fun _ => rfl) fun _ => ⟨_, [.push { cls, newTarget }], ?_, rfl⟩)
      fun _ => .popping (hA _ trivial) (hA _ trivial) hrun fun f _ => .demand fun _ _ =>
        hA _ trivial
    simpa using ⟨hA (.push _) trivial, trivial⟩

theorem construction_madeOf (settings : Settings) (cls newTarget : ClassId) (args : List Value) :
    MadeOf Effect.IsConstructing .Constructions fun perform =>
      constructFor settings perform cls newTarget args :=
  constructFor_madeOf settings (fun _ => Effect.IsSurrounding.isConstructing)
    (runConstructor_madeOf
    (fun _ => Effect.IsFraming.isConstructing) cls (fun _ => .inr ⟨_, rfl⟩)
    (fun _ => .note trivial) args)

theorem announceConstruction_madeOf {settings : Settings} {cls : ClassId}
    (hclient : ∀ e : Effect, e.IsClient → A e) (hnote : ∀ name, A (.note (.constructing name))) :
    MadeOf A X fun _ => announceConstruction settings cls :=
  have : Hosts A X := .of_client hclient
  announceConstruction_hosted hnote

theorem construct_madeOf (settings : Settings) (cls : ClassId) (args : List Value) :
    MadeOf Effect.IsConstructing .Constructions fun perform =>
      construct settings perform cls args :=
  .bind (announceConstruction_madeOf (fun _ => .inl) fun _ => .note trivial) fun _ =>
    .bind (construction_madeOf _ _ _ _) fun _ => .bind (.note (.note trivial) trivial) fun _ =>
      .pure _

/-! ### Definitions -/

/-- Activities of a definition. -/
theorem Effect.IsNoteOf.isDefining {activity : Activity} {e : Effect} (h : e.IsNoteOf activity)
    (hactivity : ¬ activity.IsInstance) : e.IsDefining := by
  rcases h with rfl | rfl | rfl <;> exact .inr hactivity

/-- Putting a method onto an object is defining the property that the method becomes. -/
theorem outcome_defineMethod_eq (home : ObjectId) (name : String) (kind : MethodKind) (f : Function)
    (m : Machine) : (defineMethod home name kind f).outcome m =
      (defineOn home name
        (Property.ofMethod kind f ((m.store.object home).property? name))).outcome m := by
  simp only [defineMethod, objectAt, outcome_bind, outcome_get, outcome_pure]

theorem defineMethod_client (home : ObjectId) (name : String) (kind : MethodKind)
    (f : Function) : MadeOf Effect.IsClient X fun _ => defineMethod home name kind f :=
  .bind (objectAt_client home) fun _ => defineOn_client _ _ _

/-- The effects of evaluating the elements of a class body. -/
def Effect.IsCollecting (cls : ClassId) (className : String) (e : Effect) : Prop :=
  e.IsClient ∨ ∃ name, e.IsNoteOf (.namingField cls className name)

theorem Effect.IsCollecting.isDefining {cls : ClassId} {className : String} {e : Effect}
    (h : e.IsCollecting cls className) : e.IsDefining := by
  rcases h with h | ⟨name, h⟩
  · exact .inl h
  · exact h.isDefining id

theorem collectFields_of_method (cls : ClassId) (className : String) (homes : Homes)
    (hname : ∀ name, ∀ e : Effect, e.IsNoteOf (.namingField cls className name) → A e)
    (hmethod : ∀ name kind isStatic f,
      MadeOf A X fun _ => defineMethod (homes.home isStatic) name kind f)
    (elements : List ClassElement) :
    MadeOf A X fun perform => collectFields perform cls className homes elements := by
  induction elements with
  | nil => exact .pure _
  | cons e rest ih =>
    refine .bind ?_ fun _ => .bind ih fun _ => .pure _
    cases e with
    | method name kind isStatic f => exact .bind (hmethod _ _ _ _) fun _ => .pure _
    | field name isStatic initializer =>
      refine .bind ?_ fun _ => .pure _
      cases name with
      | literal name => exact .pure _
      | computed e => exact .bind (.during (hname e) (.eval _ _)) fun _ => .pure _

theorem collectFields_madeOf (cls : ClassId) (className : String) (homes : Homes)
    (elements : List ClassElement) :
    MadeOf (Effect.IsCollecting cls className) X fun perform =>
      collectFields perform cls className homes elements :=
  collectFields_of_method cls className homes (fun name _ h => .inr ⟨name, h⟩)
    (fun _ _ _ _ => (defineMethod_client _ _ _ _).of_client fun _ => .inl) elements

theorem makeHomes_madeOf (id : ClassId) (name : Option String) (parent : Option Class)
    (hclient : ∀ e : Effect, e.IsClient → A e)
    (hobject : ∀ prototype, A (.object (.classObject id) prototype)) :
    MadeOf A X fun _ => makeHomes id name parent := by
  refine .bind ((newObject_client _).of_client hclient) fun _ => .bind ?_ fun _ =>
    .bind ((defineOn_client _ _ _).of_client hclient) fun _ => ?_
  · exact .effects (fun _ => rfl) fun _ =>
      ⟨_, [.object (.classObject id) (parent.map Class.classObject)],
        by simpa using ⟨hobject _, trivial⟩, rfl⟩
  · cases name with
    | some name => exact .bind ((defineOn_client _ _ _).of_client hclient) fun _ => .pure _
    | none => exact .bind (.pure _) fun _ => .pure _

theorem drawClassId_madeOf : MadeOf Effect.IsDefining X fun _ => drawClassId :=
  .effects (fun _ => rfl) fun _ => ⟨_, [.draw, .note (.numbered _)],
    by simp [Effect.IsDefining, Event.IsDefining, Effect.IsPlain, Event.IsPlain], rfl⟩

theorem prepareClass_madeOf (d : ClassDefinition) :
    MadeOf Effect.IsDefining X fun perform => prepareClass perform d := by
  refine .bind (.note (.inr trivial) trivial) fun _ => .bind (.demand fun f h => .inl ?_) fun _ =>
    .read (fun _ => rfl) fun m => .bind (.demand fun f h => .inl ?_) fun parent =>
      .bind drawClassId_madeOf fun id =>
        .bind (makeHomes_madeOf _ _ _ (fun _ => .inl) fun _ => .inr trivial) fun homes =>
          .bind ((collectFields_madeOf _ _ _ _).mono (fun _ => Effect.IsCollecting.isDefining)
            fun _ _ => .operation) fun fields => .pure _
  · obtain ⟨isStatic, name, rfl⟩ := d.checkNames_eq_error h
    simp [Effect.IsClient, Event.IsClient]
  · obtain ⟨v, rfl⟩ := d.parent?_eq_error h
    simp [Effect.IsClient, Event.IsClient]

theorem launchClass_madeOf (c : Class) :
    MadeOf Effect.IsDefining X fun perform => launchClass perform c := by
  refine .bind (.effects (fun _ => rfl) fun _ => ⟨_, [.register c, .note (.registered c)], ?_, rfl⟩)
    fun shadowed =>
    .undoing (installFields_madeOf (fun r e he => ?_) (fun r e he => ?_) _)
      (fun _ => .bind (.note (.inr trivial) trivial) fun _ => .pure _) (fun _ => rfl)
      (fun m => ⟨[.withdraw c.id shadowed, .note (.withdrawn c.id (m.registry.hasSubclass c.id))],
        ?_, rfl⟩) fun _ => rfl
  · simp [Effect.IsDefining, Event.IsDefining, Effect.IsPlain, Event.IsPlain]
  · exact he.isDefining
  · exact he.isDefining id
  · simp [Effect.IsDefining, Event.IsDefining, Effect.IsUndoing]

theorem defineClass_madeOf (d : ClassDefinition) :
    MadeOf Effect.IsDefining X fun perform => defineClass perform d :=
  .bind (prepareClass_madeOf d) launchClass_madeOf

/-! ### Exchanges of initializers -/

theorem replaceInitializer_hosted [Hosts A X] (hnote : ∀ e : Event, e.IsReplacing → A (.note e))
    (hexchange : ∀ c, A (.exchange c)) (id : ClassId) (field : String)
    (initializer : Option Expr) : MadeOf A X fun _ => replaceInitializer id field initializer := by
  refine .bind (.note (hnote _ trivial) trivial) fun _ => .read (fun _ => rfl) fun m =>
    .bind (.demand fun f h => Hosts.raised X ?_) fun c =>
      .bind (.demand fun f h => Hosts.raised X ?_) fun c' =>
        .bind (.effects (fun _ => rfl) fun _ => ⟨_, [.exchange c'], ?_, rfl⟩) fun _ =>
          .note (hnote _ trivial) trivial
  · simp [Registry.requireForChange_eq_error h]
  · simp [Class.replaceInitializer_eq_error h]
  · simpa using ⟨hexchange c', trivial⟩

theorem replaceInitializer_madeOf (id : ClassId) (field : String) (initializer : Option Expr) :
    MadeOf Effect.IsReplacing X fun _ => replaceInitializer id field initializer :=
  have : Hosts Effect.IsReplacing X := .of_client fun _ => .inl
  replaceInitializer_hosted (fun _ => .inr) (fun _ => .inr trivial) id field initializer

/-! ### The whole machine -/

theorem constructValue_madeOf (settings : Settings) (callee : Value) (args : List Value) :
    MadeOf Effect.IsConstructing .Constructions fun perform =>
      constructValue settings perform callee args :=
  .bind ((calledClass_client callee).of_client fun _ => .inl) fun _ => construct_madeOf _ _ _

/-- **Calls are made of what can host them**, if the four operations on classes are. -/
theorem call_hosted [HostsFrames A X] {settings : Settings}
    (htask : ∀ cls newTarget args,
      MadeOf A X fun perform => perform (.construct cls newTarget args))
    (hconstruct : ∀ cls args, MadeOf A X fun perform => construct settings perform cls args)
    (hdefine : ∀ d, MadeOf A X fun perform => defineClass perform d)
    (hreplace : ∀ id field initializer,
      MadeOf A X fun _ => replaceInitializer id field initializer) (c : Call α) :
    MadeOf A X fun perform => c.run settings perform := by
  cases c with
  | construct cls args => exact hconstruct cls args
  | constructValue callee args =>
    exact .bind (calledClass_hosted callee) fun cls => hconstruct cls args
  | super args => exact superCall_hosted htask args
  | define d => exact hdefine d
  | replace cls field initializer => exact hreplace cls field initializer
  | get target key => exact readProperty_client target key
  | set target key value => exact assignProperty_client target key value
  | call callee receiver args => exact callValue_client callee receiver args
  | invoke receiver key args => exact invokeMethod_client receiver key args

theorem call_madeOf (settings : Settings) (c : Call α) :
    MadeOf (fun _ => True) .Constructions fun perform => c.run settings perform :=
  have : HostsFrames (fun _ => True) .Constructions := .of_framing fun _ _ => trivial
  call_hosted (fun _ _ _ => .operation (.mk ..))
    (fun _ _ => (construct_madeOf ..).mono (fun _ _ => trivial) fun _ _ => .operation)
    (fun _ => (defineClass_madeOf _).mono (fun _ _ => trivial) fun _ _ => .operation)
    (fun _ _ _ => (replaceInitializer_madeOf ..).mono (fun _ _ => trivial) fun _ _ => .operation) c

/-- **Every task is made of effects and of tasks**, evaluations and constructions. -/
theorem step_madeOf (settings : Settings) (task : Task α) :
    MadeOf (fun _ => True) .Constructions fun perform => step settings perform task := by
  cases task with
  | eval e ctx =>
    refine (evaluateExpr_client ctx e).mono (fun _ _ => trivial) ?_
    rintro β _ ⟨c, rfl⟩
    exact call_madeOf settings c
  | construct cls newTarget args =>
    exact (construction_madeOf settings cls newTarget args).mono (fun _ _ => trivial)
      fun _ _ => .operation

/-- The constructions by the performer, and the constructions in frames of their own. -/
inductive Operations.Framed (settings : Settings) :
    ∀ ⦃α : Type⦄, (Performer → Action α) → Prop
  | task (cls newTarget : ClassId) (args : List Value) :
    Framed settings fun perform => perform (.construct cls newTarget args)
  | frame (cls newTarget : ClassId) (args : List Value) :
    Framed settings fun perform => constructFor settings perform cls newTarget args

instance : HostsFrames (· ≠ .pop) X :=
  .of_framing fun _ => Effect.IsFraming.ne_pop

/-- **Frames are taken off in one place only.** -/
theorem call_framed (settings : Settings) (c : Call α) :
    MadeOf (· ≠ .pop) (Operations.Framed settings) fun perform => c.run settings perform := by
  refine call_hosted (fun _ _ _ => .operation (.task ..)) (fun cls args => ?_) (fun d => ?_)
    (fun _ _ _ => replaceInitializer_hosted (by simp) (by simp) _ _ _) c
  · exact .bind (announceConstruction_hosted (by simp)) fun _ =>
      .bind (.operation (.frame cls cls args)) fun _ => .bind (.note (by simp) trivial) fun _ =>
        .pure _
  · exact (defineClass_madeOf d).mono
      (fun _ he h => by simp [h, Effect.IsDefining, Effect.IsClient] at he) fun _ _ => .operation

theorem evaluateExpr_framed (settings : Settings) (ctx : Context) (e : Expr) :
    MadeOf (· ≠ .pop) (Operations.Framed settings) fun perform =>
      evaluateExpr settings perform ctx e :=
  evaluateExpr_madeOf ctx (fun _ => call_framed settings) e

section Operations

variable {L : Law} {perform : Performer}
  (hconstructing : ∀ e : Effect, e.IsConstructing → L.Allows e)
  (hp : ∀ ⦃β : Type⦄ (task : Task β), (perform task).Obeys L)
  (hreplace : ∀ id field initializer, (replaceInitializer id field initializer).Obeys L)
  (hdefine : ∀ d, (defineClass perform d).Obeys L)

include hconstructing hp

/-- The law of what a construction is made of. -/
theorem MadeOf.obeys_constructions {F : Performer → Action α}
    (hF : MadeOf Effect.IsConstructing .Constructions F) : (F perform).Obeys L :=
  hF.obeys_tasks hconstructing hp

include hreplace hdefine

/-- **A law of the operations on classes is one of all calls.** -/
theorem call_obeys_of_operations (settings : Settings) (c : Call α) :
    (c.run settings perform).Obeys L := by
  have access {F : Performer → Action α} (hF : MadeOf Effect.IsClient .Constructions F) :
      (F perform).Obeys L :=
    (hF.of_client fun _ => Effect.IsClient.isConstructing).obeys_constructions hconstructing hp
  cases c with
  | construct cls args =>
    exact (construct_madeOf settings cls args).obeys_constructions hconstructing hp
  | constructValue callee args =>
    exact (constructValue_madeOf settings callee args).obeys_constructions hconstructing hp
  | super args =>
    exact ((superCall_madeOf args).mono (fun _ => Effect.IsFraming.isConstructing)
      fun _ _ => .operation).obeys_constructions hconstructing hp
  | define d => exact hdefine d
  | replace cls field initializer => exact hreplace cls field initializer
  | get target key => exact access (readProperty_client target key)
  | set target key value => exact access (assignProperty_client target key value)
  | call callee receiver args => exact access (callValue_client callee receiver args)
  | invoke receiver key args => exact access (invokeMethod_client receiver key args)

/-- And so it is one of all tasks. -/
theorem step_obeys_of_operations (settings : Settings) (task : Task α) :
    (step settings perform task).Obeys L := by
  cases task with
  | eval e ctx =>
    refine (evaluateExpr_client ctx e).obeys (fun e he => hconstructing e he.isConstructing) ?_
      fun e ctx => hp (.eval e ctx)
    rintro β _ ⟨c, rfl⟩
    exact call_obeys_of_operations hconstructing hp hreplace hdefine settings c
  | construct cls newTarget args =>
    exact (construction_madeOf settings cls newTarget args).obeys_constructions hconstructing hp

end Operations

/-! ### What becomes of a construction

What is known of a constructor gives what is known of the construction: before it there is a
frame to begin, and after it a frame to take off. -/

/-- The machine in which the constructor of a class begins to run, in a frame of its own. -/
def Machine.begun (m : Machine) (cls newTarget : ClassId) : Machine :=
  (Effect.push { cls, newTarget }).apply ((Effect.note (.called cls newTarget)).apply m)

/-- What is left to do when a constructor has ended. -/
def finishConstruction (outcome : Except Failure Unit) : Action ObjectId := do
  let frame ← popFrame
  settle outcome
  demand frame.result

/-- A construction fails at once if there is no room for its frame. -/
theorem outcome_constructFor_of_full {settings : Settings} {m : Machine}
    (hfull : settings.maxDepth ≤ m.frames.length) (perform : Performer) (cls newTarget : ClassId)
    (args : List Value) :
    (constructFor settings perform cls newTarget args).outcome m =
      (some (.error (.ofFault (.tooDeep settings.maxDepth))),
        (Effect.note (.raised (.tooDeep settings.maxDepth))).apply
          ((Effect.note (.called cls newTarget)).apply m)) := by
  simp only [constructFor, outcome_bind, outcome_note, outcome_get]
  rw [if_pos hfull]
  rfl

section Room

variable {settings : Settings} {m : Machine} (hroom : m.frames.length < settings.maxDepth)
  (perform : Performer) (cls newTarget : ClassId) (args : List Value)

include hroom

/-- Otherwise its constructor runs in a frame of its own. -/
theorem outcome_constructFor_of_room :
    (constructFor settings perform cls newTarget args).outcome m =
      (observe (runConstructor perform cls newTarget args) >>= finishConstruction).outcome
        (m.begun cls newTarget) := by
  change (if settings.maxDepth ≤ m.frames.length then _ else _ : Action ObjectId).outcome _ = _
  rw [if_neg (Nat.not_le_of_lt hroom)]
  rfl

/-- So it is what the constructor makes of it, and stops where that stops. -/
theorem outcome_constructFor :
    (constructFor settings perform cls newTarget args).outcome m =
      match (runConstructor perform cls newTarget args).outcome (m.begun cls newTarget) with
      | (none, m') => (none, m')
      | (some outcome, m') => (finishConstruction outcome).outcome m' := by
  rw [outcome_constructFor_of_room hroom, outcome_bind, outcome_observe]
  rcases (runConstructor perform cls newTarget args).outcome (m.begun cls newTarget) with
    ⟨_ | _, _⟩ <;> rfl

end Room

section Finish

variable {m : Machine} {f : Frame} {rest : List Frame} (hm : m.frames = f :: rest)

include hm

/-- The frame is taken off, and its object is the answer, if it has one. -/
theorem outcome_finishConstruction_of_ok :
    (finishConstruction (.ok ⟨⟩)).outcome m = match f.this with
      | some o => (some (.ok o), { m with frames := rest })
      | none => (some (.error (.ofFault .neverBound)),
          (Effect.note (.raised .neverBound)).apply { m with frames := rest }) := by
  rw [finishConstruction, outcome_bind, outcome_popFrame, hm]
  simp only [settle, pure_bind, Frame.result]
  cases f.this <;> rfl

/-- A failure goes on when the frame is taken off. -/
theorem outcome_finishConstruction_of_error (e : Failure) :
    (finishConstruction (.error e)).outcome m = (some (.error e), { m with frames := rest }) := by
  rw [finishConstruction, outcome_bind, outcome_popFrame, hm]
  rfl

/-- What is ensured when the frame is taken off. -/
theorem finishConstruction_ensures {Q : Option (Except Failure ObjectId) → Machine → Prop}
    {outcome : Except Failure Unit}
    (hok : ∀ o, outcome = .ok ⟨⟩ → f.this = some o → Q (some (.ok o)) { m with frames := rest })
    (hunbound : outcome = .ok ⟨⟩ → Q (some (.error (.ofFault .neverBound)))
      ((Effect.note (.raised .neverBound)).apply { m with frames := rest }))
    (herror : ∀ e, outcome = .error e → Q (some (.error e)) { m with frames := rest }) :
    (finishConstruction outcome).Ensures m Q := by
  cases outcome with
  | error e => exact .of_outcome (outcome_finishConstruction_of_error hm e) (herror e rfl)
  | ok _ =>
    rw [Action.Ensures, outcome_finishConstruction_of_ok hm]
    cases hthis : f.this with
    | none => exact hunbound rfl
    | some o => exact hok o rfl hthis

end Finish

/-- **What is ensured of a construction**, given what is ensured of its constructor. -/
theorem constructFor_ensures {settings : Settings} {perform : Performer} {cls newTarget : ClassId}
    {args : List Value} {m : Machine} {P : Option (Except Failure Unit) → Machine → Prop}
    {Q : Option (Except Failure ObjectId) → Machine → Prop}
    (hfull : Q (some (.error (.ofFault (.tooDeep settings.maxDepth))))
      ((Effect.note (.raised (.tooDeep settings.maxDepth))).apply
        ((Effect.note (.called cls newTarget)).apply m)))
    (hrun : m.frames.length < settings.maxDepth →
      (runConstructor perform cls newTarget args).Ensures (m.begun cls newTarget) P)
    (hended : ∀ outcome m', P (some outcome) m' → (finishConstruction outcome).Ensures m' Q)
    (hbroken : ∀ m', P none m' → Q none m') :
    (constructFor settings perform cls newTarget args).Ensures m Q := by
  rcases Nat.lt_or_ge m.frames.length settings.maxDepth with hroom | hnoRoom
  · have h := hrun hroom
    rw [Action.Ensures] at h ⊢
    rw [outcome_constructFor hroom]
    rcases hx : (runConstructor perform cls newTarget args).outcome (m.begun cls newTarget) with
      ⟨_ | outcome, m'⟩ <;> rw [hx] at h
    · exact hbroken m' h
    · exact hended outcome m' h
  · exact .of_outcome (outcome_constructFor_of_full hnoRoom perform cls newTarget args) hfull

/-! ### Constructions from outside -/

section Outside

variable {perform : Performer} {cls : ClassId} {m : Machine}

/-- A class that is there is announced, whether that is shown or not. -/
theorem outcome_construct_of_some {c : Class} (hc : m.registry.class? cls = some c)
    (settings : Settings) (args : List Value) :
    (construct settings perform cls args).outcome m =
      (constructFor settings perform cls cls args >>= fun this =>
        note (.constructed cls this) >>= fun _ => pure this).outcome
          ((Effect.note (.constructing c.displayName)).apply m) := by
  rw [construct, outcome_bind, announceConstruction, outcome_bind, outcome_get]
  simp only [Registry.require, hc]
  rfl

variable (hcls : m.registry.class? cls = none)

include hcls

theorem outcome_runConstructor_of_none (newTarget : ClassId) (args : List Value) :
    (runConstructor perform cls newTarget args).outcome m =
      (some (.error (.ofFault (.noSuchClass cls))),
        (Effect.note (.raised (.noSuchClass cls))).apply m) := by
  rw [runConstructor, outcome_bind, outcome_classAt_of_none hcls]

/-- Where announcements are shown, an unknown class is found out at once. -/
theorem outcome_construct_of_loud {settings : Settings} (hloud : settings.announces = true)
    (args : List Value) : (construct settings perform cls args).outcome m =
      (some (.error (.ofFault (.noSuchClass cls))),
        (Effect.note (.raised (.noSuchClass cls))).apply m) := by
  rw [construct, outcome_bind, announceConstruction, outcome_bind, outcome_get]
  simp only [Registry.require, hcls, hloud]
  rfl

/-- Elsewhere it is found out in the frame of the construction, if there is room for it. -/
theorem outcome_construct_of_quiet {settings : Settings} (hquiet : settings.announces = false)
    (args : List Value) : (construct settings perform cls args).outcome m =
      if settings.maxDepth ≤ m.frames.length then
        (some (.error (.ofFault (.tooDeep settings.maxDepth))),
          (Effect.note (.raised (.tooDeep settings.maxDepth))).apply
            ((Effect.note (.called cls cls)).apply m))
      else (some (.error (.ofFault (.noSuchClass cls))),
        (Effect.note (.raised (.noSuchClass cls))).apply
          ((Effect.note (.called cls cls)).apply m)) := by
  have hcalled : (construct settings perform cls args).outcome m =
      (constructFor settings perform cls cls args >>= fun this =>
        note (.constructed cls this) >>= fun _ => pure this).outcome m := by
    rw [construct, outcome_bind, announceConstruction, outcome_bind, outcome_get]
    simp only [Registry.require, hcls, hquiet]
    rfl
  rw [hcalled, outcome_bind]
  by_cases hfull : settings.maxDepth ≤ m.frames.length
  · rw [if_pos hfull, outcome_constructFor_of_full hfull]
  · have hbegun : (m.begun cls cls).registry.class? cls = none := hcls
    rw [if_neg hfull, outcome_constructFor (Nat.lt_of_not_le hfull),
      outcome_runConstructor_of_none hbegun]
    rfl

/-- Either way, nothing is constructed. -/
theorem construct_fails (settings : Settings) (perform : Performer) (args : List Value) :
    ∃ e, ((construct settings perform cls args).outcome m).1 = some (.error e) := by
  cases hs : settings.announces with
  | true => exact ⟨_, congrArg Prod.fst (outcome_construct_of_loud hcls hs args)⟩
  | false =>
    rw [outcome_construct_of_quiet hcls hs]
    split <;> exact ⟨_, rfl⟩

end Outside

/-- **What is ensured of a call of the parent constructor**: there is something wrong with the
frame, or its class has a parent, and the construction through it comes first. -/
theorem superCall_ensures {perform : Performer} {args : List Value} {m : Machine}
    {Q : Option (Except Failure ObjectId) → Machine → Prop}
    (hraised : ∀ fault : Fault, fault ≠ .frameLost →
      Q (some (.error (.ofFault fault))) ((Effect.note (.raised fault)).apply m))
    (hcall : ∀ f rest c p, m.frames = f :: rest → m.registry.class? f.cls = some c →
      c.parent = some p → (perform (.construct p f.newTarget args) >>= fun this =>
        adopt perform this f.cls .thisBound >>= fun _ =>
          note (.superReturned f.cls this) >>= fun _ => pure this).Ensures m Q) :
    (superCall perform args).Ensures m Q := by
  rcases hm : m.frames with _ | ⟨f, rest⟩
  · exact .bind_error (outcome_currentFrame_of_nil hm) (hraised _ (by simp))
  refine .bind_ok (outcome_currentFrame_of_cons hm) ?_
  rcases hc : m.registry.class? f.cls with _ | c
  · exact .bind_error (outcome_classAt_of_none hc) (hraised _ (by simp))
  refine .bind_ok (outcome_classAt_of_some hc) ?_
  cases hp : c.parent with
  | none => exact hraised .noParent (by simp)
  | some p => exact hcall f rest c p hm hc hp

end ClassMachine
