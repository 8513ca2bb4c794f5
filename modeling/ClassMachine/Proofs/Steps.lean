import ClassMachine.Proofs.Operations

/-!
# The steps inside operations

What goes on in the machine is made of steps, one inside the other (`ClassMachine.Step`): code of
clients, calls of operations, constructors with their bodies, functions, and the three kinds of
stages, which evaluate a computed name or install a field. Which steps can be inside which ones is
listed by `ClassMachine.Step.Inside`. Between two tasks there are only a few
(`ClassMachine.Step.induction`).

`ClassMachine.MadeOf` knows the effects of an operation. `ClassMachine.Passes` knows its steps
instead: it says that the operation is put together from actions that need no performer and from
steps of a given kind, and that no failure of a step is caught. For each operation it is shown here
once, by its definition.

Main statements: `ClassMachine.call_passes`, `ClassMachine.stage_passes`.
-/

namespace ClassMachine

variable {α β : Type}

/-! ### Steps -/

/-- What can be under way in the machine. -/
inductive Step : Type 1
  /-- A task is performed: code of a client, or a constructor on its behalf. -/
  | task {α : Type} (task : Task α)
  /-- A client calls an operation, or a derived class without a constructor calls that of its
  parent. -/
  | call {α : Type} (c : Call α)
  /-- A constructor runs in a frame of its own. -/
  | construction (cls newTarget : ClassId) (args : List Value)
  /-- The body of a constructor runs. -/
  | body (cls : ClassId) (this : Option ObjectId) (code : Expr) (args : List Value)
  /-- A function runs: a method, a getter or a setter. -/
  | function (f : Function) (receiver : Value) (args : List Value)
  /-- A computed name is evaluated or a field is installed. -/
  | stage (activity : Activity)

/-- The field that an activity installs, and where. -/
def Activity.field? : Activity → Option (ObjectId × FieldRecord)
  | namingField .. => none
  | staticField _ _ target record | instanceField _ _ target record => some (target, record)

namespace Step

/-- What the step answers with. -/
def Answer : Step → Type
  | @task α _ | @call α _ => α
  | construction .. => ObjectId
  | body .. => Unit
  | function .. => Value
  | stage (.namingField ..) => String
  | stage (.staticField ..) | stage (.instanceField ..) => Unit

/-- What the step does. -/
def run (settings : Settings) (perform : Performer) : (s : Step) → Action s.Answer
  | task t => perform t
  | call c => c.run settings perform
  | construction cls newTarget args => constructFor settings perform cls newTarget args
  | body cls this code args => runBody perform cls this code args
  | function f receiver args => callFunction perform f receiver args
  | stage (.namingField cls className name) => fieldKey perform cls className (.computed name)
  | stage (.staticField cls className target record) =>
    installFields perform (.staticField cls className target) target [record]
  | stage (.instanceField cls className target record) =>
    installFields perform (.instanceField cls className target) target [record]

/-- The first step can be inside the second one, with nothing between them. -/
inductive Inside : Step → Step → Prop
  /-- An expression has others as its parts. -/
  | part {e e' : Expr} {ctx ctx' : Context} : Inside (task (.eval e' ctx')) (task (.eval e ctx))
  | call {α : Type} {c : Call α} {e : Expr} {ctx : Context} :
    Inside (call c) (task (.eval e ctx))
  | constructor {cls newTarget : ClassId} {args : List Value} :
    Inside (construction cls newTarget args) (task (.construct cls newTarget args))
  | construct {cls : ClassId} {args : List Value} :
    Inside (construction cls cls args) (.call (.construct cls args))
  | constructValue {cls : ClassId} {callee : Value} {args : List Value} :
    Inside (construction cls cls args) (.call (.constructValue callee args))
  /-- The parent constructs, and then the fields of the class itself are installed. -/
  | parent {cls newTarget : ClassId} {args : List Value} :
    Inside (task (.construct cls newTarget args)) (.call (.super args))
  | parentField {cls : ClassId} {className : String} {target : ObjectId} {record : FieldRecord}
    {args : List Value} :
    Inside (stage (.instanceField cls className target record)) (.call (.super args))
  | name {cls : ClassId} {d : ClassDefinition} {e : Expr} {isStatic : Bool}
    {initializer : Option Expr} (h : .field (.computed e) isStatic initializer ∈ d.elements) :
    Inside (stage (.namingField cls d.displayName e)) (.call (.define d))
  | static {cls : ClassId} {d : ClassDefinition} {target : ObjectId} {record : FieldRecord} :
    Inside (stage (.staticField cls d.displayName target record)) (.call (.define d))
  | getter {f : Function} {target : Value} {key : String} :
    Inside (function f target []) (.call (.get target key))
  | setter {f : Function} {target value : Value} {key : String} :
    Inside (function f target [value]) (.call (.set target key value))
  | callee {f : Function} {receiver : Value} {args : List Value} :
    Inside (function f receiver args) (.call (.call (.function f) receiver args))
  /-- The function is found by reading a property, which may need a getter. -/
  | found {f : Function} {receiver : Value} {key : String} {args args' : List Value} :
    Inside (function f receiver args') (.call (.invoke receiver key args))
  | field {cls newTarget : ClassId} {className : String} {target : ObjectId}
    {record : FieldRecord} {args : List Value} :
    Inside (stage (.instanceField cls className target record)) (construction cls newTarget args)
  | body {cls newTarget : ClassId} {this : Option ObjectId} {code : Expr} {args : List Value} :
    Inside (body cls this code args) (construction cls newTarget args)
  | super {cls newTarget : ClassId} {args : List Value} :
    Inside (.call (.super args)) (construction cls newTarget args)
  | bodyCode {cls : ClassId} {this : Option ObjectId} {code : Expr} {args : List Value} :
    Inside (task (.eval code { args })) (.body cls this code args)
  | functionCode {f : Function} {receiver : Value} {args : List Value} :
    Inside (task (.eval f.body { receiver, args })) (function f receiver args)
  | nameCode {cls : ClassId} {className : String} {e : Expr} :
    Inside (task (.eval e {})) (stage (.namingField cls className e))
  | initializer {activity : Activity} {target : ObjectId} {record : FieldRecord} {e : Expr}
    (h : activity.field? = some (target, record)) (he : record.initializer = some e) :
    Inside (task (.eval e { receiver := .ref target })) (stage activity)
  /-- A field without an initializer takes over what its target shows. -/
  | shown {activity : Activity} {target : ObjectId} {record : FieldRecord} {f : Function}
    (h : activity.field? = some (target, record)) (hnone : record.initializer = none) :
    Inside (function f (.ref target) []) (stage activity)

/-- Is the step a task? Others can be inside it to any depth. -/
def IsTask : Step → Prop
  | task _ => True
  | _ => False

/-- How deep steps can be inside the step before the next task. -/
def rank : Step → Nat
  | task _ => 0
  | body .. | function .. => 1
  | stage _ => 2
  | call (.construct ..) | call (.constructValue ..) => 5
  | call _ => 3
  | construction .. => 4

/-- Steps that are inside each other without a task between them go down in rank. -/
theorem Inside.rank_lt {s s' : Step} (h : s'.Inside s) (hs : ¬ s.IsTask) : s'.rank < s.rank := by
  cases h <;> first | exact absurd trivial hs | simp [rank]

/-- **Induction on what is inside a step**, down to the tasks, of which nothing is known. -/
theorem induction {P : Step → Prop}
    (h : ∀ s, (¬ s.IsTask → ∀ s', s'.Inside s → P s') → P s) (s : Step) : P s := by
  induction hrank : s.rank using Nat.strongRecOn generalizing s with
  | ind n ih =>
    subst hrank
    exact h s fun hs s' hs' => ih s'.rank (hs'.rank_lt hs) s' rfl

end Step

/-! ### Putting steps together -/

/-- The effect neither begins an activity nor takes off a frame. -/
def Effect.IsLocal (e : Effect) : Prop :=
  e ≠ .pop ∧ ∀ activity, e ≠ .note (.began activity)

theorem Effect.IsClient.isLocal {e : Effect} (h : e.IsClient) : e.IsLocal := by
  constructor
  · rintro rfl
    exact h
  · rintro activity rfl
    exact h

/-- The operation is put together from actions that need no performer and from steps of the given
kind, and a failure of a part ends it, but for what is taken back. -/
inductive Passes (settings : Settings) (C : Step → Prop) :
    ∀ ⦃α : Type⦄, (Performer → Action α) → Prop
  | alone {α : Type} {x : Action α} (hx : MadeOf Effect.IsLocal .none fun _ => x) :
    Passes settings C fun _ => x
  | step {s : Step} (hs : C s) : Passes settings C fun perform => s.run settings perform
  | bind {α β : Type} {F : Performer → Action α} {G : α → Performer → Action β}
      (hF : Passes settings C F) (hG : ∀ a, Passes settings C (G a)) :
    Passes settings C fun perform => F perform >>= fun a => G a perform
  | read {α : Type} {F : Machine → Performer → Action α} (hF : ∀ m, Passes settings C (F m)) :
    Passes settings C fun perform => get >>= fun m => F m perform
  | undoing {α β : Type} {F : Performer → Action α} {G : Except Failure α → Performer → Action β}
      {undo : Action Unit} (hF : Passes settings C F) (hok : ∀ a, Passes settings C (G (.ok a)))
      (hundo : ∀ m, ∃ es, (∀ e ∈ es, Effect.IsUndoing e) ∧
        undo.outcome m = (some (.ok ⟨⟩), Effect.applyAll es m))
      (herror : ∀ e, G (.error e) = fun _ => undo >>= fun _ => throw e) :
    Passes settings C fun perform => observe (F perform) >>= fun r => G r perform

namespace Passes

variable {settings : Settings} {C : Step → Prop} {F : Performer → Action α}

theorem pure (a : α) : Passes settings C fun _ => (pure a : Action α) :=
  .alone (.pure a)

theorem note {e : Event} (he : e.IsPlain) : Passes settings C fun _ => note e := by
  refine .alone (.note ⟨by simp, fun activity h => ?_⟩ he)
  cases h
  exact he

theorem raise (f : Fault) : Passes settings C fun _ => (raise f : Action α) :=
  .alone (.raise ⟨by simp, by simp⟩)

theorem demand (r : Except Fault α) : Passes settings C fun _ => demand r :=
  .alone (.demand fun _ _ => ⟨by simp, by simp⟩)

/-- Client effects by themselves. -/
theorem client {x : Action α} (hx : MadeOf Effect.IsClient .none fun _ => x) :
    Passes settings C fun _ => x :=
  .alone (hx.of_client fun _ => Effect.IsClient.isLocal)

theorem discard (hF : Passes settings C F) :
    Passes settings C fun perform => discard (F perform) :=
  .bind hF fun _ => pure PUnit.unit

end Passes

/-! ### Properties and functions -/

section Parts

variable {settings : Settings} {C : Step → Prop}

/-- A getter runs inside a reading. -/
theorem readFrom_passes {receiver : Value} (hget : ∀ f, C (.function f receiver []))
    (id : ObjectId) (key : String) :
    Passes settings C fun perform => readFrom perform id key receiver := by
  refine .read fun m => ?_
  split
  · exact .pure _
  next getter _ _ _ _ => exact .step (hget getter)
  · exact .pure _
  · exact .pure _
  · exact .alone .breakOff

theorem readProperty_passes {target : Value} (hget : ∀ f, C (.function f target []))
    (key : String) : Passes settings C fun perform => readProperty perform target key := by
  cases target with
  | ref id => exact readFrom_passes hget id key
  | undefined | null => exact .raise _
  | bool _ | number _ | str _ | function _ => exact .pure _

/-- A setter runs inside an assignment, with the value. -/
theorem assignProperty_passes {target value : Value} (hset : ∀ f, C (.function f target [value]))
    (key : String) :
    Passes settings C fun perform => assignProperty perform target key value := by
  cases target with
  | ref id =>
    refine .read fun m => ?_
    split
    next setter _ _ _ => exact .discard (.step (hset setter))
    · exact .raise _
    · exact .raise _
    · exact .client (assignOwn_client ..)
    · exact .client (assignOwn_client ..)
    · exact .alone .breakOff
  | _ => exact .raise _

theorem callValue_passes {callee receiver : Value} {args : List Value}
    (hcall : ∀ f, callee = .function f → C (.function f receiver args)) :
    Passes settings C fun perform => callValue perform callee receiver args := by
  cases callee with
  | function f => exact .step (hcall f rfl)
  | _ => exact .raise _

/-- First a getter may run, and then the function. -/
theorem invokeMethod_passes {receiver : Value} {args : List Value}
    (hcall : ∀ f args', C (.function f receiver args')) (key : String) :
    Passes settings C fun perform => invokeMethod perform receiver key args :=
  .bind (readProperty_passes (fun f => hcall f []) key) fun _ =>
    callValue_passes fun f _ => hcall f args

/-! ### Fields -/

/-- The initializer runs, or a getter where there is none. -/
theorem installField_passes {target : ObjectId} {record : FieldRecord}
    (hinitializer : ∀ e, record.initializer = some e →
      C (.task (.eval e { receiver := .ref target })))
    (hshown : record.initializer = none → ∀ f, C (.function f (.ref target) [])) :
    Passes settings C fun perform => installField perform target record := by
  refine .bind ?_ fun _ => .bind (.client (defineOn_client ..)) fun _ => .note trivial
  unfold fieldValue
  split
  next e he => exact .step (hinitializer e he)
  next hnone => exact readFrom_passes (hshown hnone) _ _

/-- Fields are installed one after the other. -/
theorem installFields_cons (perform : Performer) (activity : FieldRecord → Activity)
    (target : ObjectId) (record : FieldRecord) (rest : List FieldRecord) :
    installFields perform activity target (record :: rest) =
      installFields perform activity target [record] >>= fun _ =>
        installFields perform activity target rest := by
  simp [installFields]

theorem installFields_passes {activity : FieldRecord → Activity} {target : ObjectId}
    (hfield : ∀ r, Passes settings C fun perform => installFields perform activity target [r])
    (records : List FieldRecord) :
    Passes settings C fun perform => installFields perform activity target records := by
  induction records with
  | nil => exact .pure _
  | cons r rest ih =>
    simp only [installFields_cons _ activity target r rest]
    exact .bind (hfield r) fun _ => ih

/-! ### Constructions -/

theorem putFrame_passes (f : Frame) : Passes settings C fun _ => putFrame f :=
  .alone (.effects (fun _ => rfl) fun _ =>
    ⟨_, [.frame f], by simp [Effect.IsLocal, Effect.IsPlain], rfl⟩)

theorem enterPhase_passes (phase : Phase) : Passes settings C fun _ => enterPhase phase :=
  .bind (.client currentFrame_client) fun _ => putFrame_passes _

/-- Stages of the class are all that is inside, for the object that is bound. -/
theorem adopt_passes {this : ObjectId} {cls : ClassId}
    (hfield : ∀ className record, C (.stage (.instanceField cls className this record)))
    (phase : Phase) : Passes settings C fun perform => adopt perform this cls phase :=
  have hbind : Passes settings C fun _ => bindThis this phase :=
    .bind (.client currentFrame_client) fun _ => .bind (.demand _) fun _ => putFrame_passes _
  have hfields : Passes settings C fun perform => installInstanceFields perform this cls :=
    .bind (.client (classAt_client cls)) fun _ => .read fun _ => .bind (.note trivial) fun _ =>
      installFields_passes (fun r => .step (hfield _ r)) _
  .bind hbind fun _ => .bind hfields fun _ => .bind (enterPhase_passes _) fun _ =>
    enterPhase_passes _

/-- The parent constructs, and then come the stages of the class of the frame. -/
theorem superCall_passes {args : List Value}
    (hparent : ∀ parent newTarget, C (.task (.construct parent newTarget args)))
    (hfield : ∀ cls className this record, C (.stage (.instanceField cls className this record))) :
    Passes settings C fun perform => superCall perform args := by
  refine .bind (.client currentFrame_client) fun frame =>
    .bind (.client (classAt_client _)) fun c => ?_
  split
  · exact .raise _
  next parent _ =>
    exact .bind (.step (hparent parent frame.newTarget)) fun this =>
      .bind (adopt_passes (hfield frame.cls · this) _) fun _ => .bind (.note trivial) fun _ =>
        .pure _

/-- A constructor installs fields and runs its body, or calls that of the parent in its place. -/
theorem runConstructor_passes {cls newTarget : ClassId} {args : List Value}
    (hfield : ∀ className this record, C (.stage (.instanceField cls className this record)))
    (hbody : ∀ this code, C (.body cls this code args)) (hsuper : C (.call (.super args))) :
    Passes settings C fun perform => runConstructor perform cls newTarget args := by
  have hallocate : Passes settings C fun _ => allocate newTarget :=
    .bind (.client (classAt_client _)) fun c => .bind (.alone (.effects (fun _ => rfl) fun _ =>
      ⟨_, [.object (.instance newTarget) (some c.prototype)],
        by simp [Effect.IsLocal, Effect.IsPlain], rfl⟩)) fun _ => .bind (.note trivial) fun _ =>
          .pure _
  refine .bind (.client (classAt_client _)) fun c => ?_
  split
  · refine .bind hallocate fun this => .bind (adopt_passes (hfield · this) _) fun _ => ?_
    split
    next code _ => exact .step (hbody (some this) code)
    · exact .pure _
  · split
    next code _ => exact .step (hbody none code)
    · exact .discard (.step hsuper)

theorem construct_passes {cls : ClassId} {args : List Value}
    (hconstruct : C (.construction cls cls args)) :
    Passes settings C fun perform => construct settings perform cls args := by
  refine .bind (.read fun m => ?_) fun _ => .bind (.step hconstruct) fun _ =>
    .bind (.note trivial) fun _ => .pure _
  split
  · exact .note trivial
  · split
    · exact .raise _
    · exact .pure _

/-! ### Definitions -/

/-- Computed names are the stages of this phase, and those of the definition only. -/
theorem collectFields_passes {cls : ClassId} {className : String} {homes : Homes}
    {elements : List ClassElement} (hname : ∀ e isStatic initializer,
      .field (.computed e) isStatic initializer ∈ elements →
        C (.stage (.namingField cls className e))) :
    Passes settings C fun perform => collectFields perform cls className homes elements := by
  induction elements with
  | nil => exact .pure _
  | cons element rest ih =>
    refine .bind ?_ fun _ => .bind (ih fun e isStatic initializer h =>
      hname e isStatic initializer (List.mem_cons_of_mem _ h)) fun _ => .pure _
    cases element with
    | method => exact .bind (.client (defineMethod_client ..)) fun _ => .pure _
    | field name isStatic initializer =>
      refine .bind ?_ fun _ => .pure _
      cases name with
      | literal => exact .pure _
      | computed e => exact .step (hname e isStatic initializer List.mem_cons_self)

/-- Static fields are the stages of this one. A failure goes on when the registration is taken back.
-/
theorem launchClass_passes {c : Class}
    (hstatic : ∀ record, C (.stage (.staticField c.id c.displayName c.classObject record))) :
    Passes settings C fun perform => launchClass perform c := by
  have hregister : Passes settings C fun _ => registerClass c :=
    .alone (.effects (fun _ => rfl) fun _ => ⟨_, [.register c, .note (.registered c)],
      by simp [Effect.IsLocal, Effect.IsPlain, Event.IsPlain], rfl⟩)
  refine .bind hregister fun shadowed => .undoing
    (installFields_passes (fun r => .step (hstatic r)) _)
    (fun _ => .bind (.note trivial) fun _ => .pure _) (fun m => ?_) fun _ => rfl
  exact ⟨[.withdraw c.id shadowed, .note (.withdrawn c.id (m.registry.hasSubclass c.id))],
    by simp [Effect.IsUndoing], rfl⟩

theorem defineClass_passes {d : ClassDefinition}
    (hname : ∀ cls e isStatic initializer,
      .field (.computed e) isStatic initializer ∈ d.elements →
        C (.stage (.namingField cls d.displayName e)))
    (hstatic : ∀ cls target record, C (.stage (.staticField cls d.displayName target record))) :
    Passes settings C fun perform => defineClass perform d := by
  have hdraw : Passes settings C fun _ => drawClassId :=
    .alone (.effects (fun _ => rfl) fun _ => ⟨_, [.draw, .note (.numbered _)],
      by simp [Effect.IsLocal, Effect.IsPlain, Event.IsPlain], rfl⟩)
  have hhomes (id : ClassId) (parent : Option Class) :
      Passes settings C fun _ => makeHomes id d.name parent :=
    .alone (makeHomes_madeOf _ _ _ (fun _ => Effect.IsClient.isLocal) fun _ =>
      ⟨by simp, by simp⟩)
  -- the class that is launched has the name of the definition
  simp only [defineClass, prepareClass, bind_assoc, pure_bind]
  exact .bind (.note trivial) fun _ => .bind (.demand _) fun _ => .read fun _ =>
    .bind (.demand _) fun parent => .bind hdraw fun id => .bind (hhomes id parent) fun homes =>
      .bind (collectFields_passes (hname id)) fun _ => launchClass_passes (hstatic id _)

/-! ### All steps -/

theorem replaceInitializer_passes (id : ClassId) (field : String) (initializer : Option Expr) :
    Passes settings C fun _ => replaceInitializer id field initializer :=
  .bind (.note trivial) fun _ => .read fun _ => .bind (.demand _) fun _ =>
    .bind (.demand _) fun c => .bind (.alone (.effects (fun _ => rfl) fun _ => ⟨_, [.exchange c],
      by simp [Effect.IsLocal, Effect.IsPlain], rfl⟩)) fun _ => .note trivial

/-- **A call is put together from the steps that can be inside it.** -/
theorem call_passes (c : Call α) :
    Passes settings (Step.Inside · (.call c)) fun perform => c.run settings perform := by
  cases c with
  | construct cls args => exact construct_passes .construct
  | constructValue callee args =>
    exact .bind (.client (calledClass_client callee)) fun _ => construct_passes .constructValue
  | super args => exact superCall_passes (fun _ _ => .parent) fun _ _ _ _ => .parentField
  | define d => exact defineClass_passes (fun _ _ _ _ => .name) fun _ _ _ => .static
  | replace cls field initializer => exact replaceInitializer_passes cls field initializer
  | get target key => exact readProperty_passes (fun _ => .getter) key
  | set target key value => exact assignProperty_passes (fun _ => .setter) key
  | call callee receiver args => exact callValue_passes fun f h => h ▸ .callee
  | invoke receiver key args => exact invokeMethod_passes (fun _ _ => .found) key

theorem body_passes (cls : ClassId) (this : Option ObjectId) (code : Expr) (args : List Value) :
    Passes settings (Step.Inside · (.body cls this code args))
      fun perform => runBody perform cls this code args :=
  .bind (.note trivial) fun _ => .discard (.step (s := .task (.eval code { args })) .bodyCode)

theorem function_passes (f : Function) (receiver : Value) (args : List Value) :
    Passes settings (Step.Inside · (.function f receiver args))
      fun perform => callFunction perform f receiver args :=
  .step (s := .task (.eval f.body { receiver, args })) .functionCode

variable (settings) in
/-- **A stage is an activity** around what is put together from the steps inside it, and what its
answer is made into cannot fail. -/
theorem stage_passes (activity : Activity) :
    ∃ (β : Type) (F : Performer → Action β) (g : β → (Step.stage activity).Answer),
      Passes settings (Step.Inside · (.stage activity)) F ∧ ∀ perform,
        (Step.stage activity).run settings perform =
          during activity (F perform) >>= fun b => pure (g b) := by
  have field {target : ObjectId} {record : FieldRecord}
      (h : activity.field? = some (target, record)) :
      Passes settings (Step.Inside · (.stage activity))
        fun perform => installField perform target record :=
    installField_passes (fun _ => .initializer h) fun hnone _ => .shown h hnone
  cases activity with
  | namingField cls className e =>
    exact ⟨_, _, Value.propertyKey, .step (s := .task (.eval e {})) .nameCode, fun _ => rfl⟩
  | staticField cls className target record => exact ⟨_, _, id, field rfl, fun _ => rfl⟩
  | instanceField cls className target record => exact ⟨_, _, id, field rfl, fun _ => rfl⟩

end Parts

end ClassMachine
