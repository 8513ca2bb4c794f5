import ClassMachine.Evaluation
import ClassMachine.Proofs.Law

/-!
# What client code is made of

Client code changes the machine by its own effects and by calls of the operations of
the machine, `ClassMachine.Call`. This file shows that there is nothing else
(`ClassMachine.evaluateExpr_client`): whatever the form of an expression, evaluating it
is made of client effects, of evaluations and of calls. Reading, assigning and calling
functions are calls that are themselves made of client effects and evaluations, so a law of
all client code has to be shown of four operations only: calls of the parent
constructor, constructions, definitions and exchanges of initializers.

A client that changes an object has two effects, the change and a note of it. For a law that
one of the two breaks, they can be taken together, as an operation
(`ClassMachine.Hosts`).
-/

namespace ClassMachine

variable {α : Type} {A : Effect → Prop} {X : Operations}

/-! ### Calls -/

/-- A call of an operation of the machine, with the type of its answer. -/
inductive Call : Type → Type
  /-- Constructs an instance of a class given by its number. -/
  | construct (cls : ClassId) (args : List Value) : Call ObjectId
  /-- Constructs an instance of a class given by its class object. -/
  | constructValue (callee : Value) (args : List Value) : Call ObjectId
  /-- Calls the parent constructor. -/
  | super (args : List Value) : Call ObjectId
  /-- Defines a class. -/
  | define (d : ClassDefinition) : Call ClassId
  /-- Exchanges the initializers of instance fields. -/
  | replace (cls : ClassId) (field : String) (initializer : Option Expr) : Call Unit
  /-- Reads a property of a value. -/
  | get (target : Value) (key : String) : Call Value
  /-- Assigns to a property of a value. -/
  | set (target : Value) (key : String) (value : Value) : Call Unit
  /-- Calls a value. -/
  | call (callee receiver : Value) (args : List Value) : Call Value
  /-- Calls the function under a property of a value. -/
  | invoke (receiver : Value) (key : String) (args : List Value) : Call Value

/-- What a call does. -/
def Call.run (settings : Settings) (perform : Performer) : Call α → Action α
  | construct cls args => ClassMachine.construct settings perform cls args
  | constructValue callee args => ClassMachine.constructValue settings perform callee args
  | super args => superCall perform args
  | define d => defineClass perform d
  | replace cls field initializer => replaceInitializer cls field initializer
  | get target key => readProperty perform target key
  | set target key value => assignProperty perform target key value
  | call callee receiver args => callValue perform callee receiver args
  | invoke receiver key args => invokeMethod perform receiver key args

/-- The calls as a family of operations. -/
def Call.operations (settings : Settings) : Operations :=
  fun α F => ∃ c : Call α, F = fun perform => c.run settings perform

/-! ### Changes of objects -/

theorem defineOn_ignoresTrace (id : ObjectId) (key : String) (p : Property) :
    (defineOn id key p).IgnoresTrace := by
  intro m
  simp only [outcome_defineOn, Machine.untraced]
  cases (m.store.object id).define key p <;> rfl

/-- Defining a property is one effect, or else the fault of an object that refuses it. -/
theorem defineOn_client (id : ObjectId) (key : String) (p : Property) :
    MadeOf Effect.IsClient X fun _ => defineOn id key p := by
  refine .steps (defineOn_ignoresTrace id key p) fun m => ?_
  cases h : (m.store.object id).define key p with
  | ok o =>
    have hdefine : (defineOn id key p).outcome m =
        (some (.ok ⟨⟩), Effect.applyAll [.define id key p] m) := by
      simp [outcome_defineOn, Effect.apply, h]
    exact .answers (by simp [Effect.IsClient, Effect.IsPlain]) hdefine
  | error f =>
    -- an object has two reasons to refuse a property
    have hf : f ≠ .frameLost := by
      rcases Object.define_eq_error h with rfl | rfl <;> simp
    exact .raises hf (by rw [outcome_defineOn, h]; rfl)

/-- The effect changes which properties an object owns or takes. -/
def Effect.IsWrite : Effect → Prop
  | .define .. | .delete .. | .close _ => True
  | _ => False

/-- The effect tells that a construction is refused because of its depth. -/
def Effect.IsRefusal (e : Effect) : Prop :=
  ∃ limit, e = .note (.raised (.tooDeep limit))

/-- Client code can be made of such effects and operations: of its other effects one by one, and
of its changes of objects each as a whole. It does not refuse constructions by itself. -/
class Hosts (A : Effect → Prop) (X : Operations) : Prop where
  effect : ∀ e : Effect, e.IsClient → ¬ e.IsWrite → ¬ e.IsRefusal → A e
  define : ∀ id key p, MadeOf A X fun _ => defineForClient id key p
  delete : ∀ id key, MadeOf A X fun _ => deleteFrom id key
  close : ∀ id, MadeOf A X fun _ => preventExtensions id

/-- It is made of its effects one by one. -/
instance : Hosts Effect.IsClient X where
  effect _ h _ _ := h
  define id key p := .bind (defineOn_client id key p) fun _ => .note trivial trivial
  delete id key := .effects (fun _ => rfl) fun _ => ⟨_, [.delete id key, .note (.changed id)],
    by simp [Effect.IsClient, Event.IsClient, Effect.IsPlain, Event.IsPlain], rfl⟩
  close id := .effects (fun _ => rfl) fun _ => ⟨_, [.close id, .note (.changed id)],
    by simp [Effect.IsClient, Event.IsClient, Effect.IsPlain, Event.IsPlain], rfl⟩

/-- Client code may raise any fault but those that tell of frames and of their number. -/
theorem Hosts.raised (X : Operations) [Hosts A X] {f : Fault}
    (h : f ≠ .frameLost ∧ ∀ limit, f ≠ .tooDeep limit) : A (.note (.raised f)) :=
  Hosts.effect (X := X) _ h.1 id fun ⟨limit, he⟩ => h.2 limit (by simpa using he)

/-! ### Operations on objects -/

section Hosts

variable [Hosts A X]

/-- A single effect and an answer. -/
theorem MadeOf.client {x : Action α} (hx : x.IgnoresTrace)
    (h : ∀ m, ∃ a e, (e.IsClient ∧ ¬ e.IsWrite ∧ e.IsPlain) ∧
      x.outcome m = (some (.ok a), Effect.apply e m)) : MadeOf A X fun _ => x := by
  refine .effects hx fun m => ?_
  obtain ⟨a, e, ⟨hclient, hwrite, hplain⟩, h⟩ := h m
  have hrefusal : ¬ e.IsRefusal := by
    rintro ⟨limit, rfl⟩
    exact hplain
  exact ⟨a, [e], by simpa using ⟨Hosts.effect (X := X) e hclient hwrite hrefusal, hplain⟩, h⟩

theorem raise_client {f : Fault} (h : f ≠ .frameLost ∧ ∀ limit, f ≠ .tooDeep limit) :
    MadeOf A X fun _ => (raise f : Action α) :=
  .raise (Hosts.raised X h)

omit [Hosts A X] in
theorem objectAt_client (id : ObjectId) : MadeOf A X fun _ => objectAt id :=
  .read (fun _ => rfl) fun _ => .pure _

theorem newObject_client (prototype : Option ObjectId) :
    MadeOf A X fun _ => newObject .ordinary prototype :=
  .client (fun _ => rfl) fun _ => ⟨_, .object .ordinary prototype, ⟨rfl, id, trivial⟩, rfl⟩

theorem newFunction_client (name : String) (body : Expr) :
    MadeOf A X fun _ => newFunction name body :=
  .client (fun _ => rfl) fun _ => ⟨_, .function, ⟨trivial, id, trivial⟩, rfl⟩

theorem writeRegister_client (name : String) (v : Value) :
    MadeOf A X fun _ => writeRegister name v :=
  .client (fun _ => rfl) fun _ => ⟨_, .write name v, ⟨trivial, id, trivial⟩, rfl⟩

theorem writeLog_client (entry : Entry) : MadeOf A X fun _ => writeLog entry :=
  .client (fun _ => rfl) fun _ => ⟨_, .log entry, ⟨trivial, id, trivial⟩, rfl⟩

theorem setPrototype_client (id : ObjectId) (prototype : Option ObjectId) :
    MadeOf A X fun _ => setPrototype id prototype :=
  .client (fun _ => rfl) fun _ => ⟨_, .relink id prototype, ⟨trivial, fun h => h, trivial⟩, rfl⟩

/-! ### Reading, assigning and calling -/

omit [Hosts A X] in
theorem callFunction_client (f : Function) (receiver : Value) (args : List Value) :
    MadeOf A X fun perform => callFunction perform f receiver args :=
  .eval _ _

omit [Hosts A X] in
/-- Reading has no effect of its own. A getter is an evaluation, and a search that does not end
breaks off. -/
theorem readFrom_client (id : ObjectId) (key : String) (receiver : Value) :
    MadeOf A X fun perform => readFrom perform id key receiver := by
  refine .read (fun _ => rfl) fun m => ?_
  split
  · exact .pure _
  · exact callFunction_client _ _ _
  · exact .pure _
  · exact .pure _
  · -- the prototypes form a cycle
    exact .breakOff

theorem assignOwn_client (id : ObjectId) (key : String) (value : Value) :
    MadeOf A X fun _ => assignOwn id key value :=
  .bind (objectAt_client id) fun _ => Hosts.define _ _ _

/-- An assignment calls a setter, refuses, or changes the object, as the owner of the key decides.
-/
theorem assignTo_client (id : ObjectId) (key : String) (value : Value) :
    MadeOf A X fun perform => assignTo perform id key value := by
  refine .read (fun _ => rfl) fun m => ?_
  split
  · exact .discard (callFunction_client _ _ _)
  · exact raise_client (by simp)
  · exact raise_client (by simp)
  · exact assignOwn_client _ _ _
  · exact assignOwn_client _ _ _
  · exact .breakOff

/-- Of the values that are no objects, two refuse to be read and the others have no properties. -/
theorem readProperty_client (target : Value) (key : String) :
    MadeOf A X fun perform => readProperty perform target key := by
  cases target with
  | ref id => exact readFrom_client _ _ _
  | undefined | null => exact raise_client (by simp)
  | bool _ | number _ | str _ | function _ => exact .pure _

theorem assignProperty_client (target : Value) (key : String) (value : Value) :
    MadeOf A X fun perform => assignProperty perform target key value := by
  cases target with
  | ref id => exact assignTo_client _ _ _
  | _ => exact raise_client (by simp)

theorem callValue_client (callee receiver : Value) (args : List Value) :
    MadeOf A X fun perform => callValue perform callee receiver args := by
  cases callee with
  | function f => exact callFunction_client _ _ _
  | _ => exact raise_client (by simp)

/-- A method may be found by a getter, so there are two evaluations at most. -/
theorem invokeMethod_client (receiver : Value) (key : String) (args : List Value) :
    MadeOf A X fun perform => invokeMethod perform receiver key args :=
  .bind (readProperty_client _ _) fun _ => callValue_client _ _ _

/-! ### Primitive operations -/

theorem objectOf_client (v : Value) : MadeOf A X fun _ => objectOf v := by
  cases v with
  | ref id => exact .pure _
  | _ => exact raise_client (by simp)

theorem classIdOf_client (v : Value) : MadeOf A X fun _ => classIdOf v := by
  unfold classIdOf
  split
  · exact .pure _
  · exact raise_client (by simp)

/-- Looking up a class changes nothing. That there is none is the only fault that can arise. -/
theorem classAt_client (id : ClassId) : MadeOf A X fun _ => classAt id := by
  refine .read (fun _ => rfl) fun m => .demand fun f h => Hosts.raised X ?_
  rw [Registry.require] at h
  split at h <;> simp at h
  subst h
  simp

theorem currentFrame_client : MadeOf A X fun _ => currentFrame := by
  refine .read (fun _ => rfl) fun m => ?_
  split
  · exact .pure _
  · exact raise_client (by simp)

/-- The object under construction is missing where no frame is, and where none is bound yet. -/
theorem thisObject_client : MadeOf A X fun _ => thisObject := by
  refine .bind currentFrame_client fun frame => ?_
  split
  · exact .pure _
  · exact raise_client (by simp)

/-- A value is asked for its descent without an effect, if the class is there. -/
theorem instanceOf_client (v : Value) (cls : ClassId) :
    MadeOf A X fun _ => instanceOf v cls := by
  refine .bind (classAt_client cls) fun c => ?_
  split
  · refine .read (fun _ => rfl) fun m => ?_
    split
    · exact .pure _
    · exact .breakOff
  · exact .pure _

/-- An object goes into the log as it is at that moment. -/
theorem dump_client (v : Value) : MadeOf A X fun _ => dump v := by
  cases v with
  | ref id => exact .bind (objectAt_client id) fun _ => writeLog_client _
  | _ => exact writeLog_client _

/-- A refusal words the value by what is in the store. -/
theorem refuse_client (v : Value) (expected : Expectation) :
    MadeOf A X fun _ => (refuse v expected : Action α) :=
  .read (fun _ => rfl) fun _ => raise_client (by simp)

/-- **Primitive operations** do not run client code: they are made of client effects alone. -/
theorem performPrimitive_client (ctx : Context) (op : Primitive) (args : List Value) :
    MadeOf A X fun _ => performPrimitive ctx op args := by
  cases op with
  | register => exact .read (fun _ => rfl) fun _ => .pure _
  | log => exact .bind (writeLog_client _) fun _ => .pure _
  | dump => exact .bind (dump_client _) fun _ => .pure _
  | describe =>
    exact .bind (classIdOf_client _) fun _ => .read (fun _ => rfl) fun _ =>
      .bind (writeLog_client _) fun _ => .pure _
  | receiver | argument | argumentCount | add | less | equal | concat | key => exact .pure _
  | debug => exact .read (fun _ => rfl) fun _ => .pure _
  | expectNumber | expectString | expectObject =>
    simp only [performPrimitive]
    split
    · exact .pure _
    · exact refuse_client _ _
  | this => exact .bind thisObject_client fun _ => .pure _
  | phase =>
    refine .read (fun _ => rfl) fun m => ?_
    split <;> exact .pure _
  | throw => exact raise_client (by simp)
  | instanceOf =>
    exact .bind (classIdOf_client _) fun _ => .bind (instanceOf_client _ _) fun _ => .pure _
  | classId =>
    refine .read (fun _ => rfl) fun m => ?_
    split <;> exact .pure _
  | classCount => exact .read (fun _ => rfl) fun _ => .pure _
  | classObject | prototype =>
    exact .bind (classIdOf_client _) fun _ => .bind (classAt_client _) fun _ => .pure _
  | newObject => exact .bind (newObject_client _) fun _ => .pure _
  | createProperty | createHidden =>
    exact .bind (objectOf_client _) fun _ => .bind (Hosts.define _ _ _) fun _ => .pure _
  | delete =>
    exact .bind (objectOf_client _) fun _ => .bind (Hosts.delete _ _) fun _ => .pure _
  | hasOwn | isExtensible | ownKeys | prototypeOf =>
    exact .bind (objectOf_client _) fun _ => .bind (objectAt_client _) fun _ => .pure _
  | preventExtensions =>
    exact .bind (objectOf_client _) fun _ => .bind (Hosts.close _) fun _ => .pure _
  | setPrototype =>
    exact .bind (objectOf_client _) fun _ => .bind (setPrototype_client _ _) fun _ => .pure _

/-! ### Expressions -/

section Expressions

variable {settings : Settings} (ctx : Context)

omit [Hosts A X] in
theorem evaluate_client (e : Expr) :
    MadeOf A X fun perform => evaluate perform ctx e :=
  .eval _ _

omit [Hosts A X] in
theorem evaluateOptional_client (e : Option Expr) :
    MadeOf A X fun perform => evaluateOptional perform ctx e := by
  cases e with
  | some e => exact .eval _ _
  | none => exact .pure _

omit [Hosts A X] in
theorem evaluateAll_client (es : List Expr) :
    MadeOf A X fun perform => evaluateAll perform ctx es := by
  induction es with
  | nil => exact .pure _
  | cons e es ih => exact .bind (evaluate_client ctx e) fun _ => .bind ih fun _ => .pure _

omit [Hosts A X] in
theorem evaluateSequence_client (last : Value) (es : List Expr) :
    MadeOf A X fun perform => evaluateSequence perform ctx last es := by
  induction es generalizing last with
  | nil => exact .pure _
  | cons e es ih => exact .bind (evaluate_client ctx e) fun v => ih v

/-- This is the one place where a failure is caught; the handler finds it in two registers. -/
theorem evaluateAttempt_client (body : Expr) (handler : Option Expr) :
    MadeOf A X fun perform => evaluateAttempt perform ctx body handler := by
  refine .attempt (fun _ => Hosts.effect (X := X) _ trivial id (by simp [Effect.IsRefusal]))
    (evaluate_client ctx body)
    (fun v => .pure v) (H := fun e perform => do
      writeRegister "err" (.str e.text)
      writeRegister "kind" (.str e.word)
      evaluateOptional perform ctx handler) (fun e => ?_) fun _ => rfl
  exact .bind (writeRegister_client _ _) fun _ => .bind (writeRegister_client _ _) fun _ =>
    evaluateOptional_client ctx handler

/-- Each round has its number in a register, and what it answers is dropped. -/
theorem evaluateRounds_client (body : Expr) (round left : Nat) :
    MadeOf A X fun perform => evaluateRounds perform ctx body round left := by
  -- the rounds that are left decide when it ends, and each one has its own number
  induction left generalizing round with
  | zero => exact .pure _
  | succ left ih =>
    exact .bind (writeRegister_client _ _) fun _ =>
      .bind (.discard (evaluate_client ctx body)) fun _ => ih (round + 1)

omit [Hosts A X] in
theorem evaluateName_client (e : Option Expr) :
    MadeOf A X fun perform => evaluateName perform ctx e := by
  cases e with
  | some e => exact .bind (evaluate_client ctx e) fun _ => .pure _
  | none => exact .pure _

omit [Hosts A X] in
theorem evaluateHeritage_client (e : Option Expr) :
    MadeOf A X fun perform => evaluateHeritage perform ctx e := by
  cases e with
  | some e => exact .bind (evaluate_client ctx e) fun _ => .pure _
  | none => exact .pure _

theorem makeElement_client (e : ElementExpr) :
    MadeOf A X fun _ => makeElement e := by
  cases e with
  | method => exact .bind (newFunction_client _ _) fun _ => .pure _
  | field => exact .pure _

theorem makeElements_client (es : List ElementExpr) :
    MadeOf A X fun _ => makeElements es := by
  induction es with
  | nil => exact .pure _
  | cons e es ih => exact .bind (makeElement_client e) fun _ => .bind ih fun _ => .pure _

theorem accessorOf_client (v : Value) : MadeOf A X fun _ => accessorOf v := by
  cases v with
  | function f => exact .pure _
  | null => exact .pure _
  | _ => exact raise_client (by simp)

/-- The halves of an accessor are evaluated and checked one after the other. -/
theorem evaluateProperty_client (p : PropertyExpr) :
    MadeOf A X fun perform => evaluateProperty perform ctx p := by
  cases p with
  | data => exact .bind (evaluate_client ctx _) fun _ => .pure _
  | accessor =>
    exact .bind (evaluate_client ctx _) fun _ => .bind (accessorOf_client _) fun _ =>
      .bind (evaluate_client ctx _) fun _ => .bind (accessorOf_client _) fun _ => .pure _

section Calls

variable (hcall : ∀ ⦃β : Type⦄ (c : Call β), MadeOf A X fun perform => c.run settings perform)

include hcall

/-- Name and heritage are evaluated and the functions of the methods are made before the class is
defined. -/
theorem evaluateClass_madeOf (c : ClassExpr) :
    MadeOf A X fun perform => evaluateClass perform ctx c :=
  .bind (evaluateName_client ctx _) fun name =>
    .bind (evaluateHeritage_client ctx _) fun heritage =>
      .bind (makeElements_client _) fun elements =>
        hcall (.define { name, heritage, constructor := c.constructor, elements })

/-- What runs client code is a call, but for reading on behalf of another receiver, which is an
evaluation at most. -/
theorem performReentry_madeOf (op : Reentry) (args : List Value) :
    MadeOf A X fun perform => performReentry settings perform ctx op args := by
  cases op with
  | super => exact .bind (hcall (.super args)) fun _ => .pure _
  | forwardSuper => exact .bind (hcall (.super ctx.args)) fun _ => .pure _
  | construct =>
    exact .bind (classIdOf_client _) fun id =>
      .bind (hcall (.construct id (args.drop 1))) fun _ => .pure _
  | constructValue =>
    exact .bind (hcall (.constructValue (argAt args 0) (args.drop 1))) fun _ => .pure _
  | get => exact hcall (.get (argAt args 0) (argAt args 1).propertyKey)
  | set =>
    exact .bind (hcall (.set (argAt args 0) (argAt args 1).propertyKey (argAt args 2)))
      fun _ => .pure _
  | call => exact hcall (.call (argAt args 0) (argAt args 1) (args.drop 2))
  | invoke => exact hcall (.invoke (argAt args 0) (argAt args 1).propertyKey (args.drop 2))
  | getFor => exact .bind (objectOf_client _) fun _ => readFrom_client _ _ _

/-- Client code is made of what can host it, of evaluations and of calls. -/
theorem evaluateExpr_madeOf (e : Expr) :
    MadeOf A X fun perform => evaluateExpr settings perform ctx e := by
  cases e with
  | literal l => exact .pure _
  | malformed defect => exact raise_client (by simp)
  | sequence steps => exact evaluateSequence_client ctx _ _
  | choose condition yes no =>
    refine .bind (evaluate_client ctx _) fun v => ?_
    split
    · exact evaluate_client ctx _
    · exact evaluateOptional_client ctx _
  | attempt body handler => exact evaluateAttempt_client ctx _ _
  | loop rounds body => exact .bind (evaluateRounds_client ctx _ _ _) fun _ => .pure _
  | assign name value =>
    exact .bind (evaluate_client ctx _) fun _ => .bind (writeRegister_client _ _) fun _ => .pure _
  | function name body => exact .bind (newFunction_client _ _) fun _ => .pure _
  | classDefinition c => exact .bind (evaluateClass_madeOf ctx hcall c) fun _ => .pure _
  | replaceInitializer cls name initializer =>
    exact .bind (evaluate_client ctx _) fun _ => .bind (classIdOf_client _) fun id =>
      .bind (evaluate_client ctx _) fun v =>
        .bind (hcall (.replace id v.propertyKey initializer)) fun _ => .pure _
  | defineProperty object key property =>
    exact .bind (evaluate_client ctx _) fun _ => .bind (evaluate_client ctx _) fun _ =>
      .bind (evaluateProperty_client ctx _) fun _ => .bind (objectOf_client _) fun _ =>
        .bind (Hosts.define _ _ _) fun _ => .pure _
  | primitive op args =>
    exact .bind (evaluateAll_client ctx _) fun _ => performPrimitive_client _ _ _
  | reentry op args =>
    exact .bind (evaluateAll_client ctx _) fun _ => performReentry_madeOf ctx hcall _ _

end Calls

end Expressions

end Hosts

section Client

variable {settings : Settings} (ctx : Context)

/-- For client code a call is an operation as a whole, whatever it is made of itself. -/
theorem call_client (c : Call α) :
    MadeOf Effect.IsClient (Call.operations settings) fun perform => c.run settings perform :=
  .operation ⟨c, rfl⟩

/-- **Client code is made of client effects, evaluations and calls.** -/
theorem evaluateExpr_client (e : Expr) :
    MadeOf Effect.IsClient (Call.operations settings) fun perform =>
      evaluateExpr settings perform ctx e :=
  evaluateExpr_madeOf ctx (fun _ => call_client) e

end Client

end ClassMachine
