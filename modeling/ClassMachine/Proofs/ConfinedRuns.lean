import ClassMachine.Proofs.Chronicle
import ClassMachine.Proofs.Confinement
import ClassMachine.Proofs.Moments
import ClassMachine.Proofs.Stages

/-!
# Runs of confined client code

Every operation of the machine respects what is hidden, if its arguments do. The traversal below
follows the definitions of the operations, from those on single objects to the levels of tasks.
It has to be made by itself, since it is about values: it says of every argument and of every
answer where it may lead.

Main statements: `ClassMachine.interpretUntil_respects`, and that no reference dangles at the
moments of a program, `ClassMachine.Occurs.closed`.
-/

namespace ClassMachine

variable {α β : Type}

/-! ### Tasks -/

section Tasks

variable (H : ObjectId → Prop)

/-- What the task is given leads to objects that are seen. -/
def Task.Visible (n : Nat) : Task α → Prop
  | .eval _ ctx => ctx.Visible H n
  | .construct _ _ args => ∀ v ∈ args, v.Visible H n

/-- What the task answers with leads to objects that are seen. -/
def Task.Answers : Task α → Nat → α → Prop
  | .eval .. => Value.Visible H
  | .construct .. => Seen H

end Tasks

/-- The contract of all tasks: they respect what is hidden, whatever it is. -/
def reachContract : Contract where
  Holds _ task m r m' := ∀ H, m.Hides H → task.Visible H m.store.size →
    m.Spares H m' ∧ ∀ a, r = some (.ok a) → task.Answers H m'.store.size a
  start _ _ := fun _ hm _ => ⟨.refl hm, by simp⟩
  late h := fun H hm htask => ⟨(h H hm htask).1, by simp⟩

variable {H : ObjectId → Prop} {n : Nat}

/-! ### Single steps -/

section Steps

/-- An object that is seen leads to others that are seen. -/
theorem objectAt_respects {id : ObjectId} (hid : Seen H n id) :
    (objectAt id).Respects H n (Object.Visible H) := by
  refine .bind .get fun n₁ hn₁ m hm => .pure fun n₂ hn₂ => ?_
  obtain ⟨rfl, hm⟩ := hm
  exact (hm.objects id (hid.mono hn₁)).mono hn₂

/-- A new object is seen from now on. -/
theorem newObject_respects (kind : ObjectKind) {prototype : Option ObjectId}
    (hprototype : ∀ q ∈ prototype, Seen H n q) :
    (newObject kind prototype).Respects H n (Seen H) := by
  refine .effects fun m hn hm => ⟨.ok m.store.size, [.object kind prototype], ?_, rfl, ?_⟩
  · exact List.forall_mem_singleton.mpr fun q hq => (hprototype q hq).mono hn
  · rintro _ ⟨⟩
    exact hm.seen_size (by simp [Effect.apply])

theorem newFunction_respects (name : String) (body : Expr) :
    (newFunction name body).Respects H n fun _ _ => True :=
  .effects fun _ _ _ => ⟨_, [.function], by simp [Effect.Visible], rfl, fun _ _ => trivial⟩

theorem writeRegister_respects (name : String) {v : Value} (hv : v.Visible H n) :
    (writeRegister name v).Respects H n fun _ _ => True :=
  .effects fun _ hn _ => ⟨_, [.write name v], List.forall_mem_singleton.mpr (hv.mono hn), rfl,
    fun _ _ => trivial⟩

/-- Client code cannot read the log, so its entries may show anything. -/
theorem writeLog_respects (entry : Entry) :
    (writeLog entry).Respects H n fun _ _ => True :=
  .effects fun _ _ _ => ⟨_, [.log entry], by simp [Effect.Visible], rfl, fun _ _ => trivial⟩

/-- The value of a new property has to be visible. -/
theorem defineOn_respects {id : ObjectId} (hid : Seen H n id) (key : String) {p : Property}
    (hp : p.Visible H n) : (defineOn id key p).Respects H n fun _ _ => True := by
  refine .effects fun m hn hm => ?_
  rw [outcome_defineOn]
  cases h : (m.store.object id).define key p with
  | ok o =>
    refine ⟨.ok ⟨⟩, [.define id key p], List.forall_mem_singleton.mpr ⟨hid.mono hn, hp.mono hn⟩, ?_,
      fun _ _ => trivial⟩
    simp [Effect.apply, h]
  | error f => exact ⟨_, [.note (.raised f)], by simp [Effect.Visible], rfl, by simp⟩

theorem defineForClient_respects {id : ObjectId} (hid : Seen H n id) (key : String)
    {p : Property} (hp : p.Visible H n) :
    (defineForClient id key p).Respects H n fun _ _ => True :=
  (defineOn_respects hid key hp).bind fun _ _ _ _ => .note _

theorem deleteFrom_respects {id : ObjectId} (hid : Seen H n id) (key : String) :
    (deleteFrom id key).Respects H n fun _ _ => True :=
  .effects fun _ hn _ => ⟨_, [.delete id key, .note (.changed id)],
    by simpa [Effect.Visible] using hid.mono hn, rfl, fun _ _ => trivial⟩

theorem preventExtensions_respects {id : ObjectId} (hid : Seen H n id) :
    (preventExtensions id).Respects H n fun _ _ => True :=
  .effects fun _ hn _ => ⟨_, [.close id, .note (.changed id)],
    by simpa [Effect.Visible] using hid.mono hn, rfl, fun _ _ => trivial⟩

/-- A new link has to lead to an object that is seen. -/
theorem setPrototype_respects {id : ObjectId} (hid : Seen H n id) {prototype : Option ObjectId}
    (hprototype : ∀ q ∈ prototype, Seen H n q) :
    (setPrototype id prototype).Respects H n fun _ _ => True :=
  .effects fun _ hn _ => ⟨_, [.relink id prototype],
    List.forall_mem_singleton.mpr ⟨hid.mono hn, fun q hq => (hprototype q hq).mono hn⟩, rfl,
    fun _ _ => trivial⟩

/-- The two objects of a class are seen. -/
theorem classAt_respects (id : ClassId) : (classAt id).Respects H n (Class.Visible H) := by
  refine .bind .get fun n₁ _ m hm => .demand fun c hc n₂ hn₂ => ?_
  obtain ⟨rfl, hm⟩ := hm
  rw [Registry.require] at hc
  split at hc
  next c' hc' =>
    obtain rfl := Except.ok.inj hc
    exact (hm.classes id c' hc').mono hn₂
  next => simp at hc

/-- The object of the innermost frame is seen, if it has one. -/
theorem currentFrame_respects : currentFrame.Respects H n (Frame.Visible H) := by
  refine .bind .get fun n₁ _ m hm => ?_
  obtain ⟨rfl, hm⟩ := hm
  split
  next f rest hf =>
    have hvisible : f.Visible H m.store.size := hm.frames f (hf ▸ List.mem_cons_self)
    exact .pure fun _ hn₂ => hvisible.mono hn₂
  next => exact .raise _

theorem putFrame_respects {f : Frame} (hf : f.Visible H n) :
    (putFrame f).Respects H n fun _ _ => True :=
  .effects fun _ hn _ => ⟨_, [.frame f], List.forall_mem_singleton.mpr (hf.mono hn), rfl,
    fun _ _ => trivial⟩

theorem pushFrame_respects {f : Frame} (hf : f.Visible H n) :
    (pushFrame f).Respects H n fun _ _ => True :=
  .effects fun _ hn _ => ⟨_, [.push f], List.forall_mem_singleton.mpr (hf.mono hn), rfl,
    fun _ _ => trivial⟩

/-- The object of a frame that is taken off is still seen. -/
theorem popFrame_respects : popFrame.Respects H n (Frame.Visible H) := by
  refine .effects fun m hn hm => ?_
  rw [outcome_popFrame]
  split
  next f rest hf =>
    refine ⟨.ok f, [.pop], by simp [Effect.Visible], by simp [Effect.apply, hf], ?_⟩
    rintro _ ⟨⟩
    exact hm.frames f (hf ▸ List.mem_cons_self)
  next => exact ⟨_, [.note (.raised .frameLost)], by simp [Effect.Visible], rfl, by simp⟩

theorem enterPhase_respects (phase : Phase) :
    (enterPhase phase).Respects H n fun _ _ => True :=
  currentFrame_respects.bind fun _ _ _ hf => putFrame_respects hf

/-- An object that is bound has to be seen. -/
theorem bindThis_respects {this : ObjectId} (hthis : Seen H n this) (phase : Phase) :
    (bindThis this phase).Respects H n fun _ _ => True := by
  refine currentFrame_respects.bind fun n₁ hn₁ f _ =>
    .bind (P := Frame.Visible H) (.demand fun f' hf' n₂ hn₂ => ?_) fun _ _ _ hf =>
      putFrame_respects hf
  obtain ⟨-, rfl⟩ := Frame.bind?_eq_ok_iff.mp hf'
  rintro _ ⟨⟩
  exact hthis.mono (Nat.le_trans hn₁ hn₂)

theorem thisObject_respects : thisObject.Respects H n (Seen H) := by
  refine currentFrame_respects.bind fun n₁ _ f hf => ?_
  split
  next o ho => exact .pure fun _ hn₂ => (hf o ho).mono hn₂
  next => exact .raise _

end Steps

/-! ### Reading, assigning and calling -/

section Access

variable {perform : Performer}
  (hp : ∀ ⦃γ : Type⦄ (task : Task γ) (k : Nat), task.Visible H k →
    (perform task).Respects H k (task.Answers H))

include hp

/-- A function is given visible values, so its body respects what is hidden. -/
theorem callFunction_respects (f : Function) {receiver : Value} {args : List Value}
    (hreceiver : receiver.Visible H n) (hargs : ∀ v ∈ args, v.Visible H n) :
    (callFunction perform f receiver args).Respects H n (Value.Visible H) :=
  hp (.eval f.body { receiver, args }) n ⟨hreceiver, hargs⟩

/-- A search starts at an object that is seen and finds what is visible. -/
theorem readFrom_respects {id : ObjectId} (hid : Seen H n id) (key : String) {receiver : Value}
    (hreceiver : receiver.Visible H n) :
    (readFrom perform id key receiver).Respects H n (Value.Visible H) := by
  refine .bind .get fun n₁ hn₁ m hm => ?_
  obtain ⟨rfl, hm⟩ := hm
  have hfound {owner : ObjectId} {p : Property} (h : m.store.search key id = .owned owner p) :
      p.Visible H m.store.size :=
    Store.visible_of_searchFrom hm.objects (by simpa using hid.mono hn₁) h
  split
  next h => exact .pure fun _ hn₂ => Value.Visible.mono hn₂ (hfound h)
  · exact callFunction_respects hp _ (hreceiver.mono hn₁) (by simp)
  · exact .pure fun _ _ => trivial
  · exact .pure fun _ _ => trivial
  · exact .breakOff

omit hp in
/-- An assignment changes the value of a property and nothing else that could lead anywhere. -/
theorem visible_assigned {old : Option Property} {value : Value} (hvalue : value.Visible H n) :
    (Property.assigned old value).Visible H n := by
  unfold Property.assigned
  split <;> exact hvalue

omit hp in
theorem assignOwn_respects {id : ObjectId} (hid : Seen H n id) (key : String) {value : Value}
    (hvalue : value.Visible H n) : (assignOwn id key value).Respects H n fun _ _ => True :=
  (objectAt_respects hid).bind fun _ hn₁ _ _ =>
    defineForClient_respects (hid.mono hn₁) key (visible_assigned (hvalue.mono hn₁))

/-- A setter gets the receiver and the value; otherwise the value becomes a property. -/
theorem assignTo_respects {id : ObjectId} (hid : Seen H n id) (key : String) {value : Value}
    (hvalue : value.Visible H n) :
    (assignTo perform id key value).Respects H n fun _ _ => True := by
  refine .bind .get fun n₁ hn₁ m hm => ?_
  split
  · have hreceiver : (Value.ref id).Visible H n₁ := Seen.mono hn₁ hid
    exact (callFunction_respects hp _ hreceiver
      (List.forall_mem_singleton.mpr (hvalue.mono hn₁))).discard
  · exact .raise _
  · exact .raise _
  · exact assignOwn_respects (hid.mono hn₁) key (hvalue.mono hn₁)
  · exact assignOwn_respects (hid.mono hn₁) key (hvalue.mono hn₁)
  · exact .breakOff

theorem readProperty_respects {target : Value} (htarget : target.Visible H n) (key : String) :
    (readProperty perform target key).Respects H n (Value.Visible H) := by
  cases target with
  | ref id => exact readFrom_respects hp htarget key htarget
  | undefined | null => exact .raise _
  | bool | number | str | function => exact .pure fun _ _ => trivial

theorem assignProperty_respects {target : Value} (htarget : target.Visible H n) (key : String)
    {value : Value} (hvalue : value.Visible H n) :
    (assignProperty perform target key value).Respects H n fun _ _ => True := by
  cases target with
  | ref id => exact assignTo_respects hp htarget key hvalue
  | _ => exact .raise _

theorem callValue_respects (callee : Value) {receiver : Value} {args : List Value}
    (hreceiver : receiver.Visible H n) (hargs : ∀ v ∈ args, v.Visible H n) :
    (callValue perform callee receiver args).Respects H n (Value.Visible H) := by
  cases callee with
  | function f => exact callFunction_respects hp f hreceiver hargs
  | _ => exact .raise _

/-- What is invoked need not be looked at: a function leads nowhere by itself. -/
theorem invokeMethod_respects {receiver : Value} {args : List Value}
    (hreceiver : receiver.Visible H n) (key : String) (hargs : ∀ v ∈ args, v.Visible H n) :
    (invokeMethod perform receiver key args).Respects H n (Value.Visible H) :=
  (readProperty_respects hp hreceiver key).bind fun _ hn₁ callee _ =>
    callValue_respects hp callee (hreceiver.mono hn₁) (visible_args_mono hn₁ hargs)

end Access

/-! ### Primitive operations -/

section Primitives

/-- An argument that is missing is undefined. -/
theorem visible_argAt {args : List Value} (hargs : ∀ v ∈ args, v.Visible H n) (i : Nat) :
    (argAt args i).Visible H n := by
  rw [argAt, List.getD_eq_getElem?_getD]
  cases h : args[i]? with
  | none => trivial
  | some v => exact hargs v (List.mem_of_getElem? h)

/-- A value that is taken for a link leads to what it leads to as a value. -/
theorem seen_linkOf {v : Value} (hv : v.Visible H n) : ∀ q ∈ linkOf v, Seen H n q := by
  cases v with
  | ref id =>
    rintro _ ⟨⟩
    exact hv
  | _ => simp [linkOf]

theorem visible_ofLink {prototype : Option ObjectId} (h : ∀ q ∈ prototype, Seen H n q) :
    (Value.ofLink prototype).Visible H n := by
  cases prototype with
  | none => trivial
  | some q => exact h q rfl

theorem objectOf_respects {v : Value} (hv : v.Visible H n) :
    (objectOf v).Respects H n (Seen H) := by
  cases v with
  | ref id => exact .pure fun _ hn₁ => Seen.mono hn₁ hv
  | _ => exact .raise _

theorem classIdOf_respects (v : Value) : (classIdOf v).Respects H n fun _ _ => True := by
  unfold classIdOf
  split
  · exact .pure fun _ _ => trivial
  · exact .raise _

/-- The answer is a truth value, and nothing is changed. -/
theorem instanceOf_respects (v : Value) (cls : ClassId) :
    (instanceOf v cls).Respects H n fun _ _ => True := by
  refine (classAt_respects cls).bind fun _ _ c _ => ?_
  split
  · refine .bind .get fun _ _ m _ => ?_
    split
    · exact .pure fun _ _ => trivial
    · exact .breakOff
  · exact .pure fun _ _ => trivial

theorem dump_respects (v : Value) {n : Nat} (hv : v.Visible H n) :
    (dump v).Respects H n fun _ _ => True := by
  cases v with
  | ref id => exact (objectAt_respects hv).bind fun _ _ _ _ => writeLog_respects _
  | _ => exact writeLog_respects _

theorem refuse_respects (v : Value) (expected : Expectation) {P : Nat → α → Prop} :
    (refuse v expected : Action α).Respects H n P :=
  .bind .get fun _ _ _ _ => .raise _

/-- Registers hold visible values. -/
theorem readRegister_respects (name : String) :
    (readRegister name).Respects H n (Value.Visible H) := by
  refine .bind .get fun n₁ _ m hm => .pure fun n₂ hn₂ => ?_
  obtain ⟨rfl, hm⟩ := hm
  rw [Std.ExtTreeMap.getD_eq_getD_getElem?]
  cases h : m.registers[name]? with
  | none => trivial
  | some v => exact (hm.registers name v h).mono hn₂

variable {ctx : Context} (hctx : ctx.Visible H n) {args : List Value}
  (hargs : ∀ v ∈ args, v.Visible H n)

include hctx hargs

/-- **Primitive operations** give client code no way to objects that it cannot see. -/
theorem performPrimitive_respects (op : Primitive) :
    (performPrimitive ctx op args).Respects H n (Value.Visible H) := by
  have hfirst := visible_argAt hargs 0
  have hsecond := visible_argAt hargs 1
  have hthird := visible_argAt hargs 2
  -- an answer that is no reference
  have plain {γ : Type} {x : Action γ} {P : Nat → γ → Prop} {f : γ → Value}
      (hx : x.Respects H n P) (hf : ∀ a k, (f a).Visible H k) :
      (x >>= fun a => pure (f a)).Respects H n (Value.Visible H) :=
    hx.bind fun _ _ a _ => .pure fun k _ => hf a k
  cases op with
  | register => exact readRegister_respects _
  | log => exact plain (writeLog_respects _) fun _ _ => trivial
  | dump => exact plain (dump_respects _ hfirst) fun _ _ => trivial
  | describe =>
    exact (classIdOf_respects _).bind fun _ _ _ _ => .bind .get fun _ _ _ _ =>
      (writeLog_respects _).bind fun _ _ _ _ => .pure fun _ _ => trivial
  | receiver => exact .pure fun _ hn₁ => hctx.receiver.mono hn₁
  | argument =>
    refine .pure fun n₁ hn₁ => ?_
    split
    · exact visible_argAt (visible_args_mono hn₁ hctx.args) _
    · trivial
  | argumentCount | add | less | equal | concat | key => exact .pure fun _ _ => trivial
  | debug => exact plain .get fun _ _ => trivial
  | expectNumber | expectString =>
    simp only [performPrimitive]
    split
    · exact .pure fun _ _ => trivial
    · exact refuse_respects _ _
  | expectObject =>
    simp only [performPrimitive]
    split
    next id h => exact .pure fun _ hn₁ => Value.Visible.mono hn₁ (h ▸ hfirst)
    · exact refuse_respects _ _
  | this => exact thisObject_respects.bind fun _ _ o ho => .pure fun _ hn₂ => Seen.mono hn₂ ho
  | phase =>
    refine .bind .get fun _ _ m _ => ?_
    split <;> exact .pure fun _ _ => trivial
  | throw => exact .raise _
  | instanceOf =>
    exact (classIdOf_respects _).bind fun _ _ _ _ =>
      (instanceOf_respects _ _).bind fun _ _ _ _ => .pure fun _ _ => trivial
  | classId =>
    refine .bind .get fun _ _ m _ => ?_
    split <;> exact .pure fun _ _ => trivial
  | classCount => exact plain .get fun _ _ => trivial
  | classObject =>
    exact (classIdOf_respects _).bind fun _ _ _ _ => (classAt_respects _).bind fun _ _ c hc =>
      .pure fun _ hn₂ => hc.classObject.mono hn₂
  | prototype =>
    exact (classIdOf_respects _).bind fun _ _ _ _ => (classAt_respects _).bind fun _ _ c hc =>
      .pure fun _ hn₂ => hc.prototype.mono hn₂
  | newObject =>
    exact (newObject_respects .ordinary (seen_linkOf hfirst)).bind fun _ _ o ho =>
      .pure fun _ hn₂ => Seen.mono hn₂ ho
  | createProperty | createHidden =>
    refine (objectOf_respects hfirst).bind fun _ hn₁ id hid =>
      (defineForClient_respects hid _ ?_).bind fun _ _ _ _ => .pure fun _ _ => trivial
    exact Value.Visible.mono hn₁ hthird
  | delete =>
    exact (objectOf_respects hfirst).bind fun _ _ id hid =>
      (deleteFrom_respects hid _).bind fun _ _ _ _ => .pure fun _ _ => trivial
  | hasOwn | isExtensible | ownKeys =>
    exact (objectOf_respects hfirst).bind fun _ _ id hid =>
      (objectAt_respects hid).bind fun _ _ _ _ => .pure fun _ _ => trivial
  | preventExtensions =>
    exact (objectOf_respects hfirst).bind fun _ _ id hid =>
      (preventExtensions_respects hid).bind fun _ _ _ _ => .pure fun _ _ => trivial
  | prototypeOf =>
    exact (objectOf_respects hfirst).bind fun _ _ id hid =>
      (objectAt_respects hid).bind fun _ _ o ho => .pure fun _ hn₂ =>
        visible_ofLink fun q hq => (ho.prototype q hq).mono hn₂
  | setPrototype =>
    exact (objectOf_respects hfirst).bind fun _ hn₁ id hid =>
      (setPrototype_respects hid fun q hq => (seen_linkOf hsecond q hq).mono hn₁).bind
        fun _ _ _ _ => .pure fun _ _ => trivial

end Primitives

/-! ### Constructions -/

section Constructions

variable {settings : Settings} {perform : Performer}
  (hp : ∀ ⦃γ : Type⦄ (task : Task γ) (k : Nat), task.Visible H k →
    (perform task).Respects H k (task.Answers H))

include hp

/-- The initializer gets its target as the receiver, and the target is seen. -/
theorem installField_respects {target : ObjectId} (htarget : Seen H n target)
    (record : FieldRecord) : (installField perform target record).Respects H n fun _ _ => True := by
  have hreceiver : (Value.ref target).Visible H n := htarget
  have hvalue : (fieldValue perform target record).Respects H n (Value.Visible H) := by
    unfold fieldValue
    split
    · exact hp (.eval _ { receiver := .ref target }) n ⟨hreceiver, by simp⟩
    · exact readFrom_respects hp htarget _ hreceiver
  exact hvalue.bind fun _ hn₁ _ hv =>
    (defineOn_respects (p := .plain _) (htarget.mono hn₁) _ hv).bind fun _ _ _ _ => .note _

/-- The target is seen all the time, though more objects may come. -/
theorem installFields_respects (activity : FieldRecord → Activity) {target : ObjectId}
    (htarget : Seen H n target) (records : List FieldRecord) :
    (installFields perform activity target records).Respects H n fun _ _ => True := by
  induction records generalizing n with
  | nil => exact .pure fun _ _ => trivial
  | cons record rest ih =>
    exact (Action.Respects.during _ (installField_respects hp htarget record)
      fun _ _ _ _ => id).bind fun _ hn₁ _ _ => ih (htarget.mono hn₁)

theorem installInstanceFields_respects {this : ObjectId} (hthis : Seen H n this) (cls : ClassId) :
    (installInstanceFields perform this cls).Respects H n fun _ _ => True :=
  (classAt_respects cls).bind fun _ hn₁ _ _ => .bind .get fun _ hn₂ _ _ =>
    (Action.Respects.note _).bind fun _ hn₃ _ _ => installFields_respects hp _
      (hthis.mono (Nat.le_trans hn₁ (Nat.le_trans hn₂ hn₃))) _

theorem adopt_respects {this : ObjectId} (hthis : Seen H n this) (cls : ClassId) (phase : Phase) :
    (adopt perform this cls phase).Respects H n fun _ _ => True :=
  (bindThis_respects hthis phase).bind fun _ hn₁ _ _ =>
    (installInstanceFields_respects hp (hthis.mono hn₁) cls).bind fun _ _ _ _ =>
      (enterPhase_respects _).bind fun _ _ _ _ => enterPhase_respects _

omit hp in
/-- An instance is a new object with a link that is seen. -/
theorem allocate_respects (newTarget : ClassId) :
    (allocate newTarget).Respects H n (Seen H) := by
  refine (classAt_respects newTarget).bind fun _ _ c hc =>
    (newObject_respects _ fun q hq => ?_).bind fun _ _ this hthis =>
      (Action.Respects.note _).bind fun _ hn₃ _ _ => .pure fun _ hn₄ =>
        hthis.mono (Nat.le_trans hn₃ hn₄)
  obtain rfl := Option.some.inj hq
  exact hc.prototype

variable {args : List Value} (hargs : ∀ v ∈ args, v.Visible H n)

include hargs

/-- The construction through the parent answers with an object that is seen. -/
theorem superCall_respects : (superCall perform args).Respects H n (Seen H) := by
  refine currentFrame_respects.bind fun _ hn₁ f _ => (classAt_respects f.cls).bind
    fun _ hn₂ c _ => ?_
  have hargs := visible_args_mono (Nat.le_trans hn₁ hn₂) hargs
  split
  · exact .raise _
  next parent _ =>
    exact (hp (.construct parent f.newTarget args) _ hargs).bind fun _ _ this hthis =>
      (adopt_respects hp hthis f.cls .thisBound).bind fun _ hn₄ _ _ =>
        (Action.Respects.note _).bind fun _ hn₅ _ _ => .pure fun _ hn₆ =>
          Seen.mono (Nat.le_trans hn₄ (Nat.le_trans hn₅ hn₆)) hthis

theorem runBody_respects (cls : ClassId) (this : Option ObjectId) (body : Expr) :
    (runBody perform cls this body args).Respects H n fun _ _ => True :=
  (Action.Respects.note _).bind fun _ hn₁ _ _ =>
    (hp (.eval body { args }) _ ⟨trivial, visible_args_mono hn₁ hargs⟩).discard

/-- Constructors are given visible arguments and hand them on. -/
theorem runConstructor_respects (cls newTarget : ClassId) :
    (runConstructor perform cls newTarget args).Respects H n fun _ _ => True := by
  refine (classAt_respects cls).bind fun _ hn₁ c _ => ?_
  have hargs := visible_args_mono hn₁ hargs
  split
  · refine (allocate_respects newTarget).bind fun _ hn₂ this hthis =>
      (adopt_respects hp hthis cls .allocated).bind fun _ hn₃ _ _ => ?_
    split
    · exact runBody_respects hp (visible_args_mono (Nat.le_trans hn₂ hn₃) hargs) _ _ _
    · exact .pure fun _ _ => trivial
  · split
    · exact runBody_respects hp hargs _ _ _
    · exact (superCall_respects hp hargs).discard

/-- The object that a frame has bound in the end is seen, and it is the answer. -/
theorem constructFor_respects (cls newTarget : ClassId) :
    (constructFor settings perform cls newTarget args).Respects H n (Seen H) := by
  refine (Action.Respects.note _).bind fun _ hn₁ _ _ => .bind .get fun _ hn₂ m _ => ?_
  split
  · exact .raise _
  · refine (pushFrame_respects (by simp [Frame.Visible])).bind fun _ hn₃ _ _ => ?_
    have hargs := visible_args_mono (Nat.le_trans hn₁ (Nat.le_trans hn₂ hn₃)) hargs
    refine (runConstructor_respects hp hargs cls newTarget).observe.bind fun _ _ outcome _ =>
      popFrame_respects.bind fun _ _ f hf => .bind (.settle fun _ _ _ _ => trivial)
        (P := fun _ _ => True) fun _ hn₆ _ _ => .demand fun o ho _ hn₇ => ?_
    unfold Frame.result at ho
    split at ho
    next o' ho' =>
      obtain rfl := Except.ok.inj ho
      exact (hf o' ho').mono (Nat.le_trans hn₆ hn₇)
    next => simp at ho

theorem construct_respects (cls : ClassId) :
    (construct settings perform cls args).Respects H n (Seen H) := by
  have hannounce : (announceConstruction settings cls).Respects H n fun _ _ => True := by
    refine .bind .get fun _ _ m _ => ?_
    split
    · exact .note _
    · split
      · exact .raise _
      · exact .pure fun _ _ => trivial
  exact hannounce.bind fun _ hn₁ _ _ =>
    (constructFor_respects hp (visible_args_mono hn₁ hargs) cls cls).bind fun _ _ this hthis =>
      (Action.Respects.note _).bind fun _ hn₃ _ _ => .pure fun _ hn₄ =>
        Seen.mono (Nat.le_trans hn₃ hn₄) hthis

/-- The class object that is called is seen, but only its number matters. -/
theorem constructValue_respects {callee : Value} (hcallee : callee.Visible H n) :
    (constructValue settings perform callee args).Respects H n (Seen H) := by
  have hcalled : (calledClass callee).Respects H n fun _ _ => True := by
    unfold calledClass
    cases callee with
    | ref id =>
      refine (objectAt_respects hcallee).bind fun _ _ o _ => ?_
      split
      · exact .pure fun _ _ => trivial
      · exact .raise _
    | _ => exact .raise _
  exact hcalled.bind fun _ hn₁ cls _ => construct_respects hp (visible_args_mono hn₁ hargs) cls

end Constructions

/-! ### Definitions -/

section Definitions

variable {perform : Performer}
  (hp : ∀ ⦃γ : Type⦄ (task : Task γ) (k : Nat), task.Visible H k →
    (perform task).Respects H k (task.Answers H))

/-- The objects that methods live on are seen. -/
def Homes.Visible (H : ObjectId → Prop) (n : Nat) (homes : Homes) : Prop :=
  ∀ isStatic, Seen H n (homes.home isStatic)

/-- The two objects of a class are new and linked to those of its parent, which are seen. -/
theorem makeHomes_respects (id : ClassId) (name : Option String) {parent : Option Class}
    (hparent : ∀ c ∈ parent, c.Visible H n) :
    (makeHomes id name parent).Respects H n (Homes.Visible H) := by
  have hlink {f : Class → ObjectId} (hf : ∀ c : Class, c.Visible H n → Seen H n (f c)) :
      ∀ q ∈ parent.map f, Seen H n q := by
    intro q hq
    obtain ⟨c, hc, rfl⟩ := Option.map_eq_some_iff.mp hq
    exact hf c (hparent c hc)
  have hlinkPrototype := hlink fun _ hc => hc.prototype
  have hlinkClassObject := hlink fun _ hc => hc.classObject
  refine (newObject_respects _ hlinkPrototype).bind fun n₁ hn₁ prototype hprototype => ?_
  refine (newObject_respects _ fun q hq => (hlinkClassObject q hq).mono hn₁).bind
    fun n₂ hn₂ classObject hclassObject => ?_
  have hown : (Property.data (.ref prototype) false false false).Visible H n₂ :=
    hprototype.mono hn₂
  refine (defineOn_respects hclassObject _ hown).bind fun n₃ hn₃ _ _ => ?_
  have hhomes {n₄ : Nat} (hn₄ : n₃ ≤ n₄) : Homes.Visible H n₄ { prototype, classObject } := by
    intro isStatic
    cases isStatic with
    | false => exact hprototype.mono (Nat.le_trans hn₂ (Nat.le_trans hn₃ hn₄))
    | true => exact hclassObject.mono (Nat.le_trans hn₃ hn₄)
  cases name with
  | some name =>
    have hname : (Property.data (.str name) false false true).Visible H n₃ := trivial
    exact (defineOn_respects (hclassObject.mono hn₃) _ hname).bind fun _ hn₄ _ _ =>
      .pure fun _ hn₅ => hhomes (Nat.le_trans hn₄ hn₅)
  | none => exact .pure fun _ hn₄ => hhomes hn₄

/-- Methods and accessors lead nowhere by themselves. -/
theorem visible_ofMethod (kind : MethodKind) (f : Function) (old : Option Property) :
    (Property.ofMethod kind f old).Visible H n := by
  cases kind <;> trivial

theorem defineMethod_respects {home : ObjectId} (hhome : Seen H n home) (name : String)
    (kind : MethodKind) (f : Function) :
    (defineMethod home name kind f).Respects H n fun _ _ => True :=
  (objectAt_respects hhome).bind fun _ hn₁ _ _ =>
    defineOn_respects (hhome.mono hn₁) name (visible_ofMethod kind f _)

/-- A class may be registered if its objects are seen. -/
theorem registerClass_respects {c : Class} (hc : c.Visible H n) :
    (registerClass c).Respects H n fun _ _ => True :=
  .effects fun _ hn _ => ⟨_, [.register c, .note (.registered c)],
    by simpa [Effect.Visible] using hc.mono hn, rfl, fun _ _ => trivial⟩

theorem withdrawClass_respects (id : ClassId) (shadowed : Option ClassId) :
    (withdrawClass id shadowed).Respects H n fun _ _ => True :=
  .effects fun m _ _ => ⟨_,
    [.withdraw id shadowed, .note (.withdrawn id (m.registry.hasSubclass id))],
    by simp [Effect.Visible], rfl, fun _ _ => trivial⟩

theorem drawClassId_respects : drawClassId.Respects H n fun _ _ => True :=
  .effects fun _ _ _ => ⟨_, [.draw, .note (.numbered _)], by simp [Effect.Visible], rfl,
    fun _ _ => trivial⟩

/-- The class keeps its objects, and an initializer is code. -/
theorem replaceInitializer_respects (id : ClassId) (field : String) (initializer : Option Expr) :
    (replaceInitializer id field initializer).Respects H n fun _ _ => True := by
  refine (Action.Respects.note _).bind fun _ _ _ _ => .bind .get fun _ _ m hm =>
    .bind (P := Class.Visible H) (.demand fun c hc _ hn₃ => ?_) fun _ _ c hc =>
      .bind (P := Class.Visible H) (.demand fun c' hc' _ hn₄ => ?_) fun _ _ c' hc' =>
        .bind (P := fun _ _ => True) (.effects fun _ hn₅ _ => ?_) fun _ _ _ _ => .note _
  · obtain ⟨rfl, hm⟩ := hm
    exact (hm.classes id c (Registry.requireForChange_eq_ok hc)).mono hn₃
  · obtain rfl := Class.replaceInitializer_eq_ok hc'
    exact ⟨hc.prototype.mono hn₄, hc.classObject.mono hn₄⟩
  · exact ⟨_, [.exchange c'], List.forall_mem_singleton.mpr (hc'.mono hn₅), rfl,
      fun _ _ => trivial⟩

include hp

/-- Methods are put onto objects that are seen, and names are texts. -/
theorem collectFields_respects (cls : ClassId) (className : String) {homes : Homes}
    (hhomes : homes.Visible H n) (elements : List ClassElement) :
    (collectFields perform cls className homes elements).Respects H n fun _ _ => True := by
  induction elements generalizing n with
  | nil => exact .pure fun _ _ => trivial
  | cons e rest ih =>
    have he : (evaluateElement perform cls className homes e).Respects H n fun _ _ => True := by
      cases e with
      | method name kind isStatic f =>
        exact (defineMethod_respects (hhomes isStatic) name kind f).bind fun _ _ _ _ =>
          .pure fun _ _ => trivial
      | field name isStatic initializer =>
        refine .bind (P := fun _ _ => True) ?_ fun _ _ _ _ => .pure fun _ _ => trivial
        cases name with
        | literal name => exact .pure fun _ _ => trivial
        | computed e =>
          exact (Action.Respects.during _ (hp (.eval e {}) n ⟨trivial, by simp⟩)
            fun _ _ _ hn => Value.Visible.mono hn).bind fun _ _ _ _ => .pure fun _ _ => trivial
    exact he.bind fun _ hn₁ _ _ => (ih fun isStatic => (hhomes isStatic).mono hn₁).bind
      fun _ _ _ _ => .pure fun _ _ => trivial

/-- The class that a definition amounts to has the objects that were made for it. -/
theorem prepareClass_respects (d : ClassDefinition) :
    (prepareClass perform d).Respects H n (Class.Visible H) := by
  refine (Action.Respects.note _).bind fun _ _ _ _ =>
    .bind (P := fun _ _ => True) (.demand fun _ _ _ _ => trivial) fun _ _ _ _ =>
      .bind .get fun _ _ m hm => .bind (P := fun k parent => ∀ c ∈ parent, Class.Visible H k c)
        (.demand fun parent hparent _ hn₄ => ?_) fun _ _ parent hparent =>
          drawClassId_respects.bind fun _ hn₅ id _ => ?_
  · obtain ⟨rfl, hm⟩ := hm
    intro c hc
    obtain ⟨id, hid⟩ := d.parent?_eq_ok hparent hc
    exact (hm.classes id c hid).mono hn₄
  · refine (makeHomes_respects id _ fun c hc => (hparent c hc).mono hn₅).bind
      fun _ _ homes hhomes => ?_
    refine (collectFields_respects hp id _ hhomes _).bind fun _ hn₇ fields _ =>
      .pure fun _ hn₈ => ?_
    have hhome (isStatic : Bool) := (hhomes isStatic).mono (Nat.le_trans hn₇ hn₈)
    exact ⟨hhome false, hhome true⟩

/-- Static fields are installed on the class object, which is seen. -/
theorem launchClass_respects {c : Class} (hc : c.Visible H n) :
    (launchClass perform c).Respects H n fun _ _ => True := by
  refine (registerClass_respects hc).bind fun _ hn₁ shadowed _ =>
    (installFields_respects hp _ (hc.classObject.mono hn₁) _).observe.bind fun _ _ r _ => ?_
  cases r with
  | ok _ => exact (Action.Respects.note _).bind fun _ _ _ _ => .pure fun _ _ => trivial
  | error e => exact (withdrawClass_respects _ _).bind fun _ _ _ _ => .throw e

theorem defineClass_respects (d : ClassDefinition) :
    (defineClass perform d).Respects H n fun _ _ => True :=
  (prepareClass_respects hp d).bind fun _ _ _ hc => launchClass_respects hp hc

end Definitions

/-! ### Expressions -/

section Expressions

variable {settings : Settings} {perform : Performer}
  (hp : ∀ ⦃γ : Type⦄ (task : Task γ) (k : Nat), task.Visible H k →
    (perform task).Respects H k (task.Answers H))
  {ctx : Context} (hctx : ctx.Visible H n)

include hp hctx

theorem evaluate_respects (e : Expr) :
    (evaluate perform ctx e).Respects H n (Value.Visible H) :=
  hp (.eval e ctx) n hctx

theorem evaluateOptional_respects (e : Option Expr) :
    (evaluateOptional perform ctx e).Respects H n (Value.Visible H) := by
  cases e with
  | some e => exact evaluate_respects hp hctx e
  | none => exact .pure fun _ _ => trivial

/-- Values that were visible are so after the later ones have been evaluated. -/
theorem evaluateAll_respects (es : List Expr) :
    (evaluateAll perform ctx es).Respects H n fun k vs => ∀ v ∈ vs, v.Visible H k := by
  induction es generalizing n with
  | nil => exact .pure fun _ _ => by simp
  | cons e es ih =>
    exact (evaluate_respects hp hctx e).bind fun _ hn₁ v hv => (ih (hctx.mono hn₁)).bind
      fun _ hn₂ vs hvs => .pure fun _ hn₃ => List.forall_mem_cons.mpr
        ⟨hv.mono (Nat.le_trans hn₂ hn₃), visible_args_mono hn₃ hvs⟩

theorem evaluateSequence_respects {last : Value} (hlast : last.Visible H n) (es : List Expr) :
    (evaluateSequence perform ctx last es).Respects H n (Value.Visible H) := by
  induction es generalizing n last with
  | nil => exact .pure fun _ hn₁ => hlast.mono hn₁
  | cons e es ih =>
    exact (evaluate_respects hp hctx e).bind fun _ hn₁ v hv => ih (hctx.mono hn₁) hv

/-- What is caught comes into the registers as texts. -/
theorem evaluateAttempt_respects (body : Expr) (handler : Option Expr) :
    (evaluateAttempt perform ctx body handler).Respects H n (Value.Visible H) := by
  refine (evaluate_respects hp hctx body).observe.bind fun _ hn₁ r hr => ?_
  cases r with
  | ok v => exact .pure fun _ hn₂ => (hr v rfl).mono hn₂
  | error e =>
    have htext (s : String) (k : Nat) : (Value.str s).Visible H k := trivial
    exact (Action.Respects.note _).bind fun _ hn₂ _ _ =>
      (writeRegister_respects "err" (htext _ _)).bind fun _ hn₃ _ _ =>
        (writeRegister_respects "kind" (htext _ _)).bind fun _ hn₄ _ _ =>
          evaluateOptional_respects hp (hctx.mono (Nat.le_trans hn₁ (Nat.le_trans hn₂
            (Nat.le_trans hn₃ hn₄)))) handler

theorem evaluateRounds_respects (body : Expr) (round left : Nat) :
    (evaluateRounds perform ctx body round left).Respects H n fun _ _ => True := by
  induction left generalizing n round with
  | zero => exact .pure fun _ _ => trivial
  | succ left ih =>
    have hround : (Value.ofNat round).Visible H n := trivial
    exact (writeRegister_respects "i" hround).bind fun _ hn₁ _ _ =>
      (evaluate_respects hp (hctx.mono hn₁) body).discard.bind fun _ hn₂ _ _ =>
        ih (hctx.mono (Nat.le_trans hn₁ hn₂)) (round + 1)

omit hp hctx in
theorem makeElements_respects (es : List ElementExpr) :
    (makeElements es).Respects H n fun _ _ => True := by
  induction es generalizing n with
  | nil => exact .pure fun _ _ => trivial
  | cons e es ih =>
    have he : (makeElement e).Respects H n fun _ _ => True := by
      cases e with
      | method => exact (newFunction_respects _ _).bind fun _ _ _ _ => .pure fun _ _ => trivial
      | field => exact .pure fun _ _ => trivial
    exact he.bind fun _ _ _ _ => ih.bind fun _ _ _ _ => .pure fun _ _ => trivial

/-- What a class is called and what it descends from may be any visible values. -/
theorem evaluateClass_respects (c : ClassExpr) :
    (evaluateClass perform ctx c).Respects H n fun _ _ => True := by
  have hname : (evaluateName perform ctx c.name).Respects H n fun _ _ => True := by
    cases c.name with
    | some e => exact (evaluate_respects hp hctx e).bind fun _ _ _ _ => .pure fun _ _ => trivial
    | none => exact .pure fun _ _ => trivial
  refine hname.bind fun _ hn₁ name _ => ?_
  have hheritage {k : Nat} (hk : n ≤ k) :
      (evaluateHeritage perform ctx c.heritage).Respects H k fun _ _ => True := by
    cases c.heritage with
    | some e =>
      exact (evaluate_respects hp (hctx.mono hk) e).bind fun _ _ _ _ => .pure fun _ _ => trivial
    | none => exact .pure fun _ _ => trivial
  exact (hheritage hn₁).bind fun _ _ heritage _ => (makeElements_respects _).bind
    fun _ _ elements _ => defineClass_respects hp _

omit hp hctx in
theorem accessorOf_respects (v : Value) : (accessorOf v).Respects H n fun _ _ => True := by
  cases v with
  | function | null => exact .pure fun _ _ => trivial
  | _ => exact .raise _

theorem evaluateProperty_respects (p : PropertyExpr) :
    (evaluateProperty perform ctx p).Respects H n (Property.Visible H) := by
  cases p with
  | data value =>
    exact (evaluate_respects hp hctx value).bind fun _ _ v hv => .pure fun _ hn₂ => hv.mono hn₂
  | accessor getter setter =>
    exact (evaluate_respects hp hctx getter).bind fun _ hn₁ _ _ =>
      (accessorOf_respects _).bind fun _ hn₂ _ _ =>
        (evaluate_respects hp (hctx.mono (Nat.le_trans hn₁ hn₂)) setter).bind fun _ _ _ _ =>
          (accessorOf_respects _).bind fun _ _ _ _ => .pure fun _ _ => trivial

/-- What client code calls gets its visible values and answers with one. -/
theorem performReentry_respects (op : Reentry) {args : List Value}
    (hargs : ∀ v ∈ args, v.Visible H n) :
    (performReentry settings perform ctx op args).Respects H n (Value.Visible H) := by
  have hfirst := visible_argAt hargs 0
  have hsecond := visible_argAt hargs 1
  have hthird := visible_argAt hargs 2
  have hrest (k : Nat) : ∀ v ∈ args.drop k, v.Visible H n :=
    fun v hv => hargs v (List.mem_of_mem_drop hv)
  -- an answer that is a new instance
  have object {x : Action ObjectId} {k : Nat} (hx : x.Respects H k (Seen H)) :
      (x >>= fun o => pure (Value.ref o)).Respects H k (Value.Visible H) :=
    hx.bind fun _ _ o ho => .pure fun _ hk => Seen.mono hk ho
  cases op with
  | super => exact object (superCall_respects hp hargs)
  | forwardSuper => exact object (superCall_respects hp hctx.args)
  | construct =>
    exact (classIdOf_respects _).bind fun _ hn₁ cls _ =>
      object (construct_respects hp (visible_args_mono hn₁ (hrest 1)) cls)
  | constructValue => exact object (constructValue_respects hp (hrest 1) hfirst)
  | get => exact readProperty_respects hp hfirst _
  | set =>
    exact (assignProperty_respects hp hfirst _ hthird).bind fun _ _ _ _ => .pure fun _ _ => trivial
  | call => exact callValue_respects hp _ hsecond (hrest 2)
  | invoke => exact invokeMethod_respects hp hfirst _ (hrest 2)
  | getFor =>
    exact (objectOf_respects hfirst).bind fun _ hn₁ id hid =>
      readFrom_respects hp hid _ (hthird.mono hn₁)

/-- **Every form of expression** respects what is hidden. -/
theorem evaluateExpr_respects (e : Expr) :
    (evaluateExpr settings perform ctx e).Respects H n (Value.Visible H) := by
  cases e with
  | literal l => cases l <;> exact .pure fun _ _ => trivial
  | malformed defect => exact .raise _
  | sequence steps =>
    have hlast : Value.undefined.Visible H n := trivial
    exact evaluateSequence_respects hp hctx hlast steps
  | choose condition yes no =>
    refine (evaluate_respects hp hctx condition).bind fun _ hn₁ v _ => ?_
    split
    · exact evaluate_respects hp (hctx.mono hn₁) yes
    · exact evaluateOptional_respects hp (hctx.mono hn₁) no
  | attempt body handler => exact evaluateAttempt_respects hp hctx body handler
  | loop rounds body =>
    exact (evaluateRounds_respects hp hctx body 0 rounds).bind fun _ _ _ _ =>
      .pure fun _ _ => trivial
  | assign name value =>
    exact (evaluate_respects hp hctx value).bind fun _ _ v hv =>
      (writeRegister_respects name hv).bind fun _ hn₂ _ _ => .pure fun _ hn₃ =>
        hv.mono (Nat.le_trans hn₂ hn₃)
  | function name body =>
    exact (newFunction_respects name body).bind fun _ _ _ _ => .pure fun _ _ => trivial
  | classDefinition c =>
    exact (evaluateClass_respects hp hctx c).bind fun _ _ _ _ => .pure fun _ _ => trivial
  | replaceInitializer cls name initializer =>
    exact (evaluate_respects hp hctx cls).bind fun _ hn₁ _ _ => (classIdOf_respects _).bind
      fun _ hn₂ id _ => (evaluate_respects hp (hctx.mono (Nat.le_trans hn₁ hn₂)) name).bind
        fun _ _ _ _ => (replaceInitializer_respects _ _ _).bind fun _ _ _ _ =>
          .pure fun _ _ => trivial
  | defineProperty object key property =>
    refine (evaluate_respects hp hctx object).bind fun _ hn₁ target htarget =>
      (evaluate_respects hp (hctx.mono hn₁) key).bind fun _ hn₂ _ _ =>
        (evaluateProperty_respects hp (hctx.mono (Nat.le_trans hn₁ hn₂)) property).bind
          fun _ hn₃ p hproperty => ?_
    exact (objectOf_respects (htarget.mono (Nat.le_trans hn₂ hn₃))).bind fun _ hn₄ id hid =>
      (defineForClient_respects hid _ (hproperty.mono hn₄)).bind fun _ _ _ _ =>
        .pure fun _ _ => trivial
  | primitive op args =>
    exact (evaluateAll_respects hp hctx args).bind fun _ hn₁ vs hvs =>
      performPrimitive_respects (hctx.mono hn₁) hvs op
  | reentry op args =>
    exact (evaluateAll_respects hp hctx args).bind fun _ hn₁ vs hvs =>
      performReentry_respects hp (hctx.mono hn₁) op hvs

end Expressions

/-! ### Levels -/

/-- A task that leads to what is seen does so when there are more objects. -/
theorem Task.Visible.mono {task : Task α} {n' : Nat} (h : task.Visible H n) (hn : n ≤ n') :
    task.Visible H n' := by
  cases task with
  | eval e ctx => exact Context.Visible.mono hn h
  | construct cls newTarget args => exact visible_args_mono hn h

/-- A performer that keeps the contract respects what is hidden. -/
theorem Performer.Keeps.respects {perform : Performer} (hp : perform.Keeps reachContract)
    (task : Task α) (htask : task.Visible H n) :
    (perform task).Respects H n (task.Answers H) := fun m hn hm =>
  (hp task m).mono fun _ _ h => h H hm (htask.mono hn)

/-- **Each level passes the contract on.** -/
theorem step_keeps_reach (settings : Settings) (perform : Performer)
    (hp : perform.Keeps reachContract) : (step settings perform).Keeps reachContract := by
  intro α task m
  refine fun H hm htask => ?_
  have hp : ∀ ⦃γ : Type⦄ (task : Task γ) (k : Nat), task.Visible H k →
      (perform task).Respects H k (task.Answers H) := fun _ task _ => hp.respects task
  cases task with
  | eval e ctx => exact evaluateExpr_respects hp htask e m (Nat.le_refl _) hm
  | construct cls newTarget args =>
    exact constructFor_respects hp htask cls newTarget m (Nat.le_refl _) hm

/-- **Runs respect what is hidden**, broken off or not. -/
theorem interpretUntil_respects (settings : Settings) (stop : Machine → Bool) (levels : Nat)
    (task : Task α) (htask : task.Visible H n) :
    (interpretUntil settings stop levels task).Respects H n (task.Answers H) :=
  (interpretUntil_keeps (step_keeps_reach settings) stop levels).respects task htask

/-! ### No reference dangles -/

/-- Nothing that client code can get at leads to an object that is not there. -/
def Machine.Closed (m : Machine) : Prop :=
  m.Hides fun _ => False

/-- In the beginning there is nothing that a reference could be in. -/
theorem Machine.initial_closed : Machine.initial.Closed where
  known _ := False.elim
  objects _ ho := absurd ho.1 (Nat.not_lt_zero _)
  registers name v hv := by simp [initial] at hv
  frames := by simp [initial]
  classes id c hc := by simp [initial, Registry.class?] at hc

/-- A step begins with an empty log, which nothing reads. -/
theorem Machine.Closed.clear {m : Machine} (h : m.Closed) : Closed { m with log := [] } :=
  ⟨h.known, h.objects, h.registers, h.frames, h.classes⟩

/-- A step has nothing at hand in the beginning. -/
theorem visible_step (H : ObjectId → Prop) (n : Nat) (e : Expr) :
    (Task.eval e {}).Visible H n :=
  ⟨trivial, by simp⟩

/-- **No reference dangles** between the steps of a program, nor at any moment of a step. -/
theorem closed_moments (settings : Settings) :
    (∀ m, AtRest settings m → m.Closed) ∧
      ∀ m, AtRest settings m → ∀ e stop levels, Machine.Closed
        ((interpretUntil settings stop levels (.eval e {})).outcome { m with log := [] }).2 := by
  have hrest : ∀ m, AtRest settings m → m.Closed :=
    (Contract.moments Machine.Closed (fun _ => True) (step_keeps_reach settings)
      Machine.initial_closed (fun _ => Machine.Closed.clear)
      (fun e m _ _ hm h => (h _ hm (visible_step _ _ e)).1.hides) (fun _ _ _ _ _ => trivial)
      fun _ _ _ _ => trivial).1
  refine ⟨hrest, fun m hm e stop levels => ?_⟩
  exact (interpretUntil_respects settings stop levels (.eval e {}) (visible_step _ 0 e) _
    (Nat.zero_le _) (hrest m hm).clear).1.hides

/-- The machines that occur in a program: those between its steps, those that broken off steps
leave, and what client code makes of them by itself. It does not make up references. -/
inductive Occurs (settings : Settings) : Machine → Prop
  | rest {m : Machine} (hm : AtRest settings m) : Occurs settings m
  | broken {m : Machine} (hm : AtRest settings m) (e : Expr) (stop : Machine → Bool)
      (levels : Nat) : Occurs settings
        ((interpretUntil settings stop levels (.eval e {})).outcome { m with log := [] }).2
  | client {m : Machine} {e : Effect} (hm : Occurs settings m) (he : e.IsClient)
      (hvisible : e.Visible (fun _ => False) m.store.size) : Occurs settings (e.apply m)

/-- What holds at all moments, and is not touched by client effects, holds of every machine that
occurs. -/
theorem Occurs.of_moments {settings : Settings} {P : Machine → Prop}
    (h : (∀ m, AtRest settings m → P m) ∧ ∀ m, Reachable settings m → P m)
    (client : ∀ e m, Effect.IsClient e → P m → P (e.apply m)) {m : Machine}
    (hm : Occurs settings m) : P m := by
  induction hm with
  | rest hm => exact h.1 _ hm
  | broken hm e stop levels => exact h.2 _ (hm.reachable e stop levels)
  | client _ he _ ih => exact client _ _ he ih

/-- **No reference dangles** in any machine that occurs in a program. -/
theorem Occurs.closed {settings : Settings} {m : Machine} (hm : Occurs settings m) : m.Closed := by
  induction hm with
  | rest hm => exact (closed_moments settings).1 _ hm
  | broken hm e stop levels => exact (closed_moments settings).2 _ hm e stop levels
  | client _ _ hvisible ih => exact (hvisible.spares ih).hides

end ClassMachine
