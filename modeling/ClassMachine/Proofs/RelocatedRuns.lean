import ClassMachine.Proofs.Moments
import ClassMachine.Proofs.Relocation

/-!
# Runs on relocated machines

Client code cannot tell a machine from a relocation of it. Every operation does to the one what it
does to the other, if its arguments correspond, and so does every run. The traversal below follows
the definitions of the operations, from those on single objects to the levels of tasks.

Main statement: `ClassMachine.interpret_follows`.
-/

namespace ClassMachine

open ClassMachine.Action

variable {α : Type} {ρ : Relocation} {log₀ : List Entry}

/-- Each task is performed on both machines in the same way. -/
def Performer.Follows (ρ : Relocation) (log₀ : List Entry) (perform : Performer) : Prop :=
  ∀ ⦃α : Type⦄ (task : Task α),
    Action.Follows ρ log₀ (task.relocateAnswer ρ) (perform task) (perform (task.relocate ρ))

/-! ### Single steps -/

section Steps

/-- What stands at the corresponding place is the relocated object. -/
theorem objectAt_follows (o : ObjectId) :
    Follows ρ log₀ (Object.relocate ρ) (objectAt o) (objectAt (ρ o)) :=
  .bind_get fun _ _ hm => .pure (hm.store.object o)

theorem putObject_follows (o : ObjectId) (x : Object) :
    Follows ρ log₀ id (putObject o x) (putObject (ρ o) (x.relocate ρ)) :=
  .modify fun _ _ hm => hm.with_store (hm.store.put o x)

/-- New objects get corresponding places, although the other machine may have more objects. -/
theorem newObject_follows (kind : ObjectKind) (prototype : Option ObjectId) :
    Follows ρ log₀ ρ (newObject kind prototype) (newObject kind (prototype.map ρ)) := by
  have hnew : Object.relocate ρ { kind, prototype } = { kind, prototype := prototype.map ρ } := by
    simp [Object.relocate]
  refine .of_outcome fun m m' hm => ⟨some (.ok m.store.size),
    { m with store := (m.store.add { kind, prototype }).2 },
    { m' with store := (m'.store.add { kind, prototype := prototype.map ρ }).2 }, rfl, ?_, ?_⟩
  · exact congrArg (fun o => (some (Except.ok o), _)) hm.store.place_size.symm
  · exact hnew ▸ hm.with_store (hm.store.add { kind, prototype })

/-- Functions are numbered alike, so they need no relocation. -/
theorem newFunction_follows (name : String) (body : Expr) :
    Follows ρ log₀ id (newFunction name body) (newFunction name body) := by
  refine .of_outcome fun m m' hm => ⟨some (.ok { id := m.nextFunction, name, body }),
    { m with nextFunction := m.nextFunction + 1 }, { m' with nextFunction := m'.nextFunction + 1 },
    rfl, ?_, ?_⟩
  · exact congrArg (fun id => (some (Except.ok (Function.mk id name body)), _)) hm.nextFunction
  · exact ⟨hm.store, hm.registry, hm.frames, congrArg Nat.succ hm.nextFunction, hm.registers,
      hm.log⟩

/-- An empty register reads as undefined on both machines. -/
theorem readRegister_follows (name : String) :
    Follows ρ log₀ (Value.relocate ρ) (readRegister name) (readRegister name) := by
  refine .bind_get fun m m' hm => .pure ?_
  rw [hm.registers, Std.ExtTreeMap.getD_eq_getD_getElem?, Std.ExtTreeMap.getD_eq_getD_getElem?,
    Std.ExtTreeMap.getElem?_map]
  cases m.registers[name]? <;> rfl

theorem writeRegister_follows (name : String) (v : Value) :
    Follows ρ log₀ id (writeRegister name v) (writeRegister name (v.relocate ρ)) := by
  refine .modify fun m m' hm => ⟨hm.store, hm.registry, hm.frames, hm.nextFunction, ?_, hm.log⟩
  rw [map_insert, hm.registers]

theorem writeLog_follows (entry : Entry) :
    Follows ρ log₀ id (writeLog entry) (writeLog (entry.relocate ρ)) := by
  refine .modify fun m m' hm => ⟨hm.store, hm.registry, hm.frames, hm.nextFunction, hm.registers,
    ?_⟩
  obtain ⟨es, hlog, hlog'⟩ := hm.log
  exact ⟨entry :: es, congrArg (entry :: ·) hlog, congrArg (entry.relocate ρ :: ·) hlog'⟩

/-- Whether the object takes the property does not depend on places. -/
theorem defineOn_follows (o : ObjectId) (key : String) (p : Property) :
    Follows ρ log₀ id (defineOn o key p) (defineOn (ρ o) key (p.relocate ρ)) :=
  (objectAt_follows o).bind fun x => (Follows.demand (x.define_relocate ρ key p)).bind fun x' =>
    putObject_follows o x'

theorem defineForClient_follows (o : ObjectId) (key : String) (p : Property) :
    Follows ρ log₀ id (defineForClient o key p) (defineForClient (ρ o) key (p.relocate ρ)) :=
  (defineOn_follows o key p).bind fun _ => .note _ _

/-- The answer tells whether the property is gone, and is the same. -/
theorem deleteFrom_follows (o : ObjectId) (key : String) :
    Follows ρ log₀ id (deleteFrom o key) (deleteFrom (ρ o) key) := by
  refine (objectAt_follows o).bind fun x => ?_
  rw [Object.delete_relocate]
  exact (putObject_follows o _).bind fun _ => (Follows.note _ _).bind fun _ => .pure rfl

theorem preventExtensions_follows (o : ObjectId) :
    Follows ρ log₀ id (preventExtensions o) (preventExtensions (ρ o)) :=
  (objectAt_follows o).bind fun x => (putObject_follows o x.preventExtensions).bind fun _ =>
    .note _ _

theorem setPrototype_follows (o : ObjectId) (prototype : Option ObjectId) :
    Follows ρ log₀ id (setPrototype o prototype) (setPrototype (ρ o) (prototype.map ρ)) :=
  (objectAt_follows o).bind fun x => (putObject_follows o (x.relink prototype)).bind fun _ =>
    .note _ _

/-- The classes are there under the same numbers. -/
theorem classAt_follows (id : ClassId) :
    Follows ρ log₀ (Class.relocate ρ) (classAt id) (classAt id) := by
  refine .bind_get fun m m' hm => ?_
  rw [hm.registry]
  exact .demand (m.registry.require_relocate ρ id)

theorem currentFrame_follows :
    Follows ρ log₀ (Frame.relocate ρ) currentFrame currentFrame := by
  refine .bind_get fun m m' hm => ?_
  rw [hm.frames]
  cases m.frames with
  | nil => exact .raise rfl
  | cons f rest => exact .pure rfl

theorem putFrame_follows (f : Frame) :
    Follows ρ log₀ id (putFrame f) (putFrame (f.relocate ρ)) := by
  refine .modify fun m m' hm => hm.with_frames ?_
  rw [hm.frames, List.map_cons, List.map_tail]

theorem pushFrame_follows (f : Frame) :
    Follows ρ log₀ id (pushFrame f) (pushFrame (f.relocate ρ)) := by
  refine .modify fun m m' hm => hm.with_frames ?_
  rw [hm.frames, List.map_cons]

/-- Both machines have as many frames. -/
theorem popFrame_follows : Follows ρ log₀ (Frame.relocate ρ) popFrame popFrame := by
  refine .bind_get fun m m' hm => ?_
  rw [hm.frames]
  cases m.frames with
  | nil => exact .raise rfl
  | cons f rest =>
    exact (Follows.modify fun _ _ hm => hm.with_frames rfl).bind fun _ => .pure rfl

theorem enterPhase_follows (phase : Phase) :
    Follows ρ log₀ id (enterPhase phase) (enterPhase phase) :=
  currentFrame_follows.bind fun f => putFrame_follows (f.enter phase)

/-- A frame has an object bound on both machines or on none. -/
theorem bindThis_follows (o : ObjectId) (phase : Phase) :
    Follows ρ log₀ id (bindThis o phase) (bindThis (ρ o) phase) :=
  currentFrame_follows.bind fun f => (Follows.demand (f.bind?_relocate ρ o phase)).bind fun f' =>
    putFrame_follows f'

theorem thisObject_follows : Follows ρ log₀ ρ thisObject thisObject := by
  refine currentFrame_follows.bind fun f => ?_
  rw [Frame.relocate]
  cases f.this with
  | some o => exact .pure rfl
  | none => exact .raise rfl

end Steps

/-! ### Reading, assigning and calling -/

section Access

variable {perform : Performer} (hp : perform.Follows ρ log₀)

include hp

/-- A function runs the same code with what corresponds to its receiver and arguments. -/
theorem callFunction_follows (f : Function) (receiver : Value) (args : List Value) :
    Follows ρ log₀ (Value.relocate ρ) (callFunction perform f receiver args)
      (callFunction perform f (receiver.relocate ρ) (args.map (Value.relocate ρ))) :=
  hp (.eval f.body { receiver, args })

/-- A search finds the relocated property, so it finds the same getter. -/
theorem readFrom_follows (o : ObjectId) (key : String) (receiver : Value) :
    Follows ρ log₀ (Value.relocate ρ) (readFrom perform o key receiver)
      (readFrom perform (ρ o) key (receiver.relocate ρ)) := by
  refine .bind_get fun m m' hm => ?_
  rw [hm.store.search]
  rcases m.store.search key o with ⟨owner, _ | ⟨_ | getter, setter⟩⟩ | _ | _
  · exact .pure rfl
  · exact .pure rfl
  · exact callFunction_follows hp getter receiver []
  · exact .pure rfl
  · exact .breakOff

omit hp in
/-- The attributes that the key had before are the same. -/
theorem assignOwn_follows (o : ObjectId) (key : String) (v : Value) :
    Follows ρ log₀ id (assignOwn o key v) (assignOwn (ρ o) key (v.relocate ρ)) := by
  refine (objectAt_follows o).bind fun x => ?_
  rw [Object.property?_relocate, Property.assigned_relocate]
  exact defineForClient_follows o key _

/-- The owner decides on both machines in the same way, and a refusal is worded alike. -/
theorem assignTo_follows (o : ObjectId) (key : String) (v : Value) :
    Follows ρ log₀ id (assignTo perform o key v) (assignTo perform (ρ o) key (v.relocate ρ)) := by
  refine .bind_get fun m m' hm => ?_
  rw [hm.store.search]
  rcases m.store.search key o with
    ⟨owner, ⟨_, _ | _, _, _⟩ | ⟨getter, _ | setter, _, _⟩⟩ | _ | _
  · exact .raise rfl
  · exact assignOwn_follows o key v
  · exact .raise rfl
  · exact (callFunction_follows hp setter (.ref o) [v]).discard
  · exact assignOwn_follows o key v
  · exact .breakOff

theorem readProperty_follows (target : Value) (key : String) :
    Follows ρ log₀ (Value.relocate ρ) (readProperty perform target key)
      (readProperty perform (target.relocate ρ) key) := by
  cases target with
  | ref o => exact readFrom_follows hp o key (.ref o)
  | undefined | null => exact .raise rfl
  | bool | number | str | function => exact .pure rfl

theorem assignProperty_follows (target : Value) (key : String) (v : Value) :
    Follows ρ log₀ id (assignProperty perform target key v)
      (assignProperty perform (target.relocate ρ) key (v.relocate ρ)) := by
  cases target with
  | ref o => exact assignTo_follows hp o key v
  | _ => exact .raise rfl

/-- A value that is no function is named in the fault, and relocated with it. -/
theorem callValue_follows (callee receiver : Value) (args : List Value) :
    Follows ρ log₀ (Value.relocate ρ) (callValue perform callee receiver args)
      (callValue perform (callee.relocate ρ) (receiver.relocate ρ)
        (args.map (Value.relocate ρ))) := by
  cases callee with
  | function f => exact callFunction_follows hp f receiver args
  | _ => exact .raise rfl

/-- The same method is found on the object that corresponds. -/
theorem invokeMethod_follows (receiver : Value) (key : String) (args : List Value) :
    Follows ρ log₀ (Value.relocate ρ) (invokeMethod perform receiver key args)
      (invokeMethod perform (receiver.relocate ρ) key (args.map (Value.relocate ρ))) :=
  (readProperty_follows hp receiver key).bind fun callee =>
    callValue_follows hp callee receiver args

end Access

/-! ### Primitive operations -/

section Primitives

theorem objectOf_follows (v : Value) :
    Follows ρ log₀ ρ (objectOf v) (objectOf (v.relocate ρ)) := by
  cases v with
  | ref o => exact .pure rfl
  | _ => exact .raise rfl

theorem classIdOf_follows (v : Value) :
    Follows ρ log₀ id (classIdOf v) (classIdOf (v.relocate ρ)) := by
  rw [classIdOf, classIdOf, Value.toWord?_relocate]
  cases v.toWord? with
  | some id => exact .pure rfl
  | none => exact .raise rfl

/-- Whether a value descends from a class is a question about links, not about places. -/
theorem instanceOf_follows (v : Value) (cls : ClassId) :
    Follows ρ log₀ id (instanceOf v cls) (instanceOf (v.relocate ρ) cls) := by
  refine (classAt_follows cls).bind fun c => ?_
  cases v with
  | ref o =>
    refine .bind_get fun m m' hm => ?_
    rw [show (c.relocate ρ).prototype = ρ c.prototype from rfl, hm.store.descendsFrom?]
    cases m.store.descendsFrom? o c.prototype with
    | some answer => exact .pure rfl
    | none => exact .breakOff
  | _ => exact .pure rfl

/-- The snapshot of an object in the log is relocated too. -/
theorem dump_follows (v : Value) : Follows ρ log₀ id (dump v) (dump (v.relocate ρ)) := by
  cases v with
  | ref o => exact (objectAt_follows o).bind fun x => writeLog_follows (.object o x)
  | undefined => exact writeLog_follows (.value .undefined)
  | null => exact writeLog_follows (.value .null)
  | bool b => exact writeLog_follows (.value (.bool b))
  | number x => exact writeLog_follows (.value (.number x))
  | str s => exact writeLog_follows (.value (.str s))
  | function f => exact writeLog_follows (.value (.function f))

/-- A refusal words its value as a diagnostic text, which shows no place. -/
theorem refuse_follows (v : Value) (expected : Expectation) (f : α → α) :
    Follows ρ log₀ f (refuse v expected) (refuse (v.relocate ρ) expected) := by
  refine .bind_get fun m m' hm => ?_
  rw [hm.store.debug]
  exact .raise rfl

/-- An answer that is no reference. -/
theorem plain_follows {β : Type} {x x' : Action β} {f : β → β} (hx : Follows ρ log₀ f x x')
    {v v' : β → Value} (hv : ∀ b, v' (f b) = (v b).relocate ρ) :
    Follows ρ log₀ (Value.relocate ρ) (x >>= fun b => pure (v b)) (x' >>= fun b => pure (v' b)) :=
  hx.bind fun b => .pure (hv b)

/-- **No primitive operation tells a place**: what it answers with, if it is no object, is the same.
-/
theorem performPrimitive_follows (ctx : Context) (op : Primitive) (args : List Value) :
    Follows ρ log₀ (Value.relocate ρ) (performPrimitive ctx op args)
      (performPrimitive (ctx.relocate ρ) op (args.map (Value.relocate ρ))) := by
  have hfirst := argAt_relocate ρ args 0
  have hsecond := argAt_relocate ρ args 1
  have hthird := argAt_relocate ρ args 2
  cases op with
  | register =>
    simp only [performPrimitive, hfirst, Value.propertyKey_relocate]
    exact readRegister_follows _
  | log => exact plain_follows (writeLog_follows (.values args)) fun _ => rfl
  | dump =>
    simp only [performPrimitive, hfirst]
    exact plain_follows (dump_follows _) fun _ => rfl
  | describe =>
    simp only [performPrimitive, hfirst]
    refine (classIdOf_follows _).bind fun id => .bind_get fun m m' hm => ?_
    rw [hm.registry, id_eq, Registry.class?_relocate]
    exact (writeLog_follows (.cls _)).bind fun _ => .pure rfl
  | receiver => exact .pure rfl
  | argument =>
    simp only [performPrimitive, hfirst, Value.toWord?_relocate, Context.relocate]
    refine .pure ?_
    split
    · exact argAt_relocate ρ ctx.args _
    · rfl
  | argumentCount =>
    refine .pure ?_
    simp [Context.relocate]
    rfl
  | add | less =>
    simp only [performPrimitive, hfirst, hsecond, Value.toFloat_relocate]
    exact .pure rfl
  | equal =>
    simp only [performPrimitive, hfirst, hsecond, Value.sameAs_relocate]
    exact .pure rfl
  | concat =>
    refine .pure ?_
    simp [Function.comp_def]
    rfl
  | key =>
    simp only [performPrimitive, hfirst, Value.propertyKey_relocate]
    exact .pure rfl
  | debug =>
    simp only [performPrimitive, hfirst]
    refine .bind_get fun m m' hm => ?_
    rw [hm.store.debug]
    exact .pure rfl
  | expectNumber =>
    simp only [performPrimitive, hfirst]
    cases argAt args 0 with
    | number x => exact .pure rfl
    | _ => exact refuse_follows _ _ _
  | expectString =>
    simp only [performPrimitive, hfirst]
    cases argAt args 0 with
    | str s => exact .pure rfl
    | _ => exact refuse_follows _ _ _
  | expectObject =>
    simp only [performPrimitive, hfirst]
    cases argAt args 0 with
    | ref o => exact .pure rfl
    | _ => exact refuse_follows _ _ _
  | this => exact plain_follows thisObject_follows fun _ => rfl
  | phase =>
    refine .bind_get fun m m' hm => ?_
    rw [hm.frames]
    cases m.frames with
    | nil => exact .pure rfl
    | cons f rest => exact .pure rfl
  | throw =>
    simp only [performPrimitive, hfirst, Value.text_relocate]
    exact .raise rfl
  | instanceOf =>
    simp only [performPrimitive, hfirst, hsecond]
    exact (classIdOf_follows _).bind fun id => plain_follows (instanceOf_follows _ id) fun _ => rfl
  | classId =>
    simp only [performPrimitive, hfirst, Value.propertyKey_relocate]
    refine .bind_get fun m m' hm => ?_
    rw [hm.registry, Registry.classId?_relocate]
    cases m.registry.classId? (argAt args 0).propertyKey with
    | some id => exact .pure rfl
    | none => exact .pure rfl
  | classCount =>
    refine .bind_get fun m m' hm => ?_
    rw [hm.registry, Registry.size_relocate]
    exact .pure rfl
  | classObject | prototype =>
    simp only [performPrimitive, hfirst]
    exact (classIdOf_follows _).bind fun id => plain_follows (classAt_follows id) fun _ => rfl
  | newObject =>
    simp only [performPrimitive, hfirst, linkOf_relocate]
    exact plain_follows (newObject_follows .ordinary _) fun _ => rfl
  | createProperty | createHidden =>
    simp only [performPrimitive, hfirst, hsecond, hthird, Value.propertyKey_relocate]
    exact (objectOf_follows _).bind fun o =>
      plain_follows (defineForClient_follows o _ _) fun _ => rfl
  | delete =>
    simp only [performPrimitive, hfirst, hsecond, Value.propertyKey_relocate]
    exact (objectOf_follows _).bind fun o => plain_follows (deleteFrom_follows o _) fun _ => rfl
  | hasOwn =>
    simp only [performPrimitive, hfirst, hsecond, Value.propertyKey_relocate]
    exact (objectOf_follows _).bind fun o => plain_follows (objectAt_follows o) fun x =>
      congrArg Value.bool (x.hasOwn_relocate ρ _)
  | isExtensible | ownKeys =>
    simp only [performPrimitive, hfirst]
    exact (objectOf_follows _).bind fun o => plain_follows (objectAt_follows o) fun _ => rfl
  | preventExtensions =>
    simp only [performPrimitive, hfirst]
    exact (objectOf_follows _).bind fun o =>
      plain_follows (preventExtensions_follows o) fun _ => rfl
  | prototypeOf =>
    simp only [performPrimitive, hfirst]
    exact (objectOf_follows _).bind fun o => plain_follows (objectAt_follows o) fun x =>
      Value.ofLink_relocate ρ x.prototype
  | setPrototype =>
    simp only [performPrimitive, hfirst, hsecond, linkOf_relocate]
    exact (objectOf_follows _).bind fun o => plain_follows (setPrototype_follows o _) fun _ => rfl

end Primitives

/-! ### Constructions -/

section Constructions

variable {settings : Settings} {perform : Performer} (hp : perform.Follows ρ log₀)

include hp

/-- The initializer runs with the corresponding receiver, and its value goes to the corresponding
object. -/
theorem installField_follows (target : ObjectId) (record : FieldRecord) :
    Follows ρ log₀ id (installField perform target record)
      (installField perform (ρ target) record) := by
  have hvalue : Follows ρ log₀ (Value.relocate ρ) (fieldValue perform target record)
      (fieldValue perform (ρ target) record) := by
    unfold fieldValue
    cases record.initializer with
    | some initializer => exact hp (.eval initializer { receiver := .ref target })
    | none => exact readFrom_follows hp target record.name (.ref target)
  exact hvalue.bind fun v => (defineOn_follows target record.name (.plain v)).bind fun _ =>
    .note _ _

/-- The activities may mention different targets, since their layers do not. -/
theorem installFields_follows (activity activity' : FieldRecord → Activity)
    (hactivity : ∀ record, (activity' record).context = (activity record).context)
    (target : ObjectId) (records : List FieldRecord) :
    Follows ρ log₀ id (installFields perform activity target records)
      (installFields perform activity' (ρ target) records) := by
  induction records with
  | nil => exact .pure rfl
  | cons record rest ih =>
    exact (Follows.during (hactivity record) (installField_follows hp target record)).bind
      fun _ => ih

theorem installInstanceFields_follows (this : ObjectId) (cls : ClassId) :
    Follows ρ log₀ id (installInstanceFields perform this cls)
      (installInstanceFields perform (ρ this) cls) :=
  (classAt_follows cls).bind fun c => .bind_get fun _ _ _ => (Follows.note _ _).bind fun _ =>
    installFields_follows hp (.instanceField cls c.displayName this)
      (.instanceField cls c.displayName (ρ this)) (fun _ => rfl) this c.instanceFields

theorem adopt_follows (this : ObjectId) (cls : ClassId) (phase : Phase) :
    Follows ρ log₀ id (adopt perform this cls phase) (adopt perform (ρ this) cls phase) :=
  (bindThis_follows this phase).bind fun _ => (installInstanceFields_follows hp this cls).bind
    fun _ => (enterPhase_follows _).bind fun _ => enterPhase_follows _

omit hp in
/-- An instance is linked to the prototype of its class, which is relocated. -/
theorem allocate_follows (newTarget : ClassId) :
    Follows ρ log₀ ρ (allocate newTarget) (allocate newTarget) :=
  (classAt_follows newTarget).bind fun c => (newObject_follows _ (some c.prototype)).bind fun _ =>
    (Follows.note _ _).bind fun _ => .pure rfl

/-- A call of the parent constructor finds the same parent, or fails for the same reason. -/
theorem superCall_follows (args : List Value) :
    Follows ρ log₀ ρ (superCall perform args)
      (superCall perform (args.map (Value.relocate ρ))) := by
  refine currentFrame_follows.bind fun f => (classAt_follows f.cls).bind fun c => ?_
  rw [show (c.relocate ρ).parent = c.parent from rfl]
  cases c.parent with
  | none => exact .raise rfl
  | some parent =>
    exact Follows.bind (hp (.construct parent f.newTarget args)) fun this =>
      (adopt_follows hp this f.cls .thisBound).bind fun _ => (Follows.note _ _).bind fun _ =>
        .pure rfl

theorem runBody_follows (cls : ClassId) (this this' : Option ObjectId) (body : Expr)
    (args : List Value) : Follows ρ log₀ id (runBody perform cls this body args)
      (runBody perform cls this' body (args.map (Value.relocate ρ))) :=
  (Follows.note _ _).bind fun _ => Follows.discard (hp (.eval body { args }))

/-- Kind and body of the class, which decide what is run, are the same. -/
theorem runConstructor_follows (cls newTarget : ClassId) (args : List Value) :
    Follows ρ log₀ id (runConstructor perform cls newTarget args)
      (runConstructor perform cls newTarget (args.map (Value.relocate ρ))) := by
  refine (classAt_follows cls).bind fun c => ?_
  rw [show (c.relocate ρ).kind = c.kind from rfl,
    show (c.relocate ρ).constructor = c.constructor from rfl]
  cases c.kind with
  | base =>
    refine (allocate_follows newTarget).bind fun this =>
      (adopt_follows hp this cls .allocated).bind fun _ => ?_
    cases c.constructor with
    | some body => exact runBody_follows hp ..
    | none => exact .pure rfl
  | derived =>
    cases c.constructor with
    | some body => exact runBody_follows hp ..
    | none => exact (superCall_follows hp args).discard

/-- The limit is met at the same depth, and the frame of the construction ends in the same way. -/
theorem constructFor_follows (cls newTarget : ClassId) (args : List Value) :
    Follows ρ log₀ ρ (constructFor settings perform cls newTarget args)
      (constructFor settings perform cls newTarget (args.map (Value.relocate ρ))) := by
  refine (Follows.note _ _).bind fun _ => .bind_get fun m m' hm => ?_
  rw [hm.frames, List.length_map]
  split
  · exact .raise rfl
  · exact (pushFrame_follows _).bind fun _ =>
      (runConstructor_follows hp cls newTarget args).observe.bind fun outcome =>
        popFrame_follows.bind fun f => (Follows.settle rfl).bind fun _ =>
          .demand (f.result_relocate ρ)

/-- The announcement needs no more than the name of the class. -/
theorem construct_follows (cls : ClassId) (args : List Value) :
    Follows ρ log₀ ρ (construct settings perform cls args)
      (construct settings perform cls (args.map (Value.relocate ρ))) := by
  have hannounce : Follows ρ log₀ id (announceConstruction settings cls)
      (announceConstruction settings cls) := by
    refine .bind_get fun m m' hm => ?_
    rw [hm.registry, Registry.require_relocate]
    cases m.registry.require cls with
    | ok c => exact .note _ _
    | error f =>
      simp only [relocateDemand]
      split
      · exact .raise rfl
      · exact .pure rfl
  exact hannounce.bind fun _ => (constructFor_follows hp cls cls args).bind fun this =>
    (Follows.note _ _).bind fun _ => .pure rfl

/-- The number of the class that is called stands in the class object. -/
theorem constructValue_follows (callee : Value) (args : List Value) :
    Follows ρ log₀ ρ (constructValue settings perform callee args)
      (constructValue settings perform (callee.relocate ρ) (args.map (Value.relocate ρ))) := by
  have hcalled : Follows ρ log₀ id (calledClass callee) (calledClass (callee.relocate ρ)) := by
    cases callee with
    | ref o =>
      refine (objectAt_follows o).bind fun x => ?_
      rw [show (x.relocate ρ).kind = x.kind from rfl]
      cases x.kind with
      | classObject cls => exact .pure rfl
      | _ => exact .raise rfl
    | _ => exact .raise rfl
  exact hcalled.bind fun cls => construct_follows hp cls args

end Constructions

/-! ### Definitions -/

section Definitions

/-- The two objects of a class stand at corresponding places and have corresponding links. -/
theorem makeHomes_follows (id : ClassId) (name : Option String) (parent : Option Class) :
    Follows ρ log₀ (Homes.relocate ρ) (makeHomes id name parent)
      (makeHomes id name (parent.map (Class.relocate ρ))) := by
  have hlink (f : Class → ObjectId) (hf : ∀ c : Class, f (c.relocate ρ) = ρ (f c)) :
      (parent.map (Class.relocate ρ)).map f = (parent.map f).map ρ := by
    cases parent with
    | some c => exact congrArg some (hf c)
    | none => rfl
  simp only [makeHomes, hlink Class.prototype fun _ => rfl, hlink Class.classObject fun _ => rfl]
  refine (newObject_follows _ _).bind fun prototype => (newObject_follows _ _).bind
    fun classObject => (defineOn_follows classObject _ (.data (.ref prototype) ..)).bind fun _ => ?_
  cases name with
  | some name =>
    exact (defineOn_follows classObject _ (.data (.str name) ..)).bind fun _ => .pure rfl
  | none => exact .pure rfl

theorem defineMethod_follows (home : ObjectId) (name : String) (kind : MethodKind)
    (f : Function) : Follows ρ log₀ id (defineMethod home name kind f)
      (defineMethod (ρ home) name kind f) := by
  refine (objectAt_follows home).bind fun x => ?_
  rw [Object.property?_relocate, Property.ofMethod_relocate]
  exact defineOn_follows home name _

/-- Both machines draw the same number. -/
theorem drawClassId_follows : Follows ρ log₀ id drawClassId drawClassId := by
  refine .of_outcome fun m m' hm => ⟨some (.ok (m.registry.lastId + 1)),
    (Effect.note (.numbered (m.registry.lastId + 1))).apply (Effect.draw.apply m),
    (Effect.note (.numbered (m'.registry.lastId + 1))).apply (Effect.draw.apply m'), rfl, ?_, ?_⟩
  · have hlast : m'.registry.lastId = m.registry.lastId := by
      rw [hm.registry]
      rfl
    exact congrArg (fun cls => (some (Except.ok (cls + 1)), _)) hlast
  · have hdraw : m'.registry.drawId.2 = m.registry.drawId.2.relocate ρ :=
      congrArg (fun r => r.drawId.2) hm.registry
    exact Machine.Relocated.note (hm.with_registry hdraw) _ _

/-- The relocated class takes the place of the same class under its name. -/
theorem registerClass_follows (c : Class) :
    Follows ρ log₀ id (registerClass c) (registerClass (c.relocate ρ)) := by
  refine .of_outcome fun m m' hm => ⟨some (.ok (m.registry.register c).1),
    (Effect.note (.registered c)).apply ((Effect.register c).apply m),
    (Effect.note (.registered (c.relocate ρ))).apply ((Effect.register (c.relocate ρ)).apply m'),
    rfl, ?_, ?_⟩
  all_goals have hregister : m'.registry.register (c.relocate ρ) =
    ((m.registry.register c).1, (m.registry.register c).2.relocate ρ) :=
      hm.registry ▸ m.registry.register_relocate ρ c
  · have hshadowed : (m'.registry.register (c.relocate ρ)).1 = (m.registry.register c).1 := by
      rw [hregister]
    exact congrArg (fun shadowed => (some (Except.ok shadowed), _)) hshadowed
  · exact Machine.Relocated.note (hm.with_registry (congrArg Prod.snd hregister)) _ _

/-- Whether the class is kept for a subclass is the same. -/
theorem withdrawClass_follows (cls : ClassId) (shadowed : Option ClassId) :
    Follows ρ log₀ id (withdrawClass cls shadowed) (withdrawClass cls shadowed) := by
  refine .of_outcome fun m m' hm => ⟨some (.ok ⟨⟩), m.withdrawn cls shadowed,
    m'.withdrawn cls shadowed, rfl, rfl, Machine.Relocated.note (hm.with_registry ?_) _ _⟩
  exact hm.registry ▸ m.registry.withdraw_relocate ρ cls shadowed

/-- Initializers are code, and code has no places in it. -/
theorem replaceInitializer_follows (cls : ClassId) (field : String) (initializer : Option Expr) :
    Follows ρ log₀ id (replaceInitializer cls field initializer)
      (replaceInitializer cls field initializer) := by
  refine (Follows.note _ _).bind fun _ => .bind_get fun m m' hm => ?_
  rw [hm.registry, Registry.requireForChange_relocate]
  refine (Follows.demand rfl).bind fun c =>
    (Follows.demand (c.replaceInitializer_relocate ρ field initializer)).bind fun c' =>
      (Follows.modify fun n n' hn => hn.with_registry ?_).bind fun _ => .note _ _
  exact hn.registry ▸ n.registry.put_relocate ρ c'

variable {perform : Performer} (hp : perform.Follows ρ log₀)

include hp

/-- A computed name is a text in the end. -/
theorem fieldKey_follows (cls : ClassId) (className : String) (name : FieldName) :
    Follows ρ log₀ id (fieldKey perform cls className name)
      (fieldKey perform cls className name) := by
  cases name with
  | literal name => exact .pure rfl
  | computed e =>
    exact (Follows.during rfl (hp (.eval e {}))).bind fun v => .pure (v.propertyKey_relocate ρ)

/-- The records of the fields are the same; the methods go to the corresponding objects. -/
theorem collectFields_follows (cls : ClassId) (className : String) (homes : Homes)
    (elements : List ClassElement) :
    Follows ρ log₀ id (collectFields perform cls className homes elements)
      (collectFields perform cls className (homes.relocate ρ) elements) := by
  induction elements with
  | nil => exact .pure rfl
  | cons e rest ih =>
    have helement : Follows ρ log₀ id (evaluateElement perform cls className homes e)
        (evaluateElement perform cls className (homes.relocate ρ) e) := by
      cases e with
      | method name kind isStatic f =>
        have hhome : (homes.relocate ρ).home isStatic = ρ (homes.home isStatic) := by
          cases isStatic <;> rfl
        rw [evaluateElement, evaluateElement, hhome]
        exact (defineMethod_follows _ name kind f).bind fun _ => .pure rfl
      | field name isStatic initializer =>
        exact (fieldKey_follows hp cls className name).bind fun _ => .pure rfl
    exact helement.bind fun _ => ih.bind fun _ => .pure rfl

/-- A definition with the corresponding heritage comes to the relocated class. -/
theorem prepareClass_follows (d : ClassDefinition) :
    Follows ρ log₀ (Class.relocate ρ) (prepareClass perform d)
      (prepareClass perform (d.relocate ρ)) := by
  refine (Follows.note _ _).bind fun _ => (Follows.demand (d.checkNames_relocate ρ)).bind fun _ =>
    .bind_get fun m m' hm => (Follows.demand (hm.parent? d)).bind fun parent =>
      drawClassId_follows.bind fun cls => (makeHomes_follows cls d.name parent).bind fun homes =>
        (collectFields_follows hp cls d.displayName homes d.elements).bind fun fields => .pure ?_
  cases parent <;> rfl

/-- A static field fails on both machines or on none, so the registration stands on both or on
none. -/
theorem launchClass_follows (c : Class) :
    Follows ρ log₀ id (launchClass perform c) (launchClass perform (c.relocate ρ)) := by
  refine (registerClass_follows c).bind fun shadowed =>
    (installFields_follows hp (.staticField c.id c.displayName c.classObject)
      (.staticField c.id c.displayName (ρ c.classObject)) (fun _ => rfl) c.classObject
      c.staticFields).observe.bind fun r => ?_
  cases r with
  | ok _ => exact (Follows.note _ _).bind fun _ => .pure rfl
  | error e => exact (withdrawClass_follows c.id shadowed).bind fun _ => .throw rfl

theorem defineClass_follows (d : ClassDefinition) :
    Follows ρ log₀ id (defineClass perform d) (defineClass perform (d.relocate ρ)) :=
  (prepareClass_follows hp d).bind fun c => launchClass_follows hp c

end Definitions

/-! ### Expressions -/

section Expressions

variable {settings : Settings} {perform : Performer} (hp : perform.Follows ρ log₀)
  (ctx : Context)

include hp

theorem evaluate_follows (e : Expr) : Follows ρ log₀ (Value.relocate ρ)
    (evaluate perform ctx e) (evaluate perform (ctx.relocate ρ) e) :=
  hp (.eval e ctx)

theorem evaluateOptional_follows (e : Option Expr) : Follows ρ log₀ (Value.relocate ρ)
    (evaluateOptional perform ctx e) (evaluateOptional perform (ctx.relocate ρ) e) := by
  cases e with
  | some e => exact evaluate_follows hp ctx e
  | none => exact .pure rfl

theorem evaluateAll_follows (es : List Expr) : Follows ρ log₀ (List.map (Value.relocate ρ))
    (evaluateAll perform ctx es) (evaluateAll perform (ctx.relocate ρ) es) := by
  induction es with
  | nil => exact .pure rfl
  | cons e es ih =>
    exact (evaluate_follows hp ctx e).bind fun v => ih.bind fun vs => .pure rfl

theorem evaluateSequence_follows (last : Value) (es : List Expr) :
    Follows ρ log₀ (Value.relocate ρ) (evaluateSequence perform ctx last es)
      (evaluateSequence perform (ctx.relocate ρ) (last.relocate ρ) es) := by
  induction es generalizing last with
  | nil => exact .pure rfl
  | cons e es ih => exact (evaluate_follows hp ctx e).bind fun v => ih v

/-- What is caught comes into the registers as texts. -/
theorem evaluateAttempt_follows (body : Expr) (handler : Option Expr) :
    Follows ρ log₀ (Value.relocate ρ) (evaluateAttempt perform ctx body handler)
      (evaluateAttempt perform (ctx.relocate ρ) body handler) := by
  refine (evaluate_follows hp ctx body).observe.bind fun r => ?_
  cases r with
  | ok v => exact .pure rfl
  | error e =>
    simp only [relocateOutcome, Failure.text_relocate, Failure.word_relocate]
    exact (Follows.note _ _).bind fun _ => (writeRegister_follows "err" (.str e.text)).bind
      fun _ => (writeRegister_follows "kind" (.str e.word)).bind fun _ =>
        evaluateOptional_follows hp ctx handler

/-- Both machines count the rounds in the register. -/
theorem evaluateRounds_follows (body : Expr) (round left : Nat) :
    Follows ρ log₀ id (evaluateRounds perform ctx body round left)
      (evaluateRounds perform (ctx.relocate ρ) body round left) := by
  induction left generalizing round with
  | zero => exact .pure rfl
  | succ left ih =>
    exact (writeRegister_follows "i" (.ofNat round)).bind fun _ =>
      (evaluate_follows hp ctx body).discard.bind fun _ => ih (round + 1)

omit hp in
theorem makeElements_follows (es : List ElementExpr) :
    Follows ρ log₀ id (makeElements es) (makeElements es) := by
  induction es with
  | nil => exact .pure rfl
  | cons e es ih =>
    have helement : Follows ρ log₀ id (makeElement e) (makeElement e) := by
      cases e with
      | method => exact (newFunction_follows _ _).bind fun _ => .pure rfl
      | field => exact .pure rfl
    exact helement.bind fun _ => ih.bind fun _ => .pure rfl

/-- The name of a class is a text; its heritage may be an object. -/
theorem evaluateClass_follows (c : ClassExpr) : Follows ρ log₀ id (evaluateClass perform ctx c)
    (evaluateClass perform (ctx.relocate ρ) c) := by
  have hname : Follows ρ log₀ id (evaluateName perform ctx c.name)
      (evaluateName perform (ctx.relocate ρ) c.name) := by
    cases c.name with
    | some e =>
      exact (evaluate_follows hp ctx e).bind fun v => .pure
        (congrArg some (v.propertyKey_relocate ρ))
    | none => exact .pure rfl
  have hheritage : Follows ρ log₀ (Option.map (Value.relocate ρ))
      (evaluateHeritage perform ctx c.heritage)
      (evaluateHeritage perform (ctx.relocate ρ) c.heritage) := by
    cases c.heritage with
    | some e => exact (evaluate_follows hp ctx e).bind fun v => .pure rfl
    | none => exact .pure rfl
  exact hname.bind fun name => hheritage.bind fun heritage =>
    (makeElements_follows _).bind fun elements =>
      defineClass_follows hp { name, heritage, constructor := c.constructor, elements }

omit hp in
theorem accessorOf_follows (v : Value) :
    Follows ρ log₀ id (accessorOf v) (accessorOf (v.relocate ρ)) := by
  cases v with
  | function | null => exact .pure rfl
  | _ => exact .raise rfl

theorem evaluateProperty_follows (p : PropertyExpr) : Follows ρ log₀ (Property.relocate ρ)
    (evaluateProperty perform ctx p) (evaluateProperty perform (ctx.relocate ρ) p) := by
  cases p with
  | data value => exact (evaluate_follows hp ctx value).bind fun _ => .pure rfl
  | accessor getter setter =>
    exact (evaluate_follows hp ctx getter).bind fun v => (accessorOf_follows v).bind fun _ =>
      (evaluate_follows hp ctx setter).bind fun w => (accessorOf_follows w).bind fun _ =>
        .pure rfl

theorem performReentry_follows (op : Reentry) (args : List Value) :
    Follows ρ log₀ (Value.relocate ρ) (performReentry settings perform ctx op args)
      (performReentry settings perform (ctx.relocate ρ) op (args.map (Value.relocate ρ))) := by
  have hfirst := argAt_relocate ρ args 0
  have hsecond := argAt_relocate ρ args 1
  have hthird := argAt_relocate ρ args 2
  simp only [performReentry, hfirst, hsecond, hthird, Value.propertyKey_relocate,
    ← List.map_drop]
  cases op with
  | super => exact plain_follows (superCall_follows hp args) fun _ => rfl
  | forwardSuper => exact plain_follows (superCall_follows hp ctx.args) fun _ => rfl
  | construct =>
    exact (classIdOf_follows _).bind fun cls =>
      plain_follows (construct_follows hp cls _) fun _ => rfl
  | constructValue => exact plain_follows (constructValue_follows hp _ _) fun _ => rfl
  | get => exact readProperty_follows hp _ _
  | set => exact plain_follows (assignProperty_follows hp _ _ _) fun _ => rfl
  | call => exact callValue_follows hp _ _ _
  | invoke => exact invokeMethod_follows hp _ _ _
  | getFor => exact (objectOf_follows _).bind fun o => readFrom_follows hp o _ _

/-- **Every form of expression** does the same on both machines. -/
theorem evaluateExpr_follows (e : Expr) : Follows ρ log₀ (Value.relocate ρ)
    (evaluateExpr settings perform ctx e) (evaluateExpr settings perform (ctx.relocate ρ) e) := by
  cases e with
  | literal l => cases l <;> exact .pure rfl
  | malformed defect => exact .raise rfl
  | sequence steps => exact evaluateSequence_follows hp ctx .undefined steps
  | choose condition yes no =>
    refine (evaluate_follows hp ctx condition).bind fun v => ?_
    rw [Value.isTrue_relocate]
    split
    · exact evaluate_follows hp ctx yes
    · exact evaluateOptional_follows hp ctx no
  | attempt body handler => exact evaluateAttempt_follows hp ctx body handler
  | loop rounds body =>
    exact plain_follows (evaluateRounds_follows hp ctx body 0 rounds) fun _ => rfl
  | assign name value =>
    exact (evaluate_follows hp ctx value).bind fun v =>
      plain_follows (writeRegister_follows name v) fun _ => rfl
  | function name body => exact plain_follows (newFunction_follows name body) fun _ => rfl
  | classDefinition c => exact plain_follows (evaluateClass_follows hp ctx c) fun _ => rfl
  | replaceInitializer cls name initializer =>
    refine (evaluate_follows hp ctx cls).bind fun v => (classIdOf_follows v).bind fun cls =>
      (evaluate_follows hp ctx name).bind fun w => ?_
    rw [Value.propertyKey_relocate]
    exact plain_follows (replaceInitializer_follows cls _ initializer) fun _ => rfl
  | defineProperty object key property =>
    refine (evaluate_follows hp ctx object).bind fun target => (evaluate_follows hp ctx key).bind
      fun w => (evaluateProperty_follows hp ctx property).bind fun p =>
        (objectOf_follows target).bind fun o => ?_
    rw [Value.propertyKey_relocate]
    exact plain_follows (defineForClient_follows o _ p) fun _ => rfl
  | primitive op args =>
    exact (evaluateAll_follows hp ctx args).bind fun vs => performPrimitive_follows ctx op vs
  | reentry op args =>
    exact (evaluateAll_follows hp ctx args).bind fun vs => performReentry_follows hp ctx op vs

end Expressions

/-! ### Levels -/

/-- Each level passes it on. -/
theorem step_follows (settings : Settings) {perform : Performer} (hp : perform.Follows ρ log₀) :
    (step settings perform).Follows ρ log₀ := by
  intro α task
  cases task with
  | eval e ctx => exact evaluateExpr_follows hp ctx e
  | construct cls newTarget args => exact constructFor_follows hp cls newTarget args

/-- **Runs cannot tell a machine from a relocation of it.** -/
theorem interpret_follows (settings : Settings) (levels : Nat) :
    (interpret settings levels).Follows ρ log₀ := by
  induction levels with
  | zero => exact fun _ _ => .breakOff
  | succ levels ih => exact step_follows settings ih

end ClassMachine
