import ClassMachine.Task

/-!
# Effects

Every action changes the machine in small steps, and there are only so many kinds of
them. `ClassMachine.Effect` lists the kinds, `ClassMachine.Effect.apply` is what a
step does. The primitive actions are single effects, so a statement about all actions
comes down to a statement about all effects.

Most of the effects are open to client code: it may write to objects, registers and
the log, make functions and ordinary objects, and raise faults
(`ClassMachine.Effect.IsClient`). The others – drawing numbers, registering classes,
beginning and ending frames, making instances, noting what goes on – belong to the
operations on classes.
-/

namespace ClassMachine

/-! ### Effects and what they do -/

/-- A primitive change of the machine. -/
inductive Effect
  /-- An event is noted. -/
  | note (e : Event)
  /-- An object is made. -/
  | object (kind : ObjectKind) (prototype : Option ObjectId)
  /-- A property is defined, if the object allows it. -/
  | define (id : ObjectId) (key : String) (p : Property)
  /-- A property is removed, if the object allows it. -/
  | delete (id : ObjectId) (key : String)
  /-- An object is closed to new properties. -/
  | close (id : ObjectId)
  /-- The prototype link of an object is redirected, and this is noted. -/
  | relink (id : ObjectId) (prototype : Option ObjectId)
  /-- A function gets its number. -/
  | function
  /-- A register is written. -/
  | write (name : String) (v : Value)
  /-- The log gets an entry. -/
  | log (entry : Entry)
  /-- The number of a class is drawn. -/
  | draw
  /-- A class is registered. -/
  | register (c : Class)
  /-- A registration is taken back. -/
  | withdraw (id : ClassId) (shadowed : Option ClassId)
  /-- A registered class is exchanged for another version of it. -/
  | exchange (c : Class)
  /-- A frame begins. -/
  | push (f : Frame)
  /-- The innermost frame ends. -/
  | pop
  /-- The innermost frame is exchanged for another version of it. -/
  | frame (f : Frame)

namespace Effect

/-- What an effect does to the machine. -/
def apply : Effect → Machine → Machine
  | note e, m => { m with trace := e :: m.trace }
  | object kind prototype, m => { m with store := (m.store.add { kind, prototype }).2 }
  | define id key p, m =>
    match (m.store.object id).define key p with
    | .ok o => { m with store := m.store.put id o }
    | .error _ => m
  | delete id key, m =>
    { m with store := m.store.put id ((m.store.object id).delete key).2 }
  | close id, m => { m with store := m.store.put id (m.store.object id).preventExtensions }
  | relink id prototype, m =>
    { m with
      store := m.store.put id ((m.store.object id).relink prototype)
      trace := .relinked id :: m.trace }
  | function, m => { m with nextFunction := m.nextFunction + 1 }
  | write name v, m => { m with registers := m.registers.insert name v }
  | log entry, m => { m with log := entry :: m.log }
  | draw, m => { m with registry := m.registry.drawId.2 }
  | register c, m => { m with registry := (m.registry.register c).2 }
  | withdraw id shadowed, m => { m with registry := m.registry.withdraw id shadowed }
  | exchange c, m => { m with registry := m.registry.put c }
  | push f, m => { m with frames := f :: m.frames }
  | pop, m => { m with frames := m.frames.tail }
  | frame f, m => { m with frames := f :: m.frames.tail }

section Define

variable (id : ObjectId) (key : String) (p : Property) (m : Machine)

/-! Whether the object allows the property or not, only the store may be another one. -/

@[simp] theorem frames_apply_define : ((define id key p).apply m).frames = m.frames := by
  simp only [apply]
  split <;> rfl

@[simp] theorem registry_apply_define : ((define id key p).apply m).registry = m.registry := by
  simp only [apply]
  split <;> rfl

@[simp] theorem trace_apply_define : ((define id key p).apply m).trace = m.trace := by
  simp only [apply]
  split <;> rfl

@[simp] theorem size_apply_define :
    ((define id key p).apply m).store.size = m.store.size := by
  simp only [apply]
  split <;> simp

end Define

/-- Nothing that was noted is forgotten. -/
theorem trace_apply (e : Effect) (m : Machine) : ∃ new, (e.apply m).trace = new ++ m.trace := by
  cases e with
  | note e => exact ⟨[e], rfl⟩
  | relink id => exact ⟨[.relinked id], rfl⟩
  | define => exact ⟨[], trace_apply_define ..⟩
  | _ => exact ⟨[], rfl⟩

/-- No object goes away. -/
theorem size_apply (e : Effect) (m : Machine) : m.store.size ≤ (e.apply m).store.size := by
  cases e with
  | object => simp [apply]
  | define => exact Nat.le_of_eq (size_apply_define ..).symm
  | delete | close | relink => simp [apply]
  | _ => exact Nat.le_refl _

/-- What effects do one after the other. -/
def applyAll (es : List Effect) (m : Machine) : Machine :=
  es.foldl (fun m e => e.apply m) m

@[simp] theorem applyAll_nil (m : Machine) : applyAll [] m = m := rfl

@[simp] theorem applyAll_cons (e : Effect) (es : List Effect) (m : Machine) :
    applyAll (e :: es) m = applyAll es (e.apply m) := rfl

/-- What none of the effects touches is there after all of them. -/
theorem applyAll_induction {P : Machine → Prop} {es : List Effect} {m : Machine}
    (h : ∀ e ∈ es, ∀ m, P m → P (e.apply m)) (hm : P m) : P (applyAll es m) := by
  induction es generalizing m with
  | nil => exact hm
  | cons e es ih => exact ih (fun e he => h e (by simp [he])) (h e (by simp) m hm)

end Effect

/-- An action followed by another answers exactly if both do. -/
theorem outcome_bind_eq_ok {α β : Type} {x : Action α} {f : α → Action β} {m m' : Machine}
    {b : β} : (x >>= f).outcome m = (some (.ok b), m') ↔
      ∃ a m₁, x.outcome m = (some (.ok a), m₁) ∧ (f a).outcome m₁ = (some (.ok b), m') := by
  rw [outcome_bind]
  rcases x.outcome m with ⟨_ | e | a, m₁⟩ <;> simp [and_assoc]

/-- To drop an answer is to answer with nothing afterwards. -/
theorem discard_eq_bind {α : Type} (x : Action α) :
    discard x = x >>= fun _ => pure PUnit.unit := rfl

/-! ### Actions of one effect

Each of these actions has one effect or none, or raises a fault instead. -/

/-- The object takes the property, or it refuses it and nothing but the trace changes. -/
theorem outcome_defineOn (id : ObjectId) (key : String) (p : Property) (m : Machine) :
    (defineOn id key p).outcome m =
      match (m.store.object id).define key p with
      | .ok o => (some (.ok ⟨⟩), { m with store := m.store.put id o })
      | .error f => (some (.error (.ofFault f)), { m with trace := .raised f :: m.trace }) := by
  simp only [defineOn, objectAt, bind_assoc, pure_bind, outcome_bind, outcome_get]
  cases (m.store.object id).define key p <;> rfl

/-- Looking up a class leaves the machine as it is, unless there is no such class. -/
theorem outcome_classAt (id : ClassId) (m : Machine) :
    (classAt id).outcome m =
      match m.registry.class? id with
      | some c => (some (.ok c), m)
      | none =>
        (some (.error (.ofFault (.noSuchClass id))),
          { m with trace := .raised (.noSuchClass id) :: m.trace }) := by
  simp only [classAt, outcome_bind, outcome_get, Registry.require]
  cases m.registry.class? id <;> rfl

theorem outcome_classAt_of_some {id : ClassId} {m : Machine} {c : Class}
    (h : m.registry.class? id = some c) : (classAt id).outcome m = (some (.ok c), m) := by
  rw [outcome_classAt, h]

theorem outcome_classAt_of_none {id : ClassId} {m : Machine} (h : m.registry.class? id = none) :
    (classAt id).outcome m = (some (.error (.ofFault (.noSuchClass id))),
      (Effect.note (.raised (.noSuchClass id))).apply m) := by
  rw [outcome_classAt, h]
  rfl

/-- A class that is found is registered. -/
theorem classAt_ok {id : ClassId} {m m' : Machine} {c : Class}
    (h : (classAt id).outcome m = (some (.ok c), m')) :
    m' = m ∧ m.registry.class? id = some c := by
  rw [outcome_classAt] at h
  split at h <;> simp only [Prod.mk.injEq, Option.some.injEq, Except.ok.injEq, reduceCtorEq,
    false_and] at h
  obtain ⟨rfl, rfl⟩ := h
  exact ⟨rfl, ‹_›⟩

/-- Outside of constructions it is a fault to ask for the frame. -/
theorem outcome_currentFrame (m : Machine) :
    currentFrame.outcome m =
      match m.frames with
      | f :: _ => (some (.ok f), m)
      | [] =>
        (some (.error (.ofFault .noConstruction)),
          { m with trace := .raised .noConstruction :: m.trace }) := by
  simp only [currentFrame, outcome_bind, outcome_get]
  split <;> simp [*]

theorem outcome_currentFrame_of_cons {m : Machine} {f : Frame} {rest : List Frame}
    (h : m.frames = f :: rest) : currentFrame.outcome m = (some (.ok f), m) := by
  rw [outcome_currentFrame, h]

theorem outcome_currentFrame_of_nil {m : Machine} (h : m.frames = []) :
    currentFrame.outcome m = (some (.error (.ofFault .noConstruction)),
      (Effect.note (.raised .noConstruction)).apply m) := by
  simp [outcome_currentFrame, h, Effect.apply]

/-- A frame that is found is the innermost one. -/
theorem currentFrame_ok {m m' : Machine} {f : Frame}
    (h : currentFrame.outcome m = (some (.ok f), m')) : m' = m ∧ ∃ rest, m.frames = f :: rest := by
  rw [outcome_currentFrame] at h
  split at h <;> simp only [Prod.mk.injEq, Option.some.injEq, Except.ok.injEq, reduceCtorEq,
    false_and] at h
  obtain ⟨rfl, rfl⟩ := h
  exact ⟨rfl, _, ‹_›⟩

/-- Taking off a frame where there is none would be a fault of the machine itself. -/
theorem outcome_popFrame (m : Machine) :
    popFrame.outcome m =
      match m.frames with
      | f :: rest => (some (.ok f), { m with frames := rest })
      | [] =>
        (some (.error (.ofFault .frameLost)),
          { m with trace := .raised .frameLost :: m.trace }) := by
  simp only [popFrame, outcome_bind, outcome_get]
  split <;> simp [Except.map, *]

/-- An object is bound to a frame once only. -/
theorem outcome_bindThis {m : Machine} {f : Frame} {rest : List Frame}
    (h : m.frames = f :: rest) (this : ObjectId) (phase : Phase) :
    (bindThis this phase).outcome m =
      match f.this with
      | none => (some (.ok ⟨⟩), { m with frames := { f with this := some this, phase } :: rest })
      | some _ =>
        (some (.error (.ofFault .boundTwice)),
          { m with trace := .raised .boundTwice :: m.trace }) := by
  simp only [bindThis, outcome_bind, outcome_currentFrame, h, Frame.bind?]
  cases f.this <;> simp [demand, putFrame, h]

theorem outcome_enterPhase {m : Machine} {f : Frame} {rest : List Frame}
    (h : m.frames = f :: rest) (phase : Phase) :
    (enterPhase phase).outcome m =
      (some (.ok ⟨⟩), { m with frames := { f with phase } :: rest }) := by
  simp only [enterPhase, outcome_bind, outcome_currentFrame, h]
  simp [putFrame, Frame.enter, h]

/-! ### What is open to client code -/

/-- The events that client code gives rise to by itself. A frame is never lost by
anything that client code does. -/
def Event.IsClient : Event → Prop
  | .raised f => f ≠ .frameLost
  | .caught _ | .changed _ | .relinked _ => True
  | _ => False

/-- The effects that are open to client code. -/
def Effect.IsClient : Effect → Prop
  | .note e => e.IsClient
  | .object kind _ => kind = .ordinary
  | .define .. | .delete .. | .close _ | .relink .. | .function | .write .. | .log _ => True
  | .draw | .register _ | .withdraw .. | .exchange _ | .push _ | .pop | .frame _ => False

/-! ### Activities and failures -/

/-- The event neither begins or ends an activity nor is about a failure. -/
def Event.IsPlain : Event → Prop
  | .began _ | .finished _ | .failed _ | .raised _ | .caught _ => False
  | _ => True

/-- The effect tells nothing of activities and failures. -/
def Effect.IsPlain : Effect → Prop
  | .note e => e.IsPlain
  | _ => True

/-- The effect takes a registration back, so that it may happen while a failure is on its way. -/
def Effect.IsUndoing : Effect → Prop
  | .note (.withdrawn ..) | .withdraw .. => True
  | _ => False

/-- The effects of an activity as such. -/
def Effect.IsNoteOf (activity : Activity) (e : Effect) : Prop :=
  e = .note (.began activity) ∨ e = .note (.finished activity) ∨ e = .note (.failed activity)

end ClassMachine
