import ClassMachine.Proofs.Operations

/-!
# What client code can get at

Client code gets at an object in no other way than by following references: from a register, the
receiver or an argument to an object, from there to the values of its properties and along its
link, to the object of a frame, to the two objects of a registered class. So an object that no
reference leads to stays as it is, whatever runs, and no reference to it comes up. The machine
hides such objects (`ClassMachine.Machine.Hides`); at the same time there is no reference to an
object that is not there yet, so that a new object is one that nobody knows of.

Which objects are hidden is a parameter. Nothing at all may be hidden, and then what is shown is
that no reference dangles.

* `ClassMachine.Effect.Visible` is what an effect may do, and
  `ClassMachine.Effect.Visible.leaves` is what it leaves alone then;
* `ClassMachine.Action.Respects` says of an action that it has such effects only and answers with
  a reference to a visible object, if with any. It is closed under putting actions together, as
  long as the number of objects is taken into account: what is visible at some moment is so later
  on.
-/

namespace ClassMachine

variable {α β : Type}

/-! ### Visible things -/

/-- The object is there, one of the first so many, and it is not hidden. -/
def Seen (H : ObjectId → Prop) (n : Nat) (o : ObjectId) : Prop :=
  o < n ∧ ¬ H o

section Visible

variable (H : ObjectId → Prop) (n : Nat)

/-- The value is no reference, or one to an object that is seen. -/
def Value.Visible : Value → Prop
  | .ref o => Seen H n o
  | _ => True

def Property.Visible : Property → Prop
  | .data v .. => v.Visible H n
  | .accessor .. => True

/-- The object leads to objects that are seen. -/
structure Object.Visible (o : Object) : Prop where
  properties : ∀ key p, o.property? key = some p → p.Visible H n
  prototype : ∀ q ∈ o.prototype, Seen H n q

/-- The objects of the class are seen. -/
structure Class.Visible (c : Class) : Prop where
  prototype : Seen H n c.prototype
  classObject : Seen H n c.classObject

def Frame.Visible (f : Frame) : Prop :=
  ∀ o ∈ f.this, Seen H n o

/-- What running code has at hand leads to objects that are seen. -/
structure Context.Visible (ctx : Context) : Prop where
  receiver : ctx.receiver.Visible H n
  args : ∀ v ∈ ctx.args, v.Visible H n

/-- What the effect writes leads to objects that are seen, and so is the object that it writes
to. -/
def Effect.Visible : Effect → Prop
  | .object _ prototype => ∀ q ∈ prototype, Seen H n q
  | .define id _ p => Seen H n id ∧ p.Visible H n
  | .delete id _ | .close id => Seen H n id
  | .relink id prototype => Seen H n id ∧ ∀ q ∈ prototype, Seen H n q
  | .write _ v => v.Visible H n
  | .register c | .exchange c => c.Visible H n
  | .push f | .frame f => f.Visible H n
  | .note _ | .function | .log _ | .draw | .withdraw .. | .pop => True

end Visible

/-- Nothing that client code can get at leads to a hidden object, or to one that is not there. -/
structure Machine.Hides (H : ObjectId → Prop) (m : Machine) : Prop where
  /-- What is hidden is there, so new objects are seen. -/
  known : ∀ o, H o → o < m.store.size
  objects : ∀ o, Seen H m.store.size o → (m.store.object o).Visible H m.store.size
  registers : ∀ (name : String) (v : Value), m.registers[name]? = some v → v.Visible H m.store.size
  frames : ∀ f ∈ m.frames, f.Visible H m.store.size
  classes : ∀ id c, m.registry.class? id = some c → c.Visible H m.store.size

/-- The hidden objects are as they were, and still hidden. -/
structure Machine.Leaves (H : ObjectId → Prop) (m m' : Machine) : Prop where
  hides : m'.Hides H
  size : m.store.size ≤ m'.store.size
  same : ∀ o, H o → m'.store.object o = m.store.object o

/-- The second machine is what effects that may happen make of the first one. -/
inductive Machine.Visibly (H : ObjectId → Prop) : Machine → Machine → Prop
  | refl (m : Machine) : Visibly H m m
  | step {m m' : Machine} {e : Effect} (he : e.Visible H m.store.size)
    (h : Visibly H (e.apply m) m') : Visibly H m m'

/-- What may happen has happened, and the hidden objects are as they were, and still hidden. -/
structure Machine.Spares (H : ObjectId → Prop) (m m' : Machine) : Prop
    extends m.Leaves H m' where
  visibly : m.Visibly H m'

section Imp

variable {H H' : ObjectId → Prop} {n n' : Nat} (hseen : ∀ o, Seen H n o → Seen H' n' o)

include hseen

/-! What leads to seen objects does so when more is seen. -/

/-- A value mentions one object at most. -/
theorem Value.Visible.imp {v : Value} (h : v.Visible H n) : v.Visible H' n' := by
  cases v with
  | ref o => exact hseen o h
  | _ => trivial

theorem Property.Visible.imp {p : Property} (h : p.Visible H n) : p.Visible H' n' := by
  cases p with
  | data v => exact Value.Visible.imp hseen h
  | accessor => trivial

theorem Object.Visible.imp {o : Object} (h : o.Visible H n) : o.Visible H' n' :=
  ⟨fun key p hp => (h.properties key p hp).imp hseen, fun q hq => hseen q (h.prototype q hq)⟩

theorem Class.Visible.imp {c : Class} (h : c.Visible H n) : c.Visible H' n' :=
  ⟨hseen _ h.prototype, hseen _ h.classObject⟩

theorem Frame.Visible.imp {f : Frame} (h : f.Visible H n) : f.Visible H' n' :=
  fun o ho => hseen o (h o ho)

end Imp

section Mono

variable {H : ObjectId → Prop} {n n' : Nat} (hn : n ≤ n')

include hn

/-- An object that is seen stays so when there are more objects. -/
theorem Seen.mono {o : ObjectId} (h : Seen H n o) : Seen H n' o :=
  ⟨Nat.lt_of_lt_of_le h.1 hn, h.2⟩

theorem Value.Visible.mono {v : Value} (h : v.Visible H n) : v.Visible H n' :=
  h.imp fun _ => Seen.mono hn

theorem Property.Visible.mono {p : Property} (h : p.Visible H n) : p.Visible H n' :=
  h.imp fun _ => Seen.mono hn

theorem Object.Visible.mono {o : Object} (h : o.Visible H n) : o.Visible H n' :=
  h.imp fun _ => Seen.mono hn

theorem Class.Visible.mono {c : Class} (h : c.Visible H n) : c.Visible H n' :=
  h.imp fun _ => Seen.mono hn

theorem Frame.Visible.mono {f : Frame} (h : f.Visible H n) : f.Visible H n' :=
  h.imp fun _ => Seen.mono hn

theorem visible_args_mono {args : List Value} (h : ∀ v ∈ args, v.Visible H n) :
    ∀ v ∈ args, v.Visible H n' :=
  fun v hv => (h v hv).mono hn

theorem Context.Visible.mono {ctx : Context} (h : ctx.Visible H n) : ctx.Visible H n' :=
  ⟨h.receiver.mono hn, visible_args_mono hn h.args⟩

/-- What may happen now may happen when there are more objects. -/
theorem Effect.Visible.mono {e : Effect} (h : e.Visible H n) : e.Visible H n' := by
  cases e with
  | object kind prototype => exact fun q hq => (h q hq).mono hn
  | define id key p => exact ⟨h.1.mono hn, h.2.mono hn⟩
  | delete id key | close id => exact Seen.mono hn h
  | relink id prototype => exact ⟨h.1.mono hn, fun q hq => (h.2 q hq).mono hn⟩
  | write name v => exact Value.Visible.mono hn h
  | register c | exchange c => exact Class.Visible.mono hn h
  | push f | frame f => exact Frame.Visible.mono hn h
  | _ => trivial

end Mono

/-! ### Objects -/

namespace Object.Visible

variable {H : ObjectId → Prop} {n : Nat} {o : Object} (h : o.Visible H n)

include h

/-- A property with a visible value may be defined. -/
theorem define {o' : Object} {key : String} {p : Property} (hdefine : o.define key p = .ok o')
    (hp : p.Visible H n) : o'.Visible H n where
  properties key' p' hp' := by
    rw [Object.property?_of_define hdefine] at hp'
    split at hp'
    · obtain rfl := Option.some.inj hp'
      exact hp
    · exact h.properties key' p' hp'
  prototype q hq := h.prototype q ((Object.shape_of_define hdefine).2 ▸ hq)

/-- What is left after a property is gone was there before. -/
theorem delete (key : String) : (o.delete key).2.Visible H n := by
  refine ⟨fun key' p hp => ?_, fun q hq => h.prototype q ((o.shape_delete key).2 ▸ hq)⟩
  -- what is still there was there before
  unfold Object.delete at hp
  split at hp
  · split at hp
    · simp only [Object.property?, Std.ExtTreeMap.getElem?_erase] at hp
      split at hp
      · simp at hp
      · exact h.properties key' p hp
    · exact h.properties key' p hp
  · exact h.properties key' p hp

theorem preventExtensions : o.preventExtensions.Visible H n :=
  ⟨h.properties, h.prototype⟩

theorem relink {prototype : Option ObjectId} (hprototype : ∀ q ∈ prototype, Seen H n q) :
    (o.relink prototype).Visible H n :=
  ⟨h.properties, hprototype⟩

end Object.Visible

/-- What a search along the links finds is visible. -/
theorem Store.visible_of_searchFrom {H : ObjectId → Prop} {n : Nat} {s : Store}
    (hs : ∀ o, Seen H n o → (s.object o).Visible H n) {key : String} {owner : ObjectId}
    {p : Property} {fuel : Nat} {start : Option ObjectId} (hstart : ∀ o ∈ start, Seen H n o)
    (h : s.searchFrom key fuel start = .owned owner p) : p.Visible H n := by
  induction fuel generalizing start with
  | zero => cases start <;> simp [searchFrom] at h
  | succ fuel ih =>
    cases start with
    | none => simp [searchFrom] at h
    | some id =>
      have hid := hs id (hstart id rfl)
      rw [searchFrom] at h
      split at h
      next p' hp' =>
        obtain ⟨-, rfl⟩ := Search.owned.inj h
        exact hid.properties key p' hp'
      next => exact ih hid.prototype h

/-! ### Effects -/

namespace Machine

variable {H : ObjectId → Prop} {m m' m'' : Machine}

/-- Nothing has happened to what is hidden. -/
theorem Leaves.refl (h : m.Hides H) : m.Leaves H m :=
  ⟨h, Nat.le_refl _, fun _ _ => rfl⟩

/-- What is left alone by one part and by the next is left alone by both. -/
theorem Leaves.trans (h : m.Leaves H m') (h' : m'.Leaves H m'') : m.Leaves H m'' :=
  ⟨h'.hides, Nat.le_trans h.size h'.size, fun o ho => (h'.same o ho).trans (h.same o ho)⟩

theorem Visibly.trans (h : m.Visibly H m') (h' : m'.Visibly H m'') : m.Visibly H m'' := by
  induction h with
  | refl => exact h'
  | step he _ ih => exact .step he (ih h')

theorem Spares.refl (h : m.Hides H) : m.Spares H m :=
  ⟨.refl h, .refl m⟩

/-- What is spared by one part and by the next is spared by both. -/
theorem Spares.trans (h : m.Spares H m') (h' : m'.Spares H m'') : m.Spares H m'' :=
  ⟨h.toLeaves.trans h'.toLeaves, h.visibly.trans h'.visibly⟩

/-- Nothing but the store matters for what the objects lead to. -/
theorem Hides.with_store (h : m.Hides H) (hstore : m'.store = m.store)
    (hregisters : ∀ (name : String) (v : Value), m'.registers[name]? = some v →
      v.Visible H m.store.size)
    (hframes : ∀ f ∈ m'.frames, f.Visible H m.store.size)
    (hclasses : ∀ id c, m'.registry.class? id = some c → c.Visible H m.store.size) :
    m.Leaves H m' := by
  refine ⟨⟨?_, ?_, ?_, ?_, ?_⟩, Nat.le_of_eq (by rw [hstore]), fun o _ => by rw [hstore]⟩
  all_goals rw [hstore]
  · exact h.known
  · exact h.objects
  · exact hregisters
  · exact hframes
  · exact hclasses

/-- An object that is seen may be replaced by one that is visible. -/
theorem Hides.put (h : m.Hides H) {id : ObjectId} {o : Object} (hid : ¬ H id)
    (ho : o.Visible H m.store.size) : m.Leaves H { m with store := m.store.put id o } := by
  have hsize : (m.store.put id o).size = m.store.size := m.store.size_put id o
  refine ⟨⟨?_, fun x hx => ?_, ?_, ?_, ?_⟩, Nat.le_of_eq hsize.symm, fun x hx => ?_⟩
  case refine_2 =>
    simp only [hsize] at hx ⊢
    rw [Store.object_put]
    split
    · exact ho
    · exact h.objects x hx
  case refine_6 =>
    rw [Store.object_put, if_neg]
    rintro ⟨rfl, -⟩
    exact hid hx
  all_goals simp only [hsize]
  · exact h.known
  · exact h.registers
  · exact h.frames
  · exact h.classes

/-- A hidden object may be replaced by any other. -/
theorem Hides.put_hidden (h : m.Hides H) {id : ObjectId} (hid : H id) (o : Object) :
    Hides H { m with store := m.store.put id o } := by
  have hsize : (m.store.put id o).size = m.store.size := m.store.size_put id o
  refine ⟨?_, fun x hx => ?_, ?_, ?_, ?_⟩
  case refine_2 =>
    simp only [hsize] at hx ⊢
    rw [Store.object_put, if_neg]
    · exact h.objects x hx
    · rintro ⟨rfl, -⟩
      exact hx.2 hid
  all_goals simp only [hsize]
  · exact h.known
  · exact h.registers
  · exact h.frames
  · exact h.classes

/-- A new object is seen. -/
theorem Hides.seen_size (h : m.Hides H) {n : Nat} (hn : m.store.size < n) :
    Seen H n m.store.size :=
  ⟨hn, fun ho => Nat.lt_irrefl _ (h.known _ ho)⟩

/-- A new object may lead to what is seen. -/
theorem Hides.add (h : m.Hides H) {o : Object} (ho : o.Visible H m.store.size) :
    m.Leaves H { m with store := (m.store.add o).2 } := by
  have hsize : (m.store.add o).2.size = m.store.size + 1 := m.store.size_add o
  have hle : m.store.size ≤ m.store.size + 1 := Nat.le_succ _
  refine ⟨⟨fun x hx => ?_, fun x hx => ?_, fun name v hv => ?_, fun f hf => ?_,
    fun id c hc => ?_⟩, hsize ▸ hle, fun x hx => ?_⟩
  all_goals simp only [hsize]
  · exact Nat.lt_succ_of_lt (h.known x hx)
  · simp only [hsize] at hx
    rw [Store.object_add]
    split
    · exact ho.mono hle
    next hne =>
      have hx : Seen H m.store.size x := ⟨Nat.lt_of_le_of_ne (Nat.le_of_lt_succ hx.1) hne, hx.2⟩
      exact (h.objects x hx).mono hle
  · exact (h.registers name v hv).mono hle
  · exact (h.frames f hf).mono hle
  · exact (h.classes id c hc).mono hle
  · rw [Store.object_add, if_neg]
    exact Nat.ne_of_lt (h.known x hx)

end Machine

/-- **What an effect may do** to visible things leaves the hidden ones alone. -/
theorem Effect.Visible.leaves {H : ObjectId → Prop} {m : Machine} {e : Effect}
    (he : e.Visible H m.store.size) (h : m.Hides H) : m.Leaves H (e.apply m) := by
  cases e with
  | object kind prototype =>
    refine h.add (o := { kind, prototype }) ⟨fun key p hp => ?_, he⟩
    simp [Object.property?] at hp
  | define id key p =>
    simp only [apply]
    split
    next o' ho' => exact h.put he.1.2 ((h.objects id he.1).define ho' he.2)
    next => exact .refl h
  | delete id key => exact h.put he.2 ((h.objects id he).delete key)
  | close id => exact h.put he.2 (h.objects id he).preventExtensions
  | relink id prototype =>
    have hput := h.put he.1.2 ((h.objects id he.1).relink he.2)
    exact hput.trans (hput.hides.with_store rfl hput.hides.registers hput.hides.frames
      hput.hides.classes)
  | write name v =>
    refine h.with_store rfl (fun name' v' hv' => ?_) h.frames h.classes
    simp only [apply, Std.ExtTreeMap.getElem?_insert, Std.LawfulEqCmp.compare_eq_iff_eq] at hv'
    split at hv'
    · obtain rfl := Option.some.inj hv'
      exact he
    · exact h.registers name' v' hv'
  | register c =>
    refine h.with_store rfl h.registers h.frames fun id c' hc' => ?_
    simp only [apply, Registry.class?_register] at hc'
    split at hc'
    · obtain rfl := Option.some.inj hc'
      exact he
    · exact h.classes id c' hc'
  | exchange c =>
    refine h.with_store rfl h.registers h.frames fun id c' hc' => ?_
    simp only [apply, Registry.class?_put] at hc'
    split at hc'
    · obtain rfl := Option.some.inj hc'
      exact he
    · exact h.classes id c' hc'
  | withdraw id shadowed =>
    refine h.with_store rfl h.registers h.frames fun id' c hc => ?_
    simp only [apply, Registry.class?_withdraw] at hc
    split at hc
    · simp at hc
    · exact h.classes id' c hc
  | push f =>
    exact h.with_store rfl h.registers (List.forall_mem_cons.mpr ⟨he, h.frames⟩) h.classes
  | pop =>
    exact h.with_store rfl h.registers (fun f hf => h.frames f (List.mem_of_mem_tail hf))
      h.classes
  | frame f =>
    refine h.with_store rfl h.registers (List.forall_mem_cons.mpr ⟨he, fun g hg => ?_⟩) h.classes
    exact h.frames g (List.mem_of_mem_tail hg)
  | _ => exact h.with_store rfl h.registers h.frames h.classes

/-- So a single effect spares the hidden objects. -/
theorem Effect.Visible.spares {H : ObjectId → Prop} {m : Machine} {e : Effect}
    (he : e.Visible H m.store.size) (h : m.Hides H) : m.Spares H (e.apply m) :=
  ⟨he.leaves h, .step he (.refl _)⟩

/-- And so do effects one after the other, if they may happen at the start. -/
theorem Effect.spares_applyAll {H : ObjectId → Prop} {m : Machine} {es : List Effect}
    (hes : ∀ e ∈ es, e.Visible H m.store.size) (h : m.Hides H) :
    m.Spares H (Effect.applyAll es m) := by
  induction es generalizing m with
  | nil => exact .refl h
  | cons e es ih =>
    obtain ⟨he, hes⟩ := List.forall_mem_cons.mp hes
    have hfirst := he.spares h
    exact hfirst.trans (ih (fun e' he' => (hes e' he').mono hfirst.size) hfirst.hides)

/-! ### Actions -/

/-- From every machine on that hides these objects and has at least so many, the action spares
them, and its answer is good for the number of objects that there are then. -/
def Action.Respects (H : ObjectId → Prop) (n : Nat) (x : Action α) (P : Nat → α → Prop) : Prop :=
  ∀ m, n ≤ m.store.size → m.Hides H →
    x.Ensures m fun r m' => m.Spares H m' ∧ ∀ a, r = some (.ok a) → P m'.store.size a

namespace Action.Respects

variable {H : ObjectId → Prop} {n : Nat} {x : Action α} {f : α → Action β}
  {P P' : Nat → α → Prop} {Q : Nat → β → Prop}

/-- Less may be said of the answer. -/
theorem weaken (h : x.Respects H n P) (hP : ∀ n' a, P n' a → P' n' a) : x.Respects H n P' :=
  fun m hn hm => (h m hn hm).mono fun _ _ h => ⟨h.1, fun a ha => hP _ a (h.2 a ha)⟩

/-- The second action starts with as many objects as the first one has left, and may use its answer.
-/
theorem bind (h : x.Respects H n P) (hf : ∀ n', n ≤ n' → ∀ a, P n' a → (f a).Respects H n' Q) :
    (x >>= f).Respects H n Q := by
  intro m hn hm
  refine (h m hn hm).bind (fun a m₁ _ h₁ => ?_) (fun _ _ h₁ => ⟨h₁.1, by simp⟩)
    fun _ h₁ => ⟨h₁.1, by simp⟩
  obtain ⟨hspares, ha⟩ := h₁
  refine (hf _ (Nat.le_trans hn hspares.size) a (ha a rfl) m₁ (Nat.le_refl _) hspares.hides).mono
    fun _ _ h₂ => ⟨hspares.trans h₂.1, h₂.2⟩

/-- Of a failure nothing has to be said. -/
theorem observe (h : x.Respects H n P) :
    (observe x).Respects H n fun n' r => ∀ a, r = .ok a → P n' a := by
  intro m hn hm
  refine (h m hn hm).observe (fun r m' h => ⟨h.1, ?_⟩) fun m' h => ⟨h.1, by simp⟩
  rintro _ ⟨⟩ a rfl
  exact h.2 a rfl

theorem breakOff : (breakOff : Action α).Respects H n P :=
  fun _ _ hm => ⟨.refl hm, by simp⟩

theorem pure {a : α} (h : ∀ n', n ≤ n' → P n' a) : (pure a : Action α).Respects H n P := by
  refine fun m hn hm => ⟨.refl hm, ?_⟩
  rintro _ ⟨⟩
  exact h _ hn

/-- Who reads the machine knows how many objects there are. -/
theorem get : (get : Action Machine).Respects H n fun n' m => n' = m.store.size ∧ m.Hides H := by
  refine fun m hn hm => ⟨.refl hm, ?_⟩
  rintro _ ⟨⟩
  exact ⟨rfl, hm⟩

/-- Effects that may happen, and an answer or a failure. -/
theorem effects (h : ∀ m, n ≤ m.store.size → m.Hides H → ∃ r es,
    (∀ e ∈ es, Effect.Visible H m.store.size e) ∧ x.outcome m = (some r, Effect.applyAll es m) ∧
      ∀ a, r = .ok a → P (Effect.applyAll es m).store.size a) : x.Respects H n P := by
  intro m hn hm
  obtain ⟨r, es, hes, hx, ha⟩ := h m hn hm
  refine .of_outcome hx ⟨Effect.spares_applyAll hes hm, ?_⟩
  rintro a ⟨⟩
  exact ha a rfl

theorem note (e : Event) : (note e).Respects H n fun _ _ => True :=
  effects fun _ _ _ => ⟨_, [.note e], by simp [Effect.Visible], rfl, fun _ _ => trivial⟩

theorem raise (f : Fault) : (raise f : Action α).Respects H n P :=
  effects fun _ _ _ => ⟨_, [.note (.raised f)], by simp [Effect.Visible], rfl, by simp⟩

theorem throw (e : Failure) : (throw e : Action α).Respects H n P :=
  effects fun _ _ _ => ⟨_, [], by simp, rfl, by simp⟩

theorem demand {r : Except Fault α} (h : ∀ a, r = .ok a → ∀ n', n ≤ n' → P n' a) :
    (demand r).Respects H n P := by
  cases r with
  | ok a => exact .pure (h a rfl)
  | error f => exact .raise f

theorem settle {r : Except Failure α} (h : ∀ a, r = .ok a → ∀ n', n ≤ n' → P n' a) :
    (settle r).Respects H n P := by
  cases r with
  | ok a => exact .pure (h a rfl)
  | error e => exact .throw e

theorem discard (h : x.Respects H n P) : (discard x).Respects H n fun _ _ => True := by
  rw [discard_eq_bind]
  exact h.bind fun _ _ _ _ => .pure fun _ _ => trivial

/-- An activity answers as what it runs does, if the answer stays good. -/
theorem during (activity : Activity) (h : x.Respects H n P)
    (hP : ∀ n₁ n₂ a, n₁ ≤ n₂ → P n₁ a → P n₂ a) : (during activity x).Respects H n P := by
  refine (note _).bind fun n₁ hn₁ _ _ => .bind (P := fun n' r => ∀ a, r = .ok a → P n' a)
    (fun m hm => h.observe m (Nat.le_trans hn₁ hm)) fun n₂ _ r hr => ?_
  cases r with
  | ok a =>
    exact (note _).bind fun n₃ hn₃ _ _ => .pure fun n₄ hn₄ =>
      hP n₂ n₄ a (Nat.le_trans hn₃ hn₄) (hr a rfl)
  | error e => exact (note _).bind fun _ _ _ _ => .throw _

end Action.Respects

end ClassMachine
