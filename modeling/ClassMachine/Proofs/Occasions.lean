import ClassMachine.Proofs.ConfinedRuns
import ClassMachine.Proofs.FieldOrder

/-!
# On what occasion code is run

A class definition brings code along: computed names, initializers, a constructor body, methods and
accessors. The operations of the machine run it later, each piece on its own occasion. The name of
a field and an initializer are run just after the stage that they belong to has begun
(`ClassMachine.Activity.code`), a body just after it was entered, a function because it is called or
found as a getter or setter.

There is no other occasion. What this means is said by `ClassMachine.PerformsOnly`: an operation
does the same with any two performers that do the same with the tasks on its occasions. So it
does not matter what other tasks would come to, at that time or at any other, and no outcome could
depend on code being run that is not listed here. The list has an entry for each operation
(`ClassMachine.Call.occasions`).

Which records the fields have that are installed on instances is known as well: they are the
instance records of their class (`ClassMachine.Occurs.hasInstanceRecord`), so no static initializer
is among them unless a client gives it to an instance field.

Main statements: `ClassMachine.constructFor_performsOnly`, `ClassMachine.call_performsOnly`.
-/

namespace ClassMachine

variable {α β : Type}

/-! ### What an operation performs -/

/-- Tasks, each with machines on which it is performed. -/
abbrev Occasions := ∀ ⦃β : Type⦄, Task β → Machine → Prop

/-- The two performers do the same on these occasions. -/
def Performer.AgreesOn (O : Occasions) (p q : Performer) : Prop :=
  ∀ ⦃β : Type⦄ (task : Task β) (m : Machine), O task m → (p task).outcome m = (q task).outcome m

/-- Run on the machine, the operation performs tasks on these occasions only: it does the same with
any two performers that do the same on them. -/
def PerformsOnly (O : Occasions) (F : Performer → Action α) (m : Machine) : Prop :=
  ∀ ⦃p q : Performer⦄, p.AgreesOn O q → (F p).outcome m = (F q).outcome m

namespace PerformsOnly

variable {O O' : Occasions} {F : Performer → Action α} {m : Machine}

theorem mono (h : PerformsOnly O F m)
    (hO : ∀ ⦃β : Type⦄ (task : Task β) (n : Machine), O task n → O' task n) :
    PerformsOnly O' F m :=
  fun _ _ hpq => h fun _ task n hn => hpq task n (hO task n hn)

/-- What does not look at the performer performs nothing. -/
theorem alone (x : Action α) (m : Machine) : PerformsOnly O (fun _ => x) m :=
  fun _ _ _ => rfl

theorem task {t : Task α} (h : O t m) : PerformsOnly O (fun perform => perform t) m :=
  fun _ _ hpq => hpq t m h

/-- What follows is looked at on the machine that was left for it. -/
theorem bind {G : α → Performer → Action β} (hF : PerformsOnly O F m)
    (hG : ∀ p a m₁, (F p).outcome m = (some (.ok a), m₁) → PerformsOnly O (G a) m₁) :
    PerformsOnly O (fun perform => F perform >>= fun a => G a perform) m := by
  intro p q hpq
  rw [outcome_bind, outcome_bind, ← hF hpq]
  rcases h : (F p).outcome m with ⟨_ | e | a, m₁⟩
  · rfl
  · rfl
  · exact hG p a m₁ h hpq

theorem bind_observe {G : Except Failure α → Performer → Action β} (hF : PerformsOnly O F m)
    (hG : ∀ r m₁, PerformsOnly O (G r) m₁) :
    PerformsOnly O (fun perform => observe (F perform) >>= fun r => G r perform) m := by
  refine bind (fun p q hpq => ?_) fun _ r m₁ _ => hG r m₁
  rw [outcome_observe, outcome_observe, hF hpq]

theorem read {G : Machine → Performer → Action α} (hG : PerformsOnly O (G m) m) :
    PerformsOnly O (fun perform => get >>= fun n => G n perform) m :=
  fun _ _ hpq => hG hpq

theorem discard (hF : PerformsOnly O F m) :
    PerformsOnly O (fun perform => Functor.discard (F perform)) m :=
  hF.bind fun _ _ m₁ _ => alone (Pure.pure PUnit.unit) m₁

/-- An activity performs what it runs. -/
theorem during {activity : Activity}
    (hF : PerformsOnly O F ((Effect.note (.began activity)).apply m)) :
    PerformsOnly O (fun perform => ClassMachine.during activity (F perform)) m := by
  intro p q hpq
  rw [outcome_during, outcome_during, hF hpq]

end PerformsOnly

/-! ### Stages -/

/-- The code that gives a field its value: the initializer, with the target as its receiver, or
the getter that is found where there is none. -/
def FieldRecord.code (r : FieldRecord) (target : ObjectId) (m : Machine) :
    Option (Expr × Context) :=
  match r.initializer with
  | some e => some (e, { receiver := .ref target })
  | none =>
    match m.store.search r.name target with
    | .owned _ (.accessor (some getter) ..) => some (getter.body, { receiver := .ref target })
    | _ => none

/-- The code that an activity runs on the machine on which it has begun, if it runs any. -/
def Activity.code (m : Machine) : Activity → Option (Expr × Context)
  | namingField _ _ e => some (e, {})
  | staticField _ _ target record | instanceField _ _ target record => record.code target m

/-- Code that gives a field its value has the target of the field as its receiver. -/
theorem FieldRecord.context_of_code {r : FieldRecord} {target : ObjectId} {m : Machine} {e : Expr}
    {ctx : Context} (h : r.code target m = some (e, ctx)) : ctx = { receiver := .ref target } := by
  unfold code at h
  split at h
  · exact (Prod.mk.inj (Option.some.inj h)).2.symm
  · split at h
    · exact (Prod.mk.inj (Option.some.inj h)).2.symm
    · cases h

/-- The code of an activity is run just after the activity has begun. -/
inductive Occasions.Stage (activity : Activity) : ∀ ⦃β : Type⦄, Task β → Machine → Prop
  | run {e : Expr} {ctx : Context} {m : Machine} {old : List Event}
      (h : m.trace = .began activity :: old) (hcode : activity.code m = some (e, ctx)) :
    Stage activity (.eval e ctx) m

theorem callFunction_performsOnly {O : Occasions} {f : Function} {receiver : Value}
    {args : List Value} {m : Machine} (h : O (.eval f.body { receiver, args }) m) :
    PerformsOnly O (fun perform => callFunction perform f receiver args) m :=
  .task h

/-- Reading a property performs a getter, if it finds one. -/
theorem readFrom_performsOnly {O : Occasions} {id : ObjectId} {key : String} {receiver : Value}
    {m : Machine} (h : ∀ owner getter setter enumerable configurable, m.store.search key id =
      .owned owner (.accessor (some getter) setter enumerable configurable) →
        O (.eval getter.body { receiver }) m) :
    PerformsOnly O (fun perform => readFrom perform id key receiver) m := by
  refine .read ?_
  split
  · exact .alone _ m
  next hsearch => exact callFunction_performsOnly (h _ _ _ _ _ hsearch)
  · exact .alone _ m
  · exact .alone _ m
  · exact .alone _ m

/-- The value of a field comes of the code of the field. -/
theorem fieldValue_performsOnly {O : Occasions} {target : ObjectId} {record : FieldRecord}
    {m : Machine} (h : ∀ e ctx, record.code target m = some (e, ctx) → O (.eval e ctx) m) :
    PerformsOnly O (fun perform => fieldValue perform target record) m := by
  unfold fieldValue
  split
  next e hinitializer => exact .task (h e _ (by rw [FieldRecord.code, hinitializer]))
  next hinitializer =>
    refine readFrom_performsOnly fun owner getter setter enumerable configurable hsearch => ?_
    exact h getter.body _ (by rw [FieldRecord.code, hinitializer, hsearch])

/-- Installing a field performs the code of its activity. -/
theorem during_installField_performsOnly {activity : Activity} {target : ObjectId}
    {record : FieldRecord} (hcode : ∀ m, activity.code m = record.code target m) (m : Machine) :
    PerformsOnly (Occasions.Stage activity)
      (fun perform => during activity (installField perform target record)) m := by
  refine .during (.bind (fieldValue_performsOnly fun e ctx h => ?_) fun _ _ n _ => .alone _ n)
  exact .run rfl ((hcode _).trans h)

theorem installFields_performsOnly {activity : FieldRecord → Activity} {target : ObjectId}
    (hcode : ∀ r m, (activity r).code m = r.code target m) {O : Occasions}
    (records : List FieldRecord) (hO : ∀ r ∈ records, ∀ ⦃β : Type⦄ (task : Task β) (m : Machine),
      Occasions.Stage (activity r) task m → O task m) (m : Machine) :
    PerformsOnly O (fun perform => installFields perform activity target records) m := by
  induction records generalizing m with
  | nil => exact .alone _ m
  | cons r rest ih =>
    refine .bind ((during_installField_performsOnly (hcode r) m).mono (hO r List.mem_cons_self))
      fun _ _ n _ => ih (fun r' hr' => hO r' (List.mem_cons_of_mem r hr')) n

/-! ### Constructions -/

/-- When a call of the parent constructor from the frame performs tasks. -/
inductive Occasions.ParentCall (r : Registry) (f : Frame) (args : List Value) :
    ∀ ⦃β : Type⦄, Task β → Machine → Prop
  /-- The parent constructs with the same new-target and the given arguments. -/
  | parent {c : Class} {p : ClassId} {m : Machine} (hc : r.class? f.cls = some c)
      (hp : c.parent = some p) : ParentCall r f args (.construct p f.newTarget args) m
  /-- Instance fields of the class of the frame are installed. -/
  | field {className : String} {target : ObjectId} {record : FieldRecord} {β : Type}
      {task : Task β} {m : Machine}
      (h : Stage (.instanceField f.cls className target record) task m) :
    ParentCall r f args task m

/-- When a construction in a frame of its own performs tasks. -/
inductive Occasions.Construction (r : Registry) (cls newTarget : ClassId) (args : List Value) :
    ∀ ⦃β : Type⦄, Task β → Machine → Prop
  /-- Instance fields of the class are installed. -/
  | field {className : String} {target : ObjectId} {record : FieldRecord} {β : Type}
      {task : Task β} {m : Machine}
      (h : Stage (.instanceField cls className target record) task m) :
    Construction r cls newTarget args task m
  /-- The body of the constructor runs, with the given arguments. -/
  | body {c : Class} {body : Expr} {this : Option ObjectId} {m : Machine} {old : List Event}
      (hc : r.class? cls = some c) (hbody : c.constructor = some body)
      (h : m.trace = .bodyEntered cls this args :: old) :
    Construction r cls newTarget args (.eval body { args }) m
  /-- A derived class without a constructor calls that of its parent. -/
  | parent {c : Class} {β : Type} {task : Task β} {m : Machine} (hc : r.class? cls = some c)
      (hdefault : c.constructor = none) (h : ParentCall r { cls, newTarget } args task m) :
    Construction r cls newTarget args task m

section Construction

variable {settings : Settings} {O : Occasions}

theorem adopt_performsOnly {this : ObjectId} {cls : ClassId}
    (hO : ∀ className record, ∀ ⦃β : Type⦄ (task : Task β) (m : Machine),
      Occasions.Stage (.instanceField cls className this record) task m → O task m)
    (phase : Phase) (m : Machine) :
    PerformsOnly O (fun perform => adopt perform this cls phase) m := by
  have hinstall (n : Machine) :
      PerformsOnly O (fun perform => installInstanceFields perform this cls) n :=
    .bind (.alone _ n) fun _ c n₁ _ => .bind (.alone _ n₁) fun _ _ n₂ _ =>
      .bind (.alone _ n₂) fun _ _ n₃ _ => installFields_performsOnly (fun _ _ => rfl) _
        (fun r _ => hO c.displayName r) n₃
  exact .bind (.alone _ m) fun _ _ n _ => .bind (hinstall n) fun _ _ n₁ _ => .alone _ n₁

theorem superCall_performsOnly {m : Machine} {f : Frame} (hf : f ∈ m.frames.head?)
    (args : List Value) : PerformsOnly (Occasions.ParentCall m.registry f args)
      (fun perform => superCall perform args) m := by
  obtain ⟨rest, hm⟩ := List.head?_eq_some_iff.mp hf
  refine .bind (.alone _ m) fun _ g n hg => ?_
  obtain ⟨rfl, rest', hn⟩ := currentFrame_ok hg
  obtain ⟨rfl, -⟩ := List.cons.inj (hn.symm.trans hm)
  refine .bind (.alone _ n) fun _ c n₁ hc => ?_
  obtain ⟨rfl, hc⟩ := classAt_ok hc
  split
  · exact .alone _ _
  next p hp =>
    exact .bind (.task (.parent hc hp)) fun _ this n₂ _ =>
      .bind (adopt_performsOnly (fun _ _ _ _ _ => .field) _ n₂) fun _ _ n₃ _ => .alone _ n₃

theorem runConstructor_performsOnly {m : Machine} {cls newTarget : ClassId}
    (hf : ({ cls, newTarget } : Frame) ∈ m.frames.head?) (args : List Value) :
    PerformsOnly (Occasions.Construction m.registry cls newTarget args)
      (fun perform => runConstructor perform cls newTarget args) m := by
  refine .bind (.alone _ m) fun _ c n hc => ?_
  obtain ⟨rfl, hc⟩ := classAt_ok hc
  have hbody {body : Expr} (hbody : c.constructor = some body) (this : Option ObjectId)
      (n₁ : Machine) : PerformsOnly (Occasions.Construction n.registry cls newTarget args)
        (fun perform => runBody perform cls this body args) n₁ := by
    refine .bind (.alone _ n₁) fun _ _ n₂ h => ?_
    have htrace : n₂.trace = .bodyEntered cls this args :: n₁.trace :=
      (congrArg Machine.trace (Prod.mk.inj h).2).symm
    exact .discard (.task (.body hc hbody htrace))
  split
  · refine .bind (.alone _ n) fun _ this n₁ _ =>
      .bind (adopt_performsOnly (fun _ _ _ _ _ => .field) _ n₁) fun _ _ n₂ _ => ?_
    split
    next h => exact hbody h _ n₂
    · exact .alone _ n₂
  · split
    next h => exact hbody h _ n
    next h =>
      exact .discard ((superCall_performsOnly hf args).mono fun _ _ _ => .parent hc h)

/-- **What a construction performs**: the initializers and the body of its class, and the
construction through the parent if the class is derived and has no constructor. -/
theorem constructFor_performsOnly (cls newTarget : ClassId) (args : List Value) (m : Machine) :
    PerformsOnly (Occasions.Construction m.registry cls newTarget args)
      (fun perform => constructFor settings perform cls newTarget args) m := by
  intro p q hpq
  rcases Nat.lt_or_ge m.frames.length settings.maxDepth with hroom | hfull
  · have hrun := runConstructor_performsOnly (m := m.begun cls newTarget) rfl args hpq
    rw [outcome_constructFor hroom, outcome_constructFor hroom, hrun]
  · rw [outcome_constructFor_of_full hfull, outcome_constructFor_of_full hfull]

/-- An announcement does not touch the registry. -/
theorem announceConstruction_registry {cls : ClassId} {m m' : Machine}
    (h : (announceConstruction settings cls).outcome m = (some (.ok ⟨⟩), m')) :
    m'.registry = m.registry := by
  rw [announceConstruction, outcome_bind, outcome_get] at h
  dsimp only at h
  split at h
  · exact (congrArg Machine.registry (Prod.mk.inj h).2).symm
  · split at h
    · cases h
    · exact (congrArg Machine.registry (Prod.mk.inj h).2).symm

theorem construct_performsOnly (cls : ClassId) (args : List Value) (m : Machine) :
    PerformsOnly (Occasions.Construction m.registry cls cls args)
      (fun perform => construct settings perform cls args) m := by
  refine .bind (.alone _ m) fun _ _ n h => ?_
  rw [← announceConstruction_registry h]
  exact .bind (constructFor_performsOnly cls cls args n) fun _ _ n₁ _ => .alone _ n₁

end Construction

/-! ### All calls -/

/-- When a call performs tasks. -/
inductive Call.Occasion (m : Machine) :
    ∀ ⦃α : Type⦄, Call α → ∀ ⦃β : Type⦄, Task β → Machine → Prop
  | construct {cls : ClassId} {args : List Value} {β : Type} {task : Task β} {n : Machine}
      (h : Occasions.Construction m.registry cls cls args task n) :
    Occasion m (.construct cls args) task n
  | constructValue {o : ObjectId} {cls : ClassId} {args : List Value} {β : Type} {task : Task β}
      {n : Machine} (hkind : (m.store.object o).kind = .classObject cls)
      (h : Occasions.Construction m.registry cls cls args task n) :
    Occasion m (.constructValue (.ref o) args) task n
  | super {f : Frame} {args : List Value} {β : Type} {task : Task β} {n : Machine}
      (hf : f ∈ m.frames.head?) (h : Occasions.ParentCall m.registry f args task n) :
    Occasion m (.super args) task n
  /-- A definition evaluates its own computed names. -/
  | name {d : ClassDefinition} {e : Expr} {isStatic : Bool} {initializer : Option Expr}
      {β : Type} {task : Task β} {n : Machine}
      (he : .field (.computed e) isStatic initializer ∈ d.elements)
      (h : Occasions.Stage (.namingField m.nextClass d.displayName e) task n) :
    Occasion m (.define d) task n
  /-- And it installs its own static fields on its class object. -/
  | static {d : ClassDefinition} {name : FieldName} {record : FieldRecord} {β : Type}
      {task : Task β} {n : Machine} (hrecord : .field name true record.initializer ∈ d.elements)
      (h : Occasions.Stage
        (.staticField m.nextClass d.displayName m.homes.classObject record) task n) :
    Occasion m (.define d) task n
  | getter {o owner : ObjectId} {key : String} {f : Function} {setter : Option Function}
      {enumerable configurable : Bool} (h : m.store.search key o =
        .owned owner (.accessor (some f) setter enumerable configurable)) :
    Occasion m (.get (.ref o) key) (.eval f.body { receiver := .ref o }) m
  | setter {o owner : ObjectId} {key : String} {value : Value} {getter : Option Function}
      {f : Function} {enumerable configurable : Bool} (h : m.store.search key o =
        .owned owner (.accessor getter (some f) enumerable configurable)) :
    Occasion m (.set (.ref o) key value) (.eval f.body { receiver := .ref o, args := [value] }) m
  | function {f : Function} {receiver : Value} {args : List Value} :
    Occasion m (.call (.function f) receiver args) (.eval f.body { receiver, args }) m
  /-- The property that holds the method may have a getter. -/
  | found {receiver : Value} {key : String} {args : List Value} {β : Type} {task : Task β}
      {n : Machine} (h : Occasion m (.get receiver key) task n) :
    Occasion m (.invoke receiver key args) task n
  | method {p : Performer} {receiver : Value} {key : String} {args : List Value} {f : Function}
      {n : Machine} (h : (readProperty p receiver key).outcome m = (some (.ok (.function f)), n)) :
    Occasion m (.invoke receiver key args) (.eval f.body { receiver, args }) n

/-! ### Definitions -/

/-- A field that was declared comes from an element. -/
theorem collectFields_declared {perform : Performer} {cls : ClassId} {className : String}
    {homes : Homes} {elements : List ClassElement} {m m' : Machine} {fields : List DeclaredField}
    (h : (collectFields perform cls className homes elements).outcome m =
      (some (.ok fields), m')) :
    ∀ f ∈ fields, ∃ name, .field name f.isStatic f.record.initializer ∈ elements := by
  induction elements generalizing m fields with
  | nil =>
    obtain ⟨rfl⟩ := Except.ok.inj (Option.some.inj (Prod.mk.inj h).1)
    exact fun f hf => absurd hf List.not_mem_nil
  | cons element rest ih =>
    rw [collectFields, outcome_bind_eq_ok] at h
    obtain ⟨first, m₁, hfirst, h⟩ := h
    obtain ⟨others, m₂, hothers, h⟩ := outcome_bind_eq_ok.mp h
    cases h
    intro f hf
    rcases List.mem_append.mp hf with hf | hf
    · cases element with
      | method name kind isStatic g =>
        obtain ⟨_, n, -, hfirst⟩ := outcome_bind_eq_ok.mp hfirst
        cases hfirst
        exact absurd hf List.not_mem_nil
      | field name isStatic initializer =>
        obtain ⟨key, n, -, hfirst⟩ := outcome_bind_eq_ok.mp hfirst
        cases hfirst
        obtain rfl := List.mem_singleton.mp hf
        exact ⟨name, List.mem_cons_self⟩
    · obtain ⟨name, hname⟩ := ih hothers f hf
      exact ⟨name, List.mem_cons_of_mem element hname⟩

section Definition

variable {O : Occasions} {cls : ClassId} {className : String} {homes : Homes}

theorem collectFields_performsOnly (elements : List ClassElement)
    (hO : ∀ e isStatic initializer, .field (.computed e) isStatic initializer ∈ elements →
      ∀ ⦃β : Type⦄ (task : Task β) (m : Machine),
        Occasions.Stage (.namingField cls className e) task m → O task m) (m : Machine) :
    PerformsOnly O (fun perform => collectFields perform cls className homes elements) m := by
  induction elements generalizing m with
  | nil => exact .alone _ m
  | cons element rest ih =>
    refine .bind ?_ fun _ _ n _ => .bind (ih (fun e isStatic initializer he =>
      hO e isStatic initializer (List.mem_cons_of_mem element he)) n) fun _ _ n₁ _ => .alone _ n₁
    cases element with
    | method name kind isStatic f => exact .alone _ m
    | field name isStatic initializer =>
      refine .bind ?_ fun _ _ n _ => .alone _ n
      cases name with
      | literal name => exact .alone _ m
      | computed e =>
        have hstage := hO e isStatic initializer List.mem_cons_self
        exact .bind (.during (.task (hstage _ _ (.run rfl rfl)))) fun _ _ n _ => .alone _ n

variable (d : ClassDefinition) (m : Machine)

theorem prepareClass_performsOnly : PerformsOnly ((Call.define d).Occasion m)
    (fun perform => prepareClass perform d) m := by
  intro p q hpq
  rcases d.refused_or_accepted m with ⟨f, hf⟩ | ⟨parent, hd⟩
  · rw [outcome_prepareClass_of_refused hf, outcome_prepareClass_of_refused hf]
  · have hcollect : (collectFields p m.nextClass d.displayName m.homes d.elements).outcome
        (m.prepared d parent) = (collectFields q m.nextClass d.displayName m.homes
          d.elements).outcome (m.prepared d parent) :=
      collectFields_performsOnly d.elements (fun e _ _ he _ _ _ => .name he) _ hpq
    rcases h : (collectFields q m.nextClass d.displayName m.homes d.elements).outcome
      (m.prepared d parent) with ⟨r, n⟩
    rw [outcome_prepareClass_of_accepted hd h,
      outcome_prepareClass_of_accepted hd (hcollect.trans h)]

theorem launchClass_performsOnly {c : Class} (hO : ∀ r ∈ c.staticFields, ∀ ⦃β : Type⦄
    (task : Task β) (n : Machine), Occasions.Stage
      (.staticField c.id c.displayName c.classObject r) task n → O task n) (n : Machine) :
    PerformsOnly O (fun perform => launchClass perform c) n := by
  refine .bind (.alone _ n) fun _ _ n₁ _ => .bind_observe
    (installFields_performsOnly (fun _ _ => rfl) _ hO n₁) fun r n₂ => ?_
  cases r <;> exact .alone _ n₂

/-- **What a definition performs**: its own computed names and static initializers. -/
theorem defineClass_performsOnly : PerformsOnly ((Call.define d).Occasion m)
    (fun perform => defineClass perform d) m := by
  refine .bind (prepareClass_performsOnly d m) fun p c n h => launchClass_performsOnly ?_ n
  intro r hr β task n' hstage
  rcases d.refused_or_accepted m with ⟨f, hf⟩ | ⟨parent, hd⟩
  · rw [outcome_prepareClass_of_refused hf] at h
    cases h
  rw [outcome_prepareClass_of_accepted hd rfl] at h
  obtain ⟨fields, hfields, rfl⟩ := eq_ok_of_map (Prod.mk.inj h).1
  -- the record comes from a static field among the elements
  obtain ⟨f, hf, rfl⟩ := List.mem_map.mp hr
  obtain ⟨hf, hstatic⟩ := List.mem_filter.mp hf
  obtain ⟨name, hname⟩ := collectFields_declared (Prod.ext hfields rfl) f hf
  rw [beq_iff_eq.mp hstatic] at hname
  exact .static hname hstage

end Definition

/-! ### Every call -/

theorem readProperty_performsOnly (target : Value) (key : String) (m : Machine) :
    PerformsOnly ((Call.get target key).Occasion m)
      (fun perform => readProperty perform target key) m := by
  cases target with
  | ref o => exact readFrom_performsOnly fun _ _ _ _ _ h => .getter h
  | _ => exact .alone _ m

theorem assignProperty_performsOnly (target : Value) (key : String) (value : Value)
    (m : Machine) : PerformsOnly ((Call.set target key value).Occasion m)
      (fun perform => assignProperty perform target key value) m := by
  cases target with
  | ref o =>
    refine .read ?_
    split
    next h => exact .discard (callFunction_performsOnly (.setter h))
    all_goals exact .alone _ m
  | _ => exact .alone _ m

theorem callValue_performsOnly {O : Occasions} {callee receiver : Value} {args : List Value}
    {m : Machine} (h : ∀ f, callee = .function f → O (.eval f.body { receiver, args }) m) :
    PerformsOnly O (fun perform => callValue perform callee receiver args) m := by
  cases callee with
  | function f => exact callFunction_performsOnly (h f rfl)
  | _ => exact .alone _ m

/-- The class of which a value turns out to be the class object. -/
theorem calledClass_ok {callee : Value} {cls : ClassId} {m m' : Machine}
    (h : (calledClass callee).outcome m = (some (.ok cls), m')) :
    m' = m ∧ ∃ o, callee = .ref o ∧ (m.store.object o).kind = .classObject cls := by
  cases callee with
  | ref o =>
    obtain ⟨x, n, hx, h⟩ := outcome_bind_eq_ok.mp h
    cases hx
    split at h
    next id hkind =>
      cases h
      exact ⟨rfl, o, rfl, hkind⟩
    next => cases h
  | _ => cases h

/-- **What a call performs** is on the list. -/
theorem call_performsOnly (settings : Settings) (c : Call α) (m : Machine) :
    PerformsOnly (c.Occasion m) (fun perform => c.run settings perform) m := by
  cases c with
  | construct cls args => exact (construct_performsOnly cls args m).mono fun _ _ _ => .construct
  | constructValue callee args =>
    refine .bind (.alone _ m) fun _ cls n h => ?_
    obtain ⟨rfl, o, rfl, hkind⟩ := calledClass_ok h
    exact (construct_performsOnly cls args n).mono fun _ _ _ => .constructValue hkind
  | super args =>
    rcases hm : m.frames with _ | ⟨f, rest⟩
    · refine .bind (.alone _ m) fun _ g n hg => ?_
      rw [outcome_currentFrame_of_nil hm] at hg
      cases hg
    · have hf : f ∈ m.frames.head? := by simp [hm]
      exact (superCall_performsOnly hf args).mono fun _ _ _ => .super hf
  | define d => exact defineClass_performsOnly d m
  | replace cls field initializer => exact .alone _ m
  | get target key => exact readProperty_performsOnly target key m
  | set target key value => exact assignProperty_performsOnly target key value m
  | call callee receiver args => exact callValue_performsOnly fun f h => h ▸ .function
  | invoke receiver key args =>
    refine .bind ((readProperty_performsOnly receiver key m).mono fun _ _ _ => .found)
      fun p callee n h => callValue_performsOnly fun f hf => ?_
    subst hf
    exact .method h

/-! ### The records of instances -/

/-- The record is one that the class has been registered with for its instances, but perhaps with
an initializer that it has been given since. -/
def Machine.HasInstanceRecord (m : Machine) (cls : ClassId) (record : FieldRecord) : Prop :=
  ∃ c : Class, .registered c ∈ m.trace ∧ c.id = cls ∧ ∃ r ∈ c.instanceFields,
    r.name = record.name ∧ (record.initializer = r.initializer ∨
      .replaced cls record.name record.initializer ∈ m.trace)

/-- The records of a class come from its registration and from exchanges. -/
theorem Chronicle.mem_fieldsOf {H : Chronicle} {cls : ClassId} {record : FieldRecord}
    (h : record ∈ H.fieldsOf cls) : ∃ c : Class, .registered c ∈ H ∧ c.id = cls ∧
      ∃ r ∈ c.instanceFields, r.name = record.name ∧ (record.initializer = r.initializer ∨
        .replaced cls record.name record.initializer ∈ H) := by
  induction H generalizing record with
  | nil => exact absurd h List.not_mem_nil
  | cons e H ih =>
    have older {record' : FieldRecord} (h : record' ∈ fieldsOf H cls) (hname : record'.name =
        record.name) (hsame : record.initializer = record'.initializer ∨
          e = .replaced cls record.name record.initializer) : ∃ c : Class, .registered c ∈ e :: H ∧
          c.id = cls ∧ ∃ r ∈ c.instanceFields, r.name = record.name ∧
            (record.initializer = r.initializer ∨
              .replaced cls record.name record.initializer ∈ e :: H) := by
      obtain ⟨c, hc, hid, r, hr, hrname, hinitializer⟩ := ih h
      refine ⟨c, List.mem_cons_of_mem e hc, hid, r, hr, hrname.trans hname, ?_⟩
      rcases hsame with hsame | rfl
      · rw [hsame, ← hname]
        exact hinitializer.imp_right (List.mem_cons_of_mem e)
      · exact .inr List.mem_cons_self
    cases e with
    | registered c =>
      rw [fieldsOf] at h
      split at h
      next hid => exact ⟨c, List.mem_cons_self, hid, record, h, rfl, .inl rfl⟩
      next => exact older h rfl (.inl rfl)
    | replaced id field initializer =>
      rw [fieldsOf] at h
      split at h
      next hid =>
        -- the exchange is for this class, and for the name of the record or another one
        subst hid
        obtain ⟨r, hr, rfl⟩ := List.mem_map.mp h
        refine older hr (by split <;> rfl) ?_
        split
        next hname => exact .inr (by simp [hname])
        next => exact .inl rfl
      next => exact older h rfl (.inl rfl)
    | _ => exact older h rfl (.inl rfl)

section Sound

variable {m : Machine}

/-- A field that was begun on an object is begun at one of its levels. -/
theorem Machine.Sound.hasInstanceRecord (hm : m.Coherent) (hs : m.Sound) {cls : ClassId}
    {className : String} {o : ObjectId} {record : FieldRecord}
    (h : .began (.instanceField cls className o record) ∈ m.trace) :
    m.HasInstanceRecord cls record := by
  have hhistory : .began (.instanceField cls className o record) ∈ historyOf m.trace o :=
    mem_historyOf.mpr ⟨h, beq_self_eq_true o⟩
  rcases hs.lawful o with hnone | ⟨newTarget, levels, hlevels⟩
  · rw [hnone] at hhistory
    exact absurd hhistory List.not_mem_nil
  have horder := hs.inOrder hm hlevels
  have hstart : (cls, record) ∈ startsOf m.trace o := List.mem_filterMap.mpr ⟨_, hhistory, rfl⟩
  rw [horder.starts] at hstart
  obtain ⟨l, hl, hstart⟩ := List.mem_flatMap.mp hstart
  obtain ⟨r, hr, heq⟩ := List.mem_map.mp hstart
  obtain ⟨rfl, rfl⟩ := Prod.mk.inj heq
  -- the level has the records that its class had when it began
  obtain ⟨new, old, htrace, hrecords, -⟩ := horder.records l hl
  obtain ⟨c, hc, hid, r₀, hr₀, hname, hinitializer⟩ :=
    Chronicle.mem_fieldsOf (hrecords ▸ (horder.starts_prefix l hl).subset hr)
  have hold {e : Event} (he : e ∈ chronicleOf old) : e ∈ m.trace := by
    rw [htrace]
    exact List.mem_append_right new (List.mem_cons_of_mem _ (List.mem_of_mem_filter he))
  exact ⟨c, hold hc, hid, r₀, hr₀, hname, hinitializer.imp_right hold⟩

theorem Occurs.sound {settings : Settings} (hm : Occurs settings m) : m.Coherent ∧ m.Sound :=
  hm.of_moments ((fields_sound settings).imp_left fun h m hm => ⟨(h m hm).1, (h m hm).2.1⟩)
    fun e m he ⟨hcoherent, hs⟩ => by
      obtain ⟨hsettles, hfields⟩ :=
        registryLaw_allows he.keepsRegistry (fieldsLaw_allows he.keepsFields) m hcoherent
      exact ⟨hsettles.coherent, (hfields hs).1⟩

theorem Occurs.coherent {settings : Settings} (hm : Occurs settings m) : m.Coherent :=
  hm.sound.1

/-- **What is installed on instances** are instance records of their classes. -/
theorem Occurs.hasInstanceRecord {settings : Settings} (hm : Occurs settings m) {cls : ClassId}
    {className : String} {o : ObjectId} {record : FieldRecord}
    (h : .began (.instanceField cls className o record) ∈ m.trace) :
    m.HasInstanceRecord cls record :=
  hm.sound.2.hasInstanceRecord hm.coherent h

end Sound

end ClassMachine
