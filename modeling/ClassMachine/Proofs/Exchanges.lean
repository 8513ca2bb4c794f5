import ClassMachine.Definition
import ClassMachine.Proofs.Chronicle
import ClassMachine.Proofs.Law

/-!
# What an exchange of initializers does

An exchange gives an initializer to all instance fields of one name in one class. It is refused if
there is no such class, or if the class has no field of that name
(`ClassMachine.Registry.refusal?`). This depends on the names of the fields only, which no exchange
changes, so an exchange is refused or not whatever other exchanges there have been.

One that is not refused changes a single class in the registry, and in this class the fields of a
single name (`ClassMachine.Registry.exchanged`). So exchanges can change places unless they are for
the same name in the same class. One that is refused would change the fields of a name that there
is not, and that is nothing. Thus `ClassMachine.Registry.exchanged` is what becomes of the registry
in either case, and there are no cases to distinguish when two exchanges are put together.

Main statement: `ClassMachine.Machine.exchangesInOrder`.
-/

namespace ClassMachine

/-! ### Records -/

/-- A name that there is not has no initializer to exchange. -/
theorem FieldRecord.replaceAll_of_notMem {field : String} {records : List FieldRecord}
    (h : field ∉ records.map FieldRecord.name) (initializer : Option Expr) :
    replaceAll field initializer records = records := by
  have hname (r : FieldRecord) (hr : r ∈ records) :
      (if r.name = field then { r with initializer := initializer } else r) = r :=
    if_neg fun hname => h (List.mem_map.mpr ⟨r, hr, hname⟩)
  rw [replaceAll, List.map_congr_left hname, List.map_id']

/-- Exchanges for two names can change places. -/
theorem FieldRecord.replaceAll_comm {field field' : String} (h : field ≠ field')
    (initializer initializer' : Option Expr) (records : List FieldRecord) :
    replaceAll field initializer (replaceAll field' initializer' records) =
      replaceAll field' initializer' (replaceAll field initializer records) := by
  rw [replaceAll, replaceAll, replaceAll, replaceAll, List.map_map, List.map_map]
  refine List.map_congr_left fun r _ => ?_
  by_cases hr : r.name = field
  · have hr' : r.name ≠ field' := fun hr' => h (hr.symm.trans hr')
    simp only [Function.comp_apply, if_pos hr, if_neg hr']
  · by_cases hr' : r.name = field'
    · simp only [Function.comp_apply, if_neg hr, if_pos hr']
    · simp only [Function.comp_apply, if_neg hr, if_neg hr']

/-! ### The registry -/

namespace Registry

/-- Each class is found under its own number. -/
def Numbered (r : Registry) : Prop :=
  ∀ id c, r.class? id = some c → c.id = id

/-- What speaks against an exchange. -/
def refusal? (r : Registry) (id : ClassId) (field : String) : Option Fault :=
  match r.class? id with
  | none => some (.nothingToChange id)
  | some c =>
    if field ∈ c.instanceFields.map FieldRecord.name then none
    else some (.undeclaredField field c.displayName)

/-- The registry after an exchange. -/
def exchanged (r : Registry) (id : ClassId) (field : String) (initializer : Option Expr) :
    Registry :=
  match r.class? id with
  | none => r
  | some c => r.put (c.withFields (FieldRecord.replaceAll field initializer c.instanceFields))

/-- A registry is what it answers to the questions. -/
theorem eq_of_class? {r r' : Registry} (hlastId : r.lastId = r'.lastId)
    (hnames : r.names = r'.names) (hclass : ∀ id, r.class? id = r'.class? id) : r = r' := by
  have hclasses : r.classes = r'.classes := Std.ExtTreeMap.ext_getElem? fun id => hclass id
  cases r
  cases r'
  simp_all

section Exchanged

variable {r : Registry} {id : ClassId} {field : String}

@[simp] theorem lastId_exchanged {initializer : Option Expr} :
    (r.exchanged id field initializer).lastId = r.lastId := by
  rw [exchanged]
  split <;> rfl

@[simp] theorem names_exchanged {initializer : Option Expr} :
    (r.exchanged id field initializer).names = r.names := by
  rw [exchanged]
  split <;> rfl

variable (hr : r.Numbered)

include hr

/-- **An exchange changes one class**, and in this class the fields of one name. -/
theorem class?_exchanged (initializer : Option Expr) (id' : ClassId) :
    (r.exchanged id field initializer).class? id' = (r.class? id').map fun c =>
      if id = id' then c.withFields (FieldRecord.replaceAll field initializer c.instanceFields)
      else c := by
  rw [exchanged]
  by_cases hid : id = id'
  · subst hid
    split
    next hnone => simp [hnone]
    next c hc => simp [class?_put, hc, hr id c hc]
  · split
    next => simp [hid]
    next c hc => simp [class?_put, hr id c hc, hid]

theorem Numbered.exchanged (initializer : Option Expr) :
    (r.exchanged id field initializer).Numbered := by
  intro id' c hc
  rw [class?_exchanged hr] at hc
  obtain ⟨c', hc', rfl⟩ := Option.map_eq_some_iff.mp hc
  split <;> exact hr id' c' hc'

/-- What speaks against an exchange does so after another one, and before it. -/
theorem refusal?_exchanged (initializer : Option Expr) (id' : ClassId) (field' : String) :
    (r.exchanged id field initializer).refusal? id' field' = r.refusal? id' field' := by
  rw [refusal?, refusal?, class?_exchanged hr]
  cases r.class? id' with
  | none => rfl
  | some c => by_cases hid : id = id' <;> simp [hid, Class.displayName]

/-- An exchange that is refused would change nothing. -/
theorem exchanged_of_refusal {f : Fault} (h : r.refusal? id field = some f)
    (initializer : Option Expr) : r.exchanged id field initializer = r := by
  refine eq_of_class? lastId_exchanged names_exchanged fun id' => ?_
  rw [class?_exchanged hr]
  by_cases hid : id = id'
  · subst hid
    rw [refusal?] at h
    cases hc : r.class? id with
    | none => rfl
    | some c =>
      have hfield : field ∉ c.instanceFields.map FieldRecord.name := by
        intro hfield
        simp [hc, hfield] at h
      simp [FieldRecord.replaceAll_of_notMem hfield]
  · simp [hid]

/-- **Exchanges can change places**, but for those of the same name in the same class. -/
theorem exchanged_comm {id' : ClassId} {field' : String} (hne : id ≠ id' ∨ field ≠ field')
    (initializer initializer' : Option Expr) :
    (r.exchanged id field initializer).exchanged id' field' initializer' =
      (r.exchanged id' field' initializer').exchanged id field initializer := by
  refine eq_of_class? (by simp) (by simp) fun x => ?_
  rw [class?_exchanged (hr.exchanged _), class?_exchanged hr, class?_exchanged (hr.exchanged _),
    class?_exchanged hr, Option.map_map, Option.map_map]
  refine Option.map_congr fun c _ => ?_
  by_cases hx : id = x
  · by_cases hx' : id' = x
    · -- both are for this class, so for two names
      have hfield : field ≠ field' := hne.resolve_left fun hne => hne (hx.trans hx'.symm)
      simp [hx, hx', FieldRecord.replaceAll_comm hfield]
    · simp [hx, hx']
  · simp [hx]

end Exchanged

end Registry

/-! ### The machine -/

/-- Whether there is such a field is whether its name is among those of the fields. -/
theorem Class.replaceInitializer_eq (c : Class) (field : String) (initializer : Option Expr) :
    c.replaceInitializer field initializer =
      if field ∈ c.instanceFields.map FieldRecord.name then
        .ok (c.withFields (FieldRecord.replaceAll field initializer c.instanceFields))
      else .error (.undeclaredField field c.displayName) := by
  rw [replaceInitializer]
  congr 1
  simp

section Machine

variable (id : ClassId) (field : String) (initializer : Option Expr)

/-- **What comes of an exchange.** -/
theorem outcome_replaceInitializer (m : Machine) :
    (replaceInitializer id field initializer).outcome m =
      match m.registry.refusal? id field with
      | some f => (some (.error (.ofFault f)),
          { m with trace := .raised f :: .replacing field id :: m.trace })
      | none => (some (.ok ⟨⟩),
          { m with
            registry := m.registry.exchanged id field initializer
            trace := .replaced id field initializer :: .replacing field id :: m.trace }) := by
  simp only [replaceInitializer, outcome_bind, outcome_note, outcome_get,
    Registry.requireForChange, Registry.refusal?, Registry.exchanged]
  cases hc : m.registry.class? id with
  | none => rfl
  | some c =>
    simp only [demand, outcome_pure, Class.replaceInitializer_eq]
    by_cases hfield : field ∈ c.instanceFields.map FieldRecord.name
    · simp only [if_pos hfield]
      rfl
    · simp only [if_neg hfield]
      rfl

variable {id field initializer}

/-- Whatever comes of it, the registry is that after the exchange, and nothing else is another. -/
theorem untraced_replaceInitializer {m : Machine} (hm : m.registry.Numbered) :
    ((replaceInitializer id field initializer).outcome m).2.untraced =
      { m.untraced with registry := m.registry.exchanged id field initializer } := by
  rw [outcome_replaceInitializer]
  split
  next f h =>
    rw [m.registry.exchanged_of_refusal hm h]
    rfl
  next => rfl

/-- Whether it is refused, and with which fault. -/
theorem answer_replaceInitializer (m : Machine) :
    ((replaceInitializer id field initializer).outcome m).1 =
      match m.registry.refusal? id field with
      | some f => some (.error (.ofFault f))
      | none => some (.ok ⟨⟩) := by
  rw [outcome_replaceInitializer]
  split <;> rfl

end Machine

/-- What exchanges of initializers do on the machine. -/
structure Machine.ExchangesInOrder (m : Machine) : Prop where
  /-- There is no such class: nothing is changed. -/
  unknown : ∀ id, m.registry.class? id = none → ∀ field initializer,
    (replaceInitializer id field initializer).outcome m =
      (some (.error (.ofFault (.nothingToChange id))),
        { m with trace := .raised (.nothingToChange id) :: .replacing field id :: m.trace })
  /-- The class has no such field: nothing is changed. -/
  undeclared : ∀ id c, m.registry.class? id = some c →
    ∀ field, field ∉ c.instanceFields.map FieldRecord.name → ∀ initializer,
    (replaceInitializer id field initializer).outcome m =
      (some (.error (.ofFault (.undeclaredField field c.displayName))),
        { m with
          trace := .raised (.undeclaredField field c.displayName) :: .replacing field id ::
            m.trace })
  /-- The class has such fields: these have the initializer, and neither anything else of the class
  nor another class is changed. -/
  declared : ∀ id c, m.registry.class? id = some c →
    ∀ field ∈ c.instanceFields.map FieldRecord.name, ∀ initializer,
    ∃ registry : Registry, (replaceInitializer id field initializer).outcome m =
        (some (.ok ⟨⟩),
          { m with
            registry
            trace := .replaced id field initializer :: .replacing field id :: m.trace }) ∧
      registry.class? id =
        some (c.withFields (FieldRecord.replaceAll field initializer c.instanceFields)) ∧
      (∀ id', id ≠ id' → registry.class? id' = m.registry.class? id') ∧
      registry.names = m.registry.names ∧ registry.lastId = m.registry.lastId
  /-- Two exchanges, but for those of the same name in the same class, can change places: each has
  the answer that it has by itself, and what is left is the same machine, up to its trace. -/
  commute : ∀ id field initializer id' field' initializer', id ≠ id' ∨ field ≠ field' →
    let first := replaceInitializer id field initializer
    let second := replaceInitializer id' field' initializer'
    (second.outcome (first.outcome m).2).1 = (second.outcome m).1 ∧
      (first.outcome (second.outcome m).2).1 = (first.outcome m).1 ∧
      (second.outcome (first.outcome m).2).2.untraced =
        (first.outcome (second.outcome m).2).2.untraced

/-- **Exchanges of initializers** do what they say, to one class and to the fields of one name, or
nothing; and they can change places. -/
theorem Machine.exchangesInOrder {m : Machine} (hm : m.registry.Numbered) : m.ExchangesInOrder := by
  -- what is left by an exchange has the registry after it
  have hregistry (id : ClassId) (field : String) (initializer : Option Expr) :
      ((replaceInitializer id field initializer).outcome m).2.registry =
        m.registry.exchanged id field initializer :=
    congrArg Machine.registry (untraced_replaceInitializer hm)
  have hanswer (id : ClassId) (field : String) (initializer : Option Expr) (id' : ClassId)
      (field' : String) (initializer' : Option Expr) :
      ((replaceInitializer id' field' initializer').outcome
        ((replaceInitializer id field initializer).outcome m).2).1 =
        ((replaceInitializer id' field' initializer').outcome m).1 := by
    rw [answer_replaceInitializer, answer_replaceInitializer, hregistry,
      Registry.refusal?_exchanged hm]
  have hboth (id : ClassId) (field : String) (initializer : Option Expr) (id' : ClassId)
      (field' : String) (initializer' : Option Expr) :
      ((replaceInitializer id' field' initializer').outcome
        ((replaceInitializer id field initializer).outcome m).2).2.untraced =
        { m.untraced with
          registry :=
            (m.registry.exchanged id field initializer).exchanged id' field' initializer' } := by
    have hm' : ((replaceInitializer id field initializer).outcome m).2.registry.Numbered := by
      rw [hregistry]
      exact hm.exchanged _
    rw [untraced_replaceInitializer hm', untraced_replaceInitializer hm, hregistry]
  constructor
  case unknown =>
    intro id hid field initializer
    rw [outcome_replaceInitializer, Registry.refusal?, hid]
  case undeclared =>
    intro id c hc field hfield initializer
    have hrefused : m.registry.refusal? id field =
        some (.undeclaredField field c.displayName) := by
      simp only [Registry.refusal?, hc, if_neg hfield]
    rw [outcome_replaceInitializer, hrefused]
  case declared =>
    intro id c hc field hfield initializer
    have hnone : m.registry.refusal? id field = none := by
      simp only [Registry.refusal?, hc, if_pos hfield]
    refine ⟨_, by rw [outcome_replaceInitializer, hnone], ?_, fun id' hid => ?_,
      Registry.names_exchanged, Registry.lastId_exchanged⟩
    · rw [Registry.class?_exchanged hm, hc, Option.map_some, if_pos rfl]
    · rw [Registry.class?_exchanged hm]
      simp [hid]
  case commute =>
    intro id field initializer id' field' initializer' hne
    refine ⟨hanswer .., hanswer .., ?_⟩
    rw [hboth, hboth, Registry.exchanged_comm hm hne]

end ClassMachine
