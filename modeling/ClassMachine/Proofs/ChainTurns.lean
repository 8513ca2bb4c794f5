import ClassMachine.Proofs.DefaultChains

/-!
# What the classes of a chain do

In a construction along a chain of default constructors the classes have their turns
(`ClassMachine.Climbs`). A turn fails in one of three ways: the client code fails that supplies the
value of a field, which is its initializer or a getter; the object does not take the field; or the
body of the base class fails (`ClassMachine.Milestone.FailsWith`). And if the client code that runs
in them calls no constructor, then no construction is refused because of its depth, and the turns
are all that the trace tells of from within constructions (`ClassMachine.Machine.NotesTurns`).

Together with the way down this gives the exact limit. A construction is refused if there is no room
for one frame for the class and one for each of its ancestors, and then it leaves everything as it
was.

Main statement: `ClassMachine.default_chain`.
-/

namespace ClassMachine

/-! ### What is to be shown -/

/-- The client code that supplies the value of the field: its initializer, or the getter that the
target shows under its name. -/
inductive FieldRecord.SuppliedBy (record : FieldRecord) (o : ObjectId) (m : Machine) : Expr → Prop
  | initializer {code : Expr} (h : record.initializer = some code) : SuppliedBy record o m code
  | getter {owner : ObjectId} {getter : Function} {setter : Option Function}
      {enumerable configurable : Bool} (hbare : record.initializer = none)
      (h : m.store.search record.name o =
        .owned owner (.accessor (some getter) setter enumerable configurable)) :
    SuppliedBy record o m getter.body

/-- What the field fails with on its target. -/
inductive FieldRecord.FailsOn (record : FieldRecord) (perform : Performer) (o : ObjectId)
    (m : Machine) : Failure → Machine → Prop
  /-- The client code fails that supplies the value. -/
  | supply {code : Expr} {e : Failure} {m' : Machine} (hcode : record.SuppliedBy o m code)
      (h : (perform (.eval code { receiver := .ref o })).outcome m = (some (.error e), m')) :
    FailsOn record perform o m e m'
  /-- The target does not take the field. -/
  | define {v : Value} {f : Fault} {m' : Machine}
      (hvalue : (fieldValue perform o record).outcome m = (some (.ok v), m'))
      (h : (m'.store.object o).define record.name (.plain v) = .error f) :
    FailsOn record perform o m (.ofFault f) ((Effect.note (.raised f)).apply m')

/-- What the turn fails with. -/
inductive Milestone.FailsWith (perform : Performer) (base : Class) (m : Machine) :
    Milestone → Failure → Machine → Prop
  /-- One of the fields fails, and those in front of it have been installed. -/
  | field {cls : ClassId} {o : ObjectId} {c : Class} {before after : List FieldRecord}
      {record : FieldRecord} {m₁ m₂ : Machine} {e : Failure}
      (hc : m.registry.class? cls = some c) (hfields : c.instanceFields = before ++ record :: after)
      (hbefore : (installFields perform (.instanceField cls c.displayName o) o before).outcome
        ((Effect.note (.installing m.frames.head? cls c.displayName o c.instanceFields)).apply m) =
          (some (.ok ⟨⟩), m₁))
      (h : record.FailsOn perform o
        ((Effect.note (.began (.instanceField cls c.displayName o record))).apply m₁) e m₂) :
    FailsWith perform base m (.fields cls o) (e.within (.instanceField record.name c.displayName))
      ((Effect.note (.failed (.instanceField cls c.displayName o record))).apply m₂)
  /-- The body fails. -/
  | body {cls : ClassId} {this : Option ObjectId} {args : List Value} {body : Expr} {e : Failure}
      {m' : Machine} (hbody : base.constructor = some body)
      (h : (perform (.eval body { args })).outcome
        ((Effect.note (.bodyEntered cls this args)).apply m) = (some (.error e), m')) :
    FailsWith perform base m (.body cls this args) e m'

/-- Since the first machine, the trace tells of these turns: if no constructor has been called, then
no construction has been refused because of its depth, and there is one milestone for each. -/
def Machine.NotesTurns (start : Machine) (turns : List Milestone) (m : Machine) : Prop :=
  ∃ code, m.trace = code ++ start.trace ∧ ((∀ e ∈ code, e.isCall = false) →
    (∀ e ∈ code, e.isTooDeep = false) ∧ (code.filterMap Event.milestone?).reverse = turns)

/-! ### A field -/

section Field

variable {perform : Performer} {record : FieldRecord} {o : ObjectId} {m m' : Machine} {e : Failure}

/-- The value of a field fails only with its client code. -/
theorem suppliedBy_of_fieldValue_error
    (h : (fieldValue perform o record).outcome m = (some (.error e), m')) :
    ∃ code, record.SuppliedBy o m code ∧
      (perform (.eval code { receiver := .ref o })).outcome m = (some (.error e), m') := by
  rw [fieldValue] at h
  cases hrecord : record.initializer with
  | some code =>
    rw [hrecord] at h
    exact ⟨code, .initializer hrecord, h⟩
  | none =>
    rw [hrecord] at h
    simp only [readFrom, outcome_bind, outcome_get] at h
    split at h
    case h_2 hsearch => exact ⟨_, .getter hrecord hsearch, h⟩
    all_goals simp at h

/-- A field fails with its client code, or because it is not taken. -/
theorem installField_failsOn
    (h : (installField perform o record).outcome m = (some (.error e), m')) :
    record.FailsOn perform o m e m' := by
  rw [installField, outcome_bind] at h
  rcases hvalue : (fieldValue perform o record).outcome m with ⟨_ | e₁ | v, m₁⟩ <;>
    rw [hvalue] at h
  · simp at h
  · obtain ⟨code, hcode, heval⟩ := suppliedBy_of_fieldValue_error hvalue
    simp only [Prod.mk.injEq, Option.some.injEq, Except.error.injEq] at h
    obtain ⟨rfl, rfl⟩ := h
    exact .supply hcode heval
  · simp only [outcome_bind, outcome_defineOn] at h
    cases hdefine : (m₁.store.object o).define record.name (.plain v) with
    | ok o' => simp [hdefine] at h
    | error f =>
      simp only [hdefine, Prod.mk.injEq, Option.some.injEq, Except.error.injEq] at h
      obtain ⟨rfl, rfl⟩ := h
      exact .define hvalue hdefine

/-- Of several fields, the first one that fails is the last one that is begun. -/
theorem installFields_error {activity : FieldRecord → Activity} {records : List FieldRecord}
    (h : (installFields perform activity o records).outcome m = (some (.error e), m')) :
    ∃ before record after m₁ m₂ e₁, records = before ++ record :: after ∧
      (installFields perform activity o before).outcome m = (some (.ok ⟨⟩), m₁) ∧
      record.FailsOn perform o ((Effect.note (.began (activity record))).apply m₁) e₁ m₂ ∧
      e = e₁.within (activity record).context ∧
      m' = (Effect.note (.failed (activity record))).apply m₂ := by
  -- induction on the fields
  induction records generalizing m with
  | nil => simp [installFields] at h
  | cons record rest ih =>
    rw [installFields, outcome_bind] at h
    rcases hfirst : (during (activity record) (installField perform o record)).outcome m with
      ⟨_ | e₁ | _, m₁⟩ <;> rw [hfirst] at h
    · simp at h
    · simp only [Prod.mk.injEq, Option.some.injEq, Except.error.injEq] at h
      obtain ⟨rfl, rfl⟩ := h
      rw [outcome_during] at hfirst
      rcases hfield : (installField perform o record).outcome
        ((Effect.note (.began (activity record))).apply m) with ⟨_ | e₂ | _, m₂⟩ <;>
        rw [hfield] at hfirst <;> simp only [Prod.mk.injEq, Option.some.injEq, reduceCtorEq,
          Except.error.injEq, false_and] at hfirst
      exact ⟨[], record, rest, m, m₂, e₂, rfl, rfl, installField_failsOn hfield,
        hfirst.1.symm, hfirst.2.symm⟩
    · obtain ⟨before, record', after, m₂, m₃, e₁, rfl, hbefore, hrecord⟩ := ih h
      refine ⟨record :: before, record', after, m₂, m₃, e₁, rfl, ?_, hrecord⟩
      rw [installFields, outcome_bind, hfirst]
      exact hbefore

end Field

/-! ### A turn -/

section Turn

variable {perform : Performer} {m m' : Machine}

theorem outcome_installInstanceFields_of_some {cls : ClassId} {c : Class}
    (hc : m.registry.class? cls = some c) (o : ObjectId) :
    (installInstanceFields perform o cls).outcome m =
      (installFields perform (.instanceField cls c.displayName o) o c.instanceFields).outcome
        ((Effect.note
          (.installing m.frames.head? cls c.displayName o c.instanceFields)).apply m) := by
  rw [installInstanceFields, outcome_bind, outcome_classAt_of_some hc]
  rfl

theorem outcome_runBody (cls : ClassId) (this : Option ObjectId) (body : Expr)
    (args : List Value) : (runBody perform cls this body args).outcome m =
      (perform (.eval body { args }) >>= fun _ => pure ⟨⟩).outcome
        ((Effect.note (.bodyEntered cls this args)).apply m) := by
  rw [runBody, outcome_bind]
  rfl

variable {base : Class} {turn : Milestone} {x : Action Unit} {r : Option (Except Failure Unit)}

/-- **What a turn fails with**, if the class is there. -/
theorem Milestone.Does.failsWith (hx : turn.Does perform base x)
    (hclass : (m.registry.class? turn.cls).isSome) {e : Failure}
    (h : x.outcome m = (some (.error e), m')) : turn.FailsWith perform base m e m' := by
  cases hx with
  | fields cls o =>
    obtain ⟨c, hc⟩ : ∃ c, m.registry.class? cls = some c := Option.isSome_iff_exists.mp hclass
    rw [outcome_installInstanceFields_of_some hc] at h
    obtain ⟨before, record, after, m₁, m₂, e₁, hfields, hbefore, hrecord, rfl, rfl⟩ :=
      installFields_error h
    exact .field hc hfields hbefore hrecord
  | body hbody cls this args =>
    rw [outcome_runBody, outcome_bind] at h
    rcases heval : (perform (.eval _ { args })).outcome
      ((Effect.note (.bodyEntered cls this args)).apply m) with ⟨_ | e₁ | v, m₁⟩ <;>
      rw [heval] at h <;> simp only [outcome_pure, Prod.mk.injEq, Option.some.injEq, reduceCtorEq,
        Except.error.injEq, false_and] at h
    obtain ⟨rfl, rfl⟩ := h
    exact .body hbody heval

/-- **What a turn notes** is first of all that it is this one. The rest comes from client code. -/
theorem Milestone.Does.noted {settings : Settings} {levels : Nat}
    (hx : turn.Does (interpret settings levels) base x)
    (hclass : (m.registry.class? turn.cls).isSome) (h : x.outcome m = (r, m')) :
    ∃ first code, first.milestone? = some turn ∧ first.isTooDeep = false ∧ CallFree code ∧
      m'.trace = code ++ first :: m.trace := by
  -- the rest obeys the law of what is noted
  have noted {y : Action Unit} {first : Event} (hy : y.Obeys callFreeLaw)
      (h : y.outcome ((Effect.note first).apply m) = (r, m')) :
      ∃ code, m'.trace = code ++ first :: m.trace ∧ CallFree code := by
    have hlaw := hy ((Effect.note first).apply m)
    rw [Action.Ensures, h] at hlaw
    cases r <;> exact hlaw
  cases hx with
  | fields cls o =>
    obtain ⟨c, hc⟩ : ∃ c, m.registry.class? cls = some c := Option.isSome_iff_exists.mp hclass
    rw [outcome_installInstanceFields_of_some hc] at h
    obtain ⟨code, hcode, hfree⟩ := noted (installFields_callFree settings levels _ o _) h
    exact ⟨_, code, rfl, rfl, hfree, hcode⟩
  | body hbody cls this args =>
    rw [outcome_runBody] at h
    have hpure : (pure ⟨⟩ : Action Unit).Obeys callFreeLaw := callFreeLaw.refl
    obtain ⟨code, hcode, hfree⟩ := noted ((eval_callFree settings levels _ _).bind fun _ => hpure) h
    exact ⟨_, code, rfl, rfl, hfree, hcode⟩

/-- A turn is nothing that changes which classes are there. -/
theorem Milestone.Does.continues {settings : Settings} {levels : Nat}
    (hx : turn.Does (interpret settings levels) base x) (hm : m.Coherent)
    (h : x.outcome m = (r, m')) : m.Continues m' := by
  have hregistry : (interpret settings levels).Keeps registryContract :=
    interpret_keeps (fun _ hp => step_keeps_registry hp settings) levels
  have hlaw : x.Obeys (registryLaw .trivial) := by
    cases hx with
    | fields cls o =>
      refine MadeOf.registryLaw (fun _ _ _ => trivial) hregistry (installInstanceFields_madeOf
        (fun _ => Effect.IsClient.keepsRegistry) (fun e he => ?_) o cls)
      exact (Effect.IsFraming.note he.isFraming).isConstructing.keepsRegistry
    | body hbody cls this args =>
      exact MadeOf.registryLaw (fun _ _ _ => trivial) hregistry (runBody_madeOf (by rfl) _)
  have hholds := hlaw m
  rw [Action.Ensures, h] at hholds
  exact hholds.continues hm

end Turn

/-! ### All turns -/

theorem Event.IsReturn.isRegistral {e : Event} (h : e.IsReturn) : e.isRegistral = false := by
  cases e <;> first | rfl | exact h.elim

theorem Event.IsReturn.isOutside {e : Event} (h : e.IsReturn) : e.IsOutside := by
  cases e <;> first | exact ⟨rfl, rfl⟩ | exact h.elim

/-- The registry is told nothing of returns. -/
theorem Machine.Shifts.settles {m m' : Machine} (h : m.Shifts m') (hm : m.Coherent) :
    m.Settles m' := by
  obtain ⟨frames, new, rfl, hnew⟩ := h
  refine .of_eq hm rfl ?_
  have hnone : chronicleOf new = [] :=
    List.filter_eq_nil_iff.mpr fun e he => by simp [(hnew e he).isRegistral]
  rw [Machine.chronicle, Machine.chronicle, chronicleOf, List.filter_append, ← chronicleOf, hnone]
  rfl

namespace Machine.NotesTurns

variable {start m m' : Machine} {turns : List Milestone}

theorem refl (start : Machine) : start.NotesTurns [] start :=
  ⟨[], rfl, by simp⟩

/-- Events from outside of all constructions tell of no turn. -/
theorem outside (h : start.NotesTurns turns m) {new : List Event}
    (hm' : m'.trace = new ++ m.trace) (hnew : CallFree new) : start.NotesTurns turns m' := by
  obtain ⟨code, hcode, hfree⟩ := h
  refine ⟨new ++ code, by rw [hm', hcode, List.append_assoc], fun hcalls => ?_⟩
  rw [List.forall_mem_append] at hcalls ⊢
  obtain ⟨hdeep, hturns⟩ := hfree hcalls.2
  have houtside := hnew hcalls.1
  have hnone : new.filterMap Event.milestone? = [] :=
    List.filterMap_eq_nil_iff.mpr fun e he => (houtside e he).2
  refine ⟨⟨fun e he => (houtside e he).1, hdeep⟩, ?_⟩
  rw [List.filterMap_append, hnone, List.nil_append, hturns]

theorem shifts (h : start.NotesTurns turns m) (hm' : m.Shifts m') : start.NotesTurns turns m' := by
  obtain ⟨frames, new, rfl, hnew⟩ := hm'
  exact h.outside rfl (.of_outside fun e he => (hnew e he).isOutside)

/-- A milestone is that of one turn more. -/
theorem milestone (h : start.NotesTurns turns m) {e : Event} {turn : Milestone}
    (hturn : e.milestone? = some turn) (he : e.isTooDeep = false) :
    start.NotesTurns (turns ++ [turn]) ((Effect.note e).apply m) := by
  obtain ⟨code, hcode, hfree⟩ := h
  refine ⟨e :: code, congrArg (e :: ·) hcode, fun hcalls => ?_⟩
  rw [List.forall_mem_cons] at hcalls ⊢
  obtain ⟨hdeep, hturns⟩ := hfree hcalls.2
  exact ⟨⟨he, hdeep⟩, by rw [List.filterMap_cons_some hturn, List.reverse_cons, hturns]⟩

end Machine.NotesTurns

namespace Ascends

variable {settings : Settings} {base : Class} {newTarget : ClassId} {o : ObjectId}
  {start m' : Machine} {turns : List Milestone} {r : Option (Except Failure Unit)}

theorem continues (h : Ascends settings base newTarget o start turns r m')
    (hstart : start.Coherent) : start.Continues m' := by
  -- induction on the turns
  induction h with
  | start => exact (Machine.Settles.of_eq hstart rfl rfl).toContinues
  | next _ hshifts _ hx h ih =>
    have hshifted := hshifts.settles ih.coherent
    exact (ih.trans hshifted.toContinues).trans (hx.continues hshifted.coherent h)

variable (hstart : start.Coherent)
  (hclasses : ∀ turn ∈ turns, (start.registry.class? turn.cls).isSome)

include hstart hclasses

/-- The class is there when it has its turn. -/
theorem isSome_class? {before : List Milestone} {turn : Milestone} {m m₁ : Machine}
    (hbefore : Ascends settings base newTarget o start before (some (.ok ⟨⟩)) m)
    (hshifts : m.Shifts m₁) (hturn : turn ∈ turns) :
    (m₁.registry.class? turn.cls).isSome := by
  have hm := hbefore.continues hstart
  have hm₁ := hm.trans (hshifts.settles hm.coherent).toContinues
  obtain ⟨c, hc⟩ := Option.isSome_iff_exists.mp (hclasses turn hturn)
  obtain ⟨fields, hfields⟩ := hm₁.later.class? hstart hm₁.coherent hc
  rw [hfields]
  rfl

/-- What fails is the last turn. -/
theorem failsWith {e : Failure}
    (h : Ascends settings base newTarget o start turns (some (.error e)) m') :
    ∃ before turn m m₁ levels, turns = before ++ [turn] ∧
      Ascends settings base newTarget o start before (some (.ok ⟨⟩)) m ∧ m.Shifts m₁ ∧
      turn.FailsWith (interpret settings levels) base m₁ e m' := by
  cases h with
  | next hbefore hshifts _ hx h =>
    have hclass := isSome_class? hstart hclasses hbefore hshifts List.mem_concat_self
    exact ⟨_, _, _, _, _, rfl, hbefore, hshifts, hx.failsWith hclass h⟩

/-- **What the turns note**, if client code calls no constructor. -/
theorem notesTurns (h : Ascends settings base newTarget o start turns r m') :
    start.NotesTurns turns m' := by
  -- induction on the turns, of which each one notes its milestone first
  induction h with
  | start => exact .refl start
  | @next before turn m m₁ m' levels x r hbefore hshifts hframe hx h ih =>
    have hnoted := ih fun turn hturn => hclasses turn (List.mem_append_left _ hturn)
    obtain ⟨first, code, hmilestone, hfirst, hfree, hcode⟩ :=
      hx.noted (isSome_class? hstart hclasses hbefore hshifts List.mem_concat_self) h
    exact ((hnoted.shifts hshifts).milestone hmilestone hfirst).outside hcode hfree

end Ascends

/-! ### The chain -/

section Chain

variable {m : Machine} {base : Class} {ids : List ClassId} {cls : ClassId}

/-- A lineage of classes with the default constructor, but for the first one. -/
theorem Registry.DefaultChain.of_lineage {r : Registry} (h : Lineage r.HasParent ids cls)
    (hbase : ∀ first ∈ ids.head?, r.class? first = some base)
    (hdefault : ∀ id ∈ ids.tail, ∀ c, r.class? id = some c → c.constructor = none) :
    r.DefaultChain base ids cls := by
  -- induction on the lineage
  induction h with
  | base h =>
    obtain ⟨c, hc, hparent⟩ := h
    obtain rfl : c = base := Option.some.inj (hc.symm.trans (hbase _ rfl))
    exact .base hc hparent
  | @derived ids parent cls hids h ih =>
    obtain ⟨c, hc, hparent⟩ := h
    obtain ⟨first, hfirst, -⟩ := hids.head?
    obtain ⟨rest, rfl⟩ := List.head?_eq_some_iff.mp hfirst
    exact .derived (ih hbase fun id hid => hdefault id (List.mem_append_left _ hid)) hc hparent
      (hdefault cls (List.mem_append_right _ List.mem_cons_self) c hc)

theorem Registry.DefaultChain.isSome_class? {r : Registry} (h : r.DefaultChain base ids cls)
    {id : ClassId} (hid : id ∈ ids) : (r.class? id).isSome := by
  induction h with
  | base h =>
    obtain rfl := List.mem_singleton.mp hid
    simp [h]
  | derived _ h _ _ ih =>
    rcases List.mem_append.mp hid with hid | hid
    · exact ih hid
    · obtain rfl := List.mem_singleton.mp hid
      simp [h]

/-- The plan is about the classes of the chain. -/
theorem cls_mem_of_mem_chainPlan {o : ObjectId} {args : List Value} {turn : Milestone}
    (h : turn ∈ chainPlan base o args ids) : turn.cls ∈ ids := by
  cases ids with
  | nil => simp [chainPlan] at h
  | cons first rest =>
    simp only [chainPlan, List.mem_cons, List.mem_append, Option.mem_toList, Option.map_eq_some_iff,
      List.mem_map] at h
    obtain (rfl | ⟨body, -, rfl⟩) | ⟨id, hid, rfl⟩ := h
    · exact List.mem_cons_self
    · exact List.mem_cons_self
    · exact List.mem_cons_of_mem _ hid

/-- Neither the calls nor the new object change which classes are there. -/
theorem Machine.Coherent.settles_start (hm : m.Coherent) (newTarget : ClassId)
    (ids : List ClassId) (c : Class) : m.Settles ((m.descended newTarget ids).withInstance c) := by
  have hdescended : m.Settles (m.descended newTarget ids) := by
    induction ids with
    | nil => exact .of_eq hm rfl rfl
    | cons id rest ih => exact ih.trans (.of_eq ih.coherent rfl rfl)
  exact hdescended.trans (.of_eq hdescended.coherent rfl rfl)

end Chain

/-! ### The whole construction -/

/-- **What a construction of the class comes to where there is room for the whole chain.** -/
structure Machine.RunsChain (m : Machine) (settings : Settings) (base c : Class)
    (ids : List ClassId) (args : List Value) (turns : List Milestone)
    (r₁ : Option (Except Failure Unit)) (m₁ : Machine) (r : Option (Except Failure ObjectId))
    (m' : Machine) : Prop extends Climbs settings base c ids args m turns r₁ m₁ r m' where
  /-- What it fails with is what the last turn fails with. -/
  failsWith : ∀ e, r = some (.error e) → ∃ before turn m₂ m₃ levels, turns = before ++ [turn] ∧
    Ascends settings base c.id m.store.size ((m.descended c.id ids).withInstance c) before
      (some (.ok ⟨⟩)) m₂ ∧ m₂.Shifts m₃ ∧
    turn.FailsWith (interpret settings levels) base m₃ e m₁
  /-- Since the way down, the trace tells of these turns. -/
  noted : ((m.descended c.id ids).withInstance c).NotesTurns turns m'

theorem Climbs.runsChain {settings : Settings} {base c : Class} {ids : List ClassId}
    {args : List Value} {m m₁ m' : Machine} {turns : List Milestone}
    {r₁ : Option (Except Failure Unit)} {r : Option (Except Failure ObjectId)}
    (h : Climbs settings base c ids args m turns r₁ m₁ r m') (hm : m.Coherent)
    (hchain : m.registry.DefaultChain base ids c.id) :
    m.RunsChain settings base c ids args turns r₁ m₁ r m' := by
  have hstart := (hm.settles_start c.id ids c).coherent
  have hclasses : ∀ turn ∈ turns,
      (((m.descended c.id ids).withInstance c).registry.class? turn.cls).isSome := by
    intro turn hturn
    have hregistry : ((m.descended c.id ids).withInstance c).registry = m.registry := by
      rw [Machine.descended_eq]
      rfl
    rw [hregistry]
    exact hchain.isSome_class? (cls_mem_of_mem_chainPlan (h.plan.subset hturn))
  refine ⟨h, fun e he => ?_, ?_⟩
  · have hr₁ : r₁ = some (.error e) := by
      have := h.answer.symm.trans he
      rcases r₁ with _ | _ | _ <;> simp_all [Except.map]
    exact Ascends.failsWith hstart hclasses (hr₁ ▸ h.ascends)
  · exact (h.ascends.notesTurns hstart hclasses).shifts h.shifts

section Construct

variable {settings : Settings} {m : Machine} {base c : Class} {ids : List ClassId}
  (hchain : m.registry.DefaultChain base ids c.id) (hm : m.Coherent)
  (hc : m.registry.class? c.id = some c) (args : List Value) {levels : Nat}
  (hlevels : ids.length ≤ levels + 1)

include hchain hm hc hlevels

theorem construct_climbs (hroom : m.frames.length + ids.length ≤ settings.maxDepth) :
    (construct settings (interpret settings levels) c.id args).Ensures m fun r m' =>
      ∃ turns r₁ m₁, Climbs settings base c ids args
        ((Effect.note (.constructing c.displayName)).apply m) turns r₁ m₁ r m' := by
  let m₀ : Machine := (Effect.note (.constructing c.displayName)).apply m
  have hm₀ : m.Settles m₀ := .of_eq hm rfl rfl
  have hfor := constructFor_climbs (m := m₀) hchain hm₀.coherent hc args hlevels hroom
  rw [Action.Ensures, outcome_construct_of_some hc, outcome_bind]
  rcases h : (constructFor settings (interpret settings levels) c.id c.id args).outcome m₀ with
    ⟨_ | _ | o, m₂⟩ <;> rw [Action.Ensures, h] at hfor
  · exact hfor
  · exact hfor
  · -- the return is noted
    obtain ⟨turns, r₁, m₁, hclimbs⟩ := hfor
    exact ⟨turns, r₁, m₁, hclimbs.ascends, hclimbs.plan, hclimbs.complete, hclimbs.answer,
      hclimbs.shifts.trans (.note (e := .constructed c.id o) trivial m₂), hclimbs.frames⟩

theorem construct_refused (hfull : settings.maxDepth < m.frames.length + ids.length) :
    (construct settings (interpret settings levels) c.id args).IsRefused settings c.id ids m
      ((Effect.note (.constructing c.displayName)).apply m) := by
  let m₀ : Machine := (Effect.note (.constructing c.displayName)).apply m
  have hm₀ : m.Settles m₀ := .of_eq hm rfl rfl
  obtain ⟨called, hcalled, hlength, hkind, hfails⟩ :=
    constructFor_chain_refused (m := m₀) hchain hm₀.coherent c.id args hlevels hfull
  refine ⟨called, hcalled, hlength, hkind, ?_⟩
  rw [outcome_construct_of_some hc, outcome_bind, hfails]

end Construct

/-- **Chains of default constructors and the limit.** At a moment of a program, let there be `d`
frames, and let the `n` classes of a lineage that are behind the base class all have the default
constructor.

If the limit is less than `d + n + 1`, a construction of the last class fails with this one fault.
The constructors have been called up to the one that there is no room for, which is noted, and
apart from the trace the machine is as it was: no object has been made, and no client code has run.

Otherwise the construction calls all constructors, makes one object and does with it what the plan
says: the fields of the base class are installed, its body runs with the given arguments, and then
the fields of the other classes are installed in order. It goes on to the end, or up to the first
turn that fails, and it fails only if the client code of a field or the body fails, or if the
object does not take a field. As long as none of this client code calls a constructor, no
construction is refused because of its depth, and fields and bodies are begun for these turns only,
so the body is entered once. -/
theorem default_chain (settings : Settings) (m : Machine)
    (hm : AtRest settings m ∨ Reachable settings m) {first cls : ClassId} {rest : List ClassId}
    {base c : Class} (hlineage : Lineage m.registry.HasParent (first :: rest) cls)
    (hbase : m.registry.class? first = some base) (hc : m.registry.class? cls = some c)
    (hdefault : ∀ id ∈ rest, ∀ c, m.registry.class? id = some c → c.constructor = none)
    (args : List Value) (levels : Nat) (hlevels : rest.length ≤ levels) :
    (settings.maxDepth < m.frames.length + rest.length + 1 →
      (construct settings (interpret settings levels) cls args).IsRefused settings cls
        (first :: rest) m ((Effect.note (.constructing c.displayName)).apply m)) ∧
    (m.frames.length + rest.length + 1 ≤ settings.maxDepth →
      (construct settings (interpret settings levels) cls args).Ensures m fun r m' =>
        ∃ turns r₁ m₁, ((Effect.note (.constructing c.displayName)).apply m).RunsChain settings
          base c (first :: rest) args turns r₁ m₁ r m') := by
  have hcoherent : m.Coherent :=
    hm.elim (fun h => ((registry_coherent settings).1 m h).1) ((registry_coherent settings).2 m)
  obtain rfl := hcoherent.follows.class?_id hc
  have hchain : m.registry.DefaultChain base (first :: rest) c.id :=
    .of_lineage hlineage (fun id hid => Option.some.inj hid ▸ hbase) hdefault
  refine ⟨construct_refused hchain hcoherent hc args (Nat.succ_le_succ hlevels), fun hroom => ?_⟩
  have hannounced : m.Settles ((Effect.note (.constructing c.displayName)).apply m) :=
    .of_eq hcoherent rfl rfl
  refine (construct_climbs hchain hcoherent hc args (Nat.succ_le_succ hlevels) hroom).mono ?_
  rintro r m' ⟨turns, r₁, m₁, hclimbs⟩
  exact ⟨turns, r₁, m₁, hclimbs.runsChain hannounced.coherent hchain⟩

/-- A class with the default constructor behind one with a constructor: `class extends (class { x;
constructor(v) { seen = v } }) { y }`. -/
def forwardingClass : Expr :=
  .classDefinition
    { name := none,
      heritage := some (.primitive .classObject [.classDefinition
        { name := none, heritage := none,
          constructor := some (.assign "seen" (.primitive .argument [.literal (.number 0)])),
          elements := [.field (.literal "x") false none] }]),
      constructor := none,
      elements := [.field (.literal "y") false none] }

/-- A limit of one is not enough for it, and a limit of two is. -/
theorem default_chain_of_forwardingClass :
    (∃ m base c, (AtRest { maxDepth := 1 } m ∧ Lineage m.registry.HasParent [1, 2] 2 ∧
        m.registry.class? 1 = some base ∧ m.registry.class? 2 = some c ∧ c.constructor = none) ∧
      (construct { maxDepth := 1 } (interpret { maxDepth := 1 } 9) 2 [.str "v"]).IsRefused
        { maxDepth := 1 } 2 [1, 2] m ((Effect.note (.constructing c.displayName)).apply m)) ∧
    ∃ m base c o m', (AtRest { maxDepth := 2 } m ∧ Lineage m.registry.HasParent [1, 2] 2 ∧
        m.registry.class? 1 = some base ∧ m.registry.class? 2 = some c ∧ c.constructor = none ∧
        (construct { maxDepth := 2 } (interpret { maxDepth := 2 } 9) 2 [.str "v"]).outcome m =
          (some (.ok o), m')) ∧
      ∃ turns r₁ m₁, ((Effect.note (.constructing c.displayName)).apply m).RunsChain
        { maxDepth := 2 } base c [1, 2] [.str "v"] turns r₁ m₁ (some (.ok o)) m' := by
  let isChain (m : Machine) : Bool :=
    (m.registry.class? 1).any (fun base => base.parent.isNone) &&
    (m.registry.class? 2).any fun c => c.parent == some 1 && c.constructor.isNone
  -- the two classes are a chain
  have chain {m : Machine} (h : isChain m = true) : ∃ base c,
      Lineage m.registry.HasParent [1, 2] 2 ∧ m.registry.class? 1 = some base ∧
        m.registry.class? 2 = some c ∧ c.constructor = none := by
    obtain ⟨hbase, hclass⟩ := Bool.and_eq_true_iff.mp h
    obtain ⟨base, hbase, hnone⟩ := (Option.any_eq_true ..).mp hbase
    obtain ⟨c, hc, hdefault⟩ := (Option.any_eq_true ..).mp hclass
    simp only [Bool.and_eq_true, beq_iff_eq, Option.isNone_iff_eq_none] at hnone hdefault
    have hlineage : Lineage m.registry.HasParent [1] 1 := .base ⟨base, hbase, hnone⟩
    exact ⟨base, c, .derived hlineage ⟨c, hc, hdefault.1⟩, hbase, hc, hdefault.2⟩
  constructor
  · have hrun : ((runStep { maxDepth := 1 } 9 forwardingClass .initial).any fun p =>
        isChain p.2) = true := by decide +kernel
    obtain ⟨⟨report, m⟩, hm, h⟩ := (Option.any_eq_true ..).mp hrun
    have hm : AtRest { maxDepth := 1 } m := .step .initial hm
    obtain ⟨base, c, hlineage, hbase, hc, hdefault⟩ := chain h
    have hrest : ∀ id ∈ [2], ∀ c, m.registry.class? id = some c → c.constructor = none := by
      simp [hc, hdefault]
    exact ⟨m, base, c, ⟨hm, hlineage, hbase, hc, hdefault⟩, (default_chain { maxDepth := 1 } m
      (.inl hm) hlineage hbase hc hrest [.str "v"] 9 (by simp)).1 (by simp)⟩
  · have hrun : ((runStep { maxDepth := 2 } 9 forwardingClass .initial).any fun p =>
        isChain p.2 && p.2.frames.isEmpty && succeeds ((construct { maxDepth := 2 }
          (interpret { maxDepth := 2 } 9) 2 [.str "v"]).outcome p.2)) = true := by decide +kernel
    obtain ⟨⟨report, m⟩, hm, h⟩ := (Option.any_eq_true ..).mp hrun
    have hm : AtRest { maxDepth := 2 } m := .step .initial hm
    simp only [Bool.and_eq_true, List.isEmpty_iff] at h
    obtain ⟨⟨h, hframes⟩, hconstruct⟩ := h
    obtain ⟨base, c, hlineage, hbase, hc, hdefault⟩ := chain h
    obtain ⟨o, m', hconstruct⟩ := exists_of_succeeds hconstruct
    have hrest : ∀ id ∈ [2], ∀ c, m.registry.class? id = some c → c.constructor = none := by
      simp [hc, hdefault]
    have hlaw := (default_chain { maxDepth := 2 } m (.inl hm) hlineage hbase hc hrest [.str "v"]
      9 (by simp)).2 (by simp [hframes])
    rw [Action.Ensures, hconstruct] at hlaw
    exact ⟨m, base, c, o, m', ⟨hm, hlineage, hbase, hc, hdefault, hconstruct⟩, hlaw⟩

end ClassMachine
