import ClassMachine.Proofs.Occasions
import ClassMachine.Proofs.Registration
import ClassMachine.Proofs.StageOrder

/-!
# The order in which a definition is evaluated

A definition runs client code in two series of stages:

* each computed name is evaluated, in source order, while no class of its number is there;
* each static field is installed, in order, while the class is there: its initializer is evaluated
  with the class object as its receiver.

The first stage that fails is the last one, and what the trace tells of the stages of the
definition, before it, during it and ever after, is what these stages tell. Nor is their code run
unseen: whatever operation runs code does so on an occasion of its own
(`ClassMachine.Call.Occasion`), and a computed name or a static initializer has no other occasion
than its stage. In particular, what a construction installs are instance records.

The definition succeeds exactly if its checks are passed, it has no static method called
`prototype`, and all of its stages succeed.

Main statement: `ClassMachine.definition_order`.
-/

namespace ClassMachine

variable {perform : Performer}

/-! ### Whether a definition succeeds -/

/-- A definition that could be prepared is accepted, and its computed names have succeeded. -/
theorem Preparation.of_ok {d : ClassDefinition} {m m' : Machine} {c : Class}
    {told : List Event} (h : Preparation perform d m (some (.ok c)) m' told) :
    (∃ parent, d.Accepted m parent) ∧ AllFinished told := by
  generalize hr : some (Except.ok c) = r at h
  cases h with
  | refused => simp at hr
  | evaluated h names =>
    obtain ⟨vs, hvs, -⟩ := eq_ok_of_map hr.symm
    exact ⟨⟨_, h⟩, names.allFinished ⟨vs, hvs⟩⟩

/-- If nothing speaks against it, a definition can be prepared. -/
theorem Preparation.ok {d : ClassDefinition} {m m' : Machine}
    {r : Option (Except Failure Class)} {told : List Event}
    (h : Preparation perform d m r m' told) (haccepted : ∃ parent, d.Accepted m parent)
    (hmethods : ∀ e ∈ d.elements, e.replacesPrototype = false) (htold : AllFinished told) :
    ∃ c, r = some (.ok c) := by
  cases h with
  | refused h =>
    obtain ⟨parent, haccepted⟩ := haccepted
    exact absurd haccepted h.not_accepted
  | evaluated h names =>
    have hrefusal (left : List Expr) (f : Fault) : ¬ RefusedMethod d.elements left f := by
      rintro ⟨-, before, e, after, helements, -, hreplaces, -⟩
      rw [hmethods e (by simp [helements])] at hreplaces
      cases hreplaces
    obtain ⟨vs, rfl⟩ := names.answers htold hrefusal
    exact ⟨_, rfl⟩

/-- A class is launched exactly if its static fields succeed. -/
theorem Launch.ok_iff {c : Class} {m m' : Machine}
    {r : Option (Except Failure ClassId)} {told : List Event} (h : Launch perform c m r m' told) :
    (∃ id, r = some (.ok id)) ↔ AllFinished told := by
  cases h with
  | completed fields => exact ⟨fun _ => fields.allFinished ⟨_, rfl⟩, fun _ => ⟨_, rfl⟩⟩
  | withdrawn fields | broken fields =>
    refine ⟨by simp, fun htold => ?_⟩
    obtain ⟨us, hus⟩ := fields.answers htold fun _ _ => id
    cases hus

section Define

variable (hp : perform.Keeps reachContract) (htacit : perform.Keeps tacitContract)
  {m : Machine} (hm : m.Closed) (huntold : m.stages m.nextClass = [])

include hp htacit hm huntold

/-- **A definition succeeds exactly if** it passes its checks, no static method is called
`prototype`, and all of its stages succeed. -/
theorem defineClass_ok_iff (d : ClassDefinition) :
    (defineClass perform d).Ensures m fun r m' => (∃ id, r = some (.ok id)) ↔
      (∃ parent, d.Accepted m parent) ∧ (∀ e ∈ d.elements, e.replacesPrototype = false) ∧
        AllFinished (m'.stages m.nextClass).reverse := by
  -- what is told in the end, if the definition could not be prepared
  have hunprepared {r : Option (Except Failure Class)} {m' : Machine} {told : List Event}
      (h : Preparation perform d m r m' told)
      (htold : m'.stages m.nextClass = told.reverse ++ m.stages m.nextClass)
      (hr : ∀ c, r ≠ some (.ok c)) : ¬ ((∃ parent, d.Accepted m parent) ∧
        (∀ e ∈ d.elements, e.replacesPrototype = false) ∧
        AllFinished (m'.stages m.nextClass).reverse) := by
    rintro ⟨haccepted, hmethods, hfinished⟩
    rw [htold, huntold, List.append_nil, List.reverse_reverse] at hfinished
    obtain ⟨c, hc⟩ := h.ok haccepted hmethods hfinished
    exact hr c hc
  refine ((prepareClass_preparation hp htacit hm d).and (prepareClass_tacit htacit d m)).bind
    (fun c m₁ _ h => ?_) (fun e m₁ h => ?_) fun m₁ h => ?_
  · obtain ⟨⟨told₁, hprepared, htold₁, hmethods⟩, -, hc⟩ := h
    obtain ⟨hid, hdrawn⟩ := hc c rfl
    obtain ⟨haccepted, hfinished₁⟩ := hprepared.of_ok
    refine (launchClass_launch htacit hdrawn).mono fun r m' h => ?_
    obtain ⟨told₂, hlaunch, htold₂⟩ := h
    rw [hid] at htold₂
    rw [hlaunch.ok_iff, htold₂, htold₁, huntold]
    simp only [List.append_nil, List.reverse_append, List.reverse_reverse]
    rw [hfinished₁.append_iff]
    exact ⟨fun h => ⟨haccepted, hmethods ⟨c, rfl⟩, h⟩, fun h => h.2.2⟩
  · obtain ⟨⟨told, hprepared, htold, -⟩, -⟩ := h
    exact iff_of_false (by simp) (hunprepared hprepared htold (by simp))
  · obtain ⟨⟨told, hprepared, htold, -⟩, -⟩ := h
    exact iff_of_false (by simp) (hunprepared hprepared htold (by simp))

end Define

/-! ### Before and after the registration -/

/-- No class of that number can be had. -/
structure Machine.Lacks (m : Machine) (id : ClassId) : Prop where
  /-- It is not found under its number. -/
  absent : m.registry.class? id = none
  /-- Nor under a name. -/
  unnamed : ∀ name, m.registry.classId? name ≠ some id
  /-- It cannot be constructed. -/
  unconstructed : ∀ settings perform args, ∃ e m',
    (construct settings perform id args).outcome m = (some (.error e), m')
  /-- No class can be derived from it. -/
  underived : ∀ (d : ClassDefinition) (parent : Option Class), d.parent? m = .ok parent →
    ∀ c ∈ parent, c.id ≠ id

theorem Machine.Coherent.lacks {m : Machine} (hm : m.Coherent) {id : ClassId}
    (hnone : m.registry.class? id = none) : m.Lacks id where
  absent := hnone
  unnamed name hname := by
    obtain ⟨c, hc, -⟩ := hm.class?_of_classId? hname
    rw [hnone] at hc
    cases hc
  unconstructed settings perform args := by
    obtain ⟨e, he⟩ := construct_fails hnone settings perform args
    exact ⟨e, _, Prod.ext he rfl⟩
  underived d parent hparent c hc := by
    rintro rfl
    obtain ⟨id, hid⟩ := d.parent?_eq_ok hparent hc
    rw [hm.follows.class?_id hid, hid] at hnone
    cases hnone

section Registered

variable (heval : ∀ e ctx, (perform (.eval e ctx)).Obeys (registryLaw .trivial)) {m : Machine}
  (hm : m.Coherent)

include heval hm

/-- **While a definition is prepared, its class is not there.** -/
theorem prepareClass_lacks (d : ClassDefinition) :
    (prepareClass perform d).Ensures m fun _ m' => m'.Lacks m.nextClass := by
  have hnone : m.registry.class? m.nextClass = none := by
    refine Option.eq_none_iff_forall_ne_some.mpr fun c hc => ?_
    exact Nat.not_succ_le_self _ (hm.follows.registered_le (hm.follows.registered_of_class? hc))
  refine prepareClass_ensures (fun f _ => ?_) fun parent _ => ?_
  · have hrefused : m.Settles (m.refused d.displayName f) := .of_eq hm rfl rfl
    exact hrefused.coherent.lacks hnone
  · have hprepared := hm.prepared d parent
    refine (collectFields_registryLaw (L := .trivial) (fun _ _ _ => trivial) heval m.nextClass
      d.displayName m.homes d.elements (m.prepared d parent)).mono fun r m' h => ?_
    have hcontinues := h.continues hprepared
    -- what runs meanwhile registers other classes only
    have hdrawn : m.nextClass ≤ (m.prepared d parent).registry.lastId := Nat.le_refl _
    have hsame := hcontinues.later.isSome_class? hprepared hcontinues.coherent hdrawn
    have hprepared : (m.prepared d parent).registry.class? m.nextClass = none := hnone
    exact hcontinues.coherent.lacks (by simpa [hprepared] using hsame)

/-- **While a class is launched, it is there.** -/
theorem launchClass_registers {c : Class} (hc : m.Fresh c) :
    (launchClass perform c).Ensures m fun r m' => r = none →
      ∃ fields, m'.registry.class? c.id = some (c.withFields fields) := by
  have hlaunched := (hc.launched hm).coherent
  have hthere : (m.launched c).registry.class? c.id = some c := by
    simp [Machine.launched, Effect.apply, Registry.class?_register]
  refine launchClass_ensures (staticFields_registryLaw (L := .trivial) (fun _ _ _ => trivial) heval
    c (m.launched c)) (fun _ _ h => by simp at h) (fun _ _ _ h => by simp at h) fun m' h _ => ?_
  have hcontinues := h.continues hlaunched
  exact hcontinues.later.class? hlaunched hcontinues.coherent hthere

end Registered

/-! ### The whole definition -/

theorem Occurs.unforetold {settings : Settings} {m : Machine} (hm : Occurs settings m) :
    m.Unforetold :=
  hm.of_moments (tacit_moments settings) fun _ _ he hm =>
    hm.later (.of_effect (fun _ _ => he.not_tells _) _)

/-- A definition is evaluated in order, from this machine on and by runs with at most so many
levels, broken off in the given states. -/
structure Machine.DefinesInOrder (settings : Settings) (stop : Machine → Bool) (levels : Nat)
    (m : Machine) (d : ClassDefinition) : Prop where
  /-- Nothing of the definition has run before. -/
  before : m.stages m.nextClass = []
  /-- First the computed names are evaluated, in source order. That is all that is told of the
  definition then, and the class cannot be had, neither in the end nor wherever this is broken
  off. -/
  prepares : (prepareClass (interpretUntil settings stop levels) d).Ensures m fun r m₁ =>
    m₁.Lacks m.nextClass ∧ ∃ told,
      Preparation (interpretUntil settings stop levels) d m r m₁ told ∧
      m₁.stages m.nextClass = told.reverse
  /-- Then the class is registered and its static fields are installed, in order. That is all
  that is told of the definition then, and the class is there wherever this is broken off. -/
  launches : ∀ c m₁,
    (prepareClass (interpretUntil settings stop levels) d).outcome m = (some (.ok c), m₁) →
      c.id = m.nextClass ∧
      (launchClass (interpretUntil settings stop levels) c).Ensures m₁ fun r m' =>
        (r = none → ∃ fields, m'.registry.class? c.id = some (c.withFields fields)) ∧ ∃ told,
          Launch (interpretUntil settings stop levels) c m₁ r m' told ∧
          m'.stages c.id = told.reverse ++ m₁.stages c.id
  /-- The definition succeeds exactly if it passes its checks, no static method or accessor is
  called `prototype`, and all of its stages succeed. -/
  succeeds_iff : (defineClass (interpretUntil settings stop levels) d).Ensures m fun r m' =>
    (∃ id, r = some (.ok id)) ↔ (∃ parent, d.Accepted m parent) ∧
      (∀ e ∈ d.elements, e.replacesPrototype = false) ∧
      AllFinished (m'.stages m.nextClass).reverse
  /-- Of the definitions before, no stage runs any more, whatever else does. -/
  after : ∀ id ≤ m.registry.lastId,
    (∀ ⦃α : Type⦄ (task : Task α), (interpretUntil settings stop levels task).Ensures m
      fun _ m' => m'.stages id = m.stages id) ∧
    ∀ ⦃α : Type⦄ (c : Call α), (c.run settings (interpretUntil settings stop levels)).Ensures m
      fun _ m' => m'.stages id = m.stages id
  /-- No operation performs code on other occasions than its own, on this machine or on any other
  one: names and initializers just after their stages have begun. -/
  occasions : ∀ n : Machine,
    (∀ ⦃α : Type⦄ (c : Call α),
      PerformsOnly (c.Occasion n) (fun perform => c.run settings perform) n) ∧
    ∀ cls newTarget args, PerformsOnly (Occasions.Construction n.registry cls newTarget args)
      (fun perform => constructFor settings perform cls newTarget args) n
  /-- The fields that have been begun on instances are those that their classes have declared for
  instances. -/
  instances : ∀ cls className o record,
    .began (.instanceField cls className o record) ∈ m.trace → m.HasInstanceRecord cls record

/-- **The order of evaluation.** At every moment of a program, a definition evaluates its
computed names in source order, before its class is registered, and then installs its static
fields in order, with the class object as the receiver, up to the first stage that fails; each stage
runs once, and none of them at any other time. For no operation performs code on another occasion
than its own: a construction performs initializers of fields that it has begun as instance fields,
and these are fields that their classes have declared for instances; a definition performs its own
computed names and static initializers. The definition succeeds exactly if its checks are passed, no
static method is called `prototype`, and all of these stages succeed. -/
theorem definition_order (settings : Settings) (stop : Machine → Bool) (levels : Nat)
    {m : Machine} (hm : Occurs settings m) (d : ClassDefinition) :
    m.DefinesInOrder settings stop levels d := by
  have hreach : (interpretUntil settings stop levels).Keeps reachContract :=
    interpretUntil_keeps (step_keeps_reach settings) stop levels
  have htacit := interpretUntil_tacit settings stop levels
  have heval (e : Expr) (ctx : Context) :
      (interpretUntil settings stop levels (.eval e ctx)).Obeys (registryLaw .trivial) :=
    interpretUntil_keeps (fun _ hp => step_keeps_registry hp settings) stop levels (.eval e ctx)
  have huntold : m.stages m.nextClass = [] := hm.unforetold m.nextClass (Nat.lt_succ_self _)
  have hprepare := prepareClass_preparation hreach htacit hm.closed d
  refine ⟨huntold, ?_, fun c m₁ h => ?_, defineClass_ok_iff hreach htacit hm.closed huntold d,
    fun id hid => tacit_tasks settings stop levels hid, fun n => ⟨fun _ c =>
      call_performsOnly settings c n, fun _ _ _ => constructFor_performsOnly _ _ _ n⟩,
    fun _ _ _ _ => hm.hasInstanceRecord⟩
  · refine ((prepareClass_lacks heval hm.coherent d).and hprepare).mono ?_
    rintro r m₁ ⟨hlacks, told, hprepared, htold, -⟩
    rw [huntold, List.append_nil] at htold
    exact ⟨hlacks, told, hprepared, htold⟩
  · have htacit₁ := prepareClass_tacit htacit d m
    have hfresh := prepareClass_fresh (L := .trivial) (fun _ _ _ => trivial) heval d hm.coherent
    rw [Action.Ensures, h] at htacit₁ hfresh
    obtain ⟨hid, hdrawn⟩ := htacit₁.2 c rfl
    have hm₁ := (hfresh.1.continues hm.coherent).coherent
    exact ⟨hid, (launchClass_registers heval hm₁ (hfresh.2 c rfl).2).and
      (launchClass_launch htacit hdrawn)⟩

/-- A class with stages of all kinds, and elements that are none:
`class { static ["a"] = 1; static run() {}; ["b"] = 2; static c = this; d = malformed }`. -/
def stagedClass : ClassDefinition where
  name := none
  heritage := none
  constructor := none
  elements :=
    [.field (.computed (.literal (.str "a"))) true (some (.literal (.bool true))),
      .method "run" .method true { id := 0, name := "run", body := .literal .undefined },
      .field (.computed (.literal (.str "b"))) false (some (.literal (.bool false))),
      .field (.literal "c") true (some (.primitive .receiver [])),
      .field (.literal "d") false (some (.malformed .form))]

/-- Its definition succeeds after four stages, two computed names and two static fields. -/
theorem definition_order_of_stagedClass :
    (Occurs {} .initial ∧
      ((defineClass (interpretUntil {} (fun _ => false) 9) stagedClass).outcome .initial).1.any
        (fun r => r.toOption.isSome) = true ∧
      (((defineClass (interpretUntil {} (fun _ => false) 9) stagedClass).outcome
        .initial).2.stages 1).length = 8) ∧
    Machine.initial.DefinesInOrder {} (fun _ => false) 9 stagedClass :=
  ⟨⟨.rest .initial, by decide +kernel, by decide +kernel⟩,
    definition_order {} (fun _ => false) 9 (.rest .initial) stagedClass⟩

end ClassMachine
