import ClassMachine.Proofs.FailureSearch
import ClassMachine.Proofs.FailureSources

/-!
# The trails of failures

A failing step has failed by a fault of its own or by a step inside it, and that one again. So from
every failure there is a trail (`ClassMachine.Trail`) that leads inwards, from the step that failed
to the one that has raised a fault. All steps on the trail were under way when this happened. Those
of them that are stages, from the outermost one inwards, are the layers of the failure, and the
fault is its cause (`ClassMachine.Trail.failure_eq`); the trace has them as the activities under
way at that moment (`ClassMachine.Trail.events`).

A trail is found by two inductions (`ClassMachine.exists_trail`): one on the levels, since what is
inside a task is performed one level below, and one on the steps between two tasks.

Main statement: `ClassMachine.failure_layers`.
-/

namespace ClassMachine

variable {α : Type}

/-! ### Trails -/

/-- The activity that a step is. -/
def Step.activity? : Step → Option Activity
  | stage activity => some activity
  | _ => none

/-- The activities among steps. -/
def activitiesOf (steps : List Step) : List Activity :=
  steps.filterMap Step.activity?

theorem activitiesOf_cons (s : Step) (steps : List Step) :
    activitiesOf (s :: steps) = s.activity?.toList ++ activitiesOf steps := by
  cases h : s.activity? <;> simp [activitiesOf, h]

namespace Step

/-- What has gone well in a step, from its beginning on, leaves the step under way. -/
theorem calm_of_begun {s : Step} {m m₁ : Machine}
    (h : (s.begun m).Reports (some (.ok ())) m₁) :
    ∃ new, m₁.trace = new ++ m.trace ∧ Orderly new ∧ travelling new = none ∧
      activeOf new = s.activity?.toList := by
  obtain ⟨new, hnew, htells⟩ := h
  have hactive : activeOf new = [] := htells.active _ rfl
  have hcalm : travelling new = none := htells.travelling _ rfl
  cases s with
  | stage activity =>
    obtain ⟨happend, hquiet, horderly⟩ := htells.orderly.append (T := [.began activity]) rfl
    refine ⟨new ++ [.began activity], by rw [hnew, List.append_assoc]; rfl, horderly ⟨rfl, trivial⟩,
      hquiet.trans hcalm, ?_⟩
    rw [happend, hactive]
    rfl
  | _ => exact ⟨new, hnew, htells.orderly, hcalm, hactive⟩

/-- What is noted at the end of a step that fails. -/
theorem ended_eq (s : Step) (T : List Event) :
    ∃ later, s.ended T = later ++ T ∧ ∀ e, .caught e ∉ later := by
  cases s with
  | stage activity => exact ⟨[.failed activity], rfl, by simp⟩
  | _ => exact ⟨[], rfl, by simp⟩

end Step

/-- The level on which the inside of a step is performed. -/
def Step.below (levels : Nat) : Step → Nat
  | task _ => levels - 1
  | _ => levels

/-- The trail from a step that has failed to the fault: the steps that were under way when it was
raised, each inside the one before. It starts on a machine and goes with a failure and with a
trace at the end. -/
inductive Trail (settings : Settings) (f : Fault) :
    Nat → Step → List Step → Machine → Failure → List Event → Prop
  /-- The step itself has raised the fault, after all had gone well. -/
  | raised {levels : Nat} {s : Step} {m m₁ : Machine} {undone : List Event}
      (hcalm : (s.begun m).Reports (some (.ok ())) m₁) (hundone : ∀ x ∈ undone, x.IsWithdrawal) :
    Trail settings f levels s [s] m (s.within (.ofFault f))
      (s.ended (undone ++ .raised f :: m₁.trace))
  /-- A step inside it has failed, after all had gone well. -/
  | inside {levels : Nat} {s s' : Step} {steps : List Step} {m m₁ m₂ : Machine} {e : Failure}
      {undone : List Event} (hs : s'.Inside s) (hcalm : (s.begun m).Reports (some (.ok ())) m₁)
      (hfails : (s'.run settings (interpret settings (s.below levels))).outcome m₁ =
        (some (.error e), m₂))
      (htrail : Trail settings f (s.below levels) s' steps m₁ e m₂.trace)
      (hundone : ∀ x ∈ undone, x.IsWithdrawal) :
    Trail settings f levels s (s :: steps) m (s.within e) (s.ended (undone ++ m₂.trace))

namespace Trail

variable {settings : Settings} {f : Fault} {levels : Nat} {s : Step} {steps : List Step}
  {m : Machine} {e : Failure} {T : List Event}

/-- **The layers of a failure** are those of the stages on its trail. -/
theorem failure_eq (h : Trail settings f levels s steps m e T) :
    e = ⟨(activitiesOf steps).map Activity.context, f⟩ := by
  induction h with
  | @raised _ s => cases s <;> rfl
  | @inside _ s _ _ _ _ _ _ _ _ _ _ _ _ ih =>
    subst ih
    cases s <;> rfl

/-- **What was under way** when the fault was raised: the stages on the trail. Since then nothing
was caught. -/
theorem events (h : Trail settings f levels s steps m e T) :
    ∃ later earlier, T = later ++ .raised f :: (earlier ++ m.trace) ∧
      (∀ e, .caught e ∉ later) ∧ Orderly earlier ∧ travelling earlier = none ∧
        activeOf earlier = (activitiesOf steps).reverse := by
  have uncaught {undone : List Event} (hundone : ∀ x ∈ undone, x.IsWithdrawal) (e : Failure) :
      .caught e ∉ undone := fun he => by
    obtain ⟨id, kept, h⟩ := hundone _ he
    cases h
  induction h with
  | @raised _ s m m₁ undone hcalm hundone =>
    obtain ⟨earlier, hearlier, horderly, htravelling, hactive⟩ := Step.calm_of_begun hcalm
    obtain ⟨later, hlater, hcaught⟩ := s.ended_eq (undone ++ .raised f :: m₁.trace)
    refine ⟨later ++ undone, earlier, by rw [hlater, hearlier, List.append_assoc], fun e he =>
      (List.mem_append.mp he).elim (hcaught e) (uncaught hundone e), horderly, htravelling, ?_⟩
    rw [hactive]
    cases s <;> rfl
  | @inside _ s _ steps m m₁ m₂ _ undone _ hcalm _ _ hundone ih =>
    obtain ⟨before, hbefore, hbeforeOrderly, hbeforeTravelling, hbeforeActive⟩ :=
      Step.calm_of_begun hcalm
    obtain ⟨inner, earlier, hm₂, hinner, horderly, htravelling, hactive⟩ := ih
    obtain ⟨later, hlater, hcaught⟩ := s.ended_eq (undone ++ m₂.trace)
    obtain ⟨happend, hquiet, horderly'⟩ := horderly.append hbeforeTravelling
    refine ⟨later ++ undone ++ inner, earlier ++ before, ?_, fun e he => ?_,
      horderly' hbeforeOrderly, hquiet.trans htravelling, ?_⟩
    · rw [hlater, hm₂, hbefore]
      simp
    · rcases List.mem_append.mp he with he | he
      · exact (List.mem_append.mp he).elim (hcaught e) (uncaught hundone e)
      · exact hinner e he
    · rw [happend, hactive, hbeforeActive, activitiesOf_cons, List.reverse_append]
      cases s <;> rfl

end Trail

/-- A source of what goes wrong in a step gives a trail, if the steps inside it have trails. -/
theorem Source.exists_trail {settings : Settings} {levels : Nat} {s : Step}
    (inside : ∀ s', s'.Inside s → ∀ m e m',
      (s'.run settings (interpret settings (s.below levels))).outcome m = (some (.error e), m') →
        ∃ f steps, Trail settings f (s.below levels) s' steps m e m'.trace)
    {m : Machine} {e : Failure} {T : List Event}
    (h : Source settings (interpret settings (s.below levels)) (Step.Inside · s) (s.begun m) e T) :
    ∃ f steps, Trail settings f levels s steps m (s.within e) (s.ended T) := by
  cases h with
  | raised hcalm hundone => exact ⟨_, _, .raised hcalm hundone⟩
  | inside hs hcalm hfails hundone =>
    obtain ⟨f, steps, htrail⟩ := inside _ hs _ _ _ hfails
    exact ⟨f, _, .inside hs hcalm hfails htrail hundone⟩

/-- All failures of a level have trails if those of its tasks have. -/
theorem exists_trail_of_tasks {settings : Settings} {levels : Nat}
    (htasks : ∀ ⦃α : Type⦄ (t : Task α) m e m',
      (interpret settings levels t).outcome m = (some (.error e), m') →
        ∃ f steps, Trail settings f levels (.task t) steps m e m'.trace)
    (s : Step) (m : Machine) (e : Failure) (m' : Machine)
    (h : (s.run settings (interpret settings levels)).outcome m = (some (.error e), m')) :
    ∃ f steps, Trail settings f levels s steps m e m'.trace := by
  induction s using Step.induction generalizing m e m' with
  | h s inside =>
    by_cases hs : s.IsTask
    · cases s with
      | task t => exact htasks t m e m' h
      | _ => exact hs.elim
    obtain ⟨hframes, hreports⟩ := Performer.keeps_and.mp (interpret_keeps_reports settings levels)
    obtain ⟨e', T, hsource, rfl, hm'⟩ := Step.source hframes hreports hs h
    have hbelow : s.below levels = levels := by
      cases s <;> first | exact absurd trivial hs | rfl
    rw [hm']
    exact Source.exists_trail (by simpa only [hbelow] using inside hs) (by rwa [hbelow])

/-- **Every failure has a trail.** -/
theorem exists_trail (settings : Settings) (levels : Nat) (s : Step) (m : Machine) (e : Failure)
    (m' : Machine)
    (h : (s.run settings (interpret settings levels)).outcome m = (some (.error e), m')) :
    ∃ f steps, Trail settings f levels s steps m e m'.trace := by
  induction levels generalizing s m e m' with
  | zero => exact exists_trail_of_tasks (fun _ _ _ _ _ h => by cases h) s m e m' h
  | succ levels ih =>
    obtain ⟨hframes, hreports⟩ := Performer.keeps_and.mp (interpret_keeps_reports settings levels)
    refine exists_trail_of_tasks (fun β t m e m' h => ?_) s m e m' h
    exact (task_source hframes hreports t h).exists_trail fun s' _ => ih s'

/-! ### The layers of failures -/

/-- **The layers of failures.** The events of every operation that ends, a call or a task
of any kind and from any machine, say how it ends. A fault that is raised and that no client
code catches makes it fail: the fault is the innermost layer, and above it there is one layer
for each computed name being evaluated and each static or instance field being installed when
the fault was raised, in the order in which these began, and no other layer. And every
failure comes from such a fault.

What was under way is known from more than the events. From every step that fails, of any kind, a
trail leads through the steps inside it to the one that raised the fault. Code of clients, calls of
operations, among them those of parent constructors, constructions, constructor bodies, methods,
getters and setters hand on the failure of a step inside them as it is; a computed name, a static
field and an instance field put their layer on it. So the layers are those of the stages on the
trail, outermost first. And apart from code of clients, a step succeeds only if it does so where
every task that would fail in it is broken off: it goes on after no failure. -/
theorem failure_layers (settings : Settings) (levels : Nat) (m m' : Machine) :
    (∀ ⦃α : Type⦄ (c : Call α) (r : Except Failure α),
      (c.run settings (interpret settings levels)).outcome m = (some r, m') →
        ∃ new, m'.trace = new ++ m.trace ∧ Explains new r) ∧
    (∀ ⦃α : Type⦄ (task : Task α) (r : Except Failure α),
      (interpret settings levels task).outcome m = (some r, m') →
        ∃ new, m'.trace = new ++ m.trace ∧ Explains new r) ∧
    (∀ (s : Step) (e : Failure),
      (s.run settings (interpret settings levels)).outcome m = (some (.error e), m') →
        ∃ f steps, Trail settings f levels s steps m e m'.trace ∧
          e = ⟨(activitiesOf steps).map Activity.context, f⟩ ∧
          ∃ later earlier, m'.trace = later ++ .raised f :: (earlier ++ m.trace) ∧
            (∀ e, .caught e ∉ later) ∧ activeOf earlier = (activitiesOf steps).reverse) ∧
    ∀ (perform : Performer) (s : Step) (answer : s.Answer),
      (s.run settings perform).outcome m = (some (.ok answer), m') →
        (s.run settings perform.strict).outcome m = (some (.ok answer), m') := by
  obtain ⟨hframes, hreports⟩ := Performer.keeps_and.mp (interpret_keeps_reports settings levels)
  have explain {α : Type} {x : Action α} (hx : x.Reports) {r : Except Failure α}
      (h : x.outcome m = (some r, m')) : ∃ new, m'.trace = new ++ m.trace ∧ Explains new r := by
    obtain ⟨new, hnew, htells⟩ := hx.of_outcome h
    exact ⟨new, hnew, htells.explains⟩
  refine ⟨fun α c r h => explain (call_reports hframes hreports c) h,
    fun α task r h => explain (hreports task) h, fun s e h => ?_,
    fun perform s answer => s.succeedsStrictly settings perform m answer m'⟩
  obtain ⟨f, steps, htrail⟩ := exists_trail settings levels s m e m' h
  obtain ⟨later, earlier, hm', hcaught, -, -, hactive⟩ := htrail.events
  exact ⟨f, steps, htrail, htrail.failure_eq, later, earlier, hm', hcaught, hactive⟩

/-- A failure far inside. A computed name constructs a derived class, its body calls the parent
constructor, the body of that one calls a method, this reads an accessor, and the getter constructs
a class of which a field fails: `class Base { constructor() { this.m() } m() { this.g }
get g() { new class Inner { x = throw "boom" } } }`, `class Derived extends Base
{ constructor() { super() } }` and `class Outer { [new Derived] }`. -/
def failingFarInside : Expr :=
  let register (name : String) : Expr := .primitive .register [.literal (.str name)]
  .sequence [
    .assign "base" (.classDefinition
      { name := some (.literal (.str "Base")), heritage := none,
        constructor := some (.reentry .invoke [.primitive .this [], .literal (.str "m")]),
        elements := [
          .method "m" .method false "m" (.reentry .get [.primitive .receiver [],
            .literal (.str "g")]),
          .method "g" .getter false "g" (.reentry .construct [.classDefinition
            { name := some (.literal (.str "Inner")), heritage := none, constructor := none,
              elements := [.field (.literal "x") false
                (some (.primitive .throw [.literal (.str "boom")]))] }])] }),
    .assign "derived" (.classDefinition
      { name := some (.literal (.str "Derived")),
        heritage := some (.primitive .classObject [register "base"]),
        constructor := some (.reentry .super []), elements := [] }),
    .classDefinition
      { name := some (.literal (.str "Outer")), heritage := none, constructor := none,
        elements := [.field (.computed (.reentry .construct [register "derived"])) false none] }]

/-- A definition with a computed name: `class { static ["x"] = null }`. -/
def namedByCode : ClassDefinition :=
  { elements := [.field (.computed (.literal (.str "x"))) true (some (.literal .null))] }

/-- The classes of which a constructor body was entered, the latest one in front. -/
def bodiesOf (T : List Event) : List ClassId :=
  T.filterMap fun
    | .bodyEntered cls _ _ => some cls
    | _ => none

/-- A construction of a class that is not there fails without a layer. A failure inside two fields
has a layer for each of them. One that comes out of an instance field through a getter, a method,
two bodies and a call of the parent constructor, and then out of a computed name, has two layers.
And a definition that succeeds does so without anything failing in it. -/
theorem failure_layers_of_failingFarInside :
    (∃ m' e new, ((Call.construct 7 []).run {} (interpret {} 9)).outcome .initial =
        (some (.error e), m') ∧ e.chain = ["SemanticError: Class 7 not found"] ∧
      m'.trace = new ++ Machine.initial.trace ∧
      Explains new (.error e : Except Failure ObjectId)) ∧
    (∃ m' e new, (interpret {} 9 (.eval failingInside {})).outcome .initial =
        (some (.error e), m') ∧
      e.chain = ["DefinitionError: static field made of class Outer could not be initialized",
        "ConstructionError: field x of class Inner could not be installed", "Uncaught boom"] ∧
      m'.trace = new ++ Machine.initial.trace ∧
      Explains new (.error e : Except Failure Value)) ∧
    (∃ m' e f steps, (interpret {} 13 (.eval failingFarInside {})).outcome .initial =
        (some (.error e), m') ∧
      e.chain = ["DefinitionError: computed field name in class Outer could not be evaluated",
        "ConstructionError: field x of class Inner could not be installed", "Uncaught boom"] ∧
      bodiesOf m'.trace = [1, 2] ∧
      Trail {} f 13 (.task (.eval failingFarInside {})) steps .initial e m'.trace ∧
      e = ⟨(activitiesOf steps).map Activity.context, f⟩) ∧
    ∃ id m', (defineClass (interpret {} 3) namedByCode).outcome .initial = (some (.ok id), m') ∧
      (defineClass (interpret {} 3).strict namedByCode).outcome .initial =
        (some (.ok id), m') := by
  refine ⟨?_, ?_, ?_, ?_⟩
  · have hfails : failsWith (fun e => e.chain == ["SemanticError: Class 7 not found"])
        (((Call.construct 7 []).run {} (interpret {} 9)).outcome .initial).1 = true := by
      decide +kernel
    obtain ⟨e, m', h, hchain⟩ := exists_of_failsWith hfails
    obtain ⟨new, hnew, hexplains⟩ := (failure_layers {} 9 .initial m').1 _ _ h
    exact ⟨m', e, new, h, beq_iff_eq.mp hchain, hnew, hexplains⟩
  · have hfails : failsWith (fun e => e.chain ==
          ["DefinitionError: static field made of class Outer could not be initialized",
          "ConstructionError: field x of class Inner could not be installed", "Uncaught boom"])
        ((interpret {} 9 (.eval failingInside {})).outcome .initial).1 = true := by
      decide +kernel
    obtain ⟨e, m', h, hchain⟩ := exists_of_failsWith hfails
    obtain ⟨new, hnew, hexplains⟩ := (failure_layers {} 9 .initial m').2.1 _ _ h
    exact ⟨m', e, new, h, beq_iff_eq.mp hchain, hnew, hexplains⟩
  · have hfails : failsWith (fun e => e.chain ==
          ["DefinitionError: computed field name in class Outer could not be evaluated",
          "ConstructionError: field x of class Inner could not be installed", "Uncaught boom"])
        ((interpret {} 13 (.eval failingFarInside {})).outcome .initial).1 = true := by
      decide +kernel
    have hbodies : bodiesOf
        ((interpret {} 13 (.eval failingFarInside {})).outcome .initial).2.trace = [1, 2] := by
      decide +kernel
    obtain ⟨e, m', h, hchain⟩ := exists_of_failsWith hfails
    rw [h] at hbodies
    obtain ⟨f, steps, htrail, he, -⟩ := (failure_layers {} 13 .initial m').2.2.1
      (.task (.eval failingFarInside {})) e h
    exact ⟨m', e, f, steps, h, beq_iff_eq.mp hchain, hbodies, htrail, he⟩
  · have hsucceeds :
        (((defineClass (interpret {} 3) namedByCode).outcome .initial).1.any Except.isOk) =
          true := by
      decide +kernel
    rcases h : (defineClass (interpret {} 3) namedByCode).outcome .initial with
      ⟨_ | e | id, m'⟩ <;> rw [h] at hsucceeds
    · cases hsucceeds
    · cases hsucceeds
    · exact ⟨id, m', rfl, (failure_layers {} 3 .initial m').2.2.2 _ (.call (.define namedByCode))
        id h⟩

end ClassMachine
