import ClassMachine.Proofs.DefinitionEvents
import ClassMachine.Proofs.HiddenHomes

/-!
# The stages of a definition, in order

A definition runs client code in stages: first the computed names are evaluated, later the static
fields are installed. In both halves the stages go one after the other, and the first that fails
is the last one. That they go in this way is `ClassMachine.InOrder`, a relation between the
machine before and the machine after, which says at which machine each of them is begun and what
the trace tells of them. The two halves of a definition are described by it,
`ClassMachine.Preparation` and `ClassMachine.Launch`.

Between two computed names there are only methods to be put onto the objects of the class. These
take all of them but a static one called `prototype`, whatever the computed names do, since no
reference leads to the objects yet (`ClassMachine.Machine.Receptive`).

Main statements: `ClassMachine.prepareClass_preparation`, `ClassMachine.launchClass_launch`.
-/

namespace ClassMachine

variable {α β ι : Type}

/-! ### Stages in order -/

/-- What the trace tells of an activity that has this outcome. -/
def Activity.told (activity : Activity) : Option (Except Failure β) → List Event
  | some (.ok _) => [.began activity, .finished activity]
  | some (.error _) => [.began activity, .failed activity]
  | none => [.began activity]

section InOrder

variable (activity : ι → Activity) (code : ι → Action β) (between : Effect → Prop)
  (refusal : List ι → Fault → Prop)

/-- Stages go one after the other, and the first that fails or is broken off is the last one.
Before each of them and after the last one there are effects of some kind, and a fault may arise
instead of the stages that are left. -/
inductive InOrder :
    List ι → Machine → Option (Except Failure (List β)) → Machine → List Event → Prop
  /-- Nothing is left to do. -/
  | done {m : Machine} (es : List Effect) (hes : ∀ e ∈ es, between e) :
    InOrder [] m (some (.ok [])) (Effect.applyAll es m) []
  /-- A fault arises before the next stage is begun. -/
  | refused {plan : List ι} {m : Machine} {f : Fault} (es : List Effect)
      (hes : ∀ e ∈ es, between e) (hf : refusal plan f) :
    InOrder plan m (some (.error (.ofFault f)))
      ((Effect.note (.raised f)).apply (Effect.applyAll es m)) []
  /-- The next stage succeeds. -/
  | succeeded {i : ι} {plan : List ι} {m m₁ m' : Machine} {b : β}
      {r : Option (Except Failure (List β))} {told : List Event} (es : List Effect)
      (hes : ∀ e ∈ es, between e)
      (h : (during (activity i) (code i)).outcome (Effect.applyAll es m) = (some (.ok b), m₁))
      (rest : InOrder plan m₁ r m' told) :
    InOrder (i :: plan) m (r.map (Except.map (b :: ·))) m'
      ((activity i).told (some (.ok b)) ++ told)
  /-- The next stage fails. -/
  | failed {i : ι} {plan : List ι} {m m' : Machine} {e : Failure} (es : List Effect)
      (hes : ∀ e ∈ es, between e)
      (h : (during (activity i) (code i)).outcome (Effect.applyAll es m) = (some (.error e), m')) :
    InOrder (i :: plan) m (some (.error e)) m' ((activity i).told (some (.error e : Except _ β)))
  /-- The next stage is broken off. -/
  | broken {i : ι} {plan : List ι} {m m' : Machine} (es : List Effect)
      (hes : ∀ e ∈ es, between e)
      (h : (during (activity i) (code i)).outcome (Effect.applyAll es m) = (none, m')) :
    InOrder (i :: plan) m none m' ((activity i).told (none : Option (Except _ β)))

end InOrder

/-- Each activity that was begun has succeeded. -/
inductive AllFinished : List Event → Prop
  | nil : AllFinished []
  | cons {activity : Activity} {told : List Event} (h : AllFinished told) :
    AllFinished (.began activity :: .finished activity :: told)

theorem AllFinished.append_iff {told told' : List Event} (h : AllFinished told) :
    AllFinished (told ++ told') ↔ AllFinished told' := by
  induction h with
  | nil => rfl
  | @cons activity told _ ih =>
    refine Iff.trans ⟨fun h => ?_, .cons⟩ ih
    cases h with
    | cons h => exact h

namespace InOrder

variable {activity : ι → Activity} {code : ι → Action β} {between : Effect → Prop}
  {refusal : List ι → Fault → Prop} {plan : List ι} {m m' : Machine}
  {r : Option (Except Failure (List β))} {told : List Event}

/-- One more effect before the first stage. -/
theorem effect {e : Effect} (he : between e)
    (h : InOrder activity code between refusal plan (e.apply m) r m' told) :
    InOrder activity code between refusal plan m r m' told := by
  have hcons {es : List Effect} (hes : ∀ e ∈ es, between e) : ∀ e' ∈ e :: es, between e' :=
    List.forall_mem_cons.mpr ⟨he, hes⟩
  cases h with
  | done es hes => exact .done (e :: es) (hcons hes)
  | refused es hes hf => exact .refused (e :: es) (hcons hes) hf
  | succeeded es hes h rest => exact .succeeded (e :: es) (hcons hes) h rest
  | failed es hes h => exact .failed (e :: es) (hcons hes) h
  | broken es hes h => exact .broken (e :: es) (hcons hes) h

/-- If there is an answer, all stages have succeeded. -/
theorem allFinished (h : InOrder activity code between refusal plan m r m' told)
    (hr : ∃ bs, r = some (.ok bs)) : AllFinished told := by
  induction h with
  | done => exact .nil
  | refused | failed | broken => simp at hr
  | succeeded _ _ _ _ ih =>
    obtain ⟨bs, hr⟩ := hr
    obtain ⟨bs', hr, -⟩ := eq_ok_of_map hr
    exact .cons (ih ⟨bs', hr⟩)

/-- If all stages that were begun have succeeded, there is an answer, unless a fault arose
between them. -/
theorem answers (h : InOrder activity code between refusal plan m r m' told)
    (htold : AllFinished told) (hrefusal : ∀ left f, ¬ refusal left f) :
    ∃ bs, r = some (.ok bs) := by
  induction h with
  | done => exact ⟨[], rfl⟩
  | refused _ _ hf => exact absurd hf (hrefusal _ _)
  | @succeeded _ _ _ _ _ b _ _ _ _ _ _ ih =>
    cases htold with
    | cons htold =>
      obtain ⟨bs, rfl⟩ := ih htold
      exact ⟨b :: bs, rfl⟩
  | failed | broken => cases htold

end InOrder

/-! ### What is told of stages -/

section Told

variable {id : ClassId}

/-- What is told of a stage, given that nothing is told of it by what it runs. -/
theorem during_told {a : Activity} (ha : a.definition? = some id) {x : Action β}
    (hx : x.Obeys (tacitLaw fun _ => True)) {m : Machine} (hid : id ≤ m.registry.lastId) :
    (during a x).Ensures m fun r m' =>
      id ≤ m'.registry.lastId ∧ m'.stages id = (a.told r).reverse ++ m.stages id := by
  have hnote (e : Event) (he : e.definition? = some id) (n : Machine) :
      ((Effect.note e).apply n).stages id = e :: n.stages id :=
    List.filter_cons_of_pos (by simpa using he)
  let m₁ : Machine := (Effect.note (.began a)).apply m
  have hbegan : m₁.stages id = .began a :: m.stages id := hnote (.began a) ha m
  have hinside {r : Option (Except Failure β)} {m₂ : Machine}
      (h : (tacitLaw fun _ => True).Holds m₁ r m₂) :
      id ≤ m₂.registry.lastId ∧ m₂.stages id = .began a :: m.stages id := by
    have h := tacitLaw_holds.mp h
    exact ⟨Nat.le_trans hid h.lastId, by rw [h.stages id trivial (.inl hid), hbegan]⟩
  refine .bind_ok (n := m₁) rfl ((hx m₁).bind_observe (fun r m₂ _ h => ?_) fun m₂ h => ?_)
  · obtain ⟨hlast, htold⟩ := hinside (r := some r) h
    cases r with
    | ok b =>
      refine .of_outcome (n := (Effect.note (.finished a)).apply m₂) rfl ⟨hlast, ?_⟩
      rw [hnote (.finished a) ha, htold]
      rfl
    | error e =>
      refine .of_outcome (n := (Effect.note (.failed a)).apply m₂) rfl ⟨hlast, ?_⟩
      rw [hnote (.failed a) ha, htold]
      rfl
  · exact hinside (r := none) h

variable {activity : ι → Activity} {code : ι → Action β} {between : Effect → Prop}
  {refusal : List ι → Fault → Prop} {plan : List ι} {m m' : Machine}
  {r : Option (Except Failure (List β))} {told : List Event}

/-- **All that the trace tells of the stages of a definition** is what is told of them in their
order. -/
theorem InOrder.stages (h : InOrder activity code between refusal plan m r m' told)
    (hactivity : ∀ i, (activity i).definition? = some id)
    (hcode : ∀ i, (code i).Obeys (tacitLaw fun _ => True))
    (hbetween : ∀ e, between e → ¬ e.Tells id) (hid : id ≤ m.registry.lastId) :
    m'.stages id = told.reverse ++ m.stages id := by
  -- effects between stages tell nothing
  have heffects {es : List Effect} {n : Machine} (hes : ∀ e ∈ es, between e)
      (hn : id ≤ n.registry.lastId) : id ≤ (Effect.applyAll es n).registry.lastId ∧
        (Effect.applyAll es n).stages id = n.stages id := by
    have h := (tacitLaw (· = id)).ended_applyAll
      (fun e he => tacitLaw_allows fun _ hx => hx ▸ hbetween e (hes e he)) n
    exact ⟨Nat.le_trans hn h.lastId, h.stages id rfl (.inl hn)⟩
  induction h with
  | done es hes => exact (heffects hes hid).2
  | refused es hes hf =>
    rw [Effect.stages_apply (by simp [Effect.Tells, Event.definition?])]
    exact (heffects hes hid).2
  | @succeeded i _ _ _ _ _ _ _ es hes h _ ih =>
    obtain ⟨hlast, hbefore⟩ := heffects hes hid
    have hstage := during_told (hactivity i) (hcode i) hlast
    rw [Action.Ensures, h] at hstage
    rw [ih hstage.1, hstage.2, hbefore, List.reverse_append, List.append_assoc]
  | @failed i _ _ _ _ es hes h =>
    obtain ⟨hlast, hbefore⟩ := heffects hes hid
    have hstage := during_told (hactivity i) (hcode i) hlast
    rw [Action.Ensures, h] at hstage
    rw [hstage.2, hbefore]
  | @broken i _ _ _ es hes h =>
    obtain ⟨hlast, hbefore⟩ := heffects hes hid
    have hstage := during_told (hactivity i) (hcode i) hlast
    rw [Action.Ensures, h] at hstage
    rw [hstage.2, hbefore]

end Told

/-! ### Preparing -/

/-- The computed names among the elements, in source order. -/
def computedNames (elements : List ClassElement) : List Expr :=
  elements.filterMap fun
    | .field (.computed e) .. => some e
    | _ => none

/-- The fields among the elements, in source order, given the values of the computed names. -/
def declaredFields : List ClassElement → List Value → List DeclaredField
  | .field (.literal name) isStatic initializer :: rest, vs =>
    { isStatic, record := { name, initializer } } :: declaredFields rest vs
  | .field (.computed _) isStatic initializer :: rest, v :: vs =>
    { isStatic, record := { name := v.propertyKey, initializer } } :: declaredFields rest vs
  | _ :: rest, vs => declaredFields rest vs
  | [], _ => []

/-- A method is put onto one of the two objects. -/
def Effect.IsMethodOn (homes : Homes) : Effect → Prop
  | .define o _ _ => homes.Owns o
  | _ => False

/-- The elements have a method that is refused with this fault, and these are the computed names
behind the first such method. -/
def RefusedMethod (elements : List ClassElement) (left : List Expr) (f : Fault) : Prop :=
  f = .notConfigurable "prototype" ∧ ∃ before e after, elements = before ++ e :: after ∧
    (∀ e' ∈ before, e'.replacesPrototype = false) ∧ e.replacesPrototype = true ∧
    left = computedNames after

/-- How a definition is prepared. -/
inductive Preparation (perform : Performer) (d : ClassDefinition) (m : Machine) :
    Option (Except Failure Class) → Machine → List Event → Prop
  /-- It does not pass the checks. -/
  | refused {f : Fault} (h : d.Refused m f) :
    Preparation perform d m (some (.error (.ofFault f))) (m.refused d.displayName f) []
  /-- The computed names are evaluated in source order, with nothing at hand, while methods are
  put onto the two objects. -/
  | evaluated {parent : Option Class} {vs : Option (Except Failure (List Value))} {m' : Machine}
      {told : List Event} (h : d.Accepted m parent)
      (names : InOrder (.namingField m.nextClass d.displayName) (fun e => perform (.eval e {}))
        (Effect.IsMethodOn m.homes) (RefusedMethod d.elements) (computedNames d.elements)
        (m.prepared d parent) vs m' told) :
    Preparation perform d m (vs.map (Except.map fun vs =>
      d.toClass m.nextClass parent m.homes (declaredFields d.elements vs))) m' told

section Collect

variable (perform : Performer) (cls : ClassId) (className : String) (homes : Homes)
  (all : List ClassElement)

/-- The elements have been evaluated in order: the computed names among them have, and no method
among them is one that is refused if there is an answer. -/
def Collected (elements : List ClassElement) (m : Machine)
    (r : Option (Except Failure (List DeclaredField))) (m' : Machine) : Prop :=
  ∃ vs told, InOrder (.namingField cls className) (fun e => perform (.eval e {}))
    (Effect.IsMethodOn homes) (RefusedMethod all) (computedNames elements) m vs m' told ∧
    r = vs.map (Except.map (declaredFields elements)) ∧
    ((∃ fields, r = some (.ok fields)) → ∀ e ∈ elements, e.replacesPrototype = false)

variable {perform cls className homes all} {rest : List ClassElement} {m m₁ m' : Machine}
  {r : Option (Except Failure (List DeclaredField))}

/-- An element without a computed name in front. -/
theorem Collected.cons_plain (h : Collected perform cls className homes all rest m r m')
    {e : ClassElement} {first : Option DeclaredField} (he : e.replacesPrototype = false)
    (hnames : computedNames (e :: rest) = computedNames rest)
    (hfields : ∀ vs, declaredFields (e :: rest) vs = first.toList ++ declaredFields rest vs) :
    Collected perform cls className homes all (e :: rest) m
      (r.map (Except.map (first.toList ++ ·))) m' := by
  obtain ⟨vs, told, horder, rfl, hkept⟩ := h
  refine ⟨vs, told, hnames ▸ horder, ?_, ?_⟩
  · rcases vs with _ | _ | vs
    · rfl
    · rfl
    · exact congrArg (fun fields => some (Except.ok fields)) (hfields vs).symm
  · rintro ⟨fields, hfields⟩
    obtain ⟨fields, hr, -⟩ := eq_ok_of_map hfields
    exact List.forall_mem_cons.mpr ⟨he, hkept ⟨fields, hr⟩⟩

/-- A method that was put onto its object in front. -/
theorem Collected.effect {e : Effect} (he : e.IsMethodOn homes)
    (h : Collected perform cls className homes all rest (e.apply m) r m') :
    Collected perform cls className homes all rest m r m' := by
  obtain ⟨vs, told, horder, hr, hkept⟩ := h
  exact ⟨vs, told, horder.effect he, hr, hkept⟩

/-- A field with a computed name that was evaluated in front. -/
theorem Collected.cons_computed (h : Collected perform cls className homes all rest m₁ r m')
    {e : Expr} {v : Value}
    (hv : (during (.namingField cls className e) (perform (.eval e {}))).outcome m =
      (some (.ok v), m₁)) (isStatic : Bool) (initializer : Option Expr) :
    Collected perform cls className homes all (.field (.computed e) isStatic initializer :: rest) m
      (r.map (Except.map ({ isStatic, record := { name := v.propertyKey, initializer } } :: ·)))
      m' := by
  obtain ⟨vs, told, horder, rfl, hkept⟩ := h
  refine ⟨_, _, .succeeded [] (by simp) hv horder, ?_, ?_⟩
  · rcases vs with _ | _ | vs <;> rfl
  · rintro ⟨fields, hfields⟩
    obtain ⟨fields, hr, -⟩ := eq_ok_of_map hfields
    exact List.forall_mem_cons.mpr ⟨rfl, hkept ⟨fields, hr⟩⟩

/-- Evaluating a computed name does not touch the two objects. -/
theorem namingField_spares (hp : perform.Keeps reachContract) (hm : m.Hides homes.Owns)
    (cls : ClassId) (className : String) (e : Expr) :
    (during (.namingField cls className e) (perform (.eval e {}))).Ensures m
      fun _ m' => m.Spares homes.Owns m' := by
  have hname : (perform (.eval e {})).Respects homes.Owns 0 (Value.Visible homes.Owns) :=
    hp.respects (.eval e {}) (visible_step _ _ e)
  have hnaming := Action.Respects.during (.namingField cls className e) hname
    fun _ _ _ hn => Value.Visible.mono hn
  exact (hnaming m (Nat.zero_le _) hm).mono fun _ _ h => h.1

/-- **The elements are evaluated in order**, on objects that no reference leads to. No element
before them is a method that is refused. -/
theorem collectFields_inOrder (hp : perform.Keeps reachContract) (cls : ClassId)
    (className : String) {before elements : List ClassElement} (hall : all = before ++ elements)
    (hbefore : ∀ e ∈ before, e.replacesPrototype = false) (hm : m.Receptive homes) :
    (collectFields perform cls className homes elements).Ensures m
      (Collected perform cls className homes all elements m) := by
  induction elements generalizing before m with
  | nil => exact .of_outcome rfl ⟨some (.ok []), [], .done [] (by simp), rfl, by simp⟩
  | cons element rest ih =>
    -- an element that is not refused joins those before
    have hrest (helement : element.replacesPrototype = false) {m : Machine}
        (hm : m.Receptive homes) : (collectFields perform cls className homes rest).Ensures m
          (Collected perform cls className homes all rest m) := by
      refine ih (List.append_cons before element rest ▸ hall) (fun e he => ?_) hm
      rcases List.mem_append.mp he with he | he
      · exact hbefore e he
      · exact List.mem_singleton.mp he ▸ helement
    cases element with
    | method name kind isStatic f =>
      have hmethod := hm.outcome_defineMethod name kind isStatic f
      split at hmethod
      next hreplaces =>
        -- the method is refused, and nothing more happens
        have hrefused : RefusedMethod all (computedNames rest) (.notConfigurable "prototype") :=
          ⟨rfl, before, _, rest, hall, hbefore, hreplaces, rfl⟩
        refine .of_outcome (.trans (outcome_bind ..) ?_)
          ⟨_, [], .refused [] (by simp) hrefused, rfl, by simp [Except.map]⟩
        rw [evaluateElement, outcome_bind, hmethod]
        rfl
      next hreplaces =>
        obtain ⟨hdefine, hm⟩ := hmethod
        have hkept := Bool.eq_false_iff.mpr hreplaces
        have helement : (evaluateElement perform cls className homes
            (.method name kind isStatic f)).outcome m =
            (some (.ok none), m.withMethod homes name kind isStatic f) := by
          rw [evaluateElement, outcome_bind, hdefine]
          rfl
        refine .bind_ok helement ((hrest hkept hm).bind_pure.mono ?_)
        rintro _ m' ⟨r, h, rfl⟩
        refine .effect ?_ (h.cons_plain hkept rfl fun _ => rfl)
        exact homes.owns_home isStatic
    | field name isStatic initializer =>
      cases name with
      | literal name =>
        refine .bind_ok (n := m) rfl ((hrest rfl hm).bind_pure.mono ?_)
        rintro _ m' ⟨r, h, rfl⟩
        exact h.cons_plain rfl rfl fun _ => rfl
      | computed e =>
        have hnaming := namingField_spares hp hm.hides cls className e
        rw [Action.Ensures] at hnaming
        rcases hv : (during (.namingField cls className e) (perform (.eval e {}))).outcome m with
          ⟨_ | failure | v, m₁⟩ <;> rw [hv] at hnaming
        · refine .of_outcome (r := none) (n := m₁) ?_
            ⟨none, _, .broken [] (by simp) hv, rfl, by simp⟩
          simp [collectFields, evaluateElement, fieldKey, outcome_bind, hv]
        · refine .of_outcome (r := some (.error failure)) (n := m₁) ?_
            ⟨some (.error failure), _, .failed [] (by simp) hv, rfl, by simp⟩
          simp [collectFields, evaluateElement, fieldKey, outcome_bind, hv]
        · let field : DeclaredField :=
            { isStatic, record := { name := v.propertyKey, initializer } }
          have helement : (evaluateElement perform cls className homes
              (.field (.computed e) isStatic initializer)).outcome m = (some (.ok field), m₁) := by
            simp [evaluateElement, fieldKey, hv, Except.map, field]
          refine .bind_ok helement ((hrest rfl (hm.later hnaming)).bind_pure.mono ?_)
          rintro _ m' ⟨r, h, rfl⟩
          exact h.cons_computed hv isStatic initializer

end Collect

theorem Effect.IsMethodOn.not_tells {homes : Homes} {e : Effect} (h : e.IsMethodOn homes)
    (id : ClassId) : ¬ e.Tells id := by
  cases e with
  | define => exact not_false
  | _ => exact h.elim

section Prepare

variable {perform : Performer} (hp : perform.Keeps reachContract)
  (htacit : perform.Keeps tacitContract) {m : Machine} (hm : m.Closed)

include hp htacit hm

/-- **A definition is prepared in order**, and that is all that is told of its stages then. -/
theorem prepareClass_preparation (d : ClassDefinition) :
    (prepareClass perform d).Ensures m fun r m' => ∃ told, Preparation perform d m r m' told ∧
      m'.stages m.nextClass = told.reverse ++ m.stages m.nextClass ∧
      ((∃ c, r = some (.ok c)) → ∀ e ∈ d.elements, e.replacesPrototype = false) := by
  refine prepareClass_ensures (fun f hf => ⟨[], .refused hf, ?_, by simp⟩) fun parent hd => ?_
  · simp [Machine.stages, Machine.refused, Effect.apply, Event.definition?]
  · have hcollect := collectFields_inOrder hp m.nextClass d.displayName
      (List.nil_append d.elements).symm (by simp) (hm.receptive d parent)
    refine hcollect.mono ?_
    rintro _ m' ⟨vs, told, horder, rfl, hkept⟩
    refine ⟨told, ?_, ?_, fun h => ?_⟩
    · have hprepared := Preparation.evaluated hd horder
      rcases vs with _ | _ | vs <;> exact hprepared
    · rw [← m.stages_prepared d parent]
      exact horder.stages (fun _ => rfl) (fun e => htacit (.eval e {}))
        (fun _ he => he.not_tells _) (Nat.le_refl _)
    · obtain ⟨c, hc⟩ := h
      obtain ⟨fields, hfields, -⟩ := eq_ok_of_map hc
      exact hkept ⟨fields, hfields⟩

end Prepare

/-! ### Launching -/

/-- The stage of a static field. The initializer is evaluated once, with the class object as its
receiver; where there is none, the property of that name is read from the class object. The value
becomes a plain property of the class object. -/
def staticStage (perform : Performer) (classObject : ObjectId) (record : FieldRecord) :
    Action Unit := do
  let value ← match record.initializer with
    | some initializer => perform (.eval initializer { receiver := .ref classObject })
    | none => readFrom perform classObject record.name (.ref classObject)
  defineOn classObject record.name (.plain value)
  note (.installed classObject record value)

/-- This is how fields are installed. -/
theorem installField_eq_staticStage (perform : Performer) (classObject : ObjectId) :
    installField perform classObject = staticStage perform classObject := by
  funext record
  rw [installField, fieldValue, staticStage]
  cases record.initializer <;> rfl

/-- How a class is launched: its static fields are installed on the class object in order, while
it is registered. -/
inductive Launch (perform : Performer) (c : Class) (m : Machine) :
    Option (Except Failure ClassId) → Machine → List Event → Prop
  | completed {us : List Unit} {m₁ : Machine} {told : List Event}
      (fields : InOrder (.staticField c.id c.displayName c.classObject)
        (staticStage perform c.classObject) (fun _ => False) (fun _ _ => False) c.staticFields
        (m.launched c) (some (.ok us)) m₁ told) :
    Launch perform c m (some (.ok c.id)) (m₁.completed c.id) told
  | withdrawn {e : Failure} {m₁ : Machine} {told : List Event}
      (fields : InOrder (.staticField c.id c.displayName c.classObject)
        (staticStage perform c.classObject) (fun _ => False) (fun _ _ => False) c.staticFields
        (m.launched c) (some (.error e)) m₁ told) :
    Launch perform c m (some (.error e)) (m₁.withdrawn c.id (m.registry.register c).1) told
  | broken {m' : Machine} {told : List Event}
      (fields : InOrder (.staticField c.id c.displayName c.classObject)
        (staticStage perform c.classObject) (fun _ => False) (fun _ _ => False) c.staticFields
        (m.launched c) none m' told) :
    Launch perform c m none m' told

section Install

variable (perform : Performer)

/-- Fields are installed in order. -/
theorem installFields_inOrder (activity : FieldRecord → Activity) (target : ObjectId)
    (records : List FieldRecord) (m : Machine) :
    (installFields perform activity target records).Ensures m fun r m' =>
      ∃ us told, InOrder activity (installField perform target) (fun _ => False) (fun _ _ => False)
        records m us m' told ∧ r = us.map (Except.map fun _ => ⟨⟩) := by
  induction records generalizing m with
  | nil => exact .of_outcome rfl ⟨some (.ok []), [], .done [] (by simp), rfl⟩
  | cons record rest ih =>
    rcases h : (during (activity record) (installField perform target record)).outcome m with
      ⟨_ | failure | _, m₁⟩
    · refine .of_outcome (r := none) (n := m₁) ?_ ⟨none, _, .broken [] (by simp) h, rfl⟩
      rw [installFields, outcome_bind, h]
    · exact .bind_error h ⟨some (.error failure), _, .failed [] (by simp) h, rfl⟩
    · refine .bind_ok h ((ih m₁).mono ?_)
      rintro _ m' ⟨us, told, horder, rfl⟩
      refine ⟨_, _, .succeeded [] (by simp) h horder, ?_⟩
      rcases us with _ | _ | us <;> rfl

variable {perform} (htacit : perform.Keeps tacitContract)

include htacit

/-- **A class is launched in order**, and that is all that is told of its stages then. -/
theorem launchClass_launch {c : Class} {m : Machine} (hid : c.id ≤ m.registry.lastId) :
    (launchClass perform c).Ensures m fun r m' => ∃ told, Launch perform c m r m' told ∧
      m'.stages c.id = told.reverse ++ m.stages c.id := by
  have hdrawn : c.id ≤ (m.launched c).registry.lastId := by
    rw [show (m.launched c).registry.lastId = m.registry.lastId from Registry.lastId_register ..]
    exact hid
  have htold {us : Option (Except Failure (List Unit))} {m' : Machine} {told : List Event}
      (h : InOrder (.staticField c.id c.displayName c.classObject)
        (staticStage perform c.classObject) (fun _ => False) (fun _ _ => False) c.staticFields
        (m.launched c) us m' told) : m'.stages c.id = told.reverse ++ m.stages c.id := by
    rw [← m.stages_launched c]
    refine h.stages (fun _ => rfl) (fun record => ?_) (fun _ he => he.elim) hdrawn
    rw [← installField_eq_staticStage]
    exact installField_tacit htacit _ _ record
  have hinstall := installFields_inOrder perform (.staticField c.id c.displayName c.classObject)
    c.classObject c.staticFields (m.launched c)
  rw [installField_eq_staticStage] at hinstall
  refine launchClass_ensures hinstall ?_ ?_ ?_
  · rintro m₁ ⟨us, told, horder, hus⟩
    obtain ⟨us, rfl, -⟩ := eq_ok_of_map hus.symm
    exact ⟨told, .completed horder, (m₁.stages_completed _ _).trans (htold horder)⟩
  · rintro e m₁ ⟨us, told, horder, hus⟩
    obtain rfl : us = some (.error e) := by
      rcases us with _ | _ | us <;> simp_all [Except.map]
    exact ⟨told, .withdrawn horder, (m₁.stages_withdrawn _ _ _).trans (htold horder)⟩
  · rintro m₁ ⟨us, told, horder, hus⟩
    obtain rfl : us = none := by
      rcases us with _ | _ | us <;> simp_all
    exact ⟨told, .broken horder, htold horder⟩

end Install

end ClassMachine
