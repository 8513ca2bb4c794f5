import ClassMachine.Proofs.DefinitionOrder
import ClassMachine.Proofs.FieldLayout
import ClassMachine.Proofs.ParentCalls

/-!
# The layout of a class

The methods and accessors of a class body go to its prototype or, if they are static, to its class
object, one after the other in source order. A method takes the place of everything that its object
has under the name. A getter or a setter joins the accessor that is there, or else begins a new one,
so whatever was before the last method of the name is forgotten. When the class is registered, its
two objects are what this comes to (`ClassMachine.Machine.HasBody`): a name stands where it occurs
first, and the property under it is the one that the functions of the name leave
(`ClassMachine.Property.ofMethods`).

The computed names are evaluated between the methods. They find no reference to the two objects
(`ClassMachine.Machine.Receptive`), so these are the same afterwards, and what they have is kept up
element by element (`ClassMachine.Machine.Furnished`). Only a static method called `prototype` is
refused.

Main statement: `ClassMachine.class_layout`.
-/

namespace ClassMachine

/-! ### The functions of a name -/

/-- A method or accessor, apart from the object that it goes to. -/
structure Method where
  name : String
  kind : MethodKind
  function : Function

/-- The methods and accessors among the elements that go to the class object, or to the prototype,
in source order. -/
def methodsOf (isStatic : Bool) (elements : List ClassElement) : List Method :=
  elements.filterMap fun
    | .method name kind isStatic' function =>
      if isStatic' = isStatic then some { name, kind, function } else none
    | .field .. => none

/-- Those among them that have the name. -/
def functionsOf (name : String) (methods : List Method) : List Method :=
  methods.filter fun method => method.name == name

/-- The last function of the kind behind the last method. -/
def lastBehind (kind : MethodKind) (functions : List Method) : Option Function :=
  let behind := functions.reverse.takeWhile fun method => method.kind ≠ .method
  (behind.find? fun method => method.kind = kind).map Method.function

/-- **The property that the functions of a name leave.** If the last one is a method, then this is
the value. Otherwise there is an accessor, of the last getter and the last setter behind the last
method. -/
def Property.ofMethods (functions : List Method) : Option Property :=
  match functions.getLast? with
  | none => none
  | some { kind := .method, function, .. } => some (.hidden (.function function))
  | some _ =>
    some (.accessor (lastBehind .getter functions) (lastBehind .setter functions) false true)

section Functions

variable {functions : List Method} {method : Method}

theorem lastBehind_concat (kind : MethodKind) : lastBehind kind (functions ++ [method]) =
    if method.kind = .method then none
    else if method.kind = kind then some method.function
    else lastBehind kind functions := by
  simp only [lastBehind, List.reverse_append, List.reverse_singleton, List.singleton_append]
  by_cases hmethod : method.kind = .method
  · rw [List.takeWhile_cons_of_neg (by simpa using hmethod), if_pos hmethod]
    rfl
  · rw [List.takeWhile_cons_of_pos (by simpa using hmethod), if_neg hmethod, List.find?_cons]
    by_cases hkind : method.kind = kind <;> simp [hkind]

theorem Property.ofMethods_concat : ofMethods (functions ++ [method]) =
    some (match method.kind with
      | .method => .hidden (.function method.function)
      | .getter => .accessor (some method.function) (lastBehind .setter functions) false true
      | .setter => .accessor (lastBehind .getter functions) (some method.function) false true) := by
  obtain ⟨name, kind, function⟩ := method
  cases kind <;> simp [ofMethods, lastBehind_concat]

/-- It can be replaced. -/
theorem Property.ofMethods_isConfigurable {p : Property} (h : ofMethods functions = some p) :
    p.isConfigurable = true := by
  unfold ofMethods at h
  split at h <;> cases h <;> rfl

/-- **One function more**, on an object that had no accessor of the name before all of them. -/
theorem Property.ofMethod_concat {p? : Option Property}
    (hp : ∀ getter setter e c, p? ≠ some (.accessor getter setter e c)) :
    some (Property.ofMethod method.kind method.function ((ofMethods functions).or p?)) =
      ofMethods (functions ++ [method]) := by
  rw [ofMethods_concat]
  -- the property that is there is the one of the last function, unless there is none
  rcases functions.eq_nil_or_concat' with rfl | ⟨before, last, rfl⟩
  · rcases p? with _ | _ | ⟨getter, setter, e, c⟩
    · cases method.kind <;> rfl
    · cases method.kind <;> rfl
    · exact absurd rfl (hp getter setter e c)
  · rw [ofMethods_concat, lastBehind_concat, lastBehind_concat, Option.some_or]
    cases last.kind <;> cases method.kind <;> rfl

end Functions

/-! ### One object -/

/-- The object has no accessors, and its keys are those of its properties. -/
structure Object.OwnsValues (o : Object) : Prop where
  keys : ∀ key, (o.property? key).isSome ↔ key ∈ o.keys
  data : ∀ key getter setter e c, o.property? key ≠ some (.accessor getter setter e c)

/-- The object has come to have the methods, from what it was before. -/
structure Object.Takes (o₀ : Object) (methods : List Method) (o : Object) : Prop where
  /-- Each name stands where it occurs first, behind all that was there. -/
  keys : o.keys = (o₀.keys ++ methods.map Method.name).eraseDups
  /-- Each property is what the functions of its name leave. -/
  property? : ∀ key,
    o.property? key = (Property.ofMethods (functionsOf key methods)).or (o₀.property? key)

section Takes

variable {o₀ o o' : Object} {methods : List Method} {method : Method}

theorem functionsOf_concat (key : String) : functionsOf key (methods ++ [method]) =
    if method.name = key then functionsOf key methods ++ [method] else functionsOf key methods := by
  by_cases hname : method.name = key <;> simp [functionsOf, hname]

theorem Property.isSome_ofMethods (key : String) :
    (ofMethods (functionsOf key methods)).isSome ↔ key ∈ methods.map Method.name := by
  have hmem (method : Method) : method ∈ functionsOf key methods ↔
      method ∈ methods ∧ method.name = key := by
    simp [functionsOf]
  rcases (functionsOf key methods).eq_nil_or_concat' with hnil | ⟨before, last, hlast⟩
  · simp only [hnil, List.not_mem_nil, false_iff] at hmem
    rw [hnil, List.mem_map]
    exact iff_of_false (by simp [ofMethods]) fun ⟨method, hmethod⟩ => hmem method hmethod
  · rw [hlast, ofMethods_concat, List.mem_map]
    exact iff_of_true rfl ⟨last, (hmem last).mp (by simp [hlast])⟩

/-- **One method more.** -/
theorem Object.Takes.concat (h : o₀.Takes methods o) (ho : o₀.OwnsValues)
    (hdefine : o.define method.name
      (.ofMethod method.kind method.function (o.property? method.name)) = .ok o') :
    o₀.Takes (methods ++ [method]) o' := by
  have hsome : (o.property? method.name).isSome ↔
      method.name ∈ o₀.keys ++ methods.map Method.name := by
    rw [h.property?, Option.isSome_or, Bool.or_eq_true, Property.isSome_ofMethods, ho.keys,
      List.mem_append, or_comm]
  constructor
  case keys =>
    rw [keys_of_define hdefine, List.map_append, List.map_singleton, ← List.append_assoc,
      eraseDups_concat, h.keys]
    simp only [hsome]
  case property? =>
    intro key
    rw [property?_of_define hdefine, functionsOf_concat, h.property?, h.property?]
    split
    next hname =>
      subst hname
      rw [Property.ofMethod_concat (ho.data _), Property.ofMethods_concat, Option.some_or]
    next => rfl

end Takes

/-! ### The two objects -/

/-- No reference leads to the two objects, and they have come to have the methods of the elements,
from what they were before. -/
structure Machine.Furnished (m : Machine) (homes : Homes) (o₀ : Bool → Object)
    (elements : List ClassElement) : Prop where
  receptive : m.Receptive homes
  takes : ∀ isStatic, (o₀ isStatic).Takes (methodsOf isStatic elements)
    (m.store.object (homes.home isStatic))

section Furnished

variable {perform : Performer} {cls : ClassId} {className : String} {homes : Homes}
  {o₀ : Bool → Object} {m m' : Machine} {before : List ClassElement}

theorem Machine.Receptive.home_inj (h : m.Receptive homes) {isStatic isStatic' : Bool}
    (heq : homes.home isStatic = homes.home isStatic') : isStatic = isStatic' := by
  cases isStatic <;> cases isStatic' <;> first | rfl | exact absurd heq h.distinct |
    exact absurd heq.symm h.distinct

/-- What spares the hidden objects leaves their methods as they are, and a field adds none. -/
theorem Machine.Furnished.field (h : m.Furnished homes o₀ before)
    (hspares : m.Spares homes.Owns m') (name : FieldName) (isStatic : Bool)
    (initializer : Option Expr) :
    m'.Furnished homes o₀ (before ++ [.field name isStatic initializer]) where
  receptive := h.receptive.later hspares
  takes isStatic' := by
    have hmethods : methodsOf isStatic' (before ++ [.field name isStatic initializer]) =
        methodsOf isStatic' before := by
      simp [methodsOf]
    rw [hmethods, hspares.same _ (homes.owns_home isStatic')]
    exact h.takes isStatic'

/-- **A method is taken**, if it is not a static one called `prototype`. -/
theorem Machine.Furnished.method (h : m.Furnished homes o₀ before)
    (ho : ∀ isStatic, (o₀ isStatic).OwnsValues) {name : String} {kind : MethodKind}
    {isStatic : Bool} {f : Function}
    (hkept : (ClassElement.method name kind isStatic f).replacesPrototype = false) :
    (evaluateElement perform cls className homes (.method name kind isStatic f)).outcome m =
        (some (.ok none), m.withMethod homes name kind isStatic f) ∧
      (m.withMethod homes name kind isStatic f).Furnished homes o₀
        (before ++ [.method name kind isStatic f]) := by
  have hmethod := h.receptive.outcome_defineMethod name kind isStatic f
  rw [hkept] at hmethod
  obtain ⟨hmethod, hreceptive⟩ := hmethod
  refine ⟨?_, hreceptive, fun isStatic' => ?_⟩
  · rw [evaluateElement, outcome_bind, hmethod]
    rfl
  · let o := m.store.object (homes.home isStatic)
    have hmethods : methodsOf isStatic' (before ++ [.method name kind isStatic f]) =
        if isStatic = isStatic' then methodsOf isStatic' before ++ [⟨name, kind, f⟩]
        else methodsOf isStatic' before := by
      by_cases hstatic : isStatic = isStatic' <;> simp [methodsOf, hstatic]
    rcases hdefine : o.define name (.ofMethod kind f (o.property? name)) with fault | o'
    · -- it would have failed
      rw [outcome_defineMethod_eq, outcome_defineOn, hdefine] at hmethod
      simp at hmethod
    have hobject : (m.withMethod homes name kind isStatic f).store.object (homes.home isStatic') =
        if isStatic = isStatic' then o' else m.store.object (homes.home isStatic') := by
      have hsize := h.receptive.hides.known _ (homes.owns_home isStatic)
      rw [Machine.withMethod, Effect.apply, hdefine]
      simp only [Store.object_put, hsize, and_true]
      by_cases hstatic : isStatic = isStatic'
      · rw [if_pos hstatic, if_pos (congrArg homes.home hstatic.symm)]
      · rw [if_neg hstatic, if_neg fun heq => hstatic (h.receptive.home_inj heq).symm]
    rw [hmethods, hobject]
    split
    next hstatic =>
      subst hstatic
      exact (h.takes isStatic).concat (ho isStatic) hdefine
    next => exact h.takes isStatic'

/-- **The elements leave their methods on the two objects**, if they can be evaluated. -/
theorem collectFields_furnished (hp : perform.Keeps reachContract)
    (ho : ∀ isStatic, (o₀ isStatic).OwnsValues) (cls : ClassId) (className : String)
    (h : m.Furnished homes o₀ before) (elements : List ClassElement) :
    (collectFields perform cls className homes elements).Ensures m fun r m' =>
      (∃ fields, r = some (.ok fields)) → m'.Furnished homes o₀ (before ++ elements) := by
  induction elements generalizing m before with
  | nil => exact .of_outcome rfl fun _ => (List.append_nil before).symm ▸ h
  | cons element rest ih =>
    -- what the first element makes of the machine is what the others begin with
    have hrest (first : Option DeclaredField) (m₁ : Machine)
        (helement : (evaluateElement perform cls className homes element).outcome m =
          (some (.ok first), m₁)) (h₁ : m₁.Furnished homes o₀ (before ++ [element])) :
        (collectFields perform cls className homes (element :: rest)).Ensures m fun r m' =>
          (∃ fields, r = some (.ok fields)) →
            m'.Furnished homes o₀ (before ++ element :: rest) := by
      refine .bind_ok helement ((ih h₁).bind_pure.mono ?_)
      rintro _ m' ⟨r, hr, rfl⟩ ⟨fields, hfields⟩
      obtain ⟨fields, hfields, -⟩ := eq_ok_of_map hfields
      rw [List.append_cons]
      exact hr ⟨fields, hfields⟩
    -- and if it fails, there are no fields
    have hfailed (r : Option (Except Failure (Option DeclaredField))) (m₁ : Machine)
        (helement : (evaluateElement perform cls className homes element).outcome m = (r, m₁))
        (hr : ∀ first, r ≠ some (.ok first)) :
        (collectFields perform cls className homes (element :: rest)).Ensures m fun r m' =>
          (∃ fields, r = some (.ok fields)) →
            m'.Furnished homes o₀ (before ++ element :: rest) := by
      have hcollect : (collectFields perform cls className homes (element :: rest)).outcome m =
          (r.map (Except.map fun _ => []), m₁) := by
        rw [collectFields, outcome_bind, helement]
        rcases r with _ | _ | first
        · rfl
        · rfl
        · exact absurd rfl (hr first)
      refine .of_outcome hcollect ?_
      rintro ⟨fields, hfields⟩
      obtain ⟨first, hfirst, -⟩ := eq_ok_of_map hfields
      exact absurd hfirst (hr first)
    cases element with
    | method name kind isStatic f =>
      by_cases hkept : (ClassElement.method name kind isStatic f).replacesPrototype = false
      · exact And.elim (hrest _ _) (h.method ho hkept)
      · have hmethod := h.receptive.outcome_defineMethod name kind isStatic f
        rw [Bool.not_eq_false] at hkept
        rw [hkept] at hmethod
        refine hfailed (some (.error (.ofFault (.notConfigurable "prototype"))))
          ((Effect.note (.raised (.notConfigurable "prototype"))).apply m) ?_ (by simp)
        rw [evaluateElement, outcome_bind, hmethod]
    | field name isStatic initializer =>
      cases name with
      | literal name => exact hrest _ _ rfl (h.field (.refl h.receptive.hides) _ _ _)
      | computed e =>
        have hspares := namingField_spares hp h.receptive.hides cls className e
        rw [Action.Ensures] at hspares
        rcases hv : (during (.namingField cls className e) (perform (.eval e {}))).outcome m with
          ⟨_ | failure | v, m₁⟩ <;> rw [hv] at hspares
        · refine hfailed none m₁ ?_ (by simp)
          simp [evaluateElement, fieldKey, hv]
        · refine hfailed (some (.error failure)) m₁ ?_ (by simp)
          simp [evaluateElement, fieldKey, hv, Except.map]
        · refine hrest (some { isStatic, record := { name := v.propertyKey, initializer } }) m₁ ?_
            (h.field hspares _ _ _)
          simp [evaluateElement, fieldKey, hv, Except.map]

end Furnished

/-! ### A new class -/

/-- **The two objects of a class are what its body makes of them.** -/
structure Machine.HasBody (m : Machine) (d : ClassDefinition) (c : Class) : Prop where
  /-- The prototype has each name of a method or accessor where it occurs first. -/
  prototypeKeys : (m.store.object c.prototype).keys =
    ((methodsOf false d.elements).map Method.name).eraseDups
  /-- It has nothing else, and under each name what the functions of the name leave. -/
  prototypeProperty : ∀ key, (m.store.object c.prototype).property? key =
    Property.ofMethods (functionsOf key (methodsOf false d.elements))
  /-- The class object has the prototype in front, then the name of the class, if it has one, and
  then the names of the static methods and accessors in the same way. -/
  classKeys : (m.store.object c.classObject).keys =
    ("prototype" :: (d.name.map fun _ => "name").toList ++
      (methodsOf true d.elements).map Method.name).eraseDups
  /-- The prototype is fixed. Everything else is what the static functions of the name leave, and
  if there are none, the name of the class is there. -/
  classProperty : ∀ key, (m.store.object c.classObject).property? key =
    if key = "prototype" then some (.data (.ref c.prototype) false false false)
    else (Property.ofMethods (functionsOf key (methodsOf true d.elements))).or
      (if key = "name" then d.name.map fun name => .data (.str name) false false true else none)

section New

variable {m : Machine} {d : ClassDefinition} {parent : Option Class}

theorem Object.property?_ofClass_eq (id : ClassId) (name : Option String) (prototype : ObjectId)
    (link : Option ObjectId) (key : String) : (ofClass id name prototype link).property? key =
      if key = "prototype" then some (.data (.ref prototype) false false false)
      else if key = "name" then name.map fun name => .data (.str name) false false true
      else none := by
  cases name <;>
    simp only [ofClass, property?, Std.ExtTreeMap.getElem?_insert,
      Std.LawfulEqCmp.compare_eq_iff_eq] <;> grind

/-- One of the two objects of a new class. -/
def Machine.newHome (m : Machine) (d : ClassDefinition) (parent : Option Class)
    (isStatic : Bool) : Object :=
  (m.prepared d parent).store.object (m.homes.home isStatic)

theorem Machine.newHome_prototype : m.newHome d parent false =
    { kind := .ordinary, prototype := parent.map Class.prototype } :=
  (m.numbered d.displayName).object_withHomes_prototype m.nextClass d.name parent

theorem Machine.newHome_classObject : m.newHome d parent true =
    .ofClass m.nextClass d.name m.homes.prototype (parent.map Class.classObject) :=
  (m.numbered d.displayName).object_withHomes_classObject m.nextClass d.name parent

theorem Object.ofClass_ownsValues (id : ClassId) (name : Option String) (prototype : ObjectId)
    (link : Option ObjectId) : (ofClass id name prototype link).OwnsValues where
  keys key := by
    rw [property?_ofClass_eq]
    cases name <;> simp only [ofClass] <;> grind
  data key getter setter e c := by
    rw [property?_ofClass_eq]
    cases name <;> grind

theorem Machine.newHome_ownsValues (isStatic : Bool) :
    (m.newHome d parent isStatic).OwnsValues := by
  cases isStatic with
  | false =>
    rw [newHome_prototype]
    exact ⟨by simp [Object.property?], by simp [Object.property?]⟩
  | true =>
    rw [newHome_classObject]
    exact Object.ofClass_ownsValues ..

/-- The objects of a new class have no methods yet. -/
theorem Machine.Closed.furnished (hm : m.Closed) (d : ClassDefinition) (parent : Option Class) :
    (m.prepared d parent).Furnished m.homes (m.newHome d parent) [] where
  receptive := hm.receptive d parent
  takes isStatic := by
    have hnodup : (m.newHome d parent isStatic).keys.eraseDups =
        (m.newHome d parent isStatic).keys := by
      cases isStatic with
      | false =>
        rw [newHome_prototype]
        rfl
      | true =>
        rw [newHome_classObject]
        cases hname : d.name <;> rfl
    exact ⟨(hnodup.symm.trans (congrArg List.eraseDups (List.append_nil _).symm)), fun key => rfl⟩

/-- What the two objects have come to have is what the body makes of them. -/
theorem Machine.Furnished.hasBody {m' : Machine}
    (h : m'.Furnished m.homes (m.newHome d parent) d.elements)
    (fields : List DeclaredField) : m'.HasBody d (d.toClass m.nextClass parent m.homes fields) := by
  have hprototype := h.takes false
  have hclassObject := h.takes true
  rw [newHome_prototype] at hprototype
  rw [newHome_classObject] at hclassObject
  constructor
  case prototypeKeys => exact hprototype.keys
  case prototypeProperty =>
    intro key
    refine (hprototype.property? key).trans ?_
    simp [Object.property?]
  case classKeys => exact hclassObject.keys
  case classProperty =>
    intro key
    have hproperty := hclassObject.property? key
    rw [Object.property?_ofClass_eq] at hproperty
    refine hproperty.trans ?_
    split
    next hkey =>
      -- a function of this name would have taken the place of a fixed property
      subst hkey
      obtain ⟨p, hp, hfixed⟩ := h.receptive.fixed
      rcases hfunctions : Property.ofMethods (functionsOf "prototype" (methodsOf true d.elements))
        with _ | p'
      · rfl
      · have hp' := hp.symm.trans hproperty
        rw [hfunctions, Option.some_or, Option.some.injEq] at hp'
        rw [hp', Property.ofMethods_isConfigurable hfunctions] at hfixed
        cases hfixed
    next => rfl

end New

/-! ### The whole definition -/

/-- What becomes of the methods and accessors of a definition, from this machine on. -/
structure Machine.LaysOut (m : Machine) (perform : Performer) (d : ClassDefinition) : Prop where
  /-- When the class is registered, before its first static field is installed, its two objects
  are what its body makes of them. -/
  registers : ∀ c m₁, (prepareClass perform d).outcome m = (some (.ok c), m₁) →
    ((registerClass c).outcome m₁).2.HasBody d c
  /-- When a method or accessor is reached, it is taken, unless it is a static one called
  `prototype`. -/
  takes : ∀ parent before name kind isStatic f after fields m₁, d.Accepted m parent →
    d.elements = before ++ .method name kind isStatic f :: after →
    (collectFields perform m.nextClass d.displayName m.homes before).outcome
      (m.prepared d parent) = (some (.ok fields), m₁) →
    ¬ (isStatic = true ∧ name = "prototype") →
    ∃ m₂, (evaluateElement perform m.nextClass d.displayName m.homes
      (.method name kind isStatic f)).outcome m₁ = (some (.ok none), m₂)
  /-- At a static one called `prototype` the definition fails, and that is all that happens
  then. -/
  refuses : ∀ parent before kind f after fields m₁, d.Accepted m parent →
    d.elements = before ++ .method "prototype" kind true f :: after →
    (collectFields perform m.nextClass d.displayName m.homes before).outcome
      (m.prepared d parent) = (some (.ok fields), m₁) →
    (defineClass perform d).FailsFrom m m₁ .type (.notConfigurable "prototype")
  /-- So a definition that has one never succeeds, and its class is not registered. -/
  unregistered : ∀ kind f, .method "prototype" kind true f ∈ d.elements →
    (defineClass perform d).Ensures m fun r m' =>
      (∀ id, r ≠ some (.ok id)) ∧ m'.Lacks m.nextClass

section Layout

variable {perform : Performer} (hp : perform.Keeps reachContract) {m : Machine} (hm : m.Closed)

include hp hm

/-- The methods of the elements that have been evaluated are there. -/
theorem furnished_of_collectFields (d : ClassDefinition) (parent : Option Class)
    {elements : List ClassElement} {fields : List DeclaredField} {m₁ : Machine}
    (h : (collectFields perform m.nextClass d.displayName m.homes elements).outcome
      (m.prepared d parent) = (some (.ok fields), m₁)) :
    m₁.Furnished m.homes (m.newHome d parent) elements := by
  have hcollect := collectFields_furnished hp (fun _ => Machine.newHome_ownsValues _) m.nextClass
    d.displayName (hm.furnished d parent) elements
  rw [Action.Ensures, h] at hcollect
  exact hcollect ⟨fields, rfl⟩

/-- **A class that can be registered has its body.** -/
theorem prepareClass_hasBody {d : ClassDefinition} {c : Class} {m₁ : Machine}
    (h : (prepareClass perform d).outcome m = (some (.ok c), m₁)) : m₁.HasBody d c := by
  rcases d.refused_or_accepted m with ⟨f, hf⟩ | ⟨parent, hd⟩
  · simp [outcome_prepareClass_of_refused hf] at h
  rcases hcollect : (collectFields perform m.nextClass d.displayName m.homes d.elements).outcome
    (m.prepared d parent) with ⟨r, m'⟩
  rw [outcome_prepareClass_of_accepted hd hcollect, Prod.mk.injEq] at h
  obtain ⟨hr, rfl⟩ := h
  obtain ⟨fields, rfl, rfl⟩ := eq_ok_of_map hr
  exact (furnished_of_collectFields hp hm d parent hcollect).hasBody fields

end Layout

/-- **Methods and accessors of a class body.** At every moment of a program, the methods and
accessors of a definition are taken by its two objects in source order, whatever its computed names
do. When the class is registered, the objects have each name where it occurs first, and under it
what the functions of the name leave, the last one taking the place of what was before. Only a
static one called `prototype` is refused; then the definition fails, and nothing is registered. -/
theorem class_layout (settings : Settings) (stop : Machine → Bool) (levels : Nat) {m : Machine}
    (hm : Occurs settings m) (d : ClassDefinition) :
    m.LaysOut (interpretUntil settings stop levels) d := by
  let perform : Performer := interpretUntil settings stop levels
  have hreach : perform.Keeps reachContract :=
    interpretUntil_keeps (step_keeps_reach settings) stop levels
  have hfurnished {parent : Option Class} {before : List ClassElement}
      {fields : List DeclaredField} {m₁ : Machine} (h : (collectFields perform m.nextClass
        d.displayName m.homes before).outcome (m.prepared d parent) = (some (.ok fields), m₁)) :=
    furnished_of_collectFields hreach hm.closed d parent h
  constructor
  case registers =>
    intro c m₁ h
    have hbody := prepareClass_hasBody hreach hm.closed h
    -- registering changes no object
    exact ⟨hbody.prototypeKeys, hbody.prototypeProperty, hbody.classKeys, hbody.classProperty⟩
  case takes =>
    intro parent before name kind isStatic f after fields m₁ _ _ h hname
    have hkept : (ClassElement.method name kind isStatic f).replacesPrototype = false := by
      simpa [ClassElement.replacesPrototype] using hname
    exact ⟨_, ((hfurnished h).method (fun _ => Machine.newHome_ownsValues _) hkept).1⟩
  case refuses =>
    intro parent before kind f after fields m₁ hd helements h
    have helement : (evaluateElement perform m.nextClass d.displayName m.homes
        (.method "prototype" kind true f)).outcome m₁ =
        (some (.error (.ofFault (.notConfigurable "prototype"))),
          (Effect.note (.raised (.notConfigurable "prototype"))).apply m₁) := by
      have hmethod := (hfurnished h).receptive.outcome_defineMethod "prototype" kind true f
      rw [if_pos (show ClassElement.replacesPrototype _ = true from rfl)] at hmethod
      rw [evaluateElement, outcome_bind, hmethod]
    have hcollect := outcome_collectFields_of_error h helement after
    rw [← helements] at hcollect
    refine ⟨rfl, ?_⟩
    rw [defineClass, outcome_bind, outcome_prepareClass_of_accepted hd hcollect]
    rfl
  case unregistered =>
    intro kind f hf
    have hlacks : (prepareClass perform d).Ensures m fun _ m' => m'.Lacks m.nextClass :=
      prepareClass_lacks (fun e ctx => interpretUntil_keeps
        (fun _ hp => step_keeps_registry hp settings) stop levels (.eval e ctx)) hm.coherent d
    have hprepare := prepareClass_preparation hreach (interpretUntil_tacit settings stop levels)
      hm.closed d
    refine (hlacks.and hprepare).bind (fun c m₁ _ h => ?_) (fun e m₁ h => ?_) fun m₁ h => ?_
    · -- it could not be prepared
      obtain ⟨-, told, -, -, hkept⟩ := h
      exact absurd (hkept ⟨c, rfl⟩ _ hf) (by simp [ClassElement.replacesPrototype])
    · exact ⟨by simp, h.1⟩
    · exact ⟨by simp, h.1⟩

/-- A class with a setter that joins a getter across a computed name, and with a static method
called `name`: `class A { get x() {}; y() {}; ["z"]; set x(v) {}; static name() {} }`. -/
def pairingClass : ClassDefinition where
  name := some "A"
  heritage := none
  constructor := none
  elements :=
    [.method "x" .getter false { id := 0, name := "get x", body := .literal .undefined },
      .method "y" .method false { id := 1, name := "y", body := .literal .undefined },
      .field (.computed (.literal (.str "z"))) false none,
      .method "x" .setter false { id := 2, name := "set x", body := .literal .undefined },
      .method "name" .method true { id := 3, name := "name", body := .literal .undefined }]

/-- Its definition succeeds, and the two objects have these keys. -/
theorem class_layout_of_pairingClass :
    (Occurs {} .initial ∧
      ((defineClass (interpretUntil {} (fun _ => false) 9) pairingClass).outcome .initial).1.any
        (fun r => r.toOption.isSome) = true ∧
      (((defineClass (interpretUntil {} (fun _ => false) 9) pairingClass).outcome
        .initial).2.store.object 0).keys = ["x", "y"] ∧
      (((defineClass (interpretUntil {} (fun _ => false) 9) pairingClass).outcome
        .initial).2.store.object 1).keys = ["prototype", "name"]) ∧
    Machine.initial.LaysOut (interpretUntil {} (fun _ => false) 9) pairingClass :=
  ⟨⟨.rest .initial, by decide +kernel, by decide +kernel, by decide +kernel⟩,
    class_layout {} (fun _ => false) 9 (.rest .initial) pairingClass⟩

end ClassMachine
