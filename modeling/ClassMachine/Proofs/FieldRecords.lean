import ClassMachine.Proofs.Exchanges
import ClassMachine.Proofs.FieldExchanges
import ClassMachine.Proofs.StageOrder

/-!
# Field records over the life of a class

The records of a class are made by its definition. The elements are walked in source order, and the
computed names among them are evaluated on the way; each element that is a field gives a record,
with the name that it has got by then (`ClassMachine.ClassDefinition.Declares`).

From the registration on, the class may be met by client code, which may exchange initializers of
instance fields at any time: in the static fields of the class itself, under a construction, or much
later. All this is in the trace. So the records at any moment can be read off the trace since the
registration: the names are the same, in the same order, and so are the static records; and each
instance record has the newest initializer that its name has been given, if it has been given any.

It remains to see that the trace can be trusted. A registration is told of only when a definition
has been prepared, and an exchange only when it has succeeded (`ClassMachine.Event.Explained`).

Main statement: `ClassMachine.field_records`.
-/

namespace ClassMachine

open Chronicle

variable {α : Type}

/-! ### What a definition declares -/

/-- If all stages have succeeded, there is an answer of each. -/
theorem InOrder.length_eq {ι β : Type} {activity : ι → Activity} {code : ι → Action β}
    {between : Effect → Prop} {refusal : List ι → Fault → Prop} {plan : List ι} {m m' : Machine}
    {r : Option (Except Failure (List β))} {told : List Event}
    (h : InOrder activity code between refusal plan m r m' told) {bs : List β}
    (hr : r = some (.ok bs)) : bs.length = plan.length := by
  induction h generalizing bs with
  | done => cases hr; rfl
  | refused | failed | broken => simp at hr
  | succeeded _ _ _ _ ih =>
    obtain ⟨bs', hr', rfl⟩ := eq_ok_of_map hr
    exact congrArg (· + 1) (ih hr')

/-- What the definition declares on the machine: its computed names are evaluated in source order,
to these values, while nothing else happens than that methods are put onto the objects of the class;
and the class has a record of each field, in source order, with this name. -/
structure ClassDefinition.Declares (d : ClassDefinition) (perform : Performer) (m : Machine)
    (vs : List Value) (c : Class) (m' : Machine) : Prop where
  names : ∃ parent told, d.Accepted m parent ∧
    InOrder (.namingField c.id d.displayName) (fun e => perform (.eval e {}))
      (Effect.IsMethodOn m.homes) (fun _ _ => False) (computedNames d.elements)
      (m.prepared d parent) (some (.ok vs)) m' told
  length : vs.length = (computedNames d.elements).length
  instanceFields : c.instanceFields = recordsOf false (declaredFields d.elements vs)
  staticFields : c.staticFields = recordsOf true (declaredFields d.elements vs)

section Declares

variable {perform : Performer}

/-- A method that was defined has been put onto its object. -/
theorem defineMethod_ok {home : ObjectId} {name : String} {kind : MethodKind} {f : Function}
    {m m' : Machine} (h : (defineMethod home name kind f).outcome m = (some (.ok ⟨⟩), m')) :
    ∃ p, m' = (Effect.define home name p).apply m := by
  rw [outcome_defineMethod_eq, outcome_defineOn] at h
  refine ⟨Property.ofMethod kind f ((m.store.object home).property? name), ?_⟩
  rw [Effect.apply]
  split at h <;> simp_all

/-- Elements that were evaluated were so in order. -/
theorem collectFields_ok {cls : ClassId} {className : String} {homes : Homes}
    {elements : List ClassElement} {m m' : Machine} {fields : List DeclaredField}
    (h : (collectFields perform cls className homes elements).outcome m =
      (some (.ok fields), m')) :
    ∃ vs told, InOrder (.namingField cls className) (fun e => perform (.eval e {}))
      (Effect.IsMethodOn homes) (fun _ _ => False) (computedNames elements) m (some (.ok vs)) m'
      told ∧ fields = declaredFields elements vs := by
  induction elements generalizing m fields with
  | nil =>
    obtain ⟨hfields, rfl⟩ := Prod.mk.inj h
    cases hfields
    exact ⟨[], [], .done [] (by simp), rfl⟩
  | cons element rest ih =>
    rw [collectFields, outcome_bind_eq_ok] at h
    obtain ⟨first, m₁, hfirst, h⟩ := h
    obtain ⟨others, m₂, hothers, h⟩ := outcome_bind_eq_ok.mp h
    cases h
    obtain ⟨vs, told, horder, rfl⟩ := ih hothers
    cases element with
    | method name kind isStatic f =>
      obtain ⟨_, m₂, hmethod, h⟩ := outcome_bind_eq_ok.mp hfirst
      cases h
      obtain ⟨p, rfl⟩ := defineMethod_ok hmethod
      have hhome : (Effect.define (homes.home isStatic) name p).IsMethodOn homes :=
        homes.owns_home isStatic
      exact ⟨vs, told, horder.effect hhome, rfl⟩
    | field name isStatic initializer =>
      obtain ⟨key, m₂, hkey, h⟩ := outcome_bind_eq_ok.mp hfirst
      cases h
      cases name with
      | literal name =>
        cases hkey
        exact ⟨vs, told, horder, rfl⟩
      | computed e =>
        obtain ⟨v, m₂, hv, h⟩ := outcome_bind_eq_ok.mp hkey
        cases h
        have hnames : InOrder (.namingField cls className) (fun e => perform (.eval e {}))
            (Effect.IsMethodOn homes) (fun _ _ => False) (e :: computedNames rest) m
            ((some (.ok vs)).map (Except.map (v :: ·))) m' _ :=
          .succeeded [] (by simp) hv horder
        exact ⟨v :: vs, _, hnames, rfl⟩

/-- **A class that was prepared has the records that its definition declares.** -/
theorem prepareClass_declares {d : ClassDefinition} {m m' : Machine} {c : Class}
    (h : (prepareClass perform d).outcome m = (some (.ok c), m')) :
    ∃ vs, d.Declares perform m vs c m' := by
  rcases d.refused_or_accepted m with ⟨f, hf⟩ | ⟨parent, hd⟩
  · rw [outcome_prepareClass_of_refused hf] at h
    cases h
  · rcases hcollect : (collectFields perform m.nextClass d.displayName m.homes
      d.elements).outcome (m.prepared d parent) with ⟨r, m₁⟩
    rw [outcome_prepareClass_of_accepted hd hcollect] at h
    obtain ⟨hr, rfl⟩ := Prod.mk.inj h
    obtain ⟨fields, rfl, rfl⟩ := eq_ok_of_map hr
    obtain ⟨vs, told, horder, rfl⟩ := collectFields_ok hcollect
    exact ⟨vs, ⟨parent, told, hd, horder⟩, horder.length_eq rfl, rfl, rfl⟩

end Declares

/-! ### What the trace can be trusted with -/

/-- What an event about the fields of a class comes of, given the events before it. -/
def Event.Explained (settings : Settings) : Event → List Event → Prop
  | registered c, earlier => ∃ stop levels d m m',
    (prepareClass (interpretUntil settings stop levels) d).outcome m = (some (.ok c), m') ∧
      m'.trace = earlier
  | replaced id field initializer, earlier => ∃ m m',
    (replaceInitializer id field initializer).outcome m = (some (.ok ⟨⟩), m') ∧
      m'.trace = .replaced id field initializer :: earlier
  | _, _ => True

/-- All events of the trace are explained. -/
def AllExplained (settings : Settings) : List Event → Prop
  | [] => True
  | e :: earlier => e.Explained settings earlier ∧ AllExplained settings earlier

section Explained

variable {settings : Settings}

theorem AllExplained.of_append {later earlier : List Event} {e : Event}
    (h : AllExplained settings (later ++ e :: earlier)) : e.Explained settings earlier := by
  induction later with
  | nil => exact h.1
  | cons _ _ ih => exact ih h.2

/-- The law that what is told can be explained. -/
def explanationLaw (settings : Settings) : Law where
  ended m m' := AllExplained settings m.trace → AllExplained settings m'.trace
  broken m m' := AllExplained settings m.trace → AllExplained settings m'.trace
  refl _ := id
  trans h h' := h' ∘ h
  late h := h
  trans_broken h h' := h' ∘ h

theorem explanationLaw_holds {m m' : Machine} {r : Option (Except Failure α)} :
    (explanationLaw settings).Holds m r m' ↔
      (AllExplained settings m.trace → AllExplained settings m'.trace) := by
  cases r <;> rfl

/-- What leaves the registry alone needs no explanation. -/
theorem explanationLaw_allows {e : Effect} (he : e.KeepsRegistry) :
    (explanationLaw settings).Allows e := by
  intro m h
  cases e with
  | note e => cases e <;> simp_all [Effect.KeepsRegistry, Event.isRegistral, Effect.apply,
      AllExplained, Event.Explained]
  | relink => exact ⟨trivial, h⟩
  | define => simpa using h
  | _ => exact h

/-- An exchange is told of when it has succeeded. -/
theorem replaceInitializer_explained (id : ClassId) (field : String)
    (initializer : Option Expr) :
    (replaceInitializer id field initializer).Obeys (explanationLaw settings) := by
  intro m
  have h := outcome_replaceInitializer id field initializer m
  split at h
  · exact .of_outcome h fun hm => ⟨trivial, trivial, hm⟩
  · exact .of_outcome h fun hm => ⟨⟨m, _, h, rfl⟩, trivial, hm⟩

section Define

variable {stop : Machine → Bool} {levels : Nat}
  (hp : ∀ e ctx, (interpretUntil settings stop levels (.eval e ctx)).Obeys
    (explanationLaw settings))

include hp

theorem prepareClass_explained (d : ClassDefinition) :
    (prepareClass (interpretUntil settings stop levels) d).Obeys (explanationLaw settings) := by
  intro m
  refine prepareClass_ensures (fun f _ hm => ⟨trivial, trivial, hm⟩) fun parent _ => ?_
  have hcollect := (collectFields_madeOf m.nextClass d.displayName m.homes
    d.elements).obeys_evaluations (fun _ he => explanationLaw_allows he.keepsRegistry) hp
  refine (hcollect (m.prepared d parent)).mono fun r m' h => ?_
  rw [explanationLaw_holds] at h ⊢
  exact fun hm => h ⟨trivial, trivial, hm⟩

/-- A class that comes of a definition may be registered. -/
theorem launchClass_explained {d : ClassDefinition} {m m₁ : Machine} {c : Class}
    (h : (prepareClass (interpretUntil settings stop levels) d).outcome m = (some (.ok c), m₁)) :
    (launchClass (interpretUntil settings stop levels) c).Ensures m₁
      ((explanationLaw settings).Holds m₁) := by
  have hinstall : (installFields (interpretUntil settings stop levels)
      (.staticField c.id c.displayName c.classObject) c.classObject c.staticFields).Obeys
      (explanationLaw settings) :=
    installFields_obeys
      (fun _ _ h => explanationLaw_allows h.isFraming.isConstructing.keepsRegistry)
      (fun _ _ h => explanationLaw_allows h.keepsRegistry) hp c.staticFields
  have hlaunched : AllExplained settings m₁.trace →
      AllExplained settings (m₁.launched c).trace :=
    fun hm => ⟨⟨stop, levels, d, m, m₁, h, rfl⟩, hm⟩
  refine launchClass_ensures (hinstall (m₁.launched c)) (fun m' h hm => ?_) (fun e m' h hm => ?_)
    fun m' h hm => ?_
  · exact ⟨trivial, h (hlaunched hm)⟩
  · exact ⟨trivial, h (hlaunched hm)⟩
  · exact h (hlaunched hm)

theorem defineClass_explained (d : ClassDefinition) :
    (defineClass (interpretUntil settings stop levels) d).Obeys (explanationLaw settings) := by
  intro m
  refine (prepareClass_explained hp d m).bind (fun c m₁ h h₁ => ?_) (fun _ _ h => h) fun _ h => h
  exact (launchClass_explained hp h).mono fun _ _ => .of_ended h₁

end Define

/-- **What runs tell can be explained**, be they broken off or not. -/
theorem interpretUntil_explained (settings : Settings) (stop : Machine → Bool) (levels : Nat) :
    (interpretUntil settings stop levels).Keeps (.ofLaws fun _ _ => explanationLaw settings) := by
  induction levels with
  | zero => exact fun _ _ _ => id
  | succ levels ih =>
    refine Performer.Keeps.until (fun _ task => ?_) stop
    exact step_obeys_of_operations
      (fun e he => explanationLaw_allows he.keepsRegistry) (fun _ task => ih task)
      replaceInitializer_explained (defineClass_explained fun e ctx => ih (.eval e ctx)) settings
      task

/-- **At all moments, the trace can be explained.** -/
theorem allExplained_of_moment {m : Machine} (hm : AtRest settings m ∨ Reachable settings m) :
    AllExplained settings m.trace := by
  obtain ⟨hrest, hmoment⟩ := Contract.moments_of_runs
    (fun m => AllExplained settings m.trace) (fun m => AllExplained settings m.trace)
    (interpretUntil_explained settings) trivial (fun _ h => h) (fun _ _ _ _ hm h => h hm)
    (fun _ _ _ hm h => h hm) fun e m he => explanationLaw_allows he.keepsRegistry m
  exact hm.elim (hrest m) (hmoment m)

/-- A class that is launched is registered at once. -/
theorem launchClass_notes (settings : Settings) (stop : Machine → Bool) (levels : Nat)
    (c : Class) (m : Machine) :
    (launchClass (interpretUntil settings stop levels) c).Ensures m fun _ m' =>
      ∃ later, m'.trace = later ++ .registered c :: m.trace := by
  have hinstall : (installFields (interpretUntil settings stop levels)
      (.staticField c.id c.displayName c.classObject) c.classObject c.staticFields).Obeys
      persistenceLaw :=
    installFields_obeys (L := persistenceLaw) (fun _ e _ => e.persists_apply)
      (fun _ e _ => e.persists_apply) (fun e ctx => interpretUntil_obeys (L := persistenceLaw)
        Effect.persists_apply settings stop levels (.eval e ctx)) c.staticFields
  refine launchClass_ensures
    (P := fun _ m' => ∃ later, m'.trace = later ++ .registered c :: m.trace)
    ((hinstall (m.launched c)).mono ?_) ?_ ?_ fun _ h => h
  · intro r m' h
    have hpersists : (m.launched c).Persists m' := by cases r <;> exact h
    obtain ⟨later, hlater, -⟩ := hpersists.link
    exact ⟨later, hlater⟩
  · rintro m' ⟨later, hlater⟩
    exact ⟨.completed c.id :: later, congrArg _ hlater⟩
  · rintro e m' ⟨later, hlater⟩
    exact ⟨.withdrawn c.id _ :: later, congrArg _ hlater⟩

end Explained

/-! ### The records at all moments -/

/-- **What has become of the records** of a class since its registration. -/
theorem Machine.Coherent.records {m : Machine} (hm : m.Coherent) {later earlier : List Event}
    {c₀ : Class} (htrace : m.trace = later ++ .registered c₀ :: earlier) {c : Class}
    (hc : m.registry.class? c₀.id = some c) :
    c = c₀.withFields (c₀.instanceFields.map (FieldRecord.after later c₀.id)) := by
  have hchronicle : m.chronicle = chronicleOf later ++ .registered c₀ :: chronicleOf earlier := by
    rw [Machine.chronicle, htrace, chronicleOf, List.filter_append, List.filter_cons_of_pos rfl]
    rfl
  have hc₀ : .registered c₀ ∈ m.chronicle := by simp [hchronicle]
  have hnew (c' : Class) (hc' : .registered c' ∈ later) : c'.id ≠ c₀.id :=
    Registry.Follows.id_ne_of_append (hchronicle ▸ hm.follows) (List.mem_filter.mpr ⟨hc', rfl⟩)
      List.mem_cons_self
  obtain ⟨c₁, hc₁, hid, rfl⟩ := hm.follows.known c₀.id c hc
  obtain rfl := hm.follows.registered_unique hc₁ hc₀ hid
  have hfields : fieldsOf (chronicleOf (.registered c₁ :: earlier)) c₁.id = c₁.instanceFields := by
    rw [chronicleOf, List.filter_cons_of_pos rfl, fieldsOf, if_pos rfl]
  rw [Machine.chronicle, htrace, fieldsOf_append later hnew, hfields]

/-- What is known of the records of classes on the machine. -/
structure Machine.RecordsInOrder (settings : Settings) (m : Machine) : Prop where
  /-- Each class that was registered had been prepared before, and had the records that its
  definition declares. -/
  declared : ∀ later c earlier, m.trace = later ++ .registered c :: earlier →
    ∃ stop levels d m₀ vs m₁,
      (prepareClass (interpretUntil settings stop levels) d).outcome m₀ = (some (.ok c), m₁) ∧
      d.Declares (interpretUntil settings stop levels) m₀ vs c m₁ ∧ m₁.trace = earlier
  /-- Each exchange that was noted had succeeded. -/
  replaced : ∀ later id field initializer earlier,
    m.trace = later ++ .replaced id field initializer :: earlier → ∃ m₀ m₁,
      (replaceInitializer id field initializer).outcome m₀ = (some (.ok ⟨⟩), m₁) ∧
      m₁.trace = .replaced id field initializer :: earlier
  /-- A class that is there was registered. -/
  registered : ∀ id c, m.registry.class? id = some c → ∃ later c₀ earlier,
    m.trace = later ++ .registered c₀ :: earlier ∧ c₀.id = id
  /-- Since then its static records are the same, and so are the names of its instance records;
  these have the newest initializer that was given to their name. -/
  records : ∀ later c₀ earlier, m.trace = later ++ .registered c₀ :: earlier →
    ∀ c, m.registry.class? c₀.id = some c → c.staticFields = c₀.staticFields ∧
      c.instanceFields.map FieldRecord.name = c₀.instanceFields.map FieldRecord.name ∧
      c.instanceFields = c₀.instanceFields.map (FieldRecord.after later c₀.id)

/-- **Field records over the life of a class.** A definition that is prepared gives a class with a
record for each field element, in source order, under the names that were evaluated on the way; the
class is registered as soon as it is launched. At every moment of a program, each class that is
there was registered so, and the records are those of its registration, but that each instance
record has the initializer of the last exchange since that has succeeded for this class and this
name. An exchange for an unknown class or for a name that is not declared fails and changes nothing;
the others change one class and one name, and exchanges for different classes or names can change
places. -/
theorem field_records (settings : Settings) :
    (∀ stop levels d m c m',
      (prepareClass (interpretUntil settings stop levels) d).outcome m = (some (.ok c), m') →
      (∃ vs, d.Declares (interpretUntil settings stop levels) m vs c m') ∧
      ∀ r m'', (launchClass (interpretUntil settings stop levels) c).outcome m' = (r, m'') →
        ∃ later, m''.trace = later ++ .registered c :: m'.trace) ∧
    ∀ m, AtRest settings m ∨ Reachable settings m →
      m.RecordsInOrder settings ∧ m.ExchangesInOrder := by
  refine ⟨fun stop levels d m c m' h => ⟨prepareClass_declares h, fun r m'' h' => ?_⟩,
    fun m hm => ?_⟩
  · have hlaunch := launchClass_notes settings stop levels c m'
    rwa [Action.Ensures, h'] at hlaunch
  · obtain ⟨hcoherent, -⟩ := sound_of_moment hm
    have hexplained := allExplained_of_moment hm
    refine ⟨⟨?_, ?_, ?_, ?_⟩, m.exchangesInOrder fun _ _ => hcoherent.follows.class?_id⟩
    · intro later c earlier htrace
      obtain ⟨stop, levels, d, m₀, m₁, h, hearlier⟩ := (htrace ▸ hexplained).of_append
      obtain ⟨vs, hvs⟩ := prepareClass_declares h
      exact ⟨stop, levels, d, m₀, vs, m₁, h, hvs, hearlier⟩
    · intro later id field initializer earlier htrace
      exact (htrace ▸ hexplained).of_append
    · intro id c hc
      obtain ⟨c₀, hc₀, hid, -⟩ := hcoherent.follows.known id c hc
      obtain ⟨later, earlier, htrace⟩ := List.append_of_mem (List.mem_of_mem_filter hc₀)
      exact ⟨later, c₀, earlier, htrace, hid⟩
    · intro later c₀ earlier htrace c hc
      obtain rfl := hcoherent.records htrace hc
      exact ⟨rfl, by simp [FieldRecord.after], rfl⟩

/-- The fields of a class with a name that is declared twice and one that is computed, and with a
static field that exchanges an initializer: `x = "old"`, `["k"]`, `x`, and
`static s = replace(1, "x", "new")`. -/
def exchangingFields : List (FieldName × Bool × Option Expr) :=
  [(.literal "x", false, some (.literal (.str "old"))),
    (.computed (.literal (.str "k")), false, none), (.literal "x", false, none),
    (.literal "s", true, some (.replaceInitializer (.literal (.number 1)) (.literal (.str "x"))
      (some (.literal (.str "new")))))]

/-- The definition of a class with these fields. -/
def exchangingClass : ClassDefinition where
  elements := exchangingFields.map fun (name, isStatic, e) => .field name isStatic e

/-- The same definition as an expression. -/
def exchangingExpr : Expr :=
  .classDefinition
    { name := none, heritage := none, constructor := none,
      elements := exchangingFields.map fun (name, isStatic, e) => .field name isStatic e }

/-- The class is prepared with the old initializer, and has the new one when it is defined. -/
theorem field_records_of_exchangingClass :
    (∃ c m', ((prepareClass (interpretUntil {} (fun _ => false) 9) exchangingClass).outcome
          .initial = (some (.ok c), m') ∧ firstText? c.instanceFields = some "old") ∧
      (∃ vs, exchangingClass.Declares (interpretUntil {} (fun _ => false) 9) .initial vs c m') ∧
      ∀ r m'', (launchClass (interpretUntil {} (fun _ => false) 9) c).outcome m' = (r, m'') →
        ∃ later, m''.trace = later ++ .registered c :: m'.trace) ∧
    ∃ m c, ((AtRest {} m ∨ Reachable {} m) ∧ m.registry.class? 1 = some c ∧
      c.instanceFields.map FieldRecord.name = ["x", "k", "x"] ∧
      firstText? c.instanceFields = some "new") ∧ m.RecordsInOrder {} ∧ m.ExchangesInOrder := by
  obtain ⟨hdefine, hmoment⟩ := field_records {}
  constructor
  · have hprepare : (((prepareClass (interpretUntil {} (fun _ => false) 9)
        exchangingClass).outcome .initial).1.any fun r =>
          r.toOption.any fun c => firstText? c.instanceFields == some "old") = true := by
      rw [interpretUntil_never]
      decide +kernel
    rcases h : (prepareClass (interpretUntil {} (fun _ => false) 9) exchangingClass).outcome
      .initial with ⟨_ | e | c, m'⟩
    · simp [h] at hprepare
    · simp [h, Except.toOption] at hprepare
    · have hold : firstText? c.instanceFields = some "old" := by
        simpa [h, Except.toOption] using hprepare
      exact ⟨c, m', ⟨rfl, hold⟩, hdefine _ 9 exchangingClass .initial c m' h⟩
  · have hrun : ((runStep {} 9 exchangingExpr .initial).any fun p =>
        (p.2.registry.class? 1).any fun c =>
          c.instanceFields.map FieldRecord.name == ["x", "k", "x"] &&
            firstText? c.instanceFields == some "new") = true := by decide +kernel
    obtain ⟨⟨report, m⟩, hm, h⟩ := (Option.any_eq_true ..).mp hrun
    obtain ⟨c, hc, h⟩ := (Option.any_eq_true ..).mp h
    rw [Bool.and_eq_true, beq_iff_eq, beq_iff_eq] at h
    have hm : AtRest {} m := .step .initial hm
    exact ⟨m, c, ⟨.inl hm, hc, h⟩, hmoment m (.inl hm)⟩

end ClassMachine
