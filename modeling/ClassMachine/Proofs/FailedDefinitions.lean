import ClassMachine.Proofs.ClassObjects
import ClassMachine.Proofs.FailureSearch
import ClassMachine.Proofs.RelocatedRuns
import ClassMachine.Proofs.StageOrder

/-!
# Definitions that fail before the class is registered

A definition with a reserved field name that is written down, or with a heritage that is not the
class object of a registered class, is refused. Nothing but the announcement and the fault is noted
then, and the machine is as before. Whether the heritage is such a class object is decided by its
kind, and on a machine that occurs in a program that comes to the same
(`ClassMachine.Occurs.kind_iff`).

A definition that is not refused draws a number and makes two objects. Until the class is
registered only two things can fail: a computed name, and a static method or accessor called
`prototype`. What the definition has done by then, apart from the number, it has done to its two
objects, and no reference leads to them (`ClassMachine.Machine.Receptive`). So the computed names
have run as they would have run without the definition. Only the objects that they have made stand
two places further on, since the two objects came first: the machine is a relocation
(`ClassMachine.Machine.aside`) of the one on which nothing but a number was drawn and the computed
names were evaluated.

Main statement: `ClassMachine.failed_definition`.
-/

namespace ClassMachine

/-! ### What is not relocated -/

section Fixed

variable {ρ : Relocation} {H : ObjectId → Prop} {n : Nat} (hρ : ∀ o, Seen H n o → ρ o = o)

include hρ

theorem relocate_link_eq_self {link : Option ObjectId} (h : ∀ o ∈ link, Seen H n o) :
    link.map ρ = link := by
  cases link with
  | none => rfl
  | some o => exact congrArg some (hρ o (h o rfl))

theorem Value.Visible.relocate_eq_self {v : Value} (h : v.Visible H n) : v.relocate ρ = v := by
  cases v with
  | ref o => exact congrArg Value.ref (hρ o h)
  | _ => rfl

theorem Property.Visible.relocate_eq_self {p : Property} (h : p.Visible H n) :
    p.relocate ρ = p := by
  cases p with
  | data v writable enumerable configurable =>
    rw [Property.relocate, Value.Visible.relocate_eq_self hρ h]
  | accessor => rfl

omit hρ in
/-- A table is the same if nothing in it changes. -/
theorem map_eq_self {κ γ : Type} {cmp : κ → κ → Ordering} [Std.TransCmp cmp] [Std.LawfulEqCmp cmp]
    {t : Std.ExtTreeMap κ γ cmp} {f : γ → γ} (h : ∀ (k : κ) v, t[k]? = some v → f v = v) :
    t.map (fun _ v => f v) = t := by
  refine Std.ExtTreeMap.ext_getElem? fun k => ?_
  rw [Std.ExtTreeMap.getElem?_map]
  cases hv : t[k]? with
  | none => rfl
  | some v => exact congrArg some (h k v hv)

theorem Object.Visible.relocate_eq_self {o : Object} (h : o.Visible H n) :
    o.relocate ρ = o := by
  have hproperties : (o.properties.map fun _ p => p.relocate ρ) = o.properties :=
    map_eq_self fun key p hp => (h.properties key p hp).relocate_eq_self hρ
  have hprototype : o.prototype.map ρ = o.prototype := relocate_link_eq_self hρ h.prototype
  rw [Object.relocate, hproperties, hprototype]

theorem Class.Visible.relocate_eq_self {c : Class} (h : c.Visible H n) : c.relocate ρ = c := by
  rw [Class.relocate, hρ _ h.prototype, hρ _ h.classObject]

theorem Frame.Visible.relocate_eq_self {f : Frame} (h : f.Visible H n) : f.relocate ρ = f := by
  rw [Frame.relocate, relocate_link_eq_self hρ h]

theorem Registry.relocate_eq_self {r : Registry}
    (h : ∀ id c, r.class? id = some c → c.Visible H n) : r.relocate ρ = r := by
  have hclasses : (r.classes.map fun _ c => c.relocate ρ) = r.classes :=
    map_eq_self fun id c hc => (h id c hc).relocate_eq_self hρ
  rw [Registry.relocate, hclasses]

end Fixed

/-! ### Making room for two objects -/

namespace Machine

/-- Two places are left free behind the objects that are there. -/
def aside (m : Machine) : Relocation where
  place o := if o < m.store.size then o else o + 2
  injective i j h := by grind

variable {m : Machine} {d : ClassDefinition} {parent : Option Class}

theorem aside_of_lt {o : ObjectId} (ho : o < m.store.size) : m.aside o = o := if_pos ho

theorem aside_of_le {o : ObjectId} (ho : m.store.size ≤ o) : m.aside o = o + 2 :=
  if_neg (Nat.not_lt.mpr ho)

/-- They are the places of the two objects of the next class. -/
theorem aside_ne {o : ObjectId} (ho : m.homes.Owns o) (i : ObjectId) : m.aside i ≠ o := by
  rcases Nat.lt_or_ge i m.store.size with hi | hi
  · rw [aside_of_lt hi]
    rcases ho with rfl | rfl
    · exact Nat.ne_of_lt hi
    · exact Nat.ne_of_lt (Nat.lt_succ_of_lt hi)
  · rw [aside_of_le hi]
    have hlt : m.store.size + 1 < i + 2 := Nat.lt_succ_of_le (Nat.succ_le_succ hi)
    rcases ho with rfl | rfl
    · exact (Nat.ne_of_lt (Nat.lt_of_succ_lt hlt)).symm
    · exact (Nat.ne_of_lt hlt).symm

/-- The machine on which nothing but a number is drawn. -/
def drawn (m : Machine) : Machine :=
  { m with registry := m.registry.drawId.2 }

/-- **A definition that begins makes room for its objects**, and that is all that anything but the
trace tells of it. -/
theorem Closed.relocated_prepared (hm : m.Closed) (d : ClassDefinition) (parent : Option Class) :
    m.drawn.Relocated m.aside m.log (m.prepared d parent) := by
  have hold (o : ObjectId) (ho : Seen (fun _ => False) m.store.size o) : m.aside o = o :=
    aside_of_lt ho.1
  have hsize : (m.prepared d parent).store.size = m.store.size + 2 := size_withHomes ..
  refine ⟨⟨fun o => ?_, fun k => ?_, ?_⟩, ?_, ?_, rfl, ?_, [], rfl, rfl⟩
  · rcases Nat.lt_or_ge o m.store.size with ho | ho
    · have hobject : (m.prepared d parent).store.object o = m.store.object o :=
        (m.numbered d.displayName).object_withHomes_of_lt m.nextClass d.name parent ho
      rw [aside_of_lt ho, hobject]
      exact ((hm.objects o ⟨ho, id⟩).relocate_eq_self hold).symm
    · have hblank : (m.prepared d parent).store.object (o + 2) = Store.blank :=
        Store.object_of_le (hsize ▸ Nat.add_le_add_right ho 2)
      have hblank₀ : m.drawn.store.object o = Store.blank := Store.object_of_le ho
      rw [aside_of_le ho, hblank, hblank₀]
      rfl
  · rw [hsize, Nat.add_right_comm]
    exact aside_of_le (Nat.le_add_right ..)
  · rw [hsize]
    exact Nat.le_add_right ..
  · exact (Registry.relocate_eq_self hold (r := m.drawn.registry) hm.classes).symm
  · refine (List.map_congr_left fun f hf => ?_).trans (List.map_id _) |>.symm
    exact (hm.frames f hf).relocate_eq_self hold
  · exact (map_eq_self fun name v hv =>
      Value.Visible.relocate_eq_self hold (hm.registers name v hv)).symm

end Machine

/-! ### What the definition does to its objects -/

section Outside

variable {ρ : Relocation} {log₀ : List Entry}

theorem Machine.Relocated.note_right {m m' : Machine} (h : m.Relocated ρ log₀ m') (e : Event) :
    m.Relocated ρ log₀ ((Effect.note e).apply m') :=
  ⟨h.store, h.registry, h.frames, h.nextFunction, h.registers, h.log⟩

/-- An object at a place to which no object is relocated may become anything. -/
theorem Store.Relocated.put_outside {s s' : Store} (h : s.Relocated ρ s') {o : ObjectId}
    (ho : ∀ i, ρ i ≠ o) (x : Object) : s.Relocated ρ (s'.put o x) where
  object i := by
    rw [object_put, if_neg fun hi => ho i hi.1]
    exact h.object i
  new k := by
    rw [size_put]
    exact h.new k
  size := by
    rw [size_put]
    exact h.size

theorem Machine.Relocated.define_outside {m m' : Machine} (h : m.Relocated ρ log₀ m')
    {o : ObjectId} (ho : ∀ i, ρ i ≠ o) (key : String) (p : Property) :
    m.Relocated ρ log₀ ((Effect.define o key p).apply m') := by
  simp only [Effect.apply]
  split
  · exact ⟨h.store.put_outside ho _, h.registry, h.frames, h.nextFunction, h.registers, h.log⟩
  · exact h

/-- A stage of the definition, and its client code without it. -/
theorem Machine.Relocated.during {α β : Type} {f : α → β} {x : Action α} {x' : Action β}
    (hx : Action.Follows ρ log₀ f x x') {m m' : Machine} (h : m.Relocated ρ log₀ m')
    (activity : Activity) : (ClassMachine.during activity x').Ensures m' fun r n' =>
      (x.outcome m).2.Relocated ρ log₀ n' ∧ r = ((x.outcome m).1.map (relocateOutcome ρ f)).map
        (Except.mapError fun failure => failure.within activity.context) := by
  have hcode : x'.Ensures ((Effect.note (.began activity)).apply m') fun r n' =>
      r = (x.outcome m).1.map (relocateOutcome ρ f) ∧ (x.outcome m).2.Relocated ρ log₀ n' :=
    hx (h.note_right _)
  refine during_ensures hcode (fun a n' h => ⟨h.2.note_right _, ?_⟩)
    (fun e n' h => ⟨h.2.note_right _, ?_⟩) fun n' h => ⟨h.2, ?_⟩ <;> rw [← h.1] <;> rfl

end Outside

/-! ### The elements -/

/-- A definition whose elements are evaluated fails at this element, with this failure. The
computed names in front of it have been evaluated from the first machine on, and that machine has
become the second one. -/
inductive FailsAt (perform : Performer) (ρ : Relocation) (className : String) (m n : Machine)
    (names : List Expr) : ClassElement → Failure → Prop
  /-- A computed name fails. -/
  | name {e : Expr} {isStatic : Bool} {initializer : Option Expr} {vs : List Value} {n₁ : Machine}
      {failure : Failure}
      (hnames : (evaluateAll perform {} names).outcome m = (some (.ok vs), n₁))
      (h : (perform (.eval e {})).outcome n₁ = (some (.error failure), n)) :
    FailsAt perform ρ className m n names (.field (.computed e) isStatic initializer)
      ((failure.relocate ρ).within (.computedName className))
  /-- A static method or accessor is called `prototype`. -/
  | method {kind : MethodKind} {f : Function} {vs : List Value}
      (hnames : (evaluateAll perform {} names).outcome m = (some (.ok vs), n)) :
    FailsAt perform ρ className m n names (.method "prototype" kind true f)
      (.ofFault (.notConfigurable "prototype"))

/-- One more computed name that was evaluated in front. -/
theorem FailsAt.cons {perform : Performer} {ρ : Relocation} {className : String}
    {m m₁ n : Machine} {names : List Expr} {element : ClassElement} {failure : Failure}
    (h : FailsAt perform ρ className m₁ n names element failure) {e : Expr} {v : Value}
    (he : (perform (.eval e {})).outcome m = (some (.ok v), m₁)) :
    FailsAt perform ρ className m n (e :: names) element failure := by
  have hcons {vs : List Value} {n₁ : Machine}
      (hnames : (evaluateAll perform {} names).outcome m₁ = (some (.ok vs), n₁)) :
      (evaluateAll perform {} (e :: names)).outcome m = (some (.ok (v :: vs)), n₁) := by
    rw [evaluateAll, outcome_bind, evaluate, he]
    simp [hnames, Except.map]
  cases h with
  | name hnames h => exact .name (hcons hnames) h
  | method hnames => exact .method (hcons hnames)

section Elements

variable {perform : Performer} {ρ : Relocation} {log₀ : List Entry} {homes : Homes}

/-- The elements fail on a machine of which another one is a relocation: at one of them, as it
would be on that machine. -/
def FailTogether (perform : Performer) (ρ : Relocation) (log₀ : List Entry) (homes : Homes)
    (className : String) (elements : List ClassElement) (m : Machine) (failure : Failure)
    (n' : Machine) : Prop :=
  ∃ before element after n, elements = before ++ element :: after ∧
    FailsAt perform ρ className m n (computedNames before) element failure ∧
    n.Relocated ρ log₀ n' ∧ n'.Hides homes.Owns

/-- An element that succeeds in front, which evaluates these computed names. -/
theorem FailTogether.cons {className : String} {rest : List ClassElement} {m m₁ n' : Machine}
    {failure : Failure} (h : FailTogether perform ρ log₀ homes className rest m₁ failure n')
    {element : ClassElement} {names : List Expr}
    (hnames : ∀ before, computedNames (element :: before) = names ++ computedNames before)
    (hcons : ∀ {n names' element'}, FailsAt perform ρ className m₁ n names' element' failure →
      FailsAt perform ρ className m n (names ++ names') element' failure) :
    FailTogether perform ρ log₀ homes className (element :: rest) m failure n' := by
  obtain ⟨before, element', after, n, rfl, hfails, hn⟩ := h
  exact ⟨element :: before, element', after, n, rfl, hnames before ▸ hcons hfails, hn⟩

variable (hfollows : perform.Follows ρ log₀) (hreach : perform.Keeps reachContract)
  (hout : ∀ o, homes.Owns o → ∀ i, ρ i ≠ o)

include hfollows hreach hout

/-- **Elements that fail** do so at a computed name or at a static method or accessor called
`prototype`. What has become of the machine by then is what the computed names do without the
definition. -/
theorem collectFields_fails (cls : ClassId) (className : String) (elements : List ClassElement)
    {m m' : Machine} (hm' : m'.Receptive homes) (hm : m.Relocated ρ log₀ m') :
    (collectFields perform cls className homes elements).Ensures m' fun r n' =>
      ∀ failure, r = some (.error failure) →
        FailTogether perform ρ log₀ homes className elements m failure n' := by
  induction elements generalizing m m' with
  | nil => exact .of_outcome rfl (by simp)
  | cons element rest ih =>
    -- the elements behind the first one, from the two machines that it leaves behind
    have hrest (names : List Expr) (first : Option DeclaredField) {m₁ m₁' : Machine}
        (hfirst : (evaluateElement perform cls className homes element).outcome m' =
          (some (.ok first), m₁')) (hm₁' : m₁'.Receptive homes) (hm₁ : m₁.Relocated ρ log₀ m₁')
        (hnames : ∀ before, computedNames (element :: before) = names ++ computedNames before)
        (hcons : ∀ {n names' element' failure},
          FailsAt perform ρ className m₁ n names' element' failure →
          FailsAt perform ρ className m n (names ++ names') element' failure) :
        (collectFields perform cls className homes (element :: rest)).Ensures m' fun r n' =>
          ∀ failure, r = some (.error failure) →
            FailTogether perform ρ log₀ homes className (element :: rest) m failure n' := by
      refine .bind_ok hfirst ((ih hm₁' hm₁).bind_pure.mono ?_)
      rintro _ n' ⟨_ | e | fields, hfail, rfl⟩ failure hr
      · cases hr
      · exact (hfail failure hr).cons hnames hcons
      · cases hr
    cases element with
    | method name kind isStatic f =>
      have hmethod := hm'.outcome_defineMethod name kind isStatic f
      split at hmethod
      next hreplaces =>
        -- the method is refused
        simp only [ClassElement.replacesPrototype, Bool.and_eq_true, beq_iff_eq] at hreplaces
        obtain ⟨rfl, rfl⟩ := hreplaces
        have hleaves : m'.Leaves homes.Owns
            ((Effect.note (.raised (.notConfigurable "prototype"))).apply m') :=
          Effect.Visible.leaves trivial hm'.hides
        refine .bind_error (e := .ofFault (.notConfigurable "prototype"))
          (n := (Effect.note (.raised (.notConfigurable "prototype"))).apply m') ?_ ?_
        · rw [evaluateElement, outcome_bind, hmethod]
        · rintro failure ⟨⟩
          exact ⟨[], _, rest, m, rfl, .method rfl, hm.note_right _, hleaves.hides⟩
      next hreplaces =>
        obtain ⟨hdefine, hreceptive⟩ := hmethod
        refine hrest [] none ?_ hreceptive
          (hm.define_outside (hout _ (homes.owns_home isStatic)) _ _) (fun _ => rfl) id
        rw [evaluateElement, outcome_bind, hdefine]
        rfl
    | field name isStatic initializer =>
      cases name with
      | literal name => exact hrest [] _ rfl hm' hm (fun _ => rfl) id
      | computed e =>
        have hspares := namingField_spares hreach hm'.hides cls className e
        have hname : Action.Follows ρ log₀ (Value.relocate ρ) (perform (.eval e {}))
          (perform (.eval e {})) := hfollows (.eval e {})
        have hnaming := hm.during hname (.namingField cls className e)
        rw [Action.Ensures] at hspares hnaming
        rcases hv' : (during (.namingField cls className e) (perform (.eval e {}))).outcome m' with
          ⟨r', n'⟩
        rcases hv : (perform (.eval e {})).outcome m with ⟨_ | failure | v, n⟩ <;>
          rw [hv'] at hspares hnaming <;> rw [hv] at hnaming <;> obtain ⟨hn, rfl⟩ := hnaming
        · refine .of_outcome (r := none) (n := n') ?_ (by simp)
          simp [collectFields, evaluateElement, fieldKey, outcome_bind, hv']
        · refine .bind_error (e := (failure.relocate ρ).within (.computedName className)) (n := n')
            ?_ ?_
          · simp [evaluateElement, fieldKey, hv', relocateOutcome, Except.mapError, Except.map,
              Activity.context]
          · rintro _ ⟨⟩
            exact ⟨[], _, rest, n, rfl, .name rfl hv, hn, hspares.hides⟩
        · refine hrest [e] (some { isStatic, record := { name := v.propertyKey, initializer } }) ?_
            (hm'.later hspares) hn (fun _ => rfl) fun h => h.cons hv
          simp [evaluateElement, fieldKey, hv', relocateOutcome, Except.mapError, Except.map]

end Elements

/-! ### Flaws -/

/-- The definition cannot begin: a field name that is written down is reserved, or the heritage is
not the class object of a registered class. -/
inductive ClassDefinition.Flawed (d : ClassDefinition) (m : Machine) : Prop
  | name {name : String} {isStatic : Bool} {initializer : Option Expr}
      (h : .field (.literal name) isStatic initializer ∈ d.elements)
      (hname : name ∈ reservedNames isStatic)
  | heritage {v : Value} (h : d.heritage = some v) (hv : ¬ v.IsClass m)

/-- The elements that declare a field under a reserved name. -/
theorem ClassElement.reserved?_eq_some {element : ClassElement} {isStatic : Bool}
    {name : String} : element.reserved? = some (isStatic, name) ↔
      name ∈ reservedNames isStatic ∧
        ∃ initializer, element = .field (.literal name) isStatic initializer := by
  rcases element with _ | ⟨name' | e, isStatic', initializer⟩
  · simp [reserved?]
  · simp only [reserved?]
    constructor
    · intro h
      split at h
      next hname =>
        obtain ⟨rfl, rfl⟩ := Prod.mk.inj (Option.some.inj h)
        exact ⟨hname, initializer, rfl⟩
      next => cases h
    · rintro ⟨hname, _, ⟨⟩⟩
      exact if_pos hname
  · simp [reserved?]

namespace ClassDefinition

variable {d : ClassDefinition} {m : Machine}

theorem exists_checkNames_iff : (∃ f, d.checkNames = .error f) ↔ ∃ name isStatic initializer,
    .field (.literal name) isStatic initializer ∈ d.elements ∧ name ∈ reservedNames isStatic := by
  have hfound : (∃ f, d.checkNames = .error f) ↔
      (d.elements.findSome? ClassElement.reserved?).isSome := by
    unfold checkNames
    cases d.elements.findSome? ClassElement.reserved? <;> simp
  rw [hfound, List.findSome?_isSome_iff]
  constructor
  · rintro ⟨element, helement, hsome⟩
    obtain ⟨⟨isStatic, name⟩, hreserved⟩ := Option.isSome_iff_exists.mp hsome
    obtain ⟨hname, initializer, rfl⟩ := ClassElement.reserved?_eq_some.mp hreserved
    exact ⟨name, isStatic, initializer, helement, hname⟩
  · rintro ⟨name, isStatic, initializer, helement, hname⟩
    refine ⟨_, helement, ?_⟩
    rw [ClassElement.reserved?_eq_some.mpr ⟨hname, initializer, rfl⟩]
    rfl

theorem exists_parent?_iff : (∃ f, d.parent? m = .error f) ↔
    ∃ v, d.heritage = some v ∧ ¬ (classOfValue? m v).isSome := by
  unfold parent?
  cases d.heritage with
  | none => simp
  | some v =>
    simp only [Option.some.injEq, exists_eq_left']
    cases classOfValue? m v <;> simp

/-- **The flawed definitions are the ones that are refused.** -/
theorem flawed_iff {settings : Settings} (hm : Occurs settings m) :
    d.Flawed m ↔ ∃ f, d.Refused m f := by
  constructor
  · rintro (⟨h, hname⟩ | ⟨h, hv⟩)
    · obtain ⟨f, hf⟩ := exists_checkNames_iff.mpr ⟨_, _, _, h, hname⟩
      exact ⟨f, .names hf⟩
    · obtain ⟨f, hf⟩ := exists_parent?_iff.mpr ⟨_, h, hm.classOfValue?_isSome_iff.not.mpr hv⟩
      rcases hnames : d.checkNames with f' | _
      · exact ⟨f', .names hnames⟩
      · exact ⟨f, .heritage hnames hf⟩
  · rintro ⟨f, hf | ⟨-, hf⟩⟩
    · obtain ⟨name, isStatic, initializer, h, hname⟩ := exists_checkNames_iff.mp ⟨f, hf⟩
      exact .name h hname
    · obtain ⟨v, h, hv⟩ := exists_parent?_iff.mp ⟨f, hf⟩
      exact .heritage h (hm.classOfValue?_isSome_iff.not.mp hv)

/-- The fault is a semantic one. -/
theorem Refused.kind? {f : Fault} (h : d.Refused m f) : f.kind? = some .semantic := by
  cases h with
  | names h =>
    obtain ⟨isStatic, name, rfl⟩ := d.checkNames_eq_error h
    rfl
  | heritage _ h =>
    obtain ⟨v, rfl⟩ := d.parent?_eq_error h
    rfl

end ClassDefinition

/-! ### The whole definition -/

/-- Everything older than the first machine that is the same on the second one is the same on the
third one. -/
structure Machine.AddsNothing (m n m' : Machine) : Prop where
  object : ∀ o < m.store.size, n.store.object o = m.store.object o →
    m'.store.object o = m.store.object o
  cls : ∀ id, n.registry.class? id = m.registry.class? id →
    m'.registry.class? id = m.registry.class? id
  name : ∀ name, m'.registry.classId? name = n.registry.classId? name

theorem Machine.Relocated.addsNothing {m n m' : Machine} (hm : m.Closed)
    (h : n.Relocated m.aside m.log m') : m.AddsNothing n m' := by
  have hold (o : ObjectId) (ho : Seen (fun _ => False) m.store.size o) : m.aside o = o :=
    aside_of_lt ho.1
  constructor
  case object =>
    intro o ho hsame
    have hobject := h.store.object o
    rw [aside_of_lt ho, hsame] at hobject
    exact hobject.trans ((hm.objects o ⟨ho, id⟩).relocate_eq_self hold)
  case cls =>
    intro id hsame
    rw [h.registry, Registry.class?_relocate, hsame]
    cases hc : m.registry.class? id with
    | none => rfl
    | some c => exact congrArg some ((hm.classes id c hc).relocate_eq_self hold)
  case name =>
    intro name
    rw [h.registry, Registry.classId?_relocate]

/-- How a definition that is not flawed leaves the machine if it fails before its class is
registered: as the computed names in front of the failing element would have left it, had there
been no definition. The two objects are the only ones that would not be there, and no reference
leads to them. -/
def LeavesNames (perform : Performer) (d : ClassDefinition) (m : Machine) (failure : Failure)
    (m' : Machine) : Prop :=
  ∃ before element after n, d.elements = before ++ element :: after ∧
    FailsAt perform m.aside d.displayName m.drawn n (computedNames before) element failure ∧
    n.Relocated m.aside m.log m' ∧ m'.Hides m.homes.Owns ∧ m.AddsNothing n m'

/-- **Definitions that fail before the class is registered.** At every moment of a program, an
object has the kind of a class exactly if it is the class object of that class. A flawed definition
fails at once with a semantic error, whatever client code would do, and nothing but the trace tells
of it; only flawed definitions are refused. A definition that is accepted can fail at a computed
name or at a static method or accessor called `prototype`, and leaves the machine as if a number had
been drawn and the computed names up to there had been evaluated in source order, apart from two
objects to which no reference leads. For this, no reference on the machine may dangle, and none does
on a machine that a program comes to (`ClassMachine.Occurs.closed`). -/
theorem failed_definition (settings : Settings) (d : ClassDefinition) :
    (∀ m, Occurs settings m →
      (∀ id c o, m.registry.class? id = some c →
        ((m.store.object o).kind = .classObject id ↔ o = c.classObject)) ∧
      (d.Flawed m → ∀ perform : Performer, ∃ f, f.kind? = some .semantic ∧
        (defineClass perform d).outcome m = (some (.error (.ofFault f)),
          { m with trace := .raised f :: .defining d.displayName :: m.trace })) ∧
      (¬ d.Flawed m → ∃ parent, d.Accepted m parent)) ∧
    ∀ (levels : Nat) (m : Machine), m.Closed → (∃ parent, d.Accepted m parent) →
      ∀ failure m', (prepareClass (interpret settings levels) d).outcome m =
          (some (.error failure), m') →
        (defineClass (interpret settings levels) d).outcome m = (some (.error failure), m') ∧
          LeavesNames (interpret settings levels) d m failure m' := by
  constructor
  · refine fun m hm => ⟨fun id c o hc => hm.kind_iff hc o, fun hflawed perform => ?_,
      fun hflawed => ?_⟩
    · obtain ⟨f, hf⟩ := (ClassDefinition.flawed_iff hm).mp hflawed
      refine ⟨f, hf.kind?, ?_⟩
      rw [defineClass, outcome_bind, outcome_prepareClass_of_refused hf]
      rfl
    · exact (d.refused_or_accepted m).resolve_left fun hf =>
        hflawed ((ClassDefinition.flawed_iff hm).mpr hf)
  · rintro levels m hm ⟨parent, hd⟩ failure m' h
    refine ⟨by rw [defineClass, outcome_bind, h], ?_⟩
    rcases hcollect : (collectFields (interpret settings levels) m.nextClass d.displayName m.homes
      d.elements).outcome (m.prepared d parent) with ⟨r, n'⟩
    rw [outcome_prepareClass_of_accepted hd hcollect, Prod.mk.injEq] at h
    obtain ⟨hr, rfl⟩ := h
    obtain rfl : r = some (.error failure) := by
      rcases r with _ | _ | _ <;> simp_all [Except.map]
    have hfails := collectFields_fails (interpret_follows settings levels)
      (interpret_keeps (step_keeps_reach settings) levels) (fun o ho => m.aside_ne ho)
      m.nextClass d.displayName d.elements (hm.receptive d parent) (hm.relocated_prepared d parent)
    rw [Action.Ensures, hcollect] at hfails
    obtain ⟨before, element, after, n, helements, hfails, hn, hhides⟩ := hfails failure rfl
    exact ⟨before, element, after, n, helements, hfails, hn, hhides, hn.addsNothing hm⟩

/-- A class with a static field under a reserved name: `class A { static prototype; }`. -/
def reservingClass : ClassDefinition where
  name := some "A"
  elements := [.field (.literal "prototype") true none]

/-- A class derived from something that is no class object: `class A extends null {}`. -/
def orphanClass : ClassDefinition where
  name := some "A"
  heritage := some .null
  elements := []

/-- A class with a computed name that makes an object, and then with a static getter called
`prototype`: `class A { [o = {}]; static get prototype() {} }`. -/
def overreachingClass : ClassDefinition where
  name := some "A"
  elements :=
    [.field (.computed (.assign "o" (.primitive .newObject [.literal .null]))) false none,
      .method "prototype" .getter true
        { id := 0, name := "get prototype", body := .literal .undefined }]

/-- Two of them are flawed, and the third one is accepted and fails after its computed name. -/
theorem failed_definition_of_overreachingClass :
    Occurs {} .initial ∧
    (reservingClass.Flawed .initial ∧ ∃ f, f.kind? = some .semantic ∧
      (defineClass (interpret {} 9) reservingClass).outcome .initial =
        (some (.error (.ofFault f)), { trace := [.raised f, .defining "A"] })) ∧
    (orphanClass.Flawed .initial ∧ ∃ f, f.kind? = some .semantic ∧
      (defineClass (interpret {} 9) orphanClass).outcome .initial =
        (some (.error (.ofFault f)), { trace := [.raised f, .defining "A"] })) ∧
    Machine.initial.Closed ∧ ¬ overreachingClass.Flawed .initial ∧ ∃ failure m',
      (prepareClass (interpret {} 9) overreachingClass).outcome .initial =
        (some (.error failure), m') ∧
      (defineClass (interpret {} 9) overreachingClass).outcome .initial =
        (some (.error failure), m') ∧
      LeavesNames (interpret {} 9) overreachingClass .initial failure m' := by
  have hinitial : Occurs {} .initial := .rest .initial
  have hreserving : reservingClass.Flawed .initial :=
    .name (List.mem_singleton.mpr rfl) (by decide)
  have horphan : orphanClass.Flawed .initial := .heritage rfl fun ⟨_, _, _, h⟩ => by cases h
  have hoverreaching : ¬ overreachingClass.Flawed .initial := by
    rintro (⟨h, hname⟩ | ⟨h, -⟩)
    · simp [overreachingClass] at h
    · cases h
  have hfails : failsWith (fun _ => true)
      ((prepareClass (interpret {} 9) overreachingClass).outcome .initial).1 = true := by
    decide +kernel
  obtain ⟨failure, m', h, -⟩ := exists_of_failsWith hfails
  obtain ⟨hrefused, -⟩ := ((failed_definition {} reservingClass).1 .initial hinitial).2
  obtain ⟨hrefused', -⟩ := ((failed_definition {} orphanClass).1 .initial hinitial).2
  obtain ⟨hatMoments, hfailed⟩ := failed_definition {} overreachingClass
  have haccepted := (hatMoments .initial hinitial).2.2 hoverreaching
  exact ⟨hinitial, ⟨hreserving, hrefused hreserving (interpret {} 9)⟩,
    ⟨horphan, hrefused' horphan (interpret {} 9)⟩, Machine.initial_closed, hoverreaching, failure,
    m', h, hfailed 9 .initial Machine.initial_closed haccepted failure m' h⟩

end ClassMachine
