import ClassMachine.Proofs.Operations

/-!
# The stages of a definition

A definition is prepared and then launched. This file takes the two halves apart, so that what is
known of the client code inside gives what is known of the whole.

Preparing begins with two checks. If one of them is not passed, the definition is refused
(`ClassMachine.ClassDefinition.Refused`) before anything has happened. Otherwise it gets a number
and its two objects, which are made one right after the other
(`ClassMachine.Machine.prepared`), and the elements are evaluated on the machine that has them.

Launching registers the class and installs its static fields on the machine that has it
(`ClassMachine.Machine.launched`); what is left to do then is to note the success, or to take the
registration back and let the failure go on (`ClassMachine.Machine.withdrawn`).

Main statements: `ClassMachine.prepareClass_ensures`, `ClassMachine.launchClass_ensures`.
-/

namespace ClassMachine

variable {perform : Performer}

/-! ### The two objects -/

/-- The class object of a new class: it owns its prototype for good, and its name. -/
def Object.ofClass (id : ClassId) (name : Option String) (prototype : ObjectId)
    (link : Option ObjectId) : Object where
  kind := .classObject id
  prototype := link
  keys := "prototype" :: (name.map fun _ => "name").toList
  properties :=
    let own := Std.ExtTreeMap.insert {} "prototype" (.data (.ref prototype) false false false)
    match name with
    | some name => own.insert "name" (.data (.str name) false false true)
    | none => own

/-- The prototype that a class object owns is fixed. -/
theorem Object.property?_ofClass_prototype (id : ClassId) (name : Option String)
    (prototype : ObjectId) (link : Option ObjectId) :
    (ofClass id name prototype link).property? "prototype" =
      some (.data (.ref prototype) false false false) := by
  cases name <;>
    simp only [ofClass, property?, Std.ExtTreeMap.getElem?_insert,
      Std.LawfulEqCmp.compare_eq_iff_eq] <;> simp

/-- Nothing else of it is. -/
theorem Object.property?_ofClass {id : ClassId} {name : Option String} {prototype : ObjectId}
    {link : Option ObjectId} {key : String} {p : Property}
    (h : (ofClass id name prototype link).property? key = some p) :
    key = "prototype" ∨ p.isConfigurable = true := by
  simp only [ofClass, property?] at h
  cases name <;>
    simp only [Std.ExtTreeMap.getElem?_insert, Std.LawfulEqCmp.compare_eq_iff_eq] at h <;>
    grind [Property.isConfigurable]

/-- Replacing the object that was made last is making another one. -/
theorem Store.put_add (s : Store) (o o' : Object) : (s.add o).2.put s.size o' = (s.add o').2 := by
  have h : (s.objects.push o).setIfInBounds s.objects.size o' = s.objects.push o' := by grind
  exact congrArg Store.mk h

namespace Machine

variable (m : Machine)

/-- The objects that the next class gets. -/
def homes : Homes :=
  { prototype := m.store.size, classObject := m.store.size + 1 }

/-- The machine with the two objects of a new class. -/
def withHomes (id : ClassId) (name : Option String) (parent : Option Class) : Machine :=
  let s := (m.store.add { kind := .ordinary, prototype := parent.map Class.prototype }).2
  { m with store := (s.add (.ofClass id name m.store.size (parent.map Class.classObject))).2 }

variable (id : ClassId) (name : Option String) (parent : Option Class)

@[simp] theorem size_withHomes : (m.withHomes id name parent).store.size = m.store.size + 2 := by
  simp [withHomes]

theorem object_withHomes (o : ObjectId) :
    (m.withHomes id name parent).store.object o =
      if o = m.homes.classObject then
        .ofClass id name m.homes.prototype (parent.map Class.classObject)
      else if o = m.homes.prototype then
        { kind := .ordinary, prototype := parent.map Class.prototype }
      else m.store.object o := by
  simp only [withHomes, Store.object_add, Store.size_add]
  rfl

theorem object_withHomes_classObject :
    (m.withHomes id name parent).store.object m.homes.classObject =
      .ofClass id name m.homes.prototype (parent.map Class.classObject) := by
  rw [object_withHomes, if_pos rfl]

theorem object_withHomes_prototype :
    (m.withHomes id name parent).store.object m.homes.prototype =
      { kind := .ordinary, prototype := parent.map Class.prototype } := by
  have hne : m.homes.prototype ≠ m.homes.classObject := Nat.ne_of_lt (Nat.lt_succ_self _)
  rw [object_withHomes, if_neg hne, if_pos rfl]

theorem object_withHomes_of_lt {o : ObjectId} (ho : o < m.store.size) :
    (m.withHomes id name parent).store.object o = m.store.object o := by
  have hprototype : o ≠ m.homes.prototype := Nat.ne_of_lt ho
  have hclassObject : o ≠ m.homes.classObject := Nat.ne_of_lt (Nat.lt_succ_of_lt ho)
  rw [object_withHomes, if_neg hclassObject, if_neg hprototype]

/-- **The two objects of a class** are made one right after the other. -/
theorem outcome_makeHomes :
    (makeHomes id name parent).outcome m =
      (some (.ok m.homes), m.withHomes id name parent) := by
  let made : Object := { kind := .classObject id, prototype := parent.map Class.classObject }
  let s : Store := (m.store.add { kind := .ordinary, prototype := parent.map Class.prototype }).2
  have hsize : s.size = m.store.size + 1 := Store.size_add ..
  -- what is defined on the class object replaces the object that was made last
  have hdefine {o o' : Object} {key : String} {p : Property} (h : o.define key p = .ok o') :
      (defineOn s.size key p).outcome { m with store := (s.add o).2 } =
        (some (.ok ⟨⟩), { m with store := (s.add o').2 }) := by
    have hobject : (s.add o).2.object s.size = o := by simp [Store.object_add]
    rw [outcome_defineOn]
    simp only [hobject, h, Store.put_add]
  have hprototype : made.define "prototype" (.data (.ref m.store.size) false false false) =
      .ok (.ofClass id none m.store.size (parent.map Class.classObject)) := rfl
  have hname (name : String) :
      (Object.ofClass id none m.store.size (parent.map Class.classObject)).define "name"
        (.data (.str name) false false true) =
      .ok (.ofClass id (some name) m.store.size (parent.map Class.classObject)) := by
    have hnone : (Object.ofClass id none m.store.size (parent.map Class.classObject)).property?
        "name" = none := by
      simp [Object.ofClass, Object.property?, Std.LawfulEqCmp.compare_eq_iff_eq]
    rw [Object.define, hnone]
    rfl
  cases name with
  | none =>
    have hmade : (makeHomes id none parent).outcome m =
        (defineOn s.size "prototype" (.data (.ref m.store.size) false false false) >>= fun _ =>
          pure { prototype := m.store.size, classObject := s.size }).outcome
          { m with store := (s.add made).2 } := rfl
    rw [hmade, outcome_bind, hdefine hprototype]
    simp only [outcome_pure, hsize]
    rfl
  | some name =>
    have hmade : (makeHomes id (some name) parent).outcome m =
        (defineOn s.size "prototype" (.data (.ref m.store.size) false false false) >>= fun _ =>
          defineOn s.size "name" (.data (.str name) false false true) >>= fun _ =>
            pure { prototype := m.store.size, classObject := s.size }).outcome
          { m with store := (s.add made).2 } := rfl
    rw [hmade, outcome_bind, hdefine hprototype]
    simp only [outcome_bind]
    rw [hdefine (hname name)]
    simp only [outcome_pure, hsize]
    rfl

end Machine

/-! ### Preparing -/

/-- The definition does not pass one of the two checks. -/
inductive ClassDefinition.Refused (d : ClassDefinition) (m : Machine) (f : Fault) : Prop
  | names (h : d.checkNames = .error f)
  | heritage (hnames : d.checkNames = .ok ⟨⟩) (h : d.parent? m = .error f)

/-- The definition passes both checks and has this parent, or none. -/
def ClassDefinition.Accepted (d : ClassDefinition) (m : Machine) (parent : Option Class) : Prop :=
  d.checkNames = .ok ⟨⟩ ∧ d.parent? m = .ok parent

/-- The parent of a definition is there. -/
theorem ClassDefinition.parent?_eq_ok {d : ClassDefinition} {m : Machine} {parent : Option Class}
    (h : d.parent? m = .ok parent) {c : Class} (hc : c ∈ parent) :
    ∃ id, m.registry.class? id = some c := by
  obtain rfl : parent = some c := hc
  unfold parent? at h
  split at h
  next => simp at h
  next =>
    split at h
    next c' hc' =>
      obtain rfl : c' = c := by simpa using h
      unfold classOfValue? at hc'
      split at hc'
      next => split at hc' <;> first | exact ⟨_, hc'⟩ | simp at hc'
      next => simp at hc'
    next => simp at h

theorem ClassDefinition.Refused.not_lost {d : ClassDefinition} {m : Machine} {f : Fault}
    (h : d.Refused m f) : f ≠ .frameLost := by
  cases h with
  | names h =>
    obtain ⟨isStatic, name, rfl⟩ := d.checkNames_eq_error h
    simp
  | heritage _ h =>
    obtain ⟨v, rfl⟩ := d.parent?_eq_error h
    simp

/-- A definition is refused or accepted. -/
theorem ClassDefinition.refused_or_accepted (d : ClassDefinition) (m : Machine) :
    (∃ f, d.Refused m f) ∨ ∃ parent, d.Accepted m parent := by
  rcases hnames : d.checkNames with f | _
  · exact .inl ⟨f, .names hnames⟩
  rcases hparent : d.parent? m with f | parent
  · exact .inl ⟨f, .heritage hnames hparent⟩
  · exact .inr ⟨parent, hnames, hparent⟩

theorem ClassDefinition.Refused.not_accepted {d : ClassDefinition} {m : Machine} {f : Fault}
    (h : d.Refused m f) {parent : Option Class} : ¬ d.Accepted m parent := by
  rintro ⟨hnames, hparent⟩
  cases h with
  | names h => simp [hnames] at h
  | heritage _ h => simp [hparent] at h

theorem ClassDefinition.Refused.unique {d : ClassDefinition} {m : Machine} {f f' : Fault}
    (h : d.Refused m f) (h' : d.Refused m f') : f' = f := by
  cases h <;> cases h' <;> simp_all

namespace Machine

/-- The number that the next class gets. -/
def nextClass (m : Machine) : ClassId :=
  m.registry.lastId + 1

/-- The machine that has refused a definition. -/
def refused (m : Machine) (className : String) (f : Fault) : Machine :=
  (Effect.note (.raised f)).apply ((Effect.note (.defining className)).apply m)

/-- The machine that has drawn a number for a definition. -/
def numbered (m : Machine) (className : String) : Machine :=
  (Effect.note (.numbered m.nextClass)).apply
    (Effect.draw.apply ((Effect.note (.defining className)).apply m))

/-- The machine that is to evaluate the elements of a definition. -/
def prepared (m : Machine) (d : ClassDefinition) (parent : Option Class) : Machine :=
  (m.numbered d.displayName).withHomes m.nextClass d.name parent

/-- The machine that is to install the static fields of a class. -/
def launched (m : Machine) (c : Class) : Machine :=
  (Effect.note (.registered c)).apply ((Effect.register c).apply m)

/-- The machine that has defined a class. -/
def completed (m : Machine) (id : ClassId) : Machine :=
  (Effect.note (.completed id)).apply m

/-- The machine that has taken a registration back. -/
def withdrawn (m : Machine) (id : ClassId) (shadowed : Option ClassId) : Machine :=
  (Effect.note (.withdrawn id (m.registry.hasSubclass id))).apply
    ((Effect.withdraw id shadowed).apply m)

end Machine

/-- An answer that was made of another one. -/
theorem eq_ok_of_map {α β : Type} {r : Option (Except Failure α)} {g : α → β} {b : β}
    (h : r.map (Except.map g) = some (.ok b)) : ∃ a, r = some (.ok a) ∧ g a = b := by
  rcases r with _ | e | a <;> simp_all [Except.map]

/-- If an element fails, the elements do, however many there are behind it. -/
theorem outcome_collectFields_of_error {cls : ClassId} {className : String} {homes : Homes}
    {before : List ClassElement} {m m₁ : Machine} {fields : List DeclaredField}
    (hbefore : (collectFields perform cls className homes before).outcome m =
      (some (.ok fields), m₁)) {element : ClassElement} {failure : Failure} {m₂ : Machine}
    (helement : (evaluateElement perform cls className homes element).outcome m₁ =
      (some (.error failure), m₂)) (after : List ClassElement) :
    (collectFields perform cls className homes (before ++ element :: after)).outcome m =
      (some (.error failure), m₂) := by
  induction before generalizing m fields with
  | nil =>
    obtain ⟨-, rfl⟩ := Prod.mk.inj hbefore
    rw [List.nil_append, collectFields, outcome_bind, helement]
  | cons first rest ih =>
    -- the first of them has succeeded, and so have the others
    rw [collectFields, outcome_bind] at hbefore
    rw [List.cons_append, collectFields, outcome_bind]
    rcases hfirst : (evaluateElement perform cls className homes first).outcome m with
      ⟨_ | e | a, n⟩ <;> rw [hfirst] at hbefore
    · simp at hbefore
    · simp at hbefore
    rcases hrest : (collectFields perform cls className homes rest).outcome n with
      ⟨_ | e | b, n'⟩ <;> simp only [outcome_bind, hrest] at hbefore
    · simp at hbefore
    · simp at hbefore
    · obtain ⟨-, rfl⟩ := Prod.mk.inj hbefore
      simp only [outcome_bind, ih hrest]

/-- **What is ensured when a definition is prepared**: it is refused, or it is what the
evaluation of its elements makes of it. -/
theorem prepareClass_ensures {d : ClassDefinition} {m : Machine}
    {Q : Option (Except Failure Class) → Machine → Prop}
    (hrefused : ∀ f, d.Refused m f →
      Q (some (.error (.ofFault f))) (m.refused d.displayName f))
    (hcollect : ∀ parent, d.Accepted m parent →
      (collectFields perform m.nextClass d.displayName m.homes d.elements).Ensures
        (m.prepared d parent) fun r m' =>
          Q (r.map (Except.map (d.toClass m.nextClass parent m.homes))) m') :
    (prepareClass perform d).Ensures m Q := by
  let m₁ : Machine := (Effect.note (.defining d.displayName)).apply m
  refine .bind_ok (n := m₁) rfl ?_
  rcases hnames : d.checkNames with f | _
  · exact .bind_error (n := m.refused d.displayName f) rfl (hrefused f (.names hnames))
  refine .bind_ok (a := ⟨⟩) (n := m₁) rfl (.bind_ok (a := m₁) (n := m₁) rfl ?_)
  have hsame : d.parent? m₁ = d.parent? m := rfl
  rcases hparent : d.parent? m₁ with f | parent
  · exact .bind_error (n := m.refused d.displayName f) rfl
      (hrefused f (.heritage hnames (hsame ▸ hparent)))
  refine .bind_ok (a := parent) (n := m₁) rfl (.bind_ok (a := m.nextClass)
    (n := m.numbered d.displayName) rfl (.bind_ok (Machine.outcome_makeHomes ..) ?_))
  have h := hcollect parent ⟨hnames, hsame ▸ hparent⟩
  exact Action.Ensures.bind h (fun fields m' _ h => .of_outcome rfl h) (fun _ _ h => h)
    fun _ h => h

/-- **What comes of a definition that is refused.** -/
theorem outcome_prepareClass_of_refused {d : ClassDefinition} {m : Machine} {f : Fault}
    (h : d.Refused m f) : (prepareClass perform d).outcome m =
      (some (.error (.ofFault f)), m.refused d.displayName f) := by
  have hprepare : (prepareClass perform d).Ensures m fun r m' =>
      (r, m') = (some (.error (.ofFault f)), m.refused d.displayName f) := by
    refine prepareClass_ensures (fun f' hf' => ?_) fun parent hd => absurd hd h.not_accepted
    rw [h.unique hf']
  exact hprepare

/-- **What comes of one that is accepted** is what its elements make of it. -/
theorem outcome_prepareClass_of_accepted {d : ClassDefinition} {m m' : Machine}
    {parent : Option Class} (h : d.Accepted m parent)
    {r : Option (Except Failure (List DeclaredField))}
    (hcollect : (collectFields perform m.nextClass d.displayName m.homes d.elements).outcome
      (m.prepared d parent) = (r, m')) :
    (prepareClass perform d).outcome m =
      (r.map (Except.map (d.toClass m.nextClass parent m.homes)), m') := by
  have hprepare : (prepareClass perform d).Ensures m fun r' m'' =>
      (r', m'') = (r.map (Except.map (d.toClass m.nextClass parent m.homes)), m') := by
    refine prepareClass_ensures (fun f hf => absurd h hf.not_accepted) fun parent' hd => ?_
    obtain rfl : parent' = parent := by simpa [hd.2] using h.2
    exact .of_outcome hcollect rfl
  exact hprepare

/-- **What is ensured when a definition is launched**, given what is ensured of its static
fields. -/
theorem launchClass_ensures {c : Class} {m : Machine}
    {P : Option (Except Failure Unit) → Machine → Prop}
    {Q : Option (Except Failure ClassId) → Machine → Prop}
    (hinstall : (installFields perform (.staticField c.id c.displayName c.classObject) c.classObject
      c.staticFields).Ensures (m.launched c) P)
    (hok : ∀ m', P (some (.ok ⟨⟩)) m' → Q (some (.ok c.id)) (m'.completed c.id))
    (herror : ∀ e m', P (some (.error e)) m' →
      Q (some (.error e)) (m'.withdrawn c.id (m.registry.register c).1))
    (hbroken : ∀ m', P none m' → Q none m') : (launchClass perform c).Ensures m Q := by
  refine .bind_ok (a := (m.registry.register c).1) (n := m.launched c) rfl ?_
  refine hinstall.bind_observe (fun r m' _ h => ?_) hbroken
  cases r with
  | ok _ => exact .of_outcome rfl (hok m' h)
  | error e => exact .of_outcome rfl (herror e m' h)

end ClassMachine
