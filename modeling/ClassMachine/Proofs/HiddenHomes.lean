import ClassMachine.Proofs.ConfinedRuns

/-!
# The two objects of a class before it is registered

While the elements of a definition are evaluated, the prototype and the class object are there,
but no reference leads to them. So the computed names cannot close them nor fix a property of
theirs, and each method finds its object as the methods before have left it
(`ClassMachine.Machine.Receptive`). It is taken, unless it is a static one called `prototype`:
that property is fixed from the beginning.

Main statements: `ClassMachine.Machine.Closed.receptive`,
`ClassMachine.Machine.Receptive.outcome_defineMethod`.
-/

namespace ClassMachine

/-- The object is one of the two. -/
def Homes.Owns (homes : Homes) (o : ObjectId) : Prop :=
  o = homes.prototype ∨ o = homes.classObject

theorem Homes.owns_home (homes : Homes) (isStatic : Bool) : homes.Owns (homes.home isStatic) := by
  cases isStatic
  · exact .inl rfl
  · exact .inr rfl

/-- The element is a method or accessor that would take the place of the prototype on the class
object. -/
def ClassElement.replacesPrototype : ClassElement → Bool
  | .method name _ isStatic _ => isStatic && name == "prototype"
  | .field .. => false

/-- No reference leads to the two objects, and they take every property but one: the property
`prototype` of the class object is fixed. -/
structure Machine.Receptive (m : Machine) (homes : Homes) : Prop where
  hides : m.Hides homes.Owns
  distinct : homes.prototype ≠ homes.classObject
  extensible : ∀ o, homes.Owns o → (m.store.object o).extensible = true
  configurable : ∀ o, homes.Owns o → ∀ key p, (m.store.object o).property? key = some p →
    p.isConfigurable = true ∨ o = homes.classObject ∧ key = "prototype"
  fixed : ∃ p, (m.store.object homes.classObject).property? "prototype" = some p ∧
    p.isConfigurable = false

/-! ### A new class -/

section New

variable {m : Machine} {d : ClassDefinition} {parent : Option Class}

/-- What leads nowhere but to older objects does not lead to the new ones. -/
theorem Machine.seen_homes {o : ObjectId} (h : Seen (fun _ => False) m.store.size o) :
    Seen m.homes.Owns (m.store.size + 2) o := by
  refine ⟨Nat.lt_of_lt_of_le h.1 (Nat.le_add_right _ 2), ?_⟩
  rintro (rfl | rfl)
  · exact Nat.lt_irrefl _ h.1
  · exact Nat.not_succ_lt_self h.1

theorem Machine.Closed.hides_prepared (hm : m.Closed) :
    (m.prepared d parent).Hides m.homes.Owns := by
  have hsize : (m.prepared d parent).store.size = m.store.size + 2 := size_withHomes ..
  refine ⟨?_, fun o ho => ?_, ?_, ?_, ?_⟩
  all_goals rw [hsize] at *
  · rintro o (rfl | rfl)
    · exact Nat.lt_add_of_pos_right (Nat.succ_pos 1)
    · exact Nat.lt_succ_self _
  · -- an object that is seen is an older one
    have hold {k n : Nat} (h : k < n + 2) (h₀ : k ≠ n) (h₁ : k ≠ n + 1) : k < n := by omega
    have hlt : o < m.store.size := hold ho.1 (fun h => ho.2 (.inl h)) fun h => ho.2 (.inr h)
    have hobject : (m.prepared d parent).store.object o = m.store.object o :=
      (m.numbered d.displayName).object_withHomes_of_lt m.nextClass d.name parent hlt
    rw [hobject]
    exact (hm.objects o ⟨hlt, id⟩).imp fun _ => seen_homes
  · exact fun name v hv => (hm.registers name v hv).imp fun _ => seen_homes
  · exact fun f hf => (hm.frames f hf).imp fun _ => seen_homes
  · exact fun id c hc => (hm.classes id c hc).imp fun _ => seen_homes

/-- **No reference leads to the objects of a new class**, and they take every method but a
static one called `prototype`. -/
theorem Machine.Closed.receptive (hm : m.Closed) (d : ClassDefinition) (parent : Option Class) :
    (m.prepared d parent).Receptive m.homes := by
  have hclassObject : (m.prepared d parent).store.object m.homes.classObject =
      .ofClass m.nextClass d.name m.homes.prototype (parent.map Class.classObject) :=
    (m.numbered d.displayName).object_withHomes_classObject m.nextClass d.name parent
  have hprototype : (m.prepared d parent).store.object m.homes.prototype =
      { kind := .ordinary, prototype := parent.map Class.prototype } :=
    (m.numbered d.displayName).object_withHomes_prototype m.nextClass d.name parent
  refine ⟨hm.hides_prepared, Nat.ne_of_lt (Nat.lt_succ_self _), ?_, ?_, ?_⟩
  · rintro o (rfl | rfl)
    · rw [hprototype]
    · rw [hclassObject]
      rfl
  · rintro o (rfl | rfl) key p hp
    · simp [hprototype, Object.property?] at hp
    · rw [hclassObject] at hp
      rcases Object.property?_ofClass hp with hkey | hconfigurable
      · exact .inr ⟨rfl, hkey⟩
      · exact .inl hconfigurable
  · exact ⟨_, by rw [hclassObject, Object.property?_ofClass_prototype], rfl⟩

end New

/-! ### Methods -/

/-- The machine that has put a method onto its object. -/
def Machine.withMethod (m : Machine) (homes : Homes) (name : String) (kind : MethodKind)
    (isStatic : Bool) (f : Function) : Machine :=
  (Effect.define (homes.home isStatic) name
    (.ofMethod kind f ((m.store.object (homes.home isStatic)).property? name))).apply m

namespace Machine.Receptive

variable {m m' : Machine} {homes : Homes} (h : m.Receptive homes)

include h

/-- What spares the hidden objects leaves them as they are. -/
theorem later (h' : m.Spares homes.Owns m') : m'.Receptive homes where
  hides := h'.hides
  distinct := h.distinct
  extensible o ho := by
    rw [h'.same o ho]
    exact h.extensible o ho
  configurable o ho := by
    rw [h'.same o ho]
    exact h.configurable o ho
  fixed := by
    rw [h'.same _ (.inr rfl)]
    exact h.fixed

/-- The objects take a property. -/
theorem define_ok {o : ObjectId} (ho : homes.Owns o) {key : String}
    (hkey : ¬ (o = homes.classObject ∧ key = "prototype")) (p : Property) :
    ∃ o', (m.store.object o).define key p = .ok o' := by
  cases hdefine : (m.store.object o).define key p with
  | ok o' => exact ⟨o', rfl⟩
  | error f =>
    rcases Object.define_eq_error_iff.mp ⟨f, hdefine⟩ with ⟨old, hold, hfixed⟩ | ⟨-, hclosed⟩
    · have hconfigurable := (h.configurable o ho key old hold).resolve_right hkey
      rw [hconfigurable] at hfixed
      cases hfixed
    · rw [h.extensible o ho] at hclosed
      cases hclosed

/-- And are as before then. -/
theorem define {o : ObjectId} (ho : homes.Owns o) {key : String}
    (hkey : ¬ (o = homes.classObject ∧ key = "prototype")) {p : Property}
    (hp : p.isConfigurable = true) : ((Effect.define o key p).apply m).Receptive homes := by
  obtain ⟨o', hdefine⟩ := h.define_ok ho hkey p
  have heffect : (Effect.define o key p).apply m = { m with store := m.store.put o o' } := by
    simp only [Effect.apply, hdefine]
  rw [heffect]
  refine ⟨h.hides.put_hidden ho o', h.distinct, fun x hx => ?_, fun x hx key' p' hp' => ?_, ?_⟩
  · rw [Store.object_put]
    split
    · rw [Object.extensible_define hdefine]
      exact h.extensible o ho
    · exact h.extensible x hx
  · rw [Store.object_put] at hp'
    split at hp'
    next heq =>
      obtain ⟨rfl, -⟩ := heq
      rw [Object.property?_of_define hdefine] at hp'
      split at hp'
      · obtain rfl := Option.some.inj hp'
        exact .inl hp
      · exact h.configurable x hx key' p' hp'
    next => exact h.configurable x hx key' p' hp'
  · obtain ⟨old, hold, hfixed⟩ := h.fixed
    refine ⟨old, ?_, hfixed⟩
    rw [Store.object_put]
    split
    next heq =>
      obtain ⟨rfl, -⟩ := heq
      rw [Object.property?_of_define hdefine, if_neg fun heq => hkey ⟨rfl, heq⟩, hold]
    next => exact hold

/-- **A method is taken**, unless it would take the place of the prototype on the class
object. -/
theorem outcome_defineMethod (name : String) (kind : MethodKind) (isStatic : Bool) (f : Function) :
    if (ClassElement.method name kind isStatic f).replacesPrototype then
      (defineMethod (homes.home isStatic) name kind f).outcome m =
        (some (.error (.ofFault (.notConfigurable "prototype"))),
          (Effect.note (.raised (.notConfigurable "prototype"))).apply m)
    else (defineMethod (homes.home isStatic) name kind f).outcome m =
        (some (.ok ⟨⟩), m.withMethod homes name kind isStatic f) ∧
      (m.withMethod homes name kind isStatic f).Receptive homes := by
  let p := Property.ofMethod kind f ((m.store.object (homes.home isStatic)).property? name)
  have hmethod : (defineMethod (homes.home isStatic) name kind f).outcome m =
      (defineOn (homes.home isStatic) name p).outcome m := outcome_defineMethod_eq ..
  have hp : p.isConfigurable = true := by
    cases kind <;> rfl
  rw [hmethod, outcome_defineOn]
  split
  next hreplaces =>
    simp only [ClassElement.replacesPrototype, Bool.and_eq_true, beq_iff_eq] at hreplaces
    obtain ⟨rfl, rfl⟩ := hreplaces
    obtain ⟨old, hold, hfixed⟩ := h.fixed
    have hrefused : (m.store.object (homes.home true)).define "prototype" p =
        .error (.notConfigurable "prototype") := by
      simp [Object.define, show homes.home true = homes.classObject from rfl, hold, hfixed]
    rw [hrefused]
    rfl
  next hreplaces =>
    have hkey : ¬ (homes.home isStatic = homes.classObject ∧ name = "prototype") := by
      rintro ⟨hhome, rfl⟩
      cases isStatic with
      | false => exact h.distinct hhome
      | true => simp [ClassElement.replacesPrototype] at hreplaces
    obtain ⟨o', hdefine⟩ := h.define_ok (homes.owns_home isStatic) hkey p
    refine ⟨?_, h.define (homes.owns_home isStatic) hkey hp⟩
    simp only [Machine.withMethod, Effect.apply]
    rw [hdefine]

end Machine.Receptive

end ClassMachine
