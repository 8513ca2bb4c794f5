import ClassMachine.Proofs.Chronicle

/-!
# The names of the registry

A name belongs to the class that was registered under it last, withdrawn classes
aside: `ClassMachine.Chronicle.holder?`. The registry gets at this class in another
way. It remembers, for the class that is being defined, which class it shadows, and
puts that one back when the definition fails. The two agree
(`ClassMachine.Registry.NamesFollow.withdraw`) because nothing that was registered
before a definition is withdrawn during it, so what was shadowed then is still what is
to be put back.
-/

namespace ClassMachine

namespace Chronicle

/-! ### The newest class of a name -/

/-- The class whose definition the event says to have succeeded. -/
def completed? : Event → Option ClassId
  | .completed id => some id
  | _ => none

/-- The class of which the event takes the registration back. -/
def withdrawn? : Event → Option ClassId
  | .withdrawn id _ => some id
  | _ => none

instance (H : Chronicle) (id : ClassId) : Decidable (Completed H id) :=
  decidable_of_iff (id ∈ H.filterMap completed?) <| by
    simp only [List.mem_filterMap, Completed]
    refine ⟨?_, fun h => ⟨_, h, rfl⟩⟩
    rintro ⟨e, he, h⟩
    cases e <;> simp only [completed?, Option.some.injEq, reduceCtorEq] at h
    exact h ▸ he

instance (H : Chronicle) (id : ClassId) : Decidable (Withdrawn H id) :=
  decidable_of_iff (id ∈ H.filterMap withdrawn?) <| by
    simp only [List.mem_filterMap, Withdrawn]
    refine ⟨?_, fun ⟨kept, h⟩ => ⟨_, h, rfl⟩⟩
    rintro ⟨e, he, h⟩
    cases e <;> simp only [withdrawn?, Option.some.injEq, reduceCtorEq] at h
    exact ⟨_, h ▸ he⟩

/-- The class of that name and with that property that was registered last. -/
def newest? (P : ClassId → Prop) [DecidablePred P] (H : Chronicle) (name : String) :
    Option ClassId :=
  H.findSome? fun
    | .registered c => if c.name = some name ∧ P c.id then some c.id else none
    | _ => none

/-- The class to which a name belongs. -/
def holder? (H : Chronicle) (name : String) : Option ClassId :=
  newest? (fun id => ¬ Withdrawn H id) H name

section Newest

variable {P Q : ClassId → Prop} [DecidablePred P] [DecidablePred Q] {H H' : Chronicle}
  {name : String}

@[simp] theorem newest?_registered {c : Class} :
    newest? P (.registered c :: H) name =
      if c.name = some name ∧ P c.id then some c.id else newest? P H name := by
  simp only [newest?, List.findSome?_cons]
  by_cases hc : c.name = some name ∧ P c.id <;> simp [hc]

/-- An event that registers nothing. -/
theorem newest?_cons {e : Event} (he : e.class? = none) :
    newest? P (e :: H) name = newest? P H name := by
  cases e <;> first | rfl | simp [Event.class?] at he

theorem newest?_append :
    newest? P (H' ++ H) name = (newest? P H' name).or (newest? P H name) :=
  List.findSome?_append

theorem newest?_congr (h : ∀ c, .registered c ∈ H → (P c.id ↔ Q c.id)) :
    newest? P H name = newest? Q H name := by
  induction H with
  | nil => rfl
  | cons e H ih =>
    have ih := ih fun c hc => h c (by simp [hc])
    cases e with
    | registered c => simp only [newest?_registered, h c (by simp), ih]
    | _ => exact ih

theorem newest?_eq_some {id : ClassId} (h : newest? P H name = some id) :
    ∃ c, .registered c ∈ H ∧ c.name = some name ∧ c.id = id ∧ P id := by
  obtain ⟨e, he, hid⟩ := List.exists_of_findSome?_eq_some h
  split at hid
  next c =>
    split at hid
    next hc =>
      obtain rfl : c.id = id := by simpa using hid
      exact ⟨c, he, hc.1, rfl, hc.2⟩
    next => simp at hid
  next => simp at hid

end Newest

/-! ### Who holds a name -/

variable {H H' : Chronicle} {name : String}

/-- An event that registers nothing and takes nothing back. -/
theorem holder?_cons {e : Event} (he : e.class? = none) (hw : withdrawn? e = none) :
    holder? (e :: H) name = holder? H name := by
  rw [holder?, newest?_cons he]
  refine newest?_congr fun c _ => ?_
  cases e <;> simp_all [withdrawn?]

theorem holder?_registered {c : Class} (hc : ¬ Withdrawn H c.id) :
    holder? (.registered c :: H) name =
      if c.name = some name then some c.id else holder? H name := by
  have hw : ¬ Withdrawn (.registered c :: H) c.id := by simpa using hc
  rw [holder?, newest?_registered]
  simp only [hw, not_false_eq_true, and_true]
  split
  · rfl
  · exact newest?_congr fun c' _ => by simp

/-- What is registered later comes first, as long as nothing older is withdrawn. -/
theorem holder?_append (h : ∀ c, .registered c ∈ H → ¬ Withdrawn H' c.id) :
    holder? (H' ++ H) name =
      (newest? (fun id => ¬ Withdrawn (H' ++ H) id) H' name).or (holder? H name) := by
  rw [holder?, newest?_append]
  congr 1
  refine newest?_congr fun c hc => ?_
  have := h c hc
  simp_all [Withdrawn]

section Since

variable {H₁ H₀ : Chronicle} {c : Class} (hH : H = H₁ ++ .registered c :: H₀)
  (hw : ¬ Withdrawn H c.id) (hsince : ∀ c', .registered c' ∈ H₀ → ¬ Withdrawn H₁ c'.id)

include hH hw hsince

/-- Who holds a name while a class is there that was registered in between. -/
theorem holder?_since : holder? H name =
    (newest? (fun id => ¬ Withdrawn H id) H₁ name).or
      (if c.name = some name then some c.id else holder? H₀ name) := by
  have hw₀ : ¬ Withdrawn H₀ c.id := fun h₀ => hw (hH ▸ by simp_all [Withdrawn])
  rw [← holder?_registered hw₀]
  subst hH
  refine holder?_append fun c' hc' => ?_
  obtain rfl | hc' : c' = c ∨ .registered c' ∈ H₀ := by simpa using hc'
  · intro h₁
    exact hw (by simp_all [Withdrawn])
  · exact hsince c' hc'

omit hw in
/-- Who holds a name once this class has been withdrawn. -/
theorem holder?_withdrawn (kept : Bool)
    (hnew : ∀ c', .registered c' ∈ H₁ ∨ .registered c' ∈ H₀ → c'.id ≠ c.id) :
    holder? (.withdrawn c.id kept :: H) name =
      (newest? (fun id => ¬ Withdrawn H id) H₁ name).or (holder? H₀ name) := by
  have happend : Event.withdrawn c.id kept :: H =
      (.withdrawn c.id kept :: H₁ ++ [.registered c]) ++ H₀ := by simp [hH]
  rw [happend, holder?_append, ← happend, newest?_append, newest?_cons rfl, newest?_registered]
  · have hself : Withdrawn (.withdrawn c.id kept :: H) c.id := by simp
    have hothers : newest? (fun id => ¬ Withdrawn (.withdrawn c.id kept :: H) id) H₁ name =
        newest? (fun id => ¬ Withdrawn H id) H₁ name :=
      newest?_congr fun c' hc' => by simp [(hnew c' (.inl hc')).symm]
    simp only [hself, not_true_eq_false, and_false, if_false]
    rw [hothers]
    simp [newest?]
  · intro c' hc'
    have hne : c.id ≠ c'.id := (hnew c' (.inr hc')).symm
    have := hsince c' hc'
    simp_all [Withdrawn]

end Since

end Chronicle

open Chronicle

/-! ### The name table -/

/-- Each name belongs to the class that the chronicle says. -/
def Registry.NamesFollow (r : Registry) (H : Chronicle) : Prop :=
  ∀ name, r.classId? name = holder? H name

namespace Registry.NamesFollow

variable {r : Registry} {H : Chronicle} (h : r.NamesFollow H)

include h

theorem number : r.drawId.2.NamesFollow (.numbered r.drawId.1 :: H) := fun name =>
  (h name).trans (holder?_cons rfl rfl).symm

theorem register {c : Class} (hc : ¬ Withdrawn H c.id) :
    (r.register c).2.NamesFollow (.registered c :: H) := by
  intro name
  rw [classId?_register, holder?_registered hc, h name]

theorem complete (id : ClassId) : r.NamesFollow (.completed id :: H) := fun name =>
  (h name).trans (holder?_cons rfl rfl).symm

theorem replace (c : Class) (id : ClassId) (field : String) (initializer : Option Expr) :
    (r.put c).NamesFollow (.replaced id field initializer :: H) := fun name =>
  (h name).trans (holder?_cons rfl rfl).symm

/-- Withdrawing a class gives its name back to the class that had it when this one was
registered, if all that has been withdrawn since has been registered since. -/
theorem withdraw {H₁ H₀ : Chronicle} {c : Class} {shadowed : Option ClassId} (kept : Bool)
    (hH : H = H₁ ++ .registered c :: H₀) (hname : (r.class? c.id).bind Class.name = c.name)
    (hnew : ∀ c', .registered c' ∈ H₁ ∨ .registered c' ∈ H₀ → c'.id ≠ c.id)
    (hw : ¬ Withdrawn H c.id) (hsince : ∀ c', .registered c' ∈ H₀ → ¬ Withdrawn H₁ c'.id)
    (hshadowed : ∀ name, c.name = some name → shadowed = holder? H₀ name) :
    (r.withdraw c.id shadowed).NamesFollow (.withdrawn c.id kept :: H) := by
  intro name
  rw [classId?_withdraw, hname, h name, holder?_withdrawn hH hsince kept hnew,
    holder?_since hH hw hsince]
  cases hyounger : newest? (fun id => ¬ Withdrawn H id) H₁ name with
  | some y =>
    -- a younger class has the name, and keeps it
    obtain ⟨c', hc', -, rfl, -⟩ := newest?_eq_some hyounger
    simp [hnew c' (.inl hc')]
  | none =>
    by_cases hn : c.name = some name
    · simp [hn, hshadowed name hn]
    · simp [hn]

end Registry.NamesFollow

end ClassMachine
