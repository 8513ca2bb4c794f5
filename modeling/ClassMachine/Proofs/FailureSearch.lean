import ClassMachine.Proofs.Failures

/-!
# Searching a failure

A client can look for a kind of fault in a failure, from the outside inwards. All layers above the
cause are layers of activities, which are of one of the six kinds. So the outermost layer that has
a kind, which is where a search begins, is the outermost layer of all. The next and last layer
that it looks at is the cause (`ClassMachine.Failure.search?_eq`).

This is a search of the whole failure as long as there is at most one activity between the cause
and the client. An activity inside another one gives a layer between the two ends, and a search
does not come by there. Definitions and constructions inside each other give as many such layers
as one likes.

Main statement: `ClassMachine.failure_search`.
-/

namespace ClassMachine

/-! ### Conditions on layers -/

/-- Is the fault of one of the six kinds, and does the condition hold of its kind and wording? -/
def Fault.meets (f : Fault) (p : FaultKind → String → Bool) : Bool :=
  f.kind?.any fun kind => p kind f.wording

namespace Failure

variable (e : Failure)

/-- The first visible layer that meets the condition, which may be one on the wording too. -/
def search? (p : FaultKind → String → Bool) : Option Fault :=
  e.visible.find? fun f => f.meets p

theorem find?_eq_search? (p : FaultKind → Bool) : e.find? p = e.search? fun kind _ => p kind := rfl

/-- The layers between the outermost one and the cause. -/
def between : List Fault :=
  e.contexts.tail

variable {e}

/-- If all layers above the cause have a kind, a search looks at the two ends. -/
theorem search?_eq (h : ∀ f ∈ e.contexts, f.kind?.isSome) (p : FaultKind → String → Bool) :
    e.search? p = [e.outermost, e.cause].find? fun f => f.meets p := by
  obtain ⟨_ | ⟨context, contexts⟩, cause⟩ := e
  · -- the two ends are the same layer, and without a kind it is looked at once only
    cases hkind : cause.kind? <;>
      simp [search?, visible, layers, outermost, hkind, Fault.meets, List.find?_cons]
  · have hcontext : context.kind?.isSome := h context List.mem_cons_self
    simp [search?, visible, layers, outermost, hcontext]

/-- Nothing is overlooked if there is nothing to be found between the ends. -/
theorem find?_layers_of_between {q : Fault → Bool} (h : ∀ f ∈ e.between, q f = false) :
    e.layers.find? q = [e.outermost, e.cause].find? q := by
  obtain ⟨_ | ⟨context, contexts⟩, cause⟩ := e
  · cases hq : q cause <;> simp [layers, outermost, hq]
  · have hnone : contexts.find? q = none := List.find?_eq_none.mpr fun f hf => by simp [h f hf]
    cases hq : q context <;> simp [layers, outermost, hq, hnone]

end Failure

/-! ### Failures of operations -/

/-- What a search of the failure finds. -/
structure Failure.SearchedAtEnds (e : Failure) : Prop where
  /-- The search for a kind is a search in this sense. -/
  byKind : ∀ p : FaultKind → Bool, e.find? p = e.search? fun kind _ => p kind
  /-- The layers above the cause are those of activities. -/
  contexts : ∀ f ∈ e.contexts, f.kind? = some .definition ∨ f.kind? = some .construction
  /-- A search answers with the outermost layer if this one meets the condition, else with the
  cause if that one does. -/
  ends : ∀ p, e.search? p = [e.outermost, e.cause].find? fun f => f.meets p
  /-- So it finds something exactly if one of the two meets the condition. -/
  found : ∀ p, (e.search? p).isSome ↔ e.outermost.meets p ∨ e.cause.meets p
  /-- If no layer between the two meets it, what is found is the outermost one of all layers that
  do, and if nothing is found there is none. -/
  whole : ∀ p, (∀ f ∈ e.between, f.meets p = false) →
    e.search? p = e.layers.find? fun f => f.meets p
  /-- In particular a search sees every layer of a failure that has interrupted one activity, or
  none. -/
  short : e.contexts.length ≤ 1 → ∀ p, e.search? p = e.layers.find? fun f => f.meets p

/-- A layer of an activity has a kind. -/
theorem Activity.kind?_context (a : Activity) :
    a.context.kind? = some .definition ∨ a.context.kind? = some .construction := by
  cases a with
  | namingField | staticField => exact .inl rfl
  | instanceField => exact .inr rfl

/-- **The ends of a failure are what a search sees**, if its layers are those of activities. -/
theorem Explains.searchedAtEnds {α : Type} {new : List Event} {e : Failure}
    (h : Explains new (.error e : Except Failure α)) : e.SearchedAtEnds := by
  have hcontexts : ∀ f ∈ e.contexts, f.kind? = some .definition ∨ f.kind? = some .construction := by
    obtain ⟨_, _, earlier, -, -, rfl⟩ := h.cause e rfl
    intro f hf
    obtain ⟨a, -, rfl⟩ := List.mem_map.mp (List.mem_reverse.mp hf)
    exact a.kind?_context
  have hkinds : ∀ f ∈ e.contexts, f.kind?.isSome := fun f hf => by
    rcases hcontexts f hf with hkind | hkind <;> simp [hkind]
  have hends := Failure.search?_eq hkinds
  have hwhole p (hp : ∀ f ∈ e.between, f.meets p = false) :
      e.search? p = e.layers.find? fun f => f.meets p :=
    (hends p).trans (Failure.find?_layers_of_between hp).symm
  refine ⟨e.find?_eq_search?, hcontexts, hends, fun p => by simp [hends p], hwhole,
    fun hshort p => hwhole p ?_⟩
  have hnone : e.between = [] := List.eq_nil_of_length_eq_zero (by simp [Failure.between]; omega)
  simp [hnone]

/-- **Searching a failure.** Whichever operation a client calls or has performed, on whichever
machine: if it ends with a failure, a search for any condition on a kind and a wording looks at
the outermost layer and at the cause. It finds the outermost of all layers that meet the
condition, unless there is one between these two. -/
theorem failure_search (settings : Settings) (levels : Nat) (m m' : Machine) :
    (∀ ⦃α : Type⦄ (c : Call α) (e : Failure),
      (c.run settings (interpret settings levels)).outcome m = (some (.error e), m') →
        e.SearchedAtEnds) ∧
    ∀ ⦃α : Type⦄ (task : Task α) (e : Failure),
      (interpret settings levels task).outcome m = (some (.error e), m') →
        e.SearchedAtEnds := by
  obtain ⟨hframes, hreports⟩ := Performer.keeps_and.mp (interpret_keeps_reports settings levels)
  have search {α : Type} {x : Action α} (hx : x.Reports) {e : Failure}
      (h : x.outcome m = (some (.error e), m')) : e.SearchedAtEnds := by
    obtain ⟨new, -, htells⟩ := hx.of_outcome h
    exact htells.explains.searchedAtEnds
  exact ⟨fun α c e h => search (call_reports hframes hreports c) h,
    fun α task e h => search (hreports task) h⟩

/-- The outcome is a failure that passes the test. -/
def failsWith {α : Type} (test : Failure → Bool) : Option (Except Failure α) → Bool
  | some (.error e) => test e
  | _ => false

theorem exists_of_failsWith {α : Type} {test : Failure → Bool} {x : Action α} {m : Machine}
    (h : failsWith test (x.outcome m).1 = true) :
    ∃ e m', x.outcome m = (some (.error e), m') ∧ test e = true := by
  rcases hx : x.outcome m with ⟨_ | e | a, m'⟩ <;> rw [hx] at h
  · simp [failsWith] at h
  · exact ⟨e, m', rfl, h⟩
  · simp [failsWith] at h

/-- A construction that fails inside a definition: `class Outer { static made = new class
Inner { x = throw "boom" } }`. -/
def failingInside : Expr :=
  .classDefinition
    { name := some (.literal (.str "Outer")), heritage := none, constructor := none,
      elements := [.field (.literal "made") true (some (.reentry .construct
        [.classDefinition
          { name := some (.literal (.str "Inner")), heritage := none, constructor := none,
            elements := [.field (.literal "x") false
              (some (.primitive .throw [.literal (.str "boom")]))] }]))] }

/-- A definition with a failing static field: `class A { static f = throw "boom" }`. -/
def failingStatic : Expr :=
  .classDefinition
    { name := some (.literal (.str "A")), heritage := none, constructor := none,
      elements := [.field (.literal "f") true (some (.primitive .throw [.literal (.str "boom")]))] }

/-- A search in the failure of a definition, and in that of a construction of no class. -/
theorem failure_search_of_failingStatic :
    (∃ e m', ((Call.construct 7 []).run {} (interpret {} 9)).outcome .initial =
        (some (.error e), m') ∧ e.SearchedAtEnds) ∧
    ∃ e m', (interpret {} 9 (.eval failingStatic {})).outcome .initial = (some (.error e), m') ∧
      e.SearchedAtEnds ∧ (e.find? (· == .definition)).isSome ∧ (e.find? (· == .thrown)).isSome := by
  constructor
  · have hfails : failsWith (fun _ => true)
        (((Call.construct 7 []).run {} (interpret {} 9)).outcome .initial).1 = true := by
      decide +kernel
    obtain ⟨e, m', h, -⟩ := exists_of_failsWith hfails
    exact ⟨e, m', h, (failure_search {} 9 .initial m').1 _ _ h⟩
  · have hfails : failsWith
        (fun e => (e.find? (· == .definition)).isSome && (e.find? (· == .thrown)).isSome)
        ((interpret {} 9 (.eval failingStatic {})).outcome .initial).1 = true := by
      decide +kernel
    obtain ⟨e, m', h, hfound⟩ := exists_of_failsWith hfails
    obtain ⟨hdefinition, hthrown⟩ := Bool.and_eq_true_iff.mp hfound
    exact ⟨e, m', h, (failure_search {} 9 .initial m').2 _ _ h, hdefinition, hthrown⟩

/-- **A layer that a search does not see.** A static field constructs an instance of which a field
fails, so the layer of the construction stands between that of the definition and the exception. -/
theorem layer_overlooked : ∃ e m', (interpret {} 9 (.eval failingInside {})).outcome .initial =
      (some (.error e), m') ∧
    e.layers.map Fault.kind? = [some .definition, some .construction, some .thrown] ∧
    (e.layers.find? fun f => f.kind?.any (· == .construction)).isSome ∧
    e.find? (· == .construction) = none := by
  have hfails : failsWith
      (fun e => e.layers.map Fault.kind? == [some .definition, some .construction, some .thrown] &&
        (e.layers.find? fun f => f.kind?.any (· == .construction)).isSome &&
        (e.find? (· == .construction)).isNone)
      ((interpret {} 9 (.eval failingInside {})).outcome .initial).1 = true := by
    decide +kernel
  obtain ⟨e, m', h, hmissed⟩ := exists_of_failsWith hfails
  simp only [Bool.and_eq_true, beq_iff_eq, Option.isNone_iff_eq_none] at hmissed
  obtain ⟨⟨hlayers, hthere⟩, hmissed⟩ := hmissed
  exact ⟨e, m', h, hlayers, hthere, hmissed⟩

end ClassMachine
