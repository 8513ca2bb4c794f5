import ClassMachine.Proofs.Instances

/-!
# What objects keep

Whatever happens, an object keeps its kind, and it keeps each property that is not configurable
as it is. Its link to the prototype stays the same until a client redirects it, which is noted.
All this is so for single effects, hence for everything that is made of them.

Main statement: `ClassMachine.interpretUntil_persists`.
-/

namespace ClassMachine

variable {α : Type}

/-! ### Laws of all effects -/

section Universal

variable {L : Law} (hL : ∀ e, L.Allows e)

include hL

/-- A law that all effects obey is obeyed by all tasks. -/
theorem step_obeys (settings : Settings) {perform : Performer}
    (hp : ∀ ⦃β : Type⦄ (task : Task β), (perform task).Obeys L) (task : Task α) :
    (step settings perform task).Obeys L :=
  (step_madeOf settings task).obeys_tasks (fun e _ => hL e) hp

/-- So do all calls. -/
theorem call_obeys (settings : Settings) {perform : Performer}
    (hp : ∀ ⦃β : Type⦄ (task : Task β), (perform task).Obeys L) (c : Call α) :
    (c.run settings perform).Obeys L :=
  (call_madeOf settings c).obeys_tasks (fun e _ => hL e) hp

theorem interpretUntil_obeys (settings : Settings) (stop : Machine → Bool) (levels : Nat)
    (task : Task α) : (interpretUntil settings stop levels task).Obeys L :=
  interpretUntil_keeps (K := .ofLaws fun _ _ => L)
    (fun _ hp _ task => step_obeys hL settings hp task) stop levels task

end Universal

/-! ### What an object keeps -/

/-- What objects have kept from the one machine to the other. -/
structure Machine.Persists (m m' : Machine) : Prop where
  size : m.store.size ≤ m'.store.size
  kind : ∀ o < m.store.size, (m'.store.object o).kind = (m.store.object o).kind
  /-- A property that is not configurable is there for good. -/
  fixed : ∀ o < m.store.size, ∀ key p, (m.store.object o).property? key = some p →
    p.isConfigurable = false → (m'.store.object o).property? key = some p
  /-- A link is the same unless it was redirected. -/
  link : ∃ new, m'.trace = new ++ m.trace ∧ ∀ o < m.store.size,
    (m'.store.object o).prototype = (m.store.object o).prototype ∨ .relinked o ∈ new

namespace Machine.Persists

variable {m m' m'' : Machine}

theorem refl (m : Machine) : m.Persists m :=
  ⟨Nat.le_refl _, fun _ _ => rfl, fun _ _ _ _ h _ => h, [], rfl, fun _ _ => .inl rfl⟩

theorem trans (h : m.Persists m') (h' : m'.Persists m'') : m.Persists m'' where
  size := Nat.le_trans h.size h'.size
  kind o ho := (h'.kind o (Nat.lt_of_lt_of_le ho h.size)).trans (h.kind o ho)
  fixed o ho key p hp hfixed :=
    h'.fixed o (Nat.lt_of_lt_of_le ho h.size) key p (h.fixed o ho key p hp hfixed) hfixed
  link := by
    obtain ⟨new, hnew, hlink⟩ := h.link
    obtain ⟨new', hnew', hlink'⟩ := h'.link
    refine ⟨new' ++ new, by rw [hnew', hnew, List.append_assoc], fun o ho => ?_⟩
    rcases hlink' o (Nat.lt_of_lt_of_le ho h.size) with h₂ | h₂
    · rw [h₂]
      exact (hlink o ho).imp_right (List.mem_append_right new')
    · exact .inr (List.mem_append_left new h₂)

theorem mem_trace (h : m.Persists m') {e : Event} (he : e ∈ m.trace) : e ∈ m'.trace := by
  obtain ⟨new, hnew, -⟩ := h.link
  exact hnew ▸ List.mem_append_right new he

end Machine.Persists

/-- Defining a property leaves those that are fixed. -/
theorem Object.fixed_define {o o' : Object} {key key' : String} {p old : Property}
    (h : o.define key p = .ok o') (hold : o.property? key' = some old)
    (hfixed : old.isConfigurable = false) : o'.property? key' = some old := by
  rw [Object.property?_of_define h]
  split
  next hkey =>
    -- the object would have refused it
    subst hkey
    have hrefused : ∃ f, o.define key p = .error f :=
      Object.define_eq_error_iff.mpr (.inl ⟨old, hold, hfixed⟩)
    simp [h] at hrefused
  next => exact hold

/-- Removing a property leaves those that are fixed. -/
theorem Object.fixed_delete {o : Object} {key key' : String} {old : Property}
    (hold : o.property? key' = some old) (hfixed : old.isConfigurable = false) :
    (o.delete key).2.property? key' = some old := by
  by_cases hkey : key = key'
  · subst hkey
    simp [Object.delete, hold, hfixed]
  · rw [Object.property?_delete_of_ne hkey, hold]

/-- An object keeps its fixed properties, whatever the effect. -/
theorem Effect.fixed_apply (e : Effect) {m : Machine} {o : ObjectId} (ho : o < m.store.size)
    {key : String} {p : Property} (hp : (m.store.object o).property? key = some p)
    (hfixed : p.isConfigurable = false) :
    ((e.apply m).store.object o).property? key = some p := by
  cases e with
  | object => simpa [apply, Store.object_add, Nat.ne_of_lt ho] using hp
  | define id key' p' =>
    simp only [apply]
    split
    next o' h =>
      rw [Store.object_put]
      split
      next hid =>
        rw [hid.1] at hp
        exact Object.fixed_define h hp hfixed
      next => exact hp
    next => exact hp
  | delete id key' =>
    simp only [apply, Store.object_put]
    split
    next hid =>
      rw [hid.1] at hp
      exact Object.fixed_delete hp hfixed
    next => exact hp
  | close id | relink id =>
    simp only [apply, Store.object_put]
    split
    next hid =>
      rw [hid.1] at hp
      exact hp
    next => exact hp
  | _ => exact hp

theorem Effect.persists_apply (e : Effect) (m : Machine) : m.Persists (e.apply m) where
  size := e.size_apply m
  kind _ ho := (e.object_apply ho).1
  fixed _ ho _ _ hp hfixed := e.fixed_apply ho hp hfixed
  link := by
    obtain ⟨new, hnew⟩ := e.trace_apply m
    refine ⟨new, hnew, fun o ho => (e.object_apply ho).2.imp_right ?_⟩
    rintro ⟨prototype, rfl⟩
    have hnew : .relinked o :: m.trace = new ++ m.trace := hnew
    have hnew : new = [.relinked o] := (List.append_cancel_right hnew).symm
    simp [hnew]

/-- The law of what objects keep. -/
def persistenceLaw : Law where
  ended := Machine.Persists
  broken := Machine.Persists
  refl := .refl
  trans := .trans
  late h := h
  trans_broken := .trans

/-- **Whatever runs, objects keep what they keep**, be it broken off or not. -/
theorem interpretUntil_persists (settings : Settings) (stop : Machine → Bool) (levels : Nat)
    (task : Task α) (m : Machine) :
    (interpretUntil settings stop levels task).Ensures m fun _ m' => m.Persists m' := by
  refine (interpretUntil_obeys (L := persistenceLaw) Effect.persists_apply settings stop levels
    task m).mono fun r m' h => ?_
  cases r <;> exact h

end ClassMachine
