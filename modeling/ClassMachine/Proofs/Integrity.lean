import ClassMachine.Proofs.Persistence

/-!
# The integrity of objects

Two promises of an object are for good. Once it is closed it stays closed, and it never owns
a key that it did not own then. And a property that is not configurable stays as it is.
`ClassMachine.Object.Keeps` says both of what has become of an object. A single effect
changes an object in one of four ways (`ClassMachine.Object.Changes`), and all four keep the
promises; so does whatever consists of effects, which is everything.

For this it does not matter what client code does between a look at an object and a write to
it: nothing that it may do takes a promise back. So each attempt to get around one is
refused, whenever it is made (`ClassMachine.Machine.Withstands`).

Any two moments of a program can be compared (`ClassMachine.Later`). If they are moments of
one run, the run is broken off earlier for the one than for the other, and what all effects
keep is kept in between (`ClassMachine.interpretUntil_precedes`).

Main statement: `ClassMachine.object_integrity`.
-/

namespace ClassMachine

variable {α β : Type}

/-! ### What becomes of an object in one effect -/

/-- What a single effect may make of an object. -/
inductive Object.Changes : Object → Object → Prop
  | same (o : Object) : Changes o o
  | define {o o' : Object} {key : String} {p : Property} (h : o.define key p = .ok o') :
    Changes o o'
  | delete (o : Object) (key : String) : Changes o (o.delete key).2
  | close (o : Object) : Changes o o.preventExtensions
  | relink (o : Object) (prototype : Option ObjectId) : Changes o (o.relink prototype)

/-- An object that is put into the store changes at its place, and no other one does. -/
theorem Store.changes_put {s : Store} {id : ObjectId} {o' : Object}
    (h : (s.object id).Changes o') (o : ObjectId) :
    (s.object o).Changes ((s.put id o').object o) := by
  rw [object_put]
  split
  next ho => exact ho.1 ▸ h
  next => exact .same _

/-- **What an effect makes of an object.** -/
theorem Effect.changes_apply (e : Effect) {m : Machine} {o : ObjectId} (ho : o < m.store.size) :
    (m.store.object o).Changes ((e.apply m).store.object o) := by
  cases e with
  | object => simpa [apply, Store.object_add, Nat.ne_of_lt ho] using .same _
  | define id key p =>
    simp only [apply]
    split
    next o' h => exact Store.changes_put (.define h) o
    next => exact .same _
  | delete id key => exact Store.changes_put (.delete _ key) o
  | close id => exact Store.changes_put (.close _) o
  | relink id prototype => exact Store.changes_put (.relink _ prototype) o
  | _ => exact .same _

/-! ### What an object promises -/

/-- What has become of an object has kept its promises. -/
structure Object.Keeps (o o' : Object) : Prop where
  /-- A closed object stays closed, and gets no keys. -/
  closed : o.extensible = false →
    o'.extensible = false ∧ o'.keys.Sublist o.keys ∧ ∀ key, o'.hasOwn key → o.hasOwn key
  /-- A property that is not configurable stays as it is. -/
  fixed : ∀ key p, o.property? key = some p → p.isConfigurable = false →
    o'.property? key = some p ∧ (key ∈ o.keys → key ∈ o'.keys)

namespace Object

variable {o o' o'' : Object}

theorem Keeps.refl (o : Object) : o.Keeps o :=
  ⟨fun h => ⟨h, .refl _, fun _ => id⟩, fun _ _ h _ => ⟨h, id⟩⟩

theorem Keeps.trans (h : o.Keeps o') (h' : o'.Keeps o'') : o.Keeps o'' where
  closed ho := by
    obtain ⟨ho', hkeys, hown⟩ := h.closed ho
    obtain ⟨ho'', hkeys', hown'⟩ := h'.closed ho'
    exact ⟨ho'', hkeys'.trans hkeys, fun key hkey => hown key (hown' key hkey)⟩
  fixed key p hp hfixed := by
    obtain ⟨hp', hmem⟩ := h.fixed key p hp hfixed
    obtain ⟨hp'', hmem'⟩ := h'.fixed key p hp' hfixed
    exact ⟨hp'', fun hkey => hmem' (hmem hkey)⟩

/-- A closed object takes only properties under keys that it owns. -/
theorem keeps_define {key : String} {p : Property} (h : o.define key p = .ok o') :
    o.Keeps o' where
  closed hclosed := by
    have howned : (o.property? key).isSome := by
      by_contra hnone
      have hrefused := (define_eq_error_iff (p := p)).mpr (.inr ⟨by simpa using hnone, hclosed⟩)
      simp [h] at hrefused
    have hkeys := keys_of_define h
    rw [if_pos howned] at hkeys
    refine ⟨(extensible_define h).trans hclosed, hkeys ▸ .refl _, fun key' hkey' => ?_⟩
    rw [hasOwn_eq_isSome, property?_of_define h] at hkey'
    split at hkey'
    next hkey => rwa [hasOwn_eq_isSome, ← hkey]
    next => rwa [hasOwn_eq_isSome]
  fixed key' q hq hfixed := by
    refine ⟨fixed_define h hq hfixed, fun hmem => ?_⟩
    rw [keys_of_define h]
    split
    · exact hmem
    · exact List.mem_append_left _ hmem

/-- Removing a property takes its key away and adds none. -/
theorem keeps_delete (o : Object) (key : String) : o.Keeps (o.delete key).2 where
  closed hclosed := by
    refine ⟨(o.extensible_delete key).trans hclosed, ?_, fun key' hkey' => ?_⟩
    · rw [keys_delete]
      split
      · exact List.filter_sublist
      · exact .refl _
    · by_cases hkey : key = key'
      · subst hkey
        rw [hasOwn_eq_isSome, Option.isSome_iff_ne_none] at hkey' ⊢
        exact mt (fun hnone => by simp [delete, hnone]) hkey'
      · rwa [hasOwn_eq_isSome, property?_delete_of_ne hkey, ← hasOwn_eq_isSome] at hkey'
  fixed key' q hq hfixed := by
    refine ⟨fixed_delete hq hfixed, fun hmem => ?_⟩
    rw [keys_delete]
    split
    next hany =>
      have hne : key' ≠ key := by
        rintro rfl
        simp [hq, hfixed] at hany
      simpa [hne] using hmem
    next => exact hmem

theorem Changes.keeps (h : o.Changes o') : o.Keeps o' := by
  cases h with
  | same => exact .refl _
  | define h => exact keeps_define h
  | delete key => exact keeps_delete o key
  | close => exact ⟨fun _ => ⟨rfl, .refl _, fun _ => id⟩, fun _ _ h _ => ⟨h, id⟩⟩
  | relink => exact ⟨fun h => ⟨h, .refl _, fun _ => id⟩, fun _ _ h _ => ⟨h, id⟩⟩

/-- Why the object does not take properties under the key, if it does not. -/
def refusal? (o : Object) (key : String) : Option Fault :=
  match o.property? key with
  | some p => if p.isConfigurable then none else some (.notConfigurable key)
  | none => if o.extensible then none else some (.notExtensible key)

theorem define_of_refusal? {key : String} {f : Fault} (h : o.refusal? key = some f)
    (p : Property) : o.define key p = .error f := by
  unfold refusal? at h
  unfold define
  split at h <;> split at h <;> simp_all

/-- **A refusal is for good.** -/
theorem Keeps.refusal? (h : o.Keeps o') {key : String} {f : Fault}
    (hf : o.refusal? key = some f) : o'.refusal? key = some f := by
  unfold Object.refusal? at hf
  split at hf
  next p hp =>
    split at hf
    next => simp at hf
    next hfixed =>
      rw [Bool.not_eq_true] at hfixed
      simp only [Object.refusal?, (h.fixed key p hp hfixed).1, hfixed]
      simpa using hf
  next hnone =>
    split at hf
    next => simp at hf
    next hclosed =>
      rw [Bool.not_eq_true] at hclosed
      obtain ⟨hclosed', -, hown⟩ := h.closed hclosed
      have hnone' : o'.property? key = none := by
        by_contra howned
        have := hown key (by rwa [hasOwn_eq_isSome, Option.isSome_iff_ne_none])
        simp [hasOwn_eq_isSome, hnone] at this
      simpa [Object.refusal?, hnone', hclosed'] using hf

end Object

/-- All objects have kept their promises. -/
structure Machine.Guards (m m' : Machine) : Prop where
  size : m.store.size ≤ m'.store.size
  keeps : ∀ o < m.store.size, (m.store.object o).Keeps (m'.store.object o)

/-! ### Two moments of a run -/

/-- The relation holds of a machine and what an effect, or several of them, make of it. -/
structure Lasting (R : Machine → Machine → Prop) : Prop where
  refl : ∀ m, R m m
  trans : ∀ {m m' m''}, R m m' → R m' m'' → R m m''
  effect : ∀ (e : Effect) m, R m (e.apply m)

/-- The relation as a law. -/
def Lasting.law {R : Machine → Machine → Prop} (hR : Lasting R) : Law where
  ended := R
  broken := R
  refl := hR.refl
  trans := hR.trans
  late h := h
  trans_broken := hR.trans

/-- What obeys it leaves a machine of which the relation holds. -/
theorem Lasting.of_obeys {R : Machine → Machine → Prop} (hR : Lasting R) {x : Action α}
    (h : x.Obeys hR.law) (m : Machine) : R m (x.outcome m).2 := by
  have hm := h m
  unfold Action.Ensures at hm
  generalize x.outcome m = o at hm ⊢
  rcases o with ⟨_ | _, m'⟩ <;> exact hm

theorem Machine.guards_lasting : Lasting Machine.Guards where
  refl _ := ⟨Nat.le_refl _, fun _ _ => .refl _⟩
  trans h h' := ⟨Nat.le_trans h.size h'.size, fun o ho =>
    (h.keeps o ho).trans (h'.keeps o (Nat.lt_of_lt_of_le ho h.size))⟩
  effect e m := ⟨e.size_apply m, fun _ ho => (e.changes_apply ho).keeps⟩

/-- The first action is broken off earlier than the second one, if at all, and between these two
moments the relation holds. -/
structure Action.Precedes (R : Machine → Machine → Prop) (x y : Action α) : Prop where
  refines : x.Refines y
  obeys : ∀ m, R m (y.outcome m).2
  between : ∀ m, R (x.outcome m).2 (y.outcome m).2

section Precedes

variable {R : Machine → Machine → Prop} (hR : Lasting R)

include hR

namespace Action.Precedes

variable {x y : Action α} {f g : α → Action β}

theorem refl (h : ∀ m, R m (x.outcome m).2) : x.Precedes R x :=
  ⟨.refl x, h, fun _ => hR.refl _⟩

omit hR in
theorem breakOff (h : ∀ m, R m (y.outcome m).2) : (breakOff : Action α).Precedes R y :=
  ⟨fun _ _ _ hm => by simp at hm, h, h⟩

theorem bind (h : x.Precedes R y) (hfg : ∀ a, (f a).Precedes R (g a)) :
    (x >>= f).Precedes R (y >>= g) where
  refines := h.refines.bind fun a => (hfg a).refines
  obeys m := by
    have hy := h.obeys m
    rw [outcome_bind]
    generalize y.outcome m = o at hy ⊢
    rcases o with ⟨_ | e | a, m₁⟩
    · exact hy
    · exact hy
    · exact hR.trans hy ((hfg a).obeys m₁)
  between m := by
    have hxy := h.between m
    rw [outcome_bind, outcome_bind]
    rcases hx : x.outcome m with ⟨_ | e | a, m₁⟩ <;> rw [hx] at hxy
    · -- the other one goes on
      generalize y.outcome m = o at hxy ⊢
      rcases o with ⟨_ | e | a, m₂⟩
      · exact hxy
      · exact hxy
      · exact hR.trans hxy ((hfg a).obeys m₂)
    · rw [h.refines _ _ _ hx]
      exact hR.refl _
    · rw [h.refines _ _ _ hx]
      exact (hfg a).between m₁

omit hR in
theorem observe (h : x.Precedes R y) : (observe x).Precedes R (observe y) where
  refines := h.refines.observe
  obeys m := by
    rw [outcome_observe]
    exact h.obeys m
  between m := by
    rw [outcome_observe, outcome_observe]
    exact h.between m

end Action.Precedes

theorem Lasting.applyAll (es : List Effect) (m : Machine) : R m (Effect.applyAll es m) :=
  Effect.applyAll_induction (fun e _ _ h => hR.trans h (hR.effect e _)) (hR.refl m)

/-- Actions are compared by what has become of the machine. -/
def preceding : Comparison fun _ => True :=
  .ofActions (fun _ x y => x.Precedes R y)
    (fun _ x h => .refl hR fun m => by
      obtain ⟨r, es, -, h⟩ := h m
      rw [h]
      exact hR.applyAll es m)
    (fun _ => .refl hR fun m => hR.refl m) (fun _ _ _ _ _ _ h hfg => h.bind hR hfg)
    fun _ _ _ h => h.observe

/-- What is made of effects and of tasks goes on as its tasks do. -/
theorem MadeOf.precedes {A : Effect → Prop} {p q : Performer} {F : Performer → Action α}
    (hF : MadeOf A .Constructions F)
    (hpq : ∀ ⦃β : Type⦄ (task : Task β), (p task).Precedes R (q task)) :
    (F p).Precedes R (F q) :=
  hF.compared_constructions (K := preceding hR) (p := p) (q := q) (fun _ _ => trivial) hpq

theorem until_precedes {p q : Performer} {task : Task α} (h : (p task).Precedes R (q task))
    {stop stop' : Machine → Bool} (hstop : ∀ m, stop' m = true → stop m = true) :
    (p.until stop task).Precedes R (q.until stop' task) := by
  have hobeys (m : Machine) : R m ((q.until stop' task).outcome m).2 := by
    rw [snd_outcome_until]
    split
    · exact hR.refl m
    · exact h.obeys m
  refine ⟨h.refines.until hstop, hobeys, fun m => ?_⟩
  rw [snd_outcome_until]
  split
  next => exact hobeys m
  next hgo =>
    rw [snd_outcome_until, if_neg (mt (hstop m) hgo)]
    exact h.between m

/-- **Between two moments of a run** every relation holds that holds across effects. -/
theorem interpretUntil_precedes (settings : Settings) {stop stop' : Machine → Bool}
    (hstop : ∀ m, stop' m = true → stop m = true) {levels levels' : Nat}
    (hlevels : levels ≤ levels') (task : Task α) :
    (interpretUntil settings stop levels task).Precedes R
      (interpretUntil settings stop' levels' task) := by
  induction levels generalizing levels' α with
  | zero =>
    exact .breakOff (hR.of_obeys
      (interpretUntil_obeys (L := hR.law) hR.effect settings stop' levels' task))
  | succ levels ih =>
    obtain ⟨levels', rfl⟩ := Nat.exists_eq_succ_of_ne_zero (Nat.ne_zero_of_lt hlevels)
    rw [interpretUntil_succ, interpretUntil_succ]
    exact until_precedes hR ((step_madeOf settings task).precedes hR fun _ task =>
      ih (Nat.le_of_succ_le_succ hlevels) task) hstop

end Precedes

/-- The second machine is there at the same moment of a program as the first one, or later:
both are moments of one run, or a step lies between them. -/
inductive Later (settings : Settings) : Machine → Machine → Prop
  | refl (m : Machine) : Later settings m m
  | run {γ : Type} {task : Task γ} {m : Machine} {stop stop' : Machine → Bool}
    {levels levels' : Nat} (hstop : ∀ m, stop' m = true → stop m = true)
    (hlevels : levels ≤ levels') :
    Later settings ((interpretUntil settings stop levels task).outcome m).2
      ((interpretUntil settings stop' levels' task).outcome m).2
  | step {m m' : Machine} {levels : Nat} {e : Expr} {report : Report}
    (h : runStep settings levels e m = some (report, m')) : Later settings m m'
  | trans {m m' m'' : Machine} (h : Later settings m m') (h' : Later settings m' m'') :
    Later settings m m''

/-- **Objects keep their promises** from any moment of a program on. -/
theorem Later.guards {settings : Settings} {m m' : Machine} (h : Later settings m m') :
    m.Guards m' := by
  induction h with
  | refl m => exact Machine.guards_lasting.refl m
  | run hstop hlevels =>
    exact (interpretUntil_precedes Machine.guards_lasting settings hstop hlevels _).between _
  | @step m m' levels e report h =>
    have hrun := Machine.guards_lasting.of_obeys (interpretUntil_obeys
      (L := Machine.guards_lasting.law) Machine.guards_lasting.effect settings (fun _ => false)
        levels (.eval e {})) { m with log := [] }
    rw [interpretUntil_never] at hrun
    unfold runStep at h
    split at h
    next hm =>
      obtain ⟨-, rfl⟩ := Prod.mk.inj (Option.some.inj h)
      rw [hm] at hrun
      exact ⟨hrun.size, hrun.keeps⟩
    next => simp at h
  | trans _ _ ih ih' => exact Machine.guards_lasting.trans ih ih'

/-! ### Attempts -/

/-- The action fails with the fault, and nothing else happens. -/
def Action.Fails (x : Action α) (m : Machine) (f : Fault) : Prop :=
  x.outcome m = (some (.error (.ofFault f)), (Effect.note (.raised f)).apply m)

/-- The action fails with the fault, which is of that kind, and nothing else happens. -/
def Action.FailsAs (x : Action α) (m : Machine) (kind : FaultKind) (f : Fault) : Prop :=
  f.kind? = some kind ∧ x.Fails m f

/-- Whatever would define a property of the object under the key fails with the fault, and leaves
all objects as they are. An initializer still runs, but what it does does not help. -/
structure Machine.Withstands (m : Machine) (perform : Performer) (o : ObjectId) (key : String)
    (f : Fault) : Prop where
  define : ∀ p, (defineOn o key p).Fails m f
  defineForClient : ∀ p, (defineForClient o key p).Fails m f
  defineMethod : ∀ kind g, (defineMethod o key kind g).Fails m f
  installField : ∀ initializer,
    (installField perform o { name := key, initializer }).outcome m =
      match (fieldValue perform o { name := key, initializer }).outcome m with
      | (some (.ok _), m') => (some (.error (.ofFault f)), (Effect.note (.raised f)).apply m')
      | (some (.error e), m') => (some (.error e), m')
      | (none, m') => (none, m')

/-- What an assignment comes to if the object owns this property, which is not configurable. -/
def Machine.Assigns (m : Machine) (perform : Performer) (o : ObjectId) (key : String)
    (value : Value) : Property → Prop
  | .data _ false .. => (assignTo perform o key value).Fails m (.readOnly key)
  | .data _ true .. => (assignTo perform o key value).Fails m (.notConfigurable key)
  | .accessor _ none .. => (assignTo perform o key value).Fails m (.noSetter key)
  | .accessor _ (some setter) .. => (assignTo perform o key value).outcome m =
      (discard <| callFunction perform setter (.ref o) [value]).outcome m

section Attempts

variable {m : Machine} {o : ObjectId} {key : String}

/-- A failure at first is all that there is. -/
theorem Action.Fails.bind {x : Action α} {f : Fault} (h : x.Fails m f) (g : α → Action β) :
    (x >>= g).Fails m f := by
  rw [Fails, outcome_bind, h]

theorem defineOn_fails {f : Fault} (h : (m.store.object o).refusal? key = some f) (p : Property) :
    (defineOn o key p).Fails m f := by
  rw [Action.Fails, outcome_defineOn, Object.define_of_refusal? h]
  rfl

/-- **The object withstands** if it refuses the key, since it will still do so when the
initializer has run. -/
theorem withstands_of_refusal? {perform : Performer} {f : Fault} (ho : o < m.store.size)
    (hperform : ∀ e ctx, (perform (.eval e ctx)).Obeys Machine.guards_lasting.law)
    (h : (m.store.object o).refusal? key = some f) : m.Withstands perform o key f where
  define := defineOn_fails h
  defineForClient p := (defineOn_fails h p).bind _
  defineMethod kind g := by
    rw [Action.Fails, outcome_defineMethod_eq]
    exact defineOn_fails h _
  installField initializer := by
    have hmade : MadeOf Effect.IsClient .none fun perform =>
        fieldValue perform o { name := key, initializer } := fieldValue_client _ _
    have hvalue : m.Guards ((fieldValue perform o { name := key, initializer }).outcome m).2 :=
      Machine.guards_lasting.of_obeys
        (hmade.obeys_evaluations (fun e _ => Machine.guards_lasting.effect e) hperform) m
    rw [ClassMachine.installField, outcome_bind]
    generalize (fieldValue perform o { name := key, initializer }).outcome m = r at hvalue ⊢
    rcases r with ⟨_ | e | v, m'⟩
    · rfl
    · rfl
    · exact (defineOn_fails ((hvalue.keeps o ho).refusal? h) _).bind _

variable {p : Property} (hp : (m.store.object o).property? key = some p)
  (hfixed : p.isConfigurable = false)

include hp hfixed

theorem refusal?_of_fixed : (m.store.object o).refusal? key = some (.notConfigurable key) := by
  simp [Object.refusal?, hp, hfixed]

/-- **Removing the property** says no and changes no object. -/
theorem deleteFrom_of_fixed : (deleteFrom o key).outcome m =
    (some (.ok false), (Effect.note (.changed o)).apply m) := by
  have hdelete : (m.store.object o).delete key = (false, m.store.object o) := by
    simp [Object.delete, hp, hfixed]
  simp only [deleteFrom, objectAt, putObject, outcome_bind, outcome_get, outcome_pure,
    outcome_modify, outcome_note, hdelete, Store.put_object]
  rfl

/-- **Assigning to the property** fails, or is a call of its setter. -/
theorem assigns_of_fixed (perform : Performer) (value : Value) :
    m.Assigns perform o key value p := by
  have hsearch := Store.search_of_property? hp
  -- the search ends at the object itself, and the property says what is done
  rcases p with ⟨v, _ | _, enumerable, configurable⟩ |
    ⟨getter, _ | setter, enumerable, configurable⟩
  all_goals
    simp only [Machine.Assigns, Action.Fails, assignTo, outcome_bind, outcome_get, hsearch]
  · rfl
  · rw [assignOwn, objectAt, bind_assoc, outcome_bind, outcome_get]
    exact (defineOn_fails (refusal?_of_fixed hp hfixed) _).bind _
  · rfl

end Attempts

/-- What the object has promised at the first machine holds at the second one, and all that
could be done against it there is in vain. -/
structure Machine.Defends (m m' : Machine) (perform : Performer) (o : ObjectId) : Prop where
  /-- The object is closed still, and owns no key that it did not own. -/
  closed : (m.store.object o).extensible = false →
    (m'.store.object o).extensible = false ∧
    (m'.store.object o).keys.Sublist (m.store.object o).keys ∧
    (∀ key, (m'.store.object o).hasOwn key → (m.store.object o).hasOwn key) ∧
    ∀ key, (m'.store.object o).hasOwn key = false →
      m'.Withstands perform o key (.notExtensible key)
  /-- A property that is not configurable is there still, as it was. Others cannot be put in its
  place, removing it says no, and assigning to it does not change it. -/
  fixed : ∀ key p, (m.store.object o).property? key = some p → p.isConfigurable = false →
    (m'.store.object o).property? key = some p ∧
    (key ∈ (m.store.object o).keys → key ∈ (m'.store.object o).keys) ∧
    m'.Withstands perform o key (.notConfigurable key) ∧
    (deleteFrom o key).outcome m' = (some (.ok false), (Effect.note (.changed o)).apply m') ∧
    ∀ value, m'.Assigns perform o key value p

/-- **The integrity of objects.** Whatever happens between two moments of a program, an object
keeps its promises, and at the later moment all attempts to get around them are refused: a
closed object stays closed and owns no further keys, and a property that is not configurable
– an accessor, a value that is read-only, or any other one – is neither changed nor replaced
nor removed. -/
theorem object_integrity (settings : Settings) (m m' : Machine) (h : Later settings m m')
    (o : ObjectId) (ho : o < m.store.size) (stop : Machine → Bool) (levels : Nat) :
    m.Defends m' (interpretUntil settings stop levels) o := by
  have hguards := h.guards
  have ho' : o < m'.store.size := Nat.lt_of_lt_of_le ho hguards.size
  have hperform (e : Expr) (ctx : Context) :
      (interpretUntil settings stop levels (.eval e ctx)).Obeys Machine.guards_lasting.law :=
    interpretUntil_obeys (L := Machine.guards_lasting.law) Machine.guards_lasting.effect settings
      stop levels (.eval e ctx)
  constructor
  case closed =>
    intro hclosed
    obtain ⟨hclosed', hkeys, hown⟩ := (hguards.keeps o ho).closed hclosed
    refine ⟨hclosed', hkeys, hown, fun key hkey => withstands_of_refusal? ho' hperform ?_⟩
    have hnone : (m'.store.object o).property? key = none := by
      simpa [Object.hasOwn_eq_isSome] using hkey
    simp [Object.refusal?, hnone, hclosed']
  case fixed =>
    intro key p hp hfixed
    obtain ⟨hp', hmem⟩ := (hguards.keeps o ho).fixed key p hp hfixed
    exact ⟨hp', hmem, withstands_of_refusal? ho' hperform (refusal?_of_fixed hp' hfixed),
      deleteFrom_of_fixed hp' hfixed, assigns_of_fixed hp' hfixed _⟩

/-- A class of which the class object is closed: `Object.preventExtensions(class {})`. -/
def closedClass : Expr :=
  .primitive .preventExtensions [.primitive .classObject [.classDefinition
    { name := none, heritage := none, constructor := none, elements := [] }]]

/-- A class derived from it, with a static method that is called like the fixed property:
`class extends (class 1) { static prototype() {} }`. -/
def robbingClass : Expr :=
  .classDefinition
    { name := none, heritage := some (.primitive .classObject [.literal (.number 1)]),
      constructor := none, elements := [.method "prototype" .method true "" (.sequence [])] }

/-- Is the object closed, with a prototype that is fixed? -/
def Object.isClosedHome (o : Object) : Bool :=
  !o.extensible && (o.property? "prototype").any fun p => !p.isConfigurable

/-- The class object when it has been closed, and in the middle of the further definition. -/
theorem object_integrity_of_closedClass : ∃ m m' o p, (Later {} m m' ∧ o < m.store.size ∧
    (m.store.object o).extensible = false ∧ (m.store.object o).property? "prototype" = some p ∧
    p.isConfigurable = false) ∧ m.Defends m' (interpretUntil {} (fun _ => false) 9) o := by
  have hrun : ((runStep {} 9 closedClass .initial).any fun p =>
      decide (1 < p.2.store.size) && (p.2.store.object 1).isClosedHome) = true := by
    decide +kernel
  obtain ⟨⟨report, m⟩, hm, h⟩ := (Option.any_eq_true ..).mp hrun
  simp only [Object.isClosedHome, Bool.and_eq_true, decide_eq_true_eq, Bool.not_eq_eq_eq_not,
    Bool.not_true] at h
  obtain ⟨hsize, hclosed, hprototype⟩ := h
  obtain ⟨p, hp, hfixed⟩ := (Option.any_eq_true ..).mp hprototype
  let stop (m : Machine) : Bool := 4 ≤ m.store.size
  let m' := ((interpretUntil {} stop 9 (.eval robbingClass {})).outcome m).2
  have hlater : Later {} m m' :=
    @Later.run {} _ (.eval robbingClass {}) m (fun _ => true) stop 1 9 (by simp) (by decide)
  exact ⟨m, m', 1, p, ⟨hlater, hsize, hclosed, hp, by simpa using hfixed⟩,
    object_integrity {} m m' hlater 1 hsize _ 9⟩

end ClassMachine
