import ClassMachine.Proofs.Assignment
import ClassMachine.Proofs.ParentCalls

/-!
# Fields without an initializer

A field without an initializer gets the value that its target shows under the name, wherever on
the chain of prototypes this comes from. So the property that it leaves looks the same at first,
but from then on it is the target's own: what happens to the prototypes does not matter any more.

Two things are done one after the other, and they look at different machines. The value is read
from the machine that is there before. A getter may run for this, and it may do whatever client
code does, to the target as well. The property is then defined on the machine that the getter
has left, where the target may own other properties than before, or may have been closed. Nothing
happens in between (`ClassMachine.Machine.CopiesForward`), and a second installation finds the
target's own value and leaves it as it is (`ClassMachine.Machine.Owns`).

Main statement: `ClassMachine.bareField_law`.
-/

namespace ClassMachine

variable {α : Type}

/-! ### What is to be shown -/

/-- The field of that name without an initializer. -/
def FieldRecord.bare (name : String) : FieldRecord :=
  { name, initializer := none }

/-- The effect neither defines nor removes the property of the object. It may do anything to other
properties and to other objects, the prototypes among them. -/
def Effect.LeavesProperty (o : ObjectId) (key : String) : Effect → Prop
  | .define id key' _ | .delete id key' => ¬ (id = o ∧ key' = key)
  | _ => True

/-- The object has the value for its own. -/
structure Machine.Owns (m : Machine) (perform : Performer) (o : ObjectId) (name : String)
    (v : Value) : Prop where
  /-- Installing the field once more does nothing. -/
  again : (installField perform o (.bare name)).outcome m =
    (some (.ok ⟨⟩), (Effect.note (.installed o (.bare name) v)).apply m)
  /-- The value is read from the object, on whoever's behalf, after any sequence of effects that
  leave the property of the object alone. -/
  stays : ∀ es : List Effect, (∀ e ∈ es, e.LeavesProperty o name) → ∀ perform' receiver,
    (readFrom perform' o name receiver).outcome (Effect.applyAll es m) =
      (some (.ok v), Effect.applyAll es m)
  /-- What an operation of the machine does is such a sequence, unless it changes the property. -/
  operations : ∀ settings stop levels ⦃α : Type⦄ (c : Call α), ∃ es : List Effect,
    ((c.run settings (interpretUntil settings stop levels)).outcome m).2 = Effect.applyAll es m

/-- **What a field without an initializer comes to**, if these are the objects on the chain of its
target. -/
structure Machine.CopiesForward (m : Machine) (perform : Performer) (o : ObjectId) (name : String)
    (os : List ObjectId) : Prop where
  /-- The value is read from the nearest owner. One getter runs for this at most, and it has the
  target as its receiver. -/
  reads : (readFrom perform o name (.ref o)).outcome m =
    match m.store.nearest? name os with
    | some (_, .data value ..) => (some (.ok value), m)
    | some (_, .accessor (some getter) ..) => (callFunction perform getter (.ref o) []).outcome m
    | some (_, .accessor none ..) | none => (some (.ok .undefined), m)
  /-- If the target owns a value, it is this one. -/
  own : ∀ v writable enumerable configurable,
    (m.store.object o).property? name = some (.data v writable enumerable configurable) →
    (readFrom perform o name (.ref o)).outcome m = (some (.ok v), m)
  /-- As long as the getter runs, the field is not installed. -/
  broken : ∀ m₁, (readFrom perform o name (.ref o)).outcome m = (none, m₁) →
    (installField perform o (.bare name)).outcome m = (none, m₁)
  /-- If the getter fails, so does the field. -/
  unread : ∀ e m₁, (readFrom perform o name (.ref o)).outcome m = (some (.error e), m₁) →
    (installField perform o (.bare name)).outcome m = (some (.error e), m₁)
  /-- If the target owns a property then that is not configurable, the field fails. -/
  fixed : ∀ v m₁ p, (readFrom perform o name (.ref o)).outcome m = (some (.ok v), m₁) →
    (m₁.store.object o).property? name = some p → p.isConfigurable = false →
    (installField perform o (.bare name)).FailsFrom m m₁ .type (.notConfigurable name)
  /-- It also does if the target owns none and is closed. -/
  closed : ∀ v m₁, (readFrom perform o name (.ref o)).outcome m = (some (.ok v), m₁) →
    (m₁.store.object o).property? name = none → (m₁.store.object o).extensible = false →
    (installField perform o (.bare name)).FailsFrom m m₁ .type (.notExtensible name)
  /-- In all other cases the value that was read becomes the target's own, as a plain property. A
  property that was there is replaced in its place, a new one is put behind all others, and
  nothing else happens. -/
  copied : ∀ v m₁, (readFrom perform o name (.ref o)).outcome m = (some (.ok v), m₁) →
    (m₁.store.object o).refusal? name = none →
    ∃ store m₂, (installField perform o (.bare name)).outcome m = (some (.ok ⟨⟩), m₂) ∧
      m₂ = { m₁ with store, trace := .installed o (.bare name) v :: m₁.trace } ∧
      m₁.store.Differs store o name (.plain v)
        (if ((m₁.store.object o).property? name).isSome then (m₁.store.object o).keys
          else (m₁.store.object o).keys ++ [name]) ∧
      ∀ perform', m₂.Owns perform' o name v

/-! ### A value of its own -/

/-- Whatever leaves the property of an object alone leaves it as it is. -/
theorem Effect.LeavesProperty.property?_apply {e : Effect} {m : Machine} {o : ObjectId}
    {key : String} (he : e.LeavesProperty o key) (ho : o < m.store.size) :
    ((e.apply m).store.object o).property? key = (m.store.object o).property? key := by
  cases e with
  | object => simp [apply, Store.object_add, Nat.ne_of_lt ho]
  | define id key' p =>
    simp only [apply]
    split
    next o' h =>
      rw [Store.object_put]
      split
      next hid =>
        have hkey : key' ≠ key := fun hkey => he ⟨hid.1.symm, hkey⟩
        rw [Object.property?_of_define h, if_neg hkey, hid.1]
      next => rfl
    next => rfl
  | delete id key' =>
    simp only [apply, Store.object_put]
    split
    next hid =>
      have hkey : key' ≠ key := fun hkey => he ⟨hid.1.symm, hkey⟩
      rw [Object.property?_delete_of_ne hkey, hid.1]
    next => rfl
  | close id | relink id =>
    simp only [apply, Store.object_put]
    split
    next hid =>
      rw [hid.1]
      rfl
    next => rfl
  | _ => rfl

/-- The second machine has come about from the first one by effects. -/
theorem Machine.effects_lasting : Lasting fun m m' => ∃ es, m' = Effect.applyAll es m where
  refl _ := ⟨[], rfl⟩
  trans := by
    rintro m _ _ ⟨es, rfl⟩ ⟨es', rfl⟩
    exact ⟨es ++ es', (List.foldl_append ..).symm⟩
  effect e _ := ⟨[e], rfl⟩

section Own

variable {m : Machine} {o : ObjectId} {name : String} {v : Value}

/-- An own value is read without further ado. -/
theorem outcome_readFrom_of_own {writable enumerable configurable : Bool}
    (h : (m.store.object o).property? name = some (.data v writable enumerable configurable))
    (perform : Performer) (receiver : Value) :
    (readFrom perform o name receiver).outcome m = (some (.ok v), m) := by
  simp only [readFrom, outcome_bind, outcome_get, Store.search_of_property? h, outcome_pure]

/-- A property that is defined as it is already changes nothing. -/
theorem Object.define_self {obj : Object} {key : String} {p : Property}
    (h : obj.property? key = some p) (hp : p.isConfigurable = true) :
    obj.define key p = .ok obj := by
  have hsame : obj.properties.insert key p = obj.properties := by
    refine Std.ExtTreeMap.ext_getElem? fun key' => ?_
    rw [Std.ExtTreeMap.getElem?_insert]
    split
    next heq =>
      rw [Std.LawfulEqCmp.compare_eq_iff_eq] at heq
      exact heq ▸ h.symm
    next => rfl
  simp only [define, h, hp, if_true, hsame]

/-- **A plain property is the object's own**, until it is changed itself. -/
theorem owns_of_property? (ho : o < m.store.size)
    (h : (m.store.object o).property? name = some (.plain v)) (perform : Performer) :
    m.Owns perform o name v where
  again := by
    have hself : (m.store.object o).define name (.plain v) = .ok (m.store.object o) :=
      Object.define_self h rfl
    have hread : (fieldValue perform o (.bare name)).outcome m = (some (.ok v), m) :=
      outcome_readFrom_of_own h perform (.ref o)
    rw [installField, outcome_bind, hread]
    simp only [outcome_bind, outcome_defineOn, FieldRecord.bare, hself, Store.put_object]
    rfl
  stays es hes perform' receiver := by
    -- the property is the same after each of the effects, and the object stays in its place
    have hkept : o < (Effect.applyAll es m).store.size ∧
        ((Effect.applyAll es m).store.object o).property? name = some (.plain v) := by
      refine Effect.applyAll_induction (P := fun m => o < m.store.size ∧
        (m.store.object o).property? name = some (.plain v)) (fun e he m hm => ?_) ⟨ho, h⟩
      exact ⟨Nat.lt_of_lt_of_le hm.1 (e.size_apply m),
        ((hes e he).property?_apply hm.1).trans hm.2⟩
    exact outcome_readFrom_of_own hkept.2 perform' receiver
  operations settings stop levels _ c :=
    Machine.effects_lasting.of_obeys (call_obeys (L := Machine.effects_lasting.law)
      Machine.effects_lasting.effect settings (fun _ task => interpretUntil_obeys
        (L := Machine.effects_lasting.law) Machine.effects_lasting.effect settings stop levels task)
      c) m

end Own

/-! ### The read and the write together -/

section Law

variable {perform : Performer} {m m₁ : Machine} {o : ObjectId} {name : String} {v : Value}
  (hread : (readFrom perform o name (.ref o)).outcome m = (some (.ok v), m₁))

include hread

/-- After the read, the property is defined. -/
theorem outcome_installField_of_read : (installField perform o (.bare name)).outcome m =
    (defineOn o name (.plain v) >>= fun _ => note (.installed o (.bare name) v)).outcome m₁ := by
  have hvalue : (fieldValue perform o (.bare name)).outcome m = (some (.ok v), m₁) := hread
  rw [installField, outcome_bind, hvalue]
  rfl

/-- Where the object does not take the property, the field fails and nothing more is done. -/
theorem installField_failsFrom {f : Fault} (hf : (m₁.store.object o).refusal? name = some f)
    (hkind : f.kind? = some .type) :
    (installField perform o (.bare name)).FailsFrom m m₁ .type f :=
  ⟨hkind, (outcome_installField_of_read hread).trans ((defineOn_fails hf _).bind _)⟩

/-- Where it does, the value is its own afterwards. -/
theorem installField_copies (ho : o < m₁.store.size)
    (hno : (m₁.store.object o).refusal? name = none) :
    ∃ store m₂, (installField perform o (.bare name)).outcome m = (some (.ok ⟨⟩), m₂) ∧
      m₂ = { m₁ with store, trace := .installed o (.bare name) v :: m₁.trace } ∧
      m₁.store.Differs store o name (.plain v)
        (if ((m₁.store.object o).property? name).isSome then (m₁.store.object o).keys
          else (m₁.store.object o).keys ++ [name]) ∧
      ∀ perform', m₂.Owns perform' o name v := by
  obtain ⟨o', ho'⟩ := Object.define_of_no_refusal hno (.plain v)
  have hdiffers := Store.differs_put ho ho'
  refine ⟨m₁.store.put o o', _, ?_, rfl, hdiffers, fun perform' => ?_⟩
  · rw [outcome_installField_of_read hread, outcome_bind, outcome_defineOn, ho']
    rfl
  · refine owns_of_property? ?_ ?_ perform'
    · exact Nat.lt_of_lt_of_eq ho hdiffers.size.symm
    · exact hdiffers.property

end Law

/-- **Fields without an initializer.** In a store without cycles, a field without an initializer
that is installed on any object copies forward what the object shows under its name. The value is
read along the chain first, for which at most one getter runs, on behalf of the object. It
becomes a plain property of the object itself, and nothing else is changed, unless the object
does not take the property at this moment; then the field fails, and all is as the read has left
it. Afterwards a second installation changes nothing, and the value is read from the object until
its property is written or removed, whatever happens to its prototypes. -/
theorem bareField_law (settings : Settings) (stop : Machine → Bool) (levels : Nat) (m : Machine)
    (hm : m.store.Acyclic) (o : ObjectId) (ho : o < m.store.size) (name : String) :
    ∃ os, m.store.Chain (some o) os ∧
      m.CopiesForward (interpretUntil settings stop levels) o name os := by
  obtain ⟨rest, hchain⟩ := hm.exists_chain o
  refine ⟨o :: rest, hchain, ?_⟩
  constructor
  case reads =>
    exact hchain.outcome_readFrom _ name (.ref o)
  case own =>
    intro v writable enumerable configurable h
    exact outcome_readFrom_of_own h _ _
  case broken =>
    intro m₁ h
    have hvalue : (fieldValue (interpretUntil settings stop levels) o (.bare name)).outcome m =
      (none, m₁) := h
    rw [installField, outcome_bind, hvalue]
  case unread =>
    intro e m₁ h
    have hvalue : (fieldValue (interpretUntil settings stop levels) o (.bare name)).outcome m =
      (some (.error e), m₁) := h
    rw [installField, outcome_bind, hvalue]
  case fixed =>
    intro v m₁ p hread hp hfixed
    exact installField_failsFrom hread (refusal?_of_fixed hp hfixed) rfl
  case closed =>
    intro v m₁ hread hnone hclosed
    exact installField_failsFrom hread (by simp [Object.refusal?, hnone, hclosed]) rfl
  case copied =>
    intro v m₁ hread hno
    -- a getter may do what it likes, but it does not take the object away
    have hguards := Machine.guards_lasting.of_obeys
      ((readFrom_client (A := Effect.IsClient) (X := .none) o name (.ref o)).obeys
        (fun e _ => Machine.guards_lasting.effect e) (fun _ _ h => h.elim) fun e ctx =>
          interpretUntil_obeys (L := Machine.guards_lasting.law) Machine.guards_lasting.effect
            settings stop levels (.eval e ctx)) m
    rw [hread] at hguards
    exact installField_copies hread (Nat.lt_of_lt_of_le ho hguards.size) hno

/-- An object that inherits a getter. -/
def inheritingGetter : Expr :=
  .sequence [
    .assign "p" (.primitive .newObject [.literal .null]),
    .defineProperty (.primitive .register [.literal (.str "p")]) (.literal (.str "x"))
      (.accessor (.function "getX" (.literal (.str "inherited"))) (.literal .null) false true),
    .primitive .newObject [.primitive .register [.literal (.str "p")]]]

theorem bareField_law_of_inheritingGetter : ∃ m, (AtRest {} m ∧ m.store.Acyclic ∧
    1 < m.store.size) ∧ ((installField (interpret {} 9) 1 (.bare "x")).outcome m).1.isSome ∧
      ∃ os, m.store.Chain (some 1) os ∧ m.CopiesForward (interpret {} 9) 1 "x" os := by
  have hrun : ((runStep {} 9 inheritingGetter .initial).any fun p => decide p.2.LinksKept &&
      decide (1 < p.2.store.size) &&
      ((installField (interpret {} 9) 1 (.bare "x")).outcome p.2).1.isSome) = true := by
    decide +kernel
  obtain ⟨⟨report, m⟩, hm, h⟩ := (Option.any_eq_true ..).mp hrun
  simp only [Bool.and_eq_true, decide_eq_true_eq] at h
  obtain ⟨⟨hkept, hsize⟩, hinstalled⟩ := h
  have hm : AtRest {} m := .step .initial hm
  have hacyclic := ((Occurs.rest hm).linksBack.descends hkept).acyclic
  obtain ⟨os, hchain, hlaw⟩ := bareField_law {} (fun _ => false) 9 m hacyclic 1 hsize "x"
  rw [interpretUntil_never] at hlaw
  exact ⟨m, ⟨hm, hacyclic, hsize⟩, hinstalled, os, hchain, hlaw⟩

end ClassMachine
