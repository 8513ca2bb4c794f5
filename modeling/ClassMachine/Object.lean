import Std.Data.ExtTreeMap
import ClassMachine.Fault

/-!
# Objects and their properties

An object has a kind, a link to its prototype, and properties under text keys. A
property either holds a value or is an accessor, a getter and a setter of which
either may be missing. The keys of an object stand in the order in which they were
defined; the properties themselves are in a search tree, so an object keeps two
containers that have to agree.

* `ClassMachine.Object.define` adds or replaces a property, unless the old one is
  not configurable or the object takes no new ones;
* `ClassMachine.Object.delete` removes one, unless it is not configurable;
* `ClassMachine.Object.property?` and `ClassMachine.Object.keys` are the two views on
  which these operations are described.
-/

namespace ClassMachine

/-! ### Properties -/

/-- What an object has under a key. -/
inductive Property
  /-- A value. -/
  | data (value : Value) (writable enumerable configurable : Bool)
  /-- A pair of functions that stand for a value. -/
  | accessor (getter setter : Option Function) (enumerable configurable : Bool)

namespace Property

/-- A property that allows everything; every installed field is of this shape. -/
def plain (value : Value) : Property :=
  .data value true true true

/-- A property that allows everything but enumeration, as methods have it. -/
def hidden (value : Value) : Property :=
  .data value true false true

/-- May the property be redefined or removed? -/
def isConfigurable : Property → Bool
  | data _ _ _ configurable => configurable
  | accessor _ _ _ configurable => configurable

end Property

/-! ### Objects -/

/-- What an object stands for in constructions. -/
inductive ObjectKind
  | ordinary
  /-- An instance constructed for the class. -/
  | instance (cls : ClassId)
  /-- The class object of the class. -/
  | classObject (cls : ClassId)
  deriving DecidableEq, Repr

/-- An object: `keys` has the keys of `properties`, in the order of definition. -/
structure Object where
  kind : ObjectKind
  prototype : Option ObjectId
  keys : List String := []
  properties : Std.ExtTreeMap String Property := {}
  extensible : Bool := true

namespace Object

/-- The property under a key, if the object owns one. -/
def property? (o : Object) (key : String) : Option Property :=
  o.properties[key]?

/-- Does the object own the key? -/
def hasOwn (o : Object) (key : String) : Bool :=
  o.properties.contains key

/-- Defines or redefines an own property. A new key goes to the end, a redefined
one keeps its place. -/
def define (o : Object) (key : String) (p : Property) : Except Fault Object :=
  match o.property? key with
  | some old =>
    if old.isConfigurable then .ok { o with properties := o.properties.insert key p }
    else .error (.notConfigurable key)
  | none =>
    if o.extensible then
      .ok { o with keys := o.keys ++ [key], properties := o.properties.insert key p }
    else .error (.notExtensible key)

/-- Removes an own property. The answer is whether the object is without the key
afterwards. -/
def delete (o : Object) (key : String) : Bool × Object :=
  match o.property? key with
  | some old =>
    if old.isConfigurable then
      (true, { o with
        keys := o.keys.filter (· != key), properties := o.properties.erase key })
    else (false, o)
  | none => (true, o)

/-- Closes the object to new properties. -/
def preventExtensions (o : Object) : Object :=
  { o with extensible := false }

/-- Redirects the prototype link. -/
def relink (o : Object) (prototype : Option ObjectId) : Object :=
  { o with prototype := prototype }

/-! ### The operations through the views -/

/-- Owning a key is having a property under it. -/
theorem hasOwn_eq_isSome (o : Object) (key : String) :
    o.hasOwn key = (o.property? key).isSome := by
  simp [hasOwn, property?]

/-- A definition that succeeds puts the property under its key and leaves all other
keys as they were. -/
theorem property?_of_define {o o' : Object} {key : String} {p : Property}
    (h : o.define key p = .ok o') (key' : String) :
    o'.property? key' = if key = key' then some p else o.property? key' := by
  unfold define at h
  split at h <;> split at h <;> cases h <;>
    simp [property?, Std.ExtTreeMap.getElem?_insert, Std.LawfulEqCmp.compare_eq_iff_eq]

/-- A definition is refused exactly when the key is there and fixed, or is missing
and the object is closed. -/
theorem define_eq_error_iff {o : Object} {key : String} {p : Property} :
    (∃ f, o.define key p = .error f) ↔
      (∃ old, o.property? key = some old ∧ old.isConfigurable = false) ∨
        (o.property? key = none ∧ o.extensible = false) := by
  unfold define
  cases hp : o.property? key with
  | some old => cases hc : old.isConfigurable <;> simp [hc]
  | none => cases he : o.extensible <;> simp

/-- The faults of a definition. -/
theorem define_eq_error {o : Object} {key : String} {p : Property} {f : Fault}
    (h : o.define key p = .error f) : f = .notConfigurable key ∨ f = .notExtensible key := by
  unfold define at h
  split at h <;> split at h <;> simp at h <;> simp [h]

/-- The keys after a definition: unchanged if the key was there, else one longer. -/
theorem keys_of_define {o o' : Object} {key : String} {p : Property}
    (h : o.define key p = .ok o') :
    o'.keys = if (o.property? key).isSome then o.keys else o.keys ++ [key] := by
  unfold define at h
  split at h <;> split at h <;> cases h <;> simp [*]

/-- A definition changes neither the kind nor the prototype link. -/
theorem shape_of_define {o o' : Object} {key : String} {p : Property}
    (h : o.define key p = .ok o') : o'.kind = o.kind ∧ o'.prototype = o.prototype := by
  unfold define at h
  split at h <;> split at h <;> cases h <;> exact ⟨rfl, rfl⟩

/-- A definition neither closes the object nor opens it. -/
theorem extensible_define {o o' : Object} {key : String} {p : Property}
    (h : o.define key p = .ok o') : o'.extensible = o.extensible := by
  unfold define at h
  split at h <;> split at h <;> cases h <;> rfl

/-- Removal changes neither the kind nor the prototype link. -/
theorem shape_delete (o : Object) (key : String) :
    (o.delete key).2.kind = o.kind ∧ (o.delete key).2.prototype = o.prototype := by
  unfold delete
  split
  · split <;> exact ⟨rfl, rfl⟩
  · exact ⟨rfl, rfl⟩

/-- Removal neither closes the object nor opens it. -/
theorem extensible_delete (o : Object) (key : String) :
    (o.delete key).2.extensible = o.extensible := by
  unfold delete
  split
  · split <;> rfl
  · rfl

/-- The keys after a removal: without the key, if it was there and not fixed. -/
theorem keys_delete (o : Object) (key : String) :
    (o.delete key).2.keys =
      if (o.property? key).any Property.isConfigurable then o.keys.filter (· != key)
      else o.keys := by
  unfold delete
  split
  · split <;> simp [*]
  · simp [*]

/-- Removal is refused if the property is fixed. -/
theorem fst_delete (o : Object) (key : String) :
    (o.delete key).1 = (o.property? key).all Property.isConfigurable := by
  unfold delete
  split
  · split <;> simp [*]
  · simp [*]

/-- Removal takes away the property, unless it is fixed, and no other one. -/
theorem property?_delete (o : Object) (key key' : String) :
    (o.delete key).2.property? key' =
      if key = key' ∧ (o.property? key).any Property.isConfigurable then none
      else o.property? key' := by
  unfold delete
  split
  next old hold =>
    split
    next hfree =>
      rw [hold, property?, Std.ExtTreeMap.getElem?_erase, ← property?]
      simp [hfree, Std.LawfulEqCmp.compare_eq_iff_eq]
    next hfixed => simp [hold, hfixed]
  next hnone => simp [hnone]

/-- Removal leaves all other keys as they were. -/
theorem property?_delete_of_ne {o : Object} {key key' : String} (h : key ≠ key') :
    (o.delete key).2.property? key' = o.property? key' := by
  rw [property?_delete, if_neg fun h' => h h'.1]

/-- Removal answers whether the key is gone. -/
theorem property?_delete_self (o : Object) (key : String) :
    (o.delete key).1 = ((o.delete key).2.property? key).isNone := by
  rw [fst_delete, property?_delete]
  cases o.property? key with
  | none => simp
  | some old => cases h : old.isConfigurable <;> simp [h]

end Object

end ClassMachine
