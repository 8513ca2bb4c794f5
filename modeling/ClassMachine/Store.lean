import ClassMachine.Object

/-!
# The store

All objects live in one store, which only ever grows; an object is known by its
place. `ClassMachine.Store.object` reads any place, also one that was never handed
out, where it finds a blank object.

Objects are linked to their prototypes, and a property is looked for on the object
itself, then on its prototype, and so on. The links may form a circle, since
clients can redirect them. `ClassMachine.Store.search` therefore has three
outcomes: the nearest owner with its property, no owner on a chain that ends, and
no owner on a chain that does not end. A chain that has more links than the store
has objects does not end.
-/

namespace ClassMachine

/-- The objects, each at the place that is its identity. -/
structure Store where
  objects : Array Object := #[]

namespace Store

/-! ### Reading and writing -/

/-- How many objects there are. -/
def size (s : Store) : Nat :=
  s.objects.size

/-- What an unused place reads as. -/
def blank : Object :=
  { kind := .ordinary, prototype := none }

/-- The object at a place. -/
def object (s : Store) (id : ObjectId) : Object :=
  s.objects.getD id blank

/-- Adds an object and hands out its place. -/
def add (s : Store) (o : Object) : ObjectId × Store :=
  (s.size, ⟨s.objects.push o⟩)

/-- Replaces the object at a place that is in use. -/
def put (s : Store) (id : ObjectId) (o : Object) : Store :=
  ⟨s.objects.setIfInBounds id o⟩

@[simp] theorem size_add (s : Store) (o : Object) : (s.add o).2.size = s.size + 1 := by
  simp [add, size]

@[simp] theorem size_put (s : Store) (id : ObjectId) (o : Object) :
    (s.put id o).size = s.size := by
  simp [put, size]

/-- Where no object is, there is a blank one. -/
theorem object_of_le {s : Store} {id : ObjectId} (h : s.size ≤ id) : s.object id = blank := by
  rw [object, Array.getD_eq_getD_getElem?, Array.getElem?_eq_none h]
  rfl

/-- A new object stands behind all others and changes none of them. -/
theorem object_add (s : Store) (o : Object) (id : ObjectId) :
    (s.add o).2.object id = if id = s.size then o else s.object id := by
  simp only [add, object, size, Array.getD_eq_getD_getElem?, Array.getElem?_push]
  split <;> simp

/-- Replacing an object changes no other one. -/
theorem object_put (s : Store) (id : ObjectId) (o : Object) (id' : ObjectId) :
    (s.put id o).object id' = if id' = id ∧ id < s.size then o else s.object id' := by
  simp only [put, object, size, Array.getD_eq_getD_getElem?, Array.getElem?_setIfInBounds]
  by_cases h : id = id'
  · subst h
    by_cases hs : id < s.objects.size <;> simp [hs]
  · have h' : ¬ id' = id := fun e => h e.symm
    simp [h, h']

/-- Putting an object back where it is changes nothing. -/
@[simp] theorem put_object (s : Store) (id : ObjectId) : s.put id (s.object id) = s := by
  have hobjects : s.objects.setIfInBounds id (s.objects.getD id blank) = s.objects := by
    refine Array.ext (by simp) fun i _ hi => ?_
    rw [Array.getElem_setIfInBounds]
    split
    next h => simp [h, hi]
    next => rfl
  rw [put, object, hobjects]

/-! ### Chains -/

/-- Where the search for a property ends. -/
inductive Search
  /-- At the nearest object that owns the key. -/
  | owned (owner : ObjectId) (p : Property)
  /-- At the end of the chain. -/
  | missing
  /-- Nowhere. -/
  | endless

/-- Looks for the key along at most `fuel` objects of a chain. -/
def searchFrom (s : Store) (key : String) : Nat → Option ObjectId → Search
  | _, none => .missing
  | 0, some _ => .endless
  | fuel + 1, some id =>
    match (s.object id).property? key with
    | some p => .owned id p
    | none => s.searchFrom key fuel (s.object id).prototype

/-- The nearest owner of the key, starting at the object itself. -/
def search (s : Store) (key : String) (id : ObjectId) : Search :=
  s.searchFrom key (s.size + 1) (some id)

/-- Looks for an object along at most `fuel` objects of a chain; no answer means
that the chain does not end and the object is not on it. -/
def reachesFrom (s : Store) (goal : ObjectId) : Nat → Option ObjectId → Option Bool
  | _, none => some false
  | 0, some _ => none
  | fuel + 1, some id =>
    if id = goal then some true else s.reachesFrom goal fuel (s.object id).prototype

/-- Is the goal a proper ancestor of the object? -/
def descendsFrom? (s : Store) (id goal : ObjectId) : Option Bool :=
  s.reachesFrom goal (s.size + 1) (s.object id).prototype

/-- What a search finds is a property of its owner. -/
theorem property?_of_searchFrom {s : Store} {key : String} {owner : ObjectId} {p : Property}
    {fuel : Nat} {start : Option ObjectId} (h : s.searchFrom key fuel start = .owned owner p) :
    (s.object owner).property? key = some p := by
  induction fuel generalizing start with
  | zero => cases start <;> simp [searchFrom] at h
  | succ fuel ih =>
    cases start with
    | none => simp [searchFrom] at h
    | some id =>
      rw [searchFrom] at h
      split at h
      · cases h; assumption
      · exact ih h

/-- An object that owns the key is where the search for it ends. -/
theorem search_of_property? {s : Store} {key : String} {id : ObjectId} {p : Property}
    (h : (s.object id).property? key = some p) : s.search key id = .owned id p := by
  simp [search, searchFrom, h]

end Store

end ClassMachine
