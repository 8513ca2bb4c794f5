import ClassMachine.Class

/-!
# The registry of classes

The registry numbers classes in the order in which their definitions begin, and
finds them by number and by name. A name belongs to the class that was registered
under it last; `ClassMachine.Registry.register` hands back the class that had the
name before, and `ClassMachine.Registry.withdraw` gives it back when a definition
fails after all. A class that a registered class has as its parent is not removed.
-/

namespace ClassMachine

/-- The classes by number, the names in use, and the last number drawn. -/
structure Registry where
  lastId : ClassId := 0
  classes : Std.ExtTreeMap ClassId Class := {}
  names : Std.ExtTreeMap String ClassId := {}

namespace Registry

/-! ### Questions -/

/-- The class of that number. -/
def class? (r : Registry) (id : ClassId) : Option Class :=
  r.classes[id]?

/-- The class of that name. -/
def classId? (r : Registry) (name : String) : Option ClassId :=
  r.names[name]?

/-- Is there a class of that number? -/
def contains (r : Registry) (id : ClassId) : Bool :=
  r.classes.contains id

/-- How many classes there are. -/
def size (r : Registry) : Nat :=
  r.classes.size

/-- Are there no classes? -/
def isEmpty (r : Registry) : Bool :=
  r.classes.isEmpty

/-- The class of that number, for use. -/
def require (r : Registry) (id : ClassId) : Except Fault Class :=
  match r.class? id with
  | some c => .ok c
  | none => .error (.noSuchClass id)

/-- The class of that number, for change. -/
def requireForChange (r : Registry) (id : ClassId) : Except Fault Class :=
  match r.class? id with
  | some c => .ok c
  | none => .error (.nothingToChange id)

theorem requireForChange_eq_ok {r : Registry} {id : ClassId} {c : Class}
    (h : r.requireForChange id = .ok c) : r.class? id = some c := by
  unfold requireForChange at h
  split at h <;> simp only [Except.ok.injEq, reduceCtorEq] at h
  exact h ▸ ‹_›

theorem requireForChange_eq_error {r : Registry} {id : ClassId} {f : Fault}
    (h : r.requireForChange id = .error f) : f = .nothingToChange id := by
  unfold requireForChange at h
  split at h <;> simp only [Except.error.injEq, reduceCtorEq] at h
  exact h.symm

/-- Does a registered class have this one as its parent? -/
def hasSubclass (r : Registry) (id : ClassId) : Bool :=
  r.classes.toList.any fun entry => entry.2.parent == some id

/-! ### Changes -/

/-- Draws the next number. -/
def drawId (r : Registry) : ClassId × Registry :=
  (r.lastId + 1, { r with lastId := r.lastId + 1 })

/-- Puts a class under its number. -/
def put (r : Registry) (c : Class) : Registry :=
  { r with classes := r.classes.insert c.id c }

/-- Registers a class under its number and its name, and hands back the class that
had the name before. -/
def register (r : Registry) (c : Class) : Option ClassId × Registry :=
  match c.name with
  | some name => (r.classId? name, { r.put c with names := r.names.insert name c.id })
  | none => (none, r.put c)

/-- The names once the class no longer has its own: it goes back to the class that
had it before, unless another class has taken it meanwhile. -/
def releaseName (r : Registry) (id : ClassId) (shadowed : Option ClassId) :
    Std.ExtTreeMap String ClassId :=
  match (r.class? id).bind Class.name with
  | some name =>
    if r.classId? name = some id then
      match shadowed with
      | some previous => r.names.insert name previous
      | none => r.names.erase name
    else r.names
  | none => r.names

/-- Takes back a registration. The class stays as long as another one depends on
it. -/
def withdraw (r : Registry) (id : ClassId) (shadowed : Option ClassId) : Registry :=
  { r with
    names := r.releaseName id shadowed
    classes := if r.hasSubclass id then r.classes else r.classes.erase id }

/-! ### Changes through the questions -/

/-- Containing a class is having one of that number. -/
theorem contains_eq_isSome (r : Registry) (id : ClassId) :
    r.contains id = (r.class? id).isSome := by
  simp [contains, class?]

/-- Having a subclass is being the parent of a class of some number. -/
theorem hasSubclass_iff {r : Registry} {id : ClassId} :
    r.hasSubclass id = true ↔ ∃ id' c, r.class? id' = some c ∧ c.parent = some id := by
  simp only [hasSubclass, List.any_eq_true, beq_iff_eq, Prod.exists, class?,
    Std.ExtTreeMap.mem_toList_iff_getElem?_eq_some]

@[simp] theorem fst_drawId (r : Registry) : r.drawId.1 = r.lastId + 1 := rfl

@[simp] theorem lastId_drawId (r : Registry) : r.drawId.2.lastId = r.lastId + 1 := rfl

@[simp] theorem class?_drawId (r : Registry) (id : ClassId) :
    r.drawId.2.class? id = r.class? id := rfl

@[simp] theorem classId?_drawId (r : Registry) (name : String) :
    r.drawId.2.classId? name = r.classId? name := rfl

@[simp] theorem lastId_put (r : Registry) (c : Class) : (r.put c).lastId = r.lastId := rfl

@[simp] theorem classId?_put (r : Registry) (c : Class) (name : String) :
    (r.put c).classId? name = r.classId? name := rfl

@[simp] theorem lastId_register (r : Registry) (c : Class) :
    (r.register c).2.lastId = r.lastId := by
  rw [register]
  cases c.name <;> rfl

@[simp] theorem lastId_withdraw (r : Registry) (id : ClassId) (shadowed : Option ClassId) :
    (r.withdraw id shadowed).lastId = r.lastId := rfl

/-- Putting a class changes what is found under its number only. -/
theorem class?_put (r : Registry) (c : Class) (id : ClassId) :
    (r.put c).class? id = if c.id = id then some c else r.class? id := by
  simp [put, class?, Std.ExtTreeMap.getElem?_insert, Std.LawfulEqCmp.compare_eq_iff_eq]

/-- Registering a class changes what is found under its number only. -/
theorem class?_register (r : Registry) (c : Class) (id : ClassId) :
    (r.register c).2.class? id = if c.id = id then some c else r.class? id := by
  rw [← class?_put, register]
  cases c.name <;> rfl

/-- Registering a class changes what is found under its name only. -/
theorem classId?_register (r : Registry) (c : Class) (name : String) :
    (r.register c).2.classId? name =
      if c.name = some name then some c.id else r.classId? name := by
  rw [register]
  cases h : c.name with
  | none => simp [put, classId?]
  | some n =>
    simp [classId?, Std.ExtTreeMap.getElem?_insert, Std.LawfulEqCmp.compare_eq_iff_eq]

/-- Withdrawing a class changes what is found under its name only, and only if the name
is still its own. -/
theorem classId?_withdraw (r : Registry) (id : ClassId) (shadowed : Option ClassId)
    (name : String) :
    (r.withdraw id shadowed).classId? name =
      if (r.class? id).bind Class.name = some name ∧ r.classId? name = some id then shadowed
      else r.classId? name := by
  simp only [withdraw, releaseName, classId?]
  cases hname : (r.class? id).bind Class.name with
  | none => simp
  | some n =>
    by_cases hid : r.names[n]? = some id <;> cases shadowed <;>
      by_cases hn : n = name <;>
      simp_all [Std.ExtTreeMap.getElem?_insert, Std.ExtTreeMap.getElem?_erase,
        Std.LawfulEqCmp.compare_eq_iff_eq]

/-- A class keeps its number and name and is still there after a withdrawal exactly
if it is another one or has a subclass. -/
theorem class?_withdraw (r : Registry) (id : ClassId) (shadowed : Option ClassId)
    (id' : ClassId) :
    (r.withdraw id shadowed).class? id' =
      if id = id' ∧ r.hasSubclass id = false then none else r.class? id' := by
  cases h : r.hasSubclass id <;>
    simp [withdraw, h, class?, Std.ExtTreeMap.getElem?_erase, Std.LawfulEqCmp.compare_eq_iff_eq]

end Registry

end ClassMachine
