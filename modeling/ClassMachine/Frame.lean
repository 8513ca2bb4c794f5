import ClassMachine.Class

/-!
# Construction frames

Each construction in progress, and each call of a parent constructor inside it, has
a frame. It says which class runs, for which class the instance is made, and which
object is under construction – if it is bound yet. The object is bound once:
`ClassMachine.Frame.bind?` refuses a second one.
-/

namespace ClassMachine

/-- How far a frame is. -/
inductive Phase
  /-- A derived constructor runs and nothing is bound yet. -/
  | awaitingSuper
  /-- A base class has allocated the object. -/
  | allocated
  /-- The parent constructor has returned and its object is bound. -/
  | thisBound
  /-- The own fields of the class are on the object. -/
  | fieldsInstalled
  /-- The constructor body runs. -/
  | body
  deriving DecidableEq, Repr

/-- The word for a phase. -/
def Phase.word : Phase → String
  | awaitingSuper => "AwaitingSuper"
  | allocated => "Allocated"
  | thisBound => "ThisBound"
  | fieldsInstalled => "FieldsInstalled"
  | body => "Body"

/-- A construction in progress. -/
structure Frame where
  /-- The class whose constructor runs. -/
  cls : ClassId
  /-- The class the instance is made for. -/
  newTarget : ClassId
  /-- The object under construction, once it is bound. -/
  this : Option ObjectId := none
  phase : Phase := .awaitingSuper
  deriving DecidableEq, Repr

namespace Frame

/-- Moves the frame on. -/
def enter (f : Frame) (phase : Phase) : Frame :=
  { f with phase := phase }

/-- Binds the object under construction, which must not be bound yet. -/
def bind? (f : Frame) (this : ObjectId) (phase : Phase) : Except Fault Frame :=
  match f.this with
  | some _ => .error .boundTwice
  | none => .ok { f with this := some this, phase := phase }

/-- Binding succeeds exactly on a frame without an object. -/
theorem bind?_eq_ok_iff {f f' : Frame} {this : ObjectId} {phase : Phase} :
    f.bind? this phase = .ok f' ↔
      f.this = none ∧ f' = { f with this := some this, phase := phase } := by
  unfold bind?
  cases f.this <;> simp [eq_comm]

/-- There is one reason to refuse an object. -/
theorem bind?_eq_error {f : Frame} {this : ObjectId} {phase : Phase} {fault : Fault}
    (h : f.bind? this phase = .error fault) : fault = .boundTwice := by
  unfold bind? at h
  split at h <;> simp at h
  exact h.symm

end Frame

end ClassMachine
