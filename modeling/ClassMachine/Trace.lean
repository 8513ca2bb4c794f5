import ClassMachine.Frame

/-!
# The trace

The machine notes what it does, as it does it: which library steps begin and how
they end, which constructors and bodies run, what happens to the registry, what
clients change on objects, every fault at the moment at which it is raised and every
failure that a client catches. Three of the notes are announcements, which a log of
sufficient verbosity shows as lines of text (`ClassMachine.Event.line?`); the others
are for whoever wants to follow a run.

A step that is under way is an activity, `ClassMachine.Activity`. When it fails, the
failure gets the fault of that activity as a further layer
(`ClassMachine.Activity.context`).
-/

namespace ClassMachine

/-- A library step that runs client code and puts its name on failures. -/
inductive Activity
  /-- A computed field name is being evaluated. -/
  | namingField (cls : ClassId) (className : String) (name : Expr)
  /-- A static field is being installed on the class object. -/
  | staticField (cls : ClassId) (className : String) (target : ObjectId) (record : FieldRecord)
  /-- An instance field is being installed. -/
  | instanceField (cls : ClassId) (className : String) (target : ObjectId) (record : FieldRecord)

/-- The layer that the activity adds to a failure. -/
def Activity.context : Activity → Fault
  | namingField _ className _ => .computedName className
  | staticField _ className _ record => .staticField record.name className
  | instanceField _ className _ record => .instanceField record.name className

/-- What the trace notes. -/
inductive Event
  /-- Announcement: a class definition begins. -/
  | defining (className : String)
  /-- Announcement: a construction begins. -/
  | constructing (className : String)
  /-- Announcement: an initializer is about to be exchanged. -/
  | replacing (field : String) (cls : ClassId)
  | began (activity : Activity)
  | finished (activity : Activity)
  | failed (activity : Activity)
  /-- The constructor of a class is called for a new-target. -/
  | called (cls newTarget : ClassId)
  /-- An instance has been made for the new-target. -/
  | allocated (object : ObjectId) (newTarget : ClassId)
  /-- The instance fields that a class declares are about to be installed on an
  object; the frame is the innermost one. -/
  | installing (frame : Option Frame) (cls : ClassId) (className : String) (target : ObjectId)
      (records : List FieldRecord)
  /-- The value of a field has become an own property of an object. -/
  | installed (object : ObjectId) (record : FieldRecord) (value : Value)
  /-- A call of the parent constructor from a frame of the class succeeds. -/
  | superReturned (cls : ClassId) (object : ObjectId)
  /-- A constructor body begins, with the object if one is bound already. -/
  | bodyEntered (cls : ClassId) (this : Option ObjectId) (args : List Value)
  /-- A construction of a class succeeds, other than one through a call of the parent
  constructor. -/
  | constructed (cls : ClassId) (object : ObjectId)
  /-- A definition has got its number. -/
  | numbered (cls : ClassId)
  /-- A class is in the registry from here on. -/
  | registered (c : Class)
  /-- The definition of a class has succeeded. -/
  | completed (cls : ClassId)
  /-- The registration of a class is taken back; the class is kept if a registered
  class has it as its parent. -/
  | withdrawn (cls : ClassId) (kept : Bool)
  /-- The instance fields of that name have another initializer from here on. -/
  | replaced (cls : ClassId) (field : String) (initializer : Option Expr)
  /-- A client has changed the properties of an object, other than through a field. -/
  | changed (object : ObjectId)
  /-- A client has redirected the prototype link of an object. -/
  | relinked (object : ObjectId)
  /-- A fault arises. -/
  | raised (fault : Fault)
  /-- A client has caught a failure. -/
  | caught (failure : Failure)

/-- What an announcement is in a log. -/
def Event.line? : Event → Option String
  | defining className => some ("define class " ++ className)
  | constructing className => some ("construct " ++ className)
  | replacing field cls => some s!"replace initializer of field {field} on class {cls}"
  | _ => none

end ClassMachine
