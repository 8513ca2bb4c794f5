import ClassMachine.Access

/-!
# Installing fields

A field is installed on its target by one rule, for instances and class objects
alike. With an initializer, the initializer runs with the target as its receiver.
Without one, the value that the target shows under the name is read, through the
prototype chain, and becomes its own. Either way the value overwrites what the
target owned under the name, as a plain property.

The instance fields of a class are installed in declaration order and up to the
first that fails. The list of records is read once, before the first of them runs,
so initializers exchanged meanwhile do not matter.
-/

namespace ClassMachine

variable (perform : Performer)

/-- The value of a field on its target. -/
def fieldValue (target : ObjectId) (record : FieldRecord) : Action Value :=
  match record.initializer with
  | some initializer => perform (.eval initializer { receiver := .ref target })
  | none => readFrom perform target record.name (.ref target)

/-- Installs one field. -/
def installField (target : ObjectId) (record : FieldRecord) : Action Unit := do
  let value ← fieldValue perform target record
  defineOn target record.name (.plain value)
  note (.installed target record value)

/-- Installs fields one after the other, each as an activity of its own. -/
def installFields (activity : FieldRecord → Activity) (target : ObjectId) :
    List FieldRecord → Action Unit
  | [] => pure ()
  | record :: rest => do
    during (activity record) (installField perform target record)
    installFields activity target rest

/-- Installs the instance fields that a class declares itself. -/
def installInstanceFields (this : ObjectId) (cls : ClassId) : Action Unit := do
  let c ← classAt cls
  note (.installing (← get).frames.head? cls c.displayName this c.instanceFields)
  installFields perform (.instanceField cls c.displayName this) this c.instanceFields

end ClassMachine
