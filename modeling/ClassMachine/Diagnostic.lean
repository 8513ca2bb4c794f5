import ClassMachine.Store
import ClassMachine.Text.Quoted

/-!
# Diagnostic texts

The diagnostic text of a value shows of which kind it is. For an object it lists the
kind and the own keys, but neither the properties nor the prototype, since objects
may refer to each other in circles, and a zero in the place of its identity.
-/

namespace ClassMachine

/-- The diagnostic text of an object kind. -/
def ObjectKind.debug : ObjectKind → String
  | ordinary => "Ordinary"
  | .instance cls => s!"Instance({cls})"
  | classObject cls => s!"Class({cls})"

/-- The diagnostic text of an object. -/
def Object.debug (o : Object) : String :=
  "Object \x7bid: 0, kind: " ++ o.kind.debug ++
    ", keys: [" ++ ", ".intercalate (o.keys.map Text.quoted) ++ "]\x7d"

/-- The diagnostic text of a value. -/
def Value.debug (s : Store) : Value → String
  | undefined => "Undefined"
  | null => "Null"
  | bool b => if b then "Bool(true)" else "Bool(false)"
  | number x => "Number(" ++ numberDebug x ++ ")"
  | str t => "Str(" ++ Text.quoted t ++ ")"
  | ref id => "Ref(RefCell \x7b value: " ++ (s.object id).debug ++ " \x7d)"
  | function f => "Function(Function \x7bname: " ++ f.name ++ "\x7d)"

end ClassMachine
