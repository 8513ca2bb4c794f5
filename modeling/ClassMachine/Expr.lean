/-!
# Expressions

Everything that a client runs on the machine is an expression: the steps of a
program, and inside class definitions the constructor bodies, the initializers of
fields, the computed names and the bodies of methods and accessors. An expression
cannot mention an object directly – it has literals, not values – so a program
only ever holds the objects that the machine has given to it.

* `ClassMachine.Expr` has a form for each way in which arguments are evaluated:
  the control forms treat theirs specially, and the two operation forms evaluate
  all of them, left to right, before anything happens.
* `ClassMachine.Primitive` lists the operations that run no client code,
  `ClassMachine.Reentry` those that may.
* `ClassMachine.ClassExpr` is a class definition as it is written down.
* `ClassMachine.Defect` says why there is no expression where there should be one.
  Such a place is an expression of its own, which always fails, so that it matters
  only if it is reached.
-/

namespace ClassMachine

/-! ### Leaves -/

/-- What an expression can say without evaluating anything. -/
inductive Literal
  | undefined
  | null
  | bool (b : Bool)
  | number (x : Float)
  | str (s : String)

/-- Why a piece of a program cannot be read. -/
inductive Defect
  /-- It has the form of no expression. -/
  | form
  /-- It should be the text of a number. -/
  | number
  /-- It should be an integer. -/
  | integer
  /-- It should be an element of a class body. -/
  | element
  deriving DecidableEq, Repr

/-- What a function in a class body becomes. -/
inductive MethodKind
  | method
  | getter
  | setter
  deriving DecidableEq, Repr

/-- The operations that run no client code. -/
inductive Primitive
  /-- The value of the register of that name. -/
  | register
  /-- Writes the arguments to the log. -/
  | log
  /-- Writes the argument to the log, an object with all its properties. -/
  | dump
  /-- Writes a class to the log. -/
  | describe
  /-- The receiver of the running code. -/
  | receiver
  /-- One of the arguments of the running code. -/
  | argument
  /-- How many arguments the running code has. -/
  | argumentCount
  /-- The sum of two numbers. -/
  | add
  /-- Is the first number below the second? -/
  | less
  /-- Are the two values equal? -/
  | equal
  /-- The texts of the arguments, one after the other. -/
  | concat
  /-- The property key of a value. -/
  | key
  /-- The diagnostic text of a value. -/
  | debug
  /-- The argument, which has to be a number. -/
  | expectNumber
  /-- The argument, which has to be a string. -/
  | expectString
  /-- The argument, which has to be an object. -/
  | expectObject
  /-- The object under construction. -/
  | this
  /-- How far the innermost construction is. -/
  | phase
  /-- Fails with the argument as the exception. -/
  | throw
  /-- Does a value descend from the prototype of a class? -/
  | instanceOf
  /-- The class of that name. -/
  | classId
  /-- How many classes there are. -/
  | classCount
  /-- The class object of a class. -/
  | classObject
  /-- The prototype of a class. -/
  | prototype
  /-- A new ordinary object with the given prototype. -/
  | newObject
  /-- Defines a property that is writable, enumerable and configurable. -/
  | createProperty
  /-- Defines a property that is writable and configurable but not enumerable. -/
  | createHidden
  /-- Removes an own property. -/
  | delete
  /-- Does the object own the key? -/
  | hasOwn
  /-- May the object get new properties? -/
  | isExtensible
  /-- The own keys of an object. -/
  | ownKeys
  /-- Closes an object to new properties. -/
  | preventExtensions
  /-- The prototype link of an object. -/
  | prototypeOf
  /-- Redirects the prototype link of an object. -/
  | setPrototype
  deriving DecidableEq, Repr

/-- The operations that may run client code. -/
inductive Reentry
  /-- Calls the parent constructor with the arguments. -/
  | super
  /-- Calls the parent constructor with the arguments of the running code. -/
  | forwardSuper
  /-- Constructs an instance of a class given by its number. -/
  | construct
  /-- Constructs an instance of a class given by its class object. -/
  | constructValue
  /-- Reads a property of a value. -/
  | get
  /-- Assigns to a property of a value. -/
  | set
  /-- Calls a function with a receiver. -/
  | call
  /-- Calls the function that a property of the receiver holds. -/
  | invoke
  /-- Reads a property of an object on behalf of another receiver. -/
  | getFor
  deriving DecidableEq, Repr

/-! ### Expressions and class bodies -/

mutual

/-- An expression of the client language. -/
inductive Expr
  /-- A value that is written down. -/
  | literal (value : Literal)
  /-- A place that holds nothing that can be read. -/
  | malformed (defect : Defect)
  /-- All in order; the value of the last one. -/
  | sequence (steps : List Expr)
  /-- The first branch if the condition is exactly *true*, otherwise the second. -/
  | choose (condition yes : Expr) (no : Option Expr)
  /-- The body; if it fails, the handler, with the failure in the registers. -/
  | attempt (body : Expr) (handler : Option Expr)
  /-- The body so many times, with the round in a register. -/
  | loop (rounds : Nat) (body : Expr)
  /-- Puts the value into a register. -/
  | assign (name : String) (value : Expr)
  /-- A new function. -/
  | function (name : String) (body : Expr)
  /-- Defines a class; its number. -/
  | classDefinition (definition : ClassExpr)
  /-- Gives the instance fields of that name another initializer. -/
  | replaceInitializer (cls name : Expr) (initializer : Option Expr)
  /-- Defines an own property. -/
  | defineProperty (object key : Expr) (property : PropertyExpr)
  /-- An operation that runs no client code. -/
  | primitive (op : Primitive) (args : List Expr)
  /-- An operation that may run client code. -/
  | reentry (op : Reentry) (args : List Expr)

/-- A class definition as it is written down: a name and a heritage that are
evaluated, and then the parts that are kept for later. -/
structure ClassExpr where
  name : Option Expr
  heritage : Option Expr
  constructor : Option Expr
  elements : List ElementExpr

/-- An element of a class body as it is written down. -/
inductive ElementExpr
  /-- A method or accessor; the function may have a name of its own. -/
  | method (name : String) (kind : MethodKind) (isStatic : Bool) (functionName : String)
      (body : Expr)
  /-- A field. -/
  | field (name : FieldName) (isStatic : Bool) (initializer : Option Expr)

/-- The name of a field, written down or computed when the class is defined. -/
inductive FieldName
  | literal (name : String)
  | computed (name : Expr)

/-- A property whose values are still to be evaluated. -/
inductive PropertyExpr
  | data (value : Expr) (writable enumerable configurable : Bool)
  | accessor (getter setter : Expr) (enumerable configurable : Bool)

end

end ClassMachine
