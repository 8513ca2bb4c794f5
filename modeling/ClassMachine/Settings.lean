/-!
# Settings of a machine

A machine runs under a limit on how deep constructions may nest, and at a verbosity,
which says what its log shows.
-/

namespace ClassMachine

/-- How much a log shows, from nothing to everything. -/
inductive Verbosity
  | off
  | error
  | warn
  | info
  | debug
  | trace
  deriving DecidableEq, Repr

namespace Verbosity

/-- The place of a verbosity in the order from least to most. -/
def rank : Verbosity → Nat
  | off => 0
  | error => 1
  | warn => 2
  | info => 3
  | debug => 4
  | trace => 5

/-- Does a log of this verbosity show what is meant for the other? -/
def shows (v level : Verbosity) : Bool :=
  level.rank ≤ v.rank

/-- The verbosity that a word stands for, in any case. -/
def ofWord? (word : String) : Option Verbosity :=
  match String.ofList (word.toList.map Char.toLower) with
  | "off" => some off
  | "error" => some error
  | "warn" => some warn
  | "info" => some info
  | "debug" => some debug
  | "trace" => some trace
  | _ => none

end Verbosity

/-- What a machine runs under. -/
structure Settings where
  /-- How many constructions may be in progress at once. -/
  maxDepth : Nat := 256
  verbosity : Verbosity := .error
  deriving DecidableEq, Repr

/-- Are announcements shown? -/
def Settings.announces (s : Settings) : Bool :=
  s.verbosity.shows .info

end ClassMachine
