import Linewise.Table
import Linewise.Value

/-! The state of a program: four independent namespaces, and whether it was asked to leave. One name
may stand in several namespaces at once. -/
namespace Linewise

/-- `Environment`: what a program holds between two lines. -/
structure Store where
  /-- Values of names. -/
  «variables» : Table Value := .empty
  /-- Sequences of integers. -/
  arrays : Table (Array Int64) := .empty
  /-- Maps from keys to integers. -/
  dictionaries : Table (Table Int64) := .empty
  /-- Methods of classes, each with its mark. -/
  classes : Table (Table String) := .empty
  /-- Whether the program was asked to leave. -/
  leaving : Bool := false
deriving DecidableEq

namespace Store

/-- `Namespace`: the namespaces from which a name can be deleted, in the order of preference. -/
inductive Place where
  | variable
  | array
  | dictionary
deriving DecidableEq, Repr

/-- The answer of `delete`: the first namespace that holds a name. Classes do not count. -/
def place? (s : Store) (name : String) : Option Place :=
  if s.variables.contains name then some .variable
  else if s.arrays.contains name then some .array
  else if s.dictionaries.contains name then some .dictionary
  else none

/-- Removes a name from one namespace. -/
def eraseAt (s : Store) (name : String) : Place → Store
  | .variable => { s with «variables» := s.variables.erase name }
  | .array => { s with arrays := s.arrays.erase name }
  | .dictionary => { s with dictionaries := s.dictionaries.erase name }

/-- `Environment.delete`: removes a name from the first namespace that holds it. -/
def delete (s : Store) (name : String) : Store :=
  match s.place? name with
  | some place => s.eraseAt name place
  | none => s

/-- The store with the namespaces of another one, as `Environment.load` leaves it. -/
def withNamespaces (s other : Store) : Store :=
  { other with leaving := s.leaving }

/-- `Environment.clear`: the store with empty namespaces. -/
def clear (s : Store) : Store :=
  s.withNamespaces {}

/-- The values of the variables, for expressions. -/
def scope (s : Store) (name : String) : Option Value :=
  s.variables.get? name

end Store

end Linewise
