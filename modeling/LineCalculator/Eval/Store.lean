import LineCalculator.Variables.Table

/-!
# Stores

A store is where a program finds and leaves its variables. Some stores can
tell a variable that was never assigned from one that holds zero, others
cannot; only the former make strict reading possible.
-/

namespace LineCalculator

/-- The variables of a program. -/
structure Store where
  /-- Their values. -/
  table : Table
  /-- Can the store tell whether a variable was assigned? -/
  tellsUnbound : Bool

namespace Store

/-- A store without variables that can tell. -/
def empty : Store := ⟨.empty, true⟩

/-- The value of a variable, zero if it was never assigned. -/
def value (s : Store) (name : Bytes) : Int64 := s.table.value name

/-- Assigns a variable. -/
def set (s : Store) (name : Bytes) (n : Int64) : Store := { s with table := s.table.set name n }

/-- Is the variable known never to have been assigned? -/
def isKnownUnbound (s : Store) (name : Bytes) : Bool :=
  s.tellsUnbound && !s.table.isBound name

end Store

end LineCalculator
