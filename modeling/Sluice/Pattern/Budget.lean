import Sluice.Pattern.Shape
import Sluice.Pattern.Reader
import Sluice.Pattern.Match

/-!
# Patterns from untrusted texts

A pattern is used if it has none of the refused shapes, can be read, and is not larger than
a budget. One that is not used matches nothing.
-/
namespace Sluice.Pattern

/-- The budget that is used if none is given, in bytes. -/
def defaultBudget : Nat := 1048576

/-- The pattern of a text within a budget. -/
def compile? (budget : Nat) (text : String) : Option Pattern :=
  let cs := text.toList
  if isRefused cs then none
  else match read? cs with
    | some p => if p.size ≤ budget then some p else none
    | none => none

/-- A pattern text matches somewhere in a text. -/
def test (budget : Nat) (pattern text : String) : Bool :=
  match compile? budget pattern with
  | some p => p.matchesIn text.toList
  | none => false

end Sluice.Pattern
