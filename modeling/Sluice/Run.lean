import Sluice.Failure
import Sluice.Path.Memo
import Sluice.Prepared

/-!
# Runs

A run uses the memo of paths and may extend it. Texts can hold texts that are evaluated in
turn, without end in the worst case; a run that goes deeper than it may has no result at
all, which is not the same as failing. A fallible run fails or has a result, and extends
the memo in either case.
-/
namespace Sluice

/-- A computation over the memo of paths that may run out of depth. -/
abbrev Run (α : Type) := StateT PathMemo Option α

/-- A run that may fail. -/
abbrev FallibleRun (α : Type) := ExceptT Failure (StateT PathMemo Option) α

namespace Run

/-- The run that is out of depth. -/
def outOfDepth {α : Type} : Run α :=
  fun _ => none

/-- Follows a path text from a value. -/
def follow (text : String) (v : Value) : Run Value :=
  fun memo => some (memo.follow text v)

/-- The result of a fallible run, or a default in place of a failure. -/
def orElse {α : Type} (default : α) (r : FallibleRun α) : Run α := do
  match ← r.run with
  | .ok a => return a
  | .error _ => return default

/-- Fails. -/
def fail {α : Type} (e : Failure) : FallibleRun α :=
  throw e

/-- A run that cannot fail, as one that may. -/
def infallible {α : Type} (r : Run α) : FallibleRun α :=
  ExceptT.lift r

end Run

/-- How texts are evaluated inside of others: against a value, and as a condition. -/
structure Nested where
  evaluate : Prepared → Value → Run Value
  holds : Prepared → Value → Run Bool

end Sluice
