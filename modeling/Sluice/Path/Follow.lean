import Sluice.Path.Reader
import Sluice.Value.Basic

/-!
# Following paths

Steps are applied one after the other. What cannot be found is missing, and nothing can be
found in an absent value. Where a step yields a list and a property follows, the property
is read from every item of it, and both steps are done.
-/
namespace Sluice

/-- The index that a key is on a list: digits after an optional plus sign. -/
def keyIndex? (key : String) : Option Nat :=
  let digits := match key.toList with
    | '+' :: rest => rest
    | cs => cs
  if digits.isEmpty || !digits.all Text.isAsciiDigit then none
  else
    let n := Text.digitsValue digits
    if n ≤ Path.maxIndex then some n else none

/-- The place of a bound in a list of a given length. -/
def boundIn (length : Nat) (bound : Int) : Nat :=
  if bound < 0 then length - bound.natAbs else min bound.natAbs length

/-- The places between which a slice lies. Without a second bound it reaches to the end; an
inverted slice is empty. -/
def sliceBounds (length : Nat) (start : Int) (stop : Option Int) : Nat × Nat :=
  let first := boundIn length start
  let last := match stop with
    | some b => boundIn length b
    | none => length
  (first, max first last)

/-- The items of a list between two bounds. -/
def sliceItems (items : List α) (start : Int) (stop : Option Int) : List α :=
  let (first, last) := sliceBounds items.length start stop
  (items.drop first).take (last - first)

theorem boundIn_le (length : Nat) (bound : Int) : boundIn length bound ≤ length := by
  unfold boundIn
  split
  · exact Nat.sub_le ..
  · exact Nat.min_le_right ..

theorem sliceBounds_fst_le_snd (length : Nat) (start : Int) (stop : Option Int) :
    (sliceBounds length start stop).1 ≤ (sliceBounds length start stop).2 :=
  Nat.le_max_left ..

namespace Path

/-- One step from a value. -/
def Step.apply : Step → Value → Value
  | root, v => v
  | property name, v => v.property name
  | index n, .array items => (items[n]?).getD .missing
  | index n, .object entries =>
      (Keyed.get? entries (String.ofList (Text.natDigits n))).getD .missing
  | key name, .array items => ((keyIndex? name).bind fun n => items[n]?).getD .missing
  | key name, .object entries => (Keyed.get? entries name).getD .missing
  | wildcard, .array items => .array items
  | wildcard, .object entries => .array (Keyed.values entries)
  | slice start stop, .array items => .array (sliceItems items start stop)
  | _, _ => .missing

/-- The value that steps lead to. -/
def walk : List Step → Value → Value
  | [], v => v
  | step :: rest, v =>
      if v.isAbsent then .missing
      else
        match step.apply v, rest with
        | .array items, .property name :: rest' =>
            walk rest' (.array (items.map fun item => item.property name))
        | w, rest => walk rest w

/-- The value that a path leads to. -/
def follow (p : Path) (root : Value) : Value :=
  walk p.steps root

end Path

/-- Follows a path text from a value. A text that is no path leads nowhere. -/
def Value.follow (v : Value) (path : String) : Value :=
  match Path.ofText path with
  | .ok p => p.follow v
  | .error _ => .missing

end Sluice
