import Sluice.Path.Follow

/-!
# Remembered paths

An engine reads each path text once. The memo lists paths under the very text that was
asked for, blanks included; texts that are no paths are not remembered. A memo
that is turned off stays empty.
-/
namespace Sluice

/-- The paths of the texts asked for so far. -/
structure PathMemo where
  enabled : Bool
  entries : Keyed Path

namespace PathMemo

/-- A memo with nothing in it. -/
def fresh (enabled : Bool) : PathMemo :=
  ⟨enabled, []⟩

def size (m : PathMemo) : Nat :=
  m.entries.length

/-- Forgets every path. -/
def clear (m : PathMemo) : PathMemo :=
  { m with entries := [] }

/-- What is remembered is what would be read. -/
def Sound (m : PathMemo) : Prop :=
  ∀ text p, (text, p) ∈ m.entries → Path.ofText text = .ok p

/-- The path of a text, and the memo that remembers it. -/
def path (m : PathMemo) (text : String) : Except ParseError Path × PathMemo :=
  if m.enabled then
    match m.entries.get? text with
    | some p => (.ok p, m)
    | none =>
        match Path.ofText text with
        | .ok p => (.ok p, { m with entries := m.entries.insert text p })
        | .error e => (.error e, m)
  else (Path.ofText text, m)

/-- Follows a path text from a value. -/
def follow (m : PathMemo) (text : String) (v : Value) : Value × PathMemo :=
  match m.path text with
  | (.ok p, m) => (p.follow v, m)
  | (.error _, m) => (.missing, m)

end PathMemo

end Sluice
