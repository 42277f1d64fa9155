import Sluice.Value.Coercion
import Sluice.Text.Casing

/-!
# The order of values

Sorting puts null keys first, then missing ones, then all others. Of those, two keys that
can both be read as numbers compare as numbers, and any other two by their text, in
dictionary order.
-/
namespace Sluice

/-- Compares lists item by item; a list comes after its beginnings. -/
def lexCompare (cmp : α → α → Ordering) : List α → List α → Ordering
  | [], [] => .eq
  | [], _ :: _ => .lt
  | _ :: _, [] => .gt
  | a :: as, b :: bs => (cmp a b).then (lexCompare cmp as bs)

namespace Text

/-- Compares code points. -/
def compareChars (s t : List Char) : Ordering :=
  lexCompare (fun a b => compare a.toNat b.toNat) s t

/-- Dictionary order: letters whatever their case, then lower case before upper case, then
code points. -/
def collate (s t : List Char) : Ordering :=
  (compareChars (s.flatMap lowercase) (t.flatMap lowercase)).then <|
  (lexCompare (fun a b => compare a.toNat b.toNat)
    (s.map isUppercase) (t.map isUppercase)).then <|
  compareChars s t

end Text

namespace Value

/-- Null is before missing, and missing is before all that is there. -/
def sortClass : Value → Nat
  | .null => 0
  | .missing => 1
  | _ => 2

/-- Compares two sort keys. -/
def compareKeys (a b : Value) : Ordering :=
  match compare a.sortClass b.sortClass with
  | .eq =>
      if a.sortClass = 2 then
        match a.toNumber?, b.toNumber? with
        | some x, some y => Number.compareTotal x y
        | _, _ => Text.collate a.toText.toList b.toText.toList
      else .eq
  | o => o

end Value

/-- Puts an element into a list that is sorted from its end to its start, after all that do
not come strictly later. -/
def insertBack (cmp : α → α → Ordering) (a : α) : List α → List α
  | [] => [a]
  | b :: rest => if cmp a b = .lt then b :: insertBack cmp a rest else a :: b :: rest

/-- Stable insertion sort: elements are taken in order, and each one moves from the end
toward the start past those that come strictly later. -/
def insertionSort (cmp : α → α → Ordering) (items : List α) : List α :=
  (items.foldl (fun sorted a => insertBack cmp a sorted) []).reverse

end Sluice
