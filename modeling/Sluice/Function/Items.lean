import Sluice.Value.Order

/-!
# Lists of values

What the stage functions do to lists, said of the lists alone: keys of elements that other
functions compute are given beside the elements.
-/
namespace Sluice.Items

/-- Replaces lists inside the list by their items, down to a depth. -/
def flatten : Nat → List Value → List Value
  | 0, items => items
  | depth + 1, items => items.flatMap fun
      | .array inner => flatten depth inner
      | v => [v]

/-- The entries of an object under some keys, each once and in the order in which they are
asked for. What is no object stays as it is. -/
def pick (keys : List String) : Value → Value
  | .object entries =>
      .object (Keyed.ofList (keys.filterMap fun k => (Keyed.get? entries k).map fun v => (k, v)))
  | v => v

/-- The elements whose key is not identical to a key seen before. -/
def distinctFrom (seen : List Value) : List (Value × Value) → List Value
  | [] => []
  | (key, item) :: rest =>
      if seen.any fun k => k == key then distinctFrom seen rest
      else item :: distinctFrom (seen ++ [key]) rest

/-- The elements that are first with their key. -/
def distinct (keyed : List (Value × Value)) : List Value :=
  distinctFrom [] keyed

/-- Sorts elements by their keys, stably. -/
def sortKeyed (desc : Bool) (keyed : List (Value × Value)) : List Value :=
  (insertionSort (fun a b =>
    let o := Value.compareKeys a.1 b.1
    if desc then o.swap else o) keyed).map Prod.snd

/-- What an element adds to a sum: its number, or nothing. -/
def summand (v : Value) : Number :=
  match v.toNumber? with
  | some x => if x.isNaN then 0 else x
  | none => 0

/-- The sum of what the elements add, from minus zero on. -/
def sum (items : List Value) : Number :=
  items.foldl (fun acc v => acc + summand v) (-0.0)

/-- The item at a place, counted from the end if it is negative. -/
def at? (items : List Value) (n : Int) : Value :=
  let place := if n < 0 then items.length + n else n
  if place < 0 then .missing else (items[place.toNat]?).getD .missing

end Sluice.Items
