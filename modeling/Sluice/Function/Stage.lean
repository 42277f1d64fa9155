import Sluice.Function.Items
import Sluice.Operation
import Sluice.Run

/-!
# Stage functions

A stage function takes a value and arguments to a value. Its arguments come from the text
of a stage or from the values of a call. Functions of lists have a fixed answer for
anything else: no elements, nothing, or the value itself.
-/
namespace Sluice

open Sluice.Pipeline

/-- A stage function. -/
inductive StageFunction where
  | filter | map | sum | avg | count | first | last | sort | take | skip | nth | flatten
  | pick | unique | reverse | keys | values | join
  | add | sub | mul | div | mod
  deriving DecidableEq, Repr

/-- The arguments of a stage function. -/
inductive Arguments where
  | none
  /-- A text that is evaluated for every element. -/
  | expression (p : Prepared)
  /-- The fields of the objects to be made. -/
  | fields (entries : List (String × Prepared))
  | order (o : SortOrder)
  | keys (names : List String)
  | values (args : List Value)

namespace Arguments

/-- An argument that is a value, missing if it is not given. -/
def value (a : Arguments) (n : Nat) : Value :=
  match a with
  | values args => (args[n]?).getD .missing
  | _ => .missing

/-- The first argument as an integer, if it is a number. -/
def count? (a : Arguments) : Option Int :=
  match (a.value 0).toNumber? with
  | some x => if x.isNaN then Option.none else some (Number.toInt64 x)
  | Option.none => Option.none

end Arguments

namespace StageFunction

/-- Every stage function, in the order in which they are listed. -/
def all : List StageFunction :=
  [filter, map, sum, avg, count, first, last, sort, take, skip, nth, flatten, pick, unique,
   reverse, keys, values, join, add, sub, mul, div, mod]

def name : StageFunction → String
  | filter => "where"
  | map => "map"
  | sum => "sum"
  | avg => "avg"
  | count => "count"
  | first => "first"
  | last => "last"
  | sort => "sort"
  | take => "take"
  | skip => "skip"
  | nth => "at"
  | flatten => "flatten"
  | pick => "pick"
  | unique => "unique"
  | reverse => "reverse"
  | keys => "keys"
  | values => "values"
  | join => "join"
  | add => "add"
  | sub => "sub"
  | mul => "mul"
  | div => "div"
  | mod => "mod"

/-- Second names of stage functions. -/
def aliases : List (String × StageFunction) :=
  [("select", filter), ("transform", map)]

/-- The stage function with a name. -/
def ofName? (s : String) : Option StageFunction :=
  match aliases.find? fun a => a.1 == s with
  | some a => some a.2
  | none => all.find? fun f => f.name == s

/-- The operator of a function that does arithmetic on numbers alone. -/
def strictOperator? : StageFunction → Option Operator
  | add => some .add
  | sub => some .sub
  | mul => some .mul
  | div => some .div
  | mod => some .mod
  | _ => none

/-- Evaluates the texts of an argument list against a value. -/
def evaluateAll (nested : Nested) (data : Value) (args : List (List Char)) : Run (List Value) :=
  args.mapM fun arg => nested.evaluate (.ofText (String.ofList arg)) data

/-- Reads the argument text of a stage. Numbers and operands are evaluated at once, against
the data of the whole pipeline; what is evaluated for every element is prepared. -/
def readArgs (f : StageFunction) (nested : Nested) (text : String) (data : Value) :
    FallibleRun Arguments :=
  let text := Text.trimmed text
  match f with
  | filter => return if text.isEmpty then .none else .expression (.ofText text)
  | map =>
      match readFieldMap text with
      | .error e => Run.fail (.parse e)
      | .ok (some fields) => return .fields (fields.map fun (k, e) => (k, .ofText e))
      | .ok none => return if text.isEmpty then .none else .expression (.ofText text)
  | sum | avg | unique => return if text.isEmpty then .none else .expression (.ofField text)
  | sort =>
      match readSortOrder text with
      | .error e => Run.fail (.parse e)
      | .ok spec => return .order spec
  | pick => return .keys (readKeys text)
  | count | first | last | reverse | keys | values => return .none
  | take | skip | nth | flatten | join | add | sub | mul | div | mod =>
      return .values (← Run.infallible (evaluateAll nested data (arguments text.toList)))

/-- The keys that a value names: its text, or the texts of its items. -/
def keyNames : Value → List String
  | .array items => items.map Value.toText
  | v => [v.toText]

/-- Arguments from the values of a call. Text is read as a condition, an expression or a
field where the function evaluates one. -/
def argsOfValues (f : StageFunction) (args : List Value) : Arguments :=
  let text := args.head?.bind Value.string?
  match f with
  | filter | map =>
      match text with
      | some e => .expression (.ofText e)
      | none => .none
  | sum | avg | unique =>
      match text with
      | some field => .expression (.ofField field)
      | none => .none
  | sort =>
      .order ⟨text, match args[1]? with
        | some flag => flag.isTruthy && flag.string? != some "asc"
        | none => false⟩
  | pick => .keys ((args.flatMap keyNames).filter fun k => !k.isEmpty)
  | _ => .values args

/-- The values that a field has on the elements, or the elements themselves. -/
def keysOf (nested : Nested) (field : Option Prepared) (items : List Value) :
    Run (List Value) :=
  match field with
  | some p => items.mapM (nested.evaluate p)
  | none => return items

/-- The text that is evaluated for every element, if there is one. -/
def perElement : Arguments → Option Prepared
  | .expression p => some p
  | _ => none

/-- The element that `map` makes of another. -/
def mapItem (nested : Nested) (args : Arguments) (item : Value) : Run Value :=
  match args with
  | .expression p => nested.evaluate p item
  | .fields entries => do
      let made ← entries.mapM fun (k, p) => return (k, ← nested.evaluate p item)
      return .object (Keyed.ofList made)
  | _ => return item

/-- The elements for which a condition holds, or those that are truthy. -/
def keepItems (nested : Nested) (args : Arguments) (items : List Value) : Run (List Value) :=
  match args with
  | .expression p => items.filterM (nested.holds p)
  | _ => return items.filter Value.isTruthy

/-- Sorts elements. Missing ones go last whatever the order. -/
def sortItems (nested : Nested) (spec : SortOrder) (items : List Value) : Run (List Value) := do
  let present := items.filter fun v => !v.isMissing
  let found ← keysOf nested (spec.field.map .ofField) present
  return Items.sortKeyed spec.desc (found.zip present) ++ items.filter Value.isMissing

/-- The texts of the items of a list with a separator between them. -/
def joined (separator : Value) : Value → Value
  | .array items =>
      let sep := if separator.isMissing then "," else separator.toText
      .string (sep.intercalate (items.map Value.toText))
  | v => .string v.toText

/-- How deep `flatten` goes: one level if nothing that is a number is given. -/
def flattenDepth (depth : Value) : Nat :=
  match depth.toNumber? with
  | some x => Number.toNat64 x
  | none => 1

/-- Runs a stage function on a value. -/
def apply (f : StageFunction) (nested : Nested) (input : Value) (args : Arguments) :
    FallibleRun Value :=
  match f, input with
  | filter, .array items => return .array (← Run.infallible (keepItems nested args items))
  | filter, _ => return .array []
  | map, .array items => return .array (← Run.infallible (items.mapM (mapItem nested args)))
  | map, _ => return .array []
  | sum, .array items =>
      return .number (Items.sum (← Run.infallible (keysOf nested (perElement args) items)))
  | sum, _ => return .number 0
  | avg, .array (item :: rest) => do
      let found ← Run.infallible (keysOf nested (perElement args) (item :: rest))
      return .number (Items.sum found / Float.ofNat (rest.length + 1))
  | avg, _ => return .null
  | count, .array items => return .ofCount items.length
  | count, _ => return .number 0
  | first, .array items => return items.headD .missing
  | first, _ => return .missing
  | last, .array items => return items.getLastD .missing
  | last, _ => return .missing
  | sort, .array items =>
      let spec := match args with
        | .order spec => spec
        | _ => ⟨none, false⟩
      return .array (← Run.infallible (sortItems nested spec items))
  | take, .array items =>
      return .array (match args.count? with
        | some n => sliceItems items 0 (some n)
        | none => items)
  | skip, .array items =>
      return .array (match args.count? with
        | some n => sliceItems items n none
        | none => items)
  | nth, .array items =>
      return match args.count? with
        | some n => Items.at? items n
        | none => .missing
  | nth, _ => return .missing
  | flatten, .array items => return .array (Items.flatten (flattenDepth (args.value 0)) items)
  | pick, v =>
      match args with
      | .keys [] => Run.fail (.noKeys pick.name)
      | .keys names =>
          match v with
          | .array items => return .array (items.map (Items.pick names))
          | v => return Items.pick names v
      | _ => Run.fail (.notAKeyList pick.name)
  | unique, .array items => do
      let found ← Run.infallible (keysOf nested (perElement args) items)
      return .array (Items.distinct (found.zip items))
  | reverse, .array items => return .array items.reverse
  | keys, .object entries => return .array ((Keyed.keys entries).map .string)
  | keys, _ => return .array []
  | values, .object entries => return .array (Keyed.values entries)
  | values, _ => return .array []
  | join, v => return joined (args.value 0) v
  | sort, v | take, v | skip, v | flatten, v | unique, v | reverse, v => return v
  | f, v =>
      return match f.strictOperator?, v, args.value 0 with
        | some op, .number x, .number y => .number (op.arithmetic x y)
        | _, _, _ => .missing

end StageFunction

end Sluice
