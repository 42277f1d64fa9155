import Sluice.Operation
import Sluice.Value.Cast

/-!
# Builtin functions

Builtins are functions of values alone. Every binary operator is one, under its symbol. An
argument that is not given is missing.
-/
namespace Sluice

/-- A builtin function. -/
inductive Builtin where
  | operator (op : Operator)
  | empty | length
  | abs | round | ceil | floor | min | max | pow
  | int | float | string | bool
  deriving DecidableEq, Repr

namespace Builtin

/-- The builtins with a name of their own, in the order in which they are listed. -/
def named : List Builtin :=
  [empty, length, abs, round, ceil, floor, min, max, pow, int, float, string, bool]

def name : Builtin → String
  | operator op => op.symbol
  | empty => "empty"
  | length => "length"
  | abs => "abs"
  | round => "round"
  | ceil => "ceil"
  | floor => "floor"
  | min => "min"
  | max => "max"
  | pow => "pow"
  | int => "int"
  | float => "float"
  | string => "string"
  | bool => "bool"

def isCast : Builtin → Bool
  | int | float | string | bool => true
  | _ => false

/-- The builtin with a name or an operator symbol. -/
def ofName? (s : String) : Option Builtin :=
  match Operator.ofSymbol? s with
  | some op => some (operator op)
  | none => named.find? fun b => b.name == s

/-- The values that have nothing in them. -/
def isEmptyValue : Value → Bool
  | .null | .missing => true
  | .string s => s.isEmpty
  | .array items => items.isEmpty
  | .object entries => entries.isEmpty
  | .bool _ | .number _ => false

/-- Characters of a text or items of a list. -/
def lengthOf : Value → Nat
  | .string s => s.toList.length
  | .array items => items.length
  | _ => 0

/-- A number rounded to decimal places, a half going up. Without places, to an integer. -/
def roundTo (v places : Value) : Value :=
  let digits : Float := if places.isAbsent then 0 else Number.trunc places.toNumber
  if digits.isNaN then .nan
  else if digits == 0 then .number (v.toNumber.lift Number.roundHalfUp)
  else
    let factor : Number := Float.pow 10 digits
    .number ((v.toNumber * factor).lift Number.roundHalfUp / factor)

/-- The arguments, with the items of lists in place of the lists. -/
def spread (args : List Value) : List Value :=
  args.flatMap fun
    | .array items => items
    | v => [v]

/-- One of the numbers, or not-a-number if something is no number. -/
def choose (pick : Float → Float → Float) : Float → List Value → Value
  | acc, [] => .number acc
  | acc, v :: rest => if v.toNumber.isNaN then .nan else choose pick (pick acc v.toNumber) rest

/-- The result of a builtin, with a budget for the size of patterns. -/
def call (b : Builtin) (patternBudget : Nat) (args : List Value) : Value :=
  let first := args.headD .missing
  let second := (args[1]?).getD .missing
  match b with
  | operator op => op.apply patternBudget first second
  | empty => .bool (isEmptyValue first)
  | length => .ofCount (lengthOf first)
  | abs => .number first.toNumber.abs
  | round => roundTo first second
  | ceil => .number (first.toNumber.lift Number.ceil)
  | floor => .number (first.toNumber.lift Number.floor)
  | min => choose Number.smaller (1 / 0) (spread args)
  | max => choose Number.larger (-1 / 0) (spread args)
  | pow => .number (Number.lift₂ Float.pow first.toNumber second.toNumber)
  | int => first.toInt second
  | float => first.toFloat second
  | string => first.toStringValue second
  | bool => first.toBool second

end Builtin

end Sluice
