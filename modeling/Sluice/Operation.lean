import Sluice.Operator
import Sluice.Pattern.Budget
import Sluice.Value.Coercion

/-!
# What operators do

Operators never fail: an operand that cannot be used makes the result not-a-number or
false. Equality is structural; the relations and the arithmetic read numbers, the
predicates on text read text.
-/
namespace Sluice

namespace Operator

/-- The arithmetic operators on numbers; any other operator has no number. -/
def arithmetic (op : Operator) (x y : Number) : Number :=
  match op with
  | add => x + y
  | sub => x - y
  | mul => x * y
  | div => Number.quotient x y
  | mod => Number.lift₂ Number.remainder x y
  | _ => .nan

/-- Arithmetic on what the operands are read as. -/
def lenient (op : Operator) (a b : Value) : Value :=
  match a.toNumber?, b.toNumber? with
  | some x, some y => .number (op.arithmetic x y)
  | _, _ => .nan

/-- A relation between what the operands are read as; false if one is no number. -/
def relate (r : Float → Float → Bool) (a b : Value) : Value :=
  match a.toNumber?, b.toNumber? with
  | some x, some y => .bool (r x y)
  | _, _ => .bool false

/-- The result of a binary operator, with a budget for the size of patterns. Conjunction
and disjunction give the operand that decides. -/
def apply (op : Operator) (patternBudget : Nat) (a b : Value) : Value :=
  match op with
  | eq => .bool (a == b)
  | ne => .bool !(a == b)
  | gt => relate (fun x y => x > y) a b
  | ge => relate (fun x y => x ≥ y) a b
  | lt => relate (fun x y => x < y) a b
  | le => relate (fun x y => x ≤ y) a b
  | add | sub | mul | div | mod => op.lenient a b
  | and => if a.isTruthy then b else a
  | or => if a.isTruthy then a else b
  | contains => .bool (Text.occursIn b.toText.toList a.toText.toList)
  | startsWith => .bool (b.toText.toList.isPrefixOf a.toText.toList)
  | endsWith => .bool (b.toText.toList.isSuffixOf a.toText.toList)
  | matchesPattern => .bool (Pattern.test patternBudget b.toText a.toText)

end Operator

/-- The result of a unary operator. -/
def UnaryOperator.apply (op : UnaryOperator) (v : Value) : Value :=
  match op with
  | not => .bool !v.isTruthy
  | negate =>
      match v.toNumber? with
      | some x => .number (-x)
      | none => .nan

end Sluice
