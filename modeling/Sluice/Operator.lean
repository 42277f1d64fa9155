/-!
# Operators

The seventeen binary operators with their spelling and precedence, and the two unary ones.
Four operators are spelled as words; a word is an operator only where an operator can
stand.
-/
namespace Sluice

/-- The binary operators. -/
inductive Operator where
  | eq | ne | gt | ge | lt | le
  | add | sub | mul | div | mod
  | and | or
  | contains | startsWith | endsWith | matchesPattern
  deriving DecidableEq, Repr

namespace Operator

/-- Every operator, in the order in which they are listed. -/
def all : List Operator :=
  [eq, ne, gt, ge, lt, le, add, sub, mul, div, mod, and, or,
   contains, startsWith, endsWith, matchesPattern]

def symbol : Operator → String
  | eq => "=="
  | ne => "!="
  | gt => ">"
  | ge => ">="
  | lt => "<"
  | le => "<="
  | add => "+"
  | sub => "-"
  | mul => "*"
  | div => "/"
  | mod => "%"
  | and => "&&"
  | or => "||"
  | contains => "contains"
  | startsWith => "startsWith"
  | endsWith => "endsWith"
  | matchesPattern => "matches"

/-- How tightly an operator binds, from 1 to 6. -/
def precedence : Operator → Nat
  | or => 1
  | and => 2
  | eq | ne => 3
  | gt | ge | lt | le | contains | startsWith | endsWith | matchesPattern => 4
  | add | sub => 5
  | mul | div | mod => 6

/-- The operator is spelled as a word. -/
def isKeyword : Operator → Bool
  | contains | startsWith | endsWith | matchesPattern => true
  | _ => false

/-- The operator with a spelling. -/
def ofSymbol? (s : String) : Option Operator :=
  all.find? fun op => op.symbol == s

theorem mem_all (op : Operator) : op ∈ all := by
  cases op <;> decide

theorem ofSymbol?_symbol (op : Operator) : ofSymbol? op.symbol = some op := by
  cases op <;> decide

theorem precedence_pos (op : Operator) : 0 < op.precedence := by
  cases op <;> decide

end Operator

/-- The unary operators. -/
inductive UnaryOperator where
  | not
  | negate
  deriving DecidableEq, Repr

def UnaryOperator.symbol : UnaryOperator → String
  | not => "!"
  | negate => "-"

end Sluice
