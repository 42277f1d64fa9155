import Sluice.Operator
import Sluice.Value.Basic

/-!
# Expressions

The tree of an expression. Paths and templates keep their text: they are read when they
are evaluated.
-/
namespace Sluice

/-- An expression. -/
inductive Expr where
  | literal (v : Value)
  /-- A key of the current data. -/
  | identifier (name : String)
  | path (text : String)
  | binary (left : Expr) (op : Operator) (right : Expr)
  | unary (op : UnaryOperator) (operand : Expr)
  | call (name : String) (args : List Expr)
  /-- A template with its braces, and its quotes if it has any. -/
  | template (text : String)

instance : Inhabited Expr := ⟨.literal .missing⟩

namespace Expr

mutual

/-- The names called anywhere in an expression. -/
def calledNames : Expr → List String
  | .binary l _ r => l.calledNames ++ r.calledNames
  | .unary _ e => e.calledNames
  | .call name args => name :: argsCalledNames args
  | _ => []

def argsCalledNames : List Expr → List String
  | [] => []
  | e :: rest => e.calledNames ++ argsCalledNames rest

end

end Expr

end Sluice
