import Sluice.Expr.Parser
import Sluice.Pipeline.Stage

/-!
# Prepared texts

The text of an expression is looked at once. It is empty, a pipeline, a path, an
expression, or wrong, in this order; what is evaluated for every element of a list need not
be read again.
-/
namespace Sluice

/-- A text of which is known what it is. The source has no blanks at its ends. -/
inductive Prepared where
  | empty
  | pipeline (source : String)
  | path (source : String)
  | parsed (source : String) (expr : Expr)
  | invalid (source : String) (error : ParseError)

namespace Prepared

/-- The text is a pipeline, at least of two stages. -/
def isPipeline (text : String) : Bool :=
  Pipeline.isPipeline text.toList

/-- The text is one path, blanks at its ends aside. -/
def isPath (text : String) : Bool :=
  Token.isPath (Text.trim text.toList)

/-- Looks at a text. -/
def ofText (text : String) : Prepared :=
  let source := Text.trimmed text
  if source.isEmpty then .empty
  else if isPipeline source then .pipeline source
  else if isPath source then .path source
  else match Expr.parse source with
    | .ok e => .parsed source e
    | .error e => .invalid source e

def source : Prepared → String
  | empty => ""
  | pipeline s => s
  | path s => s
  | parsed s _ => s
  | invalid s _ => s

/-- The path that a field name stands for: one that begins with a dollar sign is a path
already, any other is a property of the element. -/
def pathOfField (field : String) : String :=
  let name := Text.stripQuotes (Text.trim field.toList)
  if name.head? = some '$' then String.ofList name else String.ofList ('$' :: '.' :: name)

/-- A field name, ready to be evaluated against elements. -/
def ofField (field : String) : Prepared :=
  ofText (pathOfField field)

end Prepared

end Sluice
