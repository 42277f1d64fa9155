import Sluice.ParseError

/-!
# Failures of an evaluation

A call of an unknown function, a projection without keys, and a text that cannot be read.
Everything else that goes wrong is a value.
-/
namespace Sluice

/-- Why an evaluation fails. -/
inductive Failure where
  | unknownFunction (name : String)
  | notAKeyList (function : String)
  | noKeys (function : String)
  | parse (error : ParseError)
  deriving DecidableEq, Repr

def Failure.message : Failure → String
  | unknownFunction name => s!"Unknown function: {name}"
  | notAKeyList function => s!"Invalid arguments for '{function}': expected a list of keys"
  | noKeys function => s!"Invalid arguments for '{function}': expected at least one key"
  | parse error => s!"Parse error: {error.message}"

end Sluice
