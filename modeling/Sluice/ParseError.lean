import Sluice.Text.Basic

/-!
# What is wrong with a text

The causes for which an expression, a path, a stage or an argument list is refused, and
the message of each. Positions count bytes of the UTF-8 form.
-/
namespace Sluice

/-- What is wrong with a path. -/
inductive PathFault where
  | unmatchedBracket
  | unterminatedBracket
  | emptyBrackets
  | indexOutOfRange
  | sliceBound (text : String)
  deriving DecidableEq, Repr

def PathFault.message : PathFault → String
  | unmatchedBracket => "unmatched ']'"
  | unterminatedBracket => "unterminated '['"
  | emptyBrackets => "empty brackets"
  | indexOutOfRange => "index out of range"
  | sliceBound text => s!"invalid slice bound '{text}'"

/-- Why a text is refused. -/
inductive ParseError where
  | emptyExpression
  | invalidNumber (text : String)
  | unexpectedCharacter (character : Char) (position : Nat)
  | unexpectedToken (token : String) (position : Nat)
  | unexpectedEnd
  | unclosedParenthesis
  | malformedArguments (function : String)
  | invalidPath (path : String) (fault : PathFault)
  | invalidStage (stage : String)
  | invalidField (entry : String)
  deriving DecidableEq, Repr

def ParseError.message : ParseError → String
  | emptyExpression => "Invalid expression syntax: Empty expression"
  | invalidNumber text => s!"Invalid expression syntax: Invalid number: {text}"
  | unexpectedCharacter character position =>
      s!"Unexpected character '{character}' at position {position}"
  | unexpectedToken token position => s!"Unexpected token '{token}' at position {position}"
  | unexpectedEnd => "Unexpected end of expression"
  | unclosedParenthesis => "Missing closing parenthesis"
  | malformedArguments function => s!"Malformed argument list for '{function}'"
  | invalidPath path fault => s!"Invalid path '{path}': {fault.message}"
  | invalidStage stage => s!"Invalid pipeline stage: {stage}"
  | invalidField entry => s!"Invalid pipeline stage: expected 'key: expression', got '{entry}'"

end Sluice
