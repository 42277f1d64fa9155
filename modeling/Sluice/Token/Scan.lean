import Sluice.Token.Basic
import Sluice.ParseError

/-!
# Scanning

A text is scanned from left to right. Where a rule matches, a token starts; a blank
elsewhere is skipped; any other character is refused.
-/
namespace Sluice.Token

open Sluice.Text

/-- The tokens of a text that starts at a byte position. -/
def scan (position : Nat) (cs : List Char) : Except ParseError (List Token) :=
  match cs with
  | [] => .ok []
  | c :: rest =>
      match first? (c :: rest) with
      | some (kind, n) =>
          let lexeme := c :: rest.take (n - 1)
          match scan (position + byteLength lexeme) (rest.drop (n - 1)) with
          | .ok tokens => .ok (⟨kind, String.ofList lexeme, position⟩ :: tokens)
          | .error e => .error e
      | none =>
          if isBlank c then scan (position + c.utf8Size) rest
          else .error (.unexpectedCharacter c position)
termination_by cs.length
decreasing_by
  · simp only [List.length_drop, List.length_cons]; omega
  · simp

/-- The tokens of a text. -/
def tokenize (text : String) : Except ParseError (List Token) :=
  scan 0 text.toList

end Sluice.Token
