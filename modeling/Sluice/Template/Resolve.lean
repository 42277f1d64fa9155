import Sluice.Template.Bindings
import Sluice.Path.Follow
import Sluice.Value.Coercion
import Sluice.Text.Basic

/-!
# Resolving templates

A template names a table and a key in it. A bare template stands for the value found, one
in quotes for the text of that value. A template that is not resolved stands for its own
text.
-/
namespace Sluice

/-- What resolves the text of a template, or does not. -/
abbrev Resolver := Bindings → String → Option Value

namespace Template

open Sluice.Text

/-- The text between two copies of a quote, if they are there and apart. -/
def between? (q : Char) : List Char → Option (List Char)
  | [] => none
  | c :: rest => if c = q ∧ rest.getLast? = some q then some rest.dropLast else none

/-- The body of a template between its doubled braces. -/
def body? : List Char → Option (List Char)
  | '\x7b' :: '\x7b' :: rest =>
      match rest.reverse with
      | '\x7d' :: '\x7d' :: back => some back.reverse
      | _ => none
  | _ => none

/-- The entry of a table under the name at the start of a key, or what the rest of the key
leads to inside of it. -/
def entryAt (entries : Keyed Value) (key : List Char) : Option Value :=
  let isName (c : Char) : Bool := c != '.' && c != '['
  let rest := key.dropWhile isName
  match entries.get? (String.ofList (key.takeWhile isName)) with
  | none => none
  | some v => if rest.isEmpty then some v else some (v.follow (String.ofList ('$' :: rest)))

/-- What the bindings have for a key of a namespace. -/
def find (b : Bindings) (space key : List Char) : Option Value :=
  match String.ofList space with
  | "param" => b.parameters.get? (String.ofList key)
  | "env" => b.environment.get? (String.ofList key)
  | "res" => entryAt b.responses key
  | "proc" => entryAt b.transformed key
  | "fn" => (b.functions.get? (String.ofList key)).map fun f => f []
  | _ => none

/-- The text of a value in a quoted template, which shows null. -/
def shown : Value → String
  | .null => "null"
  | v => v.toText

/-- Resolves a template, in double quotes or without, from the bindings. -/
def resolve : Resolver := fun b text =>
  let cs := trim text.toList
  let (quoted, inner) := match between? '"' cs with
    | some inner => (true, inner)
    | none => (false, cs)
  match (body? inner).bind (cutAt ':') with
  | none => none
  | some (space, key) =>
      match find b (trim space) (trim key) with
      | none => none
      | some v =>
          if v.isMissing then none
          else some (if quoted then .string (shown v) else v)

/-- The text that is handed to a resolver: single quotes become double ones. -/
def normalized (text : String) : String :=
  match between? '\'' text.toList with
  | some inner => String.ofList ('"' :: (inner ++ ['"']))
  | none => text

/-- The value that a template stands for. -/
def value (resolver : Resolver) (b : Bindings) (text : String) : Value :=
  match resolver b (normalized text) with
  | some v => v
  | none => .string text

end Template

end Sluice
