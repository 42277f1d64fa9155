import Sluice.Pipeline.Split
import Sluice.Text.Digit
import Sluice.Token.Basic
import Sluice.ParseError

/-!
# Stages and their argument texts

A stage is a name, alone or with arguments in parentheses. How the argument text is read
depends on the function: as a list of expressions, a table of fields, a list of keys, or
the specification of an order.
-/
namespace Sluice.Pipeline

open Sluice.Text

/-- A stage: a function name and the text of its arguments. -/
structure Stage where
  name : String
  args : String
  deriving DecidableEq, Repr

/-- An order: the field that is the key, the element itself if there is none. -/
structure SortOrder where
  field : Option String
  desc : Bool
  deriving DecidableEq, Repr

/-- A name of a stage: a letter of ASCII or an underscore, and letters, numerals and
underscores. -/
def isStageName : List Char → Bool
  | [] => false
  | c :: rest => Token.isNameStart c && rest.all fun d => isAlphanumeric d || d == '_'

/-- The name and the argument text of a trimmed stage. -/
def nameAndArgs (cs : List Char) : Option (List Char × List Char) :=
  match cutAt '(' cs with
  | none => some (cs, [])
  | some (name, rest) =>
      if rest.getLast? = some ')' then some (trim name, trim rest.dropLast) else none

/-- Reads a stage, blanks at its ends aside. -/
def readStage (stage : String) : Except ParseError Stage :=
  let cs := trim stage.toList
  match nameAndArgs cs with
  | some (name, args) =>
      if isStageName name && balanced args then .ok ⟨String.ofList name, String.ofList args⟩
      else .error (.invalidStage (String.ofList cs))
  | none => .error (.invalidStage (String.ofList cs))

/-- Reads one field: a key that may be quoted, a colon, and an expression. -/
def readField (entry : List Char) : Except ParseError (String × String) :=
  match cutTop ':' entry with
  | none => .error (.invalidField (String.ofList entry))
  | some (key, value) =>
      let key := stripQuotes (trim key)
      let value := trim value
      if key.isEmpty || value.isEmpty then .error (.invalidField (String.ofList entry))
      else .ok (String.ofList key, String.ofList value)

/-- Reads fields up to the first that is none. -/
def readFields : List (List Char) → Except ParseError (List (String × String))
  | [] => .ok []
  | entry :: rest =>
      match readField entry with
      | .error e => .error e
      | .ok field =>
          match readFields rest with
          | .error e => .error e
          | .ok fields => .ok (field :: fields)

/-- The inside of a text in single braces. Two opening braces begin a template. -/
def braced? (cs : List Char) : Option (List Char) :=
  match cs with
  | '\x7b' :: rest =>
      if rest.head? ≠ some '\x7b' ∧ rest.getLast? = some '\x7d' then some rest.dropLast else none
  | _ => none

/-- Reads a table of fields. A text without braces around it is no table. -/
def readFieldMap (args : String) : Except ParseError (Option (List (String × String))) :=
  match braced? (trim args.toList) with
  | none => .ok none
  | some inner => (readFields (arguments inner)).map some

/-- The inside of a text in brackets, and the text itself without them. -/
def unbracketed (cs : List Char) : List Char :=
  match cs with
  | '[' :: rest => if rest.getLast? = some ']' then rest.dropLast else cs
  | _ => cs

/-- Reads a list of keys, which may be quoted. -/
def readKeys (args : String) : List String :=
  (((arguments (unbracketed (trim args.toList))).map stripQuotes).filter
    fun key => !key.isEmpty).map String.ofList

/-- The words that turn an option on. -/
def isOn (flag : String) : Bool :=
  let word := asciiLower (stripQuotes (trim flag.toList))
  word == "true".toList || word == "1".toList

/-- Sets one option of an order; others are left alone. -/
def SortOrder.set (order : SortOrder) (option : String × String) : SortOrder :=
  match option.1 with
  | "by" => { order with field := some (String.ofList (stripQuotes option.2.toList)) }
  | "desc" => { order with desc := isOn option.2 }
  | _ => order

/-- Reads the arguments of `sort`: a table with `by` and `desc`, or a field that `desc` may
follow. -/
def readSortOrder (args : String) : Except ParseError SortOrder :=
  match readFieldMap args with
  | .error e => .error e
  | .ok (some fields) => .ok (fields.foldl SortOrder.set ⟨none, false⟩)
  | .ok none =>
      let args := arguments args.toList
      .ok {
        field := args.head?.map fun field => String.ofList (stripQuotes field)
        desc := match args[1]? with
          | some flag =>
              isOn (String.ofList flag) || asciiLower (stripQuotes flag) == "desc".toList
          | none => false }

end Sluice.Pipeline
