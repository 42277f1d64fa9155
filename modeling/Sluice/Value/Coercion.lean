import Sluice.Value.Basic
import Sluice.Number
import Sluice.Json.Reader

/-!
# Values as JSON, as text and as numbers

The canonical document of a value writes safe integers as integers and has null for what
JSON cannot say: missing, not-a-number and the infinities. Predicates on text and sorting
see the text of a value, arithmetic and the relations see its number.
-/
namespace Sluice

namespace Value

/-- The canonical document of a number. -/
def numberJson (x : Float) : Json :=
  match Number.safeInt? x with
  | some n => .int n
  | none => if x.isFinite then .float x else .null

mutual

/-- The canonical document of a value. -/
def toJson : Value → Json
  | .null | .missing => .null
  | .bool b => .bool b
  | .number x => numberJson x
  | .string s => .string s
  | .array items => .array (itemsJson items)
  | .object entries => .object (entriesJson entries)

def itemsJson : List Value → List Json
  | [] => []
  | v :: rest => v.toJson :: itemsJson rest

def entriesJson : List (String × Value) → List (String × Json)
  | [] => []
  | (k, v) :: rest => (k, v.toJson) :: entriesJson rest

end

mutual

/-- The value of a document. Of members with one name the last counts, in the place of the
first. -/
def ofJson : Json → Value
  | .null => .null
  | .bool b => .bool b
  | .int n => .number (Float.ofInt n)
  | .float x => .number x
  | .string s => .string s
  | .array items => .array (ofItems items)
  | .object members => .object (Keyed.ofList (ofMembers members))

def ofItems : List Json → List Value
  | [] => []
  | j :: rest => ofJson j :: ofItems rest

def ofMembers : List (String × Json) → List (String × Value)
  | [] => []
  | (k, j) :: rest => (k, ofJson j) :: ofMembers rest

end

/-- The canonical JSON text. -/
def jsonText (v : Value) : String :=
  v.toJson.render

/-- The value of a JSON text. -/
def readJson? (text : String) : Option Value :=
  (Json.read? text).map ofJson

mutual

/-- The value with null in place of all that JSON cannot say. -/
def normalized : Value → Value
  | .missing => .null
  | .number x => if x.isFinite then .number x else .null
  | .array items => .array (normalizedItems items)
  | .object entries => .object (normalizedEntries entries)
  | v => v

def normalizedItems : List Value → List Value
  | [] => []
  | v :: rest => v.normalized :: normalizedItems rest

def normalizedEntries : List (String × Value) → List (String × Value)
  | [] => []
  | (k, v) :: rest => (k, v.normalized) :: normalizedEntries rest

end

/-- The number that a value is read as. Numbers stand for themselves, booleans for one and
zero, and text for what it looks like; nothing else is a number. -/
def toNumber? : Value → Option Number
  | .number x => some x
  | .bool b => some (if b then 1 else 0)
  | .string s => Number.read? s
  | _ => none

/-- The number that a value is read as, not-a-number where there is none. -/
def toNumber (v : Value) : Number :=
  v.toNumber?.getD .nan

/-- The text that a value is read as: empty for the absent ones, JSON for lists and
objects. -/
def toText : Value → String
  | .null | .missing => ""
  | .bool b => if b then "true" else "false"
  | .number x => Number.text x
  | .string s => s
  | v => v.jsonText

/-- The text shown for a value, which names the two absent ones. -/
def display : Value → String
  | .missing => "missing"
  | .null => "null"
  | v => v.toText

/-- What is wrong with a value of another kind. -/
structure KindMismatch where
  found : String
  deriving DecidableEq, Repr

def KindMismatch.message (e : KindMismatch) : String :=
  s!"Type error: expected number, got {e.found}"

/-- The number that a value is, without coercion. -/
def asFloat (v : Value) : Except KindMismatch Number :=
  match v.float? with
  | some x => .ok x
  | none => .error ⟨v.typeName⟩

end Value

end Sluice
