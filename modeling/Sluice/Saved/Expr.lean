import Sluice.Saved.Value
import Sluice.Expr.Basic

/-!
# Saved expressions

The saved form of an expression is an object with one member, named for the kind of the
expression. Loading takes back what saving wrote, in any order of the fields and with
members that it does not know.
-/
namespace Sluice

namespace Operator

/-- The name of an operator in saved expressions. -/
def savedName : Operator → String
  | eq => "Eq"
  | ne => "Ne"
  | gt => "Gt"
  | ge => "Ge"
  | lt => "Lt"
  | le => "Le"
  | add => "Add"
  | sub => "Sub"
  | mul => "Mul"
  | div => "Div"
  | mod => "Mod"
  | and => "And"
  | or => "Or"
  | contains => "Contains"
  | startsWith => "StartsWith"
  | endsWith => "EndsWith"
  | matchesPattern => "Matches"

def ofSavedName? (s : String) : Option Operator :=
  all.find? fun op => op.savedName == s

theorem ofSavedName?_savedName (op : Operator) : ofSavedName? op.savedName = some op := by
  cases op <;> decide

end Operator

namespace UnaryOperator

def savedName : UnaryOperator → String
  | not => "Not"
  | negate => "Negate"

def ofSavedName? (s : String) : Option UnaryOperator :=
  [not, negate].find? fun op => op.savedName == s

theorem ofSavedName?_savedName (op : UnaryOperator) : ofSavedName? op.savedName = some op := by
  cases op <;> decide

end UnaryOperator

namespace Expr

mutual

/-- The saved form of an expression. -/
def save : Expr → Json
  | .literal v => .object [("Literal", v.save)]
  | .identifier name => .object [("Identifier", .string name)]
  | .path text => .object [("PathRef", .string text)]
  | .binary l op r =>
      .object [("Binary", .object
        [("left", l.save), ("op", .string op.savedName), ("right", r.save)])]
  | .unary op e =>
      .object [("Unary", .object [("op", .string op.savedName), ("operand", e.save)])]
  | .call name args =>
      .object [("FunctionCall", .object [("name", .string name), ("args", .array (saveArgs args))])]
  | .template text => .object [("Template", .string text)]

def saveArgs : List Expr → List Json
  | [] => []
  | e :: rest => e.save :: saveArgs rest

end

/-- The member with a name, the last one if there are several. -/
def field? (name : String) :
    (members : List (String × Json)) → Option { j : Json // sizeOf j < sizeOf members }
  | [] => none
  | (k, j) :: rest =>
      match field? name rest with
      | some ⟨j', h⟩ => some ⟨j', by simp; omega⟩
      | none => if k = name then some ⟨j, by simp; omega⟩ else none

/-- The name and the value of the only member. -/
def only? (members : List (String × Json)) :
    Option (String × { j : Json // sizeOf j < sizeOf members }) :=
  match members with
  | [] => none
  | (k, j) :: rest =>
      if rest.all fun e => e.1 == k then (field? k ((k, j) :: rest)).map fun f => (k, f) else none

/-- A name that stands alone, or is the name of a member that is null. -/
def savedWord? : Json → Option String
  | .string s => some s
  | .object members =>
      match only? members with
      | some (k, ⟨.null, _⟩) => some k
      | _ => none
  | _ => none

def string? : Json → Option String
  | .string s => some s
  | _ => none

mutual

/-- The expression of a saved form. -/
def load? (j : Json) : Option Expr :=
  match j with
  | .object members =>
      match only? members with
      | none => none
      | some (tag, ⟨body, _hbody⟩) =>
          match tag, body with
          | "Literal", body => some (.literal (Value.ofJson body))
          | "Identifier", .string s => some (.identifier s)
          | "PathRef", .string s => some (.path s)
          | "Template", .string s => some (.template s)
          | "Binary", .object fields =>
              match field? "left" fields, field? "op" fields, field? "right" fields with
              | some ⟨l, _hl⟩, some ⟨op, _⟩, some ⟨r, _hr⟩ =>
                  match load? l, (savedWord? op).bind Operator.ofSavedName?, load? r with
                  | some l, some op, some r => some (.binary l op r)
                  | _, _, _ => none
              | _, _, _ => none
          | "Unary", .object fields =>
              match field? "op" fields, field? "operand" fields with
              | some ⟨op, _⟩, some ⟨e, _he⟩ =>
                  match (savedWord? op).bind UnaryOperator.ofSavedName?, load? e with
                  | some op, some e => some (.unary op e)
                  | _, _ => none
              | _, _ => none
          | "FunctionCall", .object fields =>
              match field? "name" fields, field? "args" fields with
              | some ⟨name, _⟩, some ⟨.array args, _ha⟩ =>
                  match string? name, loadArgs? args with
                  | some name, some args => some (.call name args)
                  | _, _ => none
              | _, _ => none
          | _, _ => none
  | _ => none
termination_by sizeOf j
decreasing_by all_goals (simp at *; omega)

def loadArgs? (js : List Json) : Option (List Expr) :=
  match js with
  | [] => some []
  | j :: rest =>
      match load? j, loadArgs? rest with
      | some e, some es => some (e :: es)
      | _, _ => none
termination_by sizeOf js

end

/-- The expression of a saved text. -/
def loadText? (text : String) : Option Expr :=
  (Json.read? text).bind load?

end Expr

end Sluice
