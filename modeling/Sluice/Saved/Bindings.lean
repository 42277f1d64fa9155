import Sluice.Saved.Value
import Sluice.Template.Bindings

/-!
# Saved template bindings

Four of the five tables can be saved; helper functions cannot. Loading takes an object
whose members are tables, or a list of the tables in their order; what is left out is
empty.
-/
namespace Sluice.Bindings

/-- The saved form of bindings. -/
def save (b : Bindings) : Json :=
  .object
    [("responses", .object (Value.saveEntries b.responses)),
     ("transformedData", .object (Value.saveEntries b.transformed)),
     ("parameters", .object (Value.saveEntries b.parameters)),
     ("environment", .object (Value.saveEntries b.environment))]

/-- A table that may be left out. -/
def loadTable? : Option Json → Option (Keyed Value)
  | none => some []
  | some (.object members) => some (Keyed.ofList (Value.ofMembers members))
  | some _ => none

/-- The bindings whose tables are given, as far as they are. -/
def loadTables? (responses transformed parameters environment : Option Json) :
    Option Bindings := do
  return {
    responses := ← loadTable? responses
    transformed := ← loadTable? transformed
    parameters := ← loadTable? parameters
    environment := ← loadTable? environment }

/-- The bindings of a saved form. -/
def load? : Json → Option Bindings
  | .object members =>
      let m := Keyed.ofList members
      loadTables? (m.get? "responses") (m.get? "transformedData") (m.get? "parameters")
        (m.get? "environment")
  | .array tables =>
      if tables.length > 4 then none
      else loadTables? tables[0]? tables[1]? tables[2]? tables[3]?
  | _ => none

/-- A description of bindings for people. -/
def describe (b : Bindings) : String :=
  let field (name : String) (text : List Char) : List Char := name.toList ++ ':' :: ' ' :: text
  let fields :=
    [field "responses" (Description.table b.responses),
     field "transformed_data" (Description.table b.transformed),
     field "parameters" (Description.table b.parameters),
     field "environment" (Description.table b.environment),
     field "functions"
       (Description.listed '[' ']' ((Keyed.keys b.functions).map Description.string))]
  String.ofList
    ("TemplateContext \x7b ".toList ++ [',', ' '].intercalate fields ++ " \x7d".toList)

end Sluice.Bindings
