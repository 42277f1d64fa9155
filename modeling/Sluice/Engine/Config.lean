import Sluice.Json.Reader
import Sluice.Keyed
import Sluice.Pattern.Budget

/-!
# The configuration of an engine

Three settings with defaults. A configuration is read from an object, where unknown members
are ignored, or from a list of the settings in their order.
-/
namespace Sluice

/-- The settings of an engine. -/
structure Config where
  /-- The paths that have been read are remembered. -/
  rememberPaths : Bool := true
  /-- The budget for the size of patterns, in bytes. -/
  patternBudget : Nat := Pattern.defaultBudget
  /-- Contained failures are worth a warning. -/
  logFailures : Bool := true
  deriving DecidableEq, Repr

/-- Why a configuration is refused. -/
inductive ConfigFault where
  | noPatternBudget
  deriving DecidableEq, Repr

def ConfigFault.message : ConfigFault → String
  | noPatternBudget => "Configuration error: regex_size_limit must be greater than zero"

namespace Config

/-- Checks a configuration for settings that no engine can work with. -/
def validate (c : Config) : Except ConfigFault Unit :=
  if c.patternBudget = 0 then .error .noPatternBudget else .ok ()

/-- The document of a configuration. -/
def toJson (c : Config) : Json :=
  .object
    [("enable_path_cache", .bool c.rememberPaths),
     ("regex_size_limit", .int c.patternBudget),
     ("log_failures", .bool c.logFailures)]

/-- A setting that may be left out. -/
def flag? (default : Bool) : Option Json → Option Bool
  | none => some default
  | some (.bool b) => some b
  | some _ => none

/-- A budget that may be left out. -/
def budget? (default : Nat) : Option Json → Option Nat
  | none => some default
  | some (.int n) => if 0 ≤ n then some n.toNat else none
  | some _ => none

/-- The configuration whose settings are given, as far as they are. -/
def ofSettings? (rememberPaths patternBudget logFailures : Option Json) : Option Config := do
  let d : Config := {}
  return {
    rememberPaths := ← flag? d.rememberPaths rememberPaths
    patternBudget := ← budget? d.patternBudget patternBudget
    logFailures := ← flag? d.logFailures logFailures }

/-- The names of the settings. -/
def settingNames : List String :=
  ["enable_path_cache", "regex_size_limit", "log_failures"]

/-- The configuration of a document. No setting may be given twice. -/
def ofJson? : Json → Option Config
  | .object members =>
      let m : Keyed Json := members
      if settingNames.any fun name => (m.keys.filter (· == name)).length > 1 then none
      else
        ofSettings? (m.get? "enable_path_cache") (m.get? "regex_size_limit")
          (m.get? "log_failures")
  | .array settings =>
      if settings.length > 3 then none
      else ofSettings? settings[0]? settings[1]? settings[2]?
  | _ => none

/-- The configuration of a text. -/
def read? (text : String) : Option Config :=
  (Json.read? text).bind ofJson?

end Config

end Sluice
