import Sluice.Value.Basic
import Sluice.Keyed

/-!
# Template bindings

Five tables give the names that templates can mention their values: stored responses, the
data of earlier transformations, parameters, the environment, and helper functions. Later
bindings of a name replace earlier ones.
-/
namespace Sluice

/-- What templates are resolved from. -/
structure Bindings where
  responses : Keyed Value := []
  transformed : Keyed Value := []
  parameters : Keyed Value := []
  environment : Keyed Value := []
  functions : Keyed (List Value → Value) := []

namespace Bindings

/-- Bindings of nothing. -/
def empty : Bindings := {}

/-- Writes the bindings of the second into the first. -/
def merge (b c : Bindings) : Bindings where
  responses := b.responses.extend c.responses
  transformed := b.transformed.extend c.transformed
  parameters := b.parameters.extend c.parameters
  environment := b.environment.extend c.environment
  functions := b.functions.extend c.functions

def isEmpty (b : Bindings) : Bool :=
  b.responses.isEmpty && b.transformed.isEmpty && b.parameters.isEmpty
    && b.environment.isEmpty && b.functions.isEmpty

end Bindings

end Sluice
