import Sluice.Function.Builtin
import Sluice.Function.Stage

/-!
# Functions by name

A name is that of a builtin, of a stage function, or of nothing. Called with values, a
stage function takes the first one as its input.
-/
namespace Sluice.Function

/-- Something can be called by the name. -/
def isKnown (name : String) : Bool :=
  (Builtin.ofName? name).isSome || (StageFunction.ofName? name).isSome

/-- The names of all functions: operators, builtins, stage functions and their aliases. -/
def names : List String :=
  Operator.all.map Operator.symbol ++ Builtin.named.map Builtin.name
    ++ StageFunction.all.map StageFunction.name ++ StageFunction.aliases.map Prod.fst

/-- Calls a function by its name. -/
def call (nested : Nested) (patternBudget : Nat) (name : String) (args : List Value) :
    FallibleRun Value :=
  match Builtin.ofName? name with
  | some b => return b.call patternBudget args
  | none =>
      match StageFunction.ofName? name with
      | some f => f.apply nested (args.headD .missing) (f.argsOfValues args.tail)
      | none => Run.fail (.unknownFunction name)

end Sluice.Function
