import Sluice.Function.Call
import Sluice.Template.Resolve

/-!
# Evaluation

An expression is evaluated against a value. Only calls of unknown functions and projections
without keys fail; whatever else goes wrong is absorbed into the value. Pipelines do not
fail at all: a stage that fails yields the empty list.

Texts inside of texts (conditions, mappings, argument lists) are evaluated by the
evaluation one level down. At depth zero there is no level left, and the run has no result.
-/
namespace Sluice

open Sluice.Pipeline

/-- What an evaluation reads besides its data. -/
structure Scope where
  bindings : Bindings
  resolver : Resolver
  patternBudget : Nat

namespace Scope

mutual

/-- Evaluates an expression. The right operand of a conjunction or disjunction is looked at
only if the left one does not decide. -/
def evalExpr (s : Scope) (nested : Nested) : Expr → Value → FallibleRun Value
  | .literal v, _ => return v
  | .identifier name, data => return data.property name
  | .path text, data => Run.infallible (Run.follow text data)
  | .template text, _ => return Template.value s.resolver s.bindings text
  | .unary op e, data => return op.apply (← s.evalExpr nested e data)
  | .binary l op r, data => do
      let a ← s.evalExpr nested l data
      match op with
      | .and => if a.isTruthy then s.evalExpr nested r data else return a
      | .or => if a.isTruthy then return a else s.evalExpr nested r data
      | op => return op.apply s.patternBudget a (← s.evalExpr nested r data)
  | .call name args, data => do
      Function.call nested s.patternBudget name (← s.evalArgs nested args data)

/-- Evaluates arguments from left to right. -/
def evalArgs (s : Scope) (nested : Nested) : List Expr → Value → FallibleRun (List Value)
  | [], _ => return []
  | e :: rest, data => do
      let v ← s.evalExpr nested e data
      return v :: (← s.evalArgs nested rest data)

end

/-- Reads a text as an expression and evaluates it. -/
def evalText (s : Scope) (nested : Nested) (text : String) (data : Value) : FallibleRun Value :=
  match Expr.parse text with
  | .ok e => s.evalExpr nested e data
  | .error e => Run.fail (.parse e)

/-- The builtin that a stage calls, if it is a cast. -/
def castStage? (stage : String) : Option (Builtin × String) :=
  match readStage stage with
  | .ok call =>
      match Builtin.ofName? call.name with
      | some b => if b.isCast then some (b, call.args) else none
      | none => none
  | .error _ => none

/-- Calls a builtin as a stage: its first argument is the running value. -/
def callBuiltin (s : Scope) (nested : Nested) (b : Builtin) (args : String)
    (input data : Value) : Run Value := do
  let rest ← StageFunction.evaluateAll nested data (arguments args.toList)
  return b.call s.patternBudget (input :: rest)

/-- The value that a pipeline starts from. The word `data` is the data, a path is followed,
a cast is applied to the data, and anything else is an expression. -/
def initial (s : Scope) (nested : Nested) (stage : String) (data : Value) : Run Value :=
  if stage = "data" then return data
  else if stage.toList.head? = some '$' then nested.evaluate (.ofText stage) data
  else match castStage? stage with
    | some (b, args) => s.callBuiltin nested b args data data
    | none => Run.orElse .null (s.evalText nested stage data)

/-- Runs one stage on the running value; its arguments are read from the data. -/
def runStage (s : Scope) (nested : Nested) (stage : String) (input data : Value) :
    FallibleRun Value :=
  match readStage stage with
  | .error e => Run.fail (.parse e)
  | .ok call =>
      match StageFunction.ofName? call.name with
      | some f => do f.apply nested input (← f.readArgs nested call.args data)
      | none =>
          match Builtin.ofName? call.name with
          | some b => Run.infallible (s.callBuiltin nested b call.args input data)
          | none => Run.fail (.unknownFunction call.name)

/-- Runs stages one after the other. One that fails yields the empty list. -/
def runStages (s : Scope) (nested : Nested) (data : Value) : List String → Value → Run Value
  | [], v => return v
  | stage :: rest, v => do
      s.runStages nested data rest (← Run.orElse (.array []) (s.runStage nested stage v data))

/-- Runs a pipeline. -/
def runPipeline (s : Scope) (nested : Nested) (source : String) (data : Value) : Run Value :=
  match (stages source.toList).map String.ofList with
  | [] => return .null
  | first :: rest => do s.runStages nested data rest (← s.initial nested first data)

/-- Evaluates a prepared text. -/
def evalPrepared (s : Scope) (nested : Nested) (p : Prepared) (data : Value) :
    FallibleRun Value :=
  match p with
  | .empty => return .null
  | .pipeline source => Run.infallible (s.runPipeline nested source data)
  | .path text => Run.infallible (Run.follow text data)
  | .parsed _ e => s.evalExpr nested e data
  | .invalid _ e => Run.fail (.parse e)

/-- The evaluation of texts with so many levels of texts inside. -/
def nestedAt (s : Scope) : Nat → Nested
  | 0 => ⟨fun _ _ => Run.outOfDepth, fun _ _ => Run.outOfDepth⟩
  | depth + 1 =>
      let evaluate (p : Prepared) (data : Value) : Run Value :=
        Run.orElse .null (s.evalPrepared (s.nestedAt depth) p data)
      ⟨evaluate, fun p data => return (← evaluate p data).isTruthy⟩

/-- Evaluates a text, and fails where its outermost expression does. -/
def tryEvaluate (s : Scope) (depth : Nat) (text : String) (data : Value) : FallibleRun Value :=
  s.evalPrepared (s.nestedAt depth) (.ofText text) data

/-- Evaluates a text. A failure is null. -/
def evaluate (s : Scope) (depth : Nat) (text : String) (data : Value) : Run Value :=
  Run.orElse .null (s.tryEvaluate depth text data)

end Scope

end Sluice
