import Sluice.Engine.Config
import Sluice.Evaluation

/-!
# Engines

An engine holds a configuration, the bindings and the resolver of its templates, and the
memo of paths. Evaluating uses the engine and gives it back with a memo that may
know more paths; no other part of it changes. An evaluation that nests deeper than the
engine allows has no result.
-/
namespace Sluice

/-- An engine. -/
structure Engine where
  config : Config
  bindings : Bindings
  resolver : Resolver
  memo : PathMemo
  /-- How deep texts may nest in texts that are evaluated. -/
  depth : Nat

/-- Why an engine refuses a configuration or a text. -/
inductive EngineError where
  | config (fault : ConfigFault)
  | evaluation (failure : Failure)
  deriving DecidableEq, Repr

def EngineError.message : EngineError → String
  | config fault => fault.message
  | evaluation failure => s!"Runtime error: {failure.message}"

namespace Engine

/-- How deep texts may nest if nothing else is said. -/
def defaultDepth : Nat := 1024

/-- An engine with a configuration that it can work with. -/
def build (config : Config) (bindings : Bindings) (resolver : Resolver) (depth : Nat) :
    Except EngineError Engine :=
  match config.validate with
  | .ok () => .ok ⟨config, bindings, resolver, .fresh config.rememberPaths, depth⟩
  | .error e => .error (.config e)

/-- What evaluations of the engine read besides their data. -/
def scope (e : Engine) : Scope :=
  ⟨e.bindings, e.resolver, e.config.patternBudget⟩

/-- Runs something with the memo of the engine. -/
def run {α : Type} (e : Engine) (r : Run α) : Option (α × Engine) :=
  (r e.memo).map fun (a, memo) => (a, { e with memo })

/-- Evaluates a text. A failure is null. -/
def evaluate (e : Engine) (text : String) (data : Value) : Option (Value × Engine) :=
  e.run (e.scope.evaluate e.depth text data)

/-- Evaluates a text against a document, to a document. -/
def evaluateJson (e : Engine) (text : String) (data : Json) : Option (Json × Engine) :=
  (e.evaluate text (Value.ofJson data)).map fun (v, e) => (v.toJson, e)

/-- Evaluates a text as a condition. -/
def holds (e : Engine) (text : String) (data : Value) : Option (Bool × Engine) :=
  (e.evaluate text data).map fun (v, e) => (v.isTruthy, e)

/-- Evaluates a text, and tells of a failure of its outermost expression. -/
def tryEvaluate (e : Engine) (text : String) (data : Value) :
    Option (Except EngineError Value × Engine) :=
  (e.run (e.scope.tryEvaluate e.depth text data).run).map fun (r, e) =>
    (r.mapError .evaluation, e)

/-- Replaces the bindings. -/
def setBindings (e : Engine) (b : Bindings) : Engine :=
  { e with bindings := b }

/-- Writes bindings into those of the engine. -/
def mergeBindings (e : Engine) (b : Bindings) : Engine :=
  { e with bindings := e.bindings.merge b }

/-- Forgets the remembered paths. -/
def clearPaths (e : Engine) : Engine :=
  { e with memo := e.memo.clear }

/-- How many paths are remembered. -/
def pathCount (e : Engine) : Nat :=
  e.memo.size

end Engine

end Sluice
