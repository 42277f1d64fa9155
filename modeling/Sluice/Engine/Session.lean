import Sluice.Engine.Basic

/-!
# Sessions

A session is a list of requests to one engine. Each request has an answer and leaves the
engine as the next one finds it.
-/
namespace Sluice

/-- What can be asked of an engine. -/
inductive Request where
  | evaluate (text : String) (data : Value)
  | evaluateJson (text : String) (data : Json)
  | holds (text : String) (data : Value)
  | tryEvaluate (text : String) (data : Value)
  | setBindings (b : Bindings)
  | mergeBindings (b : Bindings)
  | clearPaths

/-- What an engine answers. -/
inductive Answer where
  | value (v : Value)
  | document (j : Json)
  | condition (b : Bool)
  | outcome (r : Except EngineError Value)
  | bindings (b : Bindings)
  | done

namespace Engine

/-- Answers one request. -/
def answer (e : Engine) : Request → Option (Answer × Engine)
  | .evaluate text data => (e.evaluate text data).map fun (v, e) => (.value v, e)
  | .evaluateJson text data => (e.evaluateJson text data).map fun (j, e) => (.document j, e)
  | .holds text data => (e.holds text data).map fun (b, e) => (.condition b, e)
  | .tryEvaluate text data => (e.tryEvaluate text data).map fun (r, e) => (.outcome r, e)
  | .setBindings b => some (.bindings b, e.setBindings b)
  | .mergeBindings b =>
      let e := e.mergeBindings b
      some (.bindings e.bindings, e)
  | .clearPaths => some (.done, e.clearPaths)

/-- Answers requests in order, with the engine as it is after each. -/
def answerAll (e : Engine) : List Request → Option (List (Answer × Engine))
  | [] => some []
  | r :: rest =>
      match e.answer r with
      | none => none
      | some (a, e') => (e'.answerAll rest).map ((a, e') :: ·)

end Engine

end Sluice
