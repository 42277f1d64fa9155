import Sluice.Evaluation
import Sluice.Proofs.Runs

/-!
# Stages that fail

Whether a stage fails, and with which failure, is settled by its text. The text may be no call,
its function unknown, or its arguments none that the function can read; the running value, the
data, the bindings and the texts evaluated on the way have no part in it.
-/
namespace Sluice

open Sluice.Pipeline Sluice.Text

/-- Why a stage function refuses the text of its arguments, if it does. -/
def StageFunction.refusal? (f : StageFunction) (args : String) : Option Failure :=
  match f with
  | map =>
      match readFieldMap args with
      | .error e => some (.parse e)
      | .ok _ => none
  | sort =>
      match readSortOrder args with
      | .error e => some (.parse e)
      | .ok _ => none
  | pick => if readKeys args = [] then some (.noKeys pick.name) else none
  | _ => none

/-- Why a stage fails, if it does. -/
def stageFailure? (stage : String) : Option Failure :=
  match readStage stage with
  | .error e => some (.parse e)
  | .ok call =>
      match StageFunction.ofName? call.name with
      | some f => f.refusal? (trimmed call.args)
      | none =>
          match Builtin.ofName? call.name with
          | some _ => none
          | none => some (.unknownFunction call.name)

/-! ## Runs that do not fail -/

namespace Run

variable {α β : Type}

/-- No result of the run is a failure. -/
def NeverFails (x : FallibleRun α) : Prop :=
  ∀ memo e memo', x.run memo ≠ some (.error e, memo')

theorem NeverFails.pure (a : α) : NeverFails (Pure.pure a) := by
  rintro memo e memo' ⟨⟩

theorem NeverFails.infallible (x : Run α) : NeverFails (Run.infallible x) := by
  intro memo e memo' h
  obtain ⟨a, memo₁, -, he⟩ := bind_eq_some (f := fun a => Pure.pure (Except.ok a)).1 h
  cases he

theorem NeverFails.andThen {x : FallibleRun α} {f : α → FallibleRun β} (hx : NeverFails x)
    (hf : ∀ a, NeverFails (f a)) : NeverFails (x >>= f) := by
  intro memo e memo' h
  obtain ⟨outcome, memo₁, hrun, h⟩ := bind_eq_some (x := x.run).1 h
  cases outcome with
  | ok a => exact hf a memo₁ e memo' h
  | error failure => exact hx memo failure memo₁ hrun

end Run

open Run

/-! ## Functions on arguments that have been read -/

namespace StageFunction

variable {f : StageFunction} {nested : Nested} {input data : Value} {text : String}

/-- Only projections fail once their arguments have been read. -/
theorem apply_neverFails (hf : f ≠ pick) (args : Arguments) :
    NeverFails (f.apply nested input args) := by
  have hitems {α : Type} (x : Run α) (g : α → Value) :
      NeverFails (do return g (← Run.infallible x)) :=
    (NeverFails.infallible x).andThen fun a => .pure (g a)
  cases f
  case pick => exact absurd rfl hf
  case avg =>
      cases input
      case array items => cases items <;> first | exact .pure _ | exact hitems _ _
      all_goals exact .pure _
  case filter | map | sum | sort | unique =>
      cases input
      case array items => exact hitems _ _
      all_goals exact .pure _
  all_goals cases input <;> exact .pure _

theorem apply_pick {names : List String} :
    pick.apply nested input (.keys names) =
      if names = [] then Run.fail (.noKeys pick.name)
      else pure (match input with
        | .array items => .array (items.map (Items.pick names))
        | v => Items.pick names v) := by
  cases names with
  | nil => rfl
  | cons name names => cases input <;> rfl

/-- Reading arguments fails with what the function has against their text. -/
theorem readArgs_of_refusal? {e : Failure} (hf : f ≠ pick)
    (h : f.refusal? (trimmed text) = some e) : f.readArgs nested text data = Run.fail e := by
  cases f
  case map =>
      unfold readArgs
      cases hread : readFieldMap (trimmed text) with
      | error failure =>
          simp only [refusal?, hread] at h ⊢
          cases h
          rfl
      | ok table => simp [refusal?, hread] at h
  case sort =>
      unfold readArgs
      cases hread : readSortOrder (trimmed text) with
      | error failure =>
          simp only [refusal?, hread] at h ⊢
          cases h
          rfl
      | ok order => simp [refusal?, hread] at h
  case pick => exact absurd rfl hf
  all_goals cases h

theorem readArgs_neverFails (hf : f ≠ pick) (h : f.refusal? (trimmed text) = none) :
    NeverFails (f.readArgs nested text data) := by
  cases f
  case map =>
      unfold readArgs
      cases hread : readFieldMap (trimmed text) with
      | error failure => simp [refusal?, hread] at h
      | ok table =>
          simp only [hread]
          cases table <;> exact .pure _
  case sort =>
      unfold readArgs
      cases hread : readSortOrder (trimmed text) with
      | error failure => simp [refusal?, hread] at h
      | ok order =>
          simp only [hread]
          exact .pure _
  case pick => exact absurd rfl hf
  case filter | sum | avg | unique => exact .pure _
  case count | first | last | reverse | keys | values => exact .pure _
  all_goals exact (NeverFails.infallible _).andThen fun _ => .pure _

/-- A function run on the text of its arguments fails as it refuses the text. -/
theorem run_of_refusal? {e : Failure} (h : f.refusal? (trimmed text) = some e) :
    (f.readArgs nested text data >>= fun args => f.apply nested input args) = Run.fail e := by
  by_cases hf : f = pick
  · subst hf
    have hread : pick.readArgs nested text data = pure (.keys (readKeys (trimmed text))) := rfl
    rw [hread, pure_bind, apply_pick]
    simp only [refusal?] at h
    split at h
    · next hkeys =>
        cases h
        rw [if_pos hkeys]
    · cases h
  · rw [readArgs_of_refusal? hf h]
    rfl

theorem run_neverFails (h : f.refusal? (trimmed text) = none) :
    NeverFails (f.readArgs nested text data >>= fun args => f.apply nested input args) := by
  by_cases hf : f = pick
  · subst hf
    have hread : pick.readArgs nested text data = pure (.keys (readKeys (trimmed text))) := rfl
    rw [hread, pure_bind, apply_pick]
    simp only [refusal?] at h
    split at h
    · cases h
    · next hkeys =>
        rw [if_neg hkeys]
        exact .pure _
  · exact (readArgs_neverFails hf h).andThen fun args => apply_neverFails hf args

end StageFunction

/-! ## Stages -/

namespace Scope

variable (s : Scope) {nested : Nested} {stage : String} {input data : Value}

theorem runStage_of_stageFailure? {e : Failure} (h : stageFailure? stage = some e) :
    s.runStage nested stage input data = Run.fail e := by
  unfold stageFailure? at h
  unfold runStage
  cases hread : readStage stage with
  | error failure =>
      simp only [hread] at h ⊢
      cases h
      rfl
  | ok call =>
      simp only [hread] at h ⊢
      cases hname : StageFunction.ofName? call.name with
      | some f =>
          simp only [hname] at h ⊢
          exact StageFunction.run_of_refusal? h
      | none =>
          simp only [hname] at h ⊢
          cases hbuiltin : Builtin.ofName? call.name with
          | some b => simp [hbuiltin] at h
          | none =>
              simp only [hbuiltin] at h ⊢
              cases h
              rfl

theorem runStage_neverFails (h : stageFailure? stage = none) :
    NeverFails (s.runStage nested stage input data) := by
  unfold stageFailure? at h
  unfold runStage
  cases hread : readStage stage with
  | error failure => simp [hread] at h
  | ok call =>
      simp only [hread] at h ⊢
      cases hname : StageFunction.ofName? call.name with
      | some f =>
          simp only [hname] at h ⊢
          exact StageFunction.run_neverFails h
      | none =>
          simp only [hname] at h ⊢
          cases hbuiltin : Builtin.ofName? call.name with
          | some b => exact .infallible _
          | none => simp [hbuiltin] at h

/-- A stage fails exactly if its text makes it fail, with that failure and at once. -/
theorem runStage_eq_error_iff {memo memo' : PathMemo} {e : Failure} :
    (s.runStage nested stage input data).run memo = some (.error e, memo') ↔
      stageFailure? stage = some e ∧ memo' = memo := by
  cases hfailure : stageFailure? stage with
  | none =>
      have hnever : NeverFails (s.runStage nested stage input data) :=
        s.runStage_neverFails hfailure
      simpa using hnever memo e memo'
  | some failure =>
      rw [s.runStage_of_stageFailure? hfailure]
      change some (Except.error failure, memo) = some (Except.error e, memo') ↔ _
      simp [eq_comm]

end Scope

end Sluice
