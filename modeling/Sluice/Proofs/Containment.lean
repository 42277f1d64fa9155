import Sluice.Proofs.Parts
import Sluice.Proofs.Results
import Sluice.Proofs.StageFailures

/-!
# Failures inside of a pipeline

A stage that fails does so whatever it is run on, and in a pipeline it yields the empty list. So
nothing of what stands before it is left: the stages after it are run on the empty list, and read
their arguments from the data as they always do.
-/
namespace Sluice

open Sluice.Pipeline Sluice.Text Sluice.Token

/-- The text of a pipeline of these texts. -/
def pipeText (texts : List String) : String :=
  " | ".intercalate texts

theorem toList_pipeText (texts : List String) :
    (pipeText texts).toList = piped (texts.map String.toList) := by
  simp [pipeText, piped, String.toList_intercalate]

variable {first second : String} {rest : List String}

/-- A pipeline of closed texts has these for its stages, blanks at their ends aside. -/
theorem stages_pipeText (hclosed : ∀ text ∈ first :: rest, Closed false text.toList) :
    (stages (trimmed (pipeText (first :: rest))).toList).map String.ofList =
      (first :: rest).map trimmed := by
  have hcarried (text : String) (htext : text ∈ first :: rest) :
      Carried '|' ⟨0, 0, none⟩ text.toList ⟨0, 0, none⟩ :=
    (hclosed text htext).carried (Int.le_refl 0) (by simp)
  have hrest : ∀ text ∈ rest.map String.toList,
      Carried '|' ⟨0, 0, none⟩ text ⟨0, 0, none⟩ :=
    List.forall_mem_map.2 fun text htext => hcarried text (List.mem_cons_of_mem first htext)
  have hstages : stages (trim (pipeText (first :: rest)).toList) =
      stages (pipeText (first :: rest)).toList := map_trim_parts_trim (by decide) _
  rw [toList_trimmed, hstages, toList_pipeText, List.map_cons,
    stages_piped (hcarried first (by simp)) hrest]
  simp [trimmed, Function.comp_def]

/-- Two closed texts or more make a pipeline. -/
theorem Prepared.ofText_pipeText
    (hclosed : ∀ text ∈ first :: second :: rest, Closed false text.toList) :
    ofText (pipeText (first :: second :: rest)) =
      .pipeline (trimmed (pipeText (first :: second :: rest))) := by
  have hstages := congrArg List.length (stages_pipeText hclosed)
  simp only [stages, List.length_map, List.length_cons] at hstages
  have hpipe : isPipeline (trimmed (pipeText (first :: second :: rest))) = true := by
    rw [isPipeline, Pipeline.isPipeline, hstages]
    simp
  have hempty : (trimmed (pipeText (first :: second :: rest))).isEmpty = false := by
    cases he : (trimmed (pipeText (first :: second :: rest))).isEmpty with
    | false => rfl
    | true =>
        rw [String.isEmpty_iff] at he
        rw [he] at hstages
        simp [parts, partsFrom] at hstages
  simp [ofText, hempty, hpipe]

theorem Run.orElse_infallible {α : Type} (default : α) (x : Run α) :
    Run.orElse default (Run.infallible x) = x := by
  funext memo
  rw [Run.orElse_apply]
  change ((x >>= fun a => pure (Except.ok a)) memo).map _ = _
  rw [Run.bind_apply]
  cases x memo <;> rfl

theorem readStage_trimmed (stage : String) : readStage (trimmed stage) = readStage stage := by
  simp [readStage]

theorem stageFailure?_trimmed (stage : String) :
    stageFailure? (trimmed stage) = stageFailure? stage := by
  rw [stageFailure?, stageFailure?, readStage_trimmed]

namespace Scope

variable (s : Scope) {b : String} {data : Value} {depth : Nat}

theorem evaluate_pipeText
    (hclosed : ∀ text ∈ first :: second :: rest, Closed false text.toList) :
    s.evaluate depth (pipeText (first :: second :: rest)) data =
      s.initial (s.nestedAt depth) (trimmed first) data >>=
        s.runStages (s.nestedAt depth) data ((second :: rest).map trimmed) := by
  rw [evaluate, tryEvaluate, Prepared.ofText_pipeText hclosed, evalPrepared,
    Run.orElse_infallible, runPipeline, stages_pipeText hclosed]
  rfl

/-- A stage that fails passes the empty list on. -/
theorem runStages_of_stageFailure? {nested : Nested} {e : Failure}
    (h : stageFailure? b = some e) (stages : List String) (v : Value) :
    s.runStages nested data (b :: stages) v = s.runStages nested data stages (.array []) := by
  rw [runStages, s.runStage_of_stageFailure? h]
  rfl

theorem runStages_mono {k : Nat} (hk : depth ≤ k) (stages : List String) (v : Value)
    {memo : PathMemo} {r : Value × PathMemo}
    (h : s.runStages (s.nestedAt depth) data stages v memo = some r) :
    s.runStages (s.nestedAt k) data stages v memo = some r :=
  s.runStages_closed_self Run.closed_extends (s.nestedAt_mono depth k hk) stages v data memo r h

theorem runStages_isInquiry (stages : List String) (v : Value) :
    (s.runStages (s.nestedAt depth) data stages v).IsInquiry :=
  s.runStages_closed_self Run.closed_isInquiry (s.nestedAt_isInquiry depth) stages v data

theorem initial_isInquiry (stage : String) :
    (s.initial (s.nestedAt depth) stage data).IsInquiry :=
  s.initial_closed Run.closed_isInquiry (s.nestedAt_isInquiry depth) stage data

/-- Where a run goes on with stages on a value that does not depend on it, its result is that of
the stages. -/
theorem gives_runStages_of_bind {α : Type} {x : Run α} {stages : List String} {v : Value}
    {memo : PathMemo} {r : Value × PathMemo} {k : Nat} (hx : x.IsInquiry) (hmemo : memo.Sound)
    (h : (x >>= fun _ => s.runStages (s.nestedAt depth) data stages v) memo = some r)
    (hk : depth ≤ k) : Run.Gives (s.runStages (s.nestedAt k) data stages v) r.1 := by
  obtain ⟨a, memo₁, ha, hstages⟩ := Run.bind_eq_some.1 h
  have hmono := s.runStages_mono hk stages v hstages
  exact (s.runStages_isInquiry stages v).gives (hx.sound hmemo ha) hmono

/-- A failing stage is contained and forgets its input. If a stage fails in one run, it fails in
every run with the same failure, whatever the running value, the data, the bindings and the
evaluation of nested texts are. And in a pipeline of closed texts the stages after it are run on
the empty list once the first text has a value; so what stands before it does not matter. -/
theorem runStage_failure_contained {e : Failure} {s₀ : Scope} {nested₀ : Nested}
    {input₀ data₀ : Value} {memo₀ memo₁ : PathMemo}
    (h : (s₀.runStage nested₀ b input₀ data₀).run memo₀ = some (.error e, memo₁)) :
    (∀ (s : Scope) nested input data memo,
      (s.runStage nested b input data).run memo = some (.error e, memo)) ∧
    ∀ (s : Scope) (data : Value) (rest : List String),
      (∀ text ∈ b :: rest, Closed false text.toList) →
      (∀ first depth, Closed false first.toList →
        s.evaluate depth (pipeText (first :: b :: rest)) data =
          (do let _ ← s.initial (s.nestedAt depth) (trimmed first) data
              s.runStages (s.nestedAt depth) data (rest.map trimmed) (.array []))) ∧
      ∀ first first' depth depth' memo memo' r r',
        Closed false first.toList → Closed false first'.toList → memo.Sound → memo'.Sound →
        s.evaluate depth (pipeText (first :: b :: rest)) data memo = some r →
        s.evaluate depth' (pipeText (first' :: b :: rest)) data memo' = some r' → r.1 = r'.1 := by
  obtain ⟨hfails, -⟩ := s₀.runStage_eq_error_iff.1 h
  have hrun (s : Scope) (data : Value) (rest : List String)
      (hclosed : ∀ text ∈ b :: rest, Closed false text.toList) (first : String) (depth : Nat)
      (hfirst : Closed false first.toList) :
      s.evaluate depth (pipeText (first :: b :: rest)) data =
        (do let _ ← s.initial (s.nestedAt depth) (trimmed first) data
            s.runStages (s.nestedAt depth) data (rest.map trimmed) (.array [])) := by
    have htrimmed := (stageFailure?_trimmed b).trans hfails
    rw [s.evaluate_pipeText (List.forall_mem_cons.2 ⟨hfirst, hclosed⟩)]
    exact bind_congr fun v => s.runStages_of_stageFailure? htrimmed _ v
  refine ⟨fun s nested input data memo => s.runStage_eq_error_iff.2 ⟨hfails, rfl⟩, ?_⟩
  intro s data rest hclosed
  refine ⟨hrun s data rest hclosed, ?_⟩
  intro first first' depth depth' memo memo' r r' hfirst hfirst' hmemo hmemo' hr hr'
  rw [hrun s data rest hclosed first depth hfirst] at hr
  rw [hrun s data rest hclosed first' depth' hfirst'] at hr'
  have hgives := s.gives_runStages_of_bind (s.initial_isInquiry _) hmemo hr
    (Nat.le_max_left depth depth')
  have hgives' := s.gives_runStages_of_bind (s.initial_isInquiry _) hmemo' hr'
    (Nat.le_max_right depth depth')
  exact hgives.unique hgives'

/-- A projection without keys between the word for the data and a count. -/
theorem runStage_failure_contained_of_pick :
    ((Scope.mk {} Template.resolve 1).runStage .outOfDepth "pick()" .null .null).run (.fresh true) =
      some (.error (.noKeys "pick"), .fresh true) ∧
    (∀ text ∈ ["data", "pick()", "count()"], Closed false text.toList) ∧
    (Scope.mk {} Template.resolve 1).evaluate 0 "data | pick() | count()" (.string "a") =
      (do let _ ← (Scope.mk {} Template.resolve 1).initial .outOfDepth "data" (.string "a")
          (Scope.mk {} Template.resolve 1).runStages .outOfDepth (.string "a") ["count()"]
            (.array [])) := by
  have hplain {rest : List Char} (hrest : Closed false rest) (cs : List Char)
      (hcs : (cs.all fun c => decide (c ∉ '|' :: barSpecials)) = true) :
      Closed false (cs ++ rest) := by
    induction cs with
    | nil => exact hrest
    | cons c cs ih =>
        rw [List.all_cons, Bool.and_eq_true] at hcs
        exact .char (isPlain_of_not_mem (of_decide_eq_true hcs.1)) (ih hcs.2)
  have hparens : Closed false ['(', ')'] := .group (by decide) .nil .nil
  have hclosed : ∀ text ∈ ["data", "pick()", "count()"], Closed false text.toList := by
    simp only [List.forall_mem_cons]
    exact ⟨hplain .nil "data".toList (by decide), hplain hparens "pick".toList (by decide),
      hplain hparens "count".toList (by decide), by simp⟩
  have hfails : ((Scope.mk {} Template.resolve 1).runStage .outOfDepth "pick()" .null .null).run
      (.fresh true) = some (.error (.noKeys "pick"), .fresh true) :=
    ((Scope.mk {} Template.resolve 1).runStage_eq_error_iff).2 ⟨by decide +kernel, rfl⟩
  have htext : pipeText ["data", "pick()", "count()"] = "data | pick() | count()" := by
    decide +kernel
  have hdata : trimmed "data" = "data" ∧ ["count()"].map trimmed = ["count()"] := by
    decide +kernel
  obtain ⟨hfirst, hrest⟩ := List.forall_mem_cons.1 hclosed
  have hrun := ((runStage_failure_contained hfails).2 (Scope.mk {} Template.resolve 1)
    (.string "a") ["count()"] hrest).1 "data" 0 hfirst
  rw [htext, hdata.1, hdata.2] at hrun
  exact ⟨hfails, hclosed, hrun⟩

end Scope

end Sluice
