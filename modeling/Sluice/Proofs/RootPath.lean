import Sluice.Proofs.Containment
import Sluice.Proofs.FilterFusion
import Sluice.Proofs.PathTexts

/-!
# The path of a dollar sign

The path `$` has one step, which leads from a value to the value itself. A walk looks before every
step whether the value is absent, so this step too is left out where the value is null or missing,
and the walk then leads nowhere. A missing value comes out as it was; an explicit null comes out
missing. Whatever is said with the path, of one value, of the elements of a list or of the value
that a pipeline starts from, is what the identity would say exactly where there is no null.
-/
namespace Sluice

open Sluice.Text Sluice.Pipeline

namespace Value

/-- What the path `$` leads to: the value itself, and nothing where this is null. -/
def atRoot (v : Value) : Value :=
  if v.isNull then .missing else v

theorem atRoot_eq_self_iff {v : Value} : v.atRoot = v ↔ v.isNull = false := by
  cases v <;> simp [atRoot, isNull]

/-- Nothing is identical to null after the path. -/
theorem atRoot_beq_null (v : Value) : (v.atRoot == .null) = false := by
  cases v <;> rfl

theorem map_atRoot_eq_self_iff {items : List Value} :
    items.map atRoot = items ↔ ∀ x ∈ items, x.isNull = false := by
  simpa [atRoot_eq_self_iff] using List.map_inj_left (f := atRoot) (g := id) (l := items)

theorem follow_root (v : Value) : v.follow "$" = v.atRoot := by
  have hread : Path.ofText "$" = .ok ⟨"$", [.root]⟩ := by
    have htrim : trim "$".toList = ['$'] := by decide
    simp only [Path.ofText, htrim, Path.stepsOf, Path.stepsFrom_nil]
    rfl
  simp only [follow, hread, Path.follow]
  cases v <;> rfl

end Value

namespace Run

variable {α : Type} {x : Run α} {a b : α}

theorem Gives.eq_iff (h : Gives x a) : Gives x b ↔ a = b :=
  ⟨fun hb => h.unique hb, fun he => he ▸ h⟩

/-- A condition that has a result for every element keeps those for which this is true. -/
theorem Gives.filterM {p : α → Run Bool} {q : α → Bool} {items : List α}
    (h : ∀ a ∈ items, Gives (p a) (q a)) : Gives (items.filterM p) (items.filter q) := by
  induction items with
  | nil => exact .pure []
  | cons a items ih =>
      obtain ⟨ha, hrest⟩ := List.forall_mem_cons.1 h
      rw [filterM_cons, List.filter_cons]
      exact ha.bind ((ih hrest).bind (.pure _))

theorem Gives.value?_eq (h : Gives x a) {memo : PathMemo} (hmemo : memo.Sound) :
    value? x memo = some a := by
  obtain ⟨memo', -, hrun⟩ := h memo hmemo
  rw [value?, hrun]
  rfl

theorem Gives.value?_bind {β : Type} {f : α → Run β} (h : Gives x a) (hf : ∀ a, (f a).IsInquiry)
    {memo memo' : PathMemo} (hmemo : memo.Sound) (hmemo' : memo'.Sound) :
    value? (x >>= f) memo = value? (f a) memo' := by
  obtain ⟨memo₁, hmemo₁, hrun⟩ := h memo hmemo
  rw [value?, bind_apply, hrun]
  exact (hf a).value?_eq hmemo₁ hmemo'

/-- Both runs come to the same with any two memos that hold nothing false. -/
def Agree (x y : Run α) : Prop :=
  ∀ memo memo' : PathMemo, memo.Sound → memo'.Sound → value? x memo = value? y memo'

theorem Agree.eq_of_gives {y : Run α} (h : Agree x y) (hx : Gives x a) (hy : Gives y b) :
    a = b := by
  have hsound := (PathMemo.holds_fresh true).sound
  have hvalues := h _ _ hsound hsound
  rw [hx.value?_eq hsound, hy.value?_eq hsound] at hvalues
  exact Option.some.inj hvalues

end Run

/-! ## Texts with the path in them -/

theorem Text.trimmed_root : trimmed "$" = "$" := by
  decide

theorem Token.plainPath_root : PlainPath "$".toList :=
  ⟨by decide, by simp [segments]⟩

theorem PlainText.root : PlainText "$" := by
  have htokens : (Token.tokenize "$").toOption = some [⟨.path, "$", 0⟩] := by decide +kernel
  have hreads : Expr.ReadsExpr 0 [⟨.path, "$", 0⟩] (.path "$") [] :=
    .mk (.atom rfl) (.done (by simp [Expr.StopsAt]))
  exact .of_tokens (by decide) (by decide) htokens hreads (by decide) (by decide)
    (List.forall_mem_singleton.2 fun _ => Token.plainPath_root)

theorem PlainText.data : PlainText "data" := by
  have htokens : (Token.tokenize "data").toOption = some [⟨.identifier, "data", 0⟩] := by
    decide +kernel
  have hreads : Expr.ReadsExpr 0 [⟨.identifier, "data", 0⟩] (.identifier "data") [] :=
    .mk (.word rfl (by simp [Expr.CallFollows])) (.done (by simp [Expr.StopsAt]))
  exact .of_tokens (by decide) (by decide) htokens hreads (by decide) (by decide)
    (List.forall_mem_singleton.2 nofun)

/-- The condition that an element is null. -/
theorem PlainText.rootIsNull :
    PlainText "$ == null" ∧
      Expr.parse "$ == null" = .ok (.binary (.path "$") .eq (.literal .null)) := by
  have htokens : (Token.tokenize "$ == null").toOption =
      some [⟨.path, "$", 0⟩, ⟨.operator, "==", 2⟩, ⟨.identifier, "null", 5⟩] := by decide +kernel
  have hreads : Expr.ReadsExpr 0
      [⟨.path, "$", 0⟩, ⟨.operator, "==", 2⟩, ⟨.identifier, "null", 5⟩]
      (.binary (.path "$") .eq (.literal .null)) [] :=
    .mk (.atom rfl) (.step rfl (by decide)
      (.mk (.word rfl (by simp [Expr.CallFollows])) (.done (by simp [Expr.StopsAt])))
      (.done (by simp [Expr.StopsAt])))
  have htrimmed : trimmed "$ == null" = "$ == null" := by decide
  have hplain : Expr.PlainPaths
      [⟨.path, "$", 0⟩, ⟨.operator, "==", 2⟩, ⟨.identifier, "null", 5⟩] :=
    List.forall_mem_cons.2 ⟨fun _ => Token.plainPath_root, by simp⟩
  exact ⟨.of_tokens htrimmed (by decide) htokens hreads (by decide) (by decide) hplain,
    Expr.parse_of_tokens htrimmed (by decide) htokens hreads⟩

/-! ## A text before stages -/

/-- The text of a pipeline that starts from a text; what comes after the bar may be any text. -/
def startedFrom (start rest : String) : String :=
  start ++ " | " ++ rest

variable {start : String}

theorem stages_startedFrom (h : PlainText start) (rest : String) :
    stages (trimmed (startedFrom start rest)).toList = trim start.toList :: stages rest.toList := by
  have hspace : Uncut '|' 0 none [' '] 0 none :=
    uncut_of_isPlain ⟨by decide, by decide, by decide, by decide, by decide⟩
  have hstart : Uncut '|' 0 none (start.toList ++ [' ']) 0 none :=
    (h.carried (by decide) 0 0).uncut.append hspace
  have htext : (startedFrom start rest).toList =
      start.toList ++ [' '] ++ '|' :: ([' '] ++ rest.toList) := by simp [startedFrom]
  have hbar : partsFrom '|' 0 none ('|' :: ([' '] ++ rest.toList)) =
      [] :: partsFrom '|' 0 none ([' '] ++ rest.toList) :=
    partsFrom_loneBar (Int.le_refl 0) (by simp)
  obtain ⟨part, others, hrest⟩ :=
    List.exists_cons_of_ne_nil (partsFrom_ne_nil '|' 0 none rest.toList)
  rw [toList_trimmed, stages, map_trim_parts_trim (by decide), htext, parts, hstart, hbar, hspace,
    stages, parts, hrest]
  simp [onFirst]

theorem Prepared.ofText_startedFrom (h : PlainText start) (rest : String) :
    ofText (startedFrom start rest) = .pipeline (trimmed (startedFrom start rest)) := by
  have hstages := congrArg List.length (stages_startedFrom h rest)
  have hrest : 0 < (parts '|' rest.toList).length :=
    List.length_pos_iff.2 (partsFrom_ne_nil '|' 0 none rest.toList)
  simp only [stages, List.length_map, List.length_cons] at hstages
  have hpipe : isPipeline (trimmed (startedFrom start rest)) = true := by
    rw [isPipeline, Pipeline.isPipeline, hstages]
    simpa using hrest
  have hempty : (trimmed (startedFrom start rest)).isEmpty = false := by
    rw [Bool.eq_false_iff, ne_eq, String.isEmpty_iff]
    intro he
    rw [he] at hpipe
    exact absurd hpipe (by decide)
  simp [ofText, hempty, hpipe]

namespace Scope

variable (s : Scope) (depth : Nat)

theorem evaluate_startedFrom (h : PlainText start) (rest : String) (data : Value) :
    s.evaluate depth (startedFrom start rest) data =
      s.initial (s.nestedAt depth) (trimmed start) data >>=
        s.runStages (s.nestedAt depth) data ((stages rest.toList).map String.ofList) := by
  rw [evaluate, tryEvaluate, Prepared.ofText_startedFrom h, evalPrepared, Run.orElse_infallible,
    runPipeline, stages_startedFrom h]
  rfl

/-! ## What is said with the path -/

theorem gives_root (v : Value) : Run.Gives (s.evaluate depth "$" v) v.atRoot := by
  have hparse : Expr.parse "$" = .ok (.path (trimmed "$")) :=
    Expr.parse_of_isPath (by decide +kernel)
  refine Run.Gives.orElse Value.null ?_
  rw [tryEvaluate, PlainText.root.evalPrepared_eq hparse, evalExpr, trimmed_root,
    ← Value.follow_root]
  exact .infallible (.follow "$" v)

/-- Every element of a list with the path in its place. -/
theorem gives_map_root (items : List Value) (data : Value) :
    Run.Gives (s.runStage (s.nestedAt (depth + 1)) "map($)" (.array items) data).run
      (.ok (.array (items.map Value.atRoot))) := by
  have hread : readStage "map($)" = .ok ⟨StageFunction.map.name, "$"⟩ := by
    have hstage : "map($)" = callForm "map" ["$"] := by decide
    have hargument : trimmed (", ".intercalate ["$"]) = "$" := by decide
    rw [hstage, readStage_callForm (by decide) (List.forall_mem_singleton.2 .root), hargument]
    rfl
  have hargs : StageFunction.map.readArgs (s.nestedAt (depth + 1)) "$" data =
      pure (.expression (.ofText "$")) := by
    have hfields : readFieldMap "$" = .ok none := by
      have hbraced : braced? (trim "$".toList) = none := by decide
      rw [readFieldMap, hbraced]
    simp [StageFunction.readArgs, trimmed_root, hfields]
  rw [s.runStage_stageFunction hread, hargs, pure_bind]
  refine .andThen (.infallible (.mapM (List.forall₂_map_right_iff.2 ?_))) (.ok _)
  refine List.forall₂_same.2 fun x _ => ?_
  rw [StageFunction.mapItem, nestedAt_evaluate]
  exact s.gives_root depth x

/-- No element is null after the path. -/
theorem gives_filter_rootIsNull (items : List Value) (data : Value) :
    Run.Gives (s.runStage (s.nestedAt (depth + 1)) "where($ == null)" (.array items) data).run
      (.ok (.array [])) := by
  obtain ⟨hplain, hparse⟩ := PlainText.rootIsNull
  have hstage : "where($ == null)" = callForm "where" ["$ == null"] := by decide
  have hholds (x : Value) : Run.Gives
      ((s.nestedAt (depth + 1)).holds (.ofText "$ == null") x) false := by
    have hpath : Run.Gives (s.evalExpr (s.nestedAt depth) (.path "$") x).run (.ok x.atRoot) := by
      rw [evalExpr, ← x.follow_root]
      exact .infallible (.follow "$" x)
    have hvalue : Run.Gives (s.evalExpr (s.nestedAt depth)
        (.binary (.path "$") .eq (.literal .null)) x).run (.ok (.bool (x.atRoot == .null))) := by
      rw [evalExpr]
      exact hpath.andThen (.andThen (.ok Value.null) (.ok _))
    rw [x.atRoot_beq_null] at hvalue
    rw [holds_eq, hplain.evalPrepared_eq hparse]
    exact (hvalue.orElse Value.null).bind (.pure _)
  rw [hstage, StageFunction.runStage_filter s hplain]
  have hkept : Run.Gives (items.filterM ((s.nestedAt (depth + 1)).holds (.ofText "$ == null")))
      (items.filter fun _ => false) := .filterM fun x _ => hholds x
  rw [List.filter_false] at hkept
  exact .andThen (.infallible hkept) (.ok _)

/-! ## Pipelines that start from the data -/

theorem evaluate_fromData (rest : String) (data : Value) :
    s.evaluate depth (startedFrom "data" rest) data =
      s.runStages (s.nestedAt depth) data ((stages rest.toList).map String.ofList) data := by
  have htrimmed : trimmed "data" = "data" := by decide
  rw [s.evaluate_startedFrom depth .data, htrimmed, initial, if_pos rfl, pure_bind]

theorem exists_evaluate_fromRoot (rest : String) (data : Value) :
    ∃ x, Run.Gives x data.atRoot ∧
      s.evaluate (depth + 1) (startedFrom "$" rest) data = x >>=
        s.runStages (s.nestedAt (depth + 1)) data ((stages rest.toList).map String.ofList) := by
  refine ⟨s.evaluate depth "$" data, s.gives_root depth data, ?_⟩
  rw [s.evaluate_startedFrom (depth + 1) .root, trimmed_root, initial, if_neg (by decide),
    if_pos (by decide), nestedAt_evaluate]

/-- Where there is no null, it does not matter which of the two a pipeline starts from. -/
theorem agree_fromRoot_fromData {v : Value} (hv : v.isNull = false) (rest : String) :
    Run.Agree (s.evaluate (depth + 1) (startedFrom "$" rest) v)
      (s.evaluate (depth + 1) (startedFrom "data" rest) v) := by
  intro memo memo' hmemo hmemo'
  obtain ⟨x, hx, hroot⟩ := s.exists_evaluate_fromRoot depth rest v
  rw [Value.atRoot_eq_self_iff.2 hv] at hx
  rw [hroot, s.evaluate_fromData, hx.value?_bind (s.runStages_isInquiry _) hmemo hmemo']

/-- A stage that passes on what is no list. -/
theorem gives_reverse {v : Value} (h : v.isAbsent = true) (data : Value) :
    Run.Gives (s.runStages (s.nestedAt depth) data
      ((stages "reverse()".toList).map String.ofList) v) v := by
  have hread : readStage "reverse()" = .ok ⟨StageFunction.reverse.name, ""⟩ := by
    have hstage : "reverse()" = callForm "reverse" [] := by decide
    have hargument : trimmed (", ".intercalate []) = "" := by decide
    rw [hstage, readStage_callForm (by decide) (List.forall_mem_nil _), hargument]
    rfl
  have happly : StageFunction.reverse.apply (s.nestedAt depth) v .none = pure v := by
    cases v <;> first | rfl | cases h
  have hstages : (stages "reverse()".toList).map String.ofList = ["reverse()"] := by decide
  rw [hstages, runStages, s.runStage_stageFunction hread]
  simp only [StageFunction.readArgs, pure_bind, happly]
  exact ((Run.Gives.ok v).orElse _).bind (.pure v)

theorem not_agree_fromRoot_fromData :
    ¬ Run.Agree (s.evaluate (depth + 1) (startedFrom "$" "reverse()") .null)
      (s.evaluate (depth + 1) (startedFrom "data" "reverse()") .null) := by
  intro hagree
  obtain ⟨x, hx, hroot⟩ := s.exists_evaluate_fromRoot depth "reverse()" .null
  rw [hroot, s.evaluate_fromData] at hagree
  have hmissing := hx.bind (s.gives_reverse (depth + 1) (v := .missing) rfl .null)
  have hnull := s.gives_reverse (depth + 1) (v := .null) rfl .null
  cases hagree.eq_of_gives hmissing hnull

/-- The path `$` is the identity exactly where there is no null. It leads from a value to the
value itself unless this is null; `map($)` is the list itself, and `where($ == null)` the nulls of
the list, unless there is a null in it; and a pipeline that starts from the path comes to what the
one that starts from the data comes to, whatever stages follow, unless the data are null. -/
theorem root_identity_iff (v data : Value) (xs : List Value) :
    (Run.Gives (s.evaluate depth "$" v) v ↔ v.isNull = false) ∧
    (Run.Gives (s.runStage (s.nestedAt (depth + 1)) "map($)" (.array xs) data).run
        (.ok (.array xs)) ↔ ∀ x ∈ xs, x.isNull = false) ∧
    (Run.Gives (s.runStage (s.nestedAt (depth + 1)) "where($ == null)" (.array xs) data).run
        (.ok (.array (xs.filter Value.isNull))) ↔ ∀ x ∈ xs, x.isNull = false) ∧
    ((∀ rest, Run.Agree (s.evaluate (depth + 1) ("$ | " ++ rest) v)
        (s.evaluate (depth + 1) ("data | " ++ rest) v)) ↔ v.isNull = false) := by
  refine ⟨(s.gives_root depth v).eq_iff.trans Value.atRoot_eq_self_iff, ?_, ?_, ?_⟩
  · rw [(s.gives_map_root depth xs data).eq_iff, Except.ok.injEq, Value.array.injEq,
      Value.map_atRoot_eq_self_iff]
  · rw [(s.gives_filter_rootIsNull depth xs data).eq_iff, Except.ok.injEq, Value.array.injEq,
      eq_comm, List.filter_eq_nil_iff]
    simp
  · refine ⟨fun h => ?_, fun h rest => s.agree_fromRoot_fromData depth h rest⟩
    cases v with
    | null => exact absurd (h "reverse()") (s.not_agree_fromRoot_fromData depth)
    | _ => rfl

/-- From null the path leads nowhere. -/
theorem not_forall_gives_self :
    ¬ ∀ (s : Scope) (depth : Nat) (v : Value), Run.Gives (s.evaluate depth "$" v) v := by
  intro h
  have hroot := gives_root (Scope.mk {} Template.resolve 0) 0 .null
  cases hroot.unique (h (Scope.mk {} Template.resolve 0) 0 .null)

end Scope

end Sluice
