import Sluice.Proofs.Embedding
import Sluice.Proofs.Parts
import Sluice.Proofs.PlainText
import Mathlib.Data.List.Forall2

/-!
# Texts of calls and of stages

A function can be called on a text in two ways: as a call with the text as its first argument,
or as a stage after the text. On plain texts the first is read as one expression, and the second
is cut into the text and the stage, and the stage into its arguments.
-/
namespace Sluice

open Sluice.Text Sluice.Pipeline

/-- A function that is called with argument texts. -/
def callForm (name : String) (args : List String) : String :=
  name ++ "(" ++ ", ".intercalate args ++ ")"

/-- A text and a stage after it that calls a function with argument texts. -/
def stageForm (name text : String) (args : List String) : String :=
  text ++ " | " ++ callForm name args

variable {name text : String} {args : List String}

theorem toList_callForm (name : String) (args : List String) :
    (callForm name args).toList = Stage.text ⟨name, ", ".intercalate args⟩ := by
  simp [callForm, Stage.text]

theorem callForm_eq (name : String) (args : List String) :
    String.ofList (Stage.text ⟨name, ", ".intercalate args⟩) = callForm name args := by
  rw [← toList_callForm, String.ofList_toList]

theorem toList_stageForm (name text : String) (args : List String) :
    (stageForm name text args).toList = assembled text.toList [⟨name, ", ".intercalate args⟩] := by
  simp [stageForm, assembled, toList_callForm]

theorem toList_intercalate_cons_cons (arg arg' : String) (args : List String) :
    (", ".intercalate (arg :: arg' :: args)).toList =
      arg.toList ++ ',' :: ' ' :: (", ".intercalate (arg' :: args)).toList := by
  simp [String.toList_intercalate]

/-! ## The call -/

namespace Expr

open Sluice.Token

theorem scansArgs_intercalate {exprs : List Expr}
    (h : List.Forall₂ (fun arg e => parse arg = .ok e) args exprs)
    (hopen : ∀ arg ∈ args, '\x7b' ∉ arg.toList) (hne : args ≠ []) :
    ScansArgs ReadsSomeArgs (", ".intercalate args).toList exprs := by
  induction h with
  | nil => exact absurd rfl hne
  | @cons arg e args exprs harg hargs ih =>
      have hfirst := scans_argument harg (hopen arg (by simp))
      cases hargs with
      | nil => simpa [String.toList_intercalate] using hfirst.lastArg
      | @cons arg' e' args exprs harg' hargs =>
          have hothers := ih (fun arg harg => hopen arg (by simp [harg])) (List.cons_ne_nil _ _)
          rw [toList_intercalate_cons_cons]
          exact hfirst.moreArgs 1 hothers

end Expr

theorem trimmed_callForm (hstage : isStageName name.toList = true) (args : List String) :
    trimmed (callForm name args) = callForm name args := by
  rw [trimmed, toList_callForm, Stage.trim_text hstage, callForm_eq]

theorem callForm_ne_empty (name : String) (args : List String) : callForm name args ≠ "" := by
  intro he
  have hchars := congrArg String.toList he
  simp [toList_callForm, Stage.text] at hchars

open Sluice.Token in
/-- A function called with texts that are expressions is read as a call with these. -/
theorem Expr.parse_callForm {exprs : List Expr} (hname : IsName name)
    (hstage : isStageName name.toList = true)
    (h : List.Forall₂ (fun arg e => parse arg = .ok e) args exprs)
    (hopen : ∀ arg ∈ args, '\x7b' ∉ arg.toList) (hne : args ≠ []) :
    parse (callForm name args) = .ok (.call name exprs) := by
  have hscans := (scansArgs_intercalate h hopen hne).some.call hname
  obtain ⟨ts, position, hts, hscan⟩ := hscans 0 [] stops_nil
  refine parse_eq_ok.2 ⟨?_, ts, ?_, ?_⟩
  · rw [trimmed_callForm hstage]
    exact callForm_ne_empty name args
  · rw [trimmed_callForm hstage, tokenize, toList_callForm, Stage.text]
    rw [List.append_nil, ScansTo] at hscan
    simpa only [scan, Except.map, List.append_nil] using hscan
  · have hcall := hts [] (by simp [NotCalled])
    rw [List.append_nil] at hcall
    exact .mk hcall (.done (by simp [StopsAt]))

/-! ## Carrying arguments over -/

theorem carried_intercalate {sep : Char} {d : Int} {n : Nat} (hcomma : IsPlain sep ',')
    (hspace : IsPlain sep ' ')
    (h : ∀ arg ∈ args, Carried sep ⟨d, n, none⟩ arg.toList ⟨d, n, none⟩) :
    Carried sep ⟨d, n, none⟩ (", ".intercalate args).toList ⟨d, n, none⟩ := by
  induction args with
  | nil => exact .nil
  | cons arg args ih =>
      have harg := h arg (by simp)
      have hargs := ih fun arg harg => h arg (by simp [harg])
      cases args with
      | nil => simpa [String.toList_intercalate] using harg
      | cons arg' args =>
          rw [toList_intercalate_cons_cons]
          have hgap := (carried_of_isPlain hcomma).cons ((carried_of_isPlain hspace).cons hargs)
          exact harg.append hgap

theorem carried_arguments (hargs : ∀ arg ∈ args, PlainText arg) (d n : Nat) :
    Carried '|' ⟨d, n, none⟩ (", ".intercalate args).toList ⟨d, n, none⟩ :=
  carried_intercalate (Token.isPlain_of_not_mem (by decide)) (Token.isPlain_of_not_mem (by decide))
    fun arg harg => (hargs arg harg).carried (by decide) d n

theorem carried_callForm_of_carried (hstage : isStageName name.toList = true)
    (h : ∀ arg ∈ args, ∀ n, Carried '|' ⟨1, n, none⟩ arg.toList ⟨1, n, none⟩) :
    Carried '|' ⟨0, 0, none⟩ (callForm name args).toList ⟨0, 0, none⟩ := by
  rw [toList_callForm]
  exact Stage.carried_text hstage fun n => carried_intercalate
    (Token.isPlain_of_not_mem (by decide)) (Token.isPlain_of_not_mem (by decide))
    fun arg harg => h arg harg n

theorem carried_callForm (hstage : isStageName name.toList = true)
    (hargs : ∀ arg ∈ args, PlainText arg) :
    Carried '|' ⟨0, 0, none⟩ (callForm name args).toList ⟨0, 0, none⟩ :=
  carried_callForm_of_carried hstage fun arg harg n => (hargs arg harg).carried (by decide) 1 n

/-- A call is prepared as an expression. -/
theorem Prepared.ofText_callForm {e : Expr} (hstage : isStageName name.toList = true)
    (hcarried : Carried '|' ⟨0, 0, none⟩ (callForm name args).toList ⟨0, 0, none⟩)
    (hparse : Expr.parse (callForm name args) = .ok e) :
    ofText (callForm name args) = .parsed (callForm name args) e := by
  have hempty : (callForm name args).isEmpty = false := by
    simpa using callForm_ne_empty name args
  have hpipe : isPipeline (callForm name args) = false := by
    simp [isPipeline, Pipeline.isPipeline, parts, hcarried.uncut.partsFrom_eq]
  have hpath : isPath (callForm name args) = false := by
    obtain ⟨c, cs, hcs⟩ := List.exists_cons_of_ne_nil (ne_nil_of_isStageName hstage)
    have hmem : c ∈ name.toList := by simp [hcs]
    have hc : c ≠ '$' := by
      rintro rfl
      exact absurd (isNameChar_of_mem hstage hmem) (by decide)
    rw [isPath, toList_callForm, Stage.trim_text hstage, Stage.text, hcs]
    simp [Token.isPath, Token.pathLength, hc]
  simp [ofText, trimmed_callForm hstage, hempty, hpipe, hpath, hparse]

/-! ## The stage -/

theorem partsFrom_append_comma {cs rest : List Char}
    (h : Carried ',' ⟨0, 0, none⟩ cs ⟨0, 0, none⟩) :
    partsFrom ',' 0 none (cs ++ ',' :: rest) = cs :: partsFrom ',' 0 none rest := by
  have hcomma : partsFrom ',' 0 none (',' :: rest) = [] :: partsFrom ',' 0 none rest := by
    cases rest <;> simp [partsFrom, isQuote, isOpening, isClosing]
  rw [h.uncut, hcomma]
  simp [onFirst]

/-- Arguments that are carried over are the parts between the commas, blanks aside. -/
theorem map_trim_parts_intercalate (hne : args ≠ [])
    (h : ∀ arg ∈ args, Carried ',' ⟨0, 0, none⟩ arg.toList ⟨0, 0, none⟩) :
    (parts ',' (", ".intercalate args).toList).map trim = args.map fun arg => trim arg.toList := by
  induction args with
  | nil => exact absurd rfl hne
  | cons arg args ih =>
      have harg := h arg (by simp)
      have hargs := ih (h := fun arg harg => h arg (by simp [harg]))
      cases args with
      | nil => simp [parts, harg.uncut.partsFrom_eq]
      | cons arg' args =>
          have hspace (cs : List Char) :
              partsFrom ',' 0 none (' ' :: cs) = onFirst [' '] (partsFrom ',' 0 none cs) :=
            uncut_of_isPlain (Token.isPlain_of_not_mem (by decide)) cs
          have hblank : ∀ c ∈ [' '], isBlank c = true := List.forall_mem_singleton.2 (by decide)
          rw [toList_intercalate_cons_cons, parts, partsFrom_append_comma harg, List.map_cons,
            hspace, map_trim_onFirst hblank (partsFrom_ne_nil _ _ _ _)]
          exact congrArg (trim arg.toList :: ·) (hargs (List.cons_ne_nil _ _))

theorem PlainText.trim_ne_nil (h : PlainText text) : trim text.toList ≠ [] := by
  obtain ⟨e, he⟩ := h.parses
  intro hnil
  refine (Expr.parse_eq_ok.1 he).1 ?_
  rw [trimmed, hnil]

/-- Texts that are carried over are the arguments of the list that they make, blanks aside. -/
theorem arguments_of_carried (h : ∀ arg ∈ args, Carried ',' ⟨0, 0, none⟩ arg.toList ⟨0, 0, none⟩)
    (hne : ∀ arg ∈ args, trim arg.toList ≠ []) :
    arguments (", ".intercalate args).toList = args.map fun arg => trim arg.toList := by
  cases args with
  | nil => rfl
  | cons arg args =>
      rw [arguments, map_trim_parts_intercalate (List.cons_ne_nil _ _) h, List.filter_eq_self]
      intro cs hcs
      obtain ⟨arg', hmem, rfl⟩ := List.mem_map.1 hcs
      simpa using hne arg' hmem

/-- The arguments of a stage are the texts that it was made of, blanks aside. -/
theorem arguments_intercalate (hargs : ∀ arg ∈ args, PlainText arg) :
    arguments (trim (", ".intercalate args).toList) = args.map fun arg => trim arg.toList := by
  rw [arguments, map_trim_parts_trim (by decide), ← arguments]
  exact arguments_of_carried (fun arg harg => (hargs arg harg).carried (by decide) 0 0)
    fun arg harg => (hargs arg harg).trim_ne_nil

theorem readStage_of_balanced (hstage : isStageName name.toList = true)
    (hargs : balanced (", ".intercalate args).toList = true) :
    readStage (callForm name args) = .ok ⟨name, trimmed (", ".intercalate args)⟩ := by
  have hread : readStage (String.ofList (Stage.text ⟨name, ", ".intercalate args⟩)) = _ :=
    Stage.readStage_text hstage
  rwa [if_pos hargs, callForm_eq] at hread

theorem readStage_callForm (hstage : isStageName name.toList = true)
    (hargs : ∀ arg ∈ args, PlainText arg) :
    readStage (callForm name args) = .ok ⟨name, trimmed (", ".intercalate args)⟩ := by
  have hcarried := (carried_arguments hargs 0 0).balance []
  exact readStage_of_balanced hstage (by simpa [balanced, balancedFrom] using hcarried)

theorem stages_stageForm (hstage : isStageName name.toList = true) (htext : PlainText text)
    (hargs : ∀ arg ∈ args, PlainText arg) :
    stages (trimmed (stageForm name text args)).toList =
      [trim text.toList, (callForm name args).toList] := by
  have hcalls : ∀ call ∈ [Stage.mk name (", ".intercalate args)],
      isStageName call.name.toList = true ∧
        ∀ n, Carried '|' ⟨1, n, none⟩ call.args.toList ⟨1, n, none⟩ :=
    List.forall_mem_singleton.2 ⟨hstage, fun n => carried_arguments hargs 1 n⟩
  rw [toList_trimmed, stages, map_trim_parts_trim (by decide), toList_stageForm, ← stages,
    stages_assembled (htext.carried (by decide) 0 0) hcalls, toList_callForm]
  rfl

/-- A text and a stage after it are prepared as a pipeline. -/
theorem Prepared.ofText_stageForm (hstage : isStageName name.toList = true)
    (htext : PlainText text) (hargs : ∀ arg ∈ args, PlainText arg) :
    ofText (stageForm name text args) = .pipeline (trimmed (stageForm name text args)) := by
  have hlength : (parts '|' (trimmed (stageForm name text args)).toList).length = 2 := by
    have hstages := congrArg List.length (stages_stageForm hstage htext hargs)
    rwa [stages, List.length_map] at hstages
  have hpipe : isPipeline (trimmed (stageForm name text args)) = true := by
    rw [isPipeline, Pipeline.isPipeline, hlength]
    rfl
  have hempty : (trimmed (stageForm name text args)).isEmpty = false := by
    rw [Bool.eq_false_iff, ne_eq, String.isEmpty_iff]
    intro he
    rw [he] at hlength
    exact absurd hlength (by decide)
  simp [ofText, hempty, hpipe]

end Sluice
