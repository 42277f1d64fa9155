import Sluice.Pipeline.Stage
import Sluice.Proofs.Blanks
import Sluice.Proofs.TokenNesting

/-!
# Nested texts

A text is closed if its quotes are closed and its brackets are matched, each with its own kind.
The scan for bars and the check of parentheses both carry a closed text over: they are
afterwards where they were before. So a pipeline that is put together from closed texts is
taken apart into just these.
-/
namespace Sluice.Pipeline

open Sluice.Text Sluice.Token

variable {sep : Char} {cs bs : List Char} {c : Char} {d : Int} {m n : Nat}

/-! ## Closed texts -/

/-- A text that may stand between two quotes: a backslash takes the next character with it,
and every quote inside is shielded like that. -/
inductive InQuotes (q : Char) : List Char → Prop where
  | nil : InQuotes q []
  | char {c : Char} {cs : List Char} (hslash : c ≠ '\\') (hquote : c ≠ q) (h : InQuotes q cs) :
      InQuotes q (c :: cs)
  | escaped {c : Char} {cs : List Char} (h : InQuotes q cs) : InQuotes q ('\\' :: c :: cs)

/-- A text whose quotes are closed and whose brackets are properly nested. Unless lone bars are
allowed, those outside of quotes and brackets stand in pairs; inside of brackets they always
are. -/
inductive Closed : (bar : Bool) → List Char → Prop where
  | nil {bar : Bool} : Closed bar []
  | char {bar : Bool} {c : Char} {cs : List Char} (hc : IsPlain '|' c) (h : Closed bar cs) :
      Closed bar (c :: cs)
  | bar {cs : List Char} (h : Closed true cs) : Closed true ('|' :: cs)
  | bars {bar : Bool} {cs : List Char} (h : Closed bar cs) : Closed bar ('|' :: '|' :: cs)
  | quoted {bar : Bool} {q : Char} {body cs : List Char} (hq : isQuote q = true)
      (hbody : InQuotes q body) (h : Closed bar cs) : Closed bar (q :: (body ++ q :: cs))
  | group {bar : Bool} {opening closing : Char} {inner cs : List Char}
      (hpair : (opening, closing) ∈ bracketPairs) (hinner : Closed true inner)
      (h : Closed bar cs) : Closed bar (opening :: (inner ++ closing :: cs))

theorem InQuotes.carried {q : Char} (h : InQuotes q cs) :
    Carried sep ⟨d, n, some q⟩ cs ⟨d, n, some q⟩ := by
  induction h with
  | nil => exact .nil
  | char hslash hquote _ ih => exact (carried_inQuote hslash hquote).cons ih
  | escaped _ ih => exact carried_escaped.append ih

/-- Lone bars aside, which need a bracket around them, a closed text leaves both scans where
they were. -/
theorem Closed.carried {bar : Bool} (h : Closed bar cs) (hd : 0 ≤ d) (hbar : bar = true → 0 < d) :
    Carried '|' ⟨d, n, none⟩ cs ⟨d, n, none⟩ := by
  induction h generalizing d n with
  | nil => exact .nil
  | char hc _ ih => exact (carried_of_isPlain hc).cons (ih hd hbar)
  | bar _ ih => exact (carried_loneBar (hbar rfl)).cons (ih hd hbar)
  | bars _ ih => exact carried_bars.append (ih hd hbar)
  | quoted hq hbody _ ih =>
      exact (carried_openQuote hq).cons
        (hbody.carried.append ((carried_closeQuote hq).cons (ih hd hbar)))
  | group hpair _ _ ihinner ih =>
      have hinner (n : Nat) := ihinner (n := n) (show 0 ≤ d + 1 by omega) fun _ => by omega
      simpa using (carried_group hpair hinner).append (ih hd hbar)

theorem Closed.balanced {bar : Bool} (h : Closed bar cs) : balanced cs = true := by
  have hcarried : Carried '|' ⟨1, 0, none⟩ cs ⟨1, 0, none⟩ := h.carried (by decide) fun _ => by decide
  simpa [Pipeline.balanced, balancedFrom] using hcarried.balance []

/-! ## The check of parentheses and blanks -/

theorem balancedFrom_blanks {q : Option Char} (hq : ∀ c ∈ q, isQuote c = true)
    (h : ∀ c ∈ cs, isBlank c = true) : balancedFrom n q cs = balancedFrom n q [] := by
  have hcarried : Carried '|' ⟨0, n, q⟩ cs ⟨0, n, q⟩ := carried_blanks (by decide) hq h
  simpa using hcarried.balance []

/-- Blanks at the end of a text do not change whether its parentheses are matched. -/
theorem balancedFrom_append_blanks {q : Option Char} (hq : ∀ c ∈ q, isQuote c = true)
    (h : ∀ c ∈ bs, isBlank c = true) : balancedFrom n q (cs ++ bs) = balancedFrom n q cs := by
  fun_induction balancedFrom n q cs with
  | case1 => simpa [balancedFrom] using balancedFrom_blanks hq h
  | case2 n q =>
      -- A backslash takes the first blank with it, and the quote stays open.
      cases bs with
      | nil => simp [balancedFrom]
      | cons b bs =>
          have hbs := balancedFrom_blanks (n := n) hq fun c hc => h c (List.mem_cons_of_mem b hc)
          simpa [balancedFrom] using hbs
  | case3 n q c cs ih => simpa [balancedFrom] using ih hq
  | case4 n c cs q hslash ih =>
      rw [List.cons_append, balancedFrom_cons_inQuote hslash]
      refine ih fun e he => hq e ?_
      split at he
      · cases he
      · exact he
  | case5 n c cs hc ih => simpa [balancedFrom, hc] using ih (by simpa using hc)
  | case6 n cs _ ih => simpa [balancedFrom, isQuote] using ih (by simp)
  | case7 => simp [balancedFrom, isQuote]
  | case8 cs n _ _ ih => simpa [balancedFrom, isQuote] using ih (by simp)
  | case9 n c cs hquote hopening hclosing ih =>
      rw [List.cons_append, balancedFrom_cons_of_not (by simpa using hquote) hopening hclosing]
      exact ih (by simp)

theorem balanced_trim (cs : List Char) : balanced (trim cs) = balanced cs := by
  obtain ⟨before, after, he, hbefore, hafter⟩ := exists_trim cs
  have hstart : Carried '|' ⟨0, 0, none⟩ before ⟨0, 0, none⟩ :=
    carried_blanks (by decide) (by simp) hbefore
  calc balanced (trim cs) = balancedFrom 0 none (trim cs ++ after) :=
        (balancedFrom_append_blanks (by simp) hafter).symm
    _ = balancedFrom 0 none (before ++ (trim cs ++ after)) := (hstart.balance _).symm
    _ = balanced cs := by rw [← he]; rfl

/-! ## Pipelines put together -/

/-- The text of a stage that is called with arguments. -/
def Stage.text (stage : Stage) : List Char :=
  stage.name.toList ++ '(' :: (stage.args.toList ++ [')'])

/-- A first text and stages, with a bar before each stage. -/
def assembled (first : List Char) (calls : List Stage) : List Char :=
  first ++ calls.flatMap fun call => ' ' :: '|' :: ' ' :: call.text

/-- A character of the name of a stage. -/
def isNameChar (c : Char) : Bool :=
  isNameStart c || isAlphanumeric c || c == '_'

theorem isNameChar_of_mem (h : isStageName cs = true) (hc : c ∈ cs) : isNameChar c = true := by
  unfold isStageName at h
  split at h
  · cases h
  · next start rest =>
      obtain ⟨hstart, hrest⟩ := Bool.and_eq_true_iff.1 h
      rcases List.mem_cons.1 hc with rfl | hc
      · simp [isNameChar, hstart]
      · have hword := List.all_eq_true.1 hrest c hc
        simp only [isNameChar, Bool.or_assoc, hword, Bool.or_true]

theorem ne_nil_of_isStageName (h : isStageName cs = true) : cs ≠ [] := by
  rintro rfl
  exact absurd h (by decide)

theorem isPlain_of_isNameChar (h : isNameChar c = true) : IsPlain '|' c :=
  isPlain_of_not_mem (not_mem_of_class isNameChar (by decide +kernel) h)

theorem isBlank_of_isNameChar (h : isNameChar c = true) : isBlank c = false :=
  isBlank_of_class isNameChar (by decide +kernel) h

variable {call : Stage}

/-- Neither end of the text of a stage is a blank. -/
theorem Stage.trim_text (hname : isStageName call.name.toList = true) :
    trim call.text = call.text := by
  obtain ⟨c, cs, hcs⟩ := List.exists_cons_of_ne_nil (ne_nil_of_isStageName hname)
  have hc : isNameChar c = true := isNameChar_of_mem hname (by simp [hcs])
  refine trim_eq_self ?_ ?_
  · simpa [text, hcs] using isBlank_of_isNameChar hc
  · have hparen : isBlank ')' = false := by decide
    simpa [text, List.getLast?_cons] using hparen

theorem Stage.carried_text (hname : isStageName call.name.toList = true)
    (hargs : ∀ n, Carried '|' ⟨d + 1, n, none⟩ call.args.toList ⟨d + 1, n, none⟩) :
    Carried '|' ⟨d, n, none⟩ call.text ⟨d, n, none⟩ := by
  have hpair : ('(', ')') ∈ bracketPairs := by decide
  have hplain (c : Char) (hc : c ∈ call.name.toList) : IsPlain '|' c :=
    isPlain_of_isNameChar (isNameChar_of_mem hname hc)
  exact (carried_of_forall_isPlain hplain).append (carried_group hpair hargs)

theorem Stage.nameAndArgs_text (hname : isStageName call.name.toList = true) :
    nameAndArgs call.text = some (call.name.toList, trim call.args.toList) := by
  have hparen : '(' ∉ call.name.toList := fun hmem => by
    have hplain := isPlain_of_isNameChar (isNameChar_of_mem hname hmem)
    exact absurd hplain.notOpening (by decide)
  have htrim : trim call.name.toList = call.name.toList :=
    trim_eq_self_of_forall fun c hc => isBlank_of_isNameChar (isNameChar_of_mem hname hc)
  simp [nameAndArgs, text, cutAt_append hparen, htrim]

/-- A stage is read as the function and the arguments that its text was made of, if the
parentheses in the arguments are matched. -/
theorem Stage.readStage_text (hname : isStageName call.name.toList = true) :
    readStage (String.ofList call.text) =
      if balanced call.args.toList then .ok { call with args := trimmed call.args }
      else .error (.invalidStage (String.ofList call.text)) := by
  simp [readStage, trim_text hname, nameAndArgs_text hname, hname, balanced_trim, trimmed]

/-- A bar between blanks is a separator where no bracket is open. -/
theorem partsFrom_spacedBar {first : List Char} (hfirst : Carried '|' ⟨0, m, none⟩ first ⟨d, n, none⟩)
    (hd : d ≤ 0) (rest : List Char) :
    partsFrom '|' 0 none (first ++ ' ' :: '|' :: ' ' :: rest) =
      (first ++ [' ']) :: partsFrom '|' d none (' ' :: rest) := by
  have hplain : IsPlain '|' ' ' := isPlain_of_not_mem (by decide)
  have hspaced := (hfirst.append (carried_of_isPlain hplain)).uncut ('|' :: ' ' :: rest)
  rw [List.append_assoc, List.singleton_append] at hspaced
  rw [hspaced, partsFrom_loneBar hd (by simp)]
  simp [onFirst]

/-- Texts with a bar between blanks between each and the next. -/
def piped (texts : List (List Char)) : List Char :=
  [' ', '|', ' '].intercalate texts

theorem piped_cons_cons (first second : List Char) (rest : List (List Char)) :
    piped (first :: second :: rest) = first ++ ' ' :: '|' :: ' ' :: piped (second :: rest) := by
  simp [piped, List.intercalate_cons_cons]

/-- Texts that are carried over are the stages of the pipeline that they make. -/
theorem stages_piped {first : List Char} {rest : List (List Char)}
    (hfirst : Carried '|' ⟨0, 0, none⟩ first ⟨0, 0, none⟩)
    (hrest : ∀ text ∈ rest, Carried '|' ⟨0, 0, none⟩ text ⟨0, 0, none⟩) :
    stages (piped (first :: rest)) = trim first :: rest.map trim := by
  induction rest generalizing first with
  | nil => simp [stages, parts, piped, hfirst.uncut.partsFrom_eq]
  | cons second rest ih =>
      obtain ⟨hsecond, hrest⟩ := List.forall_mem_cons.1 hrest
      have hplain : IsPlain '|' ' ' := isPlain_of_not_mem (by decide)
      have hnext := ih ((carried_of_isPlain hplain).cons hsecond) hrest
      have hspace : ' ' :: piped (second :: rest) = piped ((' ' :: second) :: rest) := by
        cases rest <;> simp [piped, List.intercalate_cons_cons]
      calc stages (piped (first :: second :: rest))
          = trim (first ++ [' ']) :: stages (piped ((' ' :: second) :: rest)) := by
            rw [stages, parts, piped_cons_cons, partsFrom_spacedBar hfirst (Int.le_refl 0), hspace,
              List.map_cons]
            rfl
        _ = trim first :: (second :: rest).map trim := by
            rw [trim_append_space, hnext, trim_space_cons, List.map_cons]

theorem assembled_eq_piped (first : List Char) (calls : List Stage) :
    assembled first calls = piped (first :: calls.map Stage.text) := by
  induction calls generalizing first with
  | nil => simp [assembled, piped]
  | cons call calls ih =>
      rw [List.map_cons, piped_cons_cons, ← ih]
      simp [assembled]

theorem stages_assembled {first : List Char} {calls : List Stage}
    (hfirst : Carried '|' ⟨0, 0, none⟩ first ⟨0, 0, none⟩)
    (hcalls : ∀ call ∈ calls, isStageName call.name.toList = true ∧
      ∀ n, Carried '|' ⟨1, n, none⟩ call.args.toList ⟨1, n, none⟩) :
    stages (assembled first calls) = trim first :: calls.map Stage.text := by
  have hcarried : ∀ text ∈ calls.map Stage.text, Carried '|' ⟨0, 0, none⟩ text ⟨0, 0, none⟩ := by
    intro text htext
    obtain ⟨call, hcall, rfl⟩ := List.mem_map.1 htext
    exact Stage.carried_text (hcalls call hcall).1 (hcalls call hcall).2
  have htrim : (calls.map Stage.text).map trim = calls.map Stage.text := by
    rw [List.map_map]
    exact List.map_congr_left fun call hcall => Stage.trim_text (hcalls call hcall).1
  rw [assembled_eq_piped, stages_piped hfirst hcarried, htrim]

/-- A pipeline that is put together from a closed text without lone bars and from calls with
closed arguments is taken apart into just these, whatever bars and commas the arguments have. -/
theorem assembled_taken_apart {first : List Char} {calls : List Stage}
    (hfirst : Closed false first)
    (hcalls : ∀ call ∈ calls, isStageName call.name.toList = true ∧ Closed true call.args.toList) :
    stages (assembled first calls) = trim first :: calls.map Stage.text ∧
      ∀ call ∈ calls,
        readStage (String.ofList call.text) = .ok { call with args := trimmed call.args } := by
  have hcarried : Carried '|' ⟨0, 0, none⟩ first ⟨0, 0, none⟩ := hfirst.carried (by decide) (by simp)
  have hinner (call : Stage) (hcall : call ∈ calls) (n : Nat) :
      Carried '|' ⟨1, n, none⟩ call.args.toList ⟨1, n, none⟩ :=
    (hcalls call hcall).2.carried (by decide) fun _ => by decide
  refine ⟨stages_assembled hcarried fun call hcall => ⟨(hcalls call hcall).1, hinner call hcall⟩,
    fun call hcall => ?_⟩
  obtain ⟨hname, hargs⟩ := hcalls call hcall
  rw [Stage.readStage_text hname, if_pos hargs.balanced]

/-- An argument with a bar in parentheses and a bar in quotes. -/
theorem assembled_taken_apart_of_bars :
    stages "a||b | f( (|),'|' )".toList = ["a||b".toList, "f( (|),'|' )".toList] ∧
      readStage "f( (|),'|' )" = .ok ⟨"f", "(|),'|'"⟩ := by
  have hplain (c : Char) (hc : c ∉ '|' :: barSpecials) : IsPlain '|' c := isPlain_of_not_mem hc
  have hfirst : Closed false "a||b".toList :=
    .char (hplain _ (by decide)) (.bars (.char (hplain _ (by decide)) .nil))
  have hquoted : Closed true ('\'' :: (['|'] ++ '\'' :: [' '])) :=
    .quoted (by decide) (.char (by decide) (by decide) .nil) (.char (hplain _ (by decide)) .nil)
  have hgroup : Closed true ('(' :: (['|'] ++ ')' :: ',' :: '\'' :: (['|'] ++ '\'' :: [' ']))) :=
    .group (by decide) (.bar .nil) (.char (hplain _ (by decide)) hquoted)
  have hcalls : ∀ call ∈ [Stage.mk "f" " (|),'|' "],
      isStageName call.name.toList = true ∧ Closed true call.args.toList :=
    List.forall_mem_singleton.2 ⟨by decide, .char (hplain _ (by decide)) hgroup⟩
  have htext : String.ofList (Stage.mk "f" " (|),'|' ").text = "f( (|),'|' )" := by decide +kernel
  have htrimmed : trimmed " (|),'|' " = "(|),'|'" := by decide +kernel
  obtain ⟨hstages, hread⟩ := assembled_taken_apart hfirst hcalls
  have hread := hread _ (List.mem_singleton.2 rfl)
  rw [htext, htrimmed] at hread
  exact ⟨hstages, hread⟩

end Sluice.Pipeline
