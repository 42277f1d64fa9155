import Sluice.Evaluation
import Sluice.Proofs.Blanks
import Sluice.Proofs.TokenNesting

/-!
# Texts that are expressions

A text is looked at by three readers: the scan for bars decides whether it is a pipeline, the
rule of paths whether it is one path, and only then is it read as an expression. On a plain
text the three agree: it is carried over by the scan for bars, so that a bar in it is either
half of an operator or shielded by quotes or brackets.
-/
namespace Sluice

open Sluice.Text Sluice.Pipeline

/-- A text that is accepted as an expression, has no braces, and whose paths are plain. -/
structure PlainText (text : String) : Prop where
  parses : ∃ e, Expr.parse text = .ok e
  noOpening : '\x7b' ∉ text.toList
  noClosing : '\x7d' ∉ text.toList
  paths : ∀ ts, Token.tokenize (trimmed text) = .ok ts →
    ∀ t ∈ ts, t.kind = .path → Token.PlainPath t.text.toList

namespace PlainText

variable {text : String}

theorem of_trimmed (h : PlainText text) : PlainText (trimmed text) where
  parses := by simpa only [Expr.parse_eq_ok, trimmed_trimmed] using h.parses
  noOpening := by
    rw [toList_trimmed]
    exact fun hmem => h.noOpening (mem_of_mem_trim hmem)
  noClosing := by
    rw [toList_trimmed]
    exact fun hmem => h.noClosing (mem_of_mem_trim hmem)
  paths := by
    rw [trimmed_trimmed]
    exact h.paths

/-- The scans for separators and the check of parentheses carry a plain text over, with the
blanks around it. -/
theorem carried (h : PlainText text) {sep : Char} (hsep : sep ∈ Token.separators) (d n : Nat) :
    Carried sep ⟨d, n, none⟩ text.toList ⟨d, n, none⟩ := by
  obtain ⟨e, he⟩ := h.parses
  obtain ⟨-, ts, hscan, hreads⟩ := Expr.parse_eq_ok.1 he
  have hopen := h.of_trimmed.noOpening
  have hclose := h.of_trimmed.noClosing
  have hpaths := h.paths ts hscan
  rw [toList_trimmed] at hopen hclose
  rw [Token.tokenize, toList_trimmed] at hscan
  obtain ⟨us, hus, hnests⟩ := hreads.nests
  rw [List.append_nil] at hus
  subst hus
  have hinner : Carried sep ⟨d, n, none⟩ (trim text.toList) ⟨d, n, none⟩ :=
    Token.carried_of_scan hsep hscan hopen hclose hpaths (hnests d d (Nat.le_refl d))
  obtain ⟨before, after, htext, hbefore, hafter⟩ := exists_trim text.toList
  have hblanks {cs : List Char} (hcs : ∀ c ∈ cs, isBlank c = true) :
      Carried sep ⟨d, n, none⟩ cs ⟨d, n, none⟩ := Token.carried_blanks hsep (by simp) hcs
  rw [htext]
  exact (hblanks hbefore).append (hinner.append (hblanks hafter))

/-- The blanks around a plain text do not make it a pipeline either. -/
theorem not_isPipeline (h : PlainText text) : Prepared.isPipeline text = false := by
  have hcarried : Carried '|' ⟨0, 0, none⟩ text.toList ⟨0, 0, none⟩ := h.carried (by decide) 0 0
  simp [Prepared.isPipeline, Pipeline.isPipeline, parts, hcarried.uncut.partsFrom_eq]

end PlainText

theorem Token.first?_of_pathLength {cs : List Char} {n : Nat} (h : pathLength cs = some n) :
    first? cs = some (.path, n) := by
  obtain ⟨rest, rfl⟩ := exists_of_pathLength h
  simp [first?, rules, quotedTemplateLength, templateLength, h]

theorem Token.tokenize_of_isPath {text : String} (h : isPath text.toList = true) :
    tokenize text = .ok [⟨.path, text, 0⟩] := by
  have hlength : pathLength text.toList = some text.toList.length := by simpa [isPath] using h
  have hfirst := first?_of_pathLength hlength
  cases hcs : text.toList with
  | nil => simp [hcs, pathLength] at hlength
  | cons c rest =>
      rw [hcs] at hfirst
      have htext : String.ofList (c :: rest) = text := by rw [← hcs, String.ofList_toList]
      rw [tokenize, hcs, scan, hfirst]
      simp [scan, htext]

/-- A text that is one path is accepted as the expression of that path. -/
theorem Expr.parse_of_isPath {text : String} (h : Prepared.isPath text = true) :
    Expr.parse text = .ok (.path (trimmed text)) := by
  have hpath : Token.isPath (trimmed text).toList = true := by rwa [toList_trimmed]
  refine parse_eq_ok.2 ⟨?_, _, Token.tokenize_of_isPath hpath, ?_⟩
  · intro he
    rw [he] at hpath
    exact absurd hpath (by decide)
  · exact .mk (.atom rfl) (.done (by simp [StopsAt]))

namespace PlainText

variable {text : String} {e : Expr}

theorem eq_path (hparse : Expr.parse text = .ok e) (hpath : Prepared.isPath text = true) :
    e = .path (trimmed text) := by
  simpa [Expr.parse_of_isPath hpath] using hparse.symm

theorem ofText_eq (h : PlainText text) (hparse : Expr.parse text = .ok e) :
    Prepared.ofText text = (if Prepared.isPath text then .path (trimmed text)
      else .parsed (trimmed text) e) := by
  have hempty : (trimmed text).isEmpty = false := by
    simpa using (Expr.parse_eq_ok.1 hparse).1
  have htrimmed : Expr.parse (trimmed text) = .ok e := by
    simpa only [Expr.parse_eq_ok, trimmed_trimmed] using hparse
  have hisPath : Prepared.isPath (trimmed text) = Prepared.isPath text := by
    simp [Prepared.isPath]
  simp [Prepared.ofText, hempty, h.of_trimmed.not_isPipeline, hisPath, htrimmed]

theorem evalPrepared_eq (h : PlainText text) (hparse : Expr.parse text = .ok e) (s : Scope)
    (nested : Nested) (data : Value) :
    s.evalPrepared nested (.ofText text) data = s.evalExpr nested e data := by
  rw [h.ofText_eq hparse]
  cases hpath : Prepared.isPath text with
  | true => rw [eq_path hparse hpath, Scope.evalExpr]; rfl
  | false => rfl

end PlainText

/-- A plain text means what the reader of expressions makes of it. It is prepared as a path if
it is one, and then the expression is that path, and as its expression otherwise; evaluating
the text and evaluating the expression are the same run. -/
theorem PlainText.tryEvaluate_eq {text : String} (h : PlainText text) :
    ∃ e, Expr.parse text = .ok e ∧
      Prepared.isPipeline text = false ∧
      Prepared.ofText text = (if Prepared.isPath text then .path (trimmed text)
        else .parsed (trimmed text) e) ∧
      (Prepared.isPath text = true → e = .path (trimmed text)) ∧
      ∀ (s : Scope) (depth : Nat) (data : Value),
        s.tryEvaluate depth text data = s.evalExpr (s.nestedAt depth) e data := by
  obtain ⟨e, he⟩ := h.parses
  exact ⟨e, he, h.not_isPipeline, h.ofText_eq he, eq_path he,
    fun s depth data => h.evalPrepared_eq he s (s.nestedAt depth) data⟩

/-- Bars in brackets, in quotes, and as an operator. -/
theorem PlainText.tryEvaluate_eq_of_shielded_bars :
    PlainText "$[a|b] || 'c|d'" ∧
    ∃ e, Expr.parse "$[a|b] || 'c|d'" = .ok e ∧
      Prepared.isPipeline "$[a|b] || 'c|d'" = false ∧
      Prepared.ofText "$[a|b] || 'c|d'" = (if Prepared.isPath "$[a|b] || 'c|d'" then
        .path (trimmed "$[a|b] || 'c|d'") else .parsed (trimmed "$[a|b] || 'c|d'") e) ∧
      (Prepared.isPath "$[a|b] || 'c|d'" = true → e = .path (trimmed "$[a|b] || 'c|d'")) ∧
      ∀ (s : Scope) (depth : Nat) (data : Value),
        s.tryEvaluate depth "$[a|b] || 'c|d'" data = s.evalExpr (s.nestedAt depth) e data := by
  have htokens : (Token.tokenize (trimmed "$[a|b] || 'c|d'")).toOption =
      some [⟨.path, "$[a|b]", 0⟩, ⟨.operator, "||", 7⟩, ⟨.string, "'c|d'", 10⟩] := by
    decide +kernel
  have hsegments : Token.segments "[a|b]".toList = ["[a|b]".toList] := by decide +kernel
  have hplain : PlainText "$[a|b] || 'c|d'" := by
    refine ⟨?_, by decide, by decide, ?_⟩
    · have hparse : (Expr.parse "$[a|b] || 'c|d'").isOk = true := by decide +kernel
      cases he : Expr.parse "$[a|b] || 'c|d'" with
      | ok e => exact ⟨e, rfl⟩
      | error e => simp [he, Except.isOk, Except.toBool] at hparse
    · intro ts hts t ht hkind
      simp only [hts, Except.toOption, Option.some.injEq] at htokens
      subst htokens
      obtain rfl : t = ⟨.path, "$[a|b]", 0⟩ := by
        simp only [List.mem_cons, List.not_mem_nil, or_false] at ht
        rcases ht with rfl | rfl | rfl <;> simp_all
      refine ⟨by decide, fun inside hmem _ => ?_⟩
      change '[' :: inside ∈ Token.segments "[a|b]".toList at hmem
      rw [hsegments, List.mem_singleton] at hmem
      obtain rfl : inside = "a|b]".toList := (List.cons_inj_right _).1 hmem
      decide
  exact ⟨hplain, hplain.tryEvaluate_eq⟩

end Sluice
