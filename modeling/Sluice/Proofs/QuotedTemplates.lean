import Sluice.Evaluation
import Sluice.Proofs.Blanks
import Sluice.Proofs.TemplateBodies

/-!
# Templates in quotes

A template may stand bare, in double quotes or in single ones, and the bindings are asked for the
same entry in all three forms. Where they have one, the bare template is that value and both quoted
ones are its text, in which null is named. Where they have none, each form is its own text.
-/
namespace Sluice

open Sluice.Text Sluice.Pipeline

namespace Template

variable (b : Bindings) (body : List Char)

/-- What the bindings have for the body of a template: a namespace, a colon and a key. -/
def bound? : Option Value :=
  ((cutAt ':' body).bind fun (space, key) => find b (trim space) (trim key)).filter
    fun v => !v.isMissing

theorem isMissing_of_bound? {v : Value} (h : bound? b body = some v) : v.isMissing = false := by
  simpa using (Option.filter_eq_some_iff.1 h).2

theorem shown_of_isNull {v : Value} (h : v.isNull = true) : shown v = "null" := by
  cases v with
  | null => rfl
  | _ => cases h

theorem shown_of_not_isNull {v : Value} (h : v.isNull = false) : shown v = v.toText := by
  cases v with
  | null => cases h
  | _ => rfl

theorem body?_templateText (body : List Char) : body? (templateText none body) = some body := by
  simp [templateText, body?]

theorem between?_quote {q : Char} (body : List Char) :
    between? q (templateText (some q) body) = some (templateText none body) := by
  simp [templateText, between?, List.getLast?_cons, List.dropLast_cons_of_ne_nil]

/-- No form is taken for one in other quotes. -/
theorem between?_eq_none {q : Char} {quote : Option Char} (hq : isQuote q = true)
    (hquote : quote ≠ some q) : between? q (templateText quote body) = none := by
  have hbrace : '\x7b' ≠ q := Ne.symm (ne_of_class isQuote hq (by decide))
  cases quote with
  | none => simp [templateText, between?, hbrace]
  | some q' =>
      have hne : q' ≠ q := fun he => hquote (congrArg some he)
      simp [templateText, between?, hne]

/-- Single quotes become double ones, and nothing else is changed. -/
theorem normalized_templateText {quote : Option Char} (h : ∀ q ∈ quote, isQuote q = true) :
    normalized (String.ofList (templateText quote body)) =
      String.ofList (templateText (quote.map fun _ => '"') body) := by
  rw [normalized, String.toList_ofList]
  by_cases hsingle : quote = some '\''
  · subst hsingle
    rw [between?_quote]
    exact congrArg String.ofList (by simp [templateText])
  · have hsame : quote.map (fun _ => '"') = quote := by
      cases quote with
      | none => rfl
      | some q =>
          have hq := h q rfl
          simp_all [isQuote]
    rw [between?_eq_none body (by decide) hsingle, hsame]

/-- A text that is a template in double quotes or a bare one. -/
theorem resolve_of_body? {cs : List Char} {quoted : Option (List Char)} (htrim : trim cs = cs)
    (hquoted : between? '"' cs = quoted) (hbody : body? (quoted.getD cs) = some body) :
    resolve b (String.ofList cs) =
      (bound? b body).map fun v => if quoted.isSome then .string (shown v) else v := by
  cases hcut : cutAt ':' body with
  | none => cases quoted <;> simp_all [resolve, bound?]
  | some parts =>
      obtain ⟨space, key⟩ := parts
      cases hfind : find b (trim space) (trim key) with
      | none => cases quoted <;> simp_all [resolve, bound?]
      | some v =>
          cases hv : v.isMissing <;> cases quoted <;> simp_all [resolve, bound?, Option.filter]

/-- Resolved in any of its forms, a template is what the bindings have for its body: the value where
it stands bare, and its text in quotes. -/
theorem resolve_normalized (quote : Option Char) (h : ∀ q ∈ quote, isQuote q = true) :
    resolve b (normalized (String.ofList (templateText quote body))) =
      (bound? b body).map fun v => if quote.isSome then .string (shown v) else v := by
  rw [normalized_templateText body h]
  cases quote with
  | none =>
      exact resolve_of_body? b body (trim_templateText (by simp) body)
        (between?_eq_none body (by decide) (by simp)) (body?_templateText body)
  | some q =>
      exact resolve_of_body? b body (trim_templateText (by simp [isQuote]) body)
        (between?_quote body) (body?_templateText body)

end Template

/-- Quotes around a template only turn its value into text. The bare template, the one in double
quotes and the one in single quotes are resolved all together, where the bindings have a value for
their body, or not at all. If they are, the bare one is the value, which is not missing, and both
quoted ones are the same text: `null` for null, and the text of the value for any other. If they are
not, each of them is its own text, with its quotes. -/
theorem Scope.evalExpr_quoted_template (b : Bindings) (budget : Nat) (nested : Nested)
    (data : Value) (body : List Char) :
    let s := Scope.mk b Template.resolve budget
    let bare := String.ofList (templateText none body)
    let double := String.ofList (templateText (some '"') body)
    let single := String.ofList (templateText (some '\'') body)
    (∃ v text, Template.bound? b body = some v ∧ v.isMissing = false ∧
      (v.isNull = true → text = "null") ∧ (v.isNull = false → text = v.toText) ∧
      Template.resolve b (Template.normalized bare) = some v ∧
      Template.resolve b (Template.normalized double) = some (.string text) ∧
      Template.resolve b (Template.normalized single) = some (.string text) ∧
      s.evalExpr nested (.template bare) data = pure v ∧
      s.evalExpr nested (.template double) data = pure (.string text) ∧
      s.evalExpr nested (.template single) data = pure (.string text)) ∨
    (Template.bound? b body = none ∧ ∀ text ∈ [bare, double, single],
      Template.resolve b (Template.normalized text) = none ∧
      s.evalExpr nested (.template text) data = pure (.string text)) := by
  intro s bare double single
  have hbare := Template.resolve_normalized b body none (by simp)
  have hdouble := Template.resolve_normalized b body (some '"') (by simp [isQuote])
  have hsingle := Template.resolve_normalized b body (some '\'') (by simp [isQuote])
  have hvalue (text : String) : s.evalExpr nested (.template text) data =
      pure (Template.value Template.resolve b text) := by rw [evalExpr]
  have hresolved {text : String} {v : Value}
      (h : Template.resolve b (Template.normalized text) = some v) :
      s.evalExpr nested (.template text) data = pure v := by
    rw [hvalue, Template.value, h]
  have hunresolved {text : String} (h : Template.resolve b (Template.normalized text) = none) :
      s.evalExpr nested (.template text) data = pure (.string text) := by
    rw [hvalue, Template.value, h]
  cases hbound : Template.bound? b body with
  | some v =>
      rw [hbound, Option.map_some] at hbare hdouble hsingle
      exact .inl ⟨v, Template.shown v, rfl, Template.isMissing_of_bound? b body hbound,
        Template.shown_of_isNull, Template.shown_of_not_isNull, hbare, hdouble, hsingle,
        hresolved hbare, hresolved hdouble, hresolved hsingle⟩
  | none =>
      rw [hbound, Option.map_none] at hbare hdouble hsingle
      refine .inr ⟨rfl, fun text htext => ?_⟩
      simp only [List.mem_cons, List.not_mem_nil, or_false] at htext
      rcases htext with rfl | rfl | rfl
      · exact ⟨hbare, hunresolved hbare⟩
      · exact ⟨hdouble, hunresolved hdouble⟩
      · exact ⟨hsingle, hunresolved hsingle⟩

end Sluice
