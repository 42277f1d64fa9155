import Sluice.Proofs.Nesting

/-!
# Parts and blanks

Stages and arguments are the parts of a text without the blanks at their ends. Blanks around
the whole text are at the ends of its first and its last part, whatever is open there, so they
make no difference to stages and arguments.
-/
namespace Sluice.Pipeline

open Sluice.Text Sluice.Token

variable {sep : Char} {cs bs : List Char} {c : Char} {d : Int}

theorem map_trimEnd_onFirst {as : List Char} {found found' : List (List Char)}
    (h : found.map trimEnd = found'.map trimEnd) :
    (onFirst as found).map trimEnd = (onFirst as found').map trimEnd := by
  cases found <;> cases found' <;> simp_all [onFirst, trimEnd_append]

theorem uncut_blanks {q : Option Char} (hsep : sep ∈ separators) (hq : ∀ c ∈ q, isQuote c = true)
    (h : ∀ c ∈ bs, isBlank c = true) : Uncut sep d q bs d q :=
  have hcarried : Carried sep ⟨d, 0, q⟩ bs ⟨d, 0, q⟩ := carried_blanks hsep hq h
  hcarried.uncut

theorem uncut_of_not_cut (hquote : isQuote c = false) (hopening : isOpening c = false)
    (hclosing : isClosing c = false) (hcut : ¬ (c = sep ∧ d ≤ 0)) :
    Uncut sep d none [c] d none := by
  by_cases hd : 0 < d
  · exact uncut_inside hd hquote hopening hclosing
  · have hsep : c ≠ sep := fun hc => hcut ⟨hc, by omega⟩
    intro rest
    have hbars (e : Char) : ¬ (sep = '|' ∧ c = '|' ∧ e = '|') := by grind
    cases rest <;> simp [partsFrom, onFirst, hquote, hopening, hclosing, hsep, hbars]

theorem Uncut.map_trimEnd_append {q q' : Option Char} {d' : Int} (hcs : Uncut sep d q cs d' q')
    (hsep : sep ∈ separators) (hq' : ∀ c ∈ q', isQuote c = true)
    (h : ∀ c ∈ bs, isBlank c = true) :
    (partsFrom sep d q (cs ++ bs)).map trimEnd = (partsFrom sep d q cs).map trimEnd := by
  rw [(hcs.append (uncut_blanks hsep hq' h)).partsFrom_eq, hcs.partsFrom_eq]
  simp [trimEnd_append_blanks h]

theorem map_trimEnd_partsFrom_char {q : Option Char} (hsep : sep ∈ separators)
    (hq : ∀ c ∈ q, isQuote c = true) (h : ∀ c ∈ bs, isBlank c = true) :
    (partsFrom sep d q ([c] ++ bs)).map trimEnd = (partsFrom sep d q [c]).map trimEnd := by
  have hnone : ∀ c ∈ (none : Option Char), isQuote c = true := by simp
  cases q with
  | some q =>
      by_cases hslash : c = '\\'
      · subst hslash
        cases bs with
        | nil => rfl
        | cons b bs =>
            -- The backslash takes the first blank with it, and the quote stays open.
            have hbs : Uncut sep d (some q) bs d (some q) :=
              uncut_blanks hsep hq fun c hc => h c (List.mem_cons_of_mem b hc)
            have hall : partsFrom sep d (some q) ('\\' :: b :: bs) = ['\\' :: b :: bs] :=
              (uncut_escaped.append hbs).partsFrom_eq
            have hend : trimEnd ('\\' :: b :: bs) = trimEnd ['\\'] := trimEnd_append_blanks h ['\\']
            simp [hall, hend, partsFrom]
      · by_cases hquote : c = q
        · subst hquote
          exact (uncut_closeQuote (hq c rfl)).map_trimEnd_append hsep hnone h
        · exact (uncut_inQuote hslash hquote).map_trimEnd_append hsep hq h
  | none =>
      by_cases hquote : isQuote c = true
      · exact (uncut_openQuote hquote).map_trimEnd_append hsep (by simpa using hquote) h
      by_cases hopening : isOpening c = true
      · exact (uncut_opening hopening).map_trimEnd_append hsep hnone h
      by_cases hclosing : isClosing c = true
      · exact (uncut_closing hclosing).map_trimEnd_append hsep hnone h
      rw [Bool.not_eq_true] at hquote hopening hclosing
      by_cases hcut : c = sep ∧ d ≤ 0
      · obtain ⟨rfl, hd⟩ := hcut
        cases bs with
        | nil => rfl
        | cons b bs =>
            have hbs : partsFrom c d none (b :: bs) = [b :: bs] :=
              (uncut_blanks hsep hnone h).partsFrom_eq
            have hbar : b ≠ '|' := by
              rintro rfl
              exact absurd (h '|' List.mem_cons_self) (by decide)
            have hend : trimEnd (b :: bs) = trimEnd [] := trimEnd_append_blanks h []
            simp [partsFrom, hd, hbs, hbar, hend, hquote, hopening, hclosing]
      · exact (uncut_of_not_cut hquote hopening hclosing hcut).map_trimEnd_append hsep hnone h

/-- Blanks at the end of a text are in its last part. -/
theorem map_trimEnd_partsFrom_append {q : Option Char} (hsep : sep ∈ separators)
    (hq : ∀ c ∈ q, isQuote c = true) (h : ∀ c ∈ bs, isBlank c = true) :
    (partsFrom sep d q (cs ++ bs)).map trimEnd = (partsFrom sep d q cs).map trimEnd := by
  fun_induction partsFrom sep d q cs
  case case1 => exact Uncut.nil.map_trimEnd_append hsep hq h
  case case2 d q c hcut =>
    rw [map_trimEnd_partsFrom_char hsep hq h, partsFrom, if_pos hcut]
  case case3 d q c hcut =>
    rw [map_trimEnd_partsFrom_char hsep hq h, partsFrom, if_neg hcut]
  case case4 d e cs q ih =>
    rw [List.cons_append, List.cons_append, partsFrom]
    exact map_trimEnd_onFirst (ih hq)
  case case5 d c e cs q hslash ih =>
    rw [List.cons_append, List.cons_append, partsFrom, if_neg hslash]
    refine map_trimEnd_onFirst (ih fun c hc => hq c ?_)
    split at hc
    · cases hc
    · exact hc
  case case6 d c e cs hquote ih =>
    rw [List.cons_append, List.cons_append, partsFrom, if_pos hquote]
    exact map_trimEnd_onFirst (ih (by simpa using hquote))
  case case7 d c e cs hquote hopening ih =>
    rw [List.cons_append, List.cons_append, partsFrom, if_neg hquote, if_pos hopening]
    exact map_trimEnd_onFirst (ih hq)
  case case8 d c e cs hquote hopening hclosing ih =>
    rw [List.cons_append, List.cons_append, partsFrom, if_neg hquote, if_neg hopening,
      if_pos hclosing]
    exact map_trimEnd_onFirst (ih hq)
  case case9 d c e cs hquote hopening hclosing hbars ih =>
    rw [List.cons_append, List.cons_append, partsFrom, if_neg hquote, if_neg hopening,
      if_neg hclosing, if_pos hbars]
    exact map_trimEnd_onFirst (ih hq)
  case case10 d c e cs hquote hopening hclosing hbars hcut ih =>
    rw [List.cons_append, List.cons_append, partsFrom, if_neg hquote, if_neg hopening,
      if_neg hclosing, if_neg hbars, if_pos hcut]
    exact congrArg (trimEnd [] :: ·) (ih hq)
  case case11 d c e cs hquote hopening hclosing hbars hcut ih =>
    rw [List.cons_append, List.cons_append, partsFrom, if_neg hquote, if_neg hopening,
      if_neg hclosing, if_neg hbars, if_neg hcut]
    exact map_trimEnd_onFirst (ih hq)

theorem map_trim_onFirst (h : ∀ c ∈ bs, isBlank c = true) {found : List (List Char)}
    (hne : found ≠ []) : (onFirst bs found).map trim = found.map trim := by
  obtain ⟨part, found, rfl⟩ := List.exists_cons_of_ne_nil hne
  simp [onFirst, trim_blanks_append h]

/-- Blanks around a text do not change its parts, blanks aside. -/
theorem map_trim_parts_trim (hsep : sep ∈ separators) (cs : List Char) :
    (parts sep (trim cs)).map trim = (parts sep cs).map trim := by
  have hnone : ∀ c ∈ (none : Option Char), isQuote c = true := by simp
  obtain ⟨before, after, he, hbefore, hafter⟩ := exists_trim cs
  have hparts : (partsFrom sep 0 none (trim cs ++ after)).map trimEnd = _ :=
    map_trimEnd_partsFrom_append hsep hnone hafter
  have hend := congrArg (List.map trim) hparts
  simp only [List.map_map, Function.comp_def, trim_trimEnd] at hend
  calc (parts sep (trim cs)).map trim
      = (partsFrom sep 0 none (trim cs ++ after)).map trim := hend.symm
    _ = (onFirst before (partsFrom sep 0 none (trim cs ++ after))).map trim :=
        (map_trim_onFirst hbefore (partsFrom_ne_nil _ _ _ _)).symm
    _ = (parts sep cs).map trim := by rw [← uncut_blanks hsep hnone hbefore, ← he, parts]

end Sluice.Pipeline
