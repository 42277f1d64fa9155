import Sluice.Proofs.Splitting

/-!
# Two scans at once

The scan for separators and the check of parentheses go over a text side by side. Where they
stand is the brackets and the parentheses that are open, and the quote. A piece of text is
carried over if both go on behind it from a known standing, whatever stands there. Such pieces
compose, and here are the smallest ones.
-/
namespace Sluice.Pipeline

open Sluice.Text

/-- Where the scans of a text stand: how many brackets are open, how many parentheses among
them, and which quote. -/
structure Standing where
  depth : Int
  parens : Nat
  quote : Option Char
  deriving DecidableEq, Repr

variable {sep c : Char} {cs bs : List Char} {s s' s'' : Standing} {d : Int} {n : Nat}

/-- Both scans carry the text over, from one standing to another. -/
structure Carried (sep : Char) (s : Standing) (cs : List Char) (s' : Standing) : Prop where
  uncut : Uncut sep s.depth s.quote cs s'.depth s'.quote
  balance : ∀ rest,
    balancedFrom s.parens s.quote (cs ++ rest) = balancedFrom s'.parens s'.quote rest

theorem Carried.nil : Carried sep s [] s :=
  ⟨Uncut.nil, fun _ => rfl⟩

theorem Carried.append (hcs : Carried sep s cs s') (hbs : Carried sep s' bs s'') :
    Carried sep s (cs ++ bs) s'' :=
  ⟨hcs.uncut.append hbs.uncut, fun rest => by
    rw [List.append_assoc, hcs.balance, hbs.balance]⟩

theorem Carried.cons (hc : Carried sep s [c] s') (hcs : Carried sep s' cs s'') :
    Carried sep s (c :: cs) s'' :=
  hc.append hcs

theorem Carried.flatten {pieces : List (List Char)} (h : ∀ p ∈ pieces, Carried sep s p s) :
    Carried sep s pieces.flatten s := by
  induction pieces with
  | nil => exact .nil
  | cons p pieces ih => exact (h p (by simp)).append (ih fun p hp => h p (by simp [hp]))

/-- What the first character does outside of quotes. -/
theorem balancedFrom_cons (n : Nat) (c : Char) (cs : List Char) :
    balancedFrom n none (c :: cs) =
      if isQuote c then balancedFrom n (some c) cs
      else if c = '(' then balancedFrom (n + 1) none cs
      else if c = ')' then decide (0 < n) && balancedFrom (n - 1) none cs
      else balancedFrom n none cs := by
  cases n <;> simp [balancedFrom]

theorem balancedFrom_cons_of_not (hquote : isQuote c = false) (hopening : c ≠ '(')
    (hclosing : c ≠ ')') : balancedFrom n none (c :: cs) = balancedFrom n none cs := by
  simp [balancedFrom_cons, hquote, hopening, hclosing]

theorem balancedFrom_cons_inQuote {q : Char} (hslash : c ≠ '\\') :
    balancedFrom n (some q) (c :: cs) = balancedFrom n (if c = q then none else some q) cs := by
  cases cs <;> simp [balancedFrom, hslash]

theorem ne_of_isOpening_eq_false (h : isOpening c = false) : c ≠ '(' := by
  rintro rfl
  exact absurd h (by decide)

theorem ne_of_isClosing_eq_false (h : isClosing c = false) : c ≠ ')' := by
  rintro rfl
  exact absurd h (by decide)

theorem carried_of_isPlain (h : IsPlain sep c) :
    Carried sep ⟨d, n, none⟩ [c] ⟨d, n, none⟩ :=
  ⟨uncut_of_isPlain h, fun _ => balancedFrom_cons_of_not h.notQuote
    (ne_of_isOpening_eq_false h.notOpening) (ne_of_isClosing_eq_false h.notClosing)⟩

theorem carried_of_forall_isPlain (h : ∀ c ∈ cs, IsPlain sep c) :
    Carried sep ⟨d, n, none⟩ cs ⟨d, n, none⟩ := by
  induction cs with
  | nil => exact .nil
  | cons c cs ih =>
      exact (carried_of_isPlain (h c (by simp))).cons (ih fun c hc => h c (by simp [hc]))

theorem carried_bars : Carried sep ⟨d, n, none⟩ ['|', '|'] ⟨d, n, none⟩ :=
  ⟨uncut_bars, fun _ => by simp [balancedFrom_cons, isQuote]⟩

theorem carried_inside (hd : 0 < d) (hquote : isQuote c = false) (hopening : isOpening c = false)
    (hclosing : isClosing c = false) : Carried sep ⟨d, n, none⟩ [c] ⟨d, n, none⟩ :=
  ⟨uncut_inside hd hquote hopening hclosing, fun _ => balancedFrom_cons_of_not hquote
    (ne_of_isOpening_eq_false hopening) (ne_of_isClosing_eq_false hclosing)⟩

theorem carried_loneBar (hd : 0 < d) : Carried sep ⟨d, n, none⟩ ['|'] ⟨d, n, none⟩ :=
  carried_inside hd (by decide) (by decide) (by decide)

theorem carried_of_forall_inside (hd : 0 < d)
    (h : ∀ c ∈ cs, isQuote c = false ∧ isOpening c = false ∧ isClosing c = false) :
    Carried sep ⟨d, n, none⟩ cs ⟨d, n, none⟩ := by
  induction cs with
  | nil => exact .nil
  | cons c cs ih =>
      obtain ⟨hquote, hopening, hclosing⟩ := h c (by simp)
      exact (carried_inside hd hquote hopening hclosing).cons (ih fun c hc => h c (by simp [hc]))

theorem carried_openQuote (h : isQuote c = true) :
    Carried sep ⟨d, n, none⟩ [c] ⟨d, n, some c⟩ :=
  ⟨uncut_openQuote h, fun _ => by simp [balancedFrom_cons, h]⟩

theorem carried_inQuote {q : Char} (hslash : c ≠ '\\') (hquote : c ≠ q) :
    Carried sep ⟨d, n, some q⟩ [c] ⟨d, n, some q⟩ :=
  ⟨uncut_inQuote hslash hquote, fun _ => by
    rw [List.singleton_append, balancedFrom_cons_inQuote hslash, if_neg hquote]⟩

theorem carried_escaped {q : Char} : Carried sep ⟨d, n, some q⟩ ['\\', c] ⟨d, n, some q⟩ :=
  ⟨uncut_escaped, fun _ => by simp [balancedFrom]⟩

theorem carried_closeQuote {q : Char} (h : isQuote q = true) :
    Carried sep ⟨d, n, some q⟩ [q] ⟨d, n, none⟩ := by
  have hslash : q ≠ '\\' := ne_of_class isQuote h (by decide)
  exact ⟨uncut_closeQuote h, fun _ => by
    rw [List.singleton_append, balancedFrom_cons_inQuote hslash, if_pos rfl]⟩

theorem carried_quotedBody {q : Char} (hslash : '\\' ∉ cs) (hquote : q ∉ cs) :
    Carried sep ⟨d, n, some q⟩ cs ⟨d, n, some q⟩ := by
  induction cs with
  | nil => exact .nil
  | cons c cs ih =>
      simp only [List.mem_cons, not_or] at hslash hquote
      exact (carried_inQuote (Ne.symm hslash.1) (Ne.symm hquote.1)).cons (ih hslash.2 hquote.2)

/-- A text between two quotes that has no quote and no backslash inside. -/
theorem carried_quoted {q : Char} (h : isQuote q = true) (hslash : '\\' ∉ cs) (hquote : q ∉ cs) :
    Carried sep ⟨d, n, none⟩ (q :: (cs ++ [q])) ⟨d, n, none⟩ :=
  (carried_openQuote h).cons ((carried_quotedBody hslash hquote).append (carried_closeQuote h))

theorem carried_leftParen : Carried sep ⟨d, n, none⟩ ['('] ⟨d + 1, n + 1, none⟩ :=
  ⟨uncut_opening (by decide), fun _ => by simp [balancedFrom_cons, isQuote]⟩

theorem carried_rightParen : Carried sep ⟨d, n + 1, none⟩ [')'] ⟨d - 1, n, none⟩ :=
  ⟨uncut_closing (by decide), fun _ => by simp [balancedFrom_cons, isQuote]⟩

theorem carried_opening (h : isOpening c = true) (hparen : c ≠ '(') :
    Carried sep ⟨d, n, none⟩ [c] ⟨d + 1, n, none⟩ := by
  obtain ⟨hquote, hclosing⟩ := isQuote_of_isOpening h
  exact ⟨uncut_opening h, fun _ => balancedFrom_cons_of_not hquote hparen hclosing⟩

theorem carried_closing (h : isClosing c = true) (hparen : c ≠ ')') :
    Carried sep ⟨d, n, none⟩ [c] ⟨d - 1, n, none⟩ := by
  obtain ⟨hquote, hopening⟩ := isQuote_of_isClosing h
  exact ⟨uncut_closing h, fun _ => balancedFrom_cons_of_not hquote
    (ne_of_isOpening_eq_false hopening) hparen⟩

/-- The brackets that open, and those that close them. -/
def bracketPairs : List (Char × Char) :=
  [('(', ')'), ('[', ']'), ('\x7b', '\x7d')]

/-- A pair of brackets around a text. -/
theorem carried_group {opening closing : Char} (hpair : (opening, closing) ∈ bracketPairs)
    (h : ∀ n, Carried sep ⟨d + 1, n, none⟩ cs ⟨d + 1, n, none⟩) :
    Carried sep ⟨d, n, none⟩ (opening :: (cs ++ [closing])) ⟨d, n, none⟩ := by
  have hback : d + 1 - 1 = d := Int.add_sub_cancel d 1
  simp only [bracketPairs, List.mem_cons, Prod.mk.injEq, List.not_mem_nil, or_false] at hpair
  rcases hpair with ⟨rfl, rfl⟩ | ⟨rfl, rfl⟩ | ⟨rfl, rfl⟩
  · have hall := carried_leftParen.cons ((h (n + 1)).append carried_rightParen)
    rwa [hback] at hall
  · have hclose : Carried sep ⟨d + 1, n, none⟩ [']'] _ := carried_closing (by decide) (by decide)
    rw [hback] at hclose
    exact (carried_opening (by decide) (by decide)).cons ((h n).append hclose)
  · have hclose : Carried sep ⟨d + 1, n, none⟩ ['\x7d'] _ := carried_closing (by decide) (by decide)
    rw [hback] at hclose
    exact (carried_opening (by decide) (by decide)).cons ((h n).append hclose)

end Sluice.Pipeline
