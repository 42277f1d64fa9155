import Sluice.Proofs.Nesting

/-!
# Templates inside of pipelines

The scans for bars and for parentheses know nothing of templates: what stands in one is read
like any other text. Two braces open it, and most bodies are shielded by them. A body that
closes them, opens a quote or leaves a parenthesis open is not, and no template hides it.
-/
namespace Sluice.Pipeline

open Sluice.Text Sluice.Token

variable {cs rest : List Char} {c q : Char} {d e : Int} {m n : Nat}

/-- A text that the scans go over in one piece, with so many brackets and parentheses open
before it and none after it: its quotes are closed, its parentheses are matched, and a lone bar
stands only where a bracket is open. Other brackets need not match. -/
inductive Sealed : (depth : Int) → (parens : Nat) → List Char → Prop where
  | nil {d : Int} (hd : d ≤ 0) : Sealed d 0 []
  | char {d : Int} {n : Nat} {c : Char} {cs : List Char} (hc : IsPlain '|' c)
      (h : Sealed d n cs) : Sealed d n (c :: cs)
  | bars {d : Int} {n : Nat} {cs : List Char} (h : Sealed d n cs) : Sealed d n ('|' :: '|' :: cs)
  | bar {d : Int} {n : Nat} {cs : List Char} (hd : 0 < d) (h : Sealed d n cs) :
      Sealed d n ('|' :: cs)
  | quoted {d : Int} {n : Nat} {q : Char} {body cs : List Char} (hq : isQuote q = true)
      (hbody : InQuotes q body) (h : Sealed d n cs) : Sealed d n (q :: (body ++ q :: cs))
  | leftParen {d : Int} {n : Nat} {cs : List Char} (h : Sealed (d + 1) (n + 1) cs) :
      Sealed d n ('(' :: cs)
  | rightParen {d : Int} {n : Nat} {cs : List Char} (h : Sealed (d - 1) n cs) :
      Sealed d (n + 1) (')' :: cs)
  | opening {d : Int} {n : Nat} {c : Char} {cs : List Char} (hc : isOpening c = true)
      (hparen : c ≠ '(') (h : Sealed (d + 1) n cs) : Sealed d n (c :: cs)
  | closing {d : Int} {n : Nat} {c : Char} {cs : List Char} (hc : isClosing c = true)
      (hparen : c ≠ ')') (h : Sealed (d - 1) n cs) : Sealed d n (c :: cs)

theorem Sealed.carried (h : Sealed d n cs) :
    ∃ e ≤ 0, Carried '|' ⟨d, n, none⟩ cs ⟨e, 0, none⟩ := by
  induction h with
  | nil hd => exact ⟨_, hd, .nil⟩
  | char hc _ ih =>
      obtain ⟨e, he, ih⟩ := ih
      exact ⟨e, he, (carried_of_isPlain hc).cons ih⟩
  | bars _ ih =>
      obtain ⟨e, he, ih⟩ := ih
      exact ⟨e, he, carried_bars.append ih⟩
  | bar hd _ ih =>
      obtain ⟨e, he, ih⟩ := ih
      exact ⟨e, he, (carried_loneBar hd).cons ih⟩
  | quoted hq hbody _ ih =>
      obtain ⟨e, he, ih⟩ := ih
      exact ⟨e, he, (carried_openQuote hq).cons
        (hbody.carried.append ((carried_closeQuote hq).cons ih))⟩
  | leftParen _ ih =>
      obtain ⟨e, he, ih⟩ := ih
      exact ⟨e, he, carried_leftParen.cons ih⟩
  | rightParen _ ih =>
      obtain ⟨e, he, ih⟩ := ih
      exact ⟨e, he, carried_rightParen.cons ih⟩
  | opening hc hparen _ ih =>
      obtain ⟨e, he, ih⟩ := ih
      exact ⟨e, he, (carried_opening hc hparen).cons ih⟩
  | closing hc hparen _ ih =>
      obtain ⟨e, he, ih⟩ := ih
      exact ⟨e, he, (carried_closing hc hparen).cons ih⟩

/-- A closed text in front does not change whether a text is sealed. -/
theorem Sealed.closed_append {bar : Bool} (hcs : Closed bar cs) (hd : 0 ≤ d)
    (hbar : bar = true → 0 < d) (h : Sealed d n rest) : Sealed d n (cs ++ rest) := by
  induction hcs generalizing d n rest with
  | nil => exact h
  | char hc _ ih => exact .char hc (ih hd hbar h)
  | bar _ ih => exact .bar (hbar rfl) (ih hd hbar h)
  | bars _ ih => exact .bars (ih hd hbar h)
  | quoted hq hbody _ ih => simpa using Sealed.quoted hq hbody (ih hd hbar h)
  | @group bar opening closing inner cs hpair _ _ ihinner ih =>
      have hafter := ih hd hbar h
      have hback : d + 1 - 1 = d := Int.add_sub_cancel d 1
      have hinner {n : Nat} (hend : Sealed (d + 1) n (closing :: (cs ++ rest))) :
          Sealed (d + 1) n (inner ++ closing :: (cs ++ rest)) :=
        ihinner (by omega) (fun _ => by omega) hend
      simp only [bracketPairs, List.mem_cons, Prod.mk.injEq, List.not_mem_nil, or_false] at hpair
      rw [List.cons_append, List.append_assoc, List.cons_append]
      rw [← hback] at hafter
      rcases hpair with ⟨rfl, rfl⟩ | ⟨rfl, rfl⟩ | ⟨rfl, rfl⟩
      · exact .leftParen (hinner (.rightParen hafter))
      · exact .opening (by decide) (by decide) (hinner (.closing (by decide) (by decide) hafter))
      · exact .opening (by decide) (by decide) (hinner (.closing (by decide) (by decide) hafter))

/-- Where the check of parentheses succeeds, the quote that is open is closed. -/
theorem exists_inQuotes_of_balancedFrom {cs : List Char}
    (h : balancedFrom n (some q) cs = true) :
    ∃ body rest, InQuotes q body ∧ cs = body ++ q :: rest := by
  match cs with
  | [] => simp [balancedFrom] at h
  | c :: cs =>
      by_cases hslash : c = '\\'
      · subst hslash
        cases cs with
        | nil => simp [balancedFrom] at h
        | cons c cs =>
            have hrest : balancedFrom n (some q) cs = true := by simpa [balancedFrom] using h
            obtain ⟨body, rest, hbody, rfl⟩ := exists_inQuotes_of_balancedFrom hrest
            exact ⟨'\\' :: c :: body, rest, .escaped hbody, rfl⟩
      · by_cases hquote : c = q
        · exact ⟨[], cs, .nil, by rw [hquote]; rfl⟩
        · rw [balancedFrom_cons_inQuote hslash, if_neg hquote] at h
          obtain ⟨body, rest, hbody, rfl⟩ := exists_inQuotes_of_balancedFrom h
          exact ⟨c :: body, rest, .char hslash hquote hbody, rfl⟩
termination_by cs.length

/-- A stage without arguments. -/
def counting : Stage :=
  ⟨"count", ""⟩

theorem carried_counting (d : Int) (n : Nat) :
    Carried '|' ⟨d, n, none⟩ counting.text ⟨d, n, none⟩ :=
  Stage.carried_text (by decide) fun _ => .nil

/-- What the scans tell of a text: there is no separator in it, a bar behind it is one, and its
parentheses are matched. -/
structure Outcome (d : Int) (n : Nat) (cs : List Char) : Prop where
  uncut : (partsFrom '|' d none cs).length = 1
  cut : (partsFrom '|' d none (cs ++ ' ' :: '|' :: ' ' :: counting.text)).length = 2
  balanced : balancedFrom n none cs = true

theorem length_onFirst {found : List (List Char)} (h : found ≠ []) (cs : List Char) :
    (onFirst cs found).length = found.length := by
  cases found with
  | nil => exact absurd rfl h
  | cons part found => rfl

theorem Outcome.of_append (hcs : Carried '|' ⟨d, n, none⟩ cs ⟨e, m, none⟩)
    (h : Outcome d n (cs ++ rest)) : Outcome e m rest := by
  have hlength (tail : List Char) : (partsFrom '|' d none (cs ++ tail)).length =
      (partsFrom '|' e none tail).length := by
    rw [hcs.uncut tail, length_onFirst (partsFrom_ne_nil _ _ _ _)]
  refine ⟨?_, ?_, ?_⟩
  · rw [← hlength, h.uncut]
  · rw [← hlength, ← List.append_assoc, h.cut]
  · rw [← hcs.balance rest, h.balanced]

theorem Outcome.of_cons (hc : Carried '|' ⟨d, n, none⟩ [c] ⟨e, m, none⟩)
    (h : Outcome d n (c :: rest)) : Outcome e m rest :=
  .of_append hc h

/-- A text of which the scans tell this is sealed. -/
theorem Outcome.sealed {d : Int} {n : Nat} {cs : List Char} (h : Outcome d n cs) :
    Sealed d n cs := by
  match cs, h with
  | [], h =>
      have hn : n = 0 := by simpa [balancedFrom] using h.balanced
      subst hn
      refine .nil ?_
      by_contra hd
      have hplain : IsPlain '|' ' ' := isPlain_of_not_mem (by decide)
      have hcall : Carried '|' ⟨d, 0, none⟩ (' ' :: counting.text) ⟨d, 0, none⟩ :=
        (carried_of_isPlain hplain).cons (carried_counting d 0)
      have hall := (carried_of_isPlain hplain).cons ((carried_loneBar (by omega)).cons hcall)
      have hcut := h.cut
      rw [List.nil_append, hall.uncut.partsFrom_eq] at hcut
      cases hcut
  | c :: cs, h =>
      by_cases hquote : isQuote c = true
      · have hopen : Carried '|' ⟨d, n, none⟩ [c] ⟨d, n, some c⟩ := carried_openQuote hquote
        have hinner := h.balanced
        rw [← List.singleton_append, hopen.balance] at hinner
        obtain ⟨body, rest, hbody, rfl⟩ := exists_inQuotes_of_balancedFrom hinner
        have hspan : Carried '|' ⟨d, n, none⟩ (c :: (body ++ [c])) ⟨d, n, none⟩ :=
          hopen.cons (hbody.carried.append (carried_closeQuote hquote))
        have hrest : Outcome d n rest := .of_append hspan (by simpa using h)
        exact .quoted hquote hbody hrest.sealed
      by_cases hopening : isOpening c = true
      · by_cases hparen : c = '('
        · subst hparen
          have hrest : Outcome (d + 1) (n + 1) cs := .of_cons carried_leftParen h
          exact .leftParen hrest.sealed
        · have hrest : Outcome (d + 1) n cs := .of_cons (carried_opening hopening hparen) h
          exact .opening hopening hparen hrest.sealed
      by_cases hclosing : isClosing c = true
      · by_cases hparen : c = ')'
        · subst hparen
          cases n with
          | zero => simpa [balancedFrom, isQuote] using h.balanced
          | succ n =>
              have hrest : Outcome (d - 1) n cs := .of_cons carried_rightParen h
              exact .rightParen hrest.sealed
        · have hrest : Outcome (d - 1) n cs := .of_cons (carried_closing hclosing hparen) h
          exact .closing hclosing hparen hrest.sealed
      by_cases hbar : c = '|'
      · subst hbar
        by_cases hpair : cs.head? = some '|'
        · obtain ⟨rest, rfl⟩ : ∃ rest, cs = '|' :: rest := by
            cases cs <;> simp_all
          have hrest : Outcome d n rest := .of_append carried_bars h
          exact .bars hrest.sealed
        · by_cases hd : 0 < d
          · have hrest : Outcome d n cs := .of_cons (carried_loneBar hd) h
            exact .bar hd hrest.sealed
          · have huncut := h.uncut
            rw [partsFrom_loneBar (by omega) hpair, List.length_cons] at huncut
            exact absurd (List.length_eq_zero_iff.1 (by omega)) (partsFrom_ne_nil '|' d none cs)
      · have hplain : IsPlain '|' c :=
          ⟨by simpa using hquote, by simpa using hopening, by simpa using hclosing, hbar, hbar⟩
        have hrest : Outcome d n cs := .of_cons (carried_of_isPlain hplain) h
        exact .char hplain hrest.sealed
termination_by cs.length

variable {t : List Char}

theorem Sealed.partsFrom_counting (h : Sealed 0 0 t) :
    partsFrom '|' 0 none (t ++ ' ' :: '|' :: ' ' :: counting.text) =
      [t ++ [' '], ' ' :: counting.text] := by
  obtain ⟨e, he, hcarried⟩ := h.carried
  have hplain : IsPlain '|' ' ' := isPlain_of_not_mem (by decide)
  have hcall : Carried '|' ⟨e, 0, none⟩ (' ' :: counting.text) ⟨e, 0, none⟩ :=
    (carried_of_isPlain hplain).cons (carried_counting e 0)
  rw [partsFrom_spacedBar hcarried he, hcall.uncut.partsFrom_eq]

theorem Sealed.balanced (h : Sealed 0 0 t) : balanced t = true := by
  obtain ⟨e, -, hcarried⟩ := h.carried
  simpa [Pipeline.balanced, balancedFrom] using hcarried.balance []

/-- The stage that keeps the items for which a text holds. -/
def keeping (t : List Char) : Stage :=
  ⟨"where", String.ofList t⟩

theorem readStage_keeping (ht : trim t = t) :
    readStage (String.ofList (keeping t).text) = .ok (keeping t) ↔ balanced t = true := by
  have hname : isStageName (keeping t).name.toList = true :=
    (by decide : isStageName "where".toList = true)
  rw [Stage.readStage_text hname]
  simp [keeping, trimmed, ht]

/-- A text is one stage of a pipeline, whole, and one argument of a stage, exactly if it is
sealed. -/
theorem whole_iff_sealed (ht : trim t = t) :
    (isPipeline t = false ∧
      stages (t ++ ' ' :: '|' :: ' ' :: counting.text) = [t, counting.text] ∧
      readStage (String.ofList (keeping t).text) = .ok (keeping t)) ↔ Sealed 0 0 t := by
  rw [readStage_keeping ht]
  constructor
  · rintro ⟨hpipe, hstages, hbalanced⟩
    have hpos := List.length_pos_iff.2 (partsFrom_ne_nil '|' 0 none t)
    have hone : (partsFrom '|' 0 none t).length ≤ 1 := by simpa [isPipeline, parts] using hpipe
    have hcut := congrArg List.length hstages
    rw [stages, parts, List.length_map] at hcut
    exact Outcome.sealed ⟨by omega, hcut, hbalanced⟩
  · intro h
    obtain ⟨e, -, hcarried⟩ := h.carried
    have hcounting : trim counting.text = counting.text := Stage.trim_text (by decide)
    refine ⟨?_, ?_, h.balanced⟩
    · simp [isPipeline, parts, hcarried.uncut.partsFrom_eq]
    · simp [stages, parts, h.partsFrom_counting, ht, hcounting]

/-! ## Templates -/

/-- A template with a body, bare or in quotes. -/
def templateText (quote : Option Char) (body : List Char) : List Char :=
  quote.toList ++ '\x7b' :: '\x7b' :: (body ++ '\x7d' :: '\x7d' :: quote.toList)

variable {quote : Option Char}

theorem trim_templateText (hquote : ∀ c ∈ quote, isQuote c = true) (body : List Char) :
    trim (templateText quote body) = templateText quote body := by
  have hblank {c : Char} (hc : isQuote c = true) : isBlank c = false :=
    isBlank_of_class isQuote (by decide) hc
  refine trim_eq_self ?_ ?_
  · cases quote with
    | none => simp [templateText, (by decide : isBlank '\x7b' = false)]
    | some q => simpa [templateText] using hblank (hquote q rfl)
  · cases quote with
    | none => simp [templateText, List.getLast?_cons, (by decide : isBlank '\x7d' = false)]
    | some q => simpa [templateText, List.getLast?_cons] using hblank (hquote q rfl)

/-- A bare template is sealed if the quotes of its body are closed and its brackets matched. -/
theorem sealed_templateText {body : List Char} (h : Closed true body) :
    Sealed 0 0 (templateText none body) := by
  have hend : Sealed 2 0 ['\x7d', '\x7d'] :=
    .closing (by decide) (by decide) (.closing (by decide) (by decide) (.nil (by decide)))
  exact .opening (by decide) (by decide) (.opening (by decide) (by decide)
    (hend.closed_append h (by decide) fun _ => by decide))

/-- The body of a template does not affect how pipelines are cut exactly if the template, read
like any other text, is sealed. -/
theorem template_whole_iff_sealed (hquote : ∀ c ∈ quote, isQuote c = true) (body : List Char) :
    (isPipeline (templateText quote body) = false ∧
      stages (templateText quote body ++ " | count()".toList) =
        [templateText quote body, "count()".toList] ∧
      readStage (String.ofList ("where(".toList ++ templateText quote body ++ ")".toList)) =
        .ok ⟨"where", String.ofList (templateText quote body)⟩) ↔
      Sealed 0 0 (templateText quote body) := by
  simpa [Stage.text, counting, keeping] using whole_iff_sealed (trim_templateText hquote body)

/-- A bar in the braces is no separator. -/
theorem template_whole_of_bar :
    isPipeline (templateText none "a|b".toList) = false ∧
      stages (templateText none "a|b".toList ++ " | count()".toList) =
        [templateText none "a|b".toList, "count()".toList] ∧
      readStage (String.ofList ("where(".toList ++ templateText none "a|b".toList ++ ")".toList)) =
        .ok ⟨"where", String.ofList (templateText none "a|b".toList)⟩ := by
  have hplain (c : Char) (hc : c ∉ '|' :: barSpecials) : IsPlain '|' c := isPlain_of_not_mem hc
  have hbody : Closed true "a|b".toList :=
    .char (hplain _ (by decide)) (.bar (.char (hplain _ (by decide)) .nil))
  exact (template_whole_iff_sealed (by simp) _).2 (sealed_templateText hbody)

/-- Not every body is sealed: one that closes the braces bares the bar behind them. -/
theorem not_forall_template_whole :
    ¬ ∀ (quote : Option Char) (body : List Char), (∀ c ∈ quote, isQuote c = true) → '\x7d' ∉ body →
      isPipeline (templateText quote body) = false ∧
      stages (templateText quote body ++ " | count()".toList) =
        [templateText quote body, "count()".toList] ∧
      readStage (String.ofList ("where(".toList ++ templateText quote body ++ ")".toList)) =
        .ok ⟨"where", String.ofList (templateText quote body)⟩ := by
  intro h
  have hpipe : isPipeline (templateText none "param:a))|b".toList) = true := by decide +kernel
  have hnot := (h none "param:a))|b".toList (by simp) (by decide)).1
  rw [hpipe] at hnot
  cases hnot

end Sluice.Pipeline
