import Sluice.Proofs.Following
import Sluice.Proofs.Tokenizing

/-!
# Expressions inside of longer texts

A text that is scanned whole is scanned to the same tokens at any place of a longer text, if a
blank, a comma or a closing parenthesis comes next. Their positions are others, which readers
of expressions do not look at. So a text that is an expression is the same expression where it
stands as an argument of a call.
-/
namespace Sluice.Token

open Sluice.Text

variable {c d : Char} {cs rest : List Char} {n : Nat}

/-! ## The rules before a stop -/

/-- The operators of two characters. -/
def doubled : List (Char × Char) :=
  [('=', '='), ('!', '='), ('>', '='), ('<', '='), ('&', '&'), ('|', '|')]

theorem operatorLength_of_doubled (h : (c, d) ∈ doubled) :
    operatorLength (c :: d :: cs) = some 2 := by
  simp only [doubled, List.mem_cons, Prod.mk.injEq, List.not_mem_nil, or_false] at h
  rcases h with ⟨rfl, rfl⟩ | ⟨rfl, rfl⟩ | ⟨rfl, rfl⟩ | ⟨rfl, rfl⟩ | ⟨rfl, rfl⟩ | ⟨rfl, rfl⟩ <;> rfl

theorem operatorLength_of_not_doubled (h : ∀ d ∈ cs.head?, (c, d) ∉ doubled) :
    operatorLength (c :: cs) = if "<>+-*/%!".toList.contains c then some 1 else none := by
  have hne (c' d' : Char) (hmem : (c', d') ∈ doubled) (tail : List Char) (hc : c = c')
      (htail : cs = d' :: tail) : False := by
    subst hc htail
    exact h d' rfl hmem
  exact operatorLength.eq_7 c cs (hne _ _ (by decide)) (hne _ _ (by decide)) (hne _ _ (by decide))
    (hne _ _ (by decide)) (hne _ _ (by decide)) (hne _ _ (by decide))

theorem operatorLength_append (hrest : Stops rest) :
    operatorLength (c :: (cs ++ rest)) = operatorLength (c :: cs) := by
  by_cases h : ∃ d ∈ cs.head?, (c, d) ∈ doubled
  · obtain ⟨d, hd, hdoubled⟩ := h
    obtain ⟨cs, rfl⟩ := List.head?_eq_some_iff.1 hd
    rw [List.cons_append, operatorLength_of_doubled hdoubled, operatorLength_of_doubled hdoubled]
  · have hnot : ∀ d ∈ cs.head?, (c, d) ∉ doubled := fun d hd hdoubled => h ⟨d, hd, hdoubled⟩
    rw [operatorLength_of_not_doubled hnot, operatorLength_of_not_doubled]
    cases cs with
    | cons d cs => exact hnot
    | nil =>
        intro d hd hdoubled
        have hsecond : d ∈ doubled.map Prod.snd := List.mem_map_of_mem hdoubled
        have hstop := hrest.of_class (doubled.map Prod.snd).contains (by decide) d hd
        exact absurd hsecond (by simpa using hstop)

theorem identifierLength_append (hrest : Stops rest) :
    identifierLength (c :: (cs ++ rest)) = identifierLength (c :: cs) := by
  simp only [identifierLength, runLength_append_rest hrest.notWord]

theorem stringTail_append {q : Char} (hq : isQuote q = true) (h : stringTail q cs = some n)
    (rest : List Char) : stringTail q (cs ++ rest) = some n := by
  obtain ⟨body, tail, rfl, hbody, rfl⟩ := exists_of_stringTail h
  rw [List.append_assoc, List.cons_append]
  exact hbody.stringTail_append (ne_of_class isQuote hq (by decide)) (tail ++ rest)

theorem segmentsLength_append (hrest : EndsPath (cs.drop (segmentsLength cs) ++ rest)) :
    segmentsLength (cs ++ rest) = segmentsLength cs := by
  have h := segments_append cs hrest
  rw [← List.append_assoc, List.take_append_drop] at h
  rw [segmentsLength_eq, h, ← segmentsLength_eq]

/-! ## The first token before a stop -/

/-- Where no brace begins, the rules for templates do not match. -/
theorem first?_of_ne_brace (hc : c ≠ '\x7b') (hcs : ∀ d ∈ cs.head?, d ≠ '\x7b') :
    first? (c :: cs) =
      ((rules.drop 3).findSome? fun (kind, length) => (length (c :: cs)).map (kind, ·)) := by
  have htemplate : templateLength cs = none := templateLength_of_head hcs
  have hbare : templateLength (c :: cs) = none := templateLength_of_head (by simpa using hc)
  simp [first?, rules, quotedTemplateLength, htemplate, hbare]

/-- A quote that begins no template begins a string or nothing. -/
theorem first?_of_isQuote (hc : isQuote c = true)
    (htemplate : quotedTemplateLength c (c :: cs) = none) :
    first? (c :: cs) = (stringLength (c :: cs)).map (Kind.string, ·) := by
  have hquotes : c = '\'' ∨ c = '"' := by simpa [isQuote] using hc
  have hbare : templateLength (c :: cs) = none := templateLength_of_head (by
    rcases hquotes with rfl | rfl <;> simp)
  have hoperator : operatorLength (c :: cs) = none := operatorLength_eq_none (by
    rcases hquotes with rfl | rfl <;> decide)
  have hnumber : numberLength (c :: cs) = none := by
    have hdecimal : isDecimal c = false := by
      rcases hquotes with rfl | rfl <;> decide
    simp [numberLength, someRun, runLength, hdecimal]
  have hother (q : Char) : quotedTemplateLength q (c :: cs) = none := by
    by_cases hq : c = q
    · rw [← hq, htemplate]
    · simp [quotedTemplateLength, hq]
  rcases hquotes with rfl | rfl <;>
    cases hstring : stringLength _ <;>
    simp [first?, rules, hother, hbare, pathLength, hoperator, identifierLength, isNameStart,
      hstring, hnumber, charLength]

/-- The first token of a text is that of a text that goes on with a stop. Where it is a path,
there must be nothing after it that goes on with the path. -/
theorem first?_append {kind : Kind} (h : first? (c :: cs) = some (kind, n))
    (hopen : '\x7b' ∉ c :: cs) (hrest : Stops rest)
    (hpath : kind = .path → EndsPath ((c :: cs).drop n ++ rest)) :
    first? (c :: (cs ++ rest)) = some (kind, n) := by
  simp only [List.mem_cons, not_or] at hopen
  have hbrace : c ≠ '\x7b' := Ne.symm hopen.1
  have hcs : ∀ d ∈ cs.head?, d ≠ '\x7b' := fun d hd =>
    ne_of_mem_of_not_mem (List.mem_of_mem_head? hd) hopen.2
  have hboth : ∀ d ∈ (cs ++ rest).head?, d ≠ '\x7b' := by
    cases cs with
    | nil => simpa using hrest.of_class (· == '\x7b') (by decide)
    | cons d cs => simpa using hcs
  have htemplate (ds : List Char) (hds : ∀ d ∈ ds.head?, d ≠ '\x7b') :
      quotedTemplateLength c (c :: ds) = none := by
    simp [quotedTemplateLength, templateLength_of_head hds]
  -- Strings may hold stops, paths depend on what comes next, and all other tokens end at a stop.
  by_cases hquote : isQuote c = true
  · rw [first?_of_isQuote hquote (htemplate cs hcs)] at h
    rw [first?_of_isQuote hquote (htemplate _ hboth), ← h, stringLength, stringLength, if_pos hquote,
      if_pos hquote]
    cases htail : stringTail c cs with
    | none => simp [stringLength, hquote, htail] at h
    | some m => rw [stringTail_append hquote htail]
  rw [Bool.not_eq_true] at hquote
  by_cases hdollar : c = '$'
  · subst hdollar
    rw [first?_of_ne_brace hbrace hcs] at h
    have hkind : kind = .path ∧ n = segmentsLength cs + 1 := by
      simpa [rules, pathLength, eq_comm] using h
    obtain ⟨rfl, rfl⟩ := hkind
    have hends := hpath rfl
    rw [List.drop_succ_cons] at hends
    rw [first?_of_ne_brace hbrace hboth]
    simp [rules, pathLength, segmentsLength_append hends]
  · have hnumber : numberLength (c :: cs ++ rest) = numberLength (c :: cs) :=
      numberLength_append hrest.notNumeric
    rw [List.cons_append] at hnumber
    have hnopath (ds : List Char) : pathLength (c :: ds) = none := by simp [pathLength, hdollar]
    have hstring (ds : List Char) : stringLength (c :: ds) = none := by simp [stringLength, hquote]
    rw [first?_of_ne_brace hbrace hcs] at h
    rw [first?_of_ne_brace hbrace hboth, ← h]
    simp only [rules, List.drop_succ_cons, List.drop_zero, List.findSome?_cons,
      List.findSome?_nil, hnopath, operatorLength_append hrest, identifierLength_append hrest,
      hstring, hnumber, charLength]

/-! ## All tokens before a stop -/

/-- A text that is scanned whole begins with no character that a path goes on with, words aside. -/
theorem ne_of_scan {position : Nat} {ts : List Token} (h : scan position cs = .ok ts) :
    ∀ c ∈ cs.head?, c ≠ '.' ∧ c ≠ '[' := by
  have hnone {c : Char} (hc : c = '.' ∨ c = '[') (rest : List Char) :
      first? (c :: rest) = none := by
    rcases hc with rfl | rfl
    · rw [first?_of_isPunctuation (by decide) (by decide) (by decide)]
      rfl
    · rw [first?_of_isPunctuation (by decide) (by decide) (by decide)]
      rfl
  intro c hc
  obtain ⟨rest, rfl⟩ := List.head?_eq_some_iff.1 hc
  rw [← not_or]
  intro he
  have hblank : isBlank c = false := by
    rcases he with rfl | rfl <;> decide
  rw [scan, hnone he] at h
  simp [hblank] at h

theorem PathBody.append {body : List Char} (h : PathBody body) (hcs : PathBody cs) :
    PathBody (body ++ cs) := by
  induction h with
  | nil => exact hcs
  | segment hs _ ih =>
      rw [List.append_assoc]
      exact .segment hs ih

/-- A path token ends where no path goes on, also before a stop. -/
theorem FirstMatch.endsPath {w : List Char} {position : Nat} {ts : List Token}
    (h : FirstMatch .path w (w ++ cs)) (hscan : scan position cs = .ok ts) (hrest : Stops rest) :
    EndsPath (cs ++ rest) := by
  cases cs with
  | nil => exact hrest.endsPath
  | cons c cs =>
      obtain ⟨hpoint, hbracket⟩ := ne_of_scan hscan c (by simp)
      have hword : isWord c = false := by
        by_contra hc
        rw [Bool.not_eq_false] at hc
        have hsegment : PathSegment [c] :=
          ⟨.word (by simpa using hc), by simp, by simpa using hpoint⟩
        have hlonger : Lexeme .path (w ++ [c]) := by
          have hlexeme := h.lexeme
          cases hlexeme with
          | path hbody => exact .path (hbody.append (.segment hsegment .nil))
        have hle := h.longest _ hlonger ⟨cs, by simp⟩
        rw [List.length_append, List.length_singleton] at hle
        omega
      intro e he
      obtain rfl : c = e := by simpa using he
      exact ⟨hword, hpoint, hbracket⟩

theorem FirstMatch.first?_append {kind : Kind} {w : List Char} (h : FirstMatch kind w (w ++ cs))
    (hopen : '\x7b' ∉ w ++ cs) (hrest : Stops rest) (hpath : kind = .path → EndsPath (cs ++ rest)) :
    first? (w ++ (cs ++ rest)) = some (kind, w.length) := by
  have hfirst := h.first?_eq
  obtain ⟨c, w, rfl⟩ := List.exists_cons_of_ne_nil h.ne_nil
  rw [← List.append_assoc]
  exact Token.first?_append hfirst hopen hrest (by simpa using hpath)

/-- A text that is scanned whole is scanned to the same tokens further on, before a stop. -/
theorem scansTo_of_scan {position : Nat} {ts : List Token} (k : Nat)
    (h : scan position cs = .ok ts) (hopen : '\x7b' ∉ cs) (hrest : Stops rest) :
    ScansTo (position + k) (cs ++ rest) (ts.map (moved (· + k))) (position + k + byteLength cs)
      rest := by
  induction h using scan_induction with
  | nil => exact .nil _ _
  | @blank position _ cs _ hblank _ _ ih =>
      simp only [List.mem_cons, not_or] at hopen
      have hothers := ih hopen.2
      rw [Nat.add_right_comm] at hothers
      have hall := (ScansTo.blank (position + k) hblank (cs ++ rest)).trans hothers
      rw [List.nil_append] at hall
      rwa [List.cons_append, byteLength_cons, ← Nat.add_assoc]
  | @token position kind w cs _ hmatch others _ ih =>
      -- A path would go on with a word, but the rest was scanned as well and begins with none.
      have hfirst := hmatch.first?_append hopen hrest fun hkind => by
        subst hkind
        exact hmatch.endsPath others hrest
      have htoken := ScansTo.token (position + k) hmatch.ne_nil hfirst
      have hothers := ih fun hmem => hopen (List.mem_append_right w hmem)
      rw [Nat.add_right_comm] at hothers
      have hall := htoken.trans hothers
      rwa [List.append_assoc, byteLength_append, ← Nat.add_assoc]

end Sluice.Token

namespace Sluice.Expr

open Sluice.Text Sluice.Token

/-- A text is scanned to its tokens wherever it stands before a stop. -/
theorem scans_of_tokenize {text : String} {ts : List Token} (h : tokenize (trimmed text) = .ok ts)
    (hopen : '\x7b' ∉ text.toList) : Scans text.toList fun us => ∃ f, us = ts.map (.moved f) := by
  rw [tokenize, toList_trimmed] at h
  obtain ⟨before, after, htext, hbefore, hafter⟩ := exists_trim text.toList
  have hinner : '\x7b' ∉ trim text.toList := fun hmem => hopen (mem_of_mem_trim hmem)
  intro position rest hrest
  have hstart := ScansTo.blanks position hbefore (trim text.toList ++ (after ++ rest))
  have htokens := scansTo_of_scan (position + byteLength before) h hinner
    (hrest.blanks_append hafter)
  rw [Nat.zero_add] at htokens
  have hend := ScansTo.blanks (position + byteLength before + byteLength (trim text.toList))
    hafter rest
  have hall := hstart.trans (htokens.trans hend)
  rw [List.nil_append, List.append_nil, ← List.append_assoc, ← List.append_assoc,
    List.append_assoc before, ← htext] at hall
  exact ⟨_, _, ⟨_, rfl⟩, hall⟩

/-- The tokens of an expression are the expression as an argument, wherever they stand. -/
theorem ReadsExpr.argument {ts : List Token} {e : Expr} (h : ReadsExpr 0 ts e [])
    (f : Nat → Nat) : Argument e (ts.map (.moved f)) :=
  fun _ more ht => h.followed f fun _ => ht.endsExpr more

/-- A text that is an expression is that expression as an argument. -/
theorem scans_argument {text : String} {e : Expr} (h : parse text = .ok e)
    (hopen : '\x7b' ∉ text.toList) : Scans text.toList (Argument e) := by
  obtain ⟨-, ts, hscan, hreads⟩ := parse_eq_ok.1 h
  refine (scans_of_tokenize hscan hopen).mono fun us hus => ?_
  obtain ⟨f, rfl⟩ := hus
  exact hreads.argument f

end Sluice.Expr
