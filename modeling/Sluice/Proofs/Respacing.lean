import Sluice.Proofs.Embedding
import Sluice.Proofs.Refusals

/-!
# Tokens with other gaps

The tokens of a text do not depend on the gaps between them: written one after the other with one
space between two, they are the tokens of the new text. A token that may hold spaces, a template or
a string, is found by its ends. The one thing that a gap could change is whether a quote begins a
template or a string, and for that there must be closing braces with a quote right after them,
which no gap brings together.
-/
namespace Sluice

/-- The token, wherever it stands. -/
def Token.unplaced : Token → Token :=
  Token.moved fun _ => 0

/-- The cause, wherever it is found. -/
def ParseError.unplaced : ParseError → ParseError :=
  ParseError.moved fun _ => 0

namespace Token

open Sluice.Text

variable {kind : Kind} {w cs rest : List Char} {q : Char} {t : Token} {ts : List Token}

/-- The texts of tokens, a space before each. -/
def spaced (ts : List Token) : List Char :=
  ts.flatMap fun t => ' ' :: t.text.toList

/-- The texts of tokens, a space between each two. -/
def respaced (ts : List Token) : String :=
  " ".intercalate (ts.map Token.text)

theorem spaced_cons (t : Token) (ts : List Token) :
    spaced (t :: ts) = ' ' :: (t.text.toList ++ spaced ts) := by
  simp [spaced]

theorem toList_respaced_cons (t : Token) (ts : List Token) :
    (respaced (t :: ts)).toList = t.text.toList ++ spaced ts := by
  induction ts generalizing t with
  | nil => simp [respaced, spaced]
  | cons t' ts ih =>
      have hothers := ih t'
      simp only [respaced, List.map_cons, String.toList_intercalate] at hothers ⊢
      rw [spaced_cons, ← hothers]
      simp

theorem stops_spaced (ts : List Token) : Stops (spaced ts) := by
  cases ts with
  | nil => exact stops_nil
  | cons t ts =>
      rw [spaced_cons]
      exact stops_cons (by decide)

/-! ## Closing braces and a quote -/

/-- The first closing brace of the text is one of two, and a quote comes after them. -/
def Closes (q : Char) (cs : List Char) : Prop :=
  ∃ body rest, '\x7d' ∉ body ∧ cs = body ++ '\x7d' :: '\x7d' :: q :: rest

theorem Closes.cons {c : Char} (h : Closes q cs) (hc : c ≠ '\x7d') : Closes q (c :: cs) := by
  obtain ⟨body, rest, hbody, rfl⟩ := h
  exact ⟨c :: body, rest, by simpa [Ne.symm hc] using hbody, rfl⟩

theorem Closes.of_cons {c : Char} (h : Closes q (c :: cs)) (hc : c ≠ '\x7d') : Closes q cs := by
  obtain ⟨body, rest, hbody, he⟩ := h
  cases body with
  | nil =>
      cases he
      exact absurd rfl hc
  | cons b body =>
      cases he
      exact ⟨body, rest, fun hmem => hbody (List.mem_cons_of_mem _ hmem), rfl⟩

/-- Braces and a quote that are found in a text are in its first part, or they are found in the
second, provided that the second does not go on with them. -/
theorem Closes.of_append {rest' : List Char} (h : Closes q (w ++ rest))
    (hrest : ∀ c ∈ rest.head?, c ≠ '\x7d' ∧ c ≠ q) (hclose : Closes q rest → Closes q rest') :
    Closes q (w ++ rest') := by
  obtain ⟨body, tail, hbody, he⟩ := h
  rcases List.append_eq_append_iff.1 he with ⟨between, rfl, hlater⟩ | ⟨between, rfl, hcut⟩
  · obtain ⟨body', tail', hbody', rfl⟩ :=
      hclose ⟨between, tail, fun hmem => hbody (List.mem_append_right w hmem), hlater⟩
    refine ⟨w ++ body', tail', ?_, by simp⟩
    rw [List.mem_append]
    rintro (hmem | hmem)
    · exact hbody (List.mem_append_left between hmem)
    · exact hbody' hmem
  · match between, hcut with
    | [], hcut =>
        cases hcut
        exact absurd rfl (hrest '\x7d' rfl).1
    | [_], hcut =>
        cases hcut
        exact absurd rfl (hrest '\x7d' rfl).1
    | [_, _], hcut =>
        cases hcut
        exact absurd rfl (hrest q rfl).2
    | _ :: _ :: _ :: more, hcut =>
        cases hcut
        exact ⟨body, more ++ rest', hbody, by simp⟩

theorem Stops.head_ne (h : Stops rest) (hq : isQuote q = true) :
    ∀ c ∈ rest.head?, c ≠ '\x7d' ∧ c ≠ q := by
  intro c hc
  have hbrace := h.of_class (· == '\x7d') (by decide) c hc
  have hquote := h.of_class isQuote (by decide) c hc
  exact ⟨by simpa using hbrace, (ne_of_class isQuote hq hquote).symm⟩

/-! ## The first token with another gap after it -/

theorem Measures.whole {rule : List Char → Option Nat} {form : List Char → Prop}
    (h : Measures rule form) (hw : form w) : rule w = some w.length := by
  obtain ⟨n, hn, hle⟩ := h.maximal hw []
  rw [List.append_nil] at hn
  obtain ⟨w', rest, rfl, -, rfl⟩ := h.sound hn
  rw [hn, Nat.le_antisymm (by simp) hle]

/-- A template that begins where a string does has its opening braces in the string. -/
theorem exists_of_quotedTemplateLength_string {body : List Char} {n : Nat}
    (hq : isQuote q = true) (h : quotedTemplateLength q (q :: (body ++ [q] ++ rest)) = some n) :
    ∃ more, body = '\x7b' :: '\x7b' :: more ∧ Closes q (more ++ [q] ++ rest) := by
  have hbrace : q ≠ '\x7b' := ne_of_class isQuote hq (by decide)
  obtain ⟨inner, tail, hinner, he, -⟩ := exists_of_quotedTemplateLength h
  match body, he with
  | [], he => simp [bareTemplate, hbrace] at he
  | [_], he => simp [bareTemplate, hbrace] at he
  | c :: d :: more, he =>
      simp only [bareTemplate, List.cons_append, List.cons.injEq, true_and] at he
      obtain ⟨rfl, rfl, he⟩ := he
      exact ⟨more, rfl, inner, tail, hinner, by simpa using he⟩

/-- A quote that begins a string begins no template with another gap after the string, if there
are no more braces and quotes after it than there were: templates come before strings. -/
theorem FirstMatch.quotedTemplateLength_eq_none {body : List Char}
    (h : FirstMatch .string (q :: (body ++ [q])) (q :: (body ++ [q]) ++ cs))
    (hq : isQuote q = true) (hrest : Stops rest) (hclose : Closes q rest → Closes q cs) :
    quotedTemplateLength q (q :: (body ++ [q] ++ rest)) = none := by
  by_contra hsome
  obtain ⟨n, hn⟩ := Option.ne_none_iff_exists'.1 hsome
  obtain ⟨more, rfl, hfound⟩ := exists_of_quotedTemplateLength_string hq hn
  obtain ⟨inner, tail, hinner, he⟩ := hfound.of_append (hrest.head_ne hq) hclose
  have hstart : q :: (bareTemplate inner ++ [q]) <+:
      q :: ('\x7b' :: '\x7b' :: more ++ [q]) ++ cs := by
    refine ⟨tail, ?_⟩
    simpa [bareTemplate] using he.symm
  have hquotes : q = '\'' ∨ q = '"' := by simpa [isQuote] using hq
  rcases hquotes with rfl | rfl
  · exact absurd (h.first _ _ (.singleQuotedTemplate hinner) hstart) (by decide)
  · exact absurd (h.first _ _ (.quotedTemplate hinner) hstart) (by decide)

theorem FirstMatch.first?_string (h : FirstMatch .string w (w ++ cs)) (hrest : Stops rest)
    (hclose : ∀ q, isQuote q = true → Closes q rest → Closes q cs) :
    first? (w ++ rest) = some (.string, w.length) := by
  have hlexeme := h.lexeme
  cases hlexeme with
  | @string q body hq hbody =>
      have htemplate := h.quotedTemplateLength_eq_none hq hrest (hclose q hq)
      have hslash : q ≠ '\\' := ne_of_class isQuote hq (by decide)
      rw [List.cons_append, first?_of_isQuote hq htemplate]
      simp [stringLength, hq, hbody.stringTail_append hslash]

/-- The first token of a text is the first one with another gap after it. -/
theorem FirstMatch.first?_respaced (h : FirstMatch kind w (w ++ cs)) (hrest : Stops rest)
    (hclose : ∀ q, isQuote q = true → Closes q rest → Closes q cs) :
    first? (w ++ rest) = some (kind, w.length) := by
  have hlexeme := h.lexeme
  cases hlexeme with
  | quotedTemplate hbody => exact first?_quotedTemplate (by decide) hbody
  | singleQuotedTemplate hbody => exact first?_quotedTemplate (by decide) hbody
  | bareTemplate hbody => exact first?_bareTemplate hbody
  | path => exact first?_path (measures_path.whole h.lexeme) hrest.endsPath
  | operator hmem =>
      have hopen : ∀ w ∈ operatorTexts, '\x7b' ∉ w := by decide
      have halone : FirstMatch .operator w (w ++ []) := by
        rw [List.append_nil]
        exact h.of_prefix List.prefix_rfl (List.prefix_append w cs)
      exact halone.first?_append (by simpa using hopen w hmem) hrest nofun
  | identifier =>
      exact first?_identifier (measures_identifier.whole h.lexeme) hrest.notWord
  | string => exact h.first?_string hrest hclose
  | number =>
      exact first?_number (measures_number.whole h.lexeme) hrest.notNumeric
  | leftParen => exact first?_leftParen
  | rightParen => exact first?_rightParen
  | comma => exact first?_comma

/-- There are no more braces and quotes in tokens with spaces before them than in their text. -/
theorem closes_of_spaced {position : Nat} (h : scan position cs = .ok ts)
    (hq : isQuote q = true) (hclose : Closes q (spaced ts)) : Closes q cs := by
  induction h using scan_induction with
  | nil => exact hclose
  | blank hblank _ _ ih =>
      exact (ih hclose).cons (ne_of_class isBlank hblank (by decide))
  | @token _ _ w _ us _ _ _ ih =>
      rw [spaced_cons, String.toList_ofList] at hclose
      have htoken : Closes q (w ++ spaced us) := hclose.of_cons (by decide)
      exact htoken.of_append ((stops_spaced us).head_ne hq) ih

/-! ## The same tokens elsewhere -/

/-- Wherever the text stands, these are its tokens, their positions aside. -/
def ScansAlike (cs : List Char) (ts : List Token) : Prop :=
  ∀ position, ∃ us, scan position cs = .ok us ∧ us.map unplaced = ts.map unplaced

theorem scansAlike_nil : ScansAlike [] [] :=
  fun _ => ⟨[], by rw [scan], rfl⟩

theorem ScansAlike.blank {c : Char} (h : ScansAlike cs ts) (hc : isBlank c = true) :
    ScansAlike (c :: cs) ts := by
  intro position
  rw [scan_of_isBlank position hc]
  exact h (position + c.utf8Size)

theorem ScansAlike.token (h : ScansAlike cs ts) (hne : w ≠ [])
    (hfirst : first? (w ++ cs) = some (kind, w.length)) (place : Nat) :
    ScansAlike (w ++ cs) (⟨kind, String.ofList w, place⟩ :: ts) := by
  intro position
  obtain ⟨us, hus, hsame⟩ := h (position + byteLength w)
  refine ⟨⟨kind, String.ofList w, position⟩ :: us, ?_, ?_⟩
  · rw [scan_of_first? position hne hfirst, hus]
    rfl
  · rw [List.map_cons, List.map_cons, hsame]
    rfl

/-- The tokens of a text are the tokens of their texts with spaces between them. -/
theorem scansAlike_respaced {position : Nat} (h : scan position cs = .ok ts) :
    ScansAlike (respaced ts).toList ts := by
  induction h using scan_induction with
  | nil => exact scansAlike_nil
  | blank _ _ _ ih => exact ih
  | @token position _ _ _ us hmatch others _ ih =>
      have hgap : ScansAlike (spaced us) us := by
        cases us with
        | nil => exact scansAlike_nil
        | cons t us =>
            rw [toList_respaced_cons] at ih
            rw [spaced_cons]
            exact ih.blank (by decide)
      have hfirst := hmatch.first?_respaced (stops_spaced us) fun q hq => closes_of_spaced others hq
      rw [toList_respaced_cons, String.toList_ofList]
      exact hgap.token hmatch.ne_nil hfirst position

open Sluice.Expr in
/-- No token ends with a blank. -/
theorem Lexeme.last (h : Lexeme kind w) : ∀ c ∈ w.getLast?, isBlank c = false := by
  have hclass (p : Char → Bool) (hp : blanks.all (fun c => !p c) = true)
      (hw : ∀ c ∈ w, p c = true) : ∀ c ∈ w.getLast?, isBlank c = false := fun c hc =>
    isBlank_of_class p hp (hw c (List.mem_of_mem_getLast? hc))
  have hlexeme := h
  cases hlexeme with
  | quotedTemplate => exact (solid_between (by decide) (by decide) (by decide) _).last
  | singleQuotedTemplate => exact (solid_between (by decide) (by decide) (by decide) _).last
  | @bareTemplate body =>
      have hbody : Solid ('\x7b' :: (('\x7b' :: (body ++ ['\x7d'])) ++ ['\x7d'])) :=
        solid_between (by decide) (by decide) (by decide) _
      simpa [Token.bareTemplate] using hbody.last
  | path => exact (solid_path (measures_path.whole h)).last
  | operator hmem =>
      have hmarks : operatorTexts.all (fun w => w.all "=<>+-*/%!&|".toList.contains) = true := by
        decide
      exact hclass _ (by decide) (List.all_eq_true.1 (List.all_eq_true.1 hmarks w hmem))
  | identifier hc hcs =>
      refine hclass (fun c => isNameStart c || isWord c) (by decide +kernel) ?_
      simpa [hc] using fun c hmem => .inr (hcs c hmem)
  | string hq =>
      have hquote := isBlank_of_class isQuote (by decide) hq
      exact (solid_between hquote (ne_of_class isQuote hq (by decide)) hquote _).last
  | number =>
      refine hclass isNumeric (by decide +kernel) fun c hc => ?_
      exact isNumeric_of_mem_number (measures_number.whole h) (by rwa [List.take_length])
  | leftParen => exact last_singleton (by decide)
  | rightParen => exact last_singleton (by decide)
  | comma => exact last_singleton (by decide)

/-- A token cannot reach into the blanks at the end of a text, as it does not end with one. -/
theorem Lexeme.exists_append_eq {before after : List Char} (h : Lexeme kind w)
    (he : w ++ cs = before ++ after) (hafter : ∀ c ∈ after, isBlank c = true) :
    ∃ between, before = w ++ between ∧ cs = between ++ after := by
  rcases List.append_eq_append_iff.1 he with hlater | ⟨between, rfl, rfl⟩
  · exact hlater
  · cases hbetween : between.getLast? with
    | none =>
        obtain rfl := List.getLast?_eq_none_iff.1 hbetween
        exact ⟨[], by simp, by simp⟩
    | some c =>
        have hlast := h.last c (by simp [hbetween])
        rw [hafter c (List.mem_append_left cs (List.mem_of_getLast? hbetween))] at hlast
        cases hlast

/-- The tokens of a text are its tokens without the blanks at its end. -/
theorem scansAlike_of_append {position : Nat} {core after : List Char}
    (h : scan position cs = .ok ts) (hcs : cs = core ++ after)
    (hafter : ∀ c ∈ after, isBlank c = true) : ScansAlike core ts := by
  induction h using scan_induction generalizing core after with
  | nil =>
      obtain ⟨rfl, -⟩ := List.append_eq_nil_iff.1 hcs.symm
      exact scansAlike_nil
  | blank hblank _ _ ih =>
      cases core with
      | nil =>
          rw [List.nil_append] at hcs
          subst hcs
          exact ih (List.nil_append _).symm fun c hc => hafter c (List.mem_cons_of_mem _ hc)
      | cons b core =>
          cases hcs
          exact (ih rfl hafter).blank hblank
  | @token position kind w _ _ hmatch _ _ ih =>
      obtain ⟨between, rfl, rfl⟩ := hmatch.lexeme.exists_append_eq hcs hafter
      have hcut : FirstMatch kind w (w ++ between) := by
        refine hmatch.of_prefix (List.prefix_append w between) ?_
        rw [← List.append_assoc]
        exact List.prefix_append (w ++ between) after
      exact (ih rfl hafter).token hmatch.ne_nil hcut.first?_eq position

theorem scansAlike_trim {text : String} (h : tokenize text = .ok ts) :
    ScansAlike (trim text.toList) ts := by
  obtain ⟨before, after, htext, hbefore, hafter⟩ := exists_trim text.toList
  rw [tokenize] at h
  generalize trim text.toList = core at htext ⊢
  rw [htext, ScansTo.blanks 0 hbefore (core ++ after)] at h
  cases hscan : scan (0 + byteLength before) (core ++ after) with
  | error e =>
      rw [hscan] at h
      cases h
  | ok us =>
      rw [hscan] at h
      cases h
      exact scansAlike_of_append hscan rfl hafter

end Token

namespace Expr

open Sluice.Text Sluice.Token

variable {text : String} {ts : List Token}

/-- What a text with tokens is read as, positions in the causes aside. -/
theorem parse_unplaced (h : tokenize text = .ok ts) :
    (parse text).mapError ParseError.unplaced =
      if ts = [] then .error .emptyExpression else ofTokens (ts.map unplaced) := by
  obtain ⟨us, hus, hsame⟩ := scansAlike_trim h 0
  by_cases hts : ts = []
  · subst hts
    obtain rfl : us = [] := by simpa using hsame
    have hempty : trim text.toList = [] := by
      cases htrim : trim text.toList with
      | nil => rfl
      | cons c cs =>
          have hblank := isBlank_of_scan_nil hus c (by simp [htrim])
          rw [head?_trim text.toList c (by simp [htrim])] at hblank
          cases hblank
    rw [parse, if_pos (by simp [String.isEmpty_iff, ← String.toList_inj, hempty]), if_pos rfl]
    rfl
  · have hne : trimmed text ≠ "" := by
      intro hempty
      rw [← toList_trimmed, hempty, String.toList_empty, scan] at hus
      cases hus
      exact hts (by simpa using hsame.symm)
    have hread : parse text = ofTokens us := by
      rw [parse, if_neg (by simpa [String.isEmpty_iff] using hne), tokenize, toList_trimmed, hus]
    rw [hread, if_neg hts, ← hsame]
    exact (ofTokens_moved _ us).symm

/-- A text with tokens and the texts of its tokens with spaces between them have tokens of the same
kinds and texts, and are read as the same expression, or refused for the same cause. -/
theorem parse_respaced (h : tokenize text = .ok ts) :
    (∃ us, tokenize (respaced ts) = .ok us ∧
      us.map (fun t => (t.kind, t.text)) = ts.map fun t => (t.kind, t.text)) ∧
    (parse (respaced ts)).mapError ParseError.unplaced =
      (parse text).mapError ParseError.unplaced := by
  obtain ⟨us, hus, hsame⟩ := scansAlike_respaced h 0
  have hrespaced : tokenize (respaced ts) = .ok us := hus
  constructor
  · have hpairs := congrArg (List.map fun t => (t.kind, t.text)) hsame
    rw [List.map_map, List.map_map] at hpairs
    exact ⟨us, hrespaced, hpairs⟩
  · have hempty : us = [] ↔ ts = [] := by
      rw [← List.map_eq_nil_iff, hsame, List.map_eq_nil_iff]
    simp only [parse_unplaced h, parse_unplaced hrespaced, hsame, hempty]

/-- A string that begins as a template does, before a template. -/
theorem parse_respaced_of_open_braces :
    tokenize "\"\x7b\x7ba\"+\x7b\x7bb\x7d\x7d" =
      .ok [⟨.string, "\"\x7b\x7ba\"", 0⟩, ⟨.operator, "+", 5⟩,
        ⟨.bareTemplate, "\x7b\x7bb\x7d\x7d", 6⟩] ∧
    (∃ us, tokenize "\"\x7b\x7ba\" + \x7b\x7bb\x7d\x7d" = .ok us ∧
      us.map (fun t => (t.kind, t.text)) = [(.string, "\"\x7b\x7ba\""), (.operator, "+"),
        (.bareTemplate, "\x7b\x7bb\x7d\x7d")]) ∧
    (parse "\"\x7b\x7ba\" + \x7b\x7bb\x7d\x7d").mapError ParseError.unplaced =
      (parse "\"\x7b\x7ba\"+\x7b\x7bb\x7d\x7d").mapError ParseError.unplaced := by
  have h : tokenize "\"\x7b\x7ba\"+\x7b\x7bb\x7d\x7d" =
      .ok [⟨.string, "\"\x7b\x7ba\"", 0⟩, ⟨.operator, "+", 5⟩,
        ⟨.bareTemplate, "\x7b\x7bb\x7d\x7d", 6⟩] := by
    decide +kernel
  exact ⟨h, parse_respaced h⟩

end Expr

end Sluice
