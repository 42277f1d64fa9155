import Sluice.Proofs.Tokenizing

/-!
# Escapes in string literals

The rule for string tokens reads their text in pieces: a character, or a backslash with the
character after it. The text that a token stands for is put together from what its pieces mean,
unless a pair of backslashes is followed by a quote of the other kind: of these the second
backslash is dropped, as if it shielded the quote.
-/
namespace Sluice.Text

/-- What is read at once: a character alone, or one with a backslash before it. -/
inductive Piece where
  | char (c : Char)
  | escaped (c : Char)
  deriving DecidableEq, Repr

namespace Piece

def chars : Piece → List Char
  | char c => [c]
  | escaped c => ['\\', c]

/-- An escaped quote means the quote. All else means itself. -/
def meaning : Piece → List Char
  | char c => [c]
  | escaped c => if isQuote c then [c] else ['\\', c]

/-- The pieces of a text, from left to right. -/
def split : List Char → List Piece
  | '\\' :: c :: rest => escaped c :: split rest
  | c :: rest => char c :: split rest
  | [] => []

theorem split_cons {c : Char} (h : c ≠ '\\') (rest : List Char) :
    split (c :: rest) = char c :: split rest := by
  rw [split]
  simp [h]

/-- Somewhere a pair of backslashes stands directly before a quote. -/
def HidesQuote (pieces : List Piece) : Prop :=
  ∃ c, isQuote c = true ∧ [escaped '\\', char c] <:+: pieces

theorem not_hidesQuote_nil : ¬ HidesQuote [] := by
  rintro ⟨c, -, h⟩
  simp at h

theorem hidesQuote_cons {piece : Piece} {pieces : List Piece} :
    HidesQuote (piece :: pieces) ↔
      (piece = escaped '\\' ∧ ∃ c, isQuote c = true ∧ pieces.head? = some (char c)) ∨
        HidesQuote pieces := by
  have hhead (c : Char) : [char c] <+: pieces ↔ pieces.head? = some (char c) := by
    cases pieces <;> simp [eq_comm]
  simp only [HidesQuote, List.infix_cons_iff, List.cons_prefix_cons, hhead]
  grind

/-- Nothing is lost in reading. -/
theorem flatMap_chars_split (cs : List Char) : (split cs).flatMap chars = cs := by
  fun_induction split cs <;> simp_all [chars]

theorem head?_split {c : Char} (h : isQuote c = true) (cs : List Char) :
    (split cs).head? = some (char c) ↔ cs.head? = some c := by
  have hslash : c ≠ '\\' := ne_of_class isQuote h (by decide)
  cases cs with
  | nil => simp [split]
  | cons d rest =>
      by_cases hd : d = '\\'
      · cases rest <;> simp [split, hd, Ne.symm hslash]
      · simp [split_cons hd]

/-- A quote stands first, and the piece before it is a pair of backslashes. -/
def HidesFirst (c : Char) (rest : List Char) : Prop :=
  c = '\\' ∧ ∃ d, isQuote d = true ∧ rest.head? = some d

theorem hidesQuote_escaped {c : Char} {rest : List Char} :
    HidesQuote (escaped c :: split rest) ↔ HidesFirst c rest ∨ HidesQuote (split rest) := by
  rw [hidesQuote_cons]
  refine or_congr_left (and_congr (by simp) (exists_congr fun d => ?_))
  exact and_congr_right fun hd => head?_split hd rest

theorem hidesQuote_char {c : Char} {pieces : List Piece} :
    HidesQuote (char c :: pieces) ↔ HidesQuote pieces := by
  simp [hidesQuote_cons]

end Piece

open Piece

theorem unescapeQuotes_hidden {rest : List Char} (h : HidesFirst '\\' rest) :
    unescapeQuotes ('\\' :: '\\' :: rest) = '\\' :: unescapeQuotes rest := by
  obtain ⟨-, d, hd, hhead⟩ := h
  obtain ⟨tail, rfl⟩ := List.head?_eq_some_iff.1 hhead
  rw [unescapeQuotes_slash (by simp [isQuote]), unescapeQuotes_slash_quote hd]

theorem unescapeQuotes_escaped {c : Char} {rest : List Char} (h : ¬ HidesFirst c rest) :
    unescapeQuotes ('\\' :: c :: rest) = (escaped c).meaning ++ unescapeQuotes rest := by
  by_cases hquote : isQuote c = true
  · have hslash : c ≠ '\\' := ne_of_class isQuote hquote (by decide)
    rw [unescapeQuotes_slash_quote hquote, unescapeQuotes_cons hslash, meaning, if_pos hquote]
    rfl
  · have hfirst : unescapeQuotes (c :: rest) = c :: unescapeQuotes rest := by
      by_cases hslash : c = '\\'
      · subst hslash
        refine unescapeQuotes_slash fun d hd => ?_
        by_contra hquoted
        exact h ⟨rfl, d, by simpa using hquoted, hd⟩
      · exact unescapeQuotes_cons hslash rest
    rw [unescapeQuotes_slash (by simpa using hquote), hfirst, meaning, if_neg hquote]
    rfl

/-- A character that is a piece of its own: if it is a backslash, nothing follows it. -/
theorem unescapeQuotes_char {c : Char} {rest : List Char}
    (h : ∀ d tail, c = '\\' → rest = d :: tail → False) :
    unescapeQuotes (c :: rest) = c :: unescapeQuotes rest := by
  by_cases hslash : c = '\\'
  · cases rest with
    | nil => rw [hslash]; rfl
    | cons d tail => exact (h d tail hslash rfl).elim
  · exact unescapeQuotes_cons hslash rest

/-- At most backslashes are missing from what the pieces mean. -/
theorem unescapeQuotes_sublist (cs : List Char) :
    (unescapeQuotes cs).Sublist ((split cs).flatMap meaning) := by
  fun_induction split cs with
  | case1 c rest ih =>
      rw [List.flatMap_cons]
      by_cases h : HidesFirst c rest
      · obtain rfl := h.1
        rw [unescapeQuotes_hidden h]
        exact (ih.cons _).cons_cons _
      · rw [unescapeQuotes_escaped h]
        exact ih.append_left _
  | case2 c rest hlone ih =>
      rw [unescapeQuotes_char hlone]
      exact ih.cons_cons c
  | case3 => exact List.Sublist.refl _

/-- Quotes that stand behind a pair of backslashes are all that is read differently. -/
theorem unescapeQuotes_eq_iff (cs : List Char) :
    unescapeQuotes cs = (split cs).flatMap meaning ↔ ¬ HidesQuote (split cs) := by
  fun_induction split cs with
  | case1 c rest ih =>
      rw [List.flatMap_cons, hidesQuote_escaped]
      by_cases h : HidesFirst c rest
      · obtain rfl := h.1
        have hne : unescapeQuotes rest ≠ '\\' :: (split rest).flatMap meaning := by
          intro he
          have hlength := (unescapeQuotes_sublist rest).length_le
          rw [he, List.length_cons] at hlength
          omega
        rw [unescapeQuotes_hidden h]
        simpa [meaning, isQuote, h] using hne
      · rw [unescapeQuotes_escaped h, List.append_right_inj, ih]
        simp [h]
  | case2 c rest hlone ih =>
      rw [unescapeQuotes_char hlone, List.flatMap_cons, hidesQuote_char, ← ih]
      simp [meaning]
  | case3 => simpa [unescapeQuotes] using not_hidesQuote_nil

end Sluice.Text

namespace Sluice.Token

open Text

/-- A string token is a quote, a body and the same quote; unquoting it reads the body in the
pieces in which the rule for string tokens reads it, and puts together what they mean, exactly
if no pair of backslashes in it stands directly before a quote. In any case nothing but
backslashes is missing from what the pieces mean. -/
theorem unquote_eq_meaning_iff {text : String} {ts : List Token} {t : Token}
    (h : tokenize text = .ok ts) (ht : t ∈ ts) (hkind : t.kind = .string) :
    ∃ q body, isQuote q = true ∧ StringBody q body ∧ t.text.toList = q :: (body ++ [q]) ∧
      (Piece.split body).flatMap Piece.chars = body ∧
      (unquote t.text.toList).Sublist ((Piece.split body).flatMap Piece.meaning) ∧
      (unquote t.text.toList = (Piece.split body).flatMap Piece.meaning ↔
        ∀ c, isQuote c = true → ¬ [.escaped '\\', .char c] <:+: Piece.split body) := by
  obtain ⟨before, after, -, -, hmatch⟩ := (tokenizes_of_scan h).lexemes t ht
  have hlexeme := hmatch.lexeme
  rw [hkind] at hlexeme
  generalize hcs : t.text.toList = cs at hlexeme
  cases hlexeme with
  | @string q body hq hbody =>
      have hunquote : unquote (q :: (body ++ [q])) = unescapeQuotes body := by
        rw [unquote, stripQuotes_quoted q body hq]
      refine ⟨q, body, hq, hbody, rfl, Piece.flatMap_chars_split body, ?_, ?_⟩
      · rw [hunquote]
        exact unescapeQuotes_sublist body
      · rw [hunquote, unescapeQuotes_eq_iff]
        simp [Piece.HidesQuote]

/-- Backslashes in pairs before an escaped quote, before another pair and at the end. -/
theorem unquote_eq_meaning_iff_of_pairs :
    tokenize "'\\\\\\\\\\'\\d\\\\'" = .ok [⟨.string, "'\\\\\\\\\\'\\d\\\\'", 0⟩] ∧
    ∃ q body, "'\\\\\\\\\\'\\d\\\\'".toList = q :: (body ++ [q]) ∧
      unquote "'\\\\\\\\\\'\\d\\\\'".toList = (Piece.split body).flatMap Piece.meaning := by
  have h : tokenize "'\\\\\\\\\\'\\d\\\\'" = .ok [⟨.string, "'\\\\\\\\\\'\\d\\\\'", 0⟩] := by
    decide +kernel
  obtain ⟨q, body, -, -, htext, -, -, hiff⟩ :=
    unquote_eq_meaning_iff h (List.mem_singleton_self _) rfl
  refine ⟨h, q, body, htext, hiff.2 fun c hc hinfix => ?_⟩
  obtain ⟨rfl, hend⟩ := List.cons.inj htext
  have hbody : ['\\', '\\', '\\', '\\', '\\', '\'', '\\', 'd', '\\', '\\'] ++ ['\''] =
      body ++ ['\''] := hend
  obtain rfl := List.append_cancel_right hbody
  have hbare : Piece.char c ∈ Piece.split
      ['\\', '\\', '\\', '\\', '\\', '\'', '\\', 'd', '\\', '\\'] :=
    hinfix.subset (by simp)
  simp [Piece.split] at hbare

/-- In double quotes, a pair of backslashes and a single quote: the quote is taken for an
escaped one. -/
theorem not_forall_unquote_eq_meaning :
    ¬ ∀ (text : String) (ts : List Token) (t : Token) (q : Char) (body : List Char),
      tokenize text = .ok ts → t ∈ ts → t.kind = .string → t.text.toList = q :: (body ++ [q]) →
      unquote t.text.toList = (Piece.split body).flatMap Piece.meaning := by
  intro h
  have htokens : tokenize "\"\\\\'\"" = .ok [⟨.string, "\"\\\\'\"", 0⟩] := by
    decide +kernel
  have hmeaning := h _ _ ⟨.string, "\"\\\\'\"", 0⟩ '"' ['\\', '\\', '\''] htokens (by simp) rfl rfl
  exact absurd hmeaning (by decide)

end Sluice.Token
