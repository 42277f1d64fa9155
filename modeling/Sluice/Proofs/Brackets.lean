import Sluice.Path.Reader
import Sluice.Proofs.Blanks
import Sluice.Proofs.Digits

/-!
# What stands in brackets

A bracket segment of a path ends at the first closing bracket outside of quotes. So a text can
stand in brackets exactly if its quotes are closed and its closing brackets are inside of them.
What it stands for is settled by its form, and the texts that are written for steps have the
form of these steps.
-/
namespace Sluice.Path

open Sluice.Text

variable {c q : Char} {cs body inner rest : List Char}

/-- A text with its quotes closed, and with closing brackets inside of quotes only. -/
inductive BracketBody : List Char → Prop where
  | nil : BracketBody []
  | char {c : Char} {cs : List Char} (hquote : isQuote c = false) (hclose : c ≠ ']')
      (others : BracketBody cs) : BracketBody (c :: cs)
  | quoted {q : Char} {body cs : List Char} (hq : isQuote q = true) (hbody : q ∉ body)
      (others : BracketBody cs) : BracketBody (q :: (body ++ q :: cs))

/-! ## Where a bracket ends -/

theorem readBracket_quoted (h : q ∉ body) (cs : List Char) :
    readBracket (some q) (body ++ q :: cs) =
      (readBracket none cs).map fun p => (body ++ q :: p.1, p.2) := by
  induction body with
  | nil =>
      rw [List.nil_append, readBracket, if_pos rfl]
      rfl
  | cons c body ih =>
      simp only [List.mem_cons, not_or] at h
      rw [List.cons_append, readBracket, if_neg (Ne.symm h.1), ih h.2, Option.map_map]
      rfl

/-- A text that can stand in brackets is read up to the bracket that closes them. -/
theorem BracketBody.readBracket_append (h : BracketBody cs) (rest : List Char) :
    readBracket none (cs ++ ']' :: rest) = some (cs, rest) := by
  induction h with
  | nil => simp [readBracket]
  | char hquote hclose _ ih =>
      simp [readBracket, hquote, hclose, ih, readBracket.cons]
  | @quoted q body cs hq hbody _ ih =>
      have hclose : q ≠ ']' := ne_of_class isQuote hq (by decide)
      have hread := readBracket_quoted hbody (cs ++ ']' :: rest)
      rw [ih] at hread
      simp [readBracket, hq, hclose, hread, readBracket.cons]

/-- The same of a text that begins inside of a quoted text. -/
def BracketTail : Option Char → List Char → Prop
  | none, cs => BracketBody cs
  | some q, cs => ∃ body tail, q ∉ body ∧ cs = body ++ q :: tail ∧ BracketBody tail

theorem exists_of_readBracket {quote : Option Char}
    (h : readBracket quote cs = some (inner, rest)) :
    cs = inner ++ ']' :: rest ∧ BracketTail quote inner := by
  induction cs generalizing quote inner with
  | nil => simp [readBracket] at h
  | cons c cs ih =>
      simp only [readBracket] at h
      cases quote with
      | some q =>
          obtain ⟨⟨inner, rest⟩, hread, he⟩ := Option.map_eq_some_iff.1 h
          cases he
          obtain ⟨rfl, hbody⟩ := ih hread
          refine ⟨rfl, ?_⟩
          by_cases hc : c = q
          · rw [if_pos hc] at hbody
            exact ⟨[], inner, List.not_mem_nil, by rw [hc, List.nil_append], hbody⟩
          · rw [if_neg hc] at hbody
            obtain ⟨body, tail, hq, rfl, htail⟩ := hbody
            exact ⟨c :: body, tail, by simp [Ne.symm hc, hq], rfl, htail⟩
      | none =>
          simp only at h
          split at h
          · next hc =>
              cases h
              exact ⟨by rw [hc, List.nil_append], .nil⟩
          · next hclose =>
              obtain ⟨⟨inner, rest⟩, hread, he⟩ := Option.map_eq_some_iff.1 h
              cases he
              obtain ⟨rfl, hbody⟩ := ih hread
              refine ⟨rfl, ?_⟩
              by_cases hquote : isQuote c = true
              · rw [if_pos hquote] at hbody
                obtain ⟨body, tail, hq, rfl, htail⟩ := hbody
                exact .quoted hquote hq htail
              · rw [if_neg hquote] at hbody
                exact .char (by simpa using hquote) hclose hbody

/-- The quoted form of a name can stand in brackets if no single quote is in the name. -/
theorem BracketBody.quotedName (h : '\'' ∉ body) : BracketBody ('\'' :: (body ++ ['\''])) :=
  .quoted (by decide) h .nil

theorem BracketBody.of_forall (h : ∀ c ∈ cs, isQuote c = false ∧ c ≠ ']') : BracketBody cs := by
  induction cs with
  | nil => exact .nil
  | cons c cs ih =>
      obtain ⟨hquote, hclose⟩ := h c List.mem_cons_self
      exact .char hquote hclose (ih fun c hc => h c (List.mem_cons_of_mem _ hc))

/-! ## What a text in brackets stands for -/

/-- An integer that a bound of a slice can be. -/
def IsBound (n : Int) : Prop :=
  -(Nat.pow 2 63) ≤ n ∧ n < Nat.pow 2 63

/-- The steps that are made of texts in brackets. -/
def Step.IsBracketed : Step → Prop
  | root | property _ => False
  | index n => n ≤ maxIndex
  | key _ | wildcard => True
  | slice start stop => IsBound start ∧ ∀ n ∈ stop, IsBound n

/-- What is written between the brackets of a step. -/
def Step.inside : Step → List Char
  | root | property _ => []
  | index n => natDigits n
  | key name => '\'' :: (name.toList ++ ['\''])
  | wildcard => ['*']
  | slice start none => intDigits start ++ [':']
  | slice start (some stop) => intDigits start ++ ':' :: intDigits stop

theorem Step.IsBracketed.chars_eq {step : Step} (h : step.IsBracketed) :
    step.chars = '[' :: (step.inside ++ [']']) := by
  match step with
  | root | property _ => cases h
  | index _ | wildcard => rfl
  | key _ => simp [chars, inside]
  | slice _ none => simp [chars, inside]
  | slice _ (some _) => simp [chars, inside]

/-- A character of a number that is written. -/
def isDigitOrMinus (c : Char) : Bool :=
  c == '-' || isAsciiDigit c

theorem isDigitOrMinus_of_mem_intDigits {n : Int} (h : c ∈ intDigits n) :
    isDigitOrMinus c = true := by
  rcases eq_of_mem_intDigits h with rfl | hc
  · rfl
  · simp [isDigitOrMinus, hc]

theorem isBlank_of_isDigitOrMinus (h : isDigitOrMinus c = true) : isBlank c = false :=
  isBlank_of_class isDigitOrMinus (by decide) h

theorem isQuote_of_isDigitOrMinus (h : isDigitOrMinus c = true) : isQuote c = false := by
  have hquotes : c ∉ ['\'', '"'] := not_mem_of_class isDigitOrMinus (by decide) h
  simpa [isQuote] using hquotes

theorem trim_intDigits (n : Int) : trim (intDigits n) = intDigits n :=
  trim_eq_self_of_forall fun _ hc => isBlank_of_isDigitOrMinus (isDigitOrMinus_of_mem_intDigits hc)

theorem sliceBound_intDigits {n : Int} (h : IsBound n) :
    sliceBound (intDigits n) = .ok (some n) := by
  have hne : (intDigits n).isEmpty = false := by simpa using intDigits_ne_nil n
  simp only [sliceBound, trim_intDigits, hne, readInt_intDigits, Bool.false_eq_true, if_false]
  exact if_pos h

theorem isBound_of_sliceBound {bound : Option Int} (h : sliceBound cs = .ok bound) :
    ∀ n ∈ bound, IsBound n := by
  simp only [sliceBound] at h
  split at h
  · cases h
    simp
  · split at h
    · split at h
      · next hbound =>
          cases h
          rintro n ⟨⟩
          exact hbound
      · cases h
    · cases h

/-- A text without blanks at its ends that is neither empty nor quoted, nor a star. -/
structure IsBare (cs : List Char) : Prop where
  trimmed : trim cs = cs
  ne_nil : cs ≠ []
  ne_star : cs ≠ ['*']
  unquoted : stripQuotes cs = cs

theorem IsBare.classify_eq (h : IsBare cs) :
    classify cs =
      match cutAt ':' cs with
      | some (start, stop) =>
          match sliceBound start with
          | .error e => .error e
          | .ok start =>
              match sliceBound stop with
              | .error e => .error e
              | .ok stop => .ok (.slice (start.getD 0) stop)
      | none =>
          if cs.all isAsciiDigit then
            if digitsValue cs ≤ maxIndex then .ok (.index (digitsValue cs))
            else .error .indexOutOfRange
          else .ok (.key (String.ofList cs)) := by
  have hempty : cs.isEmpty = false := by simpa using h.ne_nil
  have hclassify := classify.eq_1 cs
  simp only [h.trimmed, h.unquoted, hempty, h.ne_star, ne_eq, not_true_eq_false,
    Bool.false_eq_true, if_false] at hclassify
  exact hclassify

theorem IsBare.classify_slice {start stop : List Char} {m n : Option Int} (h : IsBare cs)
    (hcut : cutAt ':' cs = some (start, stop)) (hstart : sliceBound start = .ok m)
    (hstop : sliceBound stop = .ok n) : classify cs = .ok (.slice (m.getD 0) n) := by
  simp only [h.classify_eq, hcut, hstart, hstop]

theorem IsBare.classify_index (h : IsBare cs) (hcut : cutAt ':' cs = none)
    (hdigits : cs.all isAsciiDigit = true) (hmax : digitsValue cs ≤ maxIndex) :
    classify cs = .ok (.index (digitsValue cs)) := by
  simp only [h.classify_eq, hcut, hdigits, if_true, if_pos hmax]

/-- A text that begins with an integer and ends with a character of one or with a colon. -/
theorem isBare_intDigits_append {n : Int} (hlast : ∀ c ∈ cs.getLast?, isBlank c = false) :
    IsBare (intDigits n ++ cs) := by
  obtain ⟨c, digits, hn⟩ := List.exists_cons_of_ne_nil (intDigits_ne_nil n)
  have hall (c : Char) (hc : c ∈ intDigits n) := isDigitOrMinus_of_mem_intDigits hc
  have hc := hall c (hn ▸ List.mem_cons_self)
  refine ⟨trim_eq_self ?_ ?_, ?_, ?_, ?_⟩
  · simpa [hn] using isBlank_of_isDigitOrMinus hc
  · exact last_append (fun c hc => isBlank_of_isDigitOrMinus (hall c (List.mem_of_getLast? hc))) hlast
  · simp [hn]
  · rw [hn, List.cons_append, ne_eq, List.cons.injEq, not_and]
    rintro rfl
    exact absurd hc (by decide)
  · rw [hn, List.cons_append]
    exact stripQuotes_of_not_quote c _ (isQuote_of_isDigitOrMinus hc)

theorem classify_quoted (hq : isQuote q = true) (name : List Char) :
    classify (q :: (name ++ [q])) = .ok (.key (String.ofList name)) := by
  have hblank : isBlank q = false := isBlank_of_class isQuote (by decide) hq
  have htrim : trim (q :: (name ++ [q])) = q :: (name ++ [q]) :=
    trim_eq_self (by simpa using hblank) (by simpa [List.getLast?_cons] using hblank)
  have hlength : name.length ≠ (q :: (name ++ [q])).length := by
    simp only [List.length_cons, List.length_append]
    omega
  unfold classify
  simp only [htrim, stripQuotes_quoted q name hq]
  rw [if_neg (by simp), if_neg (by simp), if_pos hlength]

/-- What is written between the brackets of a step stands for the step. -/
theorem Step.IsBracketed.classify_inside {step : Step} (h : step.IsBracketed) :
    classify step.inside = .ok step := by
  have hcolon (n : Int) : ':' ∉ intDigits n := fun hmem =>
    absurd (isDigitOrMinus_of_mem_intDigits hmem) (by decide)
  match step with
  | root | property _ => cases h
  | index n =>
      have hdigits : natDigits n = intDigits n := by simp [intDigits]
      have hbare : IsBare (intDigits n ++ []) := isBare_intDigits_append (by simp)
      rw [List.append_nil, ← hdigits] at hbare
      have hcut : cutAt ':' (natDigits n) = none := cutAt_eq_none (hdigits ▸ hcolon n)
      rw [inside, hbare.classify_index hcut (all_natDigits n)
        (by rwa [digitsValue_natDigits]), digitsValue_natDigits]
  | key name => rw [inside, classify_quoted (by decide), String.ofList_toList]
  | wildcard => decide
  | slice start none =>
      have hbare : IsBare (intDigits start ++ [':']) :=
        isBare_intDigits_append (by simpa using (by decide : isBlank ':' = false))
      exact hbare.classify_slice (cutAt_append (hcolon start) []) (sliceBound_intDigits h.1) rfl
  | slice start (some stop) =>
      have hlast : ∀ c ∈ (':' :: intDigits stop).getLast?, isBlank c = false := by
        intro c hc
        rcases List.mem_cons.1 (List.mem_of_getLast? hc) with rfl | hc
        · decide
        · exact isBlank_of_isDigitOrMinus (isDigitOrMinus_of_mem_intDigits hc)
      exact (isBare_intDigits_append hlast).classify_slice (cutAt_append (hcolon start) _)
        (sliceBound_intDigits h.1) (sliceBound_intDigits (h.2 stop rfl))

/-- A text in brackets stands for a step that is made of such texts. -/
theorem isBracketed_of_classify {step : Step} (h : classify inner = .ok step) :
    step.IsBracketed := by
  simp only [classify] at h
  split at h
  · cases h
  · split at h
    · cases h
      trivial
    · split at h
      · cases h
        trivial
      · split at h
        · split at h
          · cases h
          · next start hstart =>
              split at h
              · cases h
              · next hstop =>
                  cases h
                  refine ⟨?_, isBound_of_sliceBound hstop⟩
                  cases start with
                  | none => exact (by decide : -(Nat.pow 2 63 : Int) ≤ 0 ∧ (0 : Int) < Nat.pow 2 63)
                  | some n => exact isBound_of_sliceBound hstart n rfl
        · split at h
          · split at h
            · next hmax =>
                cases h
                exact hmax
            · cases h
          · cases h
            trivial

/-- A text in brackets that stands for a key is the key, with quotes around it or without. -/
theorem trim_of_classify_key {name : String} (h : classify inner = .ok (.key name)) :
    trim inner = name.toList ∨
      ∃ q, isQuote q = true ∧ trim inner = q :: (name.toList ++ [q]) := by
  simp only [classify] at h
  split at h
  · cases h
  · split at h
    · cases h
    · split at h
      · next hlength =>
          cases h
          rw [String.toList_ofList]
          rcases eq_or_eq_of_stripQuotes (trim inner) with he | hquoted
          · exact absurd (congrArg List.length he) hlength
          · exact .inr hquoted
      · split at h
        · split at h
          · cases h
          · split at h <;> cases h
        · split at h
          · split at h <;> cases h
          · cases h
            exact .inl (String.toList_ofList).symm

/-! ## Keys that are read back -/

theorem count_of_classify_key {name : String} (h : classify inner = .ok (.key name)) :
    inner.count ']' = name.toList.count ']' := by
  rw [← count_trim (by decide : isBlank ']' = false) inner]
  rcases trim_of_classify_key h with he | ⟨q, hq, he⟩
  · rw [he]
  · have hne : q ≠ ']' := ne_of_class isQuote hq (by decide)
    simp [he, hne]

/-- If the quoted form of a name is read as the key of this name, it can stand in brackets: were
the bracket to end elsewhere, other closing brackets would be in the key. -/
theorem bracketBody_of_read {name : String} {tail : List Char}
    (hread : readBracket none ('\'' :: (name.toList ++ ['\'']) ++ ']' :: tail) =
      some (inner, rest)) (hkey : classify inner = .ok (.key name)) :
    BracketBody ('\'' :: (name.toList ++ ['\''])) := by
  obtain ⟨he, hbody⟩ := exists_of_readBracket hread
  have hcount : inner.count ']' = ('\'' :: (name.toList ++ ['\''])).count ']' := by
    simp [count_of_classify_key hkey]
  suffices hinner : inner = '\'' :: (name.toList ++ ['\'']) from hinner ▸ hbody
  rcases List.append_eq_append_iff.1 he with ⟨more, hinner, hmore⟩ | ⟨more, hquoted, hmore⟩
  · cases more with
    | nil => rw [hinner, List.append_nil]
    | cons c more =>
        obtain ⟨rfl, -⟩ := List.cons.inj hmore
        rw [hinner] at hcount
        simp at hcount
  · cases more with
    | nil => rw [hquoted, List.append_nil]
    | cons c more =>
        obtain ⟨rfl, -⟩ := List.cons.inj hmore
        rw [hquoted] at hcount
        simp at hcount

end Sluice.Path
