import Sluice.Proofs.PathTexts
import Sluice.Proofs.Printing

/-!
# Paths by their segments

The scanner takes a text for a path if it is a dollar sign and segments: names with a point before
them or without, stars after a point, and brackets. The reader of paths knows nothing of segments,
it goes through the text character by character. The two agree: each segment is one step, and the
path is refused if and only if one of its segments stands for no step. The one exception is a name
directly after a star, which the reader does not tell from the star.
-/
namespace Sluice.Path

open Sluice.Text

variable {c : Char} {cs tail body start stop : List Char} {step : Step} {fault : PathFault}

/-- A segment of a path text. -/
inductive Segment where
  | property (name : List Char)
  | word (name : List Char)
  | star
  | quoted (quote : Char) (key : List Char)
  | bare (inner : List Char)
  deriving DecidableEq, Repr

namespace Segment

def chars : Segment → List Char
  | property name => '.' :: name
  | word name => name
  | star => ['.', '*']
  | quoted quote key => '[' :: quote :: (key ++ [quote, ']'])
  | bare inner => '[' :: (inner ++ [']'])

/-- The segment with a text. -/
def ofChars : List Char → Segment
  | ['.', '*'] => star
  | '.' :: name => property name
  | '[' :: rest =>
      match rest.dropLast with
      | [] => bare []
      | c :: inner => if isQuote c then quoted c inner.dropLast else bare (c :: inner)
  | name => word name

/-- The parts of the segment are what the rule of paths allows. -/
def Fits : Segment → Prop
  | property name | word name => name ≠ [] ∧ ∀ c ∈ name, isWord c = true
  | star => True
  | quoted quote key => isQuote quote = true ∧ quote ∉ key
  | bare inner => ∀ c ∈ inner, c ≠ ']' ∧ isQuote c = false

def EndsInName : Segment → Prop
  | property _ | word _ => True
  | _ => False

end Segment

/-- A text cut into segments, where no name could be longer. -/
inductive Segmentation : List Segment → List Char → Prop where
  | nil : Segmentation [] []
  | cons {s : Segment} {segs : List Segment} {cs : List Char} (fits : s.Fits)
      (maximal : s.EndsInName → ∀ c ∈ cs.head?, isWord c = false)
      (others : Segmentation segs cs) : Segmentation (s :: segs) (s.chars ++ cs)

/-! ## Segments and the rule of paths -/

namespace Segment

variable {s t : Segment} {n : Nat}

theorem segmentLength_chars (hs : s.Fits)
    (hmax : s.EndsInName → ∀ c ∈ tail.head?, isWord c = false) :
    Token.segmentLength (s.chars ++ tail) = some s.chars.length := by
  cases s with
  | property name => exact Token.segmentLength_property hs.2 hs.1 (hmax trivial)
  | word name => exact Token.segmentLength_word hs.2 hs.1 (hmax trivial)
  | star => rfl
  | quoted quote key =>
      have hlength := Token.bracketLength_quoted hs.1 hs.2 tail
      simp [chars, Token.segmentLength, hlength]
  | bare inner =>
      have hlength := Token.bracketLength_bare hs tail
      simp [chars, Token.segmentLength, hlength]

/-- What the rule finds at the start of a text is a segment. -/
theorem exists_of_segmentLength (h : Token.segmentLength cs = some n) :
    ∃ (s : Segment) (tail : List Char), cs = s.chars ++ tail ∧ s.chars.length = n ∧ s.Fits ∧
      (s.EndsInName → ∀ c ∈ tail.head?, isWord c = false) := by
  revert h
  fun_cases Token.segmentLength cs with
  | case1 rest =>
      rintro ⟨⟩
      exact ⟨star, rest, rfl, rfl, trivial, False.elim⟩
  | case2 rest =>
      intro h
      obtain ⟨m, hm, rfl⟩ := Option.map_eq_some_iff.1 h
      obtain ⟨name, tail, rfl, rfl, hne, hname, htail⟩ := Token.exists_of_someRun hm
      exact ⟨property name, tail, rfl, rfl, ⟨hne, hname⟩, fun _ => htail⟩
  | case3 rest =>
      intro h
      obtain ⟨m, hm, rfl⟩ := Option.map_eq_some_iff.1 h
      rcases Token.exists_of_bracketLength hm with ⟨q, key, tail, hq, hkey, rfl, rfl⟩ |
        ⟨inner, tail, hinner, rfl, rfl⟩
      · exact ⟨quoted q key, tail, by simp [chars], by simp [chars], ⟨hq, hkey⟩, False.elim⟩
      · exact ⟨bare inner, tail, by simp [chars], by simp [chars], hinner, False.elim⟩
  | case4 =>
      intro h
      obtain ⟨name, tail, rfl, rfl, hne, hname, htail⟩ := Token.exists_of_someRun h
      exact ⟨word name, tail, rfl, rfl, ⟨hne, hname⟩, fun _ => htail⟩

theorem chars_ne_nil (hs : s.Fits) : s.chars ≠ [] := by
  cases s with
  | word name => exact hs.1
  | _ => exact List.cons_ne_nil _ _

/-- A segment is known by its text. -/
theorem ofChars_chars (hs : s.Fits) : ofChars s.chars = s := by
  cases s with
  | star => rfl
  | property name =>
      obtain ⟨c, name, rfl⟩ := List.exists_cons_of_ne_nil hs.1
      have hc : c ≠ '*' := ne_of_class isWord (hs.2 c List.mem_cons_self) (by decide)
      simp [chars, ofChars, hc]
  | word name =>
      obtain ⟨c, name, rfl⟩ := List.exists_cons_of_ne_nil hs.1
      have hpoint : c ≠ '.' := ne_of_class isWord (hs.2 c List.mem_cons_self) (by decide)
      have hopen : c ≠ '[' := ne_of_class isWord (hs.2 c List.mem_cons_self) (by decide)
      simp [chars, ofChars, hpoint, hopen]
  | quoted quote key =>
      have hlast : ((quote :: (key ++ [quote])) ++ [']']).dropLast = quote :: (key ++ [quote]) :=
        List.dropLast_concat
      have hchars : (quoted quote key).chars = '[' :: ((quote :: (key ++ [quote])) ++ [']']) := by
        simp [chars]
      simp only [hchars, ofChars, hlast, hs.1, if_true, List.dropLast_concat]
  | bare inner =>
      cases inner with
      | nil => rfl
      | cons c inner =>
          have hc : isQuote c = false := (hs c List.mem_cons_self).2
          have hlast : ((c :: inner) ++ [']']).dropLast = c :: inner := List.dropLast_concat
          simp only [chars, ofChars, hlast, hc, Bool.false_eq_true, if_false]

end Segment

/-! ## Cutting into segments -/

section Cutting

variable {segs others : List Segment}

/-- A text that the rule of paths goes through to its end is cut into segments. -/
theorem exists_segmentation (h : Token.segmentsLength cs = cs.length) :
    ∃ segs, Segmentation segs cs := by
  fun_induction Token.segments cs with
  | case1 => exact ⟨[], .nil⟩
  | case2 c rest n hn ih =>
      have hlength := Token.segmentLength_le hn
      have hmore : Token.segmentsLength (rest.drop n) = (rest.drop n).length := by
        rw [Token.segmentsLength, hn] at h
        simp only [List.length_cons, List.length_drop] at h hlength ⊢
        omega
      obtain ⟨segs, hsegs⟩ := ih hmore
      obtain ⟨s, tail, hcs, hs, hfits, hmax⟩ := Segment.exists_of_segmentLength hn
      have htail : rest.drop n = tail := by
        have hdrop := congrArg (List.drop (n + 1)) hcs
        rwa [List.drop_succ_cons, List.drop_left' hs] at hdrop
      rw [htail] at hsegs
      exact ⟨s :: segs, hcs ▸ .cons hfits hmax hsegs⟩
  | case3 c rest hnone =>
      rw [Token.segmentsLength] at h
      split at h
      · next n hn => exact absurd hn (hnone n)
      · cases h

/-- The rule of paths finds the same segments. -/
theorem Segmentation.segments_eq (h : Segmentation segs cs) :
    Token.segments cs = segs.map Segment.chars := by
  induction h with
  | nil => rw [Token.segments, List.map_nil]
  | @cons s segs cs hfits hmax _ ih =>
      have hlength := Segment.segmentLength_chars hfits hmax
      obtain ⟨c, rest, hs⟩ := List.exists_cons_of_ne_nil (Segment.chars_ne_nil hfits)
      rw [hs, List.cons_append] at hlength
      rw [List.map_cons, hs, List.cons_append, Token.segments, hlength]
      simp only [List.length_cons, List.take_left, List.drop_left, ih]

theorem Segmentation.eq_map_ofChars (h : Segmentation segs cs) :
    segs = (Token.segments cs).map Segment.ofChars := by
  rw [h.segments_eq]
  induction h with
  | nil => rfl
  | cons hfits _ _ ih => rw [List.map_cons, List.map_cons, Segment.ofChars_chars hfits, ← ih]

/-- There is one way to cut a text. -/
theorem Segmentation.unique (h : Segmentation segs cs) (h' : Segmentation others cs) :
    others = segs := by
  rw [h'.eq_map_ofChars, h.eq_map_ofChars]

theorem Segmentation.fits (h : Segmentation segs cs) : ∀ s ∈ segs, s.Fits := by
  induction h with
  | nil => simp
  | cons hfits _ _ ih => exact List.forall_mem_cons.2 ⟨hfits, ih⟩

/-- Where no name goes on, a segment begins with a point or a bracket. -/
theorem Segmentation.endsWord (h : Segmentation segs cs)
    (hname : ∀ c ∈ cs.head?, isWord c = false) : EndsWord cs := by
  cases h with
  | nil => simp [EndsWord]
  | @cons s segs cs hfits _ _ =>
      cases s with
      | word name =>
          obtain ⟨c, name, rfl⟩ := List.exists_cons_of_ne_nil hfits.1
          have hc := hname c rfl
          rw [hfits.2 c List.mem_cons_self] at hc
          cases hc
      | property _ | star => exact fun c hc => .inl (by simpa [Segment.chars, eq_comm] using hc)
      | quoted _ _ | bare _ => exact fun c hc => .inr (by simpa [Segment.chars, eq_comm] using hc)

end Cutting

/-! ## The step of a segment -/

namespace Segment

variable {s : Segment}

/-- What the reader makes of a segment. -/
def read : Segment → Except PathFault Step
  | property name | word name => .ok (.property (String.ofList name))
  | star => .ok .wildcard
  | quoted _ key => .ok (.key (String.ofList key))
  | bare inner => classify inner

/-- The reader reads the first segment, and what comes after it by itself. -/
theorem stepsFrom_segment (hs : s.Fits) (hends : s.EndsInName ∨ s = star → EndsWord tail) :
    stepsFrom [] (s.chars ++ tail) =
      match s.read with
      | .error e => .error e
      | .ok step => (stepsFrom [] tail).map (step :: ·) := by
  have hname {name : List Char} (h : name ≠ [] ∧ ∀ c ∈ name, isWord c = true) :=
    isPropertyName_of_isWord h.1 h.2
  cases s with
  | property name =>
      have hread := (hname hs).stepsFrom_append (hends (.inl trivial))
      exact (stepsFrom_nil_point _).trans hread
  | word name => exact (hname hs).stepsFrom_append (hends (.inl trivial))
  | star =>
      have hstar : ∀ c ∈ ['*'], c ≠ '.' ∧ c ≠ '[' ∧ c ≠ ']' :=
        List.forall_mem_singleton.2 (by decide)
      have hword : wordSteps ['*'] = [.wildcard] := by decide
      refine (stepsFrom_nil_point _).trans ((stepsFrom_word hstar [] tail).trans ?_)
      rw [List.nil_append, stepsFrom_of_endsWord (hends (.inr rfl)), hword]
      rfl
  | quoted quote key =>
      have hbody : BracketBody (quote :: (key ++ [quote])) := .quoted hs.1 hs.2 .nil
      have hread := hbody.stepsFrom_append tail
      rw [classify_quoted hs.1] at hread
      exact (congrArg (stepsFrom []) (by simp [chars])).trans hread
  | bare inner =>
      have hbody : BracketBody inner := .of_forall fun c hc => (hs c hc).symm
      exact (congrArg (stepsFrom []) (by simp [chars])).trans (hbody.stepsFrom_append tail)

end Segment

/-- No name comes directly after a star that comes after a point. -/
def NoNameAfterStar (cs : List Char) : Prop :=
  ∀ c, isWord c = true → ¬ ['.', '*', c] <:+: cs

/-- The reader reads the segments one after the other. -/
theorem Segmentation.stepsFrom_eq {segs : List Segment} (h : Segmentation segs cs)
    (hstar : NoNameAfterStar cs) : stepsFrom [] cs = segs.mapM Segment.read := by
  induction h with
  | nil => exact stepsFrom_nil
  | @cons s segs cs hfits hmax others ih =>
      have hmore : NoNameAfterStar cs := fun c hc hoccurs =>
        hstar c hc (hoccurs.trans (List.suffix_append s.chars cs).isInfix)
      -- To the reader a star is the beginning of a word, so what comes next has to end it.
      have hends : s.EndsInName ∨ s = .star → EndsWord cs := by
        intro hs
        refine others.endsWord fun c hc => ?_
        rcases hs with hname | rfl
        · exact hmax hname c hc
        · obtain ⟨rest, rfl⟩ := List.head?_eq_some_iff.1 hc
          by_contra hword
          exact hstar c (by simpa using hword) ⟨[], rest, rfl⟩
      rw [Segment.stepsFrom_segment hfits hends, ih hmore, List.mapM_cons]
      cases s.read with
      | error e => rfl
      | ok step => cases segs.mapM Segment.read <;> rfl

/-! ## Segments with and without a step -/

/-- What a text next to the colon of a slice says: nothing, or an integer of 64 bits. -/
inductive Says : List Char → Option Int → Prop where
  | nothing {cs : List Char} (h : trim cs = []) : Says cs none
  | integer {cs : List Char} {n : Int} (h : readInt (trim cs) = some n) (hn : IsBound n) :
      Says cs (some n)

/-- The text is not blank and no integer of 64 bits. -/
structure IsNoBound (cs : List Char) : Prop where
  ne_nil : trim cs ≠ []
  no_integer : ∀ n, readInt (trim cs) = some n → ¬ IsBound n

/-- The step that a segment stands for. A bare text in brackets is trimmed, and cut at its first
colon if there is one. -/
inductive Segment.Means : Segment → Step → Prop where
  | property (name : List Char) : Means (.property name) (.property (String.ofList name))
  | word (name : List Char) : Means (.word name) (.property (String.ofList name))
  | star : Means .star .wildcard
  | quoted (quote : Char) (key : List Char) : Means (.quoted quote key) (.key (String.ofList key))
  | all {inner : List Char} (h : trim inner = ['*']) : Means (.bare inner) .wildcard
  | slice {inner start stop : List Char} {m n : Option Int} (h : trim inner = start ++ ':' :: stop)
      (hfirst : ':' ∉ start) (hstart : Says start m) (hstop : Says stop n) :
      Means (.bare inner) (.slice (m.getD 0) n)
  | index {inner : List Char} (hne : trim inner ≠ [])
      (hdigits : ∀ c ∈ trim inner, isAsciiDigit c = true)
      (hmax : digitsValue (trim inner) ≤ maxIndex) :
      Means (.bare inner) (.index (digitsValue (trim inner)))
  | key {inner : List Char} (hne : trim inner ≠ []) (hstar : trim inner ≠ ['*'])
      (hcolon : ':' ∉ trim inner) (hdigits : ¬ ∀ c ∈ trim inner, isAsciiDigit c = true) :
      Means (.bare inner) (.key (String.ofList (trim inner)))

/-- Why a segment stands for no step. -/
inductive Segment.Refused : Segment → PathFault → Prop where
  | empty {inner : List Char} (h : trim inner = []) : Refused (.bare inner) .emptyBrackets
  | start {inner start stop : List Char} (h : trim inner = start ++ ':' :: stop)
      (hfirst : ':' ∉ start) (hstart : IsNoBound start) :
      Refused (.bare inner) (.sliceBound (String.ofList (trim start)))
  | stop {inner start stop : List Char} {m : Option Int} (h : trim inner = start ++ ':' :: stop)
      (hfirst : ':' ∉ start) (hstart : Says start m) (hstop : IsNoBound stop) :
      Refused (.bare inner) (.sliceBound (String.ofList (trim stop)))
  | index {inner : List Char} (hdigits : ∀ c ∈ trim inner, isAsciiDigit c = true)
      (hmax : maxIndex < digitsValue (trim inner)) : Refused (.bare inner) .indexOutOfRange

theorem Says.sliceBound_eq {bound : Option Int} (h : Says cs bound) :
    sliceBound cs = .ok bound := by
  cases h with
  | nothing h => simp [sliceBound, h]
  | integer h hn =>
      have hne : trim cs ≠ [] := by
        intro hnil
        rw [hnil] at h
        cases h
      simp only [sliceBound, h, List.isEmpty_iff, hne, if_false]
      exact if_pos hn

theorem IsNoBound.sliceBound_eq (h : IsNoBound cs) :
    sliceBound cs = .error (.sliceBound (String.ofList (trim cs))) := by
  simp only [sliceBound, List.isEmpty_iff, h.ne_nil, if_false]
  cases hread : readInt (trim cs) with
  | none => rfl
  | some n => exact if_neg (h.no_integer n hread)

theorem says_or_isNoBound (cs : List Char) : (∃ bound, Says cs bound) ∨ IsNoBound cs := by
  by_cases hne : trim cs = []
  · exact .inl ⟨none, .nothing hne⟩
  · by_cases h : ∃ n, readInt (trim cs) = some n ∧ IsBound n
    · obtain ⟨n, hread, hn⟩ := h
      exact .inl ⟨some n, .integer hread hn⟩
    · exact .inr ⟨hne, fun n hread hn => h ⟨n, hread, hn⟩⟩

namespace Segment

variable {s : Segment}

theorem isBare_trim (hs : (bare body).Fits) (hne : trim body ≠ []) (hstar : trim body ≠ ['*']) :
    IsBare (trim body) where
  trimmed := trim_trim body
  ne_nil := hne
  ne_star := hstar
  unquoted := by
    obtain ⟨c, rest, hbody⟩ := List.exists_cons_of_ne_nil hne
    have hc : c ∈ body := mem_of_mem_trim (hbody ▸ List.mem_cons_self)
    rw [hbody, stripQuotes_of_not_quote c rest (hs c hc).2]

theorem read_bare_trim (body : List Char) : (bare body).read = classify (trim body) := by
  simp only [read, classify, trim_trim]

theorem isBare_of_colon (hs : (bare body).Fits) (h : trim body = start ++ ':' :: stop) :
    IsBare (trim body) := by
  refine isBare_trim hs (by simp [h]) fun hstar => ?_
  have hcolon : ':' ∈ ['*'] := by
    rw [← hstar, h]
    simp
  exact absurd hcolon (by decide)

theorem isBare_of_digits (hs : (bare body).Fits) (hne : trim body ≠ [])
    (hdigits : ∀ c ∈ trim body, isAsciiDigit c = true) :
    IsBare (trim body) ∧ cutAt ':' (trim body) = none := by
  refine ⟨isBare_trim hs hne fun hstar => ?_, cutAt_eq_none fun hcolon => ?_⟩
  · exact absurd (hdigits '*' (by simp [hstar])) (by decide)
  · exact absurd (hdigits ':' hcolon) (by decide)

theorem Means.read_eq (h : s.Means step) (hs : s.Fits) : s.read = .ok step := by
  cases h with
  | property _ | word _ | star | quoted _ _ => rfl
  | all h =>
      rw [read_bare_trim, h]
      decide
  | slice h hfirst hstart hstop =>
      rw [read_bare_trim]
      exact (isBare_of_colon hs h).classify_slice (h ▸ cutAt_append hfirst _)
        hstart.sliceBound_eq hstop.sliceBound_eq
  | index hne hdigits hmax =>
      obtain ⟨hbare, hcut⟩ := isBare_of_digits hs hne hdigits
      rw [read_bare_trim]
      exact hbare.classify_index hcut (List.all_eq_true.2 hdigits) hmax
  | @key inner hne hstar hcolon hdigits =>
      have hall : ¬ (trim inner).all isAsciiDigit = true := fun hall =>
        hdigits (List.all_eq_true.1 hall)
      rw [read_bare_trim, (isBare_trim hs hne hstar).classify_eq, cutAt_eq_none hcolon]
      exact if_neg hall

theorem Refused.read_eq (h : s.Refused fault) (hs : s.Fits) : s.read = .error fault := by
  cases h with
  | empty h =>
      rw [read_bare_trim, h]
      decide
  | start h hfirst hstart =>
      rw [read_bare_trim, (isBare_of_colon hs h).classify_eq, h, cutAt_append hfirst]
      simp only [hstart.sliceBound_eq]
  | stop h hfirst hstart hstop =>
      rw [read_bare_trim, (isBare_of_colon hs h).classify_eq, h, cutAt_append hfirst]
      simp only [hstart.sliceBound_eq, hstop.sliceBound_eq]
  | @index inner hdigits hmax =>
      have hne : trim inner ≠ [] := by
        intro hnil
        rw [hnil] at hmax
        exact absurd hmax (by decide)
      obtain ⟨hbare, hcut⟩ := isBare_of_digits hs hne hdigits
      rw [read_bare_trim, hbare.classify_eq, hcut]
      simp only [List.all_eq_true.2 hdigits, if_true]
      exact if_neg (by omega)

theorem means_or_refused (s : Segment) :
    (∃ step, s.Means step) ∨ ∃ fault, s.Refused fault := by
  cases s with
  | property name => exact .inl ⟨_, .property name⟩
  | word name => exact .inl ⟨_, .word name⟩
  | star => exact .inl ⟨_, .star⟩
  | quoted quote key => exact .inl ⟨_, .quoted quote key⟩
  | bare body =>
      by_cases hne : trim body = []
      · exact .inr ⟨_, .empty hne⟩
      by_cases hstar : trim body = ['*']
      · exact .inl ⟨_, .all hstar⟩
      by_cases hcolon : ':' ∈ trim body
      · obtain ⟨start, stop, h, hfirst⟩ := List.eq_append_cons_of_mem hcolon
        rcases says_or_isNoBound start with ⟨m, hstart⟩ | hstart
        · rcases says_or_isNoBound stop with ⟨n, hstop⟩ | hstop
          · exact .inl ⟨_, .slice h hfirst hstart hstop⟩
          · exact .inr ⟨_, .stop h hfirst hstart hstop⟩
        · exact .inr ⟨_, .start h hfirst hstart⟩
      by_cases hdigits : ∀ c ∈ trim body, isAsciiDigit c = true
      · by_cases hmax : digitsValue (trim body) ≤ maxIndex
        · exact .inl ⟨_, .index hne hdigits hmax⟩
        · exact .inr ⟨_, .index hdigits (by omega)⟩
      · exact .inl ⟨_, .key hne hstar hcolon hdigits⟩

theorem read_eq_ok_iff (hs : s.Fits) : s.read = .ok step ↔ s.Means step := by
  refine ⟨fun h => ?_, fun h => h.read_eq hs⟩
  rcases s.means_or_refused with ⟨step', hstep⟩ | ⟨fault, hfault⟩
  · rw [hstep.read_eq hs] at h
    cases h
    exact hstep
  · rw [hfault.read_eq hs] at h
    cases h

theorem read_eq_error_iff (hs : s.Fits) : s.read = .error fault ↔ s.Refused fault := by
  refine ⟨fun h => ?_, fun h => h.read_eq hs⟩
  rcases s.means_or_refused with ⟨step, hstep⟩ | ⟨fault', hfault⟩
  · rw [hstep.read_eq hs] at h
    cases h
  · rw [hfault.read_eq hs] at h
    cases h
    exact hfault

theorem Refused.no_open_bracket (h : s.Refused fault) :
    fault ≠ .unmatchedBracket ∧ fault ≠ .unterminatedBracket := by
  cases h <;> exact ⟨nofun, nofun⟩

end Segment

/-! ## Paths -/

section FirstFailure

variable {α β ε : Type} {f : α → Except ε β} {items before : List α} {found : List β} {a : α}
  {e : ε}

theorem mapM_ok (h : List.Forall₂ (fun a b => f a = .ok b) items found) :
    items.mapM f = .ok found := by
  induction h with
  | nil => rfl
  | cons ha _ ih =>
      rw [List.mapM_cons, ha, ih]
      rfl

theorem mapM_error (hbefore : ∀ b ∈ before, ∃ x, f b = .ok x) (ha : f a = .error e)
    (after : List α) : (before ++ a :: after).mapM f = .error e := by
  induction before with
  | nil =>
      rw [List.nil_append, List.mapM_cons, ha]
      rfl
  | cons b before ih =>
      obtain ⟨⟨x, hx⟩, hmore⟩ := List.forall_mem_cons.1 hbefore
      rw [List.cons_append, List.mapM_cons, hx, ih hmore]
      rfl

/-- All have a result, or a first one has none. -/
theorem forall₂_or_first (items : List α) :
    (∃ found, List.Forall₂ (fun a b => f a = .ok b) items found) ∨
      ∃ before a after e, items = before ++ a :: after ∧ (∀ b ∈ before, ∃ x, f b = .ok x) ∧
        f a = .error e := by
  induction items with
  | nil => exact .inl ⟨[], .nil⟩
  | cons a items ih =>
      cases ha : f a with
      | error e => exact .inr ⟨[], a, items, e, rfl, by simp, ha⟩
      | ok b =>
          rcases ih with ⟨found, hfound⟩ | ⟨before, a', after, e, rfl, hbefore, he⟩
          · exact .inl ⟨b :: found, .cons ha hfound⟩
          · exact .inr ⟨a :: before, a', after, e, rfl,
              List.forall_mem_cons.2 ⟨⟨b, ha⟩, hbefore⟩, he⟩

theorem mapM_eq_ok_iff :
    items.mapM f = .ok found ↔ List.Forall₂ (fun a b => f a = .ok b) items found := by
  refine ⟨fun h => ?_, mapM_ok⟩
  rcases forall₂_or_first (f := f) items with ⟨found', hfound⟩ |
    ⟨before, a, after, e, rfl, hbefore, ha⟩
  · rw [mapM_ok hfound] at h
    cases h
    exact hfound
  · rw [mapM_error hbefore ha] at h
    cases h

theorem mapM_eq_error_iff : items.mapM f = .error e ↔
    ∃ before a after, items = before ++ a :: after ∧ (∀ b ∈ before, ∃ x, f b = .ok x) ∧
      f a = .error e := by
  constructor
  · intro h
    rcases forall₂_or_first (f := f) items with ⟨found, hfound⟩ |
      ⟨before, a, after, e', rfl, hbefore, ha⟩
    · rw [mapM_ok hfound] at h
      cases h
    · rw [mapM_error hbefore ha] at h
      cases h
      exact ⟨before, a, after, rfl, hbefore, ha⟩
  · rintro ⟨before, a, after, rfl, hbefore, ha⟩
    exact mapM_error hbefore ha after

theorem exists_mapM_eq_error_iff :
    (∃ e, items.mapM f = .error e) ↔ ∃ a ∈ items, ∃ e, f a = .error e := by
  induction items with
  | nil => exact iff_of_false nofun (by simp)
  | cons a items ih =>
      simp only [List.mapM_cons, List.mem_cons, exists_eq_or_imp, ← ih]
      cases f a with
      | error e => exact iff_of_true ⟨e, rfl⟩ (.inl ⟨e, rfl⟩)
      | ok b => cases items.mapM f <;> simp [bind, Except.bind, pure, Except.pure]

end FirstFailure

/-- The reader makes one step of each segment, or refuses the path because of the first segment
that stands for none. -/
structure ReadBySegments (text : String) (segs : List Segment) : Prop where
  fails_iff : (∃ e, ofText text = .error e) ↔ ∃ s ∈ segs, ∃ fault, s.Refused fault
  refusal : ∀ e, ofText text = .error e → ∃ before s after fault,
    segs = before ++ s :: after ∧ (∀ b ∈ before, ∃ step, b.Means step) ∧ s.Refused fault ∧
      e = .invalidPath text fault ∧ fault ≠ .unmatchedBracket ∧ fault ≠ .unterminatedBracket
  steps_iff : ∀ p, ofText text = .ok p ↔
    ∃ steps, List.Forall₂ Segment.Means segs steps ∧ p = ⟨text, .root :: steps⟩

theorem ofText_eq_mapM {text : String} {segs : List Segment} (htext : text.toList = '$' :: cs)
    (htrim : trim text.toList = text.toList) (hsegs : Segmentation segs cs)
    (hstar : NoNameAfterStar cs) :
    ofText text =
      match segs.mapM Segment.read with
      | .ok steps => .ok ⟨text, .root :: steps⟩
      | .error fault => .error (.invalidPath text fault) := by
  simp only [ofText, htrim, String.ofList_toList]
  rw [htext, stepsOf, hsegs.stepsFrom_eq hstar]
  cases segs.mapM Segment.read <;> rfl

theorem forall₂_means_iff {segs : List Segment} {steps : List Step} (h : ∀ s ∈ segs, s.Fits) :
    List.Forall₂ (fun s step => s.read = .ok step) segs steps ↔
      List.Forall₂ Segment.Means segs steps := by
  induction segs generalizing steps with
  | nil =>
      cases steps with
      | nil => exact iff_of_true .nil .nil
      | cons step steps => exact iff_of_false nofun nofun
  | cons s segs ih =>
      obtain ⟨hs, hsegs⟩ := List.forall_mem_cons.1 h
      cases steps with
      | nil => exact iff_of_false nofun nofun
      | cons step steps =>
          rw [List.forall₂_cons, List.forall₂_cons, Segment.read_eq_ok_iff hs, ih hsegs]

theorem Segmentation.readBySegments {text : String} {segs : List Segment}
    (hsegs : Segmentation segs cs) (htext : text.toList = '$' :: cs)
    (htrim : trim text.toList = text.toList) (hstar : NoNameAfterStar cs) :
    ReadBySegments text segs := by
  have hread := ofText_eq_mapM htext htrim hsegs hstar
  have hfits := hsegs.fits
  have herror (e : ParseError) : ofText text = .error e ↔
      ∃ fault, segs.mapM Segment.read = .error fault ∧ e = .invalidPath text fault := by
    rw [hread]
    cases segs.mapM Segment.read <;> simp [eq_comm]
  refine ⟨?_, fun e he => ?_, fun p => ?_⟩
  · have hrefused : (∃ s ∈ segs, ∃ fault, s.Refused fault) ↔
        ∃ s ∈ segs, ∃ fault, s.read = .error fault :=
      exists_congr fun s => and_congr_right fun hs => exists_congr fun fault =>
        (Segment.read_eq_error_iff (hfits s hs)).symm
    rw [hrefused, ← exists_mapM_eq_error_iff]
    simp only [herror]
    constructor
    · rintro ⟨e, fault, hfault, -⟩
      exact ⟨fault, hfault⟩
    · rintro ⟨fault, hfault⟩
      exact ⟨_, fault, hfault, rfl⟩
  · obtain ⟨fault, hfault, rfl⟩ := (herror e).1 he
    obtain ⟨before, s, after, rfl, hbefore, hs⟩ := mapM_eq_error_iff.1 hfault
    have hrefused := (Segment.read_eq_error_iff (hfits s (by simp))).1 hs
    refine ⟨before, s, after, fault, rfl, fun b hb => ?_, hrefused, rfl, hrefused.no_open_bracket⟩
    obtain ⟨step, hstep⟩ := hbefore b hb
    exact ⟨step, (Segment.read_eq_ok_iff (hfits b (by simp [hb]))).1 hstep⟩
  · have hok : ofText text = .ok p ↔
        ∃ steps, segs.mapM Segment.read = .ok steps ∧ p = ⟨text, .root :: steps⟩ := by
      rw [hread]
      cases segs.mapM Segment.read <;> simp [eq_comm]
    rw [hok]
    exact exists_congr fun steps => and_congr_left fun _ =>
      mapM_eq_ok_iff.trans (forall₂_means_iff hfits)

/-- A text that the scanner takes for a path is cut into segments in one way, the way of the rule
of paths, and the reader makes one step of each segment or refuses the path because of a segment
that stands for none, if there is no name directly after a star. -/
theorem ofText_by_segments {text : String} (hpath : Token.isPath text.toList = true)
    (hstar : NoNameAfterStar text.toList) :
    ∃ cs segs, text.toList = '$' :: cs ∧ Segmentation segs cs ∧
      Token.segments cs = segs.map Segment.chars ∧
      (∀ others, Segmentation others cs → others = segs) ∧ ReadBySegments text segs := by
  have hlength : Token.pathLength text.toList = some text.toList.length := by
    simpa [Token.isPath] using hpath
  have hsolid := Expr.solid_path hlength
  have htrim : trim text.toList = text.toList :=
    trim_eq_self (fun c hc => (hsolid.head c hc).1) hsolid.last
  obtain ⟨cs, htext⟩ := Token.exists_of_pathLength hlength
  rw [htext] at hlength hstar
  obtain ⟨segs, hsegs⟩ := exists_segmentation (show Token.segmentsLength cs = cs.length by
    simpa [Token.pathLength] using hlength)
  have hmore : NoNameAfterStar cs := fun c hc hoccurs =>
    hstar c hc (hoccurs.trans (List.suffix_cons '$' cs).isInfix)
  exact ⟨cs, segs, htext, hsegs, hsegs.segments_eq, fun others => hsegs.unique,
    hsegs.readBySegments htext htrim hmore⟩

/-- A key with a bracket in it and a slice with blanks, and a slice with a bound that is no
integer after a star. -/
theorem ofText_by_segments_of_slices :
    ofText "$.a['b]'][ 1: ]c" =
      .ok ⟨"$.a['b]'][ 1: ]c", [.root, .property "a", .key "b]", .slice 1 none, .property "c"]⟩ ∧
    ∃ e, ofText "$.*[0:x]" = .error e := by
  constructor
  · have hstar : NoNameAfterStar "$.a['b]'][ 1: ]c".toList := fun c _ hoccurs =>
      absurd (hoccurs.subset (by simp : '*' ∈ ['.', '*', c])) (by decide)
    obtain ⟨cs, segs, htext, -, -, hunique, hread⟩ := ofText_by_segments (by decide +kernel) hstar
    obtain rfl : cs = ['.', 'a', '[', '\'', 'b', ']', '\'', ']', '[', ' ', '1', ':', ' ', ']', 'c'] :=
      by simpa [eq_comm] using htext
    have hinner : (Segment.bare [' ', '1', ':', ' ']).Fits := by simp [Segment.Fits, isQuote]
    have hcut : trim [' ', '1', ':', ' '] = ['1'] ++ ':' :: [] := by decide
    have hopen : isWord '[' = false := by decide
    have hproperty : (Segment.property ['a']).Fits :=
      ⟨by decide, List.forall_mem_singleton.2 (by decide +kernel)⟩
    have hword : (Segment.word ['c']).Fits :=
      ⟨by decide, List.forall_mem_singleton.2 (by decide +kernel)⟩
    obtain rfl := hunique [.property ['a'], .quoted '\'' ['b', ']'], .bare [' ', '1', ':', ' '],
      .word ['c']] (.cons hproperty (fun _ => by simpa using hopen)
        (.cons ⟨by decide, by decide⟩ False.elim (.cons hinner False.elim
          (.cons hword (fun _ => by simp) .nil))))
    have hslice : (Segment.bare [' ', '1', ':', ' ']).Means (.slice 1 none) :=
      .slice hcut (by decide) (.integer (by decide) ⟨by decide, by decide⟩) (.nothing (by decide))
    exact (hread.steps_iff _).2 ⟨_, .cons (.property _) (.cons (.quoted _ _)
      (.cons hslice (.cons (.word _) .nil))), rfl⟩
  · have hstar : NoNameAfterStar "$.*[0:x]".toList := by
      intro c hc hoccurs
      obtain rfl : c = '[' := by simpa [List.infix_cons_iff] using hoccurs
      exact absurd hc (by decide)
    obtain ⟨cs, segs, htext, -, -, hunique, hread⟩ := ofText_by_segments (by decide +kernel) hstar
    obtain rfl : cs = ".*[0:x]".toList := by simpa [eq_comm] using htext
    have hinner : (Segment.bare ['0', ':', 'x']).Fits := by simp [Segment.Fits, isQuote]
    have hcut : trim ['0', ':', 'x'] = ['0'] ++ ':' :: ['x'] := by decide
    obtain rfl := hunique [.star, .bare ['0', ':', 'x']]
      (.cons trivial False.elim (.cons hinner False.elim .nil))
    have hzero : Says ['0'] (some 0) := .integer (by decide) ⟨by decide, by decide⟩
    have hnone : readInt (trim ['x']) = none := by decide
    have hbound : IsNoBound ['x'] := ⟨by decide, by simp [hnone]⟩
    exact hread.fails_iff.2 ⟨_, List.mem_cons_of_mem _ List.mem_cons_self, _,
      .stop hcut (by decide) hzero hbound⟩

end Sluice.Path
