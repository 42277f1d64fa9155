import Sluice.Pattern.Shape
import Sluice.Proofs.Blanks

/-!
# Shapes that patterns are refused for

A pattern is read from left to right in atoms: a backslash with the character after it, a bracketed
class, or a character by itself. The shapes are searched for in a text that has a letter in place
of each class, and there an escape is told by the one backslash before a character, if it is looked
for at all. So the search takes an escaped bracket or brace for one that opens something, and it
misses a quantifier that comes after an escaped backslash. Else it finds what the atoms have.
-/
namespace Sluice.Pattern

open Sluice.Text

/-! ## Atoms -/

/-- What is read at once. -/
inductive Atom where
  | escaped (c : Char)
  | bracketed (cs : List Char)
  | plain (c : Char)
  deriving DecidableEq, Repr

/-- What comes after the caret and the bracket that may stand first in a class. -/
def afterOpening : List Char → List Char
  | '^' :: ']' :: rest => rest
  | '^' :: rest => rest
  | ']' :: rest => rest
  | cs => cs

theorem afterOpening_suffix (cs : List Char) : afterOpening cs <:+ cs := by
  unfold afterOpening
  split
  · exact ⟨['^', ']'], rfl⟩
  · exact ⟨['^'], rfl⟩
  · exact ⟨[']'], rfl⟩
  · exact List.suffix_rfl

/-- What comes after the bracket that closes a class, where so many classes inside of it are open. -/
def afterClass (inner : Nat) (cs : List Char) : List Char :=
  match cs with
  | [] => []
  | c :: rest =>
      if c = '\\' then afterClass inner (rest.drop 1)
      else if c = '[' then afterClass (inner + 1) (afterOpening rest)
      else if c = ']' then
        match inner with
        | 0 => rest
        | inner + 1 => afterClass inner rest
      else afterClass inner rest
termination_by cs.length
decreasing_by
  · simp only [List.length_drop, List.length_cons]; omega
  · exact Nat.lt_succ_of_le (afterOpening_suffix rest).length_le
  · simp
  · simp

theorem afterClass_suffix (inner : Nat) (cs : List Char) : afterClass inner cs <:+ cs := by
  fun_induction afterClass inner cs with
  | case1 => exact List.suffix_rfl
  | case2 inner rest ih => exact (ih.trans (List.drop_suffix 1 rest)).trans (List.suffix_cons _ rest)
  | case3 inner rest _ ih =>
      exact (ih.trans (afterOpening_suffix rest)).trans (List.suffix_cons _ rest)
  | case4 rest => exact List.suffix_cons _ rest
  | case5 rest _ _ inner ih => exact ih.trans (List.suffix_cons _ rest)
  | case6 inner c rest _ _ _ ih => exact ih.trans (List.suffix_cons c rest)

/-- What comes after a class, from what comes after its opening bracket. -/
def afterBracketed (cs : List Char) : List Char :=
  afterClass 0 (afterOpening cs)

theorem afterBracketed_suffix (cs : List Char) : afterBracketed cs <:+ cs :=
  (afterClass_suffix 0 _).trans (afterOpening_suffix cs)

/-- The atoms of a pattern. -/
def atoms (cs : List Char) : List Atom :=
  match cs with
  | [] => []
  | '\\' :: c :: rest => .escaped c :: atoms rest
  | c :: rest =>
      if c = '[' then
        .bracketed ('[' :: rest.take (rest.length - (afterBracketed rest).length)) ::
          atoms (afterBracketed rest)
      else .plain c :: atoms rest
termination_by cs.length
decreasing_by
  · simp only [List.length_cons]; omega
  · exact Nat.lt_succ_of_le (afterBracketed_suffix rest).length_le
  · simp

namespace Atom

/-- The text of an atom. -/
def chars : Atom → List Char
  | escaped c => ['\\', c]
  | bracketed cs => cs
  | plain c => [c]

/-- What stands for an atom in the text that is searched. -/
def shown : Atom → List Char
  | escaped c => ['\\', c]
  | bracketed _ => ['x']
  | plain c => [c]

/-- The last character that stands for an atom. -/
def lastShown : Atom → Char
  | escaped c => c
  | bracketed _ => 'x'
  | plain c => c

end Atom

open Atom

variable {c : Char} {cs tail : List Char} {a : Atom} {as : List Atom}

/-- Nothing is lost in reading. -/
theorem flatMap_chars_atoms (cs : List Char) : (atoms cs).flatMap chars = cs := by
  fun_induction atoms cs with
  | case1 => rfl
  | case2 c rest ih => simp [chars, ih]
  | case3 rest _ ih =>
      rw [List.flatMap_cons, ih, chars, List.cons_append,
        List.suffix_iff_eq_append.1 (afterBracketed_suffix rest)]
  | case4 c rest _ _ ih => simp [chars, ih]

/-- A backslash by itself is the last character. -/
theorem eq_nil_of_atoms_eq {pre post : List Atom} (h : atoms cs = pre ++ .plain '\\' :: post) :
    post = [] := by
  fun_induction atoms cs generalizing pre with
  | case1 => simp at h
  | case2 c rest ih =>
      obtain ⟨pre, -, he⟩ := (List.cons_eq_append_iff.1 h).resolve_left (by simp)
      exact ih he
  | case3 rest _ ih =>
      obtain ⟨pre, -, he⟩ := (List.cons_eq_append_iff.1 h).resolve_left (by simp)
      exact ih he
  | case4 c rest hslash _ ih =>
      rcases List.cons_eq_append_iff.1 h with ⟨-, he⟩ | ⟨pre, -, he⟩
      · cases he
        cases rest with
        | nil => simp [atoms]
        | cons d rest => exact (hslash d rest rfl rfl).elim
      · exact ih he

/-! ## What is searched -/

theorem classesAsLetters_open (depth : Nat) (rest : List Char) :
    classesAsLetters depth ('[' :: rest) =
      classesAsLetters.opened depth (classesAsLetters (depth + 1) (afterOpening rest)) := by
  unfold afterOpening
  split
  · rfl
  · next rest h => rw [classesAsLetters] ; simpa using h
  · rfl
  · next h₁ h₂ h₃ => rw [classesAsLetters] <;> simp_all

theorem classesAsLetters_slash (depth : Nat) (c : Char) (rest : List Char) :
    classesAsLetters depth ('\\' :: c :: rest) =
      if depth = 0 then '\\' :: c :: classesAsLetters depth rest
      else classesAsLetters depth rest := rfl

theorem classesAsLetters_zero_cons (hslash : ∀ d rest', c = '\\' → tail ≠ d :: rest')
    (hopen : c ≠ '[') : classesAsLetters 0 (c :: tail) = c :: classesAsLetters 0 tail := by
  rw [classesAsLetters] <;> simp_all

theorem classesAsLetters_succ_cons (inner : Nat)
    (hslash : ∀ d rest', c = '\\' → tail ≠ d :: rest') (hopen : c ≠ '[') :
    classesAsLetters (inner + 1) (c :: tail) =
      if c = ']' then classesAsLetters inner tail else classesAsLetters (inner + 1) tail := by
  rw [classesAsLetters] <;> simp_all

/-- Inside of a class nothing is shown. -/
theorem classesAsLetters_succ (inner : Nat) (cs : List Char) :
    classesAsLetters (inner + 1) cs = classesAsLetters 0 (afterClass inner cs) := by
  fun_induction afterClass inner cs with
  | case1 => rfl
  | case2 inner rest ih =>
      rw [← ih]
      cases rest with
      | nil => rfl
      | cons d rest => rfl
  | case3 inner rest _ ih => rw [classesAsLetters_open, ← ih]; rfl
  | case4 rest h₁ h₂ => rw [classesAsLetters_succ_cons] <;> simp_all
  | case5 rest _ _ inner ih => rw [classesAsLetters_succ_cons] <;> simp_all
  | case6 inner c rest _ _ _ ih => rw [classesAsLetters_succ_cons] <;> simp_all

theorem classesAsLetters_zero (cs : List Char) :
    classesAsLetters 0 cs = (atoms cs).flatMap shown := by
  fun_induction atoms cs with
  | case1 => rfl
  | case2 c rest ih => rw [classesAsLetters_slash, ih]; rfl
  | case3 rest _ ih =>
      rw [classesAsLetters_open, classesAsLetters_succ, ← afterBracketed, ih]
      rfl
  | case4 c rest hslash hopen ih => rw [classesAsLetters_zero_cons, ih] <;> simp_all [shown]

/-! Characters in a row stand for atoms in a row. Only the first of them may be escaped. -/

/-- A character that is not shown but for itself. -/
def IsShownAlone (c : Char) : Prop :=
  c ≠ '\\' ∧ c ≠ 'x'

theorem prefix_flatMap_shown_iff (h : ∀ c ∈ tail, IsShownAlone c) :
    tail <+: as.flatMap shown ↔ tail.map .plain <+: as := by
  induction tail generalizing as with
  | nil => simp
  | cons c tail ih =>
      obtain ⟨⟨hslash, hclass⟩, htail⟩ := List.forall_mem_cons.1 h
      cases as with
      | nil => simp
      | cons a as => cases a <;> simp [shown, List.cons_prefix_cons, hslash, hclass, ih htail]

theorem infix_flatMap_shown_iff (hc : IsShownAlone c) (h : ∀ c ∈ tail, IsShownAlone c) :
    c :: tail <:+: as.flatMap shown ↔
      .plain c :: tail.map .plain <:+: as ∨ .escaped c :: tail.map .plain <:+: as := by
  obtain ⟨hslash, hclass⟩ := hc
  induction as with
  | nil => simp
  | cons a as ih =>
      simp only [List.flatMap_cons, List.infix_cons_iff, List.cons_prefix_cons]
      cases a <;>
        simp only [shown, List.cons_append, List.nil_append, List.infix_cons_iff,
          List.cons_prefix_cons, prefix_flatMap_shown_iff h, hslash, hclass, ih, false_and,
          false_or, reduceCtorEq, Atom.plain.injEq, Atom.escaped.injEq, or_assoc, or_left_comm]

/-! ## The shapes -/

/-- What comes after the opening brace of a repetition without a lower bound: a comma between
blanks, digits and blanks if there are any, and the closing brace. -/
def IsBoundless (tail : List Char) : Prop :=
  ∃ s₁ s₂ ds s₃ : List Char, (∀ c ∈ s₁, isBlank c = true) ∧ (∀ c ∈ s₂, isBlank c = true) ∧
    (∀ c ∈ ds, isDecimal c = true) ∧ (∀ c ∈ s₃, isBlank c = true) ∧
    tail = s₁ ++ ',' :: (s₂ ++ (ds ++ (s₃ ++ ['\x7d'])))

/-- Two quantifiers with nothing but blanks between them. -/
def IsStacked (text : List Char) : Prop :=
  ∃ (q : Char) (s : List Char) (r : Char), isQuantifier q = true ∧ (∀ c ∈ s, isBlank c = true) ∧
    isQuantifier r = true ∧ text = q :: (s ++ [r])

/-- The opening of a look-ahead, with the given atom for the parenthesis. -/
def HasLookahead (opening : Atom) (as : List Atom) : Prop :=
  [opening, .plain '?', .plain '='] <:+: as

/-- A repetition without a lower bound, with the given atom for the opening brace. -/
def HasBoundless (opening : Atom) (as : List Atom) : Prop :=
  ∃ tail, IsBoundless tail ∧ opening :: tail.map .plain <:+: as

/-- Stacked quantifiers after the given atoms. -/
def HasStackedAfter (pre as : List Atom) : Prop :=
  ∃ text, IsStacked text ∧ pre ++ text.map .plain <+: as

/-- One of the refused shapes is among the atoms. -/
def HasRefusedShape (as : List Atom) : Prop :=
  HasLookahead (.plain '(') as ∨ (∃ pre, HasStackedAfter pre as) ∨ HasBoundless (.plain '\x7b') as

/-! ## Each shape in the text -/

theorem occursIn_iff {needle : List Char} : occursIn needle cs = true ↔ needle <:+: cs := by
  induction cs with
  | nil => simp [occursIn]
  | cons c cs ih => simp [occursIn, List.infix_cons_iff, ih]

theorem occursIn_flatMap_shown : occursIn ['(', '?', '='] (as.flatMap shown) = true ↔
    HasLookahead (.plain '(') as ∨ HasLookahead (.escaped '(') as := by
  rw [occursIn_iff, infix_flatMap_shown_iff (by simp [IsShownAlone]) (by simp [IsShownAlone])]
  rfl

theorem isBlank_of_isDecimal (h : isDecimal c = true) : isBlank c = false :=
  isBlank_of_class isDecimal (by decide) h

/-- Blanks before a character that is none are skipped. -/
theorem trimStart_append_cons {s : List Char} (hs : ∀ c ∈ s, isBlank c = true)
    (hc : isBlank c = false) (rest : List Char) : trimStart (s ++ c :: rest) = c :: rest := by
  rw [trimStart, List.dropWhile_append_of_pos hs, List.dropWhile_cons, hc]
  rfl

theorem startsUnbounded_cons (rest : List Char) :
    startsUnbounded ('\x7b' :: rest) = true ↔ ∃ rest', trimStart rest = ',' :: rest' ∧
      ∃ more, trimStart ((trimStart rest').dropWhile isDecimal) = '\x7d' :: more := by
  rw [startsUnbounded]
  split
  · next rest' hcomma => simp [hcomma, List.head?_eq_some_iff]
  · next hcomma => simpa using fun rest' h => (hcomma rest' h).elim

theorem startsUnbounded_iff :
    startsUnbounded cs = true ↔ ∃ tail, IsBoundless tail ∧ '\x7b' :: tail <+: cs := by
  constructor
  · intro h
    obtain ⟨rest, rfl⟩ : ∃ rest, cs = '\x7b' :: rest := by
      unfold startsUnbounded at h
      split at h
      · exact ⟨_, rfl⟩
      · cases h
    obtain ⟨rest', hcomma, more, hclose⟩ := (startsUnbounded_cons rest).1 h
    obtain ⟨s₁, h₁, hs₁⟩ := exists_trimStart rest
    obtain ⟨s₂, h₂, hs₂⟩ := exists_trimStart rest'
    obtain ⟨s₃, h₃, hs₃⟩ := exists_trimStart ((trimStart rest').dropWhile isDecimal)
    refine ⟨_, ⟨s₁, s₂, (trimStart rest').takeWhile isDecimal, s₃, hs₁, hs₂,
      fun c => List.mem_takeWhile_imp, hs₃, rfl⟩, more, ?_⟩
    have hdigits := List.takeWhile_append_dropWhile (p := isDecimal) (l := trimStart rest')
    rw [h₃, hclose] at hdigits
    rw [h₁, hcomma, List.cons_append, List.append_assoc, List.cons_append, List.append_assoc,
      List.append_assoc, List.append_assoc, List.singleton_append, hdigits, ← h₂]
  · rintro ⟨tail, ⟨s₁, s₂, ds, s₃, h₁, h₂, hds, h₃, rfl⟩, rest, rfl⟩
    have hclose {s : List Char} (hs : ∀ c ∈ s, isBlank c = true) :
        trimStart (s ++ '\x7d' :: rest) = '\x7d' :: rest :=
      trimStart_append_cons hs (by decide) rest
    have hdigits {s : List Char} (hs : ∀ c ∈ s, isBlank c = true) :
        trimStart ((s ++ '\x7d' :: rest).dropWhile isDecimal) = '\x7d' :: rest := by
      cases s with
      | nil => exact hclose (List.forall_mem_nil _)
      | cons b s =>
        have hb : isDecimal b = false := by
          by_contra hdecimal
          have hblank := isBlank_of_isDecimal (by simpa using hdecimal)
          rw [hs b List.mem_cons_self] at hblank
          cases hblank
        rw [List.cons_append, List.dropWhile_cons, hb]
        exact hclose hs
    simp only [List.cons_append, List.append_assoc, List.nil_append]
    refine (startsUnbounded_cons _).2 ⟨_, trimStart_append_cons h₁ (by decide) _, rest, ?_⟩
    cases ds with
    | nil =>
      have hblanks := List.forall_mem_append.2 ⟨h₂, h₃⟩
      rw [List.nil_append, ← List.append_assoc, hclose hblanks]
      exact hdigits (List.forall_mem_nil _)
    | cons d ds =>
      have hd := isBlank_of_isDecimal (hds d List.mem_cons_self)
      rw [List.cons_append, trimStart_append_cons h₂ hd, ← List.cons_append,
        List.dropWhile_append_of_pos hds]
      exact hdigits h₃

theorem hasUnbounded_iff :
    hasUnbounded cs = true ↔ ∃ tail, IsBoundless tail ∧ '\x7b' :: tail <:+: cs := by
  induction cs with
  | nil => simp [hasUnbounded]
  | cons c cs ih =>
      simp only [hasUnbounded, Bool.or_eq_true, startsUnbounded_iff, ih, List.infix_cons_iff,
        and_or_left, exists_or]

theorem isShownAlone_of_isBlank (h : isBlank c = true) : IsShownAlone c :=
  ⟨ne_of_class isBlank h (by decide), ne_of_class isBlank h (by decide)⟩

theorem IsBoundless.isShownAlone (h : IsBoundless tail) : ∀ c ∈ tail, IsShownAlone c := by
  obtain ⟨s₁, s₂, ds, s₃, h₁, h₂, hds, h₃, rfl⟩ := h
  have hdecimal (c : Char) (hc : c ∈ ds) : IsShownAlone c :=
    ⟨ne_of_class isDecimal (hds c hc) (by decide), ne_of_class isDecimal (hds c hc) (by decide)⟩
  have hclose : ∀ c ∈ ['\x7d'], IsShownAlone c := by simp [IsShownAlone]
  refine List.forall_mem_append.2 ⟨fun c hc => isShownAlone_of_isBlank (h₁ c hc), ?_⟩
  refine List.forall_mem_cons.2 ⟨by simp [IsShownAlone], ?_⟩
  refine List.forall_mem_append.2 ⟨fun c hc => isShownAlone_of_isBlank (h₂ c hc), ?_⟩
  refine List.forall_mem_append.2 ⟨hdecimal, ?_⟩
  exact List.forall_mem_append.2 ⟨fun c hc => isShownAlone_of_isBlank (h₃ c hc), hclose⟩

theorem hasUnbounded_flatMap_shown : hasUnbounded (as.flatMap shown) = true ↔
    HasBoundless (.plain '\x7b') as ∨ HasBoundless (.escaped '\x7b') as := by
  rw [hasUnbounded_iff, HasBoundless, HasBoundless, ← exists_or]
  refine exists_congr fun tail => ?_
  rw [← and_or_left]
  refine and_congr_right fun htail => ?_
  exact infix_flatMap_shown_iff (by simp [IsShownAlone]) htail.isShownAlone

theorem isBlank_of_isQuantifier (h : isQuantifier c = true) : isBlank c = false :=
  isBlank_of_class isQuantifier (by decide) h

/-- A quantifier comes first, blanks aside. -/
theorem head?_trimStart_any_iff : (trimStart cs).head?.any isQuantifier = true ↔
    ∃ (s : List Char) (r : Char), (∀ c ∈ s, isBlank c = true) ∧ isQuantifier r = true ∧
      s ++ [r] <+: cs := by
  constructor
  · intro h
    cases hhead : (trimStart cs).head? with
    | none =>
        rw [hhead] at h
        cases h
    | some r =>
        rw [hhead] at h
        obtain ⟨more, hmore⟩ := List.head?_eq_some_iff.1 hhead
        obtain ⟨s, hcs, hs⟩ := exists_trimStart cs
        exact ⟨s, r, hs, h, more, by rw [List.append_assoc, List.singleton_append, ← hmore, ← hcs]⟩
  · rintro ⟨s, r, hs, hr, rest, rfl⟩
    rw [List.append_assoc, List.singleton_append,
      trimStart_append_cons hs (isBlank_of_isQuantifier hr)]
    exact hr

theorem isShownAlone_of_isQuantifier (h : isQuantifier c = true) : IsShownAlone c :=
  ⟨ne_of_class isQuantifier h (by decide), ne_of_class isQuantifier h (by decide)⟩

theorem hasStackedAfter_nil_cons : HasStackedAfter [] (a :: as) ↔
    ∃ q, a = .plain q ∧ isQuantifier q = true ∧
      (trimStart (as.flatMap shown)).head?.any isQuantifier = true := by
  have hshown {s : List Char} {r : Char} (hs : ∀ c ∈ s, isBlank c = true)
      (hr : isQuantifier r = true) : ∀ c ∈ s ++ [r], IsShownAlone c :=
    List.forall_mem_append.2 ⟨fun c hc => isShownAlone_of_isBlank (hs c hc),
      List.forall_mem_singleton.2 (isShownAlone_of_isQuantifier hr)⟩
  simp only [head?_trimStart_any_iff]
  constructor
  · rintro ⟨text, ⟨q, s, r, hq, hs, hr, rfl⟩, hpre⟩
    obtain ⟨ha, hrest⟩ := List.cons_prefix_cons.1 hpre
    exact ⟨q, ha.symm, hq, s, r, hs, hr, (prefix_flatMap_shown_iff (hshown hs hr)).2 hrest⟩
  · rintro ⟨q, rfl, hq, s, r, hs, hr, hrest⟩
    exact ⟨_, ⟨q, s, r, hq, hs, hr, rfl⟩,
      List.cons_prefix_cons.2 ⟨rfl, (prefix_flatMap_shown_iff (hshown hs hr)).1 hrest⟩⟩

theorem exists_hasStackedAfter_cons (p : Option Atom → Prop) :
    (∃ pre, HasStackedAfter pre (a :: as) ∧ p pre.getLast?) ↔
      HasStackedAfter [] (a :: as) ∧ p none ∨
        ∃ pre, HasStackedAfter pre as ∧ p (some (pre.getLast?.getD a)) := by
  have hcons (b : Atom) (pre : List Atom) :
      HasStackedAfter (b :: pre) (a :: as) ↔ b = a ∧ HasStackedAfter pre as := by
    simp [HasStackedAfter, List.cons_prefix_cons, and_left_comm]
  constructor
  · rintro ⟨pre, hstacked, hp⟩
    cases pre with
    | nil => exact .inl ⟨hstacked, hp⟩
    | cons b pre =>
        obtain ⟨rfl, hrest⟩ := (hcons b pre).1 hstacked
        exact .inr ⟨pre, hrest, by rwa [List.getLast?_cons] at hp⟩
  · rintro (⟨hstacked, hp⟩ | ⟨pre, hrest, hp⟩)
    · exact ⟨[], hstacked, hp⟩
    · exact ⟨a :: pre, (hcons a pre).2 ⟨rfl, hrest⟩, by rwa [List.getLast?_cons]⟩

/-- A quantifier with no backslash before it begins two of them. -/
theorem hasStackedFrom_flatMap_shown (before : Option Char) :
    hasStackedFrom before (as.flatMap shown) = true ↔
      ∃ pre, HasStackedAfter pre as ∧ (pre.getLast?.map lastShown).or before ≠ some '\\' := by
  induction as generalizing before with
  | nil =>
      have hnone (pre : List Atom) : ¬ HasStackedAfter pre [] := by
        rintro ⟨text, ⟨q, s, r, -, -, -, rfl⟩, hpre⟩
        simp at hpre
      simp [hasStackedFrom, hnone]
  | cons a as ih =>
      have hlater : hasStackedFrom (some a.lastShown) (as.flatMap shown) = true ↔
          ∃ pre, HasStackedAfter pre as ∧
            ((some (pre.getLast?.getD a)).map lastShown).or before ≠ some '\\' := by
        rw [ih]
        refine exists_congr fun pre => and_congr_right fun _ => ?_
        cases pre.getLast? <;> rfl
      rw [exists_hasStackedAfter_cons fun last => (last.map lastShown).or before ≠ some '\\',
        ← hlater, hasStackedAfter_nil_cons]
      cases a with
      | escaped c => simp [shown, hasStackedFrom, isQuantifier, lastShown]
      | bracketed cs => simp [shown, hasStackedFrom, isQuantifier, lastShown]
      | plain c =>
          simp [shown, hasStackedFrom, lastShown, and_comm, and_assoc]

/-! ## What is refused -/

/-- No backslash by itself stands before stacked quantifiers. -/
theorem HasStackedAfter.getLast?_ne_slash {pre : List Atom} (h : HasStackedAfter pre (atoms cs)) :
    pre.getLast? ≠ some (.plain '\\') := by
  intro hlast
  obtain ⟨text, ⟨q, s, r, -, -, -, rfl⟩, post, he⟩ := h
  obtain ⟨before, rfl⟩ := List.getLast?_eq_some_iff.1 hlast
  have hatoms : atoms cs = before ++ .plain '\\' :: ((q :: (s ++ [r])).map .plain ++ post) := by
    rw [← he]
    simp
  have hnil := eq_nil_of_atoms_eq hatoms
  simp at hnil

/-- A pattern is refused exactly if the opening of a look-ahead or a repetition without a lower bound
is among its atoms, whether or not the first character of these is escaped, or stacked quantifiers
that do not come after an escaped backslash. So if none of these begins with an escaped character,
and none comes after an escaped backslash, a pattern is refused exactly if it has a refused shape. -/
theorem isRefused_iff (pattern : List Char) :
    (atoms pattern).flatMap chars = pattern ∧
    (isRefused pattern = true ↔
      HasLookahead (.plain '(') (atoms pattern) ∨ HasLookahead (.escaped '(') (atoms pattern) ∨
      (∃ pre, HasStackedAfter pre (atoms pattern) ∧ pre.getLast? ≠ some (.escaped '\\')) ∨
      HasBoundless (.plain '\x7b') (atoms pattern) ∨
      HasBoundless (.escaped '\x7b') (atoms pattern)) ∧
    (¬ HasLookahead (.escaped '(') (atoms pattern) →
      ¬ HasBoundless (.escaped '\x7b') (atoms pattern) →
      (∀ pre, HasStackedAfter pre (atoms pattern) → pre.getLast? ≠ some (.escaped '\\')) →
      (isRefused pattern = true ↔ HasRefusedShape (atoms pattern))) := by
  have hslash (pre : List Atom) (h : HasStackedAfter pre (atoms pattern)) :
      (pre.getLast?.map lastShown).or none ≠ some '\\' ↔
        pre.getLast? ≠ some (.escaped '\\') := by
    cases hlast : pre.getLast? with
    | none => simp
    | some a =>
        have hplain : a ≠ .plain '\\' := by
          rintro rfl
          exact h.getLast?_ne_slash hlast
        cases a <;> simp_all [lastShown]
  have hexact : isRefused pattern = true ↔
      HasLookahead (.plain '(') (atoms pattern) ∨ HasLookahead (.escaped '(') (atoms pattern) ∨
      (∃ pre, HasStackedAfter pre (atoms pattern) ∧ pre.getLast? ≠ some (.escaped '\\')) ∨
      HasBoundless (.plain '\x7b') (atoms pattern) ∨
      HasBoundless (.escaped '\x7b') (atoms pattern) := by
    rw [isRefused]
    simp only [classesAsLetters_zero, Bool.or_eq_true, occursIn_flatMap_shown,
      hasStackedFrom_flatMap_shown, hasUnbounded_flatMap_shown, or_assoc]
    refine or_congr_right (or_congr_right (or_congr_left ?_))
    exact exists_congr fun pre => and_congr_right fun h => hslash pre h
  refine ⟨flatMap_chars_atoms pattern, hexact, fun hlookahead hboundless hstacked => ?_⟩
  have hany : (∃ pre, HasStackedAfter pre (atoms pattern) ∧
      pre.getLast? ≠ some (.escaped '\\')) ↔ ∃ pre, HasStackedAfter pre (atoms pattern) :=
    exists_congr fun pre => and_iff_left_of_imp (hstacked pre)
  rw [hexact, hany, HasRefusedShape, or_iff_right hlookahead, or_iff_left hboundless]

/-- Quantifiers in classes and an escaped one do not count, and two with a blank between them do. -/
theorem isRefused_of_blank :
    let as := [.bracketed ['[', '*', '+', ']'], .plain '+', .escaped '*', .plain '+',
      .bracketed ['[', ']', '+', ']'], .plain '*', .plain ' ', .plain '+']
    atoms "[*+]+\\*+[]+]* +".toList = as ∧ ¬ HasLookahead (.escaped '(') as ∧
      ¬ HasBoundless (.escaped '\x7b') as ∧
      (∀ pre, HasStackedAfter pre as → pre.getLast? ≠ some (.escaped '\\')) ∧
      isRefused "[*+]+\\*+[]+]* +".toList = true ∧ HasRefusedShape as := by
  intro as
  have hatoms : atoms "[*+]+\\*+[]+]* +".toList = as := by decide +kernel
  have hlookahead : ¬ HasLookahead (.escaped '(') as := fun h =>
    absurd (h.subset List.mem_cons_self) (by decide)
  have hboundless : ¬ HasBoundless (.escaped '\x7b') as := fun ⟨_, _, h⟩ =>
    absurd (h.subset List.mem_cons_self) (by decide)
  have hstacked (pre : List Atom) (h : HasStackedAfter pre as) :
      pre.getLast? ≠ some (.escaped '\\') := by
    obtain ⟨text, -, hpre⟩ := h
    intro hlast
    have hmem := hpre.subset (List.mem_append_left _ (List.mem_of_getLast? hlast))
    exact absurd hmem (by decide)
  have hrefused : isRefused "[*+]+\\*+[]+]* +".toList = true := by decide
  have hshape := (isRefused_iff "[*+]+\\*+[]+]* +".toList).2.2
  rw [hatoms] at hshape
  exact ⟨hatoms, hlookahead, hboundless, hstacked, hrefused,
    (hshape hlookahead hboundless hstacked).1 hrefused⟩

/-- An escaped parenthesis that may be left out, before an equals sign, is refused as the opening of
a look-ahead. -/
theorem not_forall_isRefused_iff :
    ¬ ∀ pattern : List Char, isRefused pattern = true ↔ HasRefusedShape (atoms pattern) := by
  intro h
  have hatoms : atoms "\\(?=".toList = [.escaped '(', .plain '?', .plain '='] := by decide +kernel
  have hrefused := (h "\\(?=".toList).1 (by decide)
  rw [hatoms] at hrefused
  rcases hrefused with hlookahead | ⟨pre, text, ⟨q, s, r, hq, -, -, rfl⟩, hstacked⟩ |
    ⟨tail, -, hboundless⟩
  · exact absurd (hlookahead.subset List.mem_cons_self) (by decide)
  · have hmem := hstacked.subset (List.mem_append_right _ List.mem_cons_self)
    simp only [List.mem_cons, List.not_mem_nil, or_false, reduceCtorEq, false_or,
      Atom.plain.injEq] at hmem
    rcases hmem with rfl | rfl <;> cases hq
  · exact absurd (hboundless.subset List.mem_cons_self) (by decide)

end Sluice.Pattern
