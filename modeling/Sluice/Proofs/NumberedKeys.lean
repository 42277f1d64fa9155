import Sluice.Proofs.PathSegments
import Sluice.Proofs.Walking

/-!
# Numbers as keys

Digits in brackets are a number; between quotes in brackets they are a text. On a list the text is
read as a number, and on an object the number is written as a text, so it does not matter which of
the two is asked for as long as the number has room in an index and the text is the one that would
be written for it.
-/
namespace Sluice

open Sluice.Text

namespace Path

variable {cs bs inner tail word : List Char} {steps : List Step} {v : Value}

/-! ## A bracket after a path -/

theorem wordSteps_append_blanks (hbs : ∀ c ∈ bs, isBlank c = true) (word : List Char) :
    wordSteps (word ++ bs) = wordSteps word := by
  simp only [wordSteps, trim_append_blanks hbs]

theorem ne_of_isBlank {c : Char} (h : isBlank c = true) : c ≠ '.' ∧ c ≠ '[' ∧ c ≠ ']' :=
  ⟨ne_of_class isBlank h (by decide), ne_of_class isBlank h (by decide),
    ne_of_class isBlank h (by decide)⟩

/-- What stands before a bracket is read by itself, and blanks between the two are none of a word. -/
theorem stepsFrom_append_bracket (h : stepsFrom word cs = .ok steps)
    (hbs : ∀ c ∈ bs, isBlank c = true) (tail : List Char) :
    stepsFrom word (cs ++ (bs ++ '[' :: tail)) =
      (stepsFrom [] ('[' :: tail)).map (steps ++ ·) := by
  fun_induction stepsFrom word cs generalizing steps with
  | case1 word =>
      cases h
      rw [List.nil_append, stepsFrom_word fun c hc => ne_of_isBlank (hbs c hc),
        stepsFrom_of_endsWord (by simp [EndsWord]), wordSteps_append_blanks hbs]
  | case3 word rest more hmore ih =>
      cases h
      rw [List.cons_append, stepsFrom_point, ih hmore]
      cases stepsFrom [] ('[' :: tail) <;> simp [Except.map]
  | case7 word rest inner rest' hread step hclassify _ more hmore _ ih =>
      cases h
      obtain ⟨rfl, hbody⟩ := exists_of_readBracket hread
      rw [List.cons_append, List.append_assoc, List.cons_append, stepsFrom_bracket,
        BracketBody.readBracket_append hbody]
      simp only [hclassify, ih hmore]
      cases stepsFrom [] ('[' :: tail) <;> simp [Except.map]
  | case9 word c rest hpoint hopen hclose ih =>
      rw [List.cons_append, stepsFrom, if_neg hpoint, if_neg hopen, if_neg hclose]
      exact ih h
  | case2 | case4 | case5 | case6 | case8 => cases h

theorem stepsOf_append_bracket (h : stepsOf cs = .ok steps) (hbs : ∀ c ∈ bs, isBlank c = true)
    (tail : List Char) :
    stepsOf (cs ++ (bs ++ '[' :: tail)) = (stepsFrom [] ('[' :: tail)).map (steps ++ ·) := by
  unfold stepsOf at h
  split at h
  · next rest =>
      obtain ⟨more, hmore, rfl⟩ : ∃ more, stepsFrom [] rest = .ok more ∧ steps = .root :: more := by
        cases hrest : stepsFrom [] rest <;> rw [hrest] at h <;> cases h
        exact ⟨_, rfl, rfl⟩
      change (stepsFrom [] (rest ++ (bs ++ '[' :: tail))).map (Step.root :: ·) = _
      rw [stepsFrom_append_bracket hmore hbs]
      cases stepsFrom [] ('[' :: tail) <;> rfl
  · next hroot =>
      have hhead : ∀ rest, cs ++ (bs ++ '[' :: tail) ≠ '$' :: rest := by
        intro rest he
        cases cs with
        | cons c cs =>
            obtain ⟨rfl, -⟩ := List.cons_eq_cons.1 he
            exact hroot cs rfl
        | nil =>
            cases bs with
            | nil => cases he
            | cons b bs =>
                obtain ⟨rfl, -⟩ := List.cons_eq_cons.1 he
                exact absurd (hbs '$' List.mem_cons_self) (by decide)
      rw [← stepsFrom_append_bracket h hbs]
      unfold stepsOf
      split
      · next rest he => exact absurd he (hhead rest)
      · rfl

theorem stepsOf_of_ofText {path : String} {p : Path} (h : ofText path = .ok p) :
    stepsOf (trim path.toList) = .ok p.steps := by
  simp only [ofText] at h
  split at h
  · next steps hsteps =>
      cases h
      exact hsteps
  · cases h

/-- A text with brackets after it. -/
def bracketed (path : String) (inner : List Char) : String :=
  path ++ "[" ++ String.ofList inner ++ "]"

/-- A path with brackets after it is read as its steps and the step of the brackets. -/
theorem stepsOf_bracketed {path : String} {p : Path} (h : ofText path = .ok p)
    (hinner : BracketBody inner) :
    stepsOf (trim (bracketed path inner).toList) =
      (classify inner).map fun step => p.steps ++ [step] := by
  have hsteps := stepsOf_of_ofText h
  have htrim : trim (bracketed path inner).toList =
      trimStart path.toList ++ '[' :: (inner ++ [']']) := by
    have htext : (bracketed path inner).toList = path.toList ++ '[' :: (inner ++ [']']) := by
      simp [bracketed]
    have hstart : trimStart (path.toList ++ '[' :: (inner ++ [']'])) =
        trimStart path.toList ++ '[' :: (inner ++ [']']) := by
      have hbracket : isBlank '[' = false := by decide
      simp only [trimStart, List.dropWhile_append, List.isEmpty_iff]
      split
      · next hnil => simp [hnil, hbracket]
      · rfl
    rw [htext, trim, hstart, trimEnd_eq_self]
    simpa [List.getLast?_append, List.getLast?_cons] using (by decide : isBlank ']' = false)
  obtain ⟨after, hafter, hblanks⟩ := exists_trimEnd (trimStart path.toList)
  rw [htrim, hafter, ← trim, List.append_assoc, stepsOf_append_bracket hsteps hblanks,
    hinner.stepsFrom_append]
  cases classify inner <;> simp [Except.map, stepsFrom_nil]

theorem walk_concat {step : Step} (hstep : ∀ name, step ≠ .property name) (steps : List Step)
    (v : Value) : walk (steps ++ [step]) v = walk [step] (walk steps v) := by
  have hcut : ¬ ((Stand.start v).run steps).GoesItemwise [step] := by
    rintro ⟨-, -, name, rest, he⟩
    cases he
    exact hstep name rfl
  rw [walk_eq_run, Stand.run_append, Stand.run_of_not_goesItemwise hcut, ← walk_eq_run,
    ← walk_eq_run]

/-- From an absent value brackets lead nowhere. -/
theorem walk_singleton {step : Step} (hstep : step.IsBracketed) (v : Value) :
    walk [step] v = step.apply v := by
  have hrun : walk [step] v = ((Stand.start v).advance step).value := walk_eq_run _ _
  rw [hrun]
  by_cases habsent : v.isAbsent = true
  · rw [Stand.advance_of_isAbsent habsent]
    cases v with
    | null | missing => cases step <;> first | rfl | cases hstep
    | _ => cases habsent
  · have halone : ¬ (Stand.start v).GoesItemwise [step] := Stand.not_goesItemwise nofun
    rw [Stand.advance_alone habsent halone]
    rfl

end Path

open Sluice.Path

/-- A path with brackets after it leads on from where the path leads. -/
theorem Value.follow_bracketed {path : String} {p : Path} {inner : List Char}
    (h : Path.ofText path = .ok p) (hinner : BracketBody inner) (v : Value) :
    v.follow (bracketed path inner) =
      match classify inner with
      | .ok step => step.apply (v.follow path)
      | .error _ => .missing := by
  have hsteps := stepsOf_bracketed h hinner
  have hfollow : v.follow path = walk p.steps v := by
    simp only [Value.follow, h, Path.follow]
  cases hclassify : classify inner with
  | error e =>
      rw [hclassify] at hsteps
      simp only [Value.follow, Path.ofText, hsteps, Except.map]
  | ok step =>
      have hbracketed := isBracketed_of_classify hclassify
      have hstep : ∀ name, step ≠ .property name := fun name he => by
        rw [he] at hbracketed
        exact hbracketed
      rw [hclassify] at hsteps
      have hwalk : v.follow (bracketed path inner) = walk (p.steps ++ [step]) v := by
        simp only [Value.follow, Path.ofText, hsteps, Except.map, Path.follow]
      rw [hwalk, walk_concat hstep, walk_singleton hbracketed, hfollow]

/-! ## Digits in brackets -/

section

variable {k : String} (hne : k ≠ "") (hdigits : ∀ c ∈ k.toList, isAsciiDigit c = true)
include hdigits

theorem fits_of_digits : (Segment.bare k.toList).Fits := by
  intro c hc
  have hmem : c ∉ [']', '\'', '"'] := not_mem_of_class isAsciiDigit (by decide) (hdigits c hc)
  simp only [List.mem_cons, List.not_mem_nil, or_false, not_or] at hmem
  simpa [isQuote] using hmem

theorem trim_of_digits : trim k.toList = k.toList :=
  trim_eq_self_of_forall fun c hc => isBlank_of_class isAsciiDigit (by decide) (hdigits c hc)

include hne

theorem classify_of_digits : classify k.toList =
    if digitsValue k.toList ≤ maxIndex then .ok (.index (digitsValue k.toList))
    else .error .indexOutOfRange := by
  have htrim := trim_of_digits hdigits
  have hbare := Segment.isBare_of_digits (fits_of_digits hdigits)
    (by rw [htrim]; simpa using hne) (by rwa [htrim])
  rw [htrim] at hbare
  rw [hbare.1.classify_eq]
  simp only [hbare.2, List.all_eq_true.2 hdigits, if_true]

theorem keyIndex?_of_digits : keyIndex? k =
    if digitsValue k.toList ≤ maxIndex then some (digitsValue k.toList) else none := by
  have hplus : ∀ rest, k.toList ≠ '+' :: rest := fun rest he =>
    absurd (hdigits '+' (by simp [he])) (by decide)
  have hempty : k.toList.isEmpty = false := by simpa using hne
  simp [keyIndex?, hempty, List.all_eq_true.2 hdigits]

/-- On anything but an object a number and its digits are asked for alike. -/
theorem apply_index_eq_apply_key {w : Value} (hw : w.object? = none)
    (hmax : digitsValue k.toList ≤ maxIndex) :
    (Step.index (digitsValue k.toList)).apply w = (Step.key k).apply w := by
  cases w with
  | array items => simp [Step.apply, keyIndex?_of_digits hne hdigits, hmax]
  | object entries => cases hw
  | _ => rfl

theorem apply_key_of_not_le {w : Value} (hw : w.object? = none)
    (hmax : ¬ digitsValue k.toList ≤ maxIndex) : (Step.key k).apply w = .missing := by
  cases w with
  | array items => simp [Step.apply, keyIndex?_of_digits hne hdigits, hmax]
  | object entries => cases hw
  | _ => rfl

/-- On an object too, if these are the digits that are written for the number. -/
theorem apply_index_eq_apply_key_of_canonical (w : Value) (hmax : digitsValue k.toList ≤ maxIndex)
    (hhead : k.toList.head? ≠ some '0' ∨ k = "0") :
    (Step.index (digitsValue k.toList)).apply w = (Step.key k).apply w := by
  have hwritten : natDigits (digitsValue k.toList) = k.toList := by
    rcases hhead with hhead | rfl
    · exact (natDigits_digitsValue (by simpa using hne) hdigits hhead).2
    · decide
  cases w with
  | object entries => simp [Step.apply, hwritten]
  | _ => exact apply_index_eq_apply_key hne hdigits rfl hmax

end

variable {path k : String} {p : Path}

theorem bracketed_toList (path k : String) :
    bracketed path k.toList = path ++ "[" ++ k ++ "]" := by
  simp [bracketed]

theorem bracketed_quoted (path k : String) :
    bracketed path ('\'' :: (k.toList ++ ['\''])) = path ++ "['" ++ k ++ "']" :=
  String.toList_injective (by simp [bracketed])

theorem follow_quoted (hpath : Path.ofText path = .ok p) (hquote : '\'' ∉ k.toList) (v : Value) :
    v.follow (path ++ "['" ++ k ++ "']") = (Step.key k).apply (v.follow path) := by
  rw [← bracketed_quoted, Value.follow_bracketed hpath (.quotedName hquote),
    classify_quoted (by decide), String.ofList_toList]

/-- Digits in brackets after a path lead where they lead between quotes: from anything but an object
whatever the digits are, and from an object too if the number has room in an index and no zero stands
in front of other digits. A number that is too great for an index is no path after any path, and leads
nowhere. -/
theorem follow_number_eq_follow_key (hpath : Path.ofText path = .ok p) (hne : k ≠ "")
    (hdigits : ∀ c ∈ k.toList, isAsciiDigit c = true) (v : Value) :
    ((v.follow path).object? = none →
      v.follow (path ++ "[" ++ k ++ "]") = v.follow (path ++ "['" ++ k ++ "']")) ∧
    (digitsValue k.toList ≤ maxIndex → (k.toList.head? ≠ some '0' ∨ k = "0") →
      v.follow (path ++ "[" ++ k ++ "]") = v.follow (path ++ "['" ++ k ++ "']")) ∧
    (maxIndex < digitsValue k.toList →
      Path.ofText (path ++ "[" ++ k ++ "]") =
        .error (.invalidPath (trimmed (path ++ "[" ++ k ++ "]")) .indexOutOfRange) ∧
      v.follow (path ++ "[" ++ k ++ "]") = .missing) := by
  have hbody : BracketBody k.toList :=
    .of_forall fun c hc => (fits_of_digits hdigits c hc).symm
  have hquote : '\'' ∉ k.toList := fun hmem => absurd (hdigits _ hmem) (by decide)
  have hclassify := classify_of_digits hne hdigits
  have hnumber := Value.follow_bracketed hpath hbody v
  rw [bracketed_toList, hclassify] at hnumber
  rw [follow_quoted hpath hquote]
  by_cases hmax : digitsValue k.toList ≤ maxIndex
  · rw [if_pos hmax] at hnumber
    rw [hnumber]
    refine ⟨fun hw => ?_, fun _ hhead => ?_, fun hlarge => absurd hmax (Nat.not_le.2 hlarge)⟩
    · exact apply_index_eq_apply_key hne hdigits hw hmax
    · exact apply_index_eq_apply_key_of_canonical hne hdigits _ hmax hhead
  · rw [if_neg hmax] at hnumber
    rw [hnumber]
    refine ⟨fun hw => ?_, fun hle => absurd hle hmax, fun _ => ⟨?_, rfl⟩⟩
    · exact (apply_key_of_not_le hne hdigits hw hmax).symm
    · have hsteps := stepsOf_bracketed hpath hbody
      rw [bracketed_toList, hclassify, if_neg hmax] at hsteps
      simp only [Path.ofText, hsteps, Except.map]
      rfl

/-- An entry of an object that is named by a number. -/
theorem follow_number_eq_follow_key_of_entry :
    Path.ofText "$.m" = .ok ⟨"$.m", [.root, .property "m"]⟩ ∧ "10" ≠ "" ∧
      (∀ c ∈ "10".toList, isAsciiDigit c = true) ∧ digitsValue "10".toList ≤ maxIndex ∧
      "10".toList.head? ≠ some '0' ∧
      ∀ v : Value, v.follow "$.m[10]" = v.follow "$.m['10']" := by
  have hpath : Path.ofText "$.m" = .ok ⟨"$.m", [.root, .property "m"]⟩ := by decide +kernel
  have hdigits : ∀ c ∈ "10".toList, isAsciiDigit c = true := List.all_eq_true.1 (by decide)
  have hmax : digitsValue "10".toList ≤ maxIndex := by decide
  have hhead : "10".toList.head? ≠ some '0' := by decide
  exact ⟨hpath, by decide, hdigits, hmax, hhead, fun v =>
    (follow_number_eq_follow_key hpath (by decide) hdigits v).2.1 hmax (.inl hhead)⟩

/-- A number that has no room in an index, and a number with zeros in front. -/
theorem not_forall_follow_number :
    (¬ ∀ v : Value,
      v.follow "$[99999999999999999999]" = v.follow "$['99999999999999999999']") ∧
    ¬ ∀ v : Value, v.follow "$[007]" = v.follow "$['007']" := by
  constructor
  · intro h
    have hnumber : Path.ofText "$[99999999999999999999]" =
        .error (.invalidPath "$[99999999999999999999]" .indexOutOfRange) := by decide +kernel
    have hkey : Path.ofText "$['99999999999999999999']" =
        .ok ⟨"$['99999999999999999999']", [.root, .key "99999999999999999999"]⟩ := by
      decide +kernel
    have hentry := h (.object [("99999999999999999999", .null)])
    rw [Value.follow, Value.follow, hnumber, hkey] at hentry
    cases hentry
  · intro h
    have hnumber : Path.ofText "$[007]" = .ok ⟨"$[007]", [.root, .index 7]⟩ := by decide +kernel
    have hkey : Path.ofText "$['007']" = .ok ⟨"$['007']", [.root, .key "007"]⟩ := by
      decide +kernel
    have hentry := h (.object [("007", .null)])
    rw [Value.follow, Value.follow, hnumber, hkey] at hentry
    cases hentry

end Sluice
