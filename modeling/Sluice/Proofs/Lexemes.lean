import Sluice.Token.Scan
import Mathlib.Data.List.TakeWhile

/-!
# What the rules match

A rule gives a length. Here it is said of each rule which characters are in the text of that
length, and a path is cut into its segments. No rule matches the empty text, so that a scan
always moves on.
-/
namespace Sluice.Token

open Sluice.Text

variable {p : Char → Bool} {cs : List Char} {c : Char} {n : Nat}

/-- The length of a run that ends where the text does or a character without the property
stands. -/
theorem runLength_append {run tail : List Char} (hrun : ∀ c ∈ run, p c = true)
    (htail : ∀ c ∈ tail.head?, p c = false) : runLength p (run ++ tail) = run.length := by
  have hstop : tail.takeWhile p = [] := by
    cases tail with
    | nil => rfl
    | cons c tail => simp [htail c (by simp)]
  rw [runLength, List.takeWhile_append_of_pos hrun, hstop, List.append_nil]

/-- Every text is a run and a rest that does not go on with it. -/
theorem exists_run (p : Char → Bool) (cs : List Char) :
    ∃ run tail, cs = run ++ tail ∧ (∀ c ∈ run, p c = true) ∧ (∀ c ∈ tail.head?, p c = false) := by
  refine ⟨cs.takeWhile p, cs.dropWhile p, List.takeWhile_append_dropWhile.symm, ?_, ?_⟩
  · intro c hc
    exact List.mem_takeWhile_imp hc
  · intro c hc
    have h := List.head?_dropWhile_not p cs
    rw [Option.mem_def.1 hc] at h
    simpa using h

theorem of_mem_take_runLength (h : c ∈ cs.take (runLength p cs)) : p c = true := by
  obtain ⟨run, tail, rfl, hrun, htail⟩ := exists_run p cs
  rw [runLength_append hrun htail, List.take_left] at h
  exact hrun c h

theorem someRun_eq_some : someRun p cs = some n ↔ runLength p cs = n ∧ 0 < n := by
  unfold someRun
  split
  · next h =>
      rw [h]
      simp only [reduceCtorEq, false_iff]
      omega
  · next m h =>
      rw [h, Option.some.injEq]
      omega

theorem of_mem_take_someRun (h : someRun p cs = some n) (hc : c ∈ cs.take n) : p c = true := by
  obtain ⟨rfl, -⟩ := someRun_eq_some.1 h
  exact of_mem_take_runLength hc

/-- The token at the start of a text is the match of one of the rules. -/
theorem exists_rule_of_first? {kind : Kind} (h : first? cs = some (kind, n)) :
    ∃ rule, (kind, rule) ∈ rules ∧ rule cs = some n := by
  obtain ⟨⟨kind', rule⟩, hmem, hrule⟩ := List.exists_of_findSome?_eq_some h
  obtain ⟨m, hm, he⟩ := Option.map_eq_some_iff.1 hrule
  cases he
  exact ⟨rule, hmem, hm⟩

theorem mem_of_templateLength (h : templateLength cs = some n) : '\x7b' ∈ cs := by
  revert h
  fun_cases templateLength cs <;> simp

theorem mem_of_quotedTemplateLength {q : Char} (h : quotedTemplateLength q cs = some n) :
    '\x7b' ∈ cs := by
  revert h
  fun_cases quotedTemplateLength q cs with
  | case2 rest m hm =>
      intro _
      exact List.mem_cons_of_mem _ (mem_of_templateLength hm)
  | _ => simp

theorem pos_of_stringLength (h : stringLength cs = some n) : 0 < n := by
  revert h
  fun_cases stringLength cs with
  | case1 q rest hq =>
      intro h
      obtain ⟨m, -, rfl⟩ := Option.map_eq_some_iff.1 h
      exact Nat.succ_pos m
  | _ => simp

theorem pos_of_numberLength (h : numberLength cs = some n) : 0 < n := by
  revert h
  fun_cases numberLength cs with
  | case1 => simp
  | case2 whole hwhole fraction =>
      rintro ⟨⟩
      have := (someRun_eq_some.1 hwhole).2
      omega

/-- No rule matches the empty text. -/
theorem pos_of_first? {kind : Kind} (h : first? cs = some (kind, n)) : 0 < n := by
  obtain ⟨rule, hmem, hrule⟩ := exists_rule_of_first? h
  simp only [rules, List.mem_cons, Prod.mk.injEq, List.not_mem_nil, or_false] at hmem
  revert hrule
  rcases hmem with ⟨-, rfl⟩ | ⟨-, rfl⟩ | ⟨-, rfl⟩ | ⟨-, rfl⟩ | ⟨-, rfl⟩ | ⟨-, rfl⟩ | ⟨-, rfl⟩ |
    ⟨-, rfl⟩ | ⟨-, rfl⟩ | ⟨-, rfl⟩ | ⟨-, rfl⟩
  case inr.inr.inr.inr.inr.inr.inl => exact pos_of_stringLength
  case inr.inr.inr.inr.inr.inr.inr.inl => exact pos_of_numberLength
  · fun_cases quotedTemplateLength <;> grind
  · fun_cases quotedTemplateLength <;> grind
  · fun_cases templateLength <;> grind
  · fun_cases pathLength <;> grind
  · fun_cases operatorLength <;> grind
  · fun_cases identifierLength <;> grind
  · fun_cases charLength <;> grind
  · fun_cases charLength <;> grind
  · fun_cases charLength <;> grind

/-- The characters of numbers. -/
def isNumeric (c : Char) : Bool :=
  isDecimal c || c == '.' || c == 'e' || c == 'E' || c == '+' || c == '-'

theorem isNumeric_of_isDecimal (h : isDecimal c = true) : isNumeric c = true := by
  simp [isNumeric, h]

theorem isNumeric_of_mem_digits {m : Nat} (h : someRun isDecimal cs = some m)
    (hc : c ∈ cs.take m) : isNumeric c = true :=
  isNumeric_of_isDecimal (of_mem_take_someRun h hc)

theorem isNumeric_of_mem_fraction (h : c ∈ cs.take (fractionLength cs)) :
    isNumeric c = true := by
  revert h
  fun_cases fractionLength cs with
  | case1 rest m hm =>
      rw [List.take_succ_cons, List.mem_cons]
      rintro (rfl | hc)
      · decide
      · exact isNumeric_of_mem_digits hm hc
  | case2 => simp
  | case3 => simp

theorem isNumeric_of_mem_exponent (h : c ∈ cs.take (exponentLength cs)) :
    isNumeric c = true := by
  have hmark : ∀ e, e = 'e' ∨ e = 'E' → isNumeric e = true := by
    rintro e (rfl | rfl) <;> decide
  have hsign : ∀ s, s = '+' ∨ s = '-' → isNumeric s = true := by
    rintro s (rfl | rfl) <;> decide
  revert h
  fun_cases exponentLength cs with
  | case1 e he s rest hs m hm =>
      rw [List.take_succ_cons, List.take_succ_cons, List.mem_cons, List.mem_cons]
      rintro (rfl | rfl | hc)
      · exact hmark _ he
      · exact hsign _ hs
      · exact isNumeric_of_mem_digits hm hc
  | case3 e he s rest hs m hm =>
      rw [List.take_succ_cons, List.mem_cons]
      rintro (rfl | hc)
      · exact hmark _ he
      · exact isNumeric_of_mem_digits hm hc
  | _ => simp

theorem isNumeric_of_mem_number (h : numberLength cs = some n) (hc : c ∈ cs.take n) :
    isNumeric c = true := by
  unfold numberLength at h
  split at h
  · cases h
  · next whole hwhole =>
      cases h
      rw [List.take_add, List.take_add] at hc
      simp only [List.mem_append] at hc
      rcases hc with (hc | hc) | hc
      · exact isNumeric_of_mem_digits hwhole hc
      · exact isNumeric_of_mem_fraction hc
      · exact isNumeric_of_mem_exponent hc

theorem isNameStart_or_isWord_of_mem (h : identifierLength cs = some n) (hc : c ∈ cs.take n) :
    isNameStart c = true ∨ isWord c = true := by
  revert h hc
  fun_cases identifierLength cs with
  | case1 e rest he =>
      rintro ⟨⟩ hc
      rcases List.mem_cons.1 (List.take_succ_cons ▸ hc) with rfl | hc
      · exact .inl he
      · exact .inr (of_mem_take_runLength hc)
  | _ => simp

/-- The forms of a path segment. -/
inductive IsSegment : List Char → Prop where
  | wildcard : IsSegment ['.', '*']
  | word {w : List Char} (h : ∀ c ∈ w, isWord c = true) : IsSegment w
  | property {w : List Char} (h : ∀ c ∈ w, isWord c = true) : IsSegment ('.' :: w)
  | quoted {q : Char} {body : List Char} (hq : isQuote q = true) (h : q ∉ body) :
      IsSegment ('[' :: q :: (body ++ [q, ']']))
  | brackets {body : List Char} (h : ∀ c ∈ body, c ≠ ']' ∧ isQuote c = false) :
      IsSegment ('[' :: (body ++ [']']))

theorem bracketLength_quoted {q : Char} {body : List Char} (hq : isQuote q = true)
    (hbody : q ∉ body) (after : List Char) :
    bracketLength (q :: (body ++ q :: ']' :: after)) = some (body.length + 3) := by
  have hrun : ∀ c ∈ body, (c != q) = true := fun c hc => by
    simpa using ne_of_mem_of_not_mem hc hbody
  simp only [bracketLength, hq, if_true]
  rw [runLength_append hrun (by simp), List.drop_left]
  rfl

theorem bracketLength_bare {body : List Char} (hbody : ∀ c ∈ body, c ≠ ']' ∧ isQuote c = false)
    (after : List Char) :
    bracketLength (body ++ ']' :: after) = some (body.length + 1) := by
  have hlength : runLength (fun d => d != ']' && !isQuote d) (body ++ ']' :: after) = body.length :=
    runLength_append (by simpa using hbody) (by simp)
  have hhead : ∀ c ∈ (body ++ ']' :: after).head?, isQuote c = false := by
    cases body with
    | nil => simp [isQuote]
    | cons c body => simpa using (hbody c (by simp)).2
  unfold bracketLength
  split
  · next h => simp at h
  · next c rest h =>
      rw [h] at hhead
      simp [hhead c (by simp), hlength]

/-- The inside of brackets is one of two forms. -/
theorem exists_of_bracketLength (h : bracketLength cs = some n) :
    (∃ q body after, isQuote q = true ∧ q ∉ body ∧ cs = q :: (body ++ q :: ']' :: after) ∧
      n = body.length + 3) ∨
    (∃ body after, (∀ c ∈ body, c ≠ ']' ∧ isQuote c = false) ∧ cs = body ++ ']' :: after ∧
      n = body.length + 1) := by
  unfold bracketLength at h
  split at h
  · cases h
  · next q rest =>
      split at h
      · next hq =>
          obtain ⟨body, tail, rfl, hbody, htail⟩ := exists_run (· != q) rest
          simp only [runLength_append hbody htail, List.drop_left] at h
          split at h
          · next d after =>
              cases h
              have hd : d = q := by simpa using htail d (by simp)
              subst hd
              exact .inl ⟨d, body, after, hq, fun hmem => by simpa using hbody d hmem, rfl, rfl⟩
          · cases h
      · obtain ⟨body, tail, he, hbody, htail⟩ :=
          exists_run (fun d => d != ']' && !isQuote d) (q :: rest)
        rw [he] at h ⊢
        simp only [runLength_append hbody htail] at h
        split at h
        · next hclose =>
            cases h
            rw [List.getElem?_append_right (Nat.le_refl _), Nat.sub_self] at hclose
            obtain ⟨after, rfl⟩ : ∃ after, tail = ']' :: after := by
              cases tail <;> simp_all
            exact .inr ⟨body, after, by simpa using hbody, rfl, rfl⟩
        · cases h

theorem isSegment_of_bracketLength (h : bracketLength cs = some n) :
    IsSegment ('[' :: cs.take n) := by
  rcases exists_of_bracketLength h with ⟨q, body, after, hq, hbody, rfl, rfl⟩ |
    ⟨body, after, hbody, rfl, rfl⟩
  · rw [List.take_succ_cons, List.take_length_add_append]
    exact .quoted hq hbody
  · rw [List.take_length_add_append]
    exact .brackets hbody

/-- What stands after the closing bracket does not matter. -/
theorem bracketLength_append (h : bracketLength cs = some n) (tail : List Char) :
    bracketLength (cs.take n ++ tail) = some n := by
  rcases exists_of_bracketLength h with ⟨q, body, after, hq, hbody, rfl, rfl⟩ |
    ⟨body, after, hbody, rfl, rfl⟩
  · rw [List.take_succ_cons, List.take_length_add_append]
    simpa using bracketLength_quoted hq hbody tail
  · rw [List.take_length_add_append]
    simpa using bracketLength_bare hbody tail

theorem isSegment_of_segmentLength (h : segmentLength cs = some n) : IsSegment (cs.take n) := by
  revert h
  fun_cases segmentLength cs with
  | case1 rest =>
      intro h
      cases h
      exact .wildcard
  | case2 rest =>
      intro h
      obtain ⟨m, hm, rfl⟩ := Option.map_eq_some_iff.1 h
      exact .property fun c hc => of_mem_take_someRun hm hc
  | case3 rest =>
      intro h
      obtain ⟨m, hm, rfl⟩ := Option.map_eq_some_iff.1 h
      exact isSegment_of_bracketLength hm
  | case4 =>
      intro h
      exact .word fun c hc => of_mem_take_someRun h hc

theorem exists_of_pathLength (h : pathLength cs = some n) : ∃ path, cs = '$' :: path := by
  unfold pathLength at h
  split at h
  · exact ⟨_, rfl⟩
  · cases h

/-- The segments at the start of a text. -/
def segments (cs : List Char) : List (List Char) :=
  match cs with
  | [] => []
  | c :: rest =>
      match segmentLength (c :: rest) with
      | some (n + 1) => (c :: rest.take n) :: segments (rest.drop n)
      | _ => []
termination_by cs.length
decreasing_by simp only [List.length_drop, List.length_cons]; omega

theorem flatten_segments (cs : List Char) :
    (segments cs).flatten = cs.take (segmentsLength cs) := by
  fun_induction segments cs with
  | case1 => simp [segmentsLength]
  | case2 c rest n h ih =>
      rw [segmentsLength, h]
      simp only [List.flatten_cons, ih]
      rw [Nat.add_right_comm, List.take_succ_cons, List.take_add, List.cons_append]
  | case3 c rest h =>
      rw [segmentsLength]
      split
      · next n hn => exact absurd hn (h n)
      · rfl

theorem forall_mem_segments {good : List Char → Prop}
    (h : ∀ {cs n}, segmentLength cs = some n → good (cs.take n)) (cs : List Char) :
    ∀ s ∈ segments cs, good s := by
  intro s hs
  fun_induction segments cs with
  | case1 => simp at hs
  | case2 c rest n hn ih =>
      rcases List.mem_cons.1 hs with rfl | hs
      · exact h hn
      · exact ih hs
  | case3 => simp at hs

theorem isSegment_of_mem_segments {s : List Char} (h : s ∈ segments cs) : IsSegment s :=
  forall_mem_segments isSegment_of_segmentLength cs s h

/-- A run before a text that does not go on with it. -/
theorem someRun_append {run tail : List Char} (hrun : ∀ c ∈ run, p c = true)
    (htail : ∀ c ∈ tail.head?, p c = false) (hne : run ≠ []) :
    someRun p (run ++ tail) = some run.length := by
  rw [someRun_eq_some, runLength_append hrun htail]
  exact ⟨rfl, List.length_pos_iff.2 hne⟩

theorem exists_of_someRun (h : someRun p cs = some n) :
    ∃ run tail, cs = run ++ tail ∧ run.length = n ∧ run ≠ [] ∧ (∀ c ∈ run, p c = true) ∧
      ∀ c ∈ tail.head?, p c = false := by
  obtain ⟨run, tail, rfl, hrun, htail⟩ := exists_run p cs
  rw [someRun_eq_some, runLength_append hrun htail] at h
  exact ⟨run, tail, rfl, h.1, List.length_pos_iff.1 (by omega), hrun, htail⟩

theorem segmentLength_property {run tail : List Char} (hrun : ∀ c ∈ run, isWord c = true)
    (hne : run ≠ []) (htail : ∀ c ∈ tail.head?, isWord c = false) :
    segmentLength ('.' :: (run ++ tail)) = some (run.length + 1) := by
  have hstar : ∀ rest, run ++ tail ≠ '*' :: rest := by
    intro rest he
    obtain ⟨c, run, rfl⟩ := List.exists_cons_of_ne_nil hne
    cases he
    exact absurd (hrun '*' (by simp)) (by decide)
  rw [segmentLength.eq_2 _ hstar, someRun_append hrun htail hne]
  rfl

theorem segmentLength_word {run tail : List Char} (hrun : ∀ c ∈ run, isWord c = true)
    (hne : run ≠ []) (htail : ∀ c ∈ tail.head?, isWord c = false) :
    segmentLength (run ++ tail) = some run.length := by
  obtain ⟨c, run, rfl⟩ := List.exists_cons_of_ne_nil hne
  have hc := hrun c (by simp)
  have hpoint : c ≠ '.' := ne_of_class isWord hc (by decide)
  have hbracket : c ≠ '[' := ne_of_class isWord hc (by decide)
  rw [segmentLength.eq_4 _ (by simp [hpoint]) (by simp [hpoint]) (by simp [hbracket])]
  exact someRun_append hrun htail hne

/-- A segment is the same before another text, if that goes on with a word only where the
first text did. -/
theorem segmentLength_append {tail : List Char} (h : segmentLength cs = some n)
    (htail : ∀ c ∈ tail.head?, isWord c = true → c ∈ (cs.drop n).head?) :
    segmentLength (cs.take n ++ tail) = some n := by
  revert h
  fun_cases segmentLength cs with
  | case1 rest =>
      rintro ⟨⟩
      rfl
  | case2 rest =>
      intro h
      obtain ⟨m, hm, rfl⟩ := Option.map_eq_some_iff.1 h
      obtain ⟨run, after, rfl, rfl, hne, hrun, hafter⟩ := exists_of_someRun hm
      rw [List.drop_succ_cons, List.drop_left] at htail
      rw [List.take_succ_cons, List.take_left, List.cons_append]
      refine segmentLength_property hrun hne fun c hc => ?_
      by_contra hword
      simp [hafter c (htail c hc (by simpa using hword))] at hword
  | case3 rest =>
      intro h
      obtain ⟨m, hm, rfl⟩ := Option.map_eq_some_iff.1 h
      rw [List.take_succ_cons, List.cons_append, segmentLength, bracketLength_append hm]
      rfl
  | case4 =>
      intro h
      obtain ⟨run, after, rfl, rfl, hne, hrun, hafter⟩ := exists_of_someRun h
      rw [List.drop_left] at htail
      rw [List.take_left]
      refine segmentLength_word hrun hne fun c hc => ?_
      by_contra hword
      simp [hafter c (htail c hc (by simpa using hword))] at hword

theorem segmentLength_le (h : segmentLength cs = some n) : n ≤ cs.length := by
  revert h
  fun_cases segmentLength cs with
  | case1 rest =>
      rintro ⟨⟩
      simp
  | case2 rest =>
      intro h
      obtain ⟨m, hm, rfl⟩ := Option.map_eq_some_iff.1 h
      obtain ⟨run, after, rfl, rfl, -⟩ := exists_of_someRun hm
      simp
  | case3 rest =>
      intro h
      obtain ⟨m, hm, rfl⟩ := Option.map_eq_some_iff.1 h
      rcases exists_of_bracketLength hm with ⟨q, body, after, -, -, rfl, rfl⟩ |
        ⟨body, after, -, rfl, rfl⟩ <;> simp
  | case4 =>
      intro h
      obtain ⟨run, after, rfl, rfl, -⟩ := exists_of_someRun h
      simp

/-- The text is at its end or goes on with a character that no path goes on with. -/
def EndsPath (tail : List Char) : Prop :=
  ∀ c ∈ tail.head?, isWord c = false ∧ c ≠ '.' ∧ c ≠ '['

theorem segments_of_endsPath {tail : List Char} (h : EndsPath tail) : segments tail = [] := by
  cases tail with
  | nil => rw [segments]
  | cons c tail =>
      obtain ⟨hword, hpoint, hbracket⟩ := h c (by simp)
      have hnone : segmentLength (c :: tail) = none := by
        rw [segmentLength.eq_4 _ (by simp [hpoint]) (by simp [hpoint]) (by simp [hbracket])]
        simp [someRun, runLength, hword]
      rw [segments, hnone]

/-- The segments of a text are those of any text that goes on after them with no path. -/
theorem segments_append (cs : List Char) {tail : List Char} (htail : EndsPath tail) :
    segments (cs.take (segmentsLength cs) ++ tail) = segments cs := by
  fun_induction segments cs with
  | case1 => simpa using segments_of_endsPath htail
  | case2 c rest n h ih =>
      have hn : n ≤ rest.length := by simpa using segmentLength_le h
      have hlength : segmentsLength (c :: rest) = n + segmentsLength (rest.drop n) + 1 := by
        rw [segmentsLength, h]
        dsimp only
        omega
      have hseg : segmentLength ((c :: rest).take (n + 1) ++
          ((rest.drop n).take (segmentsLength (rest.drop n)) ++ tail)) = some (n + 1) := by
        refine segmentLength_append h fun e he hword => ?_
        cases hm : segmentsLength (rest.drop n) with
        | zero =>
            rw [hm, List.take_zero, List.nil_append] at he
            simp [(htail e he).1] at hword
        | succ m =>
            rw [hm] at he
            rw [List.drop_succ_cons]
            cases hd : rest.drop n with
            | nil => simp [hd, segmentsLength] at hm
            | cons x xs => simpa [hd] using he
      rw [hlength, List.take_succ_cons, List.take_add, List.cons_append, List.append_assoc]
      rw [List.take_succ_cons, List.cons_append] at hseg
      rw [segments, hseg]
      dsimp only
      have htake : (rest.take n).length = n := List.length_take_of_le hn
      rw [List.take_left' htake, List.drop_left' htake, ih]
  | case3 c rest h =>
      have hlength : segmentsLength (c :: rest) = 0 := by
        rw [segmentsLength]
        split
        · next n hn => exact absurd hn (h n)
        · rfl
      rw [hlength, List.take_zero, List.nil_append]
      exact segments_of_endsPath htail

/-- A path token has the segments that the rule found. -/
theorem segments_take (cs : List Char) : segments (cs.take (segmentsLength cs)) = segments cs := by
  have hnil : EndsPath [] := by simp [EndsPath]
  simpa using segments_append cs hnil

end Sluice.Token
