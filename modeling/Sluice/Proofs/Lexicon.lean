import Sluice.Proofs.Tokens

/-!
# The forms of tokens

The texts of each kind of token, said without reference to how they are found. The rule of a kind
gives the length of the longest text of that kind at the start of a text, and no length where
there is none (`measures_of_mem_rules`).
-/
namespace Sluice.Token

open Sluice.Text

variable {p : Char → Bool} {c : Char} {cs w rest : List Char} {n : Nat} {kind : Kind}

/-- A segment of a path has one of the forms, and where it is a word, the word is not empty. -/
structure PathSegment (s : List Char) : Prop where
  form : IsSegment s
  ne_nil : s ≠ []
  ne_point : s ≠ ['.']

/-- Segments one after the other. -/
inductive PathBody : List Char → Prop where
  | nil : PathBody []
  | segment {s tail : List Char} (h : PathSegment s) (others : PathBody tail) :
      PathBody (s ++ tail)

/-- The operators. -/
def operatorTexts : List (List Char) :=
  ["==", "!=", ">=", "<=", "&&", "||", "<", ">", "+", "-", "*", "/", "%", "!"].map String.toList

/-- The inside of a string between quotes. A backslash takes the next character with it, which
may be a quote but not a line feed. -/
inductive StringBody (q : Char) : List Char → Prop where
  | nil : StringBody q []
  | char {c : Char} {cs : List Char} (hquote : c ≠ q) (hslash : c ≠ '\\')
      (others : StringBody q cs) : StringBody q (c :: cs)
  | escaped {c : Char} {cs : List Char} (h : c ≠ '\n') (others : StringBody q cs) :
      StringBody q ('\\' :: c :: cs)

/-- One digit or more. -/
def Digits (cs : List Char) : Prop :=
  cs ≠ [] ∧ ∀ c ∈ cs, isDecimal c = true

/-- What stands after the whole part of a number. -/
inductive Fraction : List Char → Prop where
  | none : Fraction []
  | point {digits : List Char} (h : Digits digits) : Fraction ('.' :: digits)

/-- What stands at the end of a number. -/
inductive Exponent : List Char → Prop where
  | none : Exponent []
  | unsigned {e : Char} {digits : List Char} (he : e = 'e' ∨ e = 'E') (h : Digits digits) :
      Exponent (e :: digits)
  | signed {e s : Char} {digits : List Char} (he : e = 'e' ∨ e = 'E') (hs : s = '+' ∨ s = '-')
      (h : Digits digits) : Exponent (e :: s :: digits)

/-- The texts of each kind of token. -/
inductive Lexeme : Kind → List Char → Prop where
  | quotedTemplate {body : List Char} (h : '\x7d' ∉ body) :
      Lexeme .quotedTemplate ('"' :: (Token.bareTemplate body ++ ['"']))
  | singleQuotedTemplate {body : List Char} (h : '\x7d' ∉ body) :
      Lexeme .singleQuotedTemplate ('\'' :: (Token.bareTemplate body ++ ['\'']))
  | bareTemplate {body : List Char} (h : '\x7d' ∉ body) :
      Lexeme .bareTemplate (Token.bareTemplate body)
  | path {body : List Char} (h : PathBody body) : Lexeme .path ('$' :: body)
  | operator {cs : List Char} (h : cs ∈ operatorTexts) : Lexeme .operator cs
  | identifier {c : Char} {cs : List Char} (hc : isNameStart c = true)
      (h : ∀ c ∈ cs, isWord c = true) : Lexeme .identifier (c :: cs)
  | string {q : Char} {body : List Char} (hq : isQuote q = true) (h : StringBody q body) :
      Lexeme .string (q :: (body ++ [q]))
  | number {whole fraction exponent : List Char} (hwhole : Digits whole)
      (hfraction : Fraction fraction) (hexponent : Exponent exponent) :
      Lexeme .number (whole ++ (fraction ++ exponent))
  | leftParen : Lexeme .leftParen ['(']
  | rightParen : Lexeme .rightParen [')']
  | comma : Lexeme .comma [',']

/-- A rule finds the longest text of a form at the start of a text. -/
structure Measures (rule : List Char → Option Nat) (form : List Char → Prop) : Prop where
  sound : ∀ {cs n}, rule cs = some n → ∃ w rest, cs = w ++ rest ∧ form w ∧ w.length = n
  maximal : ∀ {w}, form w → ∀ rest, ∃ n, rule (w ++ rest) = some n ∧ w.length ≤ n

/-! ## Runs -/

theorem length_le_runLength (h : ∀ c ∈ w, p c = true) (rest : List Char) :
    w.length ≤ runLength p (w ++ rest) := by
  rw [runLength, List.takeWhile_append_of_pos h, List.length_append]
  exact Nat.le_add_right _ _

theorem someRun_maximal (hne : w ≠ []) (h : ∀ c ∈ w, p c = true) (rest : List Char) :
    ∃ n, someRun p (w ++ rest) = some n ∧ w.length ≤ n := by
  have hle := length_le_runLength h rest
  have hpos := List.length_pos_iff.2 hne
  exact ⟨_, someRun_eq_some.2 ⟨rfl, by omega⟩, hle⟩

/-! ## Templates -/

theorem exists_of_templateLength (h : templateLength cs = some n) :
    ∃ body rest, '\x7d' ∉ body ∧ cs = bareTemplate body ++ rest ∧
      (bareTemplate body).length = n := by
  revert h
  fun_cases templateLength cs with
  | case1 text body after hclose =>
      intro h
      obtain ⟨run, tail, rfl, hrun, htail⟩ := exists_run (· != '\x7d') text
      simp only [body, runLength_append hrun htail, List.drop_left] at hclose h
      subst hclose
      refine ⟨run, after, fun hmem => by simpa using hrun _ hmem, ?_, ?_⟩
      · simp [bareTemplate]
      · simpa [bareTemplate] using h
  | _ => simp

theorem exists_of_quotedTemplateLength {q : Char} (h : quotedTemplateLength q cs = some n) :
    ∃ body rest, '\x7d' ∉ body ∧ cs = q :: (bareTemplate body ++ [q]) ++ rest ∧
      (q :: (bareTemplate body ++ [q])).length = n := by
  revert h
  fun_cases quotedTemplateLength q cs with
  | case2 text m hm hquote =>
      rintro ⟨⟩
      obtain ⟨body, tail, hbody, rfl, rfl⟩ := exists_of_templateLength hm
      rw [List.getElem?_append_right (Nat.le_refl _), Nat.sub_self, ← List.head?_eq_getElem?]
        at hquote
      obtain ⟨rest, rfl⟩ := List.head?_eq_some_iff.1 hquote
      exact ⟨body, rest, hbody, by simp, by simp⟩
  | _ => simp

theorem measures_bareTemplate : Measures templateLength (Lexeme .bareTemplate) where
  sound h := by
    obtain ⟨body, rest, hbody, rfl, hn⟩ := exists_of_templateLength h
    exact ⟨_, rest, rfl, .bareTemplate hbody, hn⟩
  maximal h rest := by
    cases h with
    | bareTemplate hbody => exact ⟨_, templateLength_bareTemplate hbody, Nat.le_refl _⟩

theorem quotedTemplateLength_text {body : List Char} (q : Char) (h : '\x7d' ∉ body)
    (rest : List Char) : quotedTemplateLength q (q :: (bareTemplate body ++ [q]) ++ rest) =
      some (q :: (bareTemplate body ++ [q])).length := by
  have hrule : quotedTemplateLength q (q :: (bareTemplate body ++ q :: rest)) =
      some ((bareTemplate body).length + 2) := quotedTemplateLength_bareTemplate q h
  simpa using hrule

theorem measures_quotedTemplate :
    Measures (quotedTemplateLength '"') (Lexeme .quotedTemplate) where
  sound h := by
    obtain ⟨body, rest, hbody, rfl, hn⟩ := exists_of_quotedTemplateLength h
    exact ⟨_, rest, rfl, .quotedTemplate hbody, hn⟩
  maximal h rest := by
    cases h with
    | quotedTemplate hbody => exact ⟨_, quotedTemplateLength_text _ hbody rest, Nat.le_refl _⟩

theorem measures_singleQuotedTemplate :
    Measures (quotedTemplateLength '\'') (Lexeme .singleQuotedTemplate) where
  sound h := by
    obtain ⟨body, rest, hbody, rfl, hn⟩ := exists_of_quotedTemplateLength h
    exact ⟨_, rest, rfl, .singleQuotedTemplate hbody, hn⟩
  maximal h rest := by
    cases h with
    | singleQuotedTemplate hbody =>
        exact ⟨_, quotedTemplateLength_text _ hbody rest, Nat.le_refl _⟩

/-! ## Paths -/

theorem isWord_point : isWord '.' = false := by
  decide

theorem isWord_bracket : isWord '[' = false := by
  decide

theorem pathSegment_of_segmentLength (h : segmentLength cs = some n) :
    PathSegment (cs.take n) := by
  have hform := isSegment_of_segmentLength h
  revert h
  fun_cases segmentLength cs with
  | case1 rest =>
      intro h
      cases h
      exact ⟨hform, by simp, by simp⟩
  | case2 rest =>
      intro h
      obtain ⟨m, hm, rfl⟩ := Option.map_eq_some_iff.1 h
      obtain ⟨run, tail, rfl, rfl, hne, -⟩ := exists_of_someRun hm
      exact ⟨hform, by simp, by simpa using hne⟩
  | case3 rest =>
      intro h
      obtain ⟨m, hm, rfl⟩ := Option.map_eq_some_iff.1 h
      exact ⟨hform, by simp, by simp⟩
  | case4 =>
      intro h
      obtain ⟨run, tail, rfl, rfl, hne, hrun, -⟩ := exists_of_someRun h
      rw [List.take_left] at hform ⊢
      refine ⟨hform, hne, ?_⟩
      rintro rfl
      simpa [isWord_point] using hrun '.'

theorem segmentsLength_of_segmentLength (h : segmentLength cs = some (n + 1)) :
    segmentsLength cs = n + 1 + segmentsLength (cs.drop (n + 1)) := by
  cases cs with
  | nil => simp [segmentLength, someRun, runLength] at h
  | cons c cs => rw [segmentsLength, h, List.drop_succ_cons]

theorem pathBody_of_flatten {segments : List (List Char)} (h : ∀ s ∈ segments, PathSegment s) :
    PathBody segments.flatten := by
  induction segments with
  | nil => exact .nil
  | cons s segments ih => exact .segment (h s (by simp)) (ih fun s hs => h s (by simp [hs]))

/-- The length of the rest of a word and of the segments after it. -/
def stretchLength (cs : List Char) : Nat :=
  runLength isWord cs + segmentsLength (cs.drop (runLength isWord cs))

theorem stretchLength_of_not_isWord (h : isWord c = false) (cs : List Char) :
    stretchLength (c :: cs) = segmentsLength (c :: cs) := by
  have hrun : runLength isWord (c :: cs) = 0 := by simp [runLength, h]
  rw [stretchLength, hrun, List.drop_zero, Nat.zero_add]

theorem stretchLength_append (hw : ∀ c ∈ w, isWord c = true) (cs : List Char) :
    stretchLength (w ++ cs) = w.length + stretchLength cs := by
  have hrun : runLength isWord (w ++ cs) = w.length + runLength isWord cs := by
    rw [runLength, List.takeWhile_append_of_pos hw, List.length_append, runLength]
  rw [stretchLength, hrun, List.drop_length_add_append, stretchLength, Nat.add_assoc]

/-- Word characters at the start of a text are a segment, with or without a point before them. -/
theorem segmentLength_of_isWord (hc : isWord c = true) (cs : List Char) :
    segmentLength (c :: cs) = some (runLength isWord (c :: cs)) ∧
      segmentLength ('.' :: c :: cs) = some (runLength isWord (c :: cs) + 1) := by
  obtain ⟨run, tail, he, hrun, htail⟩ := exists_run isWord (c :: cs)
  have hne : run ≠ [] := by
    rintro rfl
    rw [List.nil_append] at he
    subst he
    simp [htail c (by simp)] at hc
  rw [he, runLength_append hrun htail]
  exact ⟨segmentLength_word hrun hne htail, segmentLength_property hrun hne htail⟩

theorem segmentsLength_of_isWord (hc : isWord c = true) (cs : List Char) :
    segmentsLength (c :: cs) = stretchLength (c :: cs) ∧
      segmentsLength ('.' :: c :: cs) = stretchLength (c :: cs) + 1 := by
  obtain ⟨hword, hproperty⟩ := segmentLength_of_isWord hc cs
  obtain ⟨n, hn⟩ : ∃ n, runLength isWord (c :: cs) = n + 1 := by simp [runLength, hc]
  constructor
  · rw [stretchLength, hn]
    exact segmentsLength_of_segmentLength (hn ▸ hword)
  · rw [stretchLength, segmentsLength_of_segmentLength hproperty, List.drop_succ_cons]
    omega

/-- Segments at the start of a text are found whole. A run of word characters may reach beyond
its segment, so the same is shown of a text that is taken as the rest of a word. -/
theorem PathBody.le_segmentsLength (h : PathBody cs) (rest : List Char) :
    cs.length ≤ segmentsLength (cs ++ rest) ∧ cs.length ≤ stretchLength (cs ++ rest) := by
  induction h with
  | nil => simp
  | @segment s tail hs others ih =>
      -- A segment that begins no word is found, and then those after it.
      have hfound {c : Char} {s : List Char} (hc : isWord c = false)
          (hlength : segmentLength (c :: (s ++ (tail ++ rest))) = some (s.length + 1)) :
          (c :: s ++ tail).length ≤ segmentsLength (c :: s ++ tail ++ rest) ∧
            (c :: s ++ tail).length ≤ stretchLength (c :: s ++ tail ++ rest) := by
        simp only [List.append_assoc, List.cons_append, List.length_cons, List.length_append]
        rw [stretchLength_of_not_isWord hc, segmentsLength_of_segmentLength hlength,
          List.drop_succ_cons, List.drop_left]
        have htail := ih.1
        omega
      obtain ⟨hform, hne, hpoint⟩ := hs
      cases hform with
      | wildcard => exact hfound (s := ['*']) isWord_point rfl
      | word hw =>
          obtain ⟨c, w, rfl⟩ := List.exists_cons_of_ne_nil hne
          have hsegments := (segmentsLength_of_isWord (hw c (by simp)) (w ++ (tail ++ rest))).1
          have hstretch := stretchLength_append hw (tail ++ rest)
          have htail := ih.2
          simp only [List.append_assoc, List.cons_append, List.length_cons, List.length_append]
            at hstretch ⊢
          rw [hsegments, hstretch]
          omega
      | @property w hw =>
          obtain ⟨c, w, rfl⟩ := List.exists_cons_of_ne_nil (l := w) (by simpa using hpoint)
          have hsegments := (segmentsLength_of_isWord (hw c (by simp)) (w ++ (tail ++ rest))).2
          have hstretch := stretchLength_append hw (tail ++ rest)
          have htail := ih.2
          simp only [List.append_assoc, List.cons_append, List.length_cons, List.length_append]
            at hstretch ⊢
          rw [stretchLength_of_not_isWord isWord_point, hsegments, hstretch]
          omega
      | @quoted q body hq hbody =>
          have hlength := bracketLength_quoted hq hbody (tail ++ rest)
          exact hfound (s := q :: (body ++ [q, ']'])) isWord_bracket
            (by simp [segmentLength, hlength])
      | @brackets body hbody =>
          have hlength := bracketLength_bare hbody (tail ++ rest)
          exact hfound (s := body ++ [']']) isWord_bracket (by simp [segmentLength, hlength])

theorem measures_path : Measures pathLength (Lexeme .path) where
  sound {cs n} h := by
    obtain ⟨path, rfl⟩ := exists_of_pathLength h
    obtain rfl : segmentsLength path + 1 = n := by simpa [pathLength] using h
    have htake := flatten_segments path
    refine ⟨'$' :: (segments path).flatten, path.drop (segmentsLength path), ?_, ?_, ?_⟩
    · rw [htake, List.cons_append, List.take_append_drop]
    · exact .path (pathBody_of_flatten (forall_mem_segments pathSegment_of_segmentLength path))
    · rw [List.length_cons, ← segmentsLength_eq]
  maximal h rest := by
    cases h with
    | path hbody => exact ⟨_, rfl, by simpa using (hbody.le_segmentsLength rest).1⟩

/-! ## Operators and names -/

theorem exists_operatorLength (h : c ∈ "<>+-*/%!".toList) (rest : List Char) :
    ∃ n, operatorLength (c :: rest) = some n ∧ 1 ≤ n := by
  have hcontains : "<>+-*/%!".toList.contains c = true := by simpa using h
  generalize hcs : c :: rest = cs
  fun_cases operatorLength cs <;> simp_all

theorem measures_operator : Measures operatorLength (Lexeme .operator) where
  sound {cs n} h := by
    have hone : "<>+-*/%!".toList.all (fun c => operatorTexts.contains [c]) = true := by decide
    revert h
    fun_cases operatorLength cs with
    | case7 c rest _ _ _ _ _ _ hc =>
        intro h
        cases h
        have hmem := List.all_eq_true.1 hone c (by simpa using hc)
        exact ⟨[c], rest, rfl, .operator (by simpa using hmem), rfl⟩
    | case8 => simp
    | case9 => simp
    | _ =>
        intro h
        cases h
        refine ⟨_ :: [_], _, rfl, .operator ?_, rfl⟩
        decide
  maximal h rest := by
    cases h with
    | operator h =>
        simp only [operatorTexts, List.map_cons, List.map_nil, List.mem_cons, List.not_mem_nil,
          or_false] at h
        rcases h with rfl | rfl | rfl | rfl | rfl | rfl | rfl | rfl | rfl | rfl | rfl | rfl | rfl |
          rfl
        case inr.inr.inr.inr.inr.inr.inr.inr.inr.inr.inr.inr.inr =>
          exact exists_operatorLength (by decide) rest
        iterate 6 exact ⟨2, rfl, Nat.le_refl 2⟩
        all_goals exact exists_operatorLength (by decide) rest

theorem measures_identifier : Measures identifierLength (Lexeme .identifier) where
  sound {cs n} h := by
    revert h
    fun_cases identifierLength cs with
    | case1 c rest hc =>
        intro h
        cases h
        obtain ⟨run, tail, rfl, hrun, htail⟩ := exists_run isWord rest
        exact ⟨c :: run, tail, rfl, .identifier hc hrun, by rw [runLength_append hrun htail]; rfl⟩
    | _ => simp
  maximal h rest := by
    cases h with
    | @identifier c cs hc h =>
        have hle := length_le_runLength h rest
        exact ⟨runLength isWord (cs ++ rest) + 1, by simp [identifierLength, hc], by simpa using hle⟩

/-! ## Strings -/

theorem exists_of_stringTail {q : Char} (h : stringTail q cs = some n) :
    ∃ body rest, cs = body ++ q :: rest ∧ StringBody q body ∧ body.length + 1 = n := by
  fun_induction stringTail q cs generalizing n with
  | case1 => cases h
  | case2 =>
      cases h
      exact ⟨[], [], rfl, .nil, rfl⟩
  | case3 => cases h
  | case4 d rest =>
      cases h
      exact ⟨[], d :: rest, rfl, .nil, rfl⟩
  | case5 => cases h
  | case6 d cs hd hq ih =>
      obtain ⟨m, hm, rfl⟩ := Option.map_eq_some_iff.1 h
      obtain ⟨body, rest, rfl, hbody, rfl⟩ := ih hm
      exact ⟨'\\' :: d :: body, rest, rfl, .escaped hd hbody, rfl⟩
  | case7 c d cs hq hslash ih =>
      obtain ⟨m, hm, rfl⟩ := Option.map_eq_some_iff.1 h
      obtain ⟨body, rest, hrest, hbody, rfl⟩ := ih hm
      exact ⟨c :: body, rest, by rw [hrest, List.cons_append], .char hq hslash hbody, rfl⟩

theorem StringBody.stringTail_append {q : Char} (h : StringBody q cs) (hslash : q ≠ '\\')
    (rest : List Char) : stringTail q (cs ++ q :: rest) = some (cs.length + 1) := by
  induction h with
  | nil => cases rest <;> simp [stringTail]
  | @char c cs hquote hslash' others ih =>
      obtain ⟨d, tail, htail⟩ := List.exists_cons_of_ne_nil (l := cs ++ q :: rest) (by simp)
      rw [List.cons_append, htail, stringTail, if_neg hquote, if_neg hslash', ← htail, ih]
      rfl
  | escaped h others ih =>
      rw [List.cons_append, List.cons_append, stringTail, if_neg (Ne.symm hslash), if_pos rfl,
        if_neg h, ih]
      rfl

theorem measures_string : Measures stringLength (Lexeme .string) where
  sound {cs n} h := by
    revert h
    fun_cases stringLength cs with
    | case1 q text hq =>
        intro h
        obtain ⟨m, hm, rfl⟩ := Option.map_eq_some_iff.1 h
        obtain ⟨body, rest, rfl, hbody, rfl⟩ := exists_of_stringTail hm
        exact ⟨q :: (body ++ [q]), rest, by simp, .string hq hbody, by simp⟩
    | _ => simp
  maximal h rest := by
    cases h with
    | @string q body hq hbody =>
        have hslash : q ≠ '\\' := ne_of_class isQuote hq (by decide)
        refine ⟨_, ?_, Nat.le_refl _⟩
        simp [stringLength, hq, hbody.stringTail_append hslash]

/-! ## Numbers -/

theorem exists_digits (h : someRun isDecimal cs = some n) :
    ∃ digits rest, cs = digits ++ rest ∧ Digits digits ∧ digits.length = n := by
  obtain ⟨run, tail, rfl, rfl, hne, hrun, -⟩ := exists_of_someRun h
  exact ⟨run, tail, rfl, ⟨hne, hrun⟩, rfl⟩

theorem exists_fraction (cs : List Char) :
    ∃ fraction rest, cs = fraction ++ rest ∧ Fraction fraction ∧
      fraction.length = fractionLength cs := by
  fun_cases fractionLength cs with
  | case1 rest n hn =>
      obtain ⟨digits, rest, rfl, hdigits, rfl⟩ := exists_digits hn
      exact ⟨'.' :: digits, rest, rfl, .point hdigits, rfl⟩
  | _ => exact ⟨[], _, rfl, .none, rfl⟩

theorem exists_exponent (cs : List Char) :
    ∃ exponent rest, cs = exponent ++ rest ∧ Exponent exponent ∧
      exponent.length = exponentLength cs := by
  fun_cases exponentLength cs with
  | case1 e he s rest hs m hm =>
      obtain ⟨digits, rest, rfl, hdigits, rfl⟩ := exists_digits hm
      exact ⟨e :: s :: digits, rest, rfl, .signed he hs hdigits, rfl⟩
  | case3 e he s rest hs m hm =>
      obtain ⟨digits, rest, hrest, hdigits, rfl⟩ := exists_digits hm
      exact ⟨e :: digits, rest, by rw [hrest, List.cons_append], .unsigned he hdigits, rfl⟩
  | _ => exact ⟨[], _, rfl, .none, rfl⟩

/-- A whole part that is not gone on with by digits. -/
theorem numberLength_digits {tail : List Char} (h : Digits w)
    (htail : ∀ c ∈ tail.head?, isDecimal c = false) :
    numberLength (w ++ tail) = some (w.length + fractionLength tail +
      exponentLength (tail.drop (fractionLength tail))) := by
  rw [numberLength, someRun_append h.2 htail h.1]
  simp only [List.drop_left, List.drop_length_add_append]

theorem Fraction.le_fractionLength (h : Fraction w) (rest : List Char) :
    w.length ≤ fractionLength (w ++ rest) := by
  cases h with
  | none => exact Nat.zero_le _
  | point h =>
      obtain ⟨n, hn, hle⟩ := someRun_maximal h.1 h.2 rest
      simpa [fractionLength, hn] using hle

/-- A fraction before a letter ends there. -/
theorem Fraction.fractionLength_append {tail : List Char} (h : Fraction w)
    (htail : ∀ c ∈ tail.head?, isDecimal c = false ∧ c ≠ '.') :
    fractionLength (w ++ tail) = w.length := by
  cases h with
  | none =>
      cases tail with
      | nil => rfl
      | cons c tail => simp [fractionLength, (htail c (by simp)).2]
  | point h =>
      rw [List.cons_append, fractionLength, someRun_append h.2 (fun c hc => (htail c hc).1) h.1]
      rfl

theorem Exponent.le_exponentLength (h : Exponent w) (rest : List Char) :
    w.length ≤ exponentLength (w ++ rest) := by
  cases h with
  | none => exact Nat.zero_le _
  | @unsigned e digits he h =>
      obtain ⟨n, hn, hle⟩ := someRun_maximal h.1 h.2 rest
      obtain ⟨d, digits, rfl⟩ := List.exists_cons_of_ne_nil h.1
      have hsign : ¬ (d = '+' ∨ d = '-') := by
        have hdecimal := h.2 d (by simp)
        rintro (rfl | rfl) <;> exact absurd hdecimal (by decide)
      rw [List.cons_append] at hn
      simpa [exponentLength, he, hsign, hn] using hle
  | @signed e s digits he hs h =>
      obtain ⟨n, hn, hle⟩ := someRun_maximal h.1 h.2 rest
      simpa [exponentLength, he, hs, hn] using hle

theorem isDecimal_point : isDecimal '.' = false := by
  decide

theorem Exponent.head_append (h : Exponent w) (hne : w ≠ []) (rest : List Char) :
    ∀ c ∈ (w ++ rest).head?, isDecimal c = false ∧ c ≠ '.' := by
  have hletter {e : Char} (he : e = 'e' ∨ e = 'E') : isDecimal e = false ∧ e ≠ '.' := by
    rcases he with rfl | rfl <;> exact ⟨by decide, by decide⟩
  cases h with
  | none => exact absurd rfl hne
  | unsigned he h => simpa using hletter he
  | signed he hs h => simpa using hletter he

theorem Fraction.head_append {tail : List Char} (h : Fraction w)
    (htail : ∀ c ∈ tail.head?, isDecimal c = false) :
    ∀ c ∈ (w ++ tail).head?, isDecimal c = false := by
  cases h with
  | none => exact htail
  | point h => simpa using isDecimal_point

theorem measures_number : Measures numberLength (Lexeme .number) where
  sound {cs n} h := by
    unfold numberLength at h
    split at h
    · cases h
    · next whole hwhole =>
        cases h
        obtain ⟨digits, rest, rfl, hdigits, rfl⟩ := exists_digits hwhole
        obtain ⟨fraction, rest, rfl, hfraction, hlength⟩ := exists_fraction rest
        rw [List.drop_left, ← hlength, List.drop_length_add_append, List.drop_left]
        obtain ⟨exponent, rest, rfl, hexponent, hlength'⟩ := exists_exponent rest
        refine ⟨_, rest, ?_, .number hdigits hfraction hexponent, ?_⟩
        · simp
        · rw [← hlength']
          simp [Nat.add_assoc]
  maximal h rest := by
    cases h with
    | @number whole fraction exponent hwhole hfraction hexponent =>
        simp only [List.append_assoc, List.length_append]
        by_cases hnone : exponent = []
        · subst hnone
          rw [List.nil_append, List.length_nil]
          cases hfraction with
          | none =>
              obtain ⟨n, hn, hle⟩ := someRun_maximal hwhole.1 hwhole.2 rest
              refine ⟨_, by rw [List.nil_append, numberLength, hn], ?_⟩
              simp only [List.length_nil]
              omega
          | @point digits h =>
              have hhead : ∀ c ∈ ('.' :: digits ++ rest).head?, isDecimal c = false := by
                simpa using isDecimal_point
              have hle := (Fraction.point h).le_fractionLength rest
              exact ⟨_, numberLength_digits hwhole hhead, by omega⟩
        · -- With an exponent, the parts before it end where the next one begins.
          have htail := hexponent.head_append hnone rest
          have hhead := hfraction.head_append fun c hc => (htail c hc).1
          have hlength := hfraction.fractionLength_append htail
          refine ⟨_, numberLength_digits hwhole hhead, ?_⟩
          rw [hlength, List.drop_left]
          have hle := hexponent.le_exponentLength rest
          omega

/-! ## The rules -/

theorem measures_char {c : Char} {kind : Kind} (hform : ∀ w, Lexeme kind w ↔ w = [c]) :
    Measures (charLength c) (Lexeme kind) where
  sound {cs n} h := by
    revert h
    fun_cases charLength c cs with
    | case1 rest =>
        intro h
        cases h
        exact ⟨[c], rest, rfl, (hform [c]).2 rfl, rfl⟩
    | _ => simp
  maximal {w} h rest := by
    rw [hform] at h
    subst h
    exact ⟨1, by simp [charLength], Nat.le_refl 1⟩

theorem lexeme_leftParen : Lexeme .leftParen w ↔ w = ['('] :=
  ⟨fun h => by cases h; rfl, fun h => h ▸ .leftParen⟩

theorem lexeme_rightParen : Lexeme .rightParen w ↔ w = [')'] :=
  ⟨fun h => by cases h; rfl, fun h => h ▸ .rightParen⟩

theorem lexeme_comma : Lexeme .comma w ↔ w = [','] :=
  ⟨fun h => by cases h; rfl, fun h => h ▸ .comma⟩

/-- Every rule finds the longest text of its kind. -/
theorem measures_of_mem_rules {rule : List Char → Option Nat} (h : (kind, rule) ∈ rules) :
    Measures rule (Lexeme kind) := by
  simp only [rules, List.mem_cons, Prod.mk.injEq, List.not_mem_nil, or_false] at h
  rcases h with ⟨rfl, rfl⟩ | ⟨rfl, rfl⟩ | ⟨rfl, rfl⟩ | ⟨rfl, rfl⟩ | ⟨rfl, rfl⟩ | ⟨rfl, rfl⟩ |
    ⟨rfl, rfl⟩ | ⟨rfl, rfl⟩ | ⟨rfl, rfl⟩ | ⟨rfl, rfl⟩ | ⟨rfl, rfl⟩
  · exact measures_quotedTemplate
  · exact measures_singleQuotedTemplate
  · exact measures_bareTemplate
  · exact measures_path
  · exact measures_operator
  · exact measures_identifier
  · exact measures_string
  · exact measures_number
  · exact measures_char fun _ => lexeme_leftParen
  · exact measures_char fun _ => lexeme_rightParen
  · exact measures_char fun _ => lexeme_comma

end Sluice.Token
