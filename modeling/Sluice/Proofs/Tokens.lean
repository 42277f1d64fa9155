import Sluice.Operator
import Sluice.Proofs.Blanks
import Sluice.Proofs.Lexemes

/-!
# Scanning written tokens

For each kind of token: its text is found as the first token of a longer text, provided that
what follows does not go on with it. Scanning then moves on to what follows.
-/
namespace Sluice.Token

open Sluice.Text

variable {c : Char} {cs rest : List Char} {n : Nat}

/-- A token at the start of a text is scanned, and then the rest. -/
theorem scan_of_first? {kind : Kind} (position : Nat) (hne : cs ≠ [])
    (h : first? (cs ++ rest) = some (kind, cs.length)) :
    scan position (cs ++ rest) =
      (scan (position + byteLength cs) rest).map (⟨kind, String.ofList cs, position⟩ :: ·) := by
  obtain ⟨c, cs, rfl⟩ := List.exists_cons_of_ne_nil hne
  rw [List.cons_append] at h ⊢
  rw [scan, h]
  simp only [List.length_cons, Nat.add_sub_cancel, List.take_left, List.drop_left]
  cases scan (position + byteLength (c :: cs)) rest <;> rfl

theorem operatorLength_eq_none (h : c ∉ "=<>+-*/%!&|".toList) :
    operatorLength (c :: rest) = none := by
  have hone : "<>+-*/%!".toList.contains c = false := by
    rw [List.contains_eq_mem, decide_eq_false_iff_not]
    exact fun hc => h (List.Sublist.subset (by decide) hc)
  unfold operatorLength
  split
  case h_7 he =>
      cases he
      simp only [hone, Bool.false_eq_true, if_false]
  case h_8 he => cases he
  all_goals
    next he =>
      cases he
      exact absurd (by decide) h

/-- The characters with which templates, paths, operators and strings begin. -/
def firstCharacters : List Char :=
  ['\'', '"', '\x7b', '$'] ++ "=<>+-*/%!&|".toList

theorem first?_of_not_mem (h : c ∉ firstCharacters) :
    first? (c :: rest) =
      ((rules.drop 5).findSome? fun (kind, length) => (length (c :: rest)).map (kind, ·)) := by
  obtain ⟨hfirst, hoperator⟩ := not_or.1 (mt List.mem_append.2 h)
  simp only [List.mem_cons, List.not_mem_nil, or_false, not_or] at hfirst
  simp [first?, rules, quotedTemplateLength, templateLength, pathLength,
    operatorLength_eq_none hoperator, hfirst]

/-- A run is the same before a text that does not go on with it. -/
theorem runLength_append_rest {p : Char → Bool} (hrest : ∀ c ∈ rest.head?, p c = false) :
    runLength p (cs ++ rest) = runLength p cs := by
  obtain ⟨run, tail, rfl, hrun, htail⟩ := exists_run p cs
  have hall : ∀ c ∈ (tail ++ rest).head?, p c = false := by
    cases tail with
    | nil => exact hrest
    | cons c tail => simpa using htail
  rw [List.append_assoc, runLength_append hrun hall, runLength_append hrun htail]

theorem someRun_append_rest {p : Char → Bool} (hrest : ∀ c ∈ rest.head?, p c = false) :
    someRun p (cs ++ rest) = someRun p cs := by
  rw [someRun, runLength_append_rest hrest, someRun]

theorem first?_identifier (h : identifierLength cs = some cs.length)
    (hrest : ∀ c ∈ rest.head?, isWord c = false) :
    first? (cs ++ rest) = some (.identifier, cs.length) := by
  cases cs with
  | nil => simp [identifierLength] at h
  | cons c cs =>
      have hc : isNameStart c = true := by
        by_contra hc
        simp [identifierLength, hc] at h
      have hlength : runLength isWord cs = cs.length := by simpa [identifierLength, hc] using h
      have hrun : ∀ e ∈ cs, isWord e = true := by
        intro e he
        exact of_mem_take_runLength (by rwa [hlength, List.take_length])
      rw [List.cons_append, first?_of_not_mem (not_mem_of_class isNameStart (by decide) hc)]
      simp [rules, identifierLength, hc, runLength_append hrun hrest]

theorem isDecimal_of_isNumeric (h : isNumeric c = false) : isDecimal c = false := by
  by_contra hc
  simp [isNumeric, hc] at h

theorem ne_of_isNumeric {e : Char} (h : isNumeric c = false) (he : isNumeric e = true) : c ≠ e := by
  rintro rfl
  simp [h] at he

theorem fractionLength_append (hrest : ∀ c ∈ rest.head?, isNumeric c = false) :
    fractionLength (cs ++ rest) = fractionLength cs := by
  have hdecimal : ∀ c ∈ rest.head?, isDecimal c = false := fun c hc =>
    isDecimal_of_isNumeric (hrest c hc)
  cases cs with
  | nil =>
      cases rest with
      | nil => rfl
      | cons c rest =>
          have hc : c ≠ '.' := ne_of_isNumeric (hrest c (by simp)) (by decide)
          simp [fractionLength, hc]
  | cons c cs =>
      by_cases hc : c = '.'
      · subst hc
        rw [List.cons_append, fractionLength, someRun_append_rest hdecimal, fractionLength]
      · simp [fractionLength, hc]

theorem exponentLength_append (hrest : ∀ c ∈ rest.head?, isNumeric c = false) :
    exponentLength (cs ++ rest) = exponentLength cs := by
  have hdecimal : ∀ c ∈ rest.head?, isDecimal c = false := fun c hc =>
    isDecimal_of_isNumeric (hrest c hc)
  match cs with
  | [] =>
      cases rest with
      | nil => rfl
      | cons c rest =>
          have hne {e : Char} := ne_of_isNumeric (c := c) (e := e) (hrest c (by simp))
          simp [exponentLength, hne (by decide : isNumeric 'e' = true),
            hne (by decide : isNumeric 'E' = true)]
  | [c] =>
      cases rest with
      | nil => rfl
      | cons s rest =>
          have hs := hrest s (by simp)
          have hdigits : someRun isDecimal (s :: rest) = none := by
            simp [someRun, runLength, hdecimal s (by simp)]
          simp [exponentLength, ne_of_isNumeric hs (by decide : isNumeric '+' = true),
            ne_of_isNumeric hs (by decide : isNumeric '-' = true), hdigits]
  | c :: s :: cs =>
      have hdigits : someRun isDecimal (s :: (cs ++ rest)) = someRun isDecimal (s :: cs) := by
        rw [← List.cons_append, someRun_append_rest hdecimal]
      simp only [List.cons_append, exponentLength, someRun_append_rest hdecimal, hdigits]

theorem fractionLength_le (cs : List Char) : fractionLength cs ≤ cs.length := by
  fun_cases fractionLength cs with
  | case1 rest n hn =>
      obtain ⟨run, tail, rfl, rfl, -⟩ := exists_of_someRun hn
      simp
  | _ => simp

theorem numberLength_append (hrest : ∀ c ∈ rest.head?, isNumeric c = false) :
    numberLength (cs ++ rest) = numberLength cs := by
  have hdecimal : ∀ c ∈ rest.head?, isDecimal c = false := fun c hc =>
    isDecimal_of_isNumeric (hrest c hc)
  rw [numberLength, someRun_append_rest hdecimal, numberLength]
  cases hwhole : someRun isDecimal cs with
  | none => rfl
  | some whole =>
      obtain ⟨run, tail, rfl, rfl, -⟩ := exists_of_someRun hwhole
      simp only [List.append_assoc, List.drop_left, fractionLength_append hrest,
        List.drop_length_add_append]
      rw [List.drop_append_of_le_length (fractionLength_le tail), exponentLength_append hrest]

theorem toNat_lt_of_isNameStart (h : isNameStart c = true) : c.toNat < 128 := by
  simp only [isNameStart, Bool.or_eq_true, Bool.and_eq_true, decide_eq_true_eq, beq_iff_eq] at h
  rcases h with (⟨-, h⟩ | ⟨-, h⟩) | rfl
  · exact Nat.lt_of_le_of_lt (UInt32.le_iff_toNat_le.1 h) (by decide)
  · exact Nat.lt_of_le_of_lt (UInt32.le_iff_toNat_le.1 h) (by decide)
  · decide

/-- Names and numbers begin differently. -/
theorem isNameStart_of_isDecimal (h : isDecimal c = true) : isNameStart c = false := by
  by_contra hc
  rw [Bool.not_eq_false] at hc
  have hcodes : (List.range 128).all fun n =>
      !isNameStart (Char.ofNat n) || !isDecimal (Char.ofNat n) := by decide
  have hcode := List.all_eq_true.1 hcodes c.toNat (List.mem_range.2 (toNat_lt_of_isNameStart hc))
  simp [Char.ofNat_toNat, hc, h] at hcode

theorem first?_number (h : numberLength cs = some cs.length)
    (hrest : ∀ c ∈ rest.head?, isNumeric c = false) :
    first? (cs ++ rest) = some (.number, cs.length) := by
  cases cs with
  | nil => simp [numberLength, someRun, runLength] at h
  | cons c cs =>
      have hc : isDecimal c = true := by
        by_contra hc
        simp [numberLength, someRun, runLength, hc] at h
      have hquotes : c ∉ ['\'', '"'] := not_mem_of_class isDecimal (by decide) hc
      have hquote : isQuote c = false := by simpa [isQuote] using hquotes
      have hnumber : numberLength (c :: cs ++ rest) = numberLength (c :: cs) :=
        numberLength_append hrest
      rw [h, List.cons_append] at hnumber
      rw [List.cons_append, first?_of_not_mem (not_mem_of_class isDecimal (by decide) hc)]
      simp [rules, identifierLength, isNameStart_of_isDecimal hc, stringLength, hquote, hnumber]

theorem segmentsLength_eq (cs : List Char) : segmentsLength cs = (segments cs).flatten.length := by
  fun_induction segments cs with
  | case1 => simp [segmentsLength]
  | case2 c rest n h ih =>
      have hn : n ≤ rest.length := by simpa using segmentLength_le h
      rw [segmentsLength, h]
      simp only [ih, List.flatten_cons, List.length_append, List.length_cons,
        List.length_take_of_le hn]
  | case3 c rest h =>
      rw [segmentsLength]
      split
      · next n hn => exact absurd hn (h n)
      · rfl

theorem first?_path (h : pathLength cs = some cs.length) (hrest : EndsPath rest) :
    first? (cs ++ rest) = some (.path, cs.length) := by
  obtain ⟨path, rfl⟩ := exists_of_pathLength h
  have hpath : segmentsLength path = path.length := by simpa [pathLength] using h
  have hsegments := segments_append path hrest
  rw [hpath, List.take_length] at hsegments
  have hlength : segmentsLength (path ++ rest) = path.length := by
    rw [segmentsLength_eq, hsegments, ← segmentsLength_eq, hpath]
  simp [first?, rules, quotedTemplateLength, templateLength, pathLength, hlength]

/-- Quotes inside a single-quoted string are shielded. -/
def escapeQuotes : List Char → List Char
  | [] => []
  | c :: cs => if c = '\'' then '\\' :: '\'' :: escapeQuotes cs else c :: escapeQuotes cs

theorem stringTail_escapeQuotes (h : '\\' ∉ cs) :
    stringTail '\'' (escapeQuotes cs ++ '\'' :: rest) = some ((escapeQuotes cs).length + 1) := by
  induction cs with
  | nil => cases rest <;> simp [escapeQuotes, stringTail]
  | cons c cs ih =>
      simp only [List.mem_cons, not_or] at h
      by_cases hc : c = '\''
      · simp [escapeQuotes, hc, stringTail, ih h.2]
      · obtain ⟨d, tail, htail⟩ : ∃ d tail, escapeQuotes cs ++ '\'' :: rest = d :: tail :=
          List.exists_cons_of_ne_nil (by simp)
        have ih := ih h.2
        simp only [escapeQuotes, hc, if_false, List.cons_append, List.length_cons]
        rw [htail] at ih ⊢
        rw [stringTail, if_neg hc, if_neg (Ne.symm h.1), ih]
        rfl

theorem unescapeQuotes_escapeQuotes (h : '\\' ∉ cs) :
    unescapeQuotes (escapeQuotes cs) = cs := by
  induction cs with
  | nil => rfl
  | cons c cs ih =>
      simp only [List.mem_cons, not_or] at h
      by_cases hc : c = '\''
      · simp [escapeQuotes, hc, unescapeQuotes, ih h.2]
      · rw [escapeQuotes, if_neg hc, unescapeQuotes_cons (Ne.symm h.1), ih h.2]

/-- A string literal in single quotes. -/
def singleQuoted (cs : List Char) : List Char :=
  '\'' :: (escapeQuotes cs ++ ['\''])

theorem unquote_singleQuoted (h : '\\' ∉ cs) : unquote (singleQuoted cs) = cs := by
  rw [unquote, singleQuoted, stripQuotes_quoted _ _ (by decide), unescapeQuotes_escapeQuotes h]

theorem templateLength_of_head (h : ∀ c ∈ cs.head?, c ≠ '\x7b') : templateLength cs = none := by
  cases cs with
  | nil => rfl
  | cons c cs => simp [templateLength, h c (by simp)]

theorem head?_escapeQuotes (h : '\x7b' ∉ cs) :
    ∀ c ∈ (escapeQuotes cs ++ '\'' :: rest).head?, c ≠ '\x7b' := by
  cases cs with
  | nil => simp [escapeQuotes]
  | cons c cs =>
      simp only [List.mem_cons, not_or] at h
      by_cases hc : c = '\''
      · simp [escapeQuotes, hc]
      · simpa [escapeQuotes, hc] using Ne.symm h.1

theorem first?_singleQuoted (hslash : '\\' ∉ cs) (hbrace : '\x7b' ∉ cs) :
    first? (singleQuoted cs ++ rest) = some (.string, (singleQuoted cs).length) := by
  have htext : singleQuoted cs ++ rest = '\'' :: (escapeQuotes cs ++ '\'' :: rest) := by
    simp [singleQuoted]
  have htemplate : templateLength (escapeQuotes cs ++ '\'' :: rest) = none :=
    templateLength_of_head (head?_escapeQuotes hbrace)
  have hbare : templateLength ('\'' :: (escapeQuotes cs ++ '\'' :: rest)) = none :=
    templateLength_of_head (by simp)
  have hstring : stringLength ('\'' :: (escapeQuotes cs ++ '\'' :: rest)) =
      some ((escapeQuotes cs).length + 2) := by
    simp [stringLength, isQuote, stringTail_escapeQuotes hslash]
  rw [htext]
  simp [first?, rules, quotedTemplateLength, htemplate, hbare, pathLength, operatorLength,
    identifierLength, isNameStart, hstring, singleQuoted]

/-- A body between doubled braces. -/
def bareTemplate (body : List Char) : List Char :=
  '\x7b' :: '\x7b' :: (body ++ ['\x7d', '\x7d'])

theorem templateLength_bareTemplate (h : '\x7d' ∉ cs) :
    templateLength (bareTemplate cs ++ rest) = some (bareTemplate cs).length := by
  have hrun : ∀ c ∈ cs, (c != '\x7d') = true := fun c hc => by
    simpa using ne_of_mem_of_not_mem hc h
  have hlength : runLength (· != '\x7d') (cs ++ '\x7d' :: '\x7d' :: rest) = cs.length :=
    runLength_append hrun (by simp)
  simp [bareTemplate, templateLength, hlength]

theorem first?_bareTemplate (h : '\x7d' ∉ cs) :
    first? (bareTemplate cs ++ rest) = some (.bareTemplate, (bareTemplate cs).length) := by
  have hlength : templateLength (bareTemplate cs ++ rest) = some (bareTemplate cs).length :=
    templateLength_bareTemplate h
  have hquoted (q : Char) (hq : isQuote q = true) :
      quotedTemplateLength q (bareTemplate cs ++ rest) = none := by
    have hne : '\x7b' ≠ q := (ne_of_class isQuote hq (by decide)).symm
    simp [bareTemplate, quotedTemplateLength, hne]
  simp [first?, rules, hquoted, isQuote, hlength]

theorem quotedTemplateLength_bareTemplate (q : Char) (h : '\x7d' ∉ cs) :
    quotedTemplateLength q (q :: (bareTemplate cs ++ q :: rest)) =
      some ((bareTemplate cs).length + 2) := by
  simp [quotedTemplateLength, templateLength_bareTemplate h]

theorem first?_quotedTemplate {q : Char} (hq : isQuote q = true) (h : '\x7d' ∉ cs) :
    first? (q :: (bareTemplate cs ++ [q]) ++ rest) =
      some (if q = '"' then .quotedTemplate else .singleQuotedTemplate,
        (q :: (bareTemplate cs ++ [q])).length) := by
  have htext : q :: (bareTemplate cs ++ [q]) ++ rest = q :: (bareTemplate cs ++ q :: rest) := by simp
  have hrule : quotedTemplateLength q (q :: (bareTemplate cs ++ q :: rest)) =
      some (q :: (bareTemplate cs ++ [q])).length := by
    simpa using quotedTemplateLength_bareTemplate q h
  have hcases : q = '\'' ∨ q = '"' := by simpa [isQuote] using hq
  rw [htext]
  rcases hcases with rfl | rfl
  · have hother : quotedTemplateLength '"' ('\'' :: (bareTemplate cs ++ '\'' :: rest)) = none := by
      simp [quotedTemplateLength]
    simp [first?, rules, hother, hrule]
  · simp [first?, rules, hrule]

/-- The kind of token that a binary operator is written as. -/
def symbolKind (op : Operator) : Kind :=
  if op.isKeyword then .identifier else .operator

theorem first?_symbol (op : Operator) (hrest : rest.head? = some ' ') :
    first? (op.symbol.toList ++ rest) = some (symbolKind op, op.symbol.toList.length) := by
  obtain ⟨rest, rfl⟩ := List.head?_eq_some_iff.1 hrest
  by_cases hkeyword : op.isKeyword = true
  · rw [symbolKind, if_pos hkeyword]
    refine first?_identifier ?_ ?_
    · cases op <;> first | decide | cases hkeyword
    · have hblank : isWord ' ' = false := by decide
      simpa using hblank
  · rw [symbolKind, if_neg hkeyword]
    cases op <;> first | rfl | exact absurd rfl hkeyword

theorem first?_minus : first? ('-' :: rest) = some (.operator, 1) := rfl

theorem first?_not (hrest : ∀ c ∈ rest.head?, c ≠ '=') :
    first? ('!' :: rest) = some (.operator, 1) := by
  cases rest with
  | nil => rfl
  | cons c rest =>
      have hc : c ≠ '=' := hrest c (by simp)
      simp [first?, rules, quotedTemplateLength, templateLength, pathLength, operatorLength, hc]

/-- What is left for a character that begins no longer token. -/
theorem first?_of_isPunctuation (hfirst : c ∉ firstCharacters) (hname : isNameStart c = false)
    (hdecimal : isDecimal c = false) :
    first? (c :: rest) =
      ((rules.drop 8).findSome? fun (kind, length) => (length (c :: rest)).map (kind, ·)) := by
  have hquote : isQuote c = false := by
    have hne := (not_or.1 (mt List.mem_append.2 hfirst)).1
    simp only [List.mem_cons, not_or] at hne
    simp [isQuote, hne]
  have hnumber : numberLength (c :: rest) = none := by
    simp [numberLength, someRun, runLength, hdecimal]
  rw [first?_of_not_mem hfirst]
  simp [rules, identifierLength, stringLength, hname, hquote, hnumber]

/-- Parentheses and commas begin no longer token. -/
theorem first?_punctuation (h : c = '(' ∨ c = ')' ∨ c = ',') :
    first? (c :: rest) =
      ((rules.drop 8).findSome? fun (kind, length) => (length (c :: rest)).map (kind, ·)) := by
  rcases h with rfl | rfl | rfl <;>
    exact first?_of_isPunctuation (by decide) (by decide) (by decide)

theorem first?_leftParen : first? ('(' :: rest) = some (.leftParen, 1) := by
  rw [first?_punctuation (.inl rfl)]
  rfl

theorem first?_rightParen : first? (')' :: rest) = some (.rightParen, 1) := by
  rw [first?_punctuation (.inr (.inl rfl))]
  rfl

theorem first?_comma : first? (',' :: rest) = some (.comma, 1) := by
  rw [first?_punctuation (.inr (.inr rfl))]
  rfl

theorem first?_of_isBlank (h : isBlank c = true) : first? (c :: rest) = none := by
  have hname : isNameStart c = false := by
    by_contra hc
    rw [Bool.not_eq_false] at hc
    simp [isBlank_of_class isNameStart (by decide) hc] at h
  have hdecimal : isDecimal c = false := by
    by_contra hc
    rw [Bool.not_eq_false] at hc
    simp [isBlank_of_class isDecimal (by decide) hc] at h
  have hpunctuation : c ∉ ['(', ')', ','] := not_mem_of_class isBlank (by decide) h
  simp only [List.mem_cons, List.not_mem_nil, or_false, not_or] at hpunctuation
  rw [first?_of_isPunctuation (not_mem_of_class isBlank (by decide) h) hname hdecimal]
  simp [rules, charLength, hpunctuation]

/-- Scanning finds these tokens and comes to the rest of the text. -/
def ScansTo (position : Nat) (cs : List Char) (ts : List Token) (position' : Nat)
    (rest : List Char) : Prop :=
  scan position cs = (scan position' rest).map (ts ++ ·)

theorem ScansTo.trans {p p' p'' : Nat} {as bs cs : List Char} {ts us : List Token}
    (h : ScansTo p as ts p' bs) (h' : ScansTo p' bs us p'' cs) :
    ScansTo p as (ts ++ us) p'' cs := by
  unfold ScansTo at h h' ⊢
  rw [h, h']
  cases scan p'' cs <;> simp [Except.map]

theorem ScansTo.token {kind : Kind} (position : Nat) (hne : cs ≠ [])
    (h : first? (cs ++ rest) = some (kind, cs.length)) :
    ScansTo position (cs ++ rest) [⟨kind, String.ofList cs, position⟩]
      (position + byteLength cs) rest :=
  scan_of_first? position hne h

theorem ScansTo.char {kind : Kind} (position : Nat) (h : first? (c :: rest) = some (kind, 1)) :
    ScansTo position (c :: rest) [⟨kind, String.ofList [c], position⟩]
      (position + byteLength [c]) rest :=
  ScansTo.token position (List.cons_ne_nil c []) h

theorem ScansTo.leftParen (position : Nat) (rest : List Char) :
    ScansTo position ('(' :: rest) [⟨.leftParen, "(", position⟩] (position + 1) rest :=
  ScansTo.char position first?_leftParen

theorem ScansTo.rightParen (position : Nat) (rest : List Char) :
    ScansTo position (')' :: rest) [⟨.rightParen, ")", position⟩] (position + 1) rest :=
  ScansTo.char position first?_rightParen

theorem ScansTo.comma (position : Nat) (rest : List Char) :
    ScansTo position (',' :: rest) [⟨.comma, ",", position⟩] (position + 1) rest :=
  ScansTo.char position first?_comma

theorem ScansTo.minus (position : Nat) (rest : List Char) :
    ScansTo position ('-' :: rest) [⟨.operator, "-", position⟩] (position + 1) rest :=
  ScansTo.char position first?_minus

theorem ScansTo.not (position : Nat) (hrest : ∀ c ∈ rest.head?, c ≠ '=') :
    ScansTo position ('!' :: rest) [⟨.operator, "!", position⟩] (position + 1) rest :=
  ScansTo.char position (first?_not hrest)

theorem ScansTo.nil (position : Nat) (rest : List Char) :
    ScansTo position rest [] position rest := by
  cases h : scan position rest <;> simp [ScansTo, h, Except.map]

theorem scan_of_isBlank (position : Nat) (h : isBlank c = true) (rest : List Char) :
    scan position (c :: rest) = scan (position + c.utf8Size) rest := by
  rw [scan, first?_of_isBlank h]
  simp [h]

theorem ScansTo.blank (position : Nat) (h : isBlank c = true) (rest : List Char) :
    ScansTo position (c :: rest) [] (position + c.utf8Size) rest := by
  rw [ScansTo, scan_of_isBlank position h]
  exact ScansTo.nil _ _

theorem ScansTo.blanks {bs : List Char} (position : Nat) (h : ∀ c ∈ bs, isBlank c = true)
    (rest : List Char) : ScansTo position (bs ++ rest) [] (position + byteLength bs) rest := by
  induction bs generalizing position with
  | nil => exact .nil _ _
  | cons b bs ih =>
      have hb := ScansTo.blank position (h b (by simp)) (bs ++ rest)
      have hbs := ih (position + b.utf8Size) fun c hc => h c (by simp [hc])
      simpa [Nat.add_assoc] using hb.trans hbs

theorem ScansTo.space (position : Nat) (rest : List Char) :
    ScansTo position (' ' :: rest) [] (position + 1) rest :=
  ScansTo.blank position (by decide) rest

/-! ## Where an expression ends -/

/-- A text ends an expression: it is empty, or a blank, a closing parenthesis or a comma comes
first. -/
def Stops (rest : List Char) : Prop :=
  ∀ c ∈ rest.head?, c ∈ ')' :: ',' :: blanks

theorem stops_nil : Stops [] := by
  simp [Stops]

theorem stops_cons (h : c ∈ ')' :: ',' :: blanks) : Stops (c :: rest) := by
  simpa [Stops] using h

theorem Stops.of_class (h : Stops rest) (p : Char → Bool)
    (hp : (')' :: ',' :: blanks).all (fun c => !p c) = true) : ∀ c ∈ rest.head?, p c = false := by
  intro c hc
  simpa using List.all_eq_true.1 hp c (h c hc)

theorem Stops.notWord (h : Stops rest) : ∀ c ∈ rest.head?, isWord c = false :=
  h.of_class isWord (by decide +kernel)

theorem Stops.notNumeric (h : Stops rest) : ∀ c ∈ rest.head?, isNumeric c = false :=
  h.of_class isNumeric (by decide)

theorem Stops.endsPath (h : Stops rest) : EndsPath rest := by
  intro c hc
  have hword := h.notWord c hc
  have hother := h.of_class ['.', '['].contains (by decide) c hc
  simp only [List.contains_eq_mem, List.mem_cons, List.not_mem_nil, or_false,
    decide_eq_false_iff_not, not_or] at hother
  exact ⟨hword, hother⟩

theorem Stops.blanks_append {bs : List Char} (hbs : ∀ c ∈ bs, isBlank c = true)
    (h : Stops rest) : Stops (bs ++ rest) := by
  cases bs with
  | nil => exact h
  | cons b bs => exact stops_cons (by simp [mem_blanks (hbs b (by simp))])

end Sluice.Token
