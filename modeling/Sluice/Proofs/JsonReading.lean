import Sluice.Proofs.Floats
import Sluice.Proofs.JsonAtoms

/-!
# Documents, written and read

The text of a document is read back as the document with null in place of the numbers that are not
finite, as long as lists and objects do not nest too deep; if they do, the text is refused.
-/
namespace Sluice.Json

open Sluice.Text Sluice.Decimal

/-! ## Documents -/

mutual

/-- How deep lists and objects nest. -/
def nesting : Json → Nat
  | .array items => itemsNesting items + 1
  | .object members => membersNesting members + 1
  | _ => 0

def itemsNesting : List Json → Nat
  | [] => 0
  | j :: rest => max j.nesting (itemsNesting rest)

def membersNesting : List (String × Json) → Nat
  | [] => 0
  | (_, j) :: rest => max j.nesting (membersNesting rest)

end

mutual

/-- What the text of a document says: null for the numbers that are not finite. -/
def written : Json → Json
  | .float x => if x.isFinite then .float x else .null
  | .array items => .array (writtenItems items)
  | .object members => .object (writtenMembers members)
  | j => j

def writtenItems : List Json → List Json
  | [] => []
  | j :: rest => j.written :: writtenItems rest

def writtenMembers : List (String × Json) → List (String × Json)
  | [] => []
  | (k, j) :: rest => (k, j.written) :: writtenMembers rest

end

mutual

/-- The integers of the document fit, and its finite numbers are read back. -/
def Readable : Json → Prop
  | .int n => IsWord n
  | .float x => x.isFinite = true → FloatReadsBack x
  | .array items => itemsReadable items
  | .object members => membersReadable members
  | _ => True

def itemsReadable : List Json → Prop
  | [] => True
  | j :: rest => j.Readable ∧ itemsReadable rest

def membersReadable : List (String × Json) → Prop
  | [] => True
  | (_, j) :: rest => j.Readable ∧ membersReadable rest

end

theorem itemsNesting_cons_le {j : Json} {js : List Json} {depth : Nat} :
    itemsNesting (j :: js) ≤ depth ↔ j.nesting ≤ depth ∧ itemsNesting js ≤ depth := by
  simp [itemsNesting]

theorem membersNesting_cons_le {key : String} {j : Json} {members : List (String × Json)}
    {depth : Nat} : membersNesting ((key, j) :: members) ≤ depth ↔
      j.nesting ≤ depth ∧ membersNesting members ≤ depth := by
  simp [membersNesting]

/-! ## Steps -/

theorem skipSpace_eq_self {cs : List Char} (h : ∀ c ∈ cs.head?, isSpace c = false) :
    skipSpace cs = cs := by
  cases cs with
  | nil => rfl
  | cons c cs => simp [skipSpace, h c rfl]

theorem skipSpace_cons {c : Char} (h : isSpace c = false) (cs : List Char) :
    skipSpace (c :: cs) = c :: cs :=
  skipSpace_eq_self (by simpa using h)

/-- What a step read, and the rest. -/
def Step.result {α : Type} {cs : List Char} (s : Step α cs) : α × List Char :=
  (s.value, s.rest)

theorem map_result_checked {α : Type} {cs rest : List Char} {r : Option (α × List Char)} {a : α}
    (h : r = some (a, rest)) (hlt : rest.length < cs.length) :
    (checked cs r).map Step.result = some (a, rest) := by
  subst h
  simp [checked, hlt, Step.result]

theorem eq_of_checked {α : Type} {cs : List Char} {r : Option (α × List Char)} {s : Step α cs}
    (h : checked cs r = some s) : r = some s.result := by
  unfold checked at h
  split at h
  · next a rest =>
      split at h
      · cases h
        rfl
      · cases h
  · cases h

section Blocks

variable {depth : Nat} {cs rest : List Char}

theorem readValue_list_zero : readValue 0 ('[' :: rest) = none := by
  simp [readValue]

theorem readValue_object_zero : readValue 0 ('\x7b' :: rest) = none := by
  simp [readValue]

theorem readValue_list_nil :
    (readValue (depth + 1) ('[' :: ']' :: rest)).map Step.result = some (.array [], rest) := by
  have hskip : skipSpace (']' :: rest) = ']' :: rest := skipSpace_cons (by decide) rest
  rw [readValue]
  split
  · next h =>
      rw [hskip] at h
      cases h
      rfl
  · next h => exact absurd hskip (h rest)

theorem readValue_object_nil :
    (readValue (depth + 1) ('\x7b' :: '\x7d' :: rest)).map Step.result =
      some (.object [], rest) := by
  have hskip : skipSpace ('\x7d' :: rest) = '\x7d' :: rest := skipSpace_cons (by decide) rest
  rw [readValue]
  split
  · next h =>
      rw [hskip] at h
      cases h
      rfl
  · next h => exact absurd hskip (h rest)

theorem readValue_list (hskip : skipSpace rest = rest) (hhead : rest.head? ≠ some ']') :
    (readValue (depth + 1) ('[' :: rest)).map Step.result =
      ((readItems depth rest).map Step.result).map fun r => (.array r.1, r.2) := by
  rw [readValue]
  split
  · next h =>
      rw [hskip] at h
      simp [h] at hhead
  · rw [← congrArg (fun cs => (readItems depth cs).map Step.result) hskip, Option.map_map,
      Option.map_map]
    rfl

theorem readValue_object (hskip : skipSpace rest = rest) (hhead : rest.head? ≠ some '\x7d') :
    (readValue (depth + 1) ('\x7b' :: rest)).map Step.result =
      ((readMembers depth rest).map Step.result).map fun r => (.object r.1, r.2) := by
  rw [readValue]
  split
  · next h =>
      rw [hskip] at h
      simp [h] at hhead
  · rw [← congrArg (fun cs => (readMembers depth cs).map Step.result) hskip, Option.map_map,
      Option.map_map]
    rfl

/-- After an item, the list ends or goes on. -/
theorem readItems_eq : (readItems depth cs).map Step.result =
    ((readValue depth cs).map Step.result).bind fun first =>
      match skipSpace first.2 with
      | ']' :: rest => some ([first.1], rest)
      | ',' :: rest =>
          ((readItems depth (skipSpace rest)).map Step.result).map fun more =>
            (first.1 :: more.1, more.2)
      | _ => none := by
  rw [readItems]
  cases readValue depth cs with
  | none => rfl
  | some s =>
      simp only [Option.map_some, Option.bind_some, Step.result]
      split
      · next h => simp [h, Step.result]
      · next h => simp [h, Step.result, Function.comp_def]
      · next hend hnext =>
          split
          · next rest h => exact (hend rest h).elim
          · next rest h => exact (hnext rest h).elim
          · rfl

/-- After a member, the object ends or goes on. -/
theorem readMembers_eq {key : String} (hskip : skipSpace cs = cs) :
    (readMembers depth (quote key ++ ':' :: cs)).map Step.result =
      ((readValue depth cs).map Step.result).bind fun first =>
        match skipSpace first.2 with
        | '\x7d' :: rest => some ([(key, first.1)], rest)
        | ',' :: rest =>
            ((readMembers depth (skipSpace rest)).map Step.result).map fun more =>
              ((key, first.1) :: more.1, more.2)
        | _ => none := by
  have hquote :
      quote key ++ ':' :: cs = '"' :: (key.toList.flatMap escape ++ '"' :: ':' :: cs) := by
    simp [quote]
  have hkey := readChars_flatMap_escape key.toList (':' :: cs)
  have hlt : (':' :: cs).length < (key.toList.flatMap escape ++ '"' :: ':' :: cs).length := by
    simp; omega
  have hcolon : skipSpace (':' :: cs) = ':' :: cs := skipSpace_cons (by decide) cs
  rw [hquote, readMembers, hkey]
  simp only [checked, dif_pos hlt]
  split
  · next rest h =>
      rw [hcolon] at h
      cases h
      rw [← congrArg (fun cs => ((readValue depth cs).map Step.result).bind _) hskip]
      cases readValue depth (skipSpace cs) with
      | none => rfl
      | some s =>
          simp only [Option.map_some, Option.bind_some, Step.result, String.ofList_toList]
          split
          · next h => simp [h, Step.result]
          · next h => simp [h, Step.result, Function.comp_def]
          · next hend hnext =>
              split
              · next rest h => exact (hend rest h).elim
              · next rest h => exact (hnext rest h).elim
              · rfl
  · next h => exact absurd hcolon (h cs)

theorem readValue_null :
    (readValue depth ('n' :: 'u' :: 'l' :: 'l' :: rest)).map Step.result = some (.null, rest) := by
  simp [readValue, readWord, checked, isAsciiDigit, Step.result]
  omega

theorem readValue_true :
    (readValue depth ('t' :: 'r' :: 'u' :: 'e' :: rest)).map Step.result =
      some (.bool true, rest) := by
  simp [readValue, readWord, checked, isAsciiDigit, Step.result]
  omega

theorem readValue_false :
    (readValue depth ('f' :: 'a' :: 'l' :: 's' :: 'e' :: rest)).map Step.result =
      some (.bool false, rest) := by
  simp [readValue, readWord, checked, isAsciiDigit, Step.result]
  omega

theorem readValue_string (s : String) :
    (readValue depth (quote s ++ rest)).map Step.result = some (.string s, rest) := by
  have hquote : quote s ++ rest = '"' :: (s.toList.flatMap escape ++ '"' :: rest) := by simp [quote]
  rw [hquote, readValue, readChars_flatMap_escape]
  exact map_result_checked (by simp) (by simp; omega)

/-- A character that begins a number begins nothing else. -/
theorem readValue_of_head {c : Char} (hc : c = '-' ∨ isAsciiDigit c = true) :
    readValue depth (c :: cs) = checked _ (readNumber (c :: cs)) := by
  have hother (d : Char) (hd : ¬ (d = '-' ∨ isAsciiDigit d = true)) : c ≠ d := by
    rintro rfl
    exact hd hc
  have hquote := hother '"' (by decide)
  have hlist := hother '[' (by decide)
  have hobject := hother '\x7b' (by decide)
  -- the three inequalities are the side conditions of the last case
  cases depth <;> simp [readValue, hc]

theorem readValue_number {j : Json} {tail : List Char} (h : readNumber cs = some (j, rest))
    (htail : EndsNumber tail) :
    (readValue depth (cs ++ tail)).map Step.result = some (j, rest ++ tail) := by
  have hle := (suffix_of_readNumber h).length_le
  have hlonger := readNumber_append htail h
  obtain ⟨c, cs, rfl, hc⟩ := exists_of_readNumber h
  rw [List.cons_append, readValue_of_head hc]
  refine map_result_checked hlonger ?_
  simp only [List.tail_cons, List.length_cons, List.length_append] at hle ⊢
  omega

end Blocks

/-- A text is read if one document is, up to blanks. -/
theorem read?_eq_some_iff {text : String} {j : Json} :
    read? text = some j ↔ ∃ rest,
      (readValue depthLimit (skipSpace text.toList)).map Step.result = some (j, rest) ∧
        skipSpace rest = [] := by
  unfold read?
  split
  · next s hs =>
      simp only [hs, Option.map_some, Step.result, Option.some.injEq, Prod.mk.injEq]
      constructor
      · intro h
        split at h
        · next hrest => exact ⟨s.rest, ⟨Option.some.inj h, rfl⟩, List.isEmpty_iff.1 hrest⟩
        · cases h
      · rintro ⟨rest, ⟨rfl, rfl⟩, hrest⟩
        simp [hrest]
  · next hs => simp [hs]

/-! ## Floating-point numbers -/

theorem isSpace_of_isNumeralChar {c : Char} (h : isNumeralChar c = true) : isSpace c = false := by
  by_contra hspace
  simp only [isSpace, Bool.not_eq_false, Bool.or_eq_true, beq_iff_eq] at hspace
  rcases hspace with ((rfl | rfl) | rfl) | rfl <;> revert h <;> decide

theorem floatText_of_not_isFinite {x : Float} (h : ¬ x.isFinite = true) :
    floatText x = ['n', 'u', 'l', 'l'] := by
  unfold floatText
  split
  · next negative size he => exact absurd ((isFinite_iff x).2 ⟨negative, size, he⟩) h
  · rfl

theorem isNumeralChar_of_mem_floatText {x : Float} (hx : x.isFinite = true) {c : Char}
    (h : c ∈ floatText x) : isNumeralChar c = true := by
  obtain ⟨negative, size, he⟩ := (isFinite_iff x).1 hx
  unfold floatText at h
  rw [he] at h
  exact isNumeralChar_of_mem_finite h

/-- A number that is read back from its text alone is what reading a number gives there. -/
theorem readNumber_floatText {x : Float} (h : FloatReadsBack x) :
    readNumber (floatText x) = some (.float x, []) := by
  obtain ⟨rest, hvalue, hrest⟩ := read?_eq_some_iff.1 h
  rw [render, chars, String.toList_ofList] at hvalue
  by_cases hx : x.isFinite = true
  · have hblank {cs : List Char} (hcs : cs ⊆ floatText x) : skipSpace cs = cs :=
      skipSpace_eq_self fun c hc => isSpace_of_isNumeralChar
        (isNumeralChar_of_mem_floatText hx (hcs (List.mem_of_mem_head? hc)))
    rw [hblank (List.Subset.refl _)] at hvalue
    cases hcs : floatText x with
    | nil =>
        rw [hcs] at hvalue
        simp [readValue] at hvalue
    | cons c cs =>
        rw [hcs] at hvalue
        by_cases hc : c = '-' ∨ isAsciiDigit c = true
        · rw [readValue_of_head hc] at hvalue
          obtain ⟨s, hs, he⟩ := Option.map_eq_some_iff.1 hvalue
          have hnumber := (eq_of_checked hs).trans (congrArg some he)
          have hsub := ((suffix_of_readNumber hnumber).trans (List.tail_suffix _)).subset
          rw [hblank (hcs ▸ hsub)] at hrest
          rw [hnumber, hrest]
        · have hchar : isNumeralChar c = true :=
            isNumeralChar_of_mem_floatText hx (hcs ▸ List.mem_cons_self)
          simp only [isNumeralChar, Bool.or_eq_true, beq_iff_eq] at hchar
          rcases hchar with (((hdigit | rfl) | rfl) | hminus) | rfl
          · exact absurd (.inr hdigit) hc
          · simp [readValue, readWord, checked, isAsciiDigit] at hvalue
          · simp [readValue, readWord, checked, isAsciiDigit] at hvalue
          · exact absurd (.inl hminus) hc
          · simp [readValue, readWord, checked, isAsciiDigit] at hvalue
  · have hnull : skipSpace (floatText x) = ['n', 'u', 'l', 'l'] := by
      rw [floatText_of_not_isFinite hx]
      exact skipSpace_cons (by decide) _
    rw [hnull, readValue_null] at hvalue
    cases hvalue

/-! ## Texts of documents -/

theorem endsNumber_itemsChars (js : List Json) (rest : List Char) :
    EndsNumber (itemsChars js ++ rest) := by
  cases js <;> simp [itemsChars, EndsNumber, isAsciiDigit]

theorem endsNumber_membersChars (members : List (String × Json)) (rest : List Char) :
    EndsNumber (membersChars members ++ rest) := by
  cases members <;> simp [membersChars, EndsNumber, isAsciiDigit]

/-- A character that a document can begin with: neither a blank nor a closing bracket. -/
def Opens (c : Char) : Prop :=
  isSpace c = false ∧ c ≠ ']'

theorem opens_of_number {c : Char} (hc : c = '-' ∨ isAsciiDigit c = true) : Opens c := by
  have hnumeral : isNumeralChar c = true := by
    rcases hc with rfl | hc
    · decide
    · simp [isNumeralChar, hc]
  refine ⟨isSpace_of_isNumeralChar hnumeral, ?_⟩
  rintro rfl
  revert hnumeral
  decide

theorem opens_of_readNumber {cs : List Char} {r : Json × List Char} (h : readNumber cs = some r) :
    ∃ c cs', cs = c :: cs' ∧ Opens c := by
  obtain ⟨c, cs', he, hc⟩ := exists_of_readNumber h
  exact ⟨c, cs', he, opens_of_number hc⟩

/-- What reading a number gives back from the text of a number is read back. -/
theorem floatReadsBack_of_readNumber {x : Float}
    (h : readNumber (floatText x) = some (.float x, [])) : FloatReadsBack x := by
  obtain ⟨c, cs, he, hc⟩ := opens_of_readNumber h
  have hskip : skipSpace (floatText x) = floatText x := by
    rw [he]
    exact skipSpace_cons hc.1 _
  have hend : EndsNumber [] := by simp [EndsNumber]
  have hvalue : (readValue depthLimit (floatText x ++ [])).map Step.result = some (.float x, []) :=
    readValue_number h hend
  rw [List.append_nil] at hvalue
  refine read?_eq_some_iff.2 ⟨[], ?_, rfl⟩
  rw [render, chars, String.toList_ofList, hskip, hvalue]

theorem chars_opens {j : Json} (hj : j.Readable) : ∃ c cs, j.chars = c :: cs ∧ Opens c := by
  match j with
  | .null => exact ⟨_, _, rfl, by simp [Opens, isSpace]⟩
  | .bool true => exact ⟨_, _, rfl, by simp [Opens, isSpace]⟩
  | .bool false => exact ⟨_, _, rfl, by simp [Opens, isSpace]⟩
  | .int n => exact opens_of_readNumber (readNumber_intDigits hj)
  | .float x =>
      by_cases hx : x.isFinite = true
      · exact opens_of_readNumber (readNumber_floatText (hj hx))
      · exact ⟨_, _, floatText_of_not_isFinite hx, by simp [Opens, isSpace]⟩
  | .string s => exact ⟨_, _, rfl, by simp [Opens, isSpace]⟩
  | .array [] => exact ⟨_, _, rfl, by simp [Opens, isSpace]⟩
  | .array (_ :: _) => exact ⟨_, _, rfl, by simp [Opens, isSpace]⟩
  | .object [] => exact ⟨_, _, rfl, by simp [Opens, isSpace]⟩
  | .object (_ :: _) => exact ⟨_, _, rfl, by simp [Opens, isSpace]⟩

theorem skipSpace_chars {j : Json} (hj : j.Readable) (rest : List Char) :
    skipSpace (j.chars ++ rest) = j.chars ++ rest := by
  obtain ⟨c, cs, he, hc⟩ := chars_opens hj
  rw [he]
  exact skipSpace_cons hc.1 _

mutual

/-- A document is read from its text, whatever stands after it, if it does not nest too deep. -/
theorem readValue_chars {j : Json} (hj : j.Readable) (depth : Nat) {rest : List Char}
    (hrest : EndsNumber rest) :
    (readValue depth (j.chars ++ rest)).map Step.result =
      if j.nesting ≤ depth then some (j.written, rest) else none := by
  match j, depth with
  | .null, depth => simpa [chars, written, nesting] using readValue_null
  | .bool true, depth => simpa [chars, written, nesting] using readValue_true
  | .bool false, depth => simpa [chars, written, nesting] using readValue_false
  | .int n, depth =>
      simpa [chars, written, nesting] using readValue_number (readNumber_intDigits hj) hrest
  | .float x, depth =>
      by_cases hx : x.isFinite = true
      · have hnumber := readNumber_floatText (hj hx)
        simpa [chars, written, nesting, hx] using readValue_number hnumber hrest
      · rw [chars, floatText_of_not_isFinite hx]
        simpa [written, nesting, hx] using readValue_null
  | .string s, depth => simpa [chars, written, nesting] using readValue_string s
  | .array [], 0 => simp [chars, nesting, readValue_list_zero]
  | .array (_ :: _), 0 => simp [chars, nesting, readValue_list_zero]
  | .object [], 0 => simp [chars, nesting, readValue_object_zero]
  | .object (_ :: _), 0 => simp [chars, nesting, readValue_object_zero]
  | .array [], depth + 1 =>
      simpa [chars, written, writtenItems, nesting, itemsNesting] using readValue_list_nil
  | .object [], depth + 1 =>
      simpa [chars, written, writtenMembers, nesting, membersNesting] using readValue_object_nil
  | .array (j :: js), depth + 1 =>
      have hskip := skipSpace_chars hj.1 (itemsChars js ++ rest)
      have hhead : (j.chars ++ (itemsChars js ++ rest)).head? ≠ some ']' := by
        obtain ⟨c, cs, he, hc⟩ := chars_opens hj.1
        simpa [he] using hc.2
      have hitems := readItems_chars hj depth rest
      rw [chars, List.cons_append, List.append_assoc, readValue_list hskip hhead, hitems]
      by_cases hdepth : itemsNesting (j :: js) ≤ depth <;> simp [nesting, hdepth, written]
  | .object ((key, j) :: members), depth + 1 =>
      have hmembers := readMembers_chars key hj depth rest
      have hskip (cs : List Char) : skipSpace (quote key ++ cs) = quote key ++ cs :=
        skipSpace_cons (by decide) _
      rw [chars, List.cons_append, List.append_assoc, List.cons_append, List.append_assoc,
        readValue_object (hskip _) (by simp [quote]), hmembers]
      by_cases hdepth : membersNesting ((key, j) :: members) ≤ depth <;>
        simp [nesting, hdepth, written]
termination_by sizeOf j

theorem readItems_chars {j : Json} {js : List Json} (hj : itemsReadable (j :: js)) (depth : Nat)
    (rest : List Char) :
    (readItems depth (j.chars ++ (itemsChars js ++ rest))).map Step.result =
      if itemsNesting (j :: js) ≤ depth then some (writtenItems (j :: js), rest) else none := by
  rw [readItems_eq, readValue_chars hj.1 depth (endsNumber_itemsChars js rest)]
  by_cases hfirst : j.nesting ≤ depth
  · match js with
    | [] =>
        have hskip : skipSpace (']' :: rest) = ']' :: rest := skipSpace_cons (by decide) rest
        simp [hfirst, itemsChars, hskip, itemsNesting, writtenItems]
    | k :: ks =>
        have hskip := skipSpace_cons (c := ',') (by decide)
        have hmore := readItems_chars hj.2 depth rest
        simp only [hfirst, if_true, Option.bind_some, itemsChars, List.cons_append,
          List.append_assoc, hskip]
        rw [skipSpace_chars hj.2.1, hmore]
        by_cases hdepth : itemsNesting (k :: ks) ≤ depth <;>
          simp [itemsNesting_cons_le, hfirst, hdepth, writtenItems]
  · simp [itemsNesting_cons_le, hfirst]
termination_by sizeOf (j :: js)

theorem readMembers_chars (key : String) {j : Json} {members : List (String × Json)}
    (hj : membersReadable ((key, j) :: members)) (depth : Nat) (rest : List Char) :
    (readMembers depth
        (quote key ++ ':' :: (j.chars ++ (membersChars members ++ rest)))).map Step.result =
      if membersNesting ((key, j) :: members) ≤ depth then
        some (writtenMembers ((key, j) :: members), rest)
      else none := by
  rw [readMembers_eq (skipSpace_chars hj.1 _),
    readValue_chars hj.1 depth (endsNumber_membersChars members rest)]
  by_cases hfirst : j.nesting ≤ depth
  · match members with
    | [] =>
        have hskip : skipSpace ('\x7d' :: rest) = '\x7d' :: rest :=
          skipSpace_cons (by decide) rest
        simp [hfirst, membersChars, hskip, membersNesting, writtenMembers]
    | (name, k) :: ks =>
        have hskip := skipSpace_cons (c := ',') (by decide)
        have hquote (cs : List Char) : skipSpace (quote name ++ cs) = quote name ++ cs :=
          skipSpace_cons (by decide) _
        have hmore := readMembers_chars name hj.2 depth rest
        simp only [hfirst, if_true, Option.bind_some, membersChars, List.cons_append,
          List.append_assoc, hskip]
        rw [hquote, hmore]
        by_cases hdepth : membersNesting ((name, k) :: ks) ≤ depth <;>
          simp [membersNesting_cons_le, hfirst, hdepth, writtenMembers]
  · simp [membersNesting_cons_le, hfirst]
termination_by sizeOf ((key, j) :: members)

end

/-- The text of a document is read as what it says, or refused if it nests too deep. -/
theorem read?_render {j : Json} (hj : j.Readable) :
    read? j.render = if j.nesting ≤ depthLimit then some j.written else none := by
  have hend : EndsNumber [] := by simp [EndsNumber]
  have hchars := readValue_chars hj depthLimit hend
  have hskip := skipSpace_chars hj []
  rw [List.append_nil] at hchars hskip
  split
  · next h =>
      rw [if_pos h] at hchars
      refine read?_eq_some_iff.2 ⟨[], ?_, rfl⟩
      rw [render, String.toList_ofList, hskip, hchars]
  · next h =>
      rw [if_neg h] at hchars
      rw [Option.eq_none_iff_forall_ne_some]
      intro j' hread
      obtain ⟨rest, hvalue, -⟩ := read?_eq_some_iff.1 hread
      rw [render, String.toList_ofList, hskip, hchars] at hvalue
      cases hvalue

end Sluice.Json
