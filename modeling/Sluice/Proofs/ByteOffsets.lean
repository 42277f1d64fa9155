import Sluice.Proofs.ByteScan
import Sluice.Proofs.ErrorPositions

/-!
# Cutting the bytes of a text

A text is cut at the bytes at which the scan finds a separator. The bytes of a character beyond
ASCII are neither quotes nor brackets nor separators, also where a backslash has taken the first of
them, so that the scan goes over them one by one; all others are one byte. The slices between the
offsets are then the bytes of the parts of the text.
-/
namespace Sluice

namespace Text

/-- The bytes of a text. -/
def utf8 (cs : List Char) : List UInt8 :=
  cs.flatMap String.utf8EncodeChar

@[simp] theorem utf8_nil : utf8 [] = [] :=
  rfl

theorem utf8_cons (c : Char) (cs : List Char) :
    utf8 (c :: cs) = String.utf8EncodeChar c ++ utf8 cs :=
  List.flatMap_cons

theorem utf8_append (as bs : List Char) : utf8 (as ++ bs) = utf8 as ++ utf8 bs :=
  List.flatMap_append

theorem length_utf8 (cs : List Char) : (utf8 cs).length = byteLength cs := by
  induction cs with
  | nil => rfl
  | cons c cs ih => simp [utf8_cons, ih]

theorem utf8_toList (s : String) : utf8 s.toList = s.toUTF8.data.toList := by
  have hencode : s.toList.utf8Encode = s.toUTF8 := String.utf8Encode_toList
  rw [← hencode]
  simp [utf8, List.utf8Encode]

/-- The character is one byte, and that byte has its number. -/
def IsAscii (c : Char) : Prop :=
  c.toNat < 128

instance : DecidablePred IsAscii :=
  fun c => inferInstanceAs (Decidable (c.toNat < 128))

theorem IsAscii.utf8EncodeChar {c : Char} (h : IsAscii c) :
    String.utf8EncodeChar c = [c.toUInt8] := by
  refine String.utf8EncodeChar_eq_singleton (Char.utf8Size_eq_one_iff.2 ?_)
  rw [UInt32.le_iff_toNat_le]
  exact Nat.le_of_lt_succ h

theorem IsAscii.utf8_cons {c : Char} (h : IsAscii c) (cs : List Char) :
    utf8 (c :: cs) = c.toUInt8 :: utf8 cs := by
  rw [Text.utf8_cons, h.utf8EncodeChar]
  rfl

theorem toNat_ofUInt8 (b : UInt8) : (Char.ofUInt8 b).toNat = b.toNat :=
  UInt8.toNat_toUInt32 b

theorem toUInt8_ofUInt8 (b : UInt8) : (Char.ofUInt8 b).toUInt8 = b :=
  UInt8.toUInt8_toUInt32 b

theorem IsAscii.ofUInt8_toUInt8 {c : Char} (h : IsAscii c) : Char.ofUInt8 c.toUInt8 = c := by
  have hbyte : c.toUInt8.toNat = c.toNat :=
    (UInt32.toNat_toUInt8 c.val).trans (Nat.mod_eq_of_lt (Nat.lt_trans h (by decide)))
  exact Char.toNat_inj.1 ((toNat_ofUInt8 _).trans hbyte)

theorem IsAscii.ne {b c : Char} (hc : IsAscii c) (hb : ¬ IsAscii b) : b ≠ c := by
  rintro rfl
  exact hb hc

/-- No byte of a character beyond ASCII is one of ASCII. -/
theorem not_isAscii_of_mem_utf8EncodeChar {c : Char} {b : UInt8} (h : ¬ IsAscii c)
    (hb : b ∈ String.utf8EncodeChar c) : ¬ IsAscii (Char.ofUInt8 b) := by
  have hc : ¬ c.val.toNat < 128 := h
  rw [IsAscii, toNat_ofUInt8]
  rw [String.utf8EncodeChar] at hb
  generalize c.val.toNat = n at hb hc
  -- Each byte has its highest bit by the number that is added to the remainder.
  split_ifs at hb with h1 h2 h3
  · omega
  all_goals
    simp only [List.mem_cons, List.not_mem_nil, or_false] at hb
    rcases hb with rfl | rfl | rfl | rfl <;> rw [UInt8.toNat_ofNat'] <;> omega

end Text

namespace Pipeline

open Text

variable {sep c : Char} {d : Int} {q : Option Char} {before after piece : List UInt8}
  {cs : List Char}

theorem isAscii_of_isQuote (h : isQuote c) : IsAscii c := by
  simp only [isQuote, Bool.or_eq_true, beq_iff_eq] at h
  rcases h with rfl | rfl <;> decide

theorem isAscii_of_isOpening (h : isOpening c) : IsAscii c := by
  simp only [isOpening, Bool.or_eq_true, beq_iff_eq] at h
  rcases h with (rfl | rfl) | rfl <;> decide

theorem isAscii_of_isClosing (h : isClosing c) : IsAscii c := by
  simp only [isClosing, Bool.or_eq_true, beq_iff_eq] at h
  rcases h with (rfl | rfl) | rfl <;> decide

/-- A byte beyond ASCII means nothing to the scan. -/
theorem Cursor.step_of_not_isAscii {cursor : Cursor} (hsep : IsAscii sep)
    (hq : ∀ q ∈ cursor.quote, isQuote q) (hc : ¬ IsAscii c) (next : Option Char) :
    cursor.step sep c next = (.plain, { cursor with place := cursor.place + 1 }) := by
  obtain ⟨place, d, q⟩ := cursor
  cases q with
  | none =>
      simp [Cursor.step, mt isAscii_of_isQuote hc, mt isAscii_of_isOpening hc,
        mt isAscii_of_isClosing hc, hsep.ne hc, IsAscii.ne (c := '|') (by decide) hc]
  | some q =>
      have hquote : IsAscii q := isAscii_of_isQuote (hq q rfl)
      simp [Cursor.step, IsAscii.ne (c := '\\') (by decide) hc, hquote.ne hc]

/-- Of the byte after it, a step asks only whether it is a bar. -/
theorem Cursor.step_congr {next next' : Option Char} (h : next = some '|' ↔ next' = some '|')
    (cursor : Cursor) : cursor.step sep c next = cursor.step sep c next' := by
  simp only [Cursor.step, h]

theorem byteAt_append (before : List UInt8) (b : UInt8) (after : List UInt8) :
    byteAt (before ++ b :: after) before.length = some (Char.ofUInt8 b) := by
  simp [byteAt]

theorem byteAt_ascii (hc : IsAscii c) (before after : List UInt8) :
    byteAt (before ++ c.toUInt8 :: after) before.length = some c := by
  rw [byteAt_append, hc.ofUInt8_toUInt8]

/-- The scan goes over bytes beyond ASCII. -/
theorem offsetsFrom_of_not_isAscii (hsep : IsAscii sep) (hq : ∀ q' ∈ q, isQuote q')
    (hpiece : ∀ b ∈ piece, ¬ IsAscii (Char.ofUInt8 b)) (before after : List UInt8) :
    offsetsFrom sep (before ++ (piece ++ after)) ⟨before.length, d, q⟩ =
      offsetsFrom sep (before ++ (piece ++ after)) ⟨(before ++ piece).length, d, q⟩ := by
  induction piece generalizing before with
  | nil => simp
  | cons b piece ih =>
      obtain ⟨hb, hpiece⟩ := List.forall_mem_cons.1 hpiece
      have hrest := ih hpiece (before ++ [b])
      rw [List.cons_append, offsetsFrom_of_some (byteAt_append before b (piece ++ after)),
        Cursor.step_of_not_isAscii hsep hq hb]
      simpa using hrest

theorem byteAt_eq_bar_iff (before : List UInt8) (cs : List Char) :
    byteAt (before ++ utf8 cs) before.length = some '|' ↔ cs.head? = some '|' := by
  cases cs with
  | nil => simp [byteAt, utf8]
  | cons c cs =>
      by_cases hc : IsAscii c
      · rw [hc.utf8_cons, byteAt_ascii hc]
        rfl
      · obtain ⟨b, rest, hbytes⟩ :=
          List.exists_cons_of_ne_nil (String.utf8EncodeChar_ne_nil (c := c))
        have hb := not_isAscii_of_mem_utf8EncodeChar hc (hbytes ▸ List.mem_cons_self)
        have hbar : IsAscii '|' := by decide
        rw [utf8_cons, hbytes, List.cons_append, byteAt_append]
        simp [hbar.ne hb, hbar.ne hc]

/-- A step from a character is the one from its first byte; the others are gone over. -/
theorem offsetsFrom_cons (hsep : IsAscii sep) (hq : ∀ q' ∈ q, isQuote q') (before : List UInt8)
    (c : Char) (cs : List Char) {m : Mark} {d' : Int} {q' : Option Char}
    (hstep : Cursor.step sep ⟨before.length, d, q⟩ c cs.head? = (m, ⟨before.length + 1, d', q'⟩)) :
    offsetsFrom sep (before ++ utf8 (c :: cs)) ⟨before.length, d, q⟩ =
      (if m = .separator then [before.length] else []) ++
        offsetsFrom sep (before ++ utf8 (c :: cs)) ⟨(before ++ utf8 [c]).length, d', q'⟩ := by
  by_cases hc : IsAscii c
  · have hnext := byteAt_eq_bar_iff (before ++ [c.toUInt8]) cs
    rw [List.append_assoc, List.singleton_append, List.length_append] at hnext
    have hbyte : Cursor.step sep ⟨before.length, d, q⟩ c
        (byteAt (before ++ c.toUInt8 :: utf8 cs) (before.length + 1)) =
          (m, ⟨before.length + 1, d', q'⟩) :=
      (Cursor.step_congr hnext _).trans hstep
    rw [hc.utf8_cons, offsetsFrom_of_some (byteAt_ascii hc before _), hc.utf8_cons]
    simp [hbyte]
  · rw [Cursor.step_of_not_isAscii hsep hq hc] at hstep
    cases hstep
    have hpiece := offsetsFrom_of_not_isAscii (d := d) hsep hq
      (fun b => not_isAscii_of_mem_utf8EncodeChar hc) before (utf8 cs)
    rw [utf8_cons, hpiece]
    simp [utf8]

/-! ## The slices between the offsets -/

/-- The slices of bytes between places, from one on. -/
def slices (bytes : List UInt8) (start : Nat) : List Nat → List (List UInt8)
  | [] => [bytes.drop start]
  | i :: rest => (bytes.drop start).take (i - start) :: slices bytes (i + 1) rest

/-- Bytes before all of the places are the first ones of the first slice. -/
theorem slices_append (before piece after : List UInt8) {places : List Nat}
    (h : ∀ i ∈ places, (before ++ piece).length ≤ i) :
    slices (before ++ (piece ++ after)) before.length places =
      (slices (before ++ (piece ++ after)) (before ++ piece).length places).modifyHead
        (piece ++ ·) := by
  have hstart : (before ++ (piece ++ after)).drop before.length = piece ++ after :=
    List.drop_left
  have hmid : (before ++ (piece ++ after)).drop (before ++ piece).length = after := by
    rw [← List.append_assoc, List.drop_left]
  cases places with
  | nil => simp only [slices, hstart, hmid, List.modifyHead_cons]
  | cons i rest =>
      obtain ⟨k, rfl⟩ := Nat.exists_eq_add_of_le (List.forall_mem_cons.1 h).1
      have hpiece : (before ++ piece).length + k - before.length = piece.length + k := by
        rw [List.length_append]
        omega
      rw [slices, slices, hstart, hmid, hpiece, List.modifyHead_cons, List.take_length_add_append,
        Nat.add_sub_cancel_left]

/-- The bytes from a place on are cut into the bytes of these texts. -/
def CutsInto (sep : Char) (d : Int) (q : Option Char) (before : List UInt8) (cs : List Char)
    (found : List (List Char)) : Prop :=
  slices (before ++ utf8 cs) before.length
    (offsetsFrom sep (before ++ utf8 cs) ⟨before.length, d, q⟩) = found.map utf8

theorem cutsInto_nil (sep : Char) (d : Int) (q : Option Char) (before : List UInt8) :
    CutsInto sep d q before [] [[]] := by
  rw [CutsInto, offsetsFrom_of_none (by simp [byteAt])]
  simp [slices]

/-- Characters that the scan goes over come before the first part of what is left. -/
theorem CutsInto.onFirst {piece rest : List Char} {d' : Int} {q' : Option Char}
    {found : List (List Char)} (h : CutsInto sep d' q' (before ++ utf8 piece) rest found)
    (hfound : found ≠ [])
    (hoffsets : offsetsFrom sep (before ++ utf8 (piece ++ rest)) ⟨before.length, d, q⟩ =
      offsetsFrom sep (before ++ utf8 (piece ++ rest)) ⟨(before ++ utf8 piece).length, d', q'⟩) :
    CutsInto sep d q before (piece ++ rest) (onFirst piece found) := by
  rw [CutsInto, List.append_assoc, ← utf8_append] at h
  rw [CutsInto, hoffsets, utf8_append, slices_append _ _ _ fun i hi => le_of_mem_offsetsFrom hi,
    ← utf8_append, h]
  obtain ⟨part, found, rfl⟩ := List.exists_cons_of_ne_nil hfound
  simp [Pipeline.onFirst, utf8_append]

/-- A character that is no separator, and that the scan goes over alone. -/
theorem CutsInto.cons {d' : Int} {q' : Option Char} {found : List (List Char)}
    (h : CutsInto sep d' q' (before ++ utf8 [c]) cs found) (hfound : found ≠ [])
    (hsep : IsAscii sep) (hq : ∀ q' ∈ q, isQuote q')
    (hstep : Cursor.step sep ⟨before.length, d, q⟩ c cs.head? =
      (.plain, ⟨before.length + 1, d', q'⟩)) :
    CutsInto sep d q before (c :: cs) (Pipeline.onFirst [c] found) :=
  h.onFirst hfound (offsetsFrom_cons hsep hq before c cs hstep)

/-- A separator ends a part. -/
theorem CutsInto.separator {found : List (List Char)}
    (h : CutsInto sep d q (before ++ utf8 [sep]) cs found) (hsep : IsAscii sep)
    (hq : ∀ q' ∈ q, isQuote q')
    (hstep : Cursor.step sep ⟨before.length, d, q⟩ sep cs.head? =
      (.separator, ⟨before.length + 1, d, q⟩)) :
    CutsInto sep d q before (sep :: cs) ([] :: found) := by
  rw [CutsInto, hsep.utf8_cons] at h
  rw [CutsInto, offsetsFrom_cons hsep hq before sep cs hstep, hsep.utf8_cons, hsep.utf8_cons]
  simpa [slices] using h

theorem Cursor.step_last (sep : Char) (n : Nat) (d : Int) (q : Option Char) (c : Char) :
    (Cursor.step sep ⟨n, d, q⟩ c none).1 = .separator ↔
      q.isNone ∧ !isQuote c ∧ !isOpening c ∧ !isClosing c ∧ c = sep ∧ d ≤ 0 := by
  cases q with
  | none =>
      simp only [Cursor.step]
      split_ifs <;> simp_all
  | some q =>
      simp only [Cursor.step]
      split_ifs <;> simp

/-- After a last character there is nothing to find, whatever it is. -/
theorem offsetsFrom_last (hsep : IsAscii sep) (hq : ∀ q' ∈ q, isQuote q') (before : List UInt8)
    (c : Char) :
    offsetsFrom sep (before ++ utf8 [c]) ⟨before.length, d, q⟩ =
      if (Cursor.step sep ⟨before.length, d, q⟩ c none).1 = .separator then [before.length]
      else [] := by
  by_cases hc : IsAscii c
  · have hnext : byteAt (before ++ [c.toUInt8]) (before.length + 1) = none := by simp [byteAt]
    have hend : (before ++ [c.toUInt8]).length ≤
        (Cursor.step sep ⟨before.length, d, q⟩ c none).2.place := by
      rw [List.length_append]
      exact Cursor.lt_place_step sep ⟨before.length, d, q⟩ c none
    rw [hc.utf8_cons, utf8_nil, offsetsFrom_of_some (byteAt_ascii hc before [])]
    simp only [hnext]
    rw [offsetsFrom_of_none, List.append_nil]
    rw [byteAt, List.getElem?_eq_none hend, Option.map_none]
  · have hpiece := offsetsFrom_of_not_isAscii (d := d) hsep hq
      (fun b => not_isAscii_of_mem_utf8EncodeChar hc) before []
    rw [utf8_cons, utf8_nil, hpiece, Cursor.step_of_not_isAscii hsep hq hc, if_neg (by simp),
      offsetsFrom_of_none (by simp [byteAt])]

/-- The byte that a backslash takes with it may be the first one of several. -/
theorem offsetsFrom_escaped (hsep : IsAscii sep) {q : Char} (hq : isQuote q)
    (before : List UInt8) (c : Char) (cs : List Char) :
    offsetsFrom sep (before ++ utf8 (['\\', c] ++ cs)) ⟨before.length, d, some q⟩ =
      offsetsFrom sep (before ++ utf8 (['\\', c] ++ cs))
        ⟨(before ++ utf8 ['\\', c]).length, d, some q⟩ := by
  have hslash : IsAscii '\\' := by decide
  obtain ⟨b, rest, hbytes⟩ := List.exists_cons_of_ne_nil (String.utf8EncodeChar_ne_nil (c := c))
  have hrest : ∀ b ∈ rest, ¬ IsAscii (Char.ofUInt8 b) := by
    by_cases hc : IsAscii c
    · rw [hc.utf8EncodeChar] at hbytes
      cases hbytes
      simp
    · exact fun b hb =>
        not_isAscii_of_mem_utf8EncodeChar hc (hbytes ▸ List.mem_cons_of_mem _ hb)
  have hpiece := offsetsFrom_of_not_isAscii (d := d) (q := some q) hsep (by simpa using hq) hrest
    (before ++ ['\\'.toUInt8, b]) (utf8 cs)
  have hfirst := byteAt_ascii hslash before (b :: rest ++ utf8 cs)
  have hall : utf8 ('\\' :: c :: cs) = '\\'.toUInt8 :: (b :: rest ++ utf8 cs) := by
    rw [hslash.utf8_cons, utf8_cons, hbytes]
  rw [List.cons_append, List.singleton_append, hall, offsetsFrom_of_some hfirst, Cursor.step]
  simpa [hslash.utf8_cons, utf8_cons, hbytes] using hpiece

theorem offsetsFrom_bars (before : List UInt8) (cs : List Char) :
    offsetsFrom '|' (before ++ utf8 (['|', '|'] ++ cs)) ⟨before.length, d, none⟩ =
      offsetsFrom '|' (before ++ utf8 (['|', '|'] ++ cs))
        ⟨(before ++ utf8 ['|', '|']).length, d, none⟩ := by
  have hbar : IsAscii '|' := by decide
  have hfirst := byteAt_ascii hbar before ('|'.toUInt8 :: utf8 cs)
  have hnext : byteAt (before ++ '|'.toUInt8 :: '|'.toUInt8 :: utf8 cs) (before.length + 1) =
      some '|' := by
    simpa using byteAt_ascii hbar (before ++ ['|'.toUInt8]) (utf8 cs)
  have hstep : Cursor.step '|' ⟨before.length, d, none⟩ '|' (some '|') =
      (.bars, ⟨before.length + 2, d, none⟩) :=
    rfl
  rw [List.cons_append, List.singleton_append, hbar.utf8_cons, hbar.utf8_cons,
    offsetsFrom_of_some hfirst, hnext, hstep]
  simp [hbar.utf8_cons]

theorem cutsInto_partsFrom (hsep : IsAscii sep) (hq : ∀ q' ∈ q, isQuote q')
    (before : List UInt8) (cs : List Char) :
    CutsInto sep d q before cs (partsFrom sep d q cs) := by
  fun_induction partsFrom sep d q cs generalizing before with
  | case1 d q => exact cutsInto_nil sep d q before
  | case2 d q c h =>
      rw [CutsInto, offsetsFrom_last hsep hq, if_pos ((Cursor.step_last sep _ d q c).2 h)]
      obtain ⟨-, -, -, -, rfl, -⟩ := h
      simp [slices, hsep.utf8_cons]
  | case3 d q c h =>
      rw [CutsInto, offsetsFrom_last hsep hq, if_neg (mt (Cursor.step_last sep _ d q c).1 h)]
      simp [slices]
  | case4 d c rest q ih =>
      exact (ih hq _).onFirst (partsFrom_ne_nil _ _ _ _)
        (offsetsFrom_escaped hsep (hq q rfl) before c rest)
  | case5 d c c' rest q hslash ih =>
      refine (ih ?_ _).cons (partsFrom_ne_nil _ _ _ _) hsep hq (by simp [Cursor.step, hslash])
      split <;> simp_all
  | case6 d c c' rest hquote ih =>
      exact (ih (by simpa using hquote) _).cons (partsFrom_ne_nil _ _ _ _) hsep hq
        (by simp [Cursor.step, hquote])
  | case7 d c c' rest hquote hopening ih =>
      exact (ih hq _).cons (partsFrom_ne_nil _ _ _ _) hsep hq
        (by simp [Cursor.step, hquote, hopening])
  | case8 d c c' rest hquote hopening hclosing ih =>
      exact (ih hq _).cons (partsFrom_ne_nil _ _ _ _) hsep hq
        (by simp [Cursor.step, hquote, hopening, hclosing])
  | case9 d c c' rest hquote hopening hclosing hbars ih =>
      obtain ⟨rfl, rfl, rfl⟩ := hbars
      exact (ih hq _).onFirst (partsFrom_ne_nil _ _ _ _) (offsetsFrom_bars before rest)
  | case10 d c c' rest hquote hopening hclosing hbars hcut ih =>
      obtain ⟨rfl, hd⟩ := hcut
      refine (ih hq _).separator hsep hq ?_
      simp only [Cursor.step, hquote, hopening, hclosing, hd, List.head?_cons, Option.some.injEq,
        hbars, and_self, if_true, if_false, Bool.false_eq_true]
  | case11 d c c' rest hquote hopening hclosing hbars hcut ih =>
      refine (ih hq _).cons (partsFrom_ne_nil _ _ _ _) hsep hq ?_
      simp only [Cursor.step, hquote, hopening, hclosing, hcut, List.head?_cons, Option.some.injEq,
        hbars, if_false, Bool.false_eq_true]

/-! ## Where the separators stand -/

theorem getElem?_of_byteAt {bytes : List UInt8} {i : Nat} (h : byteAt bytes i = some c) :
    bytes[i]? = some c.toUInt8 := by
  obtain ⟨b, hb, rfl⟩ := Option.map_eq_some_iff.1 h
  rw [hb, toUInt8_ofUInt8]

/-- An ASCII byte of a text is a character of its own, so that no other one is cut there. -/
theorem standsAt_of_byteAt {i : Nat} (hc : IsAscii c) (h : byteAt (utf8 cs) i = some c) :
    StandsAt [c] i cs := by
  induction cs generalizing i with
  | nil => simp [byteAt] at h
  | cons e cs ih =>
      by_cases hi : i < e.utf8Size
      · rw [← String.length_utf8EncodeChar] at hi
        obtain ⟨b, hb, rfl⟩ := Option.map_eq_some_iff.1 h
        rw [utf8_cons, List.getElem?_append_left hi] at hb
        have hmem := List.mem_of_getElem? hb
        by_cases he : IsAscii e
        · rw [he.utf8EncodeChar] at hi hb hmem
          obtain rfl := List.mem_singleton.1 hmem
          obtain rfl : i = 0 := Nat.lt_one_iff.1 hi
          rw [he.ofUInt8_toUInt8]
          exact standsAt_zero.2 ⟨cs, rfl⟩
        · exact absurd hc (not_isAscii_of_mem_utf8EncodeChar he hmem)
      · obtain ⟨k, rfl⟩ := Nat.exists_eq_add_of_le (Nat.not_lt.1 hi)
        refine standsAt_cons.2 (ih ?_)
        simpa [byteAt, utf8_cons, List.getElem?_append_right] using h

theorem length_slices (bytes : List UInt8) (start : Nat) (places : List Nat) :
    (slices bytes start places).length = places.length + 1 := by
  induction places generalizing start with
  | nil => rfl
  | cons i places ih => rw [slices, List.length_cons, ih, List.length_cons]

/-- The place of the first separator is the length of the text before it. -/
theorem head?_of_slices {bytes : List UInt8} {places : List Nat} {cs : List Char}
    (hplaces : ∀ i ∈ places, i < bytes.length)
    (hslices : slices bytes 0 places = (parts sep cs).map utf8) :
    places.head? = (cutTop sep cs).map fun cut => byteLength cut.1 := by
  have hlength := congrArg List.length hslices
  rw [length_slices, List.length_map] at hlength
  match places, hparts : parts sep cs with
  | [], [part] => simp [cutTop, hparts]
  | i :: places, part :: part' :: rest =>
      rw [hparts, slices, List.map_cons] at hslices
      have hi := hplaces i List.mem_cons_self
      have hlength := congrArg List.length (List.cons.inj hslices).1
      rw [length_utf8] at hlength
      simp only [List.drop_zero, Nat.sub_zero, List.length_take] at hlength
      simp only [List.head?_cons, cutTop, hparts, Option.map_some, Option.some.injEq]
      omega
  | [], [] => simp [hparts] at hlength
  | [], _ :: _ :: _ => simp [hparts] at hlength
  | _ :: _, [] => simp [hparts] at hlength
  | _ :: _, [_] => simp [hparts] at hlength

/-- Splitting is lossless and cuts no character, whatever the quotes, escapes and brackets are, for
every separator of ASCII, as the bar, the comma and the colon are.
The scan over the bytes of a text ends after as many steps as there are bytes, if not before. The
places at which it finds the separator are in order and in the text; the separator stands there as
a character of the text, and the slices between the places are the bytes of the parts, which joined
by the separator are the text. No bar that is taken together with another one is a separator, and a
bar that is one is the last of an odd number of bars. -/
theorem offsets_cut_parts (hsep : IsAscii sep) (s : String) :
    let bytes := s.toUTF8.data.toList
    (scanBytes sep bytes ⟨0, 0, none⟩).length ≤ bytes.length ∧
    (offsets sep bytes).Pairwise (· < ·) ∧
    (∀ i ∈ offsets sep bytes,
      i < bytes.length ∧ bytes[i]? = some sep.toUInt8 ∧ StandsAt [sep] i s.toList) ∧
    slices bytes 0 (offsets sep bytes) = (parts sep s.toList).map utf8 ∧
    [sep].intercalate (parts sep s.toList) = s.toList ∧
    (offsets sep bytes).head? = (cutTop sep s.toList).map (fun cut => byteLength cut.1) ∧
    (∀ i ∈ bars sep bytes,
      bytes[i]? = some '|'.toUInt8 ∧ bytes[i + 1]? = some '|'.toUInt8 ∧
      i ∉ offsets sep bytes ∧ i + 1 ∉ offsets sep bytes) ∧
    (sep = '|' → ∀ i ∈ offsets sep bytes,
      Even (barsBefore bytes i) ∧ byteAt bytes (i + 1) ≠ some '|') := by
  intro bytes
  have hbytes : utf8 s.toList = bytes := utf8_toList s
  have hplaces (i : Nat) (hi : i ∈ offsets sep bytes) : i < bytes.length :=
    lt_length_of_byteAt (byteAt_of_mem_offsets hi)
  have hslices : slices bytes 0 (offsets sep bytes) = (parts sep s.toList).map utf8 := by
    have hcuts := cutsInto_partsFrom (d := 0) (q := none) hsep (by simp) [] s.toList
    rwa [CutsInto, List.nil_append, hbytes] at hcuts
  refine ⟨length_scanBytes_le sep bytes _, pairwise_offsetsFrom sep bytes _, fun i hi => ?_,
    hslices, intercalate_partsFrom sep 0 none s.toList, head?_of_slices hplaces hslices,
    fun i hi => ?_, ?_⟩
  · have hat := byteAt_of_mem_offsets hi
    exact ⟨hplaces i hi, getElem?_of_byteAt hat, standsAt_of_byteAt hsep (hbytes ▸ hat)⟩
  · obtain ⟨-, hfirst, hsecond⟩ := standsAt_of_mem_bars hi
    exact ⟨getElem?_of_byteAt hfirst, getElem?_of_byteAt hsecond, not_mem_offsets_of_mem_bars hi⟩
  · rintro rfl i hi
    exact (Aligned.start bytes 0).of_mem_offsetsFrom hi

/-- Characters of two bytes beside a separator and after a backslash, a bracket that closes
nothing, one that is left open, three bars, and a backslash at the end of an open quote. -/
theorem offsets_cut_parts_of_malformed :
    let s := "é|)'\\é|'||a|||ß|((|'\\"
    let bytes := s.toUTF8.data.toList
    IsAscii '|' ∧
    slices bytes 0 (offsets '|' bytes) =
      ["é", ")'\\é|'||a||", "ß", "((|'\\"].map (fun part => utf8 part.toList) ∧
    (offsets '|' bytes).Pairwise (· < ·) ∧ (offsets '|' bytes).head? = some 2 ∧
    ∀ i ∈ offsets '|' bytes, bytes[i]? = some '|'.toUInt8 := by
  intro s bytes
  have hbar : IsAscii '|' := by decide
  obtain ⟨-, hsorted, hat, hslices, -, hfirst, -⟩ := offsets_cut_parts hbar s
  have hparts : parts '|' s.toList =
      ["é".toList, ")'\\é|'||a||".toList, "ß".toList, "((|'\\".toList] := by decide
  refine ⟨hbar, ?_, hsorted, ?_, fun i hi => (hat i hi).2.1⟩
  · rw [hslices, hparts]
    rfl
  · rw [hfirst, cutTop, hparts]
    rfl

end Pipeline

end Sluice
