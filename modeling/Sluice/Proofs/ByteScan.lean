import Mathlib.Algebra.Group.Nat.Even
import Mathlib.Data.List.Pairwise
import Sluice.Proofs.Splitting

/-!
# Scanning bytes for separators

The scan for separators can also go over the bytes of a text, from one place to the next one or
to the one after that, whatever the bytes are. It ends, since every step goes forward; it never
comes back to a byte that it has read; and the separators and the pairs of bars that it finds do
not overlap.
-/
namespace Sluice.Pipeline

open Sluice.Text

/-- Where the scan is, with a number of brackets open and perhaps inside a quote. -/
structure Cursor where
  place : Nat
  depth : Int
  quote : Option Char

/-- What the scan finds at a place. -/
inductive Mark where
  | plain
  | separator
  | bars
  deriving DecidableEq, Repr

/-- The bytes that stand for the mark. -/
def Mark.width : Mark → Nat
  | bars => 2
  | _ => 1

/-- The byte at a place, as the character with its number. -/
def byteAt (bytes : List UInt8) (place : Nat) : Option Char :=
  bytes[place]?.map Char.ofUInt8

/-- A step of the scan from a byte, of which the next one is known. -/
def Cursor.step (sep : Char) (c : Cursor) (b : Char) (next : Option Char) : Mark × Cursor :=
  match c.quote with
  | some q =>
      if b = '\\' then (.plain, { c with place := c.place + 2 })
      else
        (.plain, { c with place := c.place + 1, quote := if b = q then none else some q })
  | none =>
      if isQuote b then (.plain, { c with place := c.place + 1, quote := some b })
      else if isOpening b then (.plain, { c with place := c.place + 1, depth := c.depth + 1 })
      else if isClosing b then (.plain, { c with place := c.place + 1, depth := c.depth - 1 })
      else if sep = '|' ∧ b = '|' ∧ next = some '|' then
        (.bars, { c with place := c.place + 2 })
      else if b = sep ∧ c.depth ≤ 0 then (.separator, { c with place := c.place + 1 })
      else (.plain, { c with place := c.place + 1 })

variable {sep b : Char} {next : Option Char} {bytes : List UInt8} {c : Cursor} {i : Nat} {m : Mark}

theorem Cursor.place_step (sep : Char) (c : Cursor) (b : Char) (next : Option Char) :
    c.place + (c.step sep b next).1.width ≤ (c.step sep b next).2.place := by
  fun_cases Cursor.step sep c b next <;> simp [Mark.width]

theorem Cursor.lt_place_step (sep : Char) (c : Cursor) (b : Char) (next : Option Char) :
    c.place < (c.step sep b next).2.place := by
  have hplace := c.place_step sep b next
  cases hm : (c.step sep b next).1 <;> simp only [hm, Mark.width] at hplace <;> omega

theorem Cursor.eq_of_step_separator (h : (c.step sep b next).1 = .separator) : b = sep := by
  revert h
  fun_cases Cursor.step sep c b next <;> simp_all

theorem Cursor.eq_of_step_bars (h : (c.step sep b next).1 = .bars) :
    sep = '|' ∧ b = '|' ∧ next = some '|' := by
  revert h
  fun_cases Cursor.step sep c b next <;> simp_all

theorem lt_length_of_byteAt (h : byteAt bytes i = some b) : i < bytes.length := by
  obtain ⟨byte, hbyte, -⟩ := Option.map_eq_some_iff.1 h
  exact (List.getElem?_eq_some_iff.1 hbyte).1

/-- What is found from a cursor on, and where. -/
def scanBytes (sep : Char) (bytes : List UInt8) (c : Cursor) : List (Nat × Mark) :=
  match _h : byteAt bytes c.place with
  | none => []
  | some b =>
      (c.place, (c.step sep b (byteAt bytes (c.place + 1))).1) ::
        scanBytes sep bytes (c.step sep b (byteAt bytes (c.place + 1))).2
termination_by bytes.length - c.place
decreasing_by
  have hforward := c.lt_place_step sep b (byteAt bytes (c.place + 1))
  have hplace := lt_length_of_byteAt _h
  omega

theorem scanBytes_of_none (h : byteAt bytes c.place = none) : scanBytes sep bytes c = [] := by
  rw [scanBytes, h]

theorem scanBytes_of_some (h : byteAt bytes c.place = some b) :
    scanBytes sep bytes c = (c.place, (c.step sep b (byteAt bytes (c.place + 1))).1) ::
      scanBytes sep bytes (c.step sep b (byteAt bytes (c.place + 1))).2 := by
  rw [scanBytes, h]

/-- A scan from a cursor, by what is found there and what is found after it. -/
theorem scanBytes_inductionOn (sep : Char) (bytes : List UInt8) {motive : Cursor → Prop}
    (c : Cursor) (none : ∀ c, byteAt bytes c.place = none → motive c)
    (some : ∀ c b, byteAt bytes c.place = some b →
      motive (c.step sep b (byteAt bytes (c.place + 1))).2 → motive c) : motive c := by
  fun_induction scanBytes sep bytes c with
  | case1 c h => exact none c h
  | case2 c b h ih => exact some c b h ih

/-- Every step reads a byte that none has read before. -/
theorem length_scanBytes_le (sep : Char) (bytes : List UInt8) (c : Cursor) :
    (scanBytes sep bytes c).length ≤ bytes.length - c.place := by
  induction c using scanBytes_inductionOn sep bytes with
  | none c h => simp [scanBytes_of_none h]
  | some c b h ih =>
      have hforward := c.lt_place_step sep b (byteAt bytes (c.place + 1))
      have hplace := lt_length_of_byteAt h
      rw [scanBytes_of_some h, List.length_cons]
      omega

theorem le_of_mem_scanBytes (h : (i, m) ∈ scanBytes sep bytes c) : c.place ≤ i := by
  induction c using scanBytes_inductionOn sep bytes with
  | none c hc => simp [scanBytes_of_none hc] at h
  | some c b hc ih =>
      rw [scanBytes_of_some hc, List.mem_cons] at h
      obtain h | h := h
      · cases h
        exact Nat.le_refl _
      · exact Nat.le_trans (Nat.le_of_lt (c.lt_place_step sep b _)) (ih h)

/-- What is found begins after what was found before it. -/
theorem pairwise_scanBytes (sep : Char) (bytes : List UInt8) (c : Cursor) :
    (scanBytes sep bytes c).Pairwise fun x y => x.1 + x.2.width ≤ y.1 := by
  induction c using scanBytes_inductionOn sep bytes with
  | none c h => simp [scanBytes_of_none h]
  | some c b h ih =>
      rw [scanBytes_of_some h, List.pairwise_cons]
      exact ⟨fun y hy => Nat.le_trans (c.place_step sep b _) (le_of_mem_scanBytes hy), ih⟩

/-- The mark is what the bytes say at a place. -/
def Mark.StandsAt (sep : Char) (bytes : List UInt8) (i : Nat) : Mark → Prop
  | plain => True
  | separator => byteAt bytes i = some sep
  | bars => sep = '|' ∧ byteAt bytes i = some '|' ∧ byteAt bytes (i + 1) = some '|'

theorem Cursor.standsAt_step (h : byteAt bytes c.place = some b) :
    (c.step sep b (byteAt bytes (c.place + 1))).1.StandsAt sep bytes c.place := by
  cases hm : (c.step sep b (byteAt bytes (c.place + 1))).1 with
  | plain => trivial
  | separator => exact eq_of_step_separator hm ▸ h
  | bars =>
      obtain ⟨hsep, rfl, hnext⟩ := eq_of_step_bars hm
      exact ⟨hsep, h, hnext⟩

theorem standsAt_of_mem_scanBytes (h : (i, m) ∈ scanBytes sep bytes c) :
    m.StandsAt sep bytes i := by
  induction c using scanBytes_inductionOn sep bytes with
  | none c hc => simp [scanBytes_of_none hc] at h
  | some c b hc ih =>
      rw [scanBytes_of_some hc, List.mem_cons] at h
      obtain h | h := h
      · cases h
        exact Cursor.standsAt_step hc
      · exact ih h

/-! ## The places of a mark -/

/-- The places at which a mark is found. -/
def placesOf (m : Mark) (found : List (Nat × Mark)) : List Nat :=
  found.filterMap fun x => if x.2 = m then some x.1 else none

theorem mem_placesOf {found : List (Nat × Mark)} : i ∈ placesOf m found ↔ (i, m) ∈ found := by
  rw [placesOf, List.mem_filterMap]
  constructor
  · rintro ⟨x, hx, hi⟩
    obtain ⟨rfl, hplace⟩ := Option.ite_none_right_eq_some.1 hi
    cases hplace
    exact hx
  · intro h
    exact ⟨(i, m), h, if_pos rfl⟩

/-- The places of the separators. -/
def offsetsFrom (sep : Char) (bytes : List UInt8) (c : Cursor) : List Nat :=
  placesOf .separator (scanBytes sep bytes c)

/-- The places of the separators at the top level of a text. -/
def offsets (sep : Char) (bytes : List UInt8) : List Nat :=
  offsetsFrom sep bytes ⟨0, 0, none⟩

/-- The places at which the scan takes two bars together. -/
def bars (sep : Char) (bytes : List UInt8) : List Nat :=
  placesOf .bars (scanBytes sep bytes ⟨0, 0, none⟩)

theorem offsetsFrom_of_none (h : byteAt bytes c.place = none) : offsetsFrom sep bytes c = [] := by
  rw [offsetsFrom, scanBytes_of_none h]
  rfl

theorem offsetsFrom_of_some (h : byteAt bytes c.place = some b) :
    offsetsFrom sep bytes c =
      (if (c.step sep b (byteAt bytes (c.place + 1))).1 = .separator then [c.place] else []) ++
        offsetsFrom sep bytes (c.step sep b (byteAt bytes (c.place + 1))).2 := by
  rw [offsetsFrom, scanBytes_of_some h, placesOf, List.filterMap_cons]
  by_cases hm : (c.step sep b (byteAt bytes (c.place + 1))).1 = .separator <;>
    simp [hm, offsetsFrom, placesOf]

theorem le_of_mem_offsetsFrom (h : i ∈ offsetsFrom sep bytes c) : c.place ≤ i :=
  le_of_mem_scanBytes (mem_placesOf.1 h)

theorem pairwise_offsetsFrom (sep : Char) (bytes : List UInt8) (c : Cursor) :
    (offsetsFrom sep bytes c).Pairwise (· < ·) := by
  refine List.Pairwise.filterMap _ ?_ (pairwise_scanBytes sep bytes c)
  intro x y hxy i hi j hj
  simp at hi hj
  have hwidth : x.2.width = 1 := by rw [hi.1]; rfl
  omega

theorem byteAt_of_mem_offsets (h : i ∈ offsets sep bytes) : byteAt bytes i = some sep :=
  standsAt_of_mem_scanBytes (mem_placesOf.1 h)

theorem standsAt_of_mem_bars (h : i ∈ bars sep bytes) :
    sep = '|' ∧ byteAt bytes i = some '|' ∧ byteAt bytes (i + 1) = some '|' :=
  standsAt_of_mem_scanBytes (mem_placesOf.1 h)

/-- Neither reaches into the other one. -/
def Apart (x y : Nat × Mark) : Prop :=
  x.1 + x.2.width ≤ y.1 ∨ y.1 + y.2.width ≤ x.1

instance : Std.Symm Apart :=
  ⟨fun _ _ => Or.symm⟩

/-- Bars that are taken together are no separators. -/
theorem not_mem_offsets_of_mem_bars (h : i ∈ bars sep bytes) :
    i ∉ offsets sep bytes ∧ i + 1 ∉ offsets sep bytes := by
  have happart {j : Nat} (hj : j ∈ offsets sep bytes) : j + 1 ≤ i ∨ i + 2 ≤ j :=
    ((pairwise_scanBytes sep bytes _).imp (S := Apart) Or.inl).forall (mem_placesOf.1 hj)
      (mem_placesOf.1 h) (by simp)
  constructor <;> intro hi <;> have hi := happart hi <;> omega

/-! ## Runs of bars -/

/-- The bars directly before a place. -/
def barsBefore (bytes : List UInt8) : Nat → Nat
  | 0 => 0
  | i + 1 => if byteAt bytes i = some '|' then barsBefore bytes i + 1 else 0

/-- Outside quotes, a bar where the scan is has not been taken by one before it: those come in
pairs. -/
structure Aligned (bytes : List UInt8) (c : Cursor) : Prop where
  isQuote : ∀ q ∈ c.quote, isQuote q
  even : c.quote = none → byteAt bytes c.place = some '|' → Even (barsBefore bytes c.place)

theorem Aligned.start (bytes : List UInt8) (d : Int) : Aligned bytes ⟨0, d, none⟩ :=
  ⟨by simp, fun _ _ => Even.zero⟩

theorem Aligned.of_not_bar {place : Nat} {d : Int} {q : Option Char}
    (hq : ∀ q' ∈ q, Text.isQuote q') (h : byteAt bytes place ≠ some '|') :
    Aligned bytes ⟨place + 1, d, q⟩ := by
  refine ⟨hq, fun _ _ => ?_⟩
  rw [barsBefore, if_neg h]
  exact Even.zero

theorem ne_bar_of_isQuote (h : Text.isQuote b) : b ≠ '|' :=
  ne_of_class Text.isQuote h (by decide)

theorem Aligned.step (hc : Aligned bytes c) (hb : byteAt bytes c.place = some b) :
    Aligned bytes (c.step '|' b (byteAt bytes (c.place + 1))).2 := by
  have hbar (h : b ≠ '|') : byteAt bytes c.place ≠ some '|' := by simpa [hb] using h
  fun_cases Cursor.step '|' c b (byteAt bytes (c.place + 1)) with
  | case1 q hq h => exact ⟨hc.isQuote, by simp [hq]⟩
  | case2 q hq h =>
      by_cases hclose : b = q
      · rw [if_pos hclose]
        exact .of_not_bar (by simp) (hbar (ne_bar_of_isQuote (hclose ▸ hc.isQuote q hq)))
      · rw [if_neg hclose]
        exact ⟨hq ▸ hc.isQuote, by simp⟩
  | case3 hq h => exact .of_not_bar (by simpa using h) (hbar (ne_bar_of_isQuote h))
  | case4 hq _ h => exact .of_not_bar hc.isQuote (hbar (ne_of_class isOpening h (by decide)))
  | case5 hq _ _ h => exact .of_not_bar hc.isQuote (hbar (ne_of_class isClosing h (by decide)))
  | case6 hq _ _ _ h =>
      obtain ⟨-, rfl, hnext⟩ := h
      refine ⟨hc.isQuote, fun _ _ => ?_⟩
      rw [barsBefore, if_pos hnext, barsBefore, if_pos hb]
      exact (hc.even hq hb).add (by decide : Even 2)
  | case7 hq _ _ _ h h' =>
      -- A bar that is left alone is the last of its run.
      exact ⟨hc.isQuote, fun _ hnext => absurd ⟨rfl, h'.1, hnext⟩ h⟩
  | case8 hq _ _ _ h _ =>
      by_cases h' : b = '|'
      · exact ⟨hc.isQuote, fun _ hnext => absurd ⟨rfl, h', hnext⟩ h⟩
      · exact .of_not_bar hc.isQuote (hbar h')

theorem Cursor.alone_of_step_separator (h : (c.step '|' b next).1 = .separator) :
    c.quote = none ∧ next ≠ some '|' := by
  revert h
  fun_cases Cursor.step '|' c b next <;> simp_all

/-- A bar that is a separator is the last one of an odd number of bars. -/
theorem Aligned.of_mem_offsetsFrom (hc : Aligned bytes c) (h : i ∈ offsetsFrom '|' bytes c) :
    Even (barsBefore bytes i) ∧ byteAt bytes (i + 1) ≠ some '|' := by
  induction c using scanBytes_inductionOn '|' bytes with
  | none c hend => simp [offsetsFrom_of_none hend] at h
  | some c b hb ih =>
      rw [offsetsFrom_of_some hb, List.mem_append] at h
      obtain h | h := h
      · obtain ⟨hm, hi⟩ := List.mem_ite_nil_right.1 h
        obtain rfl := List.mem_singleton.1 hi
        obtain ⟨hq, hnext⟩ := Cursor.alone_of_step_separator hm
        exact ⟨hc.even hq (hb.trans (congrArg some (Cursor.eq_of_step_separator hm))), hnext⟩
      · exact ih (hc.step hb) h

end Sluice.Pipeline
