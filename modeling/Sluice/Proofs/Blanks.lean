import Sluice.Text.Blank
import Sluice.Text.Word
import Mathlib.Data.List.TakeWhile
import Mathlib.Tactic.ByContra

/-!
# Blanks at the ends of a text

Trimming cuts blanks off and nothing else, and there is nothing to cut off a second time.
-/
namespace Sluice.Text

variable {cs : List Char} {c : Char}

theorem exists_trimStart (cs : List Char) :
    ∃ before, cs = before ++ trimStart cs ∧ ∀ c ∈ before, isBlank c = true :=
  ⟨cs.takeWhile isBlank, List.takeWhile_append_dropWhile.symm, fun _ => List.mem_takeWhile_imp⟩

theorem exists_trimEnd (cs : List Char) :
    ∃ after, cs = trimEnd cs ++ after ∧ ∀ c ∈ after, isBlank c = true := by
  obtain ⟨before, he, hblank⟩ := exists_trimStart cs.reverse
  refine ⟨before.reverse, ?_, by simpa using hblank⟩
  rw [trimEnd, ← List.reverse_append]
  exact List.reverse_eq_iff.1 he

/-- A text is its trimmed form between blanks. -/
theorem exists_trim (cs : List Char) :
    ∃ before after, cs = before ++ (trim cs ++ after) ∧ (∀ c ∈ before, isBlank c = true) ∧
      ∀ c ∈ after, isBlank c = true := by
  obtain ⟨before, hstart, hbefore⟩ := exists_trimStart cs
  obtain ⟨after, hend, hafter⟩ := exists_trimEnd (trimStart cs)
  exact ⟨before, after, by rw [trim, ← hend, ← hstart], hbefore, hafter⟩

theorem mem_of_mem_trim (h : c ∈ trim cs) : c ∈ cs := by
  obtain ⟨before, after, he, -⟩ := exists_trim cs
  rw [he]
  simp [h]

theorem count_trim (hc : isBlank c = false) (cs : List Char) : (trim cs).count c = cs.count c := by
  obtain ⟨before, after, he, hbefore, hafter⟩ := exists_trim cs
  have hnone {bs : List Char} (hbs : ∀ b ∈ bs, isBlank b = true) : bs.count c = 0 := by
    refine List.count_eq_zero.2 fun hmem => ?_
    rw [hbs c hmem] at hc
    cases hc
  conv_rhs => rw [he]
  simp [hnone hbefore, hnone hafter]

theorem head?_trimStart (cs : List Char) : ∀ c ∈ (trimStart cs).head?, isBlank c = false := by
  intro c hc
  have h := List.head?_dropWhile_not isBlank cs
  rw [← trimStart, Option.mem_def.1 hc] at h
  simpa using h

theorem getLast?_trimEnd (cs : List Char) : ∀ c ∈ (trimEnd cs).getLast?, isBlank c = false := by
  intro c hc
  rw [trimEnd, List.getLast?_reverse] at hc
  exact head?_trimStart cs.reverse c hc

theorem trimStart_eq_self (h : ∀ c ∈ cs.head?, isBlank c = false) : trimStart cs = cs := by
  cases cs with
  | nil => rfl
  | cons c cs => simp [trimStart, h c (by simp)]

theorem trimEnd_eq_self (h : ∀ c ∈ cs.getLast?, isBlank c = false) : trimEnd cs = cs := by
  rw [trimEnd, ← trimStart, trimStart_eq_self (by simpa using h), List.reverse_reverse]

theorem trim_eq_self (hhead : ∀ c ∈ cs.head?, isBlank c = false)
    (hlast : ∀ c ∈ cs.getLast?, isBlank c = false) : trim cs = cs := by
  rw [trim, trimStart_eq_self hhead, trimEnd_eq_self hlast]

/-- What stands between two characters that are no blanks is not trimmed. -/
theorem trim_enclosed {a b : Char} (ha : isBlank a = false) (hb : isBlank b = false)
    (cs : List Char) : trim (a :: (cs ++ [b])) = a :: (cs ++ [b]) :=
  trim_eq_self (by simpa using ha) (by simpa [List.getLast?_cons] using hb)

theorem trim_eq_self_of_forall (h : ∀ c ∈ cs, isBlank c = false) : trim cs = cs :=
  trim_eq_self (fun c hc => h c (List.mem_of_mem_head? hc)) fun c hc => h c (List.mem_of_getLast? hc)

theorem head?_trim (cs : List Char) : ∀ c ∈ (trim cs).head?, isBlank c = false := by
  intro c hc
  obtain ⟨after, he, -⟩ := exists_trimEnd (trimStart cs)
  refine head?_trimStart cs c ?_
  rw [he, List.head?_append, ← trim, Option.mem_def.1 hc]
  rfl

theorem last_singleton (h : isBlank c = false) : ∀ e ∈ [c].getLast?, isBlank e = false := by
  simpa using h

theorem last_append {as bs : List Char} (has : ∀ c ∈ as.getLast?, isBlank c = false)
    (hbs : ∀ c ∈ bs.getLast?, isBlank c = false) : ∀ c ∈ (as ++ bs).getLast?, isBlank c = false := by
  intro c hc
  rw [List.getLast?_append] at hc
  cases hb : bs.getLast? with
  | none => exact has c (by simpa [hb] using hc)
  | some b => exact hbs c (by simpa [hb] using hc)

@[simp] theorem trim_trim (cs : List Char) : trim (trim cs) = trim cs :=
  trim_eq_self (head?_trim cs) (getLast?_trimEnd _)

theorem trimEnd_append_blanks {bs : List Char} (h : ∀ c ∈ bs, isBlank c = true) (cs : List Char) :
    trimEnd (cs ++ bs) = trimEnd cs := by
  have hreverse : ∀ c ∈ bs.reverse, isBlank c = true := by simpa using h
  rw [trimEnd, trimEnd, List.reverse_append, List.dropWhile_append_of_pos hreverse]

theorem trim_append_blanks {bs : List Char} (h : ∀ c ∈ bs, isBlank c = true) (cs : List Char) :
    trim (cs ++ bs) = trim cs := by
  cases hstart : trimStart cs with
  | nil =>
      have hcs := List.dropWhile_eq_nil_iff.1 hstart
      have hall : trimStart (cs ++ bs) = [] :=
        List.dropWhile_eq_nil_iff.2 fun c hc => (List.mem_append.1 hc).elim (hcs c) (h c)
      rw [trim, trim, hstart, hall]
  | cons c rest =>
      have hsplit : trimStart (cs ++ bs) = trimStart cs ++ bs := by
        rw [trimStart] at hstart
        simp [trimStart, List.dropWhile_append, hstart]
      rw [trim, hsplit, trimEnd_append_blanks h, ← trim]

theorem trimEnd_append (as bs : List Char) :
    trimEnd (as ++ bs) = if trimEnd bs = [] then trimEnd as else as ++ trimEnd bs := by
  simp only [trimEnd, List.reverse_append, List.dropWhile_append, List.isEmpty_iff,
    List.reverse_eq_nil_iff]
  split <;> simp

theorem trim_trimEnd (cs : List Char) : trim (trimEnd cs) = trim cs := by
  obtain ⟨after, he, hafter⟩ := exists_trimEnd cs
  have h := trim_append_blanks hafter (trimEnd cs)
  rwa [← he, eq_comm] at h

theorem trim_blanks_append {bs : List Char} (h : ∀ c ∈ bs, isBlank c = true) (cs : List Char) :
    trim (bs ++ cs) = trim cs := by
  rw [trim, trim, trimStart, List.dropWhile_append_of_pos h, ← trimStart]

@[simp] theorem trim_append_space (cs : List Char) : trim (cs ++ [' ']) = trim cs :=
  trim_append_blanks (List.forall_mem_singleton.2 (by decide)) cs

@[simp] theorem trim_space_cons (cs : List Char) : trim (' ' :: cs) = trim cs :=
  trim_blanks_append (List.forall_mem_singleton.2 (by decide) : ∀ c ∈ [' '], isBlank c = true) cs

@[simp] theorem toList_trimmed (s : String) : (trimmed s).toList = trim s.toList := by
  simp [trimmed]

@[simp] theorem trimmed_trimmed (s : String) : trimmed (trimmed s) = trimmed s := by
  simp [trimmed]

theorem Ranges.exists_of_memCode {r : Ranges} {n : Nat} (h : r.memCode n = true) :
    ∃ p ∈ r, p.1 ≤ n ∧ n ≤ p.2 := by
  induction r with
  | nil => simp [memCode] at h
  | cons p r ih =>
      simp only [memCode] at h
      split at h
      · cases h
      · split at h
        · exact ⟨p, by simp, by omega, by omega⟩
        · obtain ⟨p', hp', hn⟩ := ih h
          exact ⟨p', by simp [hp'], hn⟩

/-- The blanks one by one. -/
def blanks : List Char :=
  [0x9, 0xa, 0xb, 0xc, 0xd, 0x20, 0x85, 0xa0, 0x1680, 0x2000, 0x2001, 0x2002, 0x2003, 0x2004,
   0x2005, 0x2006, 0x2007, 0x2008, 0x2009, 0x200a, 0x2028, 0x2029, 0x202f, 0x205f, 0x3000].map
    Char.ofNat

theorem mem_blanks (h : isBlank c = true) : c ∈ blanks := by
  refine List.mem_map.2 ⟨c.toNat, ?_, Char.ofNat_toNat c⟩
  obtain ⟨p, hp, hlo, hhi⟩ := Ranges.exists_of_memCode h
  simp only [blankRanges, List.mem_cons, List.not_mem_nil, or_false] at hp
  simp only [List.mem_cons, List.not_mem_nil, or_false]
  rcases hp with rfl | rfl | rfl | rfl | rfl | rfl | rfl | rfl | rfl | rfl <;>
    dsimp only at hlo hhi <;> omega

/-- A class of characters without the blanks. -/
theorem isBlank_of_class (p : Char → Bool) (hp : blanks.all (fun c => !p c) = true)
    (h : p c = true) : isBlank c = false := by
  by_contra hblank
  rw [Bool.not_eq_false] at hblank
  have hc := List.all_eq_true.1 hp c (mem_blanks hblank)
  simp [h] at hc

theorem isBlank_of_isWord (h : isWord c = true) : isBlank c = false :=
  isBlank_of_class isWord (by decide +kernel) h

end Sluice.Text
