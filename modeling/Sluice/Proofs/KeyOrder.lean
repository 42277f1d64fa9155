import Sluice.Proofs.Runs
import Sluice.Proofs.Sorting

/-!
# The order of sort keys

Dictionary order and the order of numbers are total preorders, but keys switch from the
one to the other pair by pair. Swapping two keys always reverses their comparison. It is
transitive on some keys exactly if no text stands, in dictionary order, between two numbers
that are the other way round as numbers; what is sorted by such keys is in order.
-/
namespace Sluice

theorem lexCompare_eq {α : Type*} (cmp : α → α → Ordering) (s t : List α) :
    lexCompare cmp s t = List.compareLex cmp s t := by
  induction s generalizing t with
  | nil => cases t <;> rfl
  | cons a s ih =>
      cases t with
      | nil => rfl
      | cons b t => rw [lexCompare, ih, List.compareLex_cons_cons]

instance {α : Type*} (cmp : α → α → Ordering) [Std.TransCmp cmp] :
    Std.TransCmp (lexCompare cmp) := by
  rw [funext₂ (lexCompare_eq cmp)]
  infer_instance

/-- Comparing by an image is as transitive as comparing the images. -/
theorem transCmp_comap {α β : Type*} (cmp : β → β → Ordering) [Std.TransCmp cmp] (f : α → β) :
    Std.TransCmp fun a b => cmp (f a) (f b) where
  eq_swap := @fun a b => (Std.OrientedCmp.eq_swap : cmp (f a) (f b) = (cmp (f b) (f a)).swap)
  isLE_trans {_ _ _} hab hbc := Std.TransCmp.isLE_trans hab hbc

instance : Std.TransCmp Number.compareTotal :=
  transCmp_comap compare Number.rank

namespace Text

instance : Std.TransCmp compareChars :=
  haveI := transCmp_comap (compare (α := Nat)) Char.toNat
  inferInstanceAs (Std.TransCmp (lexCompare fun a b : Char => compare a.toNat b.toNat))

instance : Std.TransCmp collate :=
  haveI := transCmp_comap (compare (α := Nat)) Bool.toNat
  haveI := transCmp_comap compareChars fun s : List Char => s.flatMap lowercase
  haveI := transCmp_comap (lexCompare fun a b : Bool => compare a.toNat b.toNat)
    fun s : List Char => s.map isUppercase
  inferInstanceAs <| Std.TransCmp <| compareLex
    (fun s t => compareChars (s.flatMap lowercase) (t.flatMap lowercase))
    (compareLex
      (fun s t => lexCompare (fun a b : Bool => compare a.toNat b.toNat)
        (s.map isUppercase) (t.map isUppercase))
      compareChars)

end Text

namespace Value

/-- Dictionary order of the texts of two values. -/
def compareTexts (a b : Value) : Ordering :=
  Text.collate a.toText.toList b.toText.toList

instance : Std.TransCmp compareTexts :=
  transCmp_comap Text.collate fun v : Value => v.toText.toList

/-- Compares two keys that are there. -/
def compareDefined (a b : Value) : Ordering :=
  match a.toNumber?, b.toNumber? with
  | some x, some y => Number.compareTotal x y
  | _, _ => compareTexts a b

theorem compareKeys_eq (a b : Value) :
    compareKeys a b = (compare a.sortClass b.sortClass).then
      (if a.sortClass = 2 then compareDefined a b else .eq) := by
  unfold compareKeys
  cases compare a.sortClass b.sortClass <;> rfl

theorem compareDefined_of_numbers {a b : Value} {x y : Number} (ha : a.toNumber? = some x)
    (hb : b.toNumber? = some y) : compareDefined a b = Number.compareTotal x y := by
  simp [compareDefined, ha, hb]

theorem compareDefined_of_left {a : Value} (ha : a.toNumber? = none) (b : Value) :
    compareDefined a b = compareTexts a b := by
  simp [compareDefined, ha]

theorem compareDefined_of_right (a : Value) {b : Value} (hb : b.toNumber? = none) :
    compareDefined a b = compareTexts a b := by
  simp [compareDefined, hb]

instance : Std.OrientedCmp compareDefined where
  eq_swap {a b} := by
    cases ha : a.toNumber? with
    | none =>
        rw [compareDefined_of_left ha, compareDefined_of_right b ha]
        exact Std.OrientedCmp.eq_swap
    | some x =>
        cases hb : b.toNumber? with
        | none =>
            rw [compareDefined_of_right a hb, compareDefined_of_left hb]
            exact Std.OrientedCmp.eq_swap
        | some y =>
            rw [compareDefined_of_numbers ha hb, compareDefined_of_numbers hb ha]
            exact Std.OrientedCmp.eq_swap

instance : Std.OrientedCmp compareKeys where
  eq_swap {a b} := by
    rw [compareKeys_eq, compareKeys_eq, Ordering.swap_then, ← Std.OrientedCmp.eq_swap]
    by_cases h : a.sortClass = b.sortClass
    · rw [h]
      split
      · rw [← Std.OrientedCmp.eq_swap]
      · rfl
    · cases hc : compare a.sortClass b.sortClass with
      | lt => rfl
      | gt => rfl
      | eq => exact absurd (Std.LawfulEqOrd.eq_of_compare hc) h

theorem sortClass_le {a b : Value} (h : (compareKeys a b).isLE) : a.sortClass ≤ b.sortClass := by
  rw [compareKeys_eq] at h
  exact Nat.isLE_compare.1 (Ordering.isLE_left_of_isLE_then h)

theorem sortClass_of_number {a : Value} {x : Number} (h : a.toNumber? = some x) :
    a.sortClass = 2 := by
  cases a <;> simp_all [toNumber?, sortClass]

theorem compareKeys_of_defined {a b : Value} (ha : a.sortClass = 2) (hb : b.sortClass = 2) :
    compareKeys a b = compareDefined a b := by
  simp [compareKeys_eq, ha, hb]

/-- The text `z` stands in dictionary order between the numbers `y` and `x`, of which `x`
comes no later than `y` as a number; and the three are not all in the same place. -/
def Straddles (x y z : Value) : Prop :=
  ∃ m n, x.toNumber? = some m ∧ y.toNumber? = some n ∧ z.sortClass = 2 ∧ z.toNumber? = none ∧
    (Number.compareTotal m n).isLE ∧ (compareTexts y z).isLE ∧ (compareTexts z x).isLE ∧
    ¬ (Number.compareTotal m n = .eq ∧ compareTexts y z = .eq ∧ compareTexts z x = .eq)

theorem Straddles.cycle {x y z : Value} (h : Straddles x y z) : Cycle compareKeys x y z := by
  obtain ⟨m, n, hx, hy, hz, hnone, hxy, hyz, hzx, hapart⟩ := h
  have h₁ : compareKeys x y = Number.compareTotal m n := by
    rw [compareKeys_of_defined (sortClass_of_number hx) (sortClass_of_number hy),
      compareDefined_of_numbers hx hy]
  have h₂ : compareKeys y z = compareTexts y z := by
    rw [compareKeys_of_defined (sortClass_of_number hy) hz, compareDefined_of_right y hnone]
  have h₃ : compareKeys z x = compareTexts z x := by
    rw [compareKeys_of_defined hz (sortClass_of_number hx), compareDefined_of_left hnone]
  exact ⟨h₁ ▸ hxy, h₂ ▸ hyz, h₃ ▸ hzx, by rwa [h₁, h₂, h₃]⟩

theorem not_cycle_of_transCmp {α : Type*} {cmp : α → α → Ordering} [Std.TransCmp cmp]
    (a b c : α) : ¬ Cycle cmp a b c := by
  have htrans : TransOn cmp [a, b, c] := fun _ _ _ _ _ _ => Std.TransCmp.isLE_trans
  exact (transOn_iff_cycle [a, b, c]).1 htrans a (by simp) b (by simp) c (by simp)

/-- Keys of a cycle are all there: absent ones are in the same place as their like. -/
theorem sortClass_of_cycle {a b c : Value} (h : Cycle compareKeys a b c) :
    a.sortClass = 2 ∧ b.sortClass = 2 ∧ c.sortClass = 2 := by
  have hab := sortClass_le h.first
  have hbc := sortClass_le h.second
  have hca := sortClass_le h.third
  have hb : b.sortClass = a.sortClass := by omega
  have hc : c.sortClass = a.sortClass := by omega
  by_cases ha : a.sortClass = 2
  · exact ⟨ha, hb.trans ha, hc.trans ha⟩
  · have heq : ∀ v w : Value, v.sortClass = a.sortClass → w.sortClass = a.sortClass →
        compareKeys v w = .eq := by
      intro v w hv hw
      rw [compareKeys_eq, hv, hw, if_neg ha, Ordering.then_eq]
      exact Std.ReflCmp.compare_self
    exact (h.apart ⟨heq a b rfl hb, heq b c hb hc, heq c a hc rfl⟩).elim

/-- The other two keys of a cycle with a text are numbers: else all three compare as texts. -/
theorem straddles_of_text {a b c : Value} (h : Cycle compareDefined a b c)
    (hdef : c.sortClass = 2) (hc : c.toNumber? = none) : Straddles a b c := by
  have hbc := compareDefined_of_right b hc
  have hca := compareDefined_of_left hc a
  have hnumbers : compareDefined a b ≠ compareTexts a b := fun hab =>
    not_cycle_of_transCmp a b c (h.congr hab hbc hca)
  cases ha : a.toNumber? with
  | none => exact (hnumbers (compareDefined_of_left ha b)).elim
  | some m =>
      cases hb : b.toNumber? with
      | none => exact (hnumbers (compareDefined_of_right a hb)).elim
      | some n =>
          have hab := compareDefined_of_numbers ha hb
          exact ⟨m, n, ha, hb, hdef, hc, hab ▸ h.first, hbc ▸ h.second, hca ▸ h.third,
            hab ▸ hbc ▸ hca ▸ h.apart⟩

/-- A cycle of keys has two numbers in it and one text. -/
theorem straddles_of_cycle {a b c : Value} (h : Cycle compareKeys a b c) :
    Straddles a b c ∨ Straddles b c a ∨ Straddles c a b := by
  obtain ⟨hda, hdb, hdc⟩ := sortClass_of_cycle h
  have hdef : Cycle compareDefined a b c :=
    h.congr (compareKeys_of_defined hda hdb) (compareKeys_of_defined hdb hdc)
      (compareKeys_of_defined hdc hda)
  cases ha : a.toNumber? with
  | none => exact .inr <| .inl <| straddles_of_text hdef.rotate hda ha
  | some m =>
      cases hb : b.toNumber? with
      | none => exact .inr <| .inr <| straddles_of_text hdef.rotate.rotate hdb hb
      | some n =>
          cases hc : c.toNumber? with
          | none => exact .inl <| straddles_of_text hdef hdc hc
          | some p =>
              have hab := compareDefined_of_numbers ha hb
              have hbc := compareDefined_of_numbers hb hc
              have hca := compareDefined_of_numbers hc ha
              exact (not_cycle_of_transCmp m n p ⟨hab ▸ hdef.first, hbc ▸ hdef.second,
                hca ▸ hdef.third, hab ▸ hbc ▸ hca ▸ hdef.apart⟩).elim

/-- On some keys the comparison is transitive exactly if none of them straddle. -/
theorem transOn_compareKeys_iff (keys : List Value) :
    TransOn compareKeys keys ↔ ∀ x ∈ keys, ∀ y ∈ keys, ∀ z ∈ keys, ¬ Straddles x y z := by
  rw [transOn_iff_cycle]
  constructor
  · intro hcycle x hx y hy z hz h
    exact hcycle x hx y hy z hz h.cycle
  · intro hstraddles a ha b hb c hc h
    rcases straddles_of_cycle h with h | h | h
    · exact hstraddles a ha b hb c hc h
    · exact hstraddles b hb c hc a ha h
    · exact hstraddles c hc a ha b hb h

end Value

namespace StageFunction

theorem length_keysOf {nested : Nested} {field : Option Prepared} {items found : List Value}
    {memo memo' : PathMemo} (h : keysOf nested field items memo = some (found, memo')) :
    found.length = items.length := by
  cases field with
  | none =>
      cases h
      rfl
  | some p => exact Run.length_of_mapM h

/-- The comparison by which elements with their keys are sorted. -/
def keyedCompare (desc : Bool) (a b : Value × Value) : Ordering :=
  if desc then (Value.compareKeys a.1 b.1).swap else Value.compareKeys a.1 b.1

theorem keyedCompare_eq (desc : Bool) (a b : Value × Value) :
    keyedCompare desc a b =
      if desc then Value.compareKeys b.1 a.1 else Value.compareKeys a.1 b.1 := by
  unfold keyedCompare
  rw [← Std.OrientedCmp.eq_swap]

instance (desc : Bool) : Std.OrientedCmp (keyedCompare desc) where
  eq_swap {a b} := by
    rw [keyedCompare_eq, keyedCompare]
    split
    · exact (Ordering.swap_swap).symm
    · exact Std.OrientedCmp.eq_swap

theorem transOn_keyedCompare (desc : Bool) {keyed : List (Value × Value)}
    (h : TransOn Value.compareKeys (keyed.map Prod.fst)) : TransOn (keyedCompare desc) keyed := by
  intro a ha b hb c hc
  have hmem {p : Value × Value} (hp : p ∈ keyed) : p.1 ∈ keyed.map Prod.fst :=
    List.mem_map_of_mem hp
  simp only [keyedCompare_eq]
  split
  · exact fun hab hbc => h c.1 (hmem hc) b.1 (hmem hb) a.1 (hmem ha) hbc hab
  · exact h a.1 (hmem ha) b.1 (hmem hb) c.1 (hmem hc)

/-- Once the keys have been found, elements that are there are sorted by them, and the
missing ones go behind. -/
theorem sortItems_eq {nested : Nested} {spec : Pipeline.SortOrder} {items found : List Value}
    {memo memo' : PathMemo}
    (h : keysOf nested (spec.field.map .ofField) (items.filter fun v => !v.isMissing) memo =
      some (found, memo')) :
    sortItems nested spec items memo =
      some ((insertionSort (keyedCompare spec.desc)
        (found.zip (items.filter fun v => !v.isMissing))).map Prod.snd ++
          items.filter Value.isMissing, memo') := by
  unfold sortItems
  rw [Run.bind_eq_some]
  exact ⟨found, memo', h, rfl⟩

/-- Sorting has a result whenever the keys have been found: the elements that are there, in
an order in which no key comes strictly after one that follows it if none of the keys
straddle, and then the missing ones. -/
theorem sortItems_of_keysOf {nested : Nested} {spec : Pipeline.SortOrder}
    {items found : List Value} {memo memo' : PathMemo}
    (h : keysOf nested (spec.field.map .ofField) (items.filter fun v => !v.isMissing) memo =
      some (found, memo')) :
    ∃ keyed : List (Value × Value),
      sortItems nested spec items memo =
        some (keyed.map Prod.snd ++ items.filter Value.isMissing, memo') ∧
      keyed.Perm (found.zip (items.filter fun v => !v.isMissing)) ∧
      ((∀ x ∈ found, ∀ y ∈ found, ∀ z ∈ found, ¬ Value.Straddles x y z) →
        keyed.Pairwise fun p q => (keyedCompare spec.desc p q).isLE) := by
  refine ⟨_, sortItems_eq h, insertionSort_perm _ _, fun hstraddles => ?_⟩
  refine insertionSort_pairwise _ (transOn_keyedCompare _ ?_)
  rw [List.map_fst_zip (Nat.le_of_eq (length_keysOf h))]
  exact (Value.transOn_compareKeys_iff found).2 hstraddles

/-- The comparison of sort keys and what sorting by it promises. Swapping two keys reverses
their comparison. It is transitive on some keys exactly if no text among them straddles two
numbers among them. Sorting by these keys keeps the elements that are there, and if none of
the keys straddle, no element stands before one whose key is strictly smaller (strictly
greater with `desc`). -/
theorem compareKeys_preorder_exactly (keys : List Value) :
    (∀ a b : Value, Value.compareKeys a b = (Value.compareKeys b a).swap) ∧
    (TransOn Value.compareKeys keys ↔
      ∀ x ∈ keys, ∀ y ∈ keys, ∀ z ∈ keys, ¬ Value.Straddles x y z) ∧
    (∀ (nested : Nested) (spec : Pipeline.SortOrder) (items : List Value)
      (memo memo' : PathMemo),
      keysOf nested (spec.field.map .ofField) (items.filter fun v => !v.isMissing) memo =
        some (keys, memo') →
      ∃ keyed : List (Value × Value),
        sortItems nested spec items memo =
          some (keyed.map Prod.snd ++ items.filter Value.isMissing, memo') ∧
        keyed.Perm (keys.zip (items.filter fun v => !v.isMissing)) ∧
        ((∀ x ∈ keys, ∀ y ∈ keys, ∀ z ∈ keys, ¬ Value.Straddles x y z) →
          keyed.Pairwise fun p q =>
            if spec.desc then Value.compareKeys p.1 q.1 ≠ .lt
            else Value.compareKeys p.1 q.1 ≠ .gt)) := by
  refine ⟨fun _ _ => Std.OrientedCmp.eq_swap, Value.transOn_compareKeys_iff keys, ?_⟩
  intro nested spec items memo memo' h
  obtain ⟨keyed, hout, hperm, hsorted⟩ := sortItems_of_keysOf h
  refine ⟨keyed, hout, hperm, fun hstraddles => (hsorted hstraddles).imp ?_⟩
  intro p q hpq
  unfold keyedCompare at hpq
  cases hd : spec.desc <;> cases hc : Value.compareKeys p.1 q.1 <;> simp [hd, hc] at hpq ⊢

/-- Two texts that are numbers, of which dictionary order puts the greater one first. -/
theorem compareKeys_preorder_exactly_of_numbers :
    keysOf ⟨fun _ _ => Run.outOfDepth, fun _ _ => Run.outOfDepth⟩ none
      [.string "10", .string "9"] (.fresh true) =
        some ([.string "10", .string "9"], .fresh true) ∧
    (∀ z ∈ [Value.string "10", .string "9"], z.toNumber? ≠ none) ∧
    ∃ keyed : List (Value × Value),
      sortItems ⟨fun _ _ => Run.outOfDepth, fun _ _ => Run.outOfDepth⟩ ⟨none, false⟩
        [.string "10", .string "9"] (.fresh true) = some (keyed.map Prod.snd, .fresh true) ∧
      keyed.Pairwise fun p q => Value.compareKeys p.1 q.1 ≠ .gt := by
  have hkeys : keysOf ⟨fun _ _ => Run.outOfDepth, fun _ _ => Run.outOfDepth⟩ none
      [.string "10", .string "9"] (.fresh true) =
        some ([.string "10", .string "9"], .fresh true) := rfl
  have hnumber (z : Value) (hz : z ∈ [Value.string "10", .string "9"]) : z.toNumber? ≠ none := by
    simp only [List.mem_cons, List.not_mem_nil, or_false] at hz
    rcases hz with rfl | rfl <;> decide +kernel
  obtain ⟨keyed, hout, -, hsorted⟩ := (compareKeys_preorder_exactly
    [.string "10", .string "9"]).2.2 _ ⟨none, false⟩ [.string "10", .string "9"] _ _ hkeys
  refine ⟨hkeys, hnumber, keyed, by simpa [Value.isMissing] using hout, ?_⟩
  refine hsorted fun x _ y _ z hz hstraddles => ?_
  obtain ⟨m, n, -, -, -, hnone, -⟩ := hstraddles
  exact hnumber z hz hnone

/-- As numbers 9 comes before 10, as texts 10 comes before `1a` and `1a` before 9: the
comparison is not transitive, and no arrangement of the three keys is in order. -/
theorem compareKeys_not_transitive :
    ¬ (∀ a b c : Value, (Value.compareKeys a b).isLE → (Value.compareKeys b c).isLE →
      (Value.compareKeys a c).isLE) := by
  intro h
  have hac := h (.string "9") (.string "10") (.string "1a") (by decide +kernel)
    (by decide +kernel)
  exact absurd hac (by decide +kernel)

end StageFunction

end Sluice
