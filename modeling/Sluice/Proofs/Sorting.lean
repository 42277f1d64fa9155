import Sluice.Value.Order
import Mathlib.Tactic.TypeStar
import Mathlib.Data.List.Basic
import Mathlib.Tactic.ByContra

/-!
# Insertion sort

The list that insertion works on runs from the end of the sorted elements to their start.
Sorting loses and adds nothing. The order is asked for on the elements of the list alone,
so that a comparison that is no order on all values can still sort the lists on which it is
one. Elements of which none comes strictly before another stay as they were.
-/
namespace Sluice

variable {α : Type*} {cmp : α → α → Ordering}

/-- On these elements the comparison is transitive. -/
def TransOn (cmp : α → α → Ordering) (items : List α) : Prop :=
  ∀ a ∈ items, ∀ b ∈ items, ∀ c ∈ items,
    (cmp a b).isLE → (cmp b c).isLE → (cmp a c).isLE

theorem TransOn.subset {items some : List α} (h : TransOn cmp items) (hs : some ⊆ items) :
    TransOn cmp some :=
  fun a ha b hb c hc => h a (hs ha) b (hs hb) c (hs hc)

/-- Three elements each of which comes no later than the next, around in a circle, and not
all in the same place. -/
structure Cycle (cmp : α → α → Ordering) (a b c : α) : Prop where
  first : (cmp a b).isLE
  second : (cmp b c).isLE
  third : (cmp c a).isLE
  apart : ¬ (cmp a b = .eq ∧ cmp b c = .eq ∧ cmp c a = .eq)

theorem Cycle.rotate {a b c : α} (h : Cycle cmp a b c) : Cycle cmp b c a :=
  ⟨h.second, h.third, h.first, fun ⟨hbc, hca, hab⟩ => h.apart ⟨hab, hbc, hca⟩⟩

theorem Cycle.congr {cmp' : α → α → Ordering} {a b c : α} (h : Cycle cmp a b c)
    (h₁ : cmp a b = cmp' a b) (h₂ : cmp b c = cmp' b c) (h₃ : cmp c a = cmp' c a) :
    Cycle cmp' a b c :=
  ⟨h₁ ▸ h.first, h₂ ▸ h.second, h₃ ▸ h.third, h₁ ▸ h₂ ▸ h₃ ▸ h.apart⟩

/-- Cycles are all that keeps a comparison from being transitive. -/
theorem transOn_iff_cycle [Std.OrientedCmp cmp] (items : List α) :
    TransOn cmp items ↔ ∀ a ∈ items, ∀ b ∈ items, ∀ c ∈ items, ¬ Cycle cmp a b c := by
  constructor
  · intro htrans a ha b hb c hc h
    have hac := htrans a ha b hb c hc h.first h.second
    have hba := htrans b hb c hc a ha h.second h.third
    have hcb := htrans c hc a ha b hb h.third h.first
    exact h.apart ⟨Std.OrientedCmp.isLE_antisymm h.first hba,
      Std.OrientedCmp.isLE_antisymm h.second hcb, Std.OrientedCmp.isLE_antisymm h.third hac⟩
  · intro hcycle a ha b hb c hc hab hbc
    by_contra hac
    have hca : cmp c a = .lt := Std.OrientedCmp.lt_of_not_isLE hac
    refine hcycle a ha b hb c hc ⟨hab, hbc, by simp [hca], ?_⟩
    simp [hca]

theorem insertBack_perm (cmp : α → α → Ordering) (a : α) (sorted : List α) :
    (insertBack cmp a sorted).Perm (a :: sorted) := by
  induction sorted with
  | nil => exact List.Perm.refl _
  | cons b rest ih =>
      simp only [insertBack]
      split
      · exact (ih.cons b).trans (List.Perm.swap a b rest)
      · exact List.Perm.refl _

theorem insertBack_pairwise [Std.OrientedCmp cmp] (a : α) (sorted : List α)
    (htrans : TransOn cmp (a :: sorted)) (h : sorted.Pairwise fun x y => (cmp y x).isLE) :
    (insertBack cmp a sorted).Pairwise fun x y => (cmp y x).isLE := by
  induction sorted with
  | nil => simp [insertBack]
  | cons b rest ih =>
      obtain ⟨hb, hrest⟩ := List.pairwise_cons.1 h
      simp only [insertBack]
      split
      · next hlt =>
          have hsub : a :: rest ⊆ a :: b :: rest :=
            List.cons_subset_cons a (List.subset_cons_self b rest)
          refine List.pairwise_cons.2 ⟨?_, ih (htrans.subset hsub) hrest⟩
          intro x hx
          rcases List.mem_cons.1 ((insertBack_perm cmp a rest).mem_iff.1 hx) with rfl | hx
          · simp [hlt]
          · exact hb x hx
      · next hlt =>
          have hba : (cmp b a).isLE := by
            have hswap : cmp b a = (cmp a b).swap := Std.OrientedCmp.eq_swap
            rw [hswap]
            cases hab : cmp a b <;> simp_all
          refine List.pairwise_cons.2 ⟨?_, h⟩
          intro x hx
          rcases List.mem_cons.1 hx with rfl | hx'
          · exact hba
          · exact htrans x (by simp [hx']) b (by simp) a (by simp) (hb x hx') hba

/-- Insertion of all elements into a list that is sorted already. -/
theorem foldl_insertBack_pairwise [Std.OrientedCmp cmp] (items sorted : List α)
    (htrans : TransOn cmp (items ++ sorted))
    (h : sorted.Pairwise fun x y => (cmp y x).isLE) :
    (items.foldl (fun sorted a => insertBack cmp a sorted) sorted).Pairwise
      fun x y => (cmp y x).isLE := by
  induction items generalizing sorted with
  | nil => exact h
  | cons a items ih =>
      have hperm : (items ++ insertBack cmp a sorted).Perm (a :: items ++ sorted) :=
        ((insertBack_perm cmp a sorted).append_left items).trans List.perm_middle
      have hsub : a :: sorted ⊆ a :: items ++ sorted :=
        List.cons_subset_cons a (List.subset_append_right items sorted)
      exact ih _ (htrans.subset hperm.subset) (insertBack_pairwise a sorted (htrans.subset hsub) h)

theorem foldl_insertBack_perm (cmp : α → α → Ordering) (items sorted : List α) :
    (items.foldl (fun sorted a => insertBack cmp a sorted) sorted).Perm (items ++ sorted) := by
  induction items generalizing sorted with
  | nil => exact List.Perm.refl _
  | cons a items ih =>
      exact (ih _).trans <|
        ((insertBack_perm cmp a sorted).append_left items).trans List.perm_middle

theorem insertionSort_perm (cmp : α → α → Ordering) (items : List α) :
    (insertionSort cmp items).Perm items := by
  have h := foldl_insertBack_perm cmp items []
  rw [List.append_nil] at h
  exact (List.reverse_perm _).trans h

/-- Sorting by a comparison that is transitive on the elements puts them in order. -/
theorem insertionSort_pairwise [Std.OrientedCmp cmp] (items : List α)
    (htrans : TransOn cmp items) :
    (insertionSort cmp items).Pairwise fun x y => (cmp x y).isLE := by
  refine List.pairwise_reverse.2 (foldl_insertBack_pairwise items [] ?_ List.Pairwise.nil)
  rwa [List.append_nil]

/-- Among elements before none of which `a` comes strictly, `a` is put first. -/
theorem insertBack_filter (p : α → Bool) (a : α) (sorted : List α)
    (h : ∀ b ∈ sorted, p a → p b → cmp a b ≠ .lt) :
    (insertBack cmp a sorted).filter p = (a :: sorted).filter p := by
  induction sorted with
  | nil => rfl
  | cons b rest ih =>
      simp only [insertBack]
      split
      · next hlt =>
          have hapart : ¬ (p a ∧ p b) := fun ⟨ha, hb⟩ => h b (by simp) ha hb hlt
          rw [List.filter_cons, ih fun c hc => h c (by simp [hc])]
          cases hpa : p a <;> cases hpb : p b <;> simp_all
      · rfl

theorem foldl_insertBack_filter (p : α → Bool) (items sorted : List α)
    (h : ∀ a ∈ items ++ sorted, ∀ b ∈ items ++ sorted, p a → p b → cmp a b ≠ .lt) :
    (items.foldl (fun sorted a => insertBack cmp a sorted) sorted).filter p =
      (items.reverse ++ sorted).filter p := by
  induction items generalizing sorted with
  | nil => rfl
  | cons a items ih =>
      have hperm : (items ++ insertBack cmp a sorted).Perm (a :: items ++ sorted) :=
        ((insertBack_perm cmp a sorted).append_left items).trans List.perm_middle
      have hnew : (insertBack cmp a sorted).filter p = (a :: sorted).filter p :=
        insertBack_filter p a sorted fun b hb => h a (by simp) b (by simp [hb])
      rw [List.foldl_cons, ih _ fun b hb c hc => h b (hperm.subset hb) c (hperm.subset hc),
        List.filter_append, hnew, ← List.filter_append, List.reverse_cons, List.append_assoc,
        List.singleton_append]

/-- Stability: elements of which none comes strictly before another keep their order. -/
theorem insertionSort_filter (p : α → Bool) (items : List α)
    (h : ∀ a ∈ items, ∀ b ∈ items, p a → p b → cmp a b ≠ .lt) :
    (insertionSort cmp items).filter p = items.filter p := by
  unfold insertionSort
  rw [List.filter_reverse, foldl_insertBack_filter p items [] (by rwa [List.append_nil]),
    List.append_nil, List.filter_reverse, List.reverse_reverse]

end Sluice
