import Sluice.Proofs.KeyOrder
import Sluice.Proofs.StageTexts

/-!
# Sorting lists of values

Keys that are all numbers, or none of which is one, do not straddle. By such keys `sort`
puts the elements that are there in order and leaves those with equal keys as they were,
whichever the direction; the missing elements are last.
-/
namespace Sluice

namespace Value

theorem eq_missing_of_isMissing {v : Value} (h : v.isMissing = true) : v = .missing := by
  cases v <;> simp_all [isMissing]

theorem filter_isMissing (items : List Value) :
    items.filter isMissing = List.replicate (items.countP isMissing) .missing := by
  rw [List.countP_eq_length_filter, List.eq_replicate_length]
  exact fun v hv => eq_missing_of_isMissing (List.mem_filter.1 hv).2

theorem isAbsent_of_sortClass {v : Value} (h : v.sortClass = 2) : v.isAbsent = false := by
  cases v <;> simp_all [sortClass, isAbsent]

/-- Either all of the keys that are there are numbers, or none of them is. -/
def OneKind (keys : List Value) : Prop :=
  (∀ k ∈ keys, k.isAbsent = false → k.toNumber? ≠ none) ∨
    (∀ k ∈ keys, k.isAbsent = false → k.toNumber? = none)

/-- It takes two numbers and a text to straddle. -/
theorem OneKind.not_straddles {keys : List Value} (h : OneKind keys) :
    ∀ x ∈ keys, ∀ y ∈ keys, ∀ z ∈ keys, ¬ Straddles x y z := by
  rintro x hx y hy z hz ⟨m, n, hm, hn, hdef, hnone, -⟩
  rcases h with hnumbers | htexts
  · exact hnumbers z hz (isAbsent_of_sortClass hdef) hnone
  · have hx : x.toNumber? = none := htexts x hx (isAbsent_of_sortClass (sortClass_of_number hm))
    simp [hx] at hm

/-- Keys in the same place as a third one are in the same place. -/
theorem compareKeys_eq_of_tied {keys : List Value} (htrans : TransOn compareKeys keys)
    {a b k : Value} (ha : a ∈ keys) (hb : b ∈ keys) (hk : k ∈ keys)
    (hak : compareKeys a k = .eq) (hbk : compareKeys b k = .eq) : compareKeys a b = .eq := by
  have hka : compareKeys k a = .eq := Std.OrientedCmp.eq_symm hak
  have hkb : compareKeys k b = .eq := Std.OrientedCmp.eq_symm hbk
  exact Std.OrientedCmp.isLE_antisymm (htrans a ha k hk b hb (by simp [hak]) (by simp [hkb]))
    (htrans b hb k hk a ha (by simp [hbk]) (by simp [hka]))

end Value

namespace StageFunction

/-- Sorting by keys on which their comparison is transitive is stable. -/
theorem insertionSort_tied (desc : Bool) {keyed : List (Value × Value)} {k : Value}
    (htrans : TransOn Value.compareKeys (keyed.map Prod.fst)) (hk : k ∈ keyed.map Prod.fst) :
    (insertionSort (keyedCompare desc) keyed).filter
        (fun p => Value.compareKeys p.1 k == .eq) =
      keyed.filter fun p => Value.compareKeys p.1 k == .eq := by
  refine insertionSort_filter _ _ fun p hp q hq hpk hqk => ?_
  have htied : Value.compareKeys p.1 q.1 = .eq :=
    Value.compareKeys_eq_of_tied htrans (List.mem_map_of_mem hp) (List.mem_map_of_mem hq) hk
      (eq_of_beq hpk) (eq_of_beq hqk)
  simp [keyedCompare, htied]

/-- What is sorted and what is missing are together what was given. -/
theorem map_snd_append_perm {items found : List Value} {keyed : List (Value × Value)}
    (hlength : found.length = (items.filter fun v => !v.isMissing).length)
    (hperm : keyed.Perm (found.zip (items.filter fun v => !v.isMissing))) :
    (keyed.map Prod.snd ++ items.filter Value.isMissing).Perm items := by
  have hpresent : (keyed.map Prod.snd).Perm (items.filter fun v => !v.isMissing) := by
    have hsnd := hperm.map Prod.snd
    rwa [List.map_snd_zip (Nat.le_of_eq hlength.symm)] at hsnd
  have hparts : (items.filter Value.isMissing ++ items.filter fun v => !v.isMissing).Perm items :=
    List.filter_append_perm _ _
  exact (hpresent.append_right _).trans (List.perm_append_comm.trans hparts)

/-- No key stands before one that comes strictly earlier, or strictly later with `desc`. -/
def InOrder (desc : Bool) (keyed : List (Value × Value)) : Prop :=
  keyed.Pairwise fun p q =>
    if desc then (Value.compareKeys q.1 p.1).isLE else (Value.compareKeys p.1 q.1).isLE

theorem inOrder_of_keyedCompare {desc : Bool} {keyed : List (Value × Value)}
    (h : keyed.Pairwise fun p q => (keyedCompare desc p q).isLE) : InOrder desc keyed := by
  refine h.imp fun {p q} hpq => ?_
  rw [keyedCompare_eq] at hpq
  split <;> simp_all

/-- Null keys, missing ones and all others follow each other in the order of their classes. -/
theorem InOrder.sortClass {desc : Bool} {keyed : List (Value × Value)} (h : InOrder desc keyed) :
    keyed.Pairwise fun p q =>
      if desc then q.1.sortClass ≤ p.1.sortClass else p.1.sortClass ≤ q.1.sortClass := by
  refine h.imp fun {p q} hpq => ?_
  split at hpq
  · next hdesc => simpa [hdesc] using Value.sortClass_le hpq
  · next hdesc => simpa [hdesc] using Value.sortClass_le hpq

/-- `sort` is stable, with missing elements last. Where the keys of the elements that are
there are all numbers or all not, the output has the same elements as the input: those that
are there, in the order of their keys or in the reverse order, and then as many missing ones
as there were. In the first part null keys are before missing ones and those before all
others, or the other way round with `desc`; and among the elements whose keys are in the same
place as some key, the order is the one of the input. -/
theorem sort_stable (nested : Nested) (spec : Pipeline.SortOrder) (items found : List Value)
    (memo memo' : PathMemo)
    (hkeys : keysOf nested (spec.field.map .ofField) (items.filter fun v => !v.isMissing) memo =
      some (found, memo'))
    (hkind : Value.OneKind found) :
    ∃ (output : List Value) (keyed : List (Value × Value)),
      (sort.apply nested (.array items) (.order spec)).run memo =
        some (.ok (.array output), memo') ∧
      output.Perm items ∧
      output = keyed.map Prod.snd ++ List.replicate (items.countP Value.isMissing) .missing ∧
      keyed.Perm (found.zip (items.filter fun v => !v.isMissing)) ∧
      InOrder spec.desc keyed ∧
      (keyed.Pairwise fun p q =>
        if spec.desc then q.1.sortClass ≤ p.1.sortClass
        else p.1.sortClass ≤ q.1.sortClass) ∧
      ∀ k ∈ found,
        (keyed.filter fun p => Value.compareKeys p.1 k == .eq) =
          (found.zip (items.filter fun v => !v.isMissing)).filter
            fun p => Value.compareKeys p.1 k == .eq := by
  have hlength := length_keysOf hkeys
  have hfst : (found.zip (items.filter fun v => !v.isMissing)).map Prod.fst = found :=
    List.map_fst_zip (Nat.le_of_eq hlength)
  have htrans : TransOn Value.compareKeys
      ((found.zip (items.filter fun v => !v.isMissing)).map Prod.fst) := by
    rw [hfst]
    exact (Value.transOn_compareKeys_iff found).2 hkind.not_straddles
  have hperm := insertionSort_perm (keyedCompare spec.desc)
    (found.zip (items.filter fun v => !v.isMissing))
  have hsorted := inOrder_of_keyedCompare
    (insertionSort_pairwise _ (transOn_keyedCompare spec.desc htrans))
  refine ⟨_, _, ?_, map_snd_append_perm hlength hperm, ?_, hperm, hsorted, hsorted.sortClass, ?_⟩
  · change (Run.infallible (sortItems nested spec items) >>= _).run memo = _
    rw [Run.infallible_bind_apply, sortItems_eq hkeys]
    rfl
  · rw [Value.filter_isMissing]
  · intro k hk
    exact insertionSort_tied spec.desc htrans (hfst.symm ▸ hk)

/-- Objects by a field, from the greatest number down: two texts of one number stay as they
were, an object without the field comes after them, and a missing element last. -/
theorem sort_stable_of_field :
    let nested := (Scope.mk {} Template.resolve 1).nestedAt 1
    let nine := Value.object [("k", .string "9")]
    let alike := Value.object [("k", .string "9.0")]
    let ten := Value.object [("k", .string "10")]
    let items := [alike, .missing, .object [], nine, ten]
    let found := [Value.string "9.0", .missing, .string "9", .string "10"]
    keysOf nested (some (.ofField "k")) (items.filter fun v => !v.isMissing) (.fresh false) =
      some (found, .fresh false) ∧
    Value.OneKind found ∧
    ∃ (output : List Value) (keyed : List (Value × Value)),
      (sort.apply nested (.array items) (.order ⟨some "k", true⟩)).run (.fresh false) =
        some (.ok (.array output), .fresh false) ∧
      output = keyed.map Prod.snd ++ [.missing] ∧
      InOrder true keyed ∧
      (keyed.filter fun p => Value.compareKeys p.1 (.string "9") == .eq) =
        [(.string "9.0", alike), (.string "9", nine)] := by
  intro nested nine alike ten items found
  have hfield : Prepared.ofField "k" = .path "$.k" := by
    have hpathOf : Prepared.pathOfField "k" = "$.k" := by decide +kernel
    rw [Prepared.ofField, hpathOf]
    exact Prepared.ofText_of_isPath (by decide +kernel) (by decide) (by decide +kernel)
      (by decide +kernel)
  have hread : Path.ofText "$.k" = .ok ⟨"$.k", [.root, .property "k"]⟩ := by decide +kernel
  have hfollow (v : Value) : nested.evaluate (.path "$.k") v (.fresh false) =
      some (Path.walk [.root, .property "k"] v, .fresh false) := by
    change some (_, _) = _
    simp [PathMemo.path, PathMemo.fresh, hread, Path.follow]
  have hkeys : keysOf nested (some (.ofField "k")) (items.filter fun v => !v.isMissing)
      (.fresh false) = some (found, .fresh false) := by
    have hpresent : (items.filter fun v => !v.isMissing) = [alike, .object [], nine, ten] := rfl
    rw [hpresent, hfield]
    simp only [keysOf, List.mapM_cons, List.mapM_nil, Run.bind_apply, hfollow, Option.bind_some]
    rfl
  have hkind : Value.OneKind found := by
    refine .inl fun k hk hthere => ?_
    have hcases : k = .string "9.0" ∨ k = .missing ∨ k = .string "9" ∨ k = .string "10" := by
      simpa [found] using hk
    rcases hcases with rfl | rfl | rfl | rfl
    · decide +kernel
    · simp [Value.isAbsent] at hthere
    · decide +kernel
    · decide +kernel
  obtain ⟨output, keyed, hrun, -, hout, -, horder, -, htied⟩ :=
    sort_stable nested ⟨some "k", true⟩ items found _ _ hkeys hkind
  refine ⟨hkeys, hkind, output, keyed, hrun, hout, horder, ?_⟩
  rw [htied _ (by simp [found])]
  have h₁ : Value.compareKeys (.string "9.0") (.string "9") = .eq := by decide +kernel
  have h₂ : Value.compareKeys .missing (.string "9") ≠ .eq := by decide +kernel
  have h₃ : Value.compareKeys (.string "9") (.string "9") = .eq := by decide +kernel
  have h₄ : Value.compareKeys (.string "10") (.string "9") ≠ .eq := by decide +kernel
  simp [items, found, alike, nine, ten, Value.isMissing, h₁, h₂, h₃, h₄]

end StageFunction

end Sluice
