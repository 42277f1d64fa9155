import Sluice.Proofs.WellFormedness

/-!
# First elements with their keys

`unique` compares the key of an element with those of the elements it has kept. Identity being
transitive, this is as good as comparing it with all keys before. So an element is kept exactly if
its key is identical to none of those, kept elements have distinct keys, and of those nothing more
is dropped.
-/
namespace Sluice

open Value

namespace Items

variable {key : Value → Value} {items : List Value} {x : Value} {i : Nat}

/-- A further element is dropped exactly if its key is identical to one of those before, whether
their elements were kept or not. -/
theorem distinctFrom_concat {seen : List Value} {keyed : List (Value × Value)} {k : Value}
    (hseen : ∀ k ∈ seen, k.WellFormed) (hkeyed : ∀ p ∈ keyed, p.1.WellFormed)
    (hk : k.WellFormed) (x : Value) :
    distinctFrom seen (keyed ++ [(k, x)]) = distinctFrom seen keyed ++
      if (seen ++ keyed.map Prod.fst).any (· == k) then [] else [x] := by
  induction keyed generalizing seen with
  | nil => simp [distinctFrom]
  | cons p keyed ih =>
      obtain ⟨hp, hkeyed⟩ := List.forall_mem_cons.1 hkeyed
      simp only [List.cons_append, List.map_cons, distinctFrom]
      split
      · next hany =>
          -- A key that is dropped is identical to a kept one, and to no other keys than that is.
          obtain ⟨k', hk', hsame⟩ := List.any_eq_true.1 hany
          have hkept (h : (p.1 == k) = true) : seen.any (· == k) = true :=
            List.any_eq_true.2 ⟨k', hk', same_trans (hseen k' hk') hp hk hsame h⟩
          rw [ih hseen hkeyed]
          congr 2
          simp only [List.any_append, List.any_cons]
          grind
      · have hseen' : ∀ k ∈ seen ++ [p.1], k.WellFormed := by
          simpa [or_imp, forall_and] using ⟨hseen, hp⟩
        rw [ih hseen' hkeyed, List.cons_append, List.append_assoc, List.singleton_append]

/-- Elements with their keys beside them. -/
def keyedBy (key : Value → Value) (items : List Value) : List (Value × Value) :=
  items.map fun x => (key x, x)

/-- There is an element at the place, and its key is not identical to one before. -/
def IsFirst (key : Value → Value) (items : List Value) (i : Nat) : Prop :=
  ∃ x, items[i]? = some x ∧ ∀ j < i, ∀ y, items[j]? = some y → (key y == key x) = false

theorem IsFirst.lt_length (h : IsFirst key items i) : i < items.length := by
  obtain ⟨x, hx, -⟩ := h
  exact (List.getElem?_eq_some_iff.1 hx).1

/-- A further element changes nothing for the places before, and its own place is first if no
element has an identical key. -/
theorem isFirst_concat_iff : IsFirst key (items ++ [x]) i ↔
    IsFirst key items i ∨ i = items.length ∧ items.any (fun y => key y == key x) = false := by
  rcases Nat.lt_trichotomy i items.length with hi | rfl | hi
  · have hbefore {j : Nat} (hj : j ≤ i) : (items ++ [x])[j]? = items[j]? :=
      List.getElem?_append_left (by omega)
    have hne : i ≠ items.length := by omega
    simp only [IsFirst, hne, false_and, or_false, hbefore (Nat.le_refl i)]
    refine exists_congr fun y => and_congr_right fun _ => forall₂_congr fun j hj => ?_
    rw [hbefore (Nat.le_of_lt hj)]
  · have hlast : (items ++ [x])[items.length]? = some x := by simp
    have hnot : ¬ IsFirst key items items.length := fun h => Nat.lt_irrefl _ h.lt_length
    simp only [hnot, false_or, true_and, List.any_eq_false, Bool.not_eq_true]
    constructor
    · rintro ⟨z, hz, hfirst⟩ y hy
      obtain rfl : x = z := Option.some.inj (hlast.symm.trans hz)
      obtain ⟨j, hj, rfl⟩ := List.getElem_of_mem hy
      exact hfirst j hj _ (by rw [List.getElem?_append_left hj, List.getElem?_eq_getElem hj])
    · intro hnone
      refine ⟨x, hlast, fun j hj y hy => hnone y ?_⟩
      rw [List.getElem?_append_left hj] at hy
      exact List.mem_of_getElem? hy
  · have hne : i ≠ items.length := by omega
    have hnot : ¬ IsFirst key items i := fun h => Nat.lt_asymm hi h.lt_length
    have hnot' : ¬ IsFirst key (items ++ [x]) i := fun h => by
      have hlt := h.lt_length
      rw [List.length_append, List.length_singleton] at hlt
      omega
    simp only [hne, hnot, hnot', false_and, or_false]

theorem distinct_keyedBy_sublist (key : Value → Value) (items : List Value) :
    (distinct (keyedBy key items)).Sublist items := by
  simpa [distinct, keyedBy, Function.comp_def] using distinctFrom_sublist [] (keyedBy key items)

section distinct

variable (hkeys : ∀ x ∈ items, (key x).WellFormed)
include hkeys

theorem distinct_keyedBy_concat (hx : (key x).WellFormed) :
    distinct (keyedBy key (items ++ [x])) = distinct (keyedBy key items) ++
      if items.any (fun y => key y == key x) then [] else [x] := by
  have hseen : ∀ k ∈ ([] : List Value), k.WellFormed := List.forall_mem_nil _
  have hkeyed : ∀ p ∈ keyedBy key items, p.1.WellFormed := by
    simpa [keyedBy] using hkeys
  simpa [distinct, keyedBy, Function.comp_def] using distinctFrom_concat hseen hkeyed hx x

/-- The elements are those at the places of first keys, in this order. -/
theorem exists_places_distinct : ∃ places : List Nat, places.Pairwise (· < ·) ∧
    (∀ i, i ∈ places ↔ IsFirst key items i) ∧
    List.Forall₂ (fun i x => items[i]? = some x) places (distinct (keyedBy key items)) := by
  induction items using List.reverseRecOn with
  | nil => exact ⟨[], .nil, by simp [IsFirst], .nil⟩
  | append_singleton items x ih =>
      obtain ⟨hbefore, hx⟩ := List.forall_mem_append.1 hkeys
      have hx : (key x).WellFormed := hx x List.mem_cons_self
      obtain ⟨places, hsorted, hmem, hat⟩ := ih hbefore
      have hat' : List.Forall₂ (fun i y => (items ++ [x])[i]? = some y) places
          (distinct (keyedBy key items)) :=
        hat.imp fun i y h => by
          rw [List.getElem?_append_left (List.getElem?_eq_some_iff.1 h).1, h]
      rw [distinct_keyedBy_concat hbefore hx]
      cases hany : items.any (fun y => key y == key x) with
      | true =>
          refine ⟨places, hsorted, fun i => ?_, by simpa using hat'⟩
          simp [isFirst_concat_iff, hmem, hany]
      | false =>
          refine ⟨places ++ [items.length], ?_, fun i => ?_, ?_⟩
          · refine List.pairwise_append.2 ⟨hsorted, List.pairwise_singleton _ _, ?_⟩
            intro i hi j hj
            obtain rfl := List.mem_singleton.1 hj
            exact ((hmem i).1 hi).lt_length
          · simp [isFirst_concat_iff, hmem, hany]
          · exact List.rel_append hat' (.cons (by simp) .nil)

/-- No two keys are identical, whichever comes first. -/
theorem pairwise_distinct : (distinct (keyedBy key items)).Pairwise
    fun x y => (key x == key y) = false ∧ (key y == key x) = false := by
  induction items using List.reverseRecOn with
  | nil => exact .nil
  | append_singleton items x ih =>
      obtain ⟨hbefore, hx⟩ := List.forall_mem_append.1 hkeys
      have hx : (key x).WellFormed := hx x List.mem_cons_self
      rw [distinct_keyedBy_concat hbefore hx]
      cases hany : items.any (fun y => key y == key x) with
      | true => simpa using ih hbefore
      | false =>
          refine List.pairwise_append.2 ⟨ih hbefore, List.pairwise_singleton _ _, ?_⟩
          intro y hy z hz
          obtain rfl := List.mem_singleton.1 hz
          have hmem := (distinct_keyedBy_sublist key items).subset hy
          have hfalse : (key y == key z) = false := by simpa using List.any_eq_false.1 hany y hmem
          exact ⟨hfalse, (same_comm hx (hbefore y hmem)).trans hfalse⟩

/-- Elements with distinct keys are all kept. -/
theorem distinct_keyedBy_of_pairwise
    (h : items.Pairwise fun x y => (key x == key y) = false) :
    distinct (keyedBy key items) = items := by
  induction items using List.reverseRecOn with
  | nil => rfl
  | append_singleton items x ih =>
      obtain ⟨hbefore, hx⟩ := List.forall_mem_append.1 hkeys
      obtain ⟨hitems, -, hlast⟩ := List.pairwise_append.1 h
      have hany : items.any (fun y => key y == key x) = false :=
        List.any_eq_false.2 fun y hy => by simp [hlast y hy x List.mem_cons_self]
      rw [distinct_keyedBy_concat hbefore (hx x List.mem_cons_self), ih hbefore hitems, hany]
      rfl

end distinct

end Items

namespace StageFunction

variable {nested : Nested} {args : Arguments} {key : Value → Value} {items : List Value}

/-- The elements have the keys: what the text for an element is evaluated to against it, or the
element itself if there is no text. -/
def HasKeys (nested : Nested) (args : Arguments) (key : Value → Value) (items : List Value) :
    Prop :=
  match perElement args with
  | some p => ∀ x ∈ items, Run.Gives (nested.evaluate p x) (key x)
  | none => ∀ x ∈ items, key x = x

theorem HasKeys.of_subset {kept : List Value} (h : HasKeys nested args key items)
    (hsub : kept ⊆ items) : HasKeys nested args key kept := by
  unfold HasKeys at h ⊢
  split at h
  · exact fun x hx => h x (hsub hx)
  · exact fun x hx => h x (hsub hx)

theorem HasKeys.gives_keysOf (h : HasKeys nested args key items) :
    Run.Gives (keysOf nested (perElement args) items) (items.map key) := by
  unfold HasKeys at h
  split at h
  · next p hp =>
      rw [hp]
      exact .mapM (List.forall₂_map_right_iff.2 (List.forall₂_same.2 h))
  · next hp =>
      have hself : items.map key = items := (List.map_congr_left h).trans (List.map_id' items)
      rw [hp, hself]
      exact .pure items

/-- A path that is followed from every element gives keys. -/
theorem hasKeys_path (s : Scope) (depth : Nat) (text : String) (items : List Value) :
    HasKeys (s.nestedAt (depth + 1)) (.expression (.path text)) (Value.follow · text) items :=
  fun v _ => (Run.Gives.infallible (.follow text v)).orElse .null

/-- A key is what an evaluation yields, so it is well-formed. -/
theorem HasKeys.wellFormed (hnested : nested.Keeps) (hargs : args.Within Prepared.IsText)
    (hitems : (Value.array items).WellFormed) (h : HasKeys nested args key items) :
    ∀ x ∈ items, (key x).WellFormed := by
  unfold HasKeys at h
  split at h
  · next p hp =>
      intro x hx
      have hyields : Run.Yields WellFormed (nested.evaluate p x) :=
        hnested p (perElement_within hargs p hp) x (wellFormed_array.1 hitems x hx)
      exact hyields.of_gives (h x hx)
  · exact fun x hx => (h x hx).symm ▸ wellFormed_array.1 hitems x hx

/-- `unique` has the elements with the keys that are first. -/
theorem HasKeys.gives_unique (h : HasKeys nested args key items) :
    Run.Gives (unique.apply nested (.array items) args).run
      (.ok (.array (Items.distinct (Items.keyedBy key items)))) := by
  have hzip : (items.map key).zip items = Items.keyedBy key items := by
    simpa [Items.keyedBy] using List.zip_map' (f := key) (g := id) (l := items)
  rw [← hzip]
  exact h.gives_keysOf.infallible.andThen (.ok _)

/-- If `unique` has a result, all elements have keys. -/
theorem exists_hasKeys {s : Scope} {depth : Nat} (hargs : args.Within Prepared.IsText)
    {memo : PathMemo} (hmemo : memo.Sound) {r : Except Failure Value × PathMemo}
    (h : (unique.apply (s.nestedAt depth) (.array items) args).run memo = some r) :
    ∃ key, HasKeys (s.nestedAt depth) args key items := by
  cases hp : perElement args with
  | none => exact ⟨id, by simp [HasKeys, hp]⟩
  | some p =>
      change (Run.infallible (keysOf _ (perElement args) items) >>= _).run memo = _ at h
      rw [Run.infallible_bind_apply, hp] at h
      obtain ⟨found, hfound, -⟩ := Option.bind_eq_some_iff.1 h
      have hinquiry (x : Value) : ((s.nestedAt depth).evaluate p x).IsInquiry :=
        (s.nestedAt_isInquiry depth).evaluate p (perElement_within hargs p hp) x
      have hgives := Run.exists_gives_of_mapM hinquiry hmemo hfound
      classical
      refine ⟨fun x => if hx : x ∈ items then (hgives x hx).choose else .missing, ?_⟩
      simp only [HasKeys, hp]
      intro x hx
      simpa [hx] using (hgives x hx).choose_spec

/-- `unique` keeps the first element with each key. Where every element has a key, an element is
kept exactly if no element before it has an identical key, and elements are kept in their order.
No two of these have identical keys, and `unique` leaves them as they are. -/
theorem unique_keeps_first {s : Scope} (hs : s.WellFormed) (depth : Nat)
    (hargs : args.Within Prepared.IsText) (hitems : (Value.array items).WellFormed)
    (hkey : HasKeys (s.nestedAt depth) args key items) :
    ∃ (places : List Nat) (output : List Value),
      places.Pairwise (· < ·) ∧
      (∀ i, i ∈ places ↔ ∃ x, items[i]? = some x ∧
        ∀ j < i, ∀ y, items[j]? = some y → (key y == key x) = false) ∧
      List.Forall₂ (fun i x => items[i]? = some x) places output ∧
      output.Pairwise (fun x y => (key x == key y) = false ∧ (key y == key x) = false) ∧
      Run.Gives (unique.apply (s.nestedAt depth) (.array items) args).run
        (.ok (.array output)) ∧
      Run.Gives (unique.apply (s.nestedAt depth) (.array output) args).run
        (.ok (.array output)) := by
  have hkeys := hkey.wellFormed (hs.nestedAt_keeps depth) hargs hitems
  have hsub := (Items.distinct_keyedBy_sublist key items).subset
  have hpairwise := Items.pairwise_distinct hkeys
  obtain ⟨places, hsorted, hmem, hat⟩ := Items.exists_places_distinct hkeys
  have hagain := (hkey.of_subset hsub).gives_unique
  rw [Items.distinct_keyedBy_of_pairwise (fun x hx => hkeys x (hsub hx))
    (hpairwise.imp And.left)] at hagain
  exact ⟨places, _, hsorted, hmem, hat, hpairwise, hkey.gives_unique, hagain⟩

/-- Objects by a field: the third has the key of the first, and NaN is not identical to itself. -/
theorem unique_keeps_first_of_field :
    let s := Scope.mk {} Template.resolve 1
    let one := Value.object [("k", .number 1)]
    let nan := Value.object [("k", .number (0 / 0))]
    let again := Value.object [("n", .null), ("k", .number 1)]
    let items := [one, nan, again, nan]
    let args := Arguments.expression (.ofField "k")
    let key := fun v : Value => v.follow "$.k"
    s.WellFormed ∧ args.Within Prepared.IsText ∧ (Value.array items).WellFormed ∧
    HasKeys (s.nestedAt 1) args key items ∧
    ∃ (places : List Nat) (output : List Value),
      places.Pairwise (· < ·) ∧ 0 ∈ places ∧ 1 ∈ places ∧ 2 ∉ places ∧ 3 ∈ places ∧
      List.Forall₂ (fun i x => items[i]? = some x) places output ∧
      Run.Gives (unique.apply (s.nestedAt 1) (.array items) args).run (.ok (.array output)) ∧
      Run.Gives (unique.apply (s.nestedAt 1) (.array output) args).run (.ok (.array output)) := by
  intro s one nan again items args key
  have hs : s.WellFormed := Scope.wellFormed_of_bindings Bindings.wellFormed_empty 1
  have hargs : args.Within Prepared.IsText := ⟨Prepared.pathOfField "k", rfl⟩
  have hitems : (Value.array items).WellFormed := by
    have hscalars (entries : Keyed Value) (hnames : entries.keys.Nodup)
        (hvalues : ∀ e ∈ entries, e.2.IsScalar = true) : (Value.object entries).WellFormed :=
      wellFormed_object.2 ⟨hnames, fun e he => .of_isScalar (hvalues e he)⟩
    refine wellFormed_array.2 fun v hv => ?_
    have hcases : v = one ∨ v = nan ∨ v = again ∨ v = nan := by simpa [items] using hv
    rcases hcases with rfl | rfl | rfl | rfl <;> exact hscalars _ (by decide) (by simp [IsScalar])
  have hfield : Prepared.ofField "k" = .path "$.k" := by
    have hpathOf : Prepared.pathOfField "k" = "$.k" := by decide +kernel
    rw [Prepared.ofField, hpathOf]
    exact Prepared.ofText_of_isPath (by decide +kernel) (by decide) (by decide +kernel)
      (by decide +kernel)
  have hkey : HasKeys (s.nestedAt 1) args key items := by
    have hpath := hasKeys_path s 0 "$.k" items
    rwa [← hfield] at hpath
  have hread : Path.ofText "$.k" = .ok ⟨"$.k", [.root, .property "k"]⟩ := by decide +kernel
  have hfollow (v : Value) : key v = Path.walk [.root, .property "k"] v := by
    simp only [key, Value.follow, hread, Path.follow]
  have hone : key one = .number 1 := hfollow one
  have hnan : key nan = .number (0 / 0) := hfollow nan
  have hagain : key again = .number 1 := hfollow again
  have h₁ : (Value.number 1 == .number (0 / 0)) = false := by decide +kernel
  have h₂ : (Value.number 1 == .number 1) = true := by decide +kernel
  have h₃ : (Value.number (0 / 0) == .number (0 / 0)) = false := by decide +kernel
  obtain ⟨places, output, hsorted, hmem, hat, -, hruns⟩ :=
    unique_keeps_first hs 1 hargs hitems hkey
  refine ⟨hs, hargs, hitems, hkey, places, output, hsorted, ?_, ?_, ?_, ?_, hat, hruns⟩
  · refine (hmem 0).2 ⟨one, rfl, fun j hj => by omega⟩
  · refine (hmem 1).2 ⟨nan, rfl, fun j hj y hy => ?_⟩
    obtain rfl : j = 0 := by omega
    cases hy
    rwa [hone, hnan]
  · rintro h
    obtain ⟨x, hx, hfirst⟩ := (hmem 2).1 h
    cases hx
    have hnot := hfirst 0 (by omega) one rfl
    rw [hone, hagain, h₂] at hnot
    cases hnot
  · refine (hmem 3).2 ⟨nan, rfl, fun j hj y hy => ?_⟩
    rcases (by omega : j = 0 ∨ j = 1 ∨ j = 2) with rfl | rfl | rfl <;> cases hy
    · rwa [hone, hnan]
    · rwa [hnan]
    · rwa [hagain, hnan]

end StageFunction

end Sluice
