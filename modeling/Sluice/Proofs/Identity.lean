import Sluice.Operation
import Sluice.Proofs.Numbers

/-!
# Identity of values

Two values are identical if they are of one kind and of one content: numbers as numbers, lists
position by position, objects name by name. So the order of the entries of an object does not
show, wherever in a value the object is, and the order of the items of a list does. Identity is
symmetric and transitive, and a value is identical to itself unless not-a-number is somewhere in
it.
-/
namespace Sluice

/-! ## Entries by name -/

namespace Keyed

variable {α : Type} {t t' : Keyed α} {name : String} {a : α}

theorem get?_eq_some_iff (h : t.keys.Nodup) : t.get? name = some a ↔ (name, a) ∈ t := by
  refine ⟨mem_of_get?, fun hmem => ?_⟩
  induction t with
  | nil => cases hmem
  | cons e t ih =>
      obtain ⟨k, b⟩ := e
      obtain ⟨hk, ht⟩ := List.nodup_cons.1 h
      rcases List.mem_cons.1 hmem with he | hmem
      · cases he
        simp [get?]
      · have hne : k ≠ name := by
          rintro rfl
          exact hk (List.mem_map.2 ⟨(k, a), hmem, rfl⟩)
        rw [get?, if_neg hne, ih ht hmem]

theorem mem_keys_iff : name ∈ t.keys ↔ (t.get? name).isSome = true := by
  rw [Option.isSome_iff_ne_none, ne_eq, get?_eq_none_iff, not_not]

theorem length_keys (t : Keyed α) : t.keys.length = t.length :=
  List.length_map _

theorem perm_keys (ht : t.keys.Nodup) (ht' : t'.keys.Nodup)
    (h : ∀ name, (t.get? name).isSome = (t'.get? name).isSome) : t.keys.Perm t'.keys :=
  (List.perm_ext_iff_of_nodup ht ht').2 fun name => by rw [mem_keys_iff, mem_keys_iff, h]

theorem perm_of_get?_eq (ht : t.keys.Nodup) (ht' : t'.keys.Nodup)
    (h : ∀ name, t.get? name = t'.get? name) : t.Perm t' := by
  refine (List.perm_ext_iff_of_nodup ht.of_map ht'.of_map).2 fun ⟨name, a⟩ => ?_
  rw [← get?_eq_some_iff ht, ← get?_eq_some_iff ht', h]

/-- Of two tables of one size, one has every name that the other one has. -/
theorem mem_keys_of_length_eq (ht : t.keys.Nodup) (hlen : t.length = t'.length)
    (hsub : t.keys ⊆ t'.keys) (h : name ∈ t'.keys) : name ∈ t.keys := by
  have hle : t'.keys.length ≤ t.keys.length := by rw [length_keys, length_keys, hlen]
  exact ((ht.subperm hsub).perm_of_length_le hle).mem_iff.2 h

end Keyed

namespace Value

variable {u v v' w w' : Value} {items xs ys zs : List Value} {entries ks ls ms : Keyed Value}

/-! ## Values from the inside -/

/-- Induction over what is inside of lists and objects. -/
@[elab_as_elim]
theorem inductionOn {motive : Value → Prop} (null : motive .null) (missing : motive .missing)
    (bool : ∀ b, motive (.bool b)) (number : ∀ x, motive (.number x))
    (string : ∀ s, motive (.string s))
    (array : ∀ items, (∀ v ∈ items, motive v) → motive (.array items))
    (object : ∀ entries : Keyed Value, (∀ k v, (k, v) ∈ entries → motive v) →
      motive (.object entries))
    (v : Value) : motive v :=
  match v with
  | .null => null
  | .missing => missing
  | .bool b => bool b
  | .number x => number x
  | .string s => string s
  | .array items => array items fun v _ =>
      inductionOn null missing bool number string array object v
  | .object entries => object entries fun _ v _ =>
      inductionOn null missing bool number string array object v
termination_by v
decreasing_by
  all_goals
    have hlt := List.sizeOf_lt_of_mem ‹_›
    simp only [Value.array.sizeOf_spec, Value.object.sizeOf_spec, Prod.mk.sizeOf_spec] at hlt ⊢
    omega

theorem allWellFormed_iff : allWellFormed items ↔ ∀ v ∈ items, v.WellFormed := by
  induction items with
  | nil => simp [allWellFormed]
  | cons v items ih => simp [allWellFormed, ih]

theorem entriesWellFormed_iff :
    entriesWellFormed entries ↔ ∀ e ∈ entries, e.2.WellFormed := by
  induction entries with
  | nil => simp [entriesWellFormed]
  | cons e entries ih => simp only [entriesWellFormed, ih, List.forall_mem_cons]

theorem WellFormed.item {i : Nat} (h : (Value.array items).WellFormed)
    (hv : items[i]? = some v) : v.WellFormed :=
  allWellFormed_iff.1 h v (List.mem_of_getElem? hv)

theorem WellFormed.entry {k : String} (h : (Value.object entries).WellFormed)
    (hv : Keyed.get? entries k = some v) : v.WellFormed :=
  entriesWellFormed_iff.1 h.2 (k, v) (Keyed.mem_of_get? hv)

/-! ## Content by position and by name

Lists and objects are both compared as partial functions, of positions and of names: where one
has a value, the other has an identical one. What follows about the two kinds goes through
`Option.Rel` and is proved once for both.
-/

theorem sameItems_iff :
    sameItems xs ys = true ↔ ∀ i : Nat, Option.Rel (same · ·) xs[i]? ys[i]? := by
  induction xs generalizing ys with
  | nil =>
      cases ys with
      | nil => simp [sameItems]
      | cons y ys => exact iff_of_false (by simp [sameItems]) fun h => by simpa using h 0
  | cons x xs ih =>
      cases ys with
      | nil => exact iff_of_false (by simp [sameItems]) fun h => by simpa using h 0
      | cons y ys =>
          rw [← Nat.and_forall_add_one, sameItems, Bool.and_eq_true, ih]
          simp

theorem sameEntries_iff : sameEntries ks ls = true ↔
    ∀ k v, (k, v) ∈ ks → ∃ w, Keyed.get? ls k = some w ∧ v.same w = true := by
  induction ks with
  | nil => simp [sameEntries]
  | cons e ks ih =>
      obtain ⟨k, v⟩ := e
      rw [sameEntries, Bool.and_eq_true, ih]
      cases hget : Keyed.get? ls k <;> simp [hget, forall_and, or_imp]

theorem same_array_iff :
    (array xs).same (array ys) = true ↔ ∀ i : Nat, Option.Rel (same · ·) xs[i]? ys[i]? := by
  rw [same, sameItems_iff]

/-- Two objects of one size are identical if each entry of one is in the other, and then each
entry of the other is in the one: names that are distinct are counted. -/
theorem same_object_iff (hks : ks.keys.Nodup) (hls : ls.keys.Nodup) :
    (object ks).same (object ls) = true ↔
      ∀ k, Option.Rel (same · ·) (ks.get? k) (ls.get? k) := by
  rw [same, Bool.and_eq_true, beq_iff_eq, sameEntries_iff]
  constructor
  · rintro ⟨hlen, hentries⟩ k
    -- The test looks at the entries of the first object only, and at the number of both.
    have hsub : ks.keys ⊆ ls.keys := by
      intro k hk
      obtain ⟨⟨k, v⟩, hmem, rfl⟩ := List.mem_map.1 hk
      obtain ⟨w, hw, -⟩ := hentries k v hmem
      exact Keyed.mem_keys_iff.2 (hw ▸ rfl)
    cases hv : ks.get? k with
    | some v =>
        obtain ⟨w, hw, hsame⟩ := hentries k v (Keyed.mem_of_get? hv)
        rw [hw]
        exact .some hsame
    | none =>
        have hk : k ∉ ls.keys := fun hk =>
          Keyed.get?_eq_none_iff.1 hv (Keyed.mem_keys_of_length_eq hks hlen hsub hk)
        rw [Keyed.get?_eq_none_iff.2 hk]
        exact .none
  · intro h
    have hperm : ks.keys.Perm ls.keys := Keyed.perm_keys hks hls fun k => by
      have hk := h k
      generalize ks.get? k = x, ls.get? k = y at hk
      cases hk <;> rfl
    refine ⟨by simpa [Keyed.length_keys] using hperm.length_eq, fun k v hmem => ?_⟩
    have hv := h k
    rw [(Keyed.get?_eq_some_iff hks).2 hmem] at hv
    cases hw : ls.get? k with
    | none => simp [hw] at hv
    | some w => exact ⟨w, rfl, by simpa [hw] using hv⟩

/-! ## Kinds, symmetry and transitivity -/

theorem typeName_eq_of_same (h : v.same w = true) : v.typeName = w.typeName := by
  cases v <;> cases w <;> first | rfl | simp [same] at h

theorem rel_symm {x y : Option Value}
    (hsymm : ∀ v w, x = some v → y = some w → v.same w = true → w.same v = true)
    (h : Option.Rel (same · ·) x y) : Option.Rel (same · ·) y x := by
  cases h with
  | none => exact .none
  | some h => exact .some (hsymm _ _ rfl rfl h)

theorem rel_trans {x y z : Option Value}
    (htrans : ∀ u v w, x = some u → y = some v → z = some w →
      u.same v = true → v.same w = true → u.same w = true)
    (h : Option.Rel (same · ·) x y) (h' : Option.Rel (same · ·) y z) :
    Option.Rel (same · ·) x z := by
  cases h with
  | none =>
      cases h' with
      | none => exact .none
  | some h =>
      cases h' with
      | some h' => exact .some (htrans _ _ _ rfl rfl rfl h h')

theorem rel_self_iff {x : Option Value} :
    Option.Rel (same · ·) x x ↔ ∀ v, x = some v → v.same v = true := by
  cases x <;> simp

theorem exists_of_same_number {x : Number} (h : (number x).same w = true) :
    ∃ y, w = number y := by
  cases w with
  | number y => exact ⟨y, rfl⟩
  | _ => simp [same] at h

theorem exists_of_same_array (h : (array xs).same w = true) : ∃ ys, w = array ys := by
  cases w with
  | array ys => exact ⟨ys, rfl⟩
  | _ => simp [same] at h

theorem exists_of_same_object (h : (object ks).same w = true) : ∃ ls, w = object ls := by
  cases w with
  | object ls => exact ⟨ls, rfl⟩
  | _ => simp [same] at h

theorem same_symm (hv : v.WellFormed) (hw : w.WellFormed) (h : v.same w = true) :
    w.same v = true := by
  induction v using inductionOn generalizing w with
  | null => cases w <;> simp_all [same]
  | missing => cases w <;> simp_all [same]
  | bool b => cases w <;> simp_all [same]
  | string s => cases w <;> simp_all [same]
  | number x =>
      obtain ⟨y, rfl⟩ := exists_of_same_number h
      simp only [same, Number.beq_eq, Float.beq_iff_ne_nan_and_eq] at h ⊢
      tauto
  | array xs ih =>
      obtain ⟨ys, rfl⟩ := exists_of_same_array h
      rw [same_array_iff] at h ⊢
      exact fun i => rel_symm (fun v w hx hy hsame =>
        ih v (List.mem_of_getElem? hx) (hv.item hx) (hw.item hy) hsame) (h i)
  | object ks ih =>
      obtain ⟨ls, rfl⟩ := exists_of_same_object h
      rw [same_object_iff hv.1 hw.1] at h
      rw [same_object_iff hw.1 hv.1]
      exact fun k => rel_symm (fun v w hx hy hsame =>
        ih k v (Keyed.mem_of_get? hx) (hv.entry hx) (hw.entry hy) hsame) (h k)

theorem same_comm (hv : v.WellFormed) (hw : w.WellFormed) : v.same w = w.same v :=
  Bool.eq_iff_iff.2 ⟨same_symm hv hw, same_symm hw hv⟩

/-- The one case beside equal numbers is that of the two zeros. -/
theorem beq_trans {x y z : Float} (h : (x == y) = true) (h' : (y == z) = true) :
    (x == z) = true := by
  rw [Float.beq_iff_ne_nan_and_eq] at h h' ⊢
  obtain ⟨hx, -, hxy⟩ := h
  obtain ⟨-, hz, hyz⟩ := h'
  refine ⟨hx, hz, ?_⟩
  rcases hxy with rfl | ⟨rfl, rfl⟩ | ⟨rfl, rfl⟩
  · exact hyz
  · tauto
  · tauto

theorem same_trans (hu : u.WellFormed) (hv : v.WellFormed) (hw : w.WellFormed)
    (h : u.same v = true) (h' : v.same w = true) : u.same w = true := by
  induction u using inductionOn generalizing v w with
  | null => cases v <;> cases w <;> simp_all [same]
  | missing => cases v <;> cases w <;> simp_all [same]
  | bool b => cases v <;> cases w <;> simp_all [same]
  | string s => cases v <;> cases w <;> simp_all [same]
  | number x =>
      obtain ⟨y, rfl⟩ := exists_of_same_number h
      obtain ⟨z, rfl⟩ := exists_of_same_number h'
      exact beq_trans h h'
  | array xs ih =>
      obtain ⟨ys, rfl⟩ := exists_of_same_array h
      obtain ⟨zs, rfl⟩ := exists_of_same_array h'
      rw [same_array_iff] at h h' ⊢
      exact fun i => rel_trans (fun u v w hx hy hz hsame hsame' =>
        ih u (List.mem_of_getElem? hx) (hu.item hx) (hv.item hy) (hw.item hz) hsame hsame')
        (h i) (h' i)
  | object ks ih =>
      obtain ⟨ls, rfl⟩ := exists_of_same_object h
      obtain ⟨ms, rfl⟩ := exists_of_same_object h'
      rw [same_object_iff hu.1 hv.1] at h
      rw [same_object_iff hv.1 hw.1] at h'
      rw [same_object_iff hu.1 hw.1]
      exact fun k => rel_trans (fun u v w hx hy hz hsame hsame' =>
        ih k u (Keyed.mem_of_get? hx) (hu.entry hx) (hv.entry hy) (hw.entry hz) hsame hsame')
        (h k) (h' k)

/-! ## Not-a-number -/

/-- Not-a-number is somewhere in the value. -/
inductive HasNaN : Value → Prop where
  | here {x : Number} (h : x.isNaN = true) : HasNaN (.number x)
  | item {v : Value} {items : List Value} (hv : v ∈ items) (h : HasNaN v) : HasNaN (.array items)
  | entry {k : String} {v : Value} {entries : Keyed Value} (hv : (k, v) ∈ entries)
      (h : HasNaN v) : HasNaN (.object entries)

theorem hasNaN_number {x : Number} : HasNaN (.number x) ↔ x.isNaN = true :=
  ⟨fun | .here h => h, .here⟩

theorem hasNaN_array : HasNaN (.array items) ↔ ∃ v ∈ items, v.HasNaN :=
  ⟨fun | .item hv h => ⟨_, hv, h⟩, fun ⟨_, hv, h⟩ => .item hv h⟩

theorem hasNaN_object : HasNaN (.object entries) ↔ ∃ e ∈ entries, e.2.HasNaN :=
  ⟨fun | .entry hv h => ⟨_, hv, h⟩, fun ⟨_, hv, h⟩ => .entry hv h⟩

@[simp] theorem not_hasNaN_null : ¬ HasNaN .null := nofun

@[simp] theorem not_hasNaN_missing : ¬ HasNaN .missing := nofun

@[simp] theorem not_hasNaN_bool (b : Bool) : ¬ HasNaN (.bool b) := nofun

@[simp] theorem not_hasNaN_string (s : String) : ¬ HasNaN (.string s) := nofun

theorem same_self_iff (hv : v.WellFormed) : v.same v = true ↔ ¬ v.HasNaN := by
  induction v using inductionOn with
  | null => simp [same]
  | missing => simp [same]
  | bool b => simp [same]
  | string s => simp [same]
  | number x => simp [same, hasNaN_number, Number.beq_self_iff]
  | array xs ih =>
      have hitems : ∀ v ∈ xs, v.same v = true ↔ ¬ v.HasNaN := fun v hmem =>
        ih v hmem (allWellFormed_iff.1 hv v hmem)
      simp only [same_array_iff, rel_self_iff, hasNaN_array, not_exists, not_and]
      constructor
      · intro h v hmem
        obtain ⟨i, hi⟩ := List.mem_iff_getElem?.1 hmem
        exact (hitems v hmem).1 (h i v hi)
      · intro h i v hi
        have hmem := List.mem_of_getElem? hi
        exact (hitems v hmem).2 (h v hmem)
  | object ks ih =>
      have hentries : ∀ k v, (k, v) ∈ ks → (v.same v = true ↔ ¬ v.HasNaN) := fun k v hmem =>
        ih k v hmem (entriesWellFormed_iff.1 hv.2 (k, v) hmem)
      simp only [same_object_iff hv.1 hv.1, rel_self_iff, hasNaN_object, not_exists, not_and,
        Prod.forall, Keyed.get?_eq_some_iff hv.1]
      exact forall_congr' fun k => forall_congr' fun v => imp_congr_right (hentries k v)

/-! ## Order -/

/-- The entries of one object in the value, itself or somewhere inside of it, are put into
another order. -/
inductive Reordered : Value → Value → Prop where
  | here {entries entries' : Keyed Value} (h : entries.Perm entries') :
      Reordered (.object entries) (.object entries')
  | item {v v' : Value} (before after : List Value) (h : Reordered v v') :
      Reordered (.array (before ++ v :: after)) (.array (before ++ v' :: after))
  | entry {v v' : Value} (before : Keyed Value) (k : String) (after : Keyed Value)
      (h : Reordered v v') :
      Reordered (.object (before ++ (k, v) :: after)) (.object (before ++ (k, v') :: after))

theorem Reordered.wellFormed (h : Reordered v v') (hv : v.WellFormed) : v'.WellFormed := by
  induction h with
  | here hperm =>
      refine ⟨(hperm.map Prod.fst).nodup_iff.1 hv.1, entriesWellFormed_iff.2 fun e he => ?_⟩
      exact entriesWellFormed_iff.1 hv.2 e (hperm.mem_iff.2 he)
  | item before after h ih =>
      simp only [WellFormed, allWellFormed_iff, List.forall_mem_append,
        List.forall_mem_cons] at hv ⊢
      exact ⟨hv.1, ih hv.2.1, hv.2.2⟩
  | entry before k after h ih =>
      simp only [WellFormed, entriesWellFormed_iff, List.forall_mem_append,
        List.forall_mem_cons] at hv ⊢
      refine ⟨?_, hv.2.1, ih hv.2.2.1, hv.2.2.2⟩
      simpa only [Keyed.keys, List.map_append, List.map_cons] using hv.1

theorem Reordered.same_eq (h : Reordered v v') (w : Value) : v.same w = v'.same w := by
  induction h generalizing w with
  | here hperm =>
      cases w with
      | object ls =>
          simp only [same, hperm.length_eq]
          congr 1
          rw [Bool.eq_iff_iff, sameEntries_iff, sameEntries_iff]
          simp only [hperm.mem_iff]
      | _ => rfl
  | item before after h ih =>
      cases w with
      | array ys =>
          simp only [same]
          induction before generalizing ys with
          | nil => cases ys <;> simp [sameItems, ih]
          | cons x before hbefore => cases ys <;> simp [sameItems, hbefore]
      | _ => rfl
  | entry before k after h ih =>
      cases w with
      | object ls =>
          simp only [same, List.length_append, List.length_cons]
          congr 1
          induction before with
          | nil => simp [sameEntries, ih]
          | cons e before hbefore => simp [sameEntries, hbefore]
      | _ => rfl

theorem same_eq_of_reordered (h : Relation.ReflTransGen Reordered v v') (hv : v.WellFormed) :
    v'.WellFormed ∧ ∀ w, v'.same w = v.same w := by
  induction h with
  | refl => exact ⟨hv, fun _ => rfl⟩
  | tail _ hstep ih =>
      exact ⟨hstep.wellFormed ih.1, fun w => (hstep.same_eq w).symm.trans (ih.2 w)⟩

/-- Reordering entries, as often as one likes and on both sides, does not show. -/
theorem same_reordered (h : Relation.ReflTransGen Reordered v v')
    (h' : Relation.ReflTransGen Reordered w w') (hv : v.WellFormed) (hw : w.WellFormed) :
    v'.same w' = v.same w := by
  obtain ⟨hv', hleft⟩ := same_eq_of_reordered h hv
  obtain ⟨hw', hright⟩ := same_eq_of_reordered h' hw
  calc v'.same w' = w'.same v' := same_comm hv' hw'
    _ = w.same v' := hright v'
    _ = v'.same w := same_comm hw hv'
    _ = v.same w := hleft w

/-- Objects with the same entry under each name are the same to every value. -/
theorem same_eq_of_get?_eq (hks : ks.keys.Nodup) (hls : ls.keys.Nodup)
    (h : ∀ k, ks.get? k = ls.get? k) (w : Value) : (object ks).same w = (object ls).same w :=
  (Reordered.here (Keyed.perm_of_get?_eq hks hls h)).same_eq w

/-- Two neighbours in a list change places unseen only if they are identical. -/
theorem same_of_same_swap (before after : List Value)
    (h : (array (before ++ v :: w :: after)).same (array (before ++ w :: v :: after)) = true) :
    v.same w = true := by
  have hrel := same_array_iff.1 h before.length
  simpa using hrel

/-! ## Identity -/

/-- What makes a test of two values the test of identity. -/
structure IsIdentity (test : Value → Value → Bool) : Prop where
  comm : ∀ v w, v.WellFormed → w.WellFormed → test v w = test w v
  trans : ∀ u v w, u.WellFormed → v.WellFormed → w.WellFormed →
    test u v = true → test v w = true → test u w = true
  self_iff : ∀ v, v.WellFormed → (test v v = true ↔ ¬ v.HasNaN)
  kind : ∀ v w, test v w = true → v.typeName = w.typeName
  bool_eq : ∀ a b, test (.bool a) (.bool b) = (a == b)
  number_eq : ∀ x y, test (.number x) (.number y) = (x == y)
  string_eq : ∀ s t, test (.string s) (.string t) = (s == t)
  array_iff : ∀ xs ys, test (.array xs) (.array ys) = true ↔
    ∀ i : Nat, Option.Rel (test · ·) xs[i]? ys[i]?
  object_iff : ∀ ks ls : Keyed Value, ks.keys.Nodup → ls.keys.Nodup →
    (test (.object ks) (.object ls) = true ↔
      ∀ k, Option.Rel (test · ·) (ks.get? k) (ls.get? k))
  /-- Only what an object has under which name counts. -/
  object_congr : ∀ ks ls : Keyed Value, ks.keys.Nodup → ls.keys.Nodup →
    (∀ k, ks.get? k = ls.get? k) → ∀ w, test (.object ks) w = test (.object ls) w
  reordered : ∀ v v' w w', v.WellFormed → w.WellFormed →
    Relation.ReflTransGen Reordered v v' → Relation.ReflTransGen Reordered w w' →
    test v' w' = test v w
  swapped : ∀ v w before after, test v w = false →
    test (.array (before ++ v :: w :: after)) (.array (before ++ w :: v :: after)) = false

end Value

/-- The equality operator tests identity, the inequality operator the contrary. -/
theorem Operator.eq_isIdentity : Value.IsIdentity (· == ·) ∧ ∀ patternBudget v w,
    eq.apply patternBudget v w = .bool (v == w) ∧ ne.apply patternBudget v w = .bool !(v == w) where
  left := {
    comm := fun _ _ => Value.same_comm
    trans := fun _ _ _ => Value.same_trans
    self_iff := fun _ => Value.same_self_iff
    kind := fun _ _ => Value.typeName_eq_of_same
    bool_eq := fun _ _ => rfl
    number_eq := fun _ _ => rfl
    string_eq := fun _ _ => rfl
    array_iff := fun _ _ => Value.same_array_iff
    object_iff := fun _ _ => Value.same_object_iff
    object_congr := fun _ _ => Value.same_eq_of_get?_eq
    reordered := fun _ _ _ _ hv hw h h' => Value.same_reordered h h' hv hw
    swapped := fun _ _ before after hne => Bool.eq_false_iff.2 fun h =>
      Bool.eq_false_iff.1 hne (Value.same_of_same_swap before after h)
  }
  right := fun _ _ _ => ⟨rfl, rfl⟩

/-- Entries in another order at two depths do not show; items in another order do, and
not-a-number inside of a list does. -/
theorem Operator.eq_isIdentity_of_nested :
    eq.apply 0
      (.object [("y", .string "s"), ("x", .object [("b", .array [.missing]), ("a", .null)])])
      (.object [("x", .object [("a", .null), ("b", .array [.missing])]), ("y", .string "s")])
        = .bool true ∧
    ne.apply 0 (.array [.null, .missing]) (.array [.missing, .null]) = .bool true ∧
    eq.apply 0 (.array [.number Float.nan]) (.array [.number Float.nan]) = .bool false := by
  obtain ⟨hidentity, happly⟩ := eq_isIdentity
  refine ⟨?_, ?_, ?_⟩
  · have hwell : (Value.object [("x", .object [("a", .null), ("b", .array [.missing])]),
        ("y", .string "s")]).WellFormed := by
      simp [Value.WellFormed, Value.entriesWellFormed, Value.allWellFormed]
    have hself := (hidentity.self_iff _ hwell).2
      (by simp [Value.hasNaN_object, Value.hasNaN_array])
    have hinner := Value.Reordered.here
      (List.Perm.swap ("b", Value.array [.missing]) ("a", .null) [])
    have hreordered := Relation.ReflTransGen.tail
      (.single (.entry [] "x" [("y", .string "s")] hinner))
      (Value.Reordered.here (List.Perm.swap ("y", Value.string "s") _ []))
    rw [(happly 0 _ _).1]
    exact congrArg Value.bool
      ((hidentity.reordered _ _ _ _ hwell hwell hreordered .refl).trans hself)
  · have hswapped := hidentity.swapped .null .missing [] [] rfl
    rw [(happly 0 _ _).2]
    exact congrArg (fun b => Value.bool !b) hswapped
  · have hwell : (Value.array [.number Float.nan]).WellFormed := by
      simp [Value.WellFormed, Value.allWellFormed]
    have hnan : (Value.array [.number Float.nan]).HasNaN :=
      .item (List.mem_singleton_self _) (.here (by simp))
    rw [(happly 0 _ _).1, Bool.eq_false_iff.2 fun h => (hidentity.self_iff _ hwell).1 h hnan]

end Sluice
