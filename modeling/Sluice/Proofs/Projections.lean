import Mathlib.Data.List.Forall2
import Sluice.Function.Stage
import Sluice.Proofs.Tables

/-!
# Picking keys

The stage `pick` makes of an object the object of those of the wanted keys that it has: each once,
in the order in which they are first asked for, with the value that it had. Keys that the object
does not have are not made up. Picking twice is picking once, by the keys of the second list that
are in the first. What is no object stays as it is, and a list is picked from element by element.
-/
namespace Sluice

namespace Keyed

variable {α : Type} {entries picked : Keyed α} {ks ls : List String} {name : String}

/-- The table has those of the wanted names that the other one has, each once and in the order in
which they are first asked for, and under each what the other one has. -/
structure IsProjection (ks : List String) (entries picked : Keyed α) : Prop where
  nodup : picked.keys.Nodup
  keys_eq : picked.keys = (ks.filter fun k => k ∈ entries.keys).eraseDups
  get?_eq : ∀ k ∈ picked.keys, picked.get? k = entries.get? k

/-- The entries that are found under some names, as often as they are asked for. -/
def found (entries : Keyed α) (ks : List String) : Keyed α :=
  ks.filterMap fun k => (entries.get? k).map fun a => (k, a)

theorem found_cons (entries : Keyed α) (k : String) (ks : List String) :
    entries.found (k :: ks) =
      match entries.get? k with
      | some a => (k, a) :: entries.found ks
      | none => entries.found ks := by
  rw [found, List.filterMap_cons]
  cases entries.get? k <;> rfl

theorem keys_found (entries : Keyed α) (ks : List String) :
    (entries.found ks).keys = ks.filter fun k => k ∈ entries.keys := by
  induction ks with
  | nil => rfl
  | cons k ks ih =>
      rw [found_cons]
      cases hk : entries.get? k with
      | none => rw [List.filter_cons_of_neg (by simpa using get?_eq_none_iff.1 hk), ih]
      | some a =>
          have hmem : k ∈ entries.keys := by
            by_contra hnot
            rw [get?_eq_none_iff.2 hnot] at hk
            cases hk
          rw [List.filter_cons_of_pos (by simpa using hmem), keys_cons, ih]

theorem get?_found (entries : Keyed α) (ks : List String) (name : String) :
    (entries.found ks).get? name = if name ∈ ks then entries.get? name else none := by
  induction ks with
  | nil => rfl
  | cons k ks ih =>
      rw [found_cons]
      by_cases hname : k = name
      · subst hname
        cases hk : entries.get? k with
        | none => simp [ih, hk]
        | some a => simp [get?]
      · cases hk : entries.get? k with
        | none => simp [ih, Ne.symm hname]
        | some a => simp [get?, ih, hname, Ne.symm hname]

/-- Entries that are found again are the same, so it does not matter which of them counts. -/
theorem get?_ofList_found (entries : Keyed α) (ks : List String) (name : String) :
    (ofList (entries.found ks)).get? name = if name ∈ ks then entries.get? name else none := by
  have hreverse : (entries.found ks).reverse = entries.found ks.reverse :=
    List.filterMap_reverse.symm
  rw [get?_ofList, hreverse, get?_found]
  simp

theorem isProjection_found (entries : Keyed α) (ks : List String) :
    IsProjection ks entries (ofList (entries.found ks)) where
  nodup := nodup_keys_ofList _
  keys_eq := by rw [keys_ofList, keys_found]
  get?_eq k hk := by
    rw [keys_ofList, keys_found, List.mem_eraseDups] at hk
    rw [get?_ofList_found, if_pos (List.mem_of_mem_filter hk)]

theorem found_found (entries : Keyed α) (ks ls : List String) :
    (ofList (entries.found ks)).found ls = entries.found (ls.filter fun k => k ∈ ks) := by
  rw [show entries.found (ls.filter fun k => k ∈ ks) = _ from List.filterMap_filter]
  refine List.filterMap_congr fun k _ => ?_
  rw [get?_ofList_found]
  by_cases hk : k ∈ ks <;> simp [hk]

end Keyed

namespace Items

theorem pick_object (ks : List String) (entries : Keyed Value) :
    pick ks (.object entries) = .object (Keyed.ofList (entries.found ks)) :=
  rfl

theorem pick_pick (ks ls : List String) (v : Value) :
    pick ls (pick ks v) = pick (ls.filter fun k => k ∈ ks) v := by
  cases v with
  | object entries => rw [pick_object, pick_object, pick_object, Keyed.found_found]
  | _ => rfl

/-- What `pick` makes of a value: of a list, what it makes of the items. -/
def pickEach (ks : List String) : Value → Value
  | .array items => .array (items.map (pick ks))
  | v => pick ks v

theorem pickEach_pickEach (ks ls : List String) (v : Value) :
    pickEach ls (pickEach ks v) = pickEach (ls.filter fun k => k ∈ ks) v := by
  cases v with
  | array items => simp [pickEach, pick_pick]
  | object entries => exact pick_pick ks ls (.object entries)
  | _ => rfl

/-- An object is replaced by its projection, and anything else stays. -/
def IsPicked (ks : List String) : Value → Value → Prop
  | .object entries, w => ∃ picked, w = .object picked ∧ Keyed.IsProjection ks entries picked
  | v, w => w = v

theorem isPicked_pick (ks : List String) (v : Value) : IsPicked ks v (pick ks v) := by
  cases v with
  | object entries => exact ⟨_, rfl, Keyed.isProjection_found entries ks⟩
  | _ => rfl

end Items

namespace StageFunction

variable {ks : List String}

theorem apply_pick_of_keys (nested : Nested) (v : Value) (h : ks ≠ []) :
    pick.apply nested v (.keys ks) = pure (Items.pickEach ks v) := by
  obtain ⟨k, ks, rfl⟩ := List.exists_cons_of_ne_nil h
  cases v <;> rfl

/-- The stage `pick` is a projection. -/
theorem pick_projects (nested : Nested) (hks : ks ≠ []) :
    (∀ entries, ∃ picked, pick.apply nested (.object entries) (.keys ks) = pure (.object picked) ∧
      Keyed.IsProjection ks entries picked) ∧
    (∀ v : Value, v.object? = none → v.array? = none →
      pick.apply nested v (.keys ks) = pure v) ∧
    (∀ items, ∃ picked, pick.apply nested (.array items) (.keys ks) = pure (.array picked) ∧
      picked.length = items.length ∧ List.Forall₂ (Items.IsPicked ks) items picked) ∧
    ∀ v ls, (ls.filter fun k => k ∈ ks) ≠ [] →
      (pick.apply nested v (.keys ks) >>= fun w => pick.apply nested w (.keys ls)) =
        pick.apply nested v (.keys (ls.filter fun k => k ∈ ks)) := by
  refine ⟨fun entries => ?_, fun v hobject harray => ?_, fun items => ?_, fun v ls hls => ?_⟩
  · exact ⟨_, apply_pick_of_keys nested (.object entries) hks, Keyed.isProjection_found entries ks⟩
  · rw [apply_pick_of_keys nested v hks]
    cases v with
    | array items => cases harray
    | object entries => cases hobject
    | _ => rfl
  · refine ⟨_, apply_pick_of_keys nested (.array items) hks, List.length_map _, ?_⟩
    exact List.forall₂_map_right_iff.2 (List.forall₂_same.2 fun v _ => Items.isPicked_pick ks v)
  · have hne : ls ≠ [] := by
      rintro rfl
      exact hls rfl
    rw [apply_pick_of_keys nested v hks, apply_pick_of_keys nested v hls, pure_bind,
      apply_pick_of_keys nested _ hne,
      Items.pickEach_pickEach]

/-- Keys that are asked for twice, one of them null and one not there, of an object that stands
between what is none, and two keys of these again. -/
theorem pick_projects_of_repeated :
    let nested : Nested := ⟨fun _ _ => Run.outOfDepth, fun _ _ => Run.outOfDepth⟩
    let entries := [("a", Value.null), ("b", .bool true), ("c", .string "x")]
    let ks := ["c", "x", "a", "c"]
    let items := [Value.object entries, .missing, .array [.object entries]]
    ks ≠ [] ∧
    (∃ picked, pick.apply nested (.array items) (.keys ks) = pure (.array picked) ∧
      List.Forall₂ (Items.IsPicked ks) items picked) ∧
    (∃ picked, pick.apply nested (.object entries) (.keys ks) = pure (.object picked) ∧
      Keyed.keys picked = ["c", "a"] ∧ Keyed.get? picked "a" = some .null) ∧
    (pick.apply nested (.array items) (.keys ks) >>=
      fun w => pick.apply nested w (.keys ["b", "a", "a"])) =
        pick.apply nested (.array items) (.keys ["a", "a"]) := by
  intro nested entries ks items
  have hks : ks ≠ [] := List.cons_ne_nil _ _
  obtain ⟨hobject, -, hlist, hcompose⟩ := pick_projects nested hks
  refine ⟨hks, ?_, ?_, ?_⟩
  · obtain ⟨picked, happly, -, hpicked⟩ := hlist items
    exact ⟨picked, happly, hpicked⟩
  · obtain ⟨picked, happly, -, hkeys, hget⟩ := hobject entries
    have hnames : Keyed.keys picked = ["c", "a"] := hkeys.trans (by decide)
    exact ⟨picked, happly, hnames, (hget "a" (by simp [hnames])).trans rfl⟩
  · exact hcompose (.array items) ["b", "a", "a"] (by decide)

end StageFunction

end Sluice
