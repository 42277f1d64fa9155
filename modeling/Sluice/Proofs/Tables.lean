import Mathlib.Data.List.Induction
import Sluice.Keyed

/-!
# Writing tables

A name keeps the place where it first came and has what was last written to it, and these two
things are all that there is to a table whose names are distinct. Writing one table into another is
associative: it makes no difference whether the entries are written one by one or are made a table
before.
-/
namespace Sluice.Keyed

variable {α β : Type} {t u : Keyed α} {k k' name : String}

/-! ## Tables of entries -/

theorem extend_append (t : Keyed α) (entries entries' : List (String × α)) :
    t.extend (entries ++ entries') = (t.extend entries).extend entries' :=
  List.foldl_append

theorem ofList_concat (entries : List (String × α)) (e : String × α) :
    ofList (entries ++ [e]) = (ofList entries).insert e.1 e.2 :=
  extend_append [] entries [e]

/-- A name keeps the place where it first came. -/
theorem keys_ofList (entries : List (String × α)) :
    (ofList entries).keys = (keys entries).eraseDups := by
  induction entries using List.reverseRecOn with
  | nil => rfl
  | append_singleton entries e ih =>
      obtain ⟨k, a⟩ := e
      have hone : [k].eraseDups = [k] := rfl
      rw [ofList_concat, keys_insert, ih, keys_append, List.eraseDups_append]
      by_cases hk : k ∈ keys entries
      · simp [hk, List.removeAll]
      · simp [hk, List.removeAll, hone]

/-- A name has the value that was last given to it. -/
theorem get?_ofList (entries : List (String × α)) (name : String) :
    (ofList entries).get? name = get? entries.reverse name := by
  induction entries using List.reverseRecOn with
  | nil => rfl
  | append_singleton entries e ih =>
      obtain ⟨k, a⟩ := e
      rw [ofList_concat, get?_insert, ih, List.reverse_append]
      rfl

theorem get?_map (f : α → β) (t : Keyed α) (name : String) :
    get? (t.map fun e => (e.1, f e.2)) name = (t.get? name).map f := by
  induction t with
  | nil => rfl
  | cons e t ih =>
      obtain ⟨k, a⟩ := e
      simp only [List.map_cons, get?, ih]
      split <;> rfl

/-- A table whose names are distinct is known by its names, in order, and by what they have. -/
theorem eq_of_get?_eq {t t' : Keyed α} (hnodup : t.keys.Nodup) (hkeys : t.keys = t'.keys)
    (h : ∀ name, t.get? name = t'.get? name) : t = t' := by
  induction t generalizing t' with
  | nil =>
      symm
      simpa [keys] using hkeys.symm
  | cons e t ih =>
      obtain ⟨k, a⟩ := e
      cases t' with
      | nil => simp at hkeys
      | cons e' t' =>
          obtain ⟨k', a'⟩ := e'
          simp only [keys_cons, List.cons.injEq] at hkeys
          obtain ⟨rfl, hkeys⟩ := hkeys
          obtain ⟨hk, hnodup⟩ := List.nodup_cons.1 hnodup
          have ha := h k
          simp only [get?, if_true, Option.some.injEq] at ha
          subst ha
          congr 1
          refine ih hnodup hkeys fun name => ?_
          by_cases hname : k = name
          · subst hname
            rw [get?_eq_none_iff.2 hk, get?_eq_none_iff.2 (hkeys ▸ hk)]
          · simpa [get?, hname] using h name

/-! ## One table written into another -/

theorem keys_extend (h : t.keys.Nodup) (u : Keyed α) :
    (t.extend u).keys = (t.keys ++ u.keys).eraseDups := by
  have hwritten : t.extend u = ofList (t ++ u) := by
    rw [ofList, extend_append]
    exact congrArg (extend · u) (ofList_eq_self h).symm
  rw [hwritten, keys_ofList, keys_append]

theorem get?_extend (t : Keyed α) (h : u.keys.Nodup) (name : String) :
    (t.extend u).get? name = (u.get? name).or (t.get? name) := by
  induction u generalizing t with
  | nil => rfl
  | cons e u ih =>
      obtain ⟨k, a⟩ := e
      obtain ⟨hk, hu⟩ := List.nodup_cons.1 h
      have hrest : extend t ((k, a) :: u) = (t.insert k a).extend u := rfl
      rw [hrest, ih _ hu, get?_insert, get?]
      by_cases hname : k = name
      · subst hname
        simp [get?_eq_none_iff.2 hk]
      · simp [hname]

theorem insert_insert (t : Keyed α) (k : String) (a b : α) :
    (t.insert k a).insert k b = t.insert k b := by
  induction t with
  | nil => simp [insert]
  | cons e t ih =>
      obtain ⟨k', v⟩ := e
      by_cases hk : k' = k <;> simp [insert, hk, ih]

/-- A name that is there has its place, so other names can be written before or after it. -/
theorem insert_comm (hk : k ∈ t.keys) (hne : k ≠ k') (a b : α) :
    (t.insert k a).insert k' b = (t.insert k' b).insert k a := by
  induction t with
  | nil => cases hk
  | cons e t ih =>
      obtain ⟨k₀, v⟩ := e
      by_cases h : k₀ = k
      · subst h
        simp [insert, hne]
      · have hmem : k ∈ keys t := by simpa [Ne.symm h] using hk
        by_cases h' : k₀ = k'
        · subst h'
          simp [insert, h]
        · simp [insert, h, h', ih hmem]

theorem extend_insert_of_mem (ht : k ∈ t.keys) (hu : k ∉ u.keys) (a : α) :
    (t.insert k a).extend u = (t.extend u).insert k a := by
  induction u generalizing t with
  | nil => rfl
  | cons e u ih =>
      obtain ⟨k', b⟩ := e
      simp only [keys_cons, List.mem_cons, not_or] at hu
      have hmem : k ∈ (t.insert k' b).keys := by
        rw [keys_insert]
        split
        · exact ht
        · exact List.mem_append_left _ ht
      calc (t.insert k a).extend ((k', b) :: u)
          = ((t.insert k a).insert k' b).extend u := rfl
        _ = ((t.insert k' b).insert k a).extend u := by rw [insert_comm ht hu.1]
        _ = ((t.insert k' b).extend u).insert k a := ih hmem hu.2

theorem extend_insert (t : Keyed α) (h : u.keys.Nodup) (k : String) (a : α) :
    t.extend (u.insert k a) = (t.extend u).insert k a := by
  induction u generalizing t with
  | nil => rfl
  | cons e u ih =>
      obtain ⟨k', b⟩ := e
      obtain ⟨hk', hu⟩ := List.nodup_cons.1 h
      by_cases hk : k' = k
      · subst hk
        have hmem : k' ∈ (t.insert k' b).keys := by
          rw [keys_insert]
          split
          · assumption
          · simp
        rw [insert, if_pos rfl]
        calc t.extend ((k', a) :: u)
            = ((t.insert k' b).insert k' a).extend u := by rw [insert_insert]; rfl
          _ = (t.extend ((k', b) :: u)).insert k' a := extend_insert_of_mem hmem hk' a
      · rw [insert, if_neg hk]
        exact ih _ hu

/-- Writing tables into each other is associative. -/
theorem extend_extend (t : Keyed α) (hu : u.keys.Nodup) (entries : List (String × α)) :
    t.extend (u.extend entries) = (t.extend u).extend entries := by
  induction entries generalizing u with
  | nil => rfl
  | cons e entries ih =>
      calc t.extend ((u.insert e.1 e.2).extend entries)
          = (t.extend (u.insert e.1 e.2)).extend entries := ih (nodup_keys_insert u _ _ hu)
        _ = ((t.extend u).insert e.1 e.2).extend entries := by rw [extend_insert t hu]

end Sluice.Keyed
