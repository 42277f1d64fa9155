/-!
# Ordered tables

A table lists its entries in the order in which their names first came. Writing to a name
that is there keeps its place and replaces its value; a new name goes to the end. Objects,
template bindings and the memo of paths are tables.
-/
namespace Sluice

/-- Named entries in order. The operations below keep the names distinct. -/
abbrev Keyed (α : Type u) := List (String × α)

namespace Keyed

def keys (t : Keyed α) : List String :=
  t.map Prod.fst

def values (t : Keyed α) : List α :=
  t.map Prod.snd

/-- The entry of a name. -/
def get? : Keyed α → String → Option α
  | [], _ => none
  | (k, v) :: rest, name => if k = name then some v else get? rest name

/-- Writes a name: in its place if it is there, at the end if not. -/
def insert : Keyed α → String → α → Keyed α
  | [], name, a => [(name, a)]
  | (k, v) :: rest, name, a =>
      if k = name then (k, a) :: rest else (k, v) :: insert rest name a

/-- Writes all entries of the second table into the first, in order. -/
def extend (t entries : Keyed α) : Keyed α :=
  entries.foldl (fun t e => t.insert e.1 e.2) t

/-- The table made of a list of entries, the last one of each name counting. -/
def ofList (entries : List (String × α)) : Keyed α :=
  extend [] entries

@[simp] theorem get?_nil (name : String) : get? ([] : Keyed α) name = none := rfl

@[simp] theorem keys_nil : keys ([] : Keyed α) = [] := rfl

@[simp] theorem keys_cons (k : String) (v : α) (t : Keyed α) :
    keys ((k, v) :: t) = k :: keys t := rfl

theorem mem_of_get? {t : Keyed α} {name : String} {a : α} (h : t.get? name = some a) :
    (name, a) ∈ t := by
  induction t with
  | nil => simp at h
  | cons e t ih =>
      simp only [get?] at h
      split at h
      · next hk =>
          cases h
          simp [← hk]
      · exact List.mem_cons_of_mem e (ih h)

theorem get?_eq_none_iff {t : Keyed α} {name : String} : t.get? name = none ↔ name ∉ t.keys := by
  induction t with
  | nil => simp
  | cons e t ih =>
      obtain ⟨k, v⟩ := e
      by_cases hk : k = name
      · simp [get?, hk]
      · simp [get?, hk, Ne.symm hk, ih]

theorem mem_of_mem_insert {t : Keyed α} {k : String} {a : α} {e : String × α}
    (h : e ∈ t.insert k a) : e = (k, a) ∨ e ∈ t := by
  induction t with
  | nil => exact .inl (List.mem_singleton.1 h)
  | cons e' t ih =>
      simp only [insert] at h
      split at h
      · next hk =>
          rcases List.mem_cons.1 h with rfl | h
          · exact .inl (by rw [hk])
          · exact .inr (List.mem_cons_of_mem e' h)
      · rcases List.mem_cons.1 h with rfl | h
        · exact .inr (List.mem_cons_self ..)
        · exact (ih h).imp_right (List.mem_cons_of_mem e')

theorem get?_insert (t : Keyed α) (k name : String) (a : α) :
    (t.insert k a).get? name = if k = name then some a else t.get? name := by
  induction t with
  | nil => simp [insert, get?]
  | cons e t ih =>
      obtain ⟨k', v⟩ := e
      by_cases h : k' = k <;> by_cases hn : k' = name <;> by_cases hk : k = name <;>
        simp_all [insert, get?]

theorem keys_insert (t : Keyed α) (k : String) (a : α) :
    (t.insert k a).keys = if k ∈ t.keys then t.keys else t.keys ++ [k] := by
  induction t with
  | nil => simp [insert, keys]
  | cons e t ih =>
      obtain ⟨k', v⟩ := e
      by_cases h : k' = k
      · simp [insert, h]
      · have h' : k ≠ k' := Ne.symm h
        simp only [insert, h, if_false, keys_cons, ih, List.mem_cons, h', false_or]
        split <;> simp

theorem nodup_keys_insert (t : Keyed α) (k : String) (a : α) (h : t.keys.Nodup) :
    (t.insert k a).keys.Nodup := by
  rw [keys_insert]
  split
  · exact h
  · next hk =>
      refine List.nodup_append.2 ⟨h, by simp, ?_⟩
      intro x hx y hy
      simp only [List.mem_singleton] at hy
      rintro rfl
      exact hk (hy ▸ hx)

theorem nodup_keys_extend (entries t : Keyed α) (h : t.keys.Nodup) :
    (t.extend entries).keys.Nodup := by
  induction entries generalizing t with
  | nil => exact h
  | cons e entries ih => exact ih _ (nodup_keys_insert t e.1 e.2 h)

theorem get?_append_of_not_mem {t : Keyed α} {name : String} (h : name ∉ t.keys) (rest : Keyed α) :
    get? (t ++ rest) name = rest.get? name := by
  induction t with
  | nil => rfl
  | cons e t ih =>
      obtain ⟨k, v⟩ := e
      simp only [keys_cons, List.mem_cons, not_or] at h
      simp only [List.cons_append, get?, Ne.symm h.1, if_false, ih h.2]

theorem insert_of_not_mem {t : Keyed α} {name : String} (h : name ∉ t.keys) (a : α) :
    t.insert name a = t ++ [(name, a)] := by
  induction t with
  | nil => rfl
  | cons e t ih =>
      obtain ⟨k, v⟩ := e
      simp only [keys_cons, List.mem_cons, not_or] at h
      simp only [insert, Ne.symm h.1, if_false, ih h.2, List.cons_append]

theorem keys_append (t t' : Keyed α) : keys (t ++ t') = keys t ++ keys t' :=
  List.map_append

theorem extend_eq_append (entries t : Keyed α) (h : (keys (t ++ entries)).Nodup) :
    t.extend entries = t ++ entries := by
  induction entries generalizing t with
  | nil => exact (List.append_nil t).symm
  | cons e entries ih =>
      have hassoc : t ++ e :: entries = (t ++ [e]) ++ entries := by simp
      have hfree : e.1 ∉ t.keys := by
        rw [keys_append] at h
        exact fun hmem => (List.nodup_append.1 h).2.2 e.1 hmem e.1 (by simp [keys]) rfl
      rw [hassoc] at h ⊢
      rw [← ih (t ++ [e]) h, ← insert_of_not_mem hfree]
      rfl

/-- A table is what is made of its entries. -/
theorem ofList_eq_self {entries : List (String × α)} (h : (keys entries).Nodup) :
    ofList entries = entries :=
  extend_eq_append entries [] h

theorem nodup_keys_ofList (entries : List (String × α)) : (ofList entries).keys.Nodup :=
  nodup_keys_extend entries [] (by simp)

end Keyed

end Sluice
