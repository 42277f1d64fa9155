import Sluice.Proofs.JsonReading
import Sluice.Proofs.Numbers
import Sluice.Value.Coercion

/-!
# Values, written as JSON and read

A value comes back from its canonical document, and from the text of the document, with null in
place of all that JSON cannot say. Numbers come back as equal numbers, a safe integer by way of its
digits, and objects with their entries in order.
-/
namespace Sluice

open Sluice.Text Sluice.Decimal

namespace Value

/-! ## Identity with the order of entries -/

mutual

/-- Structural identity that also sees the order of entries. -/
def alike : Value → Value → Bool
  | .null, .null => true
  | .missing, .missing => true
  | .bool a, .bool b => a == b
  | .number x, .number y => x == y
  | .string s, .string t => s == t
  | .array xs, .array ys => alikeItems xs ys
  | .object xs, .object ys => alikeEntries xs ys
  | _, _ => false

def alikeItems : List Value → List Value → Bool
  | [], [] => true
  | x :: xs, y :: ys => x.alike y && alikeItems xs ys
  | _, _ => false

def alikeEntries : List (String × Value) → List (String × Value) → Bool
  | [], [] => true
  | (k, x) :: xs, (l, y) :: ys => k == l && x.alike y && alikeEntries xs ys
  | _, _ => false

end

theorem length_of_alikeEntries {xs ys : List (String × Value)} (h : alikeEntries xs ys = true) :
    xs.length = ys.length := by
  match xs, ys with
  | [], [] => rfl
  | (k, x) :: xs, (l, y) :: ys =>
      simp only [alikeEntries, Bool.and_eq_true] at h
      simp only [List.length_cons, length_of_alikeEntries h.2]

mutual

/-- Values that are alike are identical. -/
theorem same_of_alike {v w : Value} (hw : w.WellFormed) (h : v.alike w = true) :
    v.same w = true := by
  match v, w with
  | .null, .null => rfl
  | .missing, .missing => rfl
  | .bool a, .bool b => exact h
  | .number x, .number y => exact h
  | .string s, .string t => exact h
  | .array xs, .array ys =>
      simp only [alike] at h
      simp only [same, sameItems_of_alike hw h]
  | .object xs, .object ys =>
      simp only [alike] at h
      have hentries := sameEntries_of_alike [] hw.2 hw.1 h
      rw [List.nil_append] at hentries
      simp only [same, length_of_alikeEntries h, hentries, beq_self_eq_true, Bool.and_self]

theorem sameItems_of_alike {xs ys : List Value} (hys : allWellFormed ys)
    (h : alikeItems xs ys = true) : sameItems xs ys = true := by
  match xs, ys with
  | [], [] => rfl
  | x :: xs, y :: ys =>
      simp only [alikeItems, Bool.and_eq_true] at h
      simp only [sameItems, same_of_alike hys.1 h.1, sameItems_of_alike hys.2 h.2, Bool.and_self]

/-- The entries are found behind others with different names. -/
theorem sameEntries_of_alike (before : Keyed Value) {xs ys : Keyed Value}
    (hys : entriesWellFormed ys) (hkeys : (before ++ ys).keys.Nodup)
    (h : alikeEntries xs ys = true) : sameEntries xs (before ++ ys) = true := by
  match xs, ys with
  | [], [] => rfl
  | (k, x) :: xs, (l, y) :: ys =>
      simp only [alikeEntries, Bool.and_eq_true, beq_iff_eq] at h
      obtain ⟨⟨rfl, hx⟩, hrest⟩ := h
      have hfree : k ∉ before.keys := by
        rw [Keyed.keys_append] at hkeys
        exact fun hmem => (List.nodup_append.1 hkeys).2.2 k hmem k (by simp) rfl
      have hget : Keyed.get? (before ++ (k, y) :: ys) k = some y := by
        rw [Keyed.get?_append_of_not_mem hfree]
        simp [Keyed.get?]
      have hmore : sameEntries xs ((before ++ [(k, y)]) ++ ys) = true :=
        sameEntries_of_alike (before ++ [(k, y)]) hys.2 (by simpa [Keyed.keys] using hkeys) hrest
      rw [List.append_assoc] at hmore
      simp only [sameEntries, hget, same_of_alike hys.1 hx, Bool.true_and]
      exact hmore

end

theorem keys_normalizedEntries (entries : Keyed Value) :
    Keyed.keys (normalizedEntries entries) = entries.keys := by
  match entries with
  | [] => rfl
  | (k, v) :: rest =>
      simp only [normalizedEntries, Keyed.keys_cons, keys_normalizedEntries rest]

mutual

theorem wellFormed_normalized {v : Value} (hv : v.WellFormed) : v.normalized.WellFormed := by
  match v with
  | .null => trivial
  | .missing => trivial
  | .bool b => trivial
  | .number x =>
      simp only [normalized]
      split <;> trivial
  | .string s => trivial
  | .array items => exact allWellFormed_normalized hv
  | .object entries =>
      refine ⟨?_, entriesWellFormed_normalized hv.2⟩
      rw [keys_normalizedEntries]
      exact hv.1

theorem allWellFormed_normalized {items : List Value} (hitems : allWellFormed items) :
    allWellFormed (normalizedItems items) := by
  match items with
  | [] => trivial
  | v :: rest => exact ⟨wellFormed_normalized hitems.1, allWellFormed_normalized hitems.2⟩

theorem entriesWellFormed_normalized {entries : Keyed Value}
    (hentries : entriesWellFormed entries) : entriesWellFormed (normalizedEntries entries) := by
  match entries with
  | [] => trivial
  | (k, v) :: rest =>
      exact ⟨wellFormed_normalized hentries.1, entriesWellFormed_normalized hentries.2⟩

end

/-! ## Documents of values -/

/-- A number is written as an integer, as floating-point, or not at all. -/
theorem numberJson_cases (x : Float) :
    (∃ n, Number.safeInt? x = some n ∧ x.isFinite = true ∧ numberJson x = .int n) ∨
      (Number.safeInt? x = none ∧ x.isFinite = true ∧ numberJson x = .float x) ∨
      (x.isFinite = false ∧ numberJson x = .null) := by
  unfold numberJson
  cases h : Number.safeInt? x with
  | some n => exact .inl ⟨n, rfl, isFinite_of_safeInt? h, rfl⟩
  | none =>
      cases hx : x.isFinite with
      | true => exact .inr (.inl ⟨rfl, rfl, rfl⟩)
      | false => exact .inr (.inr ⟨rfl, rfl⟩)

theorem alike_numberJson (x : Number) :
    (ofJson (numberJson x)).alike (number x).normalized = true := by
  rcases numberJson_cases x with ⟨n, hn, hx, he⟩ | ⟨-, hx, he⟩ | ⟨hx, he⟩
  · simpa [he, ofJson, normalized, Number.isFinite, Number.beq_eq, hx, alike] using
      ofInt_beq_of_safeInt? hn
  · simpa [he, ofJson, normalized, Number.isFinite, Number.beq_eq, hx, alike] using
      beq_self_of_isFinite hx
  · simp [he, ofJson, normalized, Number.isFinite, hx, alike]

theorem keys_ofMembers_entriesJson (entries : Keyed Value) :
    Keyed.keys (ofMembers (entriesJson entries)) = entries.keys := by
  match entries with
  | [] => rfl
  | (k, v) :: rest =>
      simp only [entriesJson, ofMembers, Keyed.keys_cons, keys_ofMembers_entriesJson rest]

mutual

/-- The document of a value is of the value with null for what JSON cannot say. -/
theorem alike_ofJson_toJson {v : Value} (hv : v.WellFormed) :
    (ofJson v.toJson).alike v.normalized = true := by
  match v with
  | .null => rfl
  | .missing => rfl
  | .bool b => exact beq_self_eq_true b
  | .number x => exact alike_numberJson x
  | .string s => exact beq_self_eq_true s
  | .array items => exact alikeItems_ofItems hv
  | .object entries =>
      have hkeys : (Keyed.keys (ofMembers (entriesJson entries))).Nodup := by
        rw [keys_ofMembers_entriesJson]
        exact hv.1
      simp only [toJson, ofJson, Keyed.ofList_eq_self hkeys, normalized, alike]
      exact alikeEntries_ofMembers hv.2

theorem alikeItems_ofItems {items : List Value} (hitems : allWellFormed items) :
    alikeItems (ofItems (itemsJson items)) (normalizedItems items) = true := by
  match items with
  | [] => rfl
  | v :: rest =>
      simp only [itemsJson, ofItems, normalizedItems, alikeItems, alike_ofJson_toJson hitems.1,
        alikeItems_ofItems hitems.2, Bool.and_self]

theorem alikeEntries_ofMembers {entries : Keyed Value} (hentries : entriesWellFormed entries) :
    alikeEntries (ofMembers (entriesJson entries)) (normalizedEntries entries) = true := by
  match entries with
  | [] => rfl
  | (k, v) :: rest =>
      simp only [entriesJson, ofMembers, normalizedEntries, alikeEntries, beq_self_eq_true,
        alike_ofJson_toJson hentries.1, alikeEntries_ofMembers hentries.2, Bool.and_self]

end

mutual

/-- What JSON cannot say leaves no trace in the document. -/
theorem toJson_normalized (v : Value) : v.normalized.toJson = v.toJson := by
  match v with
  | .null => rfl
  | .missing => rfl
  | .bool b => rfl
  | .number x =>
      rcases numberJson_cases x with ⟨n, -, hx, he⟩ | ⟨-, hx, he⟩ | ⟨hx, he⟩ <;>
        simp [normalized, toJson, Number.isFinite, hx, he]
  | .string s => rfl
  | .array items => simp only [normalized, toJson, itemsJson_normalized items]
  | .object entries => simp only [normalized, toJson, entriesJson_normalized entries]

theorem itemsJson_normalized (items : List Value) :
    itemsJson (normalizedItems items) = itemsJson items := by
  match items with
  | [] => rfl
  | v :: rest =>
      simp only [normalizedItems, itemsJson, toJson_normalized v, itemsJson_normalized rest]

theorem entriesJson_normalized (entries : Keyed Value) :
    entriesJson (normalizedEntries entries) = entriesJson entries := by
  match entries with
  | [] => rfl
  | (k, v) :: rest =>
      simp only [normalizedEntries, entriesJson, toJson_normalized v, entriesJson_normalized rest]

end

/-! ## Texts of values -/

mutual

/-- The numbers that are written as floating-point are read back from their text. -/
def FloatsReadBack : Value → Prop
  | .number x => x.isFinite = true → Number.safeInt? x = none → Json.FloatReadsBack x
  | .array items => itemsReadBack items
  | .object entries => entriesReadBack entries
  | _ => True

def itemsReadBack : List Value → Prop
  | [] => True
  | v :: rest => v.FloatsReadBack ∧ itemsReadBack rest

def entriesReadBack : List (String × Value) → Prop
  | [] => True
  | (_, v) :: rest => v.FloatsReadBack ∧ entriesReadBack rest

end

mutual

/-- The document of a value can be read from its text. -/
theorem readable_toJson {v : Value} (hv : v.FloatsReadBack) : v.toJson.Readable := by
  match v with
  | .null => trivial
  | .missing => trivial
  | .bool b => trivial
  | .number x =>
      rcases numberJson_cases x with ⟨n, hn, -, he⟩ | ⟨hn, hx, he⟩ | ⟨-, he⟩
      · obtain ⟨negative, m, q, narrowBelow, -, size, rfl, hlt, -⟩ := parts_of_safeInt? hn
        rw [toJson, he]
        change Json.IsWord _
        unfold Json.IsWord
        split <;> omega
      · rw [toJson, he]
        exact fun _ => hv hx hn
      · rw [toJson, he]
        trivial
  | .string s => trivial
  | .array items => exact itemsReadable_itemsJson hv
  | .object entries => exact membersReadable_entriesJson hv

theorem itemsReadable_itemsJson {items : List Value} (hitems : itemsReadBack items) :
    Json.itemsReadable (itemsJson items) := by
  match items with
  | [] => trivial
  | v :: rest => exact ⟨readable_toJson hitems.1, itemsReadable_itemsJson hitems.2⟩

theorem membersReadable_entriesJson {entries : Keyed Value} (hentries : entriesReadBack entries) :
    Json.membersReadable (entriesJson entries) := by
  match entries with
  | [] => trivial
  | (k, v) :: rest => exact ⟨readable_toJson hentries.1, membersReadable_entriesJson hentries.2⟩

end

mutual

/-- The text of the document says all of it. -/
theorem written_toJson (v : Value) : v.toJson.written = v.toJson := by
  match v with
  | .null => rfl
  | .missing => rfl
  | .bool b => rfl
  | .number x =>
      rcases numberJson_cases x with ⟨n, -, hx, he⟩ | ⟨-, hx, he⟩ | ⟨hx, he⟩ <;>
        simp [toJson, he, Json.written, hx]
  | .string s => rfl
  | .array items => simp only [toJson, Json.written, writtenItems_itemsJson items]
  | .object entries => simp only [toJson, Json.written, writtenMembers_entriesJson entries]

theorem writtenItems_itemsJson (items : List Value) :
    Json.writtenItems (itemsJson items) = itemsJson items := by
  match items with
  | [] => rfl
  | v :: rest =>
      simp only [itemsJson, Json.writtenItems, written_toJson v, writtenItems_itemsJson rest]

theorem writtenMembers_entriesJson (entries : Keyed Value) :
    Json.writtenMembers (entriesJson entries) = entriesJson entries := by
  match entries with
  | [] => rfl
  | (k, v) :: rest =>
      simp only [entriesJson, Json.writtenMembers, written_toJson v,
        writtenMembers_entriesJson rest]

end

/-- The canonical text is read as the document, or refused if the value nests too deep. -/
theorem readJson?_jsonText {v : Value} (hv : v.FloatsReadBack) : readJson? v.jsonText =
    if v.toJson.nesting ≤ Json.depthLimit then some (ofJson v.toJson) else none := by
  rw [readJson?, jsonText, Json.read?_render (readable_toJson hv), written_toJson]
  split <;> rfl

/-- JSON out and back loses only what JSON cannot say. -/
theorem json_roundTrip {v : Value} (hv : v.WellFormed) :
    ((ofJson v.toJson).same v.normalized = true ∧ (ofJson v.toJson).alike v.normalized = true) ∧
    (v.FloatsReadBack → v.toJson.nesting ≤ Json.depthLimit →
      ∃ w, readJson? v.jsonText = some w ∧
        w.same v.normalized = true ∧ w.alike v.normalized = true) ∧
    v.normalized.jsonText = v.jsonText := by
  have halike := alike_ofJson_toJson hv
  have hsame := same_of_alike (wellFormed_normalized hv) halike
  refine ⟨⟨hsame, halike⟩, ?_, congrArg Json.render (toJson_normalized v)⟩
  intro hfloats hnesting
  refine ⟨ofJson v.toJson, ?_, hsame, halike⟩
  rw [readJson?_jsonText hfloats, if_pos hnesting]

/-- A value with numbers of every kind. -/
def mixed : Value :=
  .object
    [("b", .array [.number 0.1, .number (0 / 0), .missing, .number (-3), .number 9007199254740992]),
     ("a", .object [("\"", .string "\n")])]

theorem json_roundTrip_of_mixed :
    mixed.jsonText =
        "\x7b\"b\":[0.1,null,null,-3,9007199254740992.0],\"a\":\x7b\"\\\"\":\"\\n\"\x7d\x7d" ∧
      ∃ w, readJson? mixed.jsonText = some w ∧
        w.same mixed.normalized = true ∧ w.alike mixed.normalized = true := by
  have hfloats : mixed.FloatsReadBack := by
    have hpoint : Json.FloatReadsBack 0.1 :=
      Json.floatReadsBack_of_readNumber (by with_unfolding_all rfl)
    have hlarge : Json.FloatReadsBack 9007199254740992 :=
      Json.floatReadsBack_of_readNumber (by with_unfolding_all rfl)
    have hthree : Number.safeInt? (-3 : Number) = some (-3) := by decide +kernel
    have hnan : (0 / 0 : Number).isFinite = false := by decide +kernel
    refine ⟨⟨fun _ _ => hpoint, ?_, trivial, ?_, fun _ _ => hlarge, trivial⟩,
      ⟨trivial, trivial⟩, trivial⟩
    · intro h
      rw [hnan] at h
      cases h
    · intro _ h
      rw [hthree] at h
      cases h
  have hwf : mixed.WellFormed := by
    simp [mixed, WellFormed, allWellFormed, entriesWellFormed, Keyed.keys]
  exact ⟨by decide +kernel, (json_roundTrip hwf).2.1 hfloats (by decide)⟩

end Value

end Sluice
