import Sluice.Proofs.RootPath
import Sluice.Proofs.Tables

/-!
# Tables of fields

The argument of `map` can be a table: keys, each with an expression, between braces. Two scans cut
it, one at the commas and one at the colon of each entry. Neither cuts inside of the quoted keys,
nor inside of an expression whose quotes and brackets are closed, so the table is read as the fields
that it was written from. A key that is given again keeps its place and takes the later expression.
-/
namespace Sluice

open Sluice.Text Sluice.Pipeline

namespace Pipeline

variable {sep : Char} {cs : List Char} {d : Int} {n : Nat}

/-- A text whose quotes are closed and whose brackets are properly nested. A separator, if there
is one to be avoided, stands in it only inside of quotes and brackets. -/
inductive Undivided : (avoided : Option Char) → List Char → Prop where
  | nil {avoided : Option Char} : Undivided avoided []
  | char {avoided : Option Char} {c : Char} {cs : List Char} (hquote : isQuote c = false)
      (hopening : isOpening c = false) (hclosing : isClosing c = false) (hc : avoided ≠ some c)
      (h : Undivided avoided cs) : Undivided avoided (c :: cs)
  | quoted {avoided : Option Char} {q : Char} {body cs : List Char} (hq : isQuote q = true)
      (hbody : InQuotes q body) (h : Undivided avoided cs) :
      Undivided avoided (q :: (body ++ q :: cs))
  | group {avoided : Option Char} {opening closing : Char} {inner cs : List Char}
      (hpair : (opening, closing) ∈ bracketPairs) (hinner : Undivided none inner)
      (h : Undivided avoided cs) : Undivided avoided (opening :: (inner ++ closing :: cs))

theorem carried_of_not_cut {c : Char} (hquote : isQuote c = false) (hopening : isOpening c = false)
    (hclosing : isClosing c = false) (hcut : ¬ (c = sep ∧ d ≤ 0)) :
    Carried sep ⟨d, n, none⟩ [c] ⟨d, n, none⟩ :=
  ⟨uncut_of_not_cut hquote hopening hclosing hcut, fun _ => balancedFrom_cons_of_not hquote
    (ne_of_isOpening_eq_false hopening) (ne_of_isClosing_eq_false hclosing)⟩

/-- Inside of brackets, or where it avoids the separator, such a text is not cut. -/
theorem Undivided.carried {avoided : Option Char} (h : Undivided avoided cs) (hd : 0 ≤ d)
    (havoided : avoided = some sep ∨ 0 < d) : Carried sep ⟨d, n, none⟩ cs ⟨d, n, none⟩ := by
  induction h generalizing d n with
  | nil => exact .nil
  | @char _ c _ hquote hopening hclosing hc _ ih =>
      have hcut : ¬ (c = sep ∧ d ≤ 0) := by
        rintro ⟨rfl, hle⟩
        exact havoided.elim hc fun hlt => by omega
      exact (carried_of_not_cut hquote hopening hclosing hcut).cons (ih hd havoided)
  | quoted hq hbody _ ih =>
      exact (carried_openQuote hq).cons
        (hbody.carried.append ((carried_closeQuote hq).cons (ih hd havoided)))
  | group hpair _ _ ihinner ih =>
      have hinner (n : Nat) := ihinner (n := n) (show 0 ≤ d + 1 by omega) (.inr (by omega))
      simpa using (carried_group hpair hinner).append (ih hd havoided)

end Pipeline

/-! ## Fields and their texts -/

/-- The key in double quotes, a colon, and the expression. -/
def fieldText (field : String × String) : String :=
  "\"" ++ field.1 ++ "\": " ++ field.2

/-- Fields with commas between them and braces around them. -/
def tableText (fields : List (String × String)) : String :=
  "\x7b" ++ ", ".intercalate (fields.map fieldText) ++ "\x7d"

/-- The key can be written between double quotes as it is, and the expression is a text without
blanks around it that is not cut at commas. -/
structure IsField (field : String × String) : Prop where
  keyNonempty : field.1 ≠ ""
  keyNoQuote : '"' ∉ field.1.toList
  keyNoSlash : '\\' ∉ field.1.toList
  exprNonempty : field.2 ≠ ""
  exprTrimmed : trimmed field.2 = field.2
  exprUndivided : Undivided (some ',') field.2.toList

variable {field : String × String} {fields : List (String × String)}

theorem toList_fieldText (field : String × String) :
    (fieldText field).toList =
      '"' :: (field.1.toList ++ ['"']) ++ ':' :: ' ' :: field.2.toList := by
  simp [fieldText]

theorem toList_tableText (fields : List (String × String)) :
    (tableText fields).toList =
      '\x7b' :: ((", ".intercalate (fields.map fieldText)).toList ++ ['\x7d']) := by
  simp [tableText]

namespace IsField

theorem trim_expr (h : IsField field) : trim field.2.toList = field.2.toList := by
  rw [← toList_trimmed, h.exprTrimmed]

theorem trim_fieldText (h : IsField field) :
    trim (fieldText field).toList = (fieldText field).toList := by
  refine trim_eq_self ?_ ?_
  · rw [toList_fieldText]
    intro c hc
    cases hc
    decide
  · have hexpr : field.2.toList ≠ [] := by simpa using h.exprNonempty
    have hlast : (fieldText field).toList.getLast? = field.2.toList.getLast? := by
      obtain ⟨c, cs, hcs⟩ := List.exists_cons_of_ne_nil hexpr
      simp [toList_fieldText, hcs, List.getLast?_append, List.getLast?_cons]
    rw [hlast, ← h.trim_expr]
    exact getLast?_trimEnd _

theorem carried (h : IsField field) {sep : Char} {d : Int} {n : Nat} (hcolon : IsPlain sep ':')
    (hspace : IsPlain sep ' ') (hd : 0 ≤ d) (hsep : sep = ',' ∨ 0 < d) :
    Carried sep ⟨d, n, none⟩ (fieldText field).toList ⟨d, n, none⟩ := by
  have hkey : Carried sep ⟨d, n, none⟩ ('"' :: (field.1.toList ++ ['"'])) ⟨d, n, none⟩ :=
    carried_quoted (by decide) h.keyNoSlash h.keyNoQuote
  have hexpr : Carried sep ⟨d, n, none⟩ field.2.toList ⟨d, n, none⟩ :=
    h.exprUndivided.carried hd (hsep.imp_left fun he => by rw [he])
  rw [toList_fieldText]
  exact hkey.append ((carried_of_isPlain hcolon).cons ((carried_of_isPlain hspace).cons hexpr))

/-- The first colon outside of quotes is the one after the key, whatever colons come later. -/
theorem cutTop_fieldText (h : IsField field) :
    cutTop ':' (fieldText field).toList =
      some ('"' :: (field.1.toList ++ ['"']), ' ' :: field.2.toList) := by
  have hkey : Uncut ':' 0 none ('"' :: (field.1.toList ++ ['"'])) 0 none :=
    (carried_quoted (n := 0) (by decide) h.keyNoSlash h.keyNoQuote).uncut
  have hcolon : partsFrom ':' 0 none (':' :: ' ' :: field.2.toList) =
      [] :: partsFrom ':' 0 none (' ' :: field.2.toList) := by
    simp [partsFrom, isQuote, isOpening, isClosing]
  have hrest := intercalate_partsFrom ':' 0 none (' ' :: field.2.toList)
  obtain ⟨part, others, hparts⟩ :=
    List.exists_cons_of_ne_nil (partsFrom_ne_nil ':' 0 none (' ' :: field.2.toList))
  rw [hparts] at hrest hcolon
  rw [cutTop, parts, toList_fieldText, hkey, hcolon]
  simp [onFirst, hrest]

theorem readField_fieldText (h : IsField field) :
    readField (fieldText field).toList = .ok field := by
  have htrim : trim ('"' :: (field.1.toList ++ ['"'])) = '"' :: (field.1.toList ++ ['"']) :=
    trim_enclosed (by decide) (by decide) field.1.toList
  have hkey : stripQuotes ('"' :: (field.1.toList ++ ['"'])) = field.1.toList :=
    stripQuotes_quoted '"' _ (by decide)
  rw [readField, h.cutTop_fieldText]
  simp [htrim, hkey, h.trim_expr, h.keyNonempty, h.exprNonempty]

end IsField

theorem readFields_fieldTexts (h : ∀ field ∈ fields, IsField field) :
    readFields (fields.map fun field => (fieldText field).toList) = .ok fields := by
  induction fields with
  | nil => rfl
  | cons field fields ih =>
      obtain ⟨hfield, hfields⟩ := List.forall_mem_cons.1 h
      rw [List.map_cons, readFields, hfield.readField_fieldText, ih hfields]

theorem arguments_fieldTexts (h : ∀ field ∈ fields, IsField field) :
    arguments (", ".intercalate (fields.map fieldText)).toList =
      fields.map fun field => (fieldText field).toList := by
  have hcolon : IsPlain ',' ':' := Token.isPlain_of_not_mem (by decide)
  have hspace : IsPlain ',' ' ' := Token.isPlain_of_not_mem (by decide)
  rw [arguments_of_carried, List.map_map]
  · exact List.map_congr_left fun field hfield => (h field hfield).trim_fieldText
  · exact List.forall_mem_map.2 fun field hfield =>
      (h field hfield).carried hcolon hspace (Int.le_refl 0) (.inl rfl)
  · refine List.forall_mem_map.2 fun field hfield => ?_
    rw [(h field hfield).trim_fieldText, toList_fieldText]
    exact List.cons_ne_nil _ _

theorem trim_tableText (fields : List (String × String)) :
    trim (tableText fields).toList = (tableText fields).toList := by
  rw [toList_tableText]
  exact trim_enclosed (by decide) (by decide) _

/-- No entry begins with a brace, so the braces around a table are none of a template. -/
theorem braced?_tableText (fields : List (String × String)) :
    braced? (tableText fields).toList = some (", ".intercalate (fields.map fieldText)).toList := by
  have hhead : ((", ".intercalate (fields.map fieldText)).toList ++ ['\x7d']).head? ≠
      some '\x7b' := by
    cases fields with
    | nil => decide
    | cons field fields =>
        cases fields <;> simp [String.toList_intercalate, toList_fieldText]
  rw [toList_tableText, braced?, if_pos ⟨hhead, by simp⟩, List.dropLast_concat]

theorem readFieldMap_of_isField (h : ∀ field ∈ fields, IsField field) :
    readFieldMap (tableText fields) = .ok (some fields) := by
  rw [readFieldMap, trim_tableText, braced?_tableText]
  dsimp only
  rw [arguments_fieldTexts h, readFields_fieldTexts h]
  rfl

/-! ## Keys that are given again -/

/-- The object has the keys of the fields, each once and in the order in which they first come, and
under each the value of the last expression that is given for it. -/
def IsMade (fields : List (String × String)) (value : String → Value) (made : Value) : Prop :=
  ∃ entries : Keyed Value, made = .object entries ∧
    entries.keys = (fields.map Prod.fst).eraseDups ∧
    ∀ key, entries.get? key = (Keyed.get? fields.reverse key).map value

/-- The fields with the values of their expressions. -/
def valued (fields : List (String × String)) (value : String → Value) : Keyed Value :=
  fields.map fun field => (field.1, value field.2)

theorem keys_valued (fields : List (String × String)) (value : String → Value) :
    (valued fields value).keys = fields.map Prod.fst := by
  simp [valued, Keyed.keys]

theorem isMade_ofList (fields : List (String × String)) (value : String → Value) :
    IsMade fields value (.object (Keyed.ofList (valued fields value))) := by
  refine ⟨_, rfl, ?_, fun key => ?_⟩
  · rw [Keyed.keys_ofList, keys_valued]
  · rw [Keyed.get?_ofList, valued, ← List.map_reverse, Keyed.get?_map]

theorem IsMade.unique {value : String → Value} {made made' : Value} (h : IsMade fields value made)
    (h' : IsMade fields value made') : made = made' := by
  obtain ⟨entries, rfl, hkeys, hget⟩ := h
  obtain ⟨entries', rfl, hkeys', hget'⟩ := h'
  have hnodup : entries.keys.Nodup := by
    have hof := Keyed.nodup_keys_ofList (valued fields value)
    rwa [Keyed.keys_ofList, keys_valued, ← hkeys] at hof
  refine congrArg Value.object (Keyed.eq_of_get?_eq hnodup (hkeys.trans hkeys'.symm) fun key => ?_)
  rw [hget, hget']

/-! ## The stage -/

theorem balanced_tableText (h : ∀ field ∈ fields, IsField field) :
    balanced (tableText fields).toList = true := by
  have hcolon : IsPlain '|' ':' := Token.isPlain_of_not_mem (by decide)
  have hspace : IsPlain '|' ' ' := Token.isPlain_of_not_mem (by decide)
  have hcomma : IsPlain '|' ',' := Token.isPlain_of_not_mem (by decide)
  have hinner (n : Nat) : Carried '|' ⟨0 + 1, n, none⟩
      (", ".intercalate (fields.map fieldText)).toList ⟨0 + 1, n, none⟩ :=
    carried_intercalate hcomma hspace (List.forall_mem_map.2 fun field hfield =>
      (h field hfield).carried hcolon hspace (by decide) (.inr (by decide)))
  have hpair : ('\x7b', '\x7d') ∈ bracketPairs := by decide
  have hbalance := (carried_group (n := 0) hpair hinner).balance []
  rw [toList_tableText]
  simpa [balanced, balancedFrom] using hbalance

theorem trimmed_tableText (fields : List (String × String)) :
    trimmed (tableText fields) = tableText fields := by
  rw [trimmed, trim_tableText, String.ofList_toList]

theorem readStage_mapTable (h : ∀ field ∈ fields, IsField field) :
    readStage (callForm "map" [tableText fields]) =
      .ok ⟨StageFunction.map.name, tableText fields⟩ := by
  have hbalanced : balanced (", ".intercalate [tableText fields]).toList = true := by
    rw [String.intercalate_singleton]
    exact balanced_tableText h
  rw [readStage_of_balanced (by decide) hbalanced, String.intercalate_singleton,
    trimmed_tableText]
  rfl

namespace Run

variable {α β : Type} {b : β}

theorem isInquiry_mapM {f : α → Run β} (hf : ∀ a, (f a).IsInquiry) (items : List α) :
    (items.mapM f).IsInquiry :=
  closed_isInquiry.mapM (f := fun _ => f) items fun a _ => hf a

theorem IsInquiry.exists_gives_of_bind {x : Run α} {f : α → Run β} (hx : x.IsInquiry)
    (h : Gives (x >>= f) b) : ∃ a, Gives x a := by
  have hsound := (PathMemo.holds_fresh true).sound
  obtain ⟨memo', -, hrun⟩ := h _ hsound
  obtain ⟨a, memo₁, ha, -⟩ := bind_eq_some.1 hrun
  exact ⟨a, hx.gives hsound ha⟩

theorem Gives.exists_of_mapM {f : α → Run β} (hf : ∀ a, (f a).IsInquiry) {items : List α}
    {found : List β} (h : Gives (items.mapM f) found) : ∀ a ∈ items, ∃ b, Gives (f a) b := by
  have hsound := (PathMemo.holds_fresh true).sound
  obtain ⟨memo', -, hrun⟩ := h _ hsound
  exact exists_gives_of_mapM hf hsound hrun

end Run

namespace Scope

variable (s : Scope) (depth : Nat) {x : Value}

/-- What `map` is handed for a table. -/
def fieldArguments (fields : List (String × String)) : Arguments :=
  .fields (fields.map fun field => (field.1, .ofText field.2))

theorem runStage_mapTable (h : ∀ field ∈ fields, IsField field) (nested : Nested)
    (input data : Value) :
    s.runStage nested (callForm "map" [tableText fields]) input data =
      StageFunction.map.apply nested input (fieldArguments fields) := by
  have hargs : StageFunction.map.readArgs nested (tableText fields) data =
      pure (fieldArguments fields) := by
    simp [StageFunction.readArgs, trimmed_tableText, readFieldMap_of_isField h, fieldArguments]
  rw [s.runStage_stageFunction (readStage_mapTable h), hargs, pure_bind]

/-- The key of a field and the value of its expression on an element. -/
def fieldValue (x : Value) (field : String × String) : Run (String × Value) := do
  return (field.1, ← s.evaluate depth field.2 x)

theorem mapItem_fields (x : Value) :
    StageFunction.mapItem (s.nestedAt (depth + 1)) (fieldArguments fields) x = (do
      return .object (Keyed.ofList (← fields.mapM (s.fieldValue depth x)))) := by
  rw [fieldArguments, StageFunction.mapItem, List.mapM_map]
  simp only [Function.comp_def, nestedAt_evaluate]
  rfl

theorem gives_mapItem {value : String → Value}
    (h : ∀ field ∈ fields, Run.Gives (s.evaluate depth field.2 x) (value field.2)) :
    Run.Gives (StageFunction.mapItem (s.nestedAt (depth + 1)) (fieldArguments fields) x)
      (.object (Keyed.ofList (valued fields value))) := by
  rw [mapItem_fields]
  refine Run.Gives.bind (.mapM (List.forall₂_map_right_iff.2 ?_)) (.pure _)
  exact List.forall₂_same.2 fun field hfield => (h field hfield).bind (.pure _)

theorem evaluate_isInquiry (text : String) (data : Value) :
    (s.evaluate depth text data).IsInquiry := by
  rw [← nestedAt_evaluate]
  exact (s.nestedAt_isInquiry (depth + 1)).evaluate _ ⟨text, rfl⟩ data

theorem mapItem_isInquiry (fields : List (String × String)) (x : Value) :
    (StageFunction.mapItem (s.nestedAt (depth + 1)) (fieldArguments fields) x).IsInquiry := by
  have hwithin : (fieldArguments fields).Within Prepared.IsText :=
    List.forall_mem_map.2 fun field _ => ⟨field.2, rfl⟩
  exact StageFunction.mapItem_closed Run.closed_isInquiry (s.nestedAt_isInquiry (depth + 1))
    hwithin x

theorem fieldValue_isInquiry (x : Value) (field : String × String) :
    (s.fieldValue depth x field).IsInquiry :=
  Run.closed_isInquiry.bind (x := fun _ => s.evaluate depth field.2 x)
    (f := fun _ v => pure (field.1, v)) (s.evaluate_isInquiry depth field.2 x) fun v =>
      Run.closed_isInquiry.pure (field.1, v)

theorem exists_gives_of_mapItem {made : Value} (h : Run.Gives
      (StageFunction.mapItem (s.nestedAt (depth + 1)) (fieldArguments fields) x) made) :
    ∀ field ∈ fields, ∃ v, Run.Gives (s.evaluate depth field.2 x) v := by
  rw [mapItem_fields] at h
  obtain ⟨found, hfound⟩ :=
    (Run.isInquiry_mapM (s.fieldValue_isInquiry depth x) fields).exists_gives_of_bind h
  intro field hfield
  obtain ⟨entry, hentry⟩ := hfound.exists_of_mapM (s.fieldValue_isInquiry depth x) field hfield
  exact (s.evaluate_isInquiry depth field.2 x).exists_gives_of_bind hentry

/-- The stage has a result exactly if all expressions have values on all elements. -/
theorem gives_map_iff (items : List Value) (v : Value) :
    Run.Gives (StageFunction.map.apply (s.nestedAt (depth + 1)) (.array items)
      (fieldArguments fields)).run (.ok v) ↔
      ∃ value : Value → String → Value,
        (∀ x ∈ items, ∀ field ∈ fields,
          Run.Gives (s.evaluate depth field.2 x) (value x field.2)) ∧
        v = .array (items.map fun x => .object (Keyed.ofList (valued fields (value x)))) := by
  have hgives {value : Value → String → Value} (h : ∀ x ∈ items, ∀ field ∈ fields,
      Run.Gives (s.evaluate depth field.2 x) (value x field.2)) :
      Run.Gives (StageFunction.map.apply (s.nestedAt (depth + 1)) (.array items)
        (fieldArguments fields)).run
        (.ok (.array (items.map fun x => .object (Keyed.ofList (valued fields (value x)))))) := by
    refine .andThen (.infallible (.mapM (List.forall₂_map_right_iff.2 ?_))) (.ok _)
    exact List.forall₂_same.2 fun x hx => s.gives_mapItem depth (h x hx)
  constructor
  · intro h
    have hmapM := Run.isInquiry_mapM (s.mapItem_isInquiry depth fields) items
    have hsound := (PathMemo.holds_fresh true).sound
    obtain ⟨memo', -, hrun⟩ := h _ hsound
    have hrun := (Run.infallible_bind_apply _ _).symm.trans hrun
    obtain ⟨⟨made, memo₁⟩, hmade, -⟩ := Option.bind_eq_some_iff.1 hrun
    have hvalues : ∀ x ∈ items, ∀ field ∈ fields,
        ∃ w, Run.Gives (s.evaluate depth field.2 x) w := fun x hx => by
      obtain ⟨made', hmade'⟩ := (hmapM.gives hsound hmade).exists_of_mapM
        (s.mapItem_isInquiry depth fields) x hx
      exact s.exists_gives_of_mapItem depth hmade'
    let value (x : Value) (text : String) : Value :=
      Classical.epsilon fun w => Run.Gives (s.evaluate depth text x) w
    have hvalue : ∀ x ∈ items, ∀ field ∈ fields,
        Run.Gives (s.evaluate depth field.2 x) (value x field.2) := fun x hx field hfield =>
      Classical.epsilon_spec (hvalues x hx field hfield)
    exact ⟨value, hvalue, Except.ok.inj (h.unique (hgives hvalue))⟩
  · rintro ⟨value, hvalue, rfl⟩
    exact hgives hvalue

end Scope

/-- A table of fields is read as the fields that it was written from, in their order. The stage
`map` on it has a result on a list exactly if the expressions have values on all elements, and then
it makes of every element the object whose keys are those of the fields, each once and in the order
in which they first come, with the value that the last expression for the key has on the element.
-/
theorem mapTable_makes_fields (h : ∀ field ∈ fields, IsField field) :
    readFieldMap (tableText fields) = .ok (some fields) ∧
    ∀ (s : Scope) (depth : Nat) (items : List Value) (data v : Value),
      Run.Gives (s.runStage (s.nestedAt (depth + 1)) (callForm "map" [tableText fields])
        (.array items) data).run (.ok v) ↔
      ∃ value : Value → String → Value,
        (∀ x ∈ items, ∀ field ∈ fields,
          Run.Gives (s.evaluate depth field.2 x) (value x field.2)) ∧
        ∃ made, v = .array made ∧
          List.Forall₂ (fun x object => IsMade fields (value x) object) items made := by
  refine ⟨readFieldMap_of_isField h, fun s depth items data v => ?_⟩
  rw [s.runStage_mapTable h, s.gives_map_iff depth]
  refine exists_congr fun value => and_congr_right fun _ => ?_
  have hmade : List.Forall₂ (fun x object => IsMade fields (value x) object) items
      (items.map fun x => .object (Keyed.ofList (valued fields (value x)))) :=
    List.forall₂_map_right_iff.2 (List.forall₂_same.2 fun x _ => isMade_ofList fields (value x))
  constructor
  · rintro rfl
    exact ⟨_, rfl, hmade⟩
  · rintro ⟨made, rfl, hall⟩
    have hunique : Relator.RightUnique fun x object => IsMade fields (value x) object :=
      fun _ _ _ ha hb => ha.unique hb
    rw [List.right_unique_forall₂' hunique hall hmade]

/-- A string with separators in it, in parentheses. -/
theorem Scope.gives_string (s : Scope) (depth : Nat) (data : Value) :
    Run.Gives (s.evaluate depth "(':,|')" data) (.string ":,|") := by
  have htokens : (Token.tokenize "(':,|')").toOption =
      some [⟨.leftParen, "(", 0⟩, ⟨.string, "':,|'", 1⟩, ⟨.rightParen, ")", 6⟩] := by
    decide +kernel
  have hvalue : String.ofList (unquote "':,|'".toList) = ":,|" := by decide +kernel
  have hreads : Expr.ReadsExpr 0
      [⟨.leftParen, "(", 0⟩, ⟨.string, "':,|'", 1⟩, ⟨.rightParen, ")", 6⟩]
      (.literal (.string (String.ofList (unquote "':,|'".toList)))) [] :=
    .mk (.paren rfl (.mk (.atom rfl) (.done (by simp [Expr.StopsAt, Expr.binaryOperator?]))) rfl)
      (.done (by simp [Expr.StopsAt]))
  have htrimmed : trimmed "(':,|')" = "(':,|')" := by decide +kernel
  have hplain : PlainText "(':,|')" :=
    .of_tokens htrimmed (by decide) htokens hreads (by decide) (by decide)
      (by simp [Expr.PlainPaths])
  have hparse := Expr.parse_of_tokens htrimmed (by decide) htokens hreads
  refine Run.Gives.orElse Value.null ?_
  rw [tryEvaluate, hplain.evalPrepared_eq hparse, evalExpr, hvalue]
  exact .ok _

/-- A key with separators in it that is given twice, and a value with separators. -/
theorem mapTable_makes_fields_of_repeated :
    let fields := [("a, b: c", "$"), ("n", "$"), ("a, b: c", "(':,|')")]
    let s := Scope.mk {} Template.resolve 1
    (∀ field ∈ fields, IsField field) ∧
    tableText fields = "\x7b\"a, b: c\": $, \"n\": $, \"a, b: c\": (':,|')\x7d" ∧
    readFieldMap (tableText fields) = .ok (some fields) ∧
    Run.Gives (s.runStage (s.nestedAt 1) (callForm "map" [tableText fields])
      (.array [.bool true]) .null).run
      (.ok (.array [.object [("a, b: c", .string ":,|"), ("n", .bool true)]])) := by
  intro fields s
  have hroot : Undivided (some ',') "$".toList :=
    .char (by decide) (by decide) (by decide) (by decide) .nil
  have hbody : InQuotes '\'' [':', ',', '|'] :=
    .char (by decide) (by decide) (.char (by decide) (by decide)
      (.char (by decide) (by decide) .nil))
  have hinner : Undivided none ('\'' :: ([':', ',', '|'] ++ ['\''])) :=
    .quoted (by decide) hbody .nil
  have hgroup : Undivided (some ',') ('(' :: ('\'' :: ([':', ',', '|'] ++ ['\'']) ++ [')'])) :=
    .group (by decide) hinner .nil
  have hstring : Undivided (some ',') "(':,|')".toList := hgroup
  have hfields : ∀ field ∈ fields, IsField field := by
    refine List.forall_mem_cons.2 ⟨?_, List.forall_mem_cons.2 ⟨?_, List.forall_mem_singleton.2 ?_⟩⟩
    · exact ⟨by decide, by decide, by decide, by decide, by decide, hroot⟩
    · exact ⟨by decide, by decide, by decide, by decide, by decide, hroot⟩
    · exact ⟨by decide, by decide, by decide, by decide, by decide +kernel, hstring⟩
  obtain ⟨hread, hstage⟩ := mapTable_makes_fields hfields
  refine ⟨hfields, by decide +kernel, hread, (hstage s 0 [.bool true] .null _).2 ?_⟩
  refine ⟨fun x text => if text = "$" then x else .string ":,|", ?_, _, rfl, .cons ?_ .nil⟩
  · intro x hx field hfield
    obtain rfl := List.mem_singleton.1 hx
    simp only [fields, List.mem_cons, List.not_mem_nil, or_false] at hfield
    rcases hfield with rfl | rfl | rfl
    · exact s.gives_root 0 (.bool true)
    · exact s.gives_root 0 (.bool true)
    · exact s.gives_string 0 (.bool true)
  · refine ⟨_, rfl, by decide, fun key => ?_⟩
    simp only [fields, List.reverse_cons, List.reverse_nil, List.nil_append, List.cons_append,
      Keyed.get?]
    grind

end Sluice
