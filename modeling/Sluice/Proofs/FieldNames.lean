import Sluice.Proofs.FilterFusion
import Sluice.Proofs.StoredPaths
import Sluice.Proofs.Tokenizing

/-!
# Names of fields

Four stage functions read a key from every element by the name of a field. The name is made the
path of a property, and that text is looked at like any other text. So a name that is a word is
read as the property, whether it is quoted or not. A name with a hyphen in it is read as a
difference, and one with a space in it is read as nothing at all.
-/
namespace Sluice

open Sluice.Text Sluice.Pipeline

/-! ## Functions that read keys -/

namespace StageFunction

/-- The functions that read a key from every element, if they are given a field. -/
def keyed : List StageFunction :=
  [sum, avg, unique, sort]

/-- The text by which a function reads a key from an element. -/
def keyText? (f : StageFunction) (args : Arguments) : Option Prepared :=
  match f, args with
  | sort, .order o => o.field.map .ofField
  | sort, _ => none
  | _, args => perElement args

/-- What a function makes of the elements and of the keys that it has read from them. -/
def ofKeys (f : StageFunction) (args : Arguments) (keys items : List Value) : Value :=
  match f with
  | sum => .number (Items.sum keys)
  | avg => if items.isEmpty then .null else .number (Items.sum keys / Float.ofNat items.length)
  | unique => .array (Items.distinct (keys.zip items))
  | sort =>
      let desc := match args with
        | .order o => o.desc
        | _ => false
      .array (Items.sortKeyed desc (keys.zip items))
  | _ => .array items

variable {f : StageFunction} {items : List Value}

theorem sortItems_of_present (nested : Nested) (spec : SortOrder)
    (hitems : ∀ x ∈ items, x.isMissing = false) :
    sortItems nested spec items = (do
      let keys ← keysOf nested (spec.field.map .ofField) items
      return Items.sortKeyed spec.desc (keys.zip items)) := by
  have hpresent : items.filter (fun v => !v.isMissing) = items :=
    List.filter_eq_self.2 fun x hx => by simp [hitems x hx]
  have hmissing : items.filter Value.isMissing = [] :=
    List.filter_eq_nil_iff.2 fun x hx => by simp [hitems x hx]
  simp only [sortItems, hpresent, hmissing, List.append_nil]

/-- Elements that are not missing count by their keys only, and all keys are read by one text. -/
theorem apply_keyed (hf : f ∈ keyed) (nested : Nested) (args : Arguments)
    (hitems : ∀ x ∈ items, x.isMissing = false) :
    f.apply nested (.array items) args = (do
      let keys ← Run.infallible (keysOf nested (f.keyText? args) items)
      return f.ofKeys args keys items) := by
  simp only [keyed, List.mem_cons, List.not_mem_nil, or_false] at hf
  rcases hf with rfl | rfl | rfl | rfl
  · rfl
  · cases items with
    | nil =>
        have hnone : keysOf nested (keyText? avg args) [] = pure [] := by
          cases keyText? avg args <;> rfl
        rw [hnone]
        rfl
    | cons x items => rfl
  · rfl
  · have hsort (spec : SortOrder) := sortItems_of_present nested spec hitems
    cases args <;> simp only [apply, hsort, Run.infallible_bind, bind_assoc] <;> rfl

end StageFunction

/-! ## Names and their paths -/

/-- A character of the name of a field. -/
def isFieldChar (c : Char) : Bool :=
  isWord c || c == '-' || c == ' '

/-- Letters, digits, underscores and all else that belongs to a word, hyphens, and spaces inside
of the name. -/
structure IsFieldName (name : String) : Prop where
  chars : ∀ c ∈ name.toList, isFieldChar c = true
  trimmed : trim name.toList = name.toList

/-- A name between single quotes. -/
def quotedName (name : String) : String :=
  "'" ++ name ++ "'"

/-- The path of the property with a name. -/
def fieldPath (name : String) : String :=
  "$." ++ name

theorem toList_quotedName (name : String) :
    (quotedName name).toList = '\'' :: (name.toList ++ ['\'']) := by
  simp [quotedName]

theorem toList_fieldPath (name : String) : (fieldPath name).toList = '$' :: '.' :: name.toList := by
  simp [fieldPath]

theorem trim_quotedName (name : String) :
    trim (quotedName name).toList = '\'' :: (name.toList ++ ['\'']) := by
  have hblank : isBlank '\'' = false := by decide
  rw [toList_quotedName]
  exact trim_eq_self (by simpa using hblank) (by simpa [List.getLast?_cons] using hblank)

namespace IsFieldName

variable {name : String} (h : IsFieldName name)
include h

theorem not_mem {c : Char} (hc : isFieldChar c = false) : c ∉ name.toList :=
  fun hmem => ne_of_class isFieldChar (h.chars c hmem) hc rfl

theorem stripQuotes_eq : stripQuotes name.toList = name.toList := by
  cases hname : name.toList with
  | nil => rfl
  | cons c cs =>
      have hc : c ∉ ['\'', '"'] :=
        not_mem_of_class isFieldChar (by decide) (h.chars c (by simp [hname]))
      exact stripQuotes_of_not_quote c cs (by simpa [isQuote] using hc)

/-- A field that is the name, with quotes and blanks around it or without, stands for the path. -/
theorem pathOfField_eq {field : String} (hfield : stripQuotes (trim field.toList) = name.toList) :
    Prepared.pathOfField field = fieldPath name := by
  have hhead : name.toList.head? ≠ some '$' := fun hhead =>
    h.not_mem (by decide : isFieldChar '$' = false) (List.mem_of_mem_head? hhead)
  refine String.toList_injective ?_
  rw [toList_fieldPath, Prepared.pathOfField]
  simp only [hfield, if_neg hhead, String.toList_ofList]

theorem ofField_eq : Prepared.ofField name = .ofText (fieldPath name) := by
  rw [Prepared.ofField, h.pathOfField_eq (by rw [h.trimmed, h.stripQuotes_eq])]

theorem ofField_quotedName : Prepared.ofField (quotedName name) = .ofText (fieldPath name) := by
  have hstrip : stripQuotes (trim (quotedName name).toList) = name.toList := by
    rw [trim_quotedName, stripQuotes_quoted _ _ (by decide)]
  rw [Prepared.ofField, h.pathOfField_eq hstrip]

theorem readSortOrder_quotedName : readSortOrder (quotedName name) = .ok ⟨some name, false⟩ := by
  have hcomma : ',' ∉ (quotedName name).toList := by
    have hname := h.not_mem (by decide : isFieldChar ',' = false)
    simp [toList_quotedName, hname]
  have harguments : arguments (quotedName name).toList = ['\'' :: (name.toList ++ ['\''])] := by
    rw [arguments, parts_of_not_mem hcomma, List.map_singleton, trim_quotedName]
    rfl
  have hfields : readFieldMap (quotedName name) = .ok none := by
    have hbraced : braced? (trim (quotedName name).toList) = none := by
      rw [trim_quotedName]
      rfl
    rw [readFieldMap, hbraced]
  simp [readSortOrder, hfields, harguments, stripQuotes_quoted _ _ (by decide : isQuote '\'' = true)]

/-- A quoted name in a stage and the name as a value of a call are the same argument. -/
theorem readArgs_quotedName {f : StageFunction} (hf : f ∈ StageFunction.keyed) (nested : Nested)
    (data : Value) :
    f.readArgs nested (quotedName name) data = pure (f.argsOfValues [.string name]) := by
  have htrimmed : Text.trimmed (quotedName name) = quotedName name := by
    rw [Text.trimmed, trim_quotedName, ← toList_quotedName, String.ofList_toList]
  have hempty : (quotedName name).isEmpty = false := by
    rw [Bool.eq_false_iff, ne_eq, String.isEmpty_iff]
    intro he
    have hchars := toList_quotedName name
    simp [he] at hchars
  have hfield : Prepared.ofField (quotedName name) = .ofField name := by
    rw [h.ofField_quotedName, h.ofField_eq]
  simp only [StageFunction.keyed, List.mem_cons, List.not_mem_nil, or_false] at hf
  rcases hf with rfl | rfl | rfl | rfl <;>
    simp only [StageFunction.readArgs, htrimmed, hempty, hfield, h.readSortOrder_quotedName] <;> rfl

theorem keyText?_eq {f : StageFunction} (hf : f ∈ StageFunction.keyed) :
    f.keyText? (f.argsOfValues [.string name]) = some (.ofText (fieldPath name)) := by
  rw [← h.ofField_eq]
  simp only [StageFunction.keyed, List.mem_cons, List.not_mem_nil, or_false] at hf
  rcases hf with rfl | rfl | rfl | rfl <;> rfl

theorem trim_fieldPath : trim (fieldPath name).toList = (fieldPath name).toList := by
  have hname : ∀ c ∈ name.toList.getLast?, isBlank c = false := by
    have hlast := getLast?_trimEnd (trimStart name.toList)
    rwa [← trim, h.trimmed] at hlast
  have hpoint : ∀ c ∈ ['$', '.'].getLast?, isBlank c = false := by
    simpa using (by decide : isBlank '.' = false)
  rw [toList_fieldPath]
  exact trim_eq_self (by simpa using (by decide : isBlank '$' = false)) (last_append hpoint hname)

theorem not_isPipeline : Prepared.isPipeline (fieldPath name) = false := by
  have hbar : '|' ∉ (fieldPath name).toList := by
    have hname := h.not_mem (by decide : isFieldChar '|' = false)
    simp [toList_fieldPath, hname]
  simp [Prepared.isPipeline, Pipeline.isPipeline, parts_of_not_mem hbar]

end IsFieldName

/-! ## Names that are words -/

/-- A name that is a word. -/
def IsWordName (name : String) : Prop :=
  name ≠ "" ∧ ∀ c ∈ name.toList, isWord c = true

theorem IsFieldName.isWordName_iff {name : String} (h : IsFieldName name) :
    IsWordName name ↔ name ≠ "" ∧ '-' ∉ name.toList ∧ ' ' ∉ name.toList := by
  refine and_congr_right fun _ => ⟨fun hword => ?_, fun ⟨hhyphen, hspace⟩ c hc => ?_⟩
  · exact ⟨fun hc => absurd (hword _ hc) (by decide),
      fun hc => absurd (hword _ hc) (by decide)⟩
  · have hfield := h.chars c hc
    simp only [isFieldChar, Bool.or_eq_true, beq_iff_eq] at hfield
    rcases hfield with (hword | rfl) | rfl
    · exact hword
    · exact absurd hc hhyphen
    · exact absurd hc hspace

theorem IsWordName.isPath {name : String} (h : IsWordName name) :
    Token.isPath (fieldPath name).toList = true := by
  obtain ⟨hne, hword⟩ := h
  have hsegment : Token.segmentLength ('.' :: (name.toList ++ [])) = some (name.toList.length + 1) :=
    Token.segmentLength_property hword (by simpa using hne) (by simp)
  rw [List.append_nil] at hsegment
  have hlength : Token.segmentsLength ('.' :: name.toList) = name.toList.length + 1 := by
    rw [Token.segmentsLength, hsegment]
    simp [Token.segmentsLength]
  simp [Token.isPath, toList_fieldPath, Token.pathLength, hlength]

theorem IsWordName.follow_eq {name : String} (h : IsWordName name) (entries : Keyed Value) :
    (Value.object entries).follow (fieldPath name) = (Value.object entries).property name := by
  obtain ⟨hne, hword⟩ := h
  have hname : Path.IsPropertyName name.toList :=
    Path.isPropertyName_of_isWord (by simpa using hne) hword
  have hsteps : Path.stepsOf ('$' :: '.' :: name.toList) =
      .ok [.root, .property (String.ofList name.toList)] := by
    have hread := Path.stepsOf_property hname (by simp [Path.EndsWord] : Path.EndsWord [])
    rwa [List.append_nil, Path.stepsFrom_nil] at hread
  have htrim : trim ('$' :: '.' :: name.toList) = '$' :: '.' :: name.toList :=
    trim_eq_self_of_forall (List.forall_mem_cons.2 ⟨by decide, List.forall_mem_cons.2
      ⟨by decide, fun c hc => isBlank_of_isWord (hword c hc)⟩⟩)
  have htext : fieldPath name = String.ofList ('$' :: '.' :: name.toList) := by
    rw [← toList_fieldPath, String.ofList_toList]
  rw [htext, Value.follow_of_trimmed htrim, hsteps, String.ofList_toList]
  exact Path.walk_eq_run _ _

/-! ## Names that are not -/

namespace Token

/-- Without brackets a path is made of words, points and stars. -/
theorem PathBody.isWord_of_not_mem {cs : List Char} (h : PathBody cs) (hbracket : '[' ∉ cs) :
    ∀ c ∈ cs, isWord c = true ∨ c = '.' ∨ c = '*' := by
  induction h with
  | nil => simp
  | @segment s tail hs _ ih =>
      simp only [List.mem_append, not_or] at hbracket
      refine List.forall_mem_append.2 ⟨?_, ih hbracket.2⟩
      cases hs.form with
      | wildcard => simp
      | word hw => exact fun c hc => .inl (hw c hc)
      | property hw =>
          exact List.forall_mem_cons.2 ⟨.inr (.inl rfl), fun c hc => .inl (hw c hc)⟩
      | quoted => simp at hbracket
      | brackets => simp at hbracket

theorem exists_pathBody_of_isPath {cs : List Char} (h : isPath ('$' :: cs) = true) :
    PathBody cs := by
  have hlength : segmentsLength cs = cs.length := by simpa [isPath, pathLength] using h
  have hflatten := flatten_segments cs
  rw [hlength, List.take_length] at hflatten
  rw [← hflatten]
  exact pathBody_of_flatten (forall_mem_segments pathSegment_of_segmentLength cs)

/-- The first token of a text that begins with a dollar sign is the path there. -/
theorem exists_path_of_scan {position : Nat} {cs : List Char} {t : Token} {ts : List Token}
    (h : scan position ('$' :: cs) = .ok (t :: ts)) :
    t.kind = .path ∧ ∃ rest position', '$' :: cs = t.text.toList ++ rest ∧
      pathLength ('$' :: cs) = some t.text.toList.length ∧ scan position' rest = .ok ts := by
  obtain ⟨blanks, rest, position', htext, hblanks, hmatch, hrest⟩ := exists_of_scan_cons h
  obtain rfl : blanks = [] := by
    cases blanks with
    | nil => rfl
    | cons b blanks =>
        obtain ⟨rfl, -⟩ := List.cons_eq_cons.1 htext
        exact absurd (hblanks '$' List.mem_cons_self) (by decide)
  have hfirst := hmatch.first?_eq
  rw [← List.nil_append (_ ++ rest), ← htext, first?_of_pathLength rfl] at hfirst
  obtain ⟨hkind, hlength⟩ := Prod.mk.inj (Option.some.inj hfirst)
  exact ⟨hkind.symm, rest, position', htext, congrArg some hlength, hrest⟩

/-- A text without blanks at its ends that has no token after a path is the path. -/
theorem isPath_of_scan {position : Nat} {cs : List Char} {t : Token}
    (h : scan position ('$' :: cs) = .ok [t]) (htrim : trim ('$' :: cs) = '$' :: cs) :
    isPath ('$' :: cs) = true := by
  obtain ⟨-, rest, position', htext, hlength, hrest⟩ := exists_path_of_scan h
  have hblanks := isBlank_of_scan_nil hrest
  have hnil : rest = [] := by
    by_contra hne
    have hlast := getLast?_trimEnd (trimStart ('$' :: cs))
    rw [← trim, htrim, htext, List.getLast?_append_of_ne_nil _ hne] at hlast
    have hblank := hblanks _ (List.getLast_mem hne)
    rw [hlast _ (List.getLast?_eq_some_getLast hne)] at hblank
    cases hblank
  rw [hnil, List.append_nil] at htext
  rw [isPath, hlength, ← htext]
  exact beq_self_eq_true _

end Token

namespace Expr

theorem symbol_of_binaryOperator? {t : Token} {op : Operator} (h : binaryOperator? t = some op) :
    op.symbol = t.text := by
  have hsymbol : Operator.ofSymbol? t.text = some op := by
    unfold binaryOperator? at h
    split at h
    · exact h
    · exact (Option.filter_eq_some_iff.1 h).1
    · cases h
  simpa using List.find?_some hsymbol

/-- After an operand an expression comes to its end, or it is a binary one, and its operator stands
among the tokens. -/
theorem Climbs.eq_or_binary {floor : Nat} {left e : Expr} {ts rest : List Token}
    (h : Climbs floor left ts e rest) :
    (e = left ∧ rest = ts) ∨
      ∃ l op r, e = .binary l op r ∧ ∃ t ∈ ts, binaryOperator? t = some op := by
  -- The induction is on the tokens: what follows a right operand climbs over fewer of them.
  induction hn : ts.length using Nat.strong_induction_on generalizing left ts with
  | _ n ih =>
      cases h with
      | done _ => exact .inl ⟨rfl, rfl⟩
      | step hop _ operand more =>
          obtain ⟨us, rfl, -⟩ := operand.nests
          simp only [List.length_cons, List.length_append] at hn
          refine .inr ?_
          obtain ⟨rfl, -⟩ | ⟨l, op, r, rfl, t, ht, hop'⟩ := ih _ (by omega) more rfl
          · exact ⟨_, _, _, rfl, _, List.mem_cons_self, hop⟩
          · exact ⟨l, op, r, rfl, t, by simp [ht], hop'⟩

/-- After a path too. -/
theorem ReadsExpr.eq_or_binary_of_path {floor : Nat} {t : Token} {ts rest : List Token} {e : Expr}
    (h : ReadsExpr floor (t :: ts) e rest) (hkind : t.kind = .path) :
    rest = ts ∨ ∃ l op r, e = .binary l op r ∧ ∃ t ∈ ts, binaryOperator? t = some op := by
  obtain ⟨operand, more⟩ := h
  cases operand with
  | atom _ => exact more.eq_or_binary.imp_left And.right
  | not h | minus h | paren h | word h | call h => cases hkind.symm.trans h

end Expr

namespace IsFieldName

variable {name : String} (h : IsFieldName name)
include h

/-- Only a word makes a path. -/
theorem isWordName_of_isPath (hpath : Token.isPath (fieldPath name).toList = true) :
    IsWordName name := by
  rw [toList_fieldPath] at hpath
  refine h.isWordName_iff.2 ⟨?_, ?_⟩
  · rintro rfl
    exact absurd hpath (by decide +kernel)
  · have hbracket := h.not_mem (by decide : isFieldChar '[' = false)
    have hchars := (Token.exists_pathBody_of_isPath hpath).isWord_of_not_mem (by simp [hbracket])
    have hnot {c : Char} (hword : isWord c = false) (hpoint : c ≠ '.') (hstar : c ≠ '*') :
        c ∉ name.toList := fun hc => by
      simpa [hword, hpoint, hstar] using hchars c (List.mem_cons_of_mem _ hc)
    exact ⟨hnot (by decide) (by decide) (by decide),
      hnot (by decide) (by decide) (by decide)⟩

/-- What is read of the text, if it is no path, is a binary expression of an operator whose result
is not one of its operands. -/
theorem exists_binary_of_parse {e : Expr} (hpath : ¬ Token.isPath (fieldPath name).toList = true)
    (hparse : Expr.parse (fieldPath name) = .ok e) :
    ∃ l op r, e = .binary l op r ∧ op ≠ .and ∧ op ≠ .or := by
  obtain ⟨-, ts, hscan, hreads⟩ := Expr.parse_eq_ok.1 hparse
  rw [Token.tokenize, toList_trimmed, h.trim_fieldPath] at hscan
  cases ts with
  | nil =>
      obtain ⟨operand, -⟩ := hreads
      cases operand
  | cons t ts =>
      have htrim := h.trim_fieldPath
      rw [toList_fieldPath] at hscan hpath htrim
      obtain ⟨hkind, -⟩ := Token.exists_path_of_scan hscan
      obtain rfl | ⟨l, op, r, rfl, t', ht', hop⟩ := hreads.eq_or_binary_of_path hkind
      · exact absurd (Token.isPath_of_scan hscan htrim) hpath
      · obtain ⟨before, after, htext, -⟩ :=
          (Token.tokenizes_of_scan hscan).lexemes t' (List.mem_cons_of_mem t ht')
        have hnot {c : Char} (hdollar : c ≠ '$') (hpoint : c ≠ '.') (hc : isFieldChar c = false) :
            c ∉ op.symbol.toList := by
          intro hmem
          rw [Expr.symbol_of_binaryOperator? hop] at hmem
          have hname : c ∈ '$' :: '.' :: name.toList := by simp [htext, hmem]
          simp [hdollar, hpoint, h.not_mem hc] at hname
        refine ⟨l, op, r, rfl, ?_, ?_⟩
        · rintro rfl
          exact hnot (by decide) (by decide) (by decide : isFieldChar '&' = false) (by decide)
        · rintro rfl
          exact hnot (by decide) (by decide) (by decide : isFieldChar '|' = false) (by decide)

end IsFieldName

/-- Operators that are not one of their operands have a result. -/
theorem Operator.isMissing_apply {op : Operator} (hand : op ≠ .and) (hor : op ≠ .or) (budget : Nat)
    (a b : Value) : (op.apply budget a b).isMissing = false := by
  cases op <;> simp only [apply, relate, lenient] <;> first | rfl | contradiction | (split <;> rfl)

namespace Scope

variable (s : Scope) (depth : Nat)

theorem isMissing_of_binary {nested : Nested} {l r : Expr} {op : Operator} {data v : Value}
    {memo memo' : PathMemo} (hand : op ≠ .and) (hor : op ≠ .or)
    (h : (s.evalExpr nested (.binary l op r) data).run memo = some (.ok v, memo')) :
    v.isMissing = false := by
  rw [evalExpr] at h
  obtain ⟨a, memo₁, -, h⟩ := Run.andThen_eq_ok h
  split at h
  · exact absurd rfl hand
  · exact absurd rfl hor
  · obtain ⟨b, memo₂, -, h⟩ := Run.andThen_eq_ok h
    cases h
    exact Operator.isMissing_apply hand hor _ _ _

end Scope

namespace IsFieldName

variable {name : String} (h : IsFieldName name)
include h

theorem ofText_fieldPath : Prepared.ofText (fieldPath name) =
    if Token.isPath (fieldPath name).toList then .path (fieldPath name)
    else match Expr.parse (fieldPath name) with
      | .ok e => .parsed (fieldPath name) e
      | .error e => .invalid (fieldPath name) e := by
  have htrimmed : Text.trimmed (fieldPath name) = fieldPath name := by
    rw [Text.trimmed, h.trim_fieldPath, String.ofList_toList]
  have hempty : (fieldPath name).isEmpty = false := by
    rw [Bool.eq_false_iff, ne_eq, String.isEmpty_iff]
    intro he
    have hchars := toList_fieldPath name
    simp [he] at hchars
  simp only [Prepared.ofText, htrimmed, hempty, h.not_isPipeline, Prepared.isPath, h.trim_fieldPath]
  rfl

variable (s : Scope) (depth : Nat)

/-- The path of a word leads from an object to its own value under the name. -/
theorem gives_property (hword : IsWordName name) {x : Value} (hx : x.object?.isSome = true) :
    Run.Gives (s.evaluate depth (fieldPath name) x) (x.property name) := by
  cases x with
  | object entries =>
      refine Run.Gives.orElse Value.null ?_
      rw [Scope.tryEvaluate, h.ofText_fieldPath, if_pos hword.isPath, Scope.evalPrepared,
        ← hword.follow_eq]
      exact .infallible (.follow _ _)
  | _ => cases hx

/-- The text that is made of any other name never comes to a missing value. -/
theorem not_gives_missing (hword : ¬ IsWordName name) (data : Value) :
    ¬ Run.Gives (s.evaluate depth (fieldPath name) data) .missing := by
  intro hgives
  have hpath : ¬ Token.isPath (fieldPath name).toList = true := mt h.isWordName_of_isPath hword
  obtain ⟨memo', -, hrun⟩ := hgives (.fresh true) (PathMemo.holds_fresh true).sound
  rw [Scope.evaluate, Scope.tryEvaluate, h.ofText_fieldPath, if_neg hpath, Run.orElse_apply] at hrun
  obtain ⟨⟨outcome, memo₁⟩, hrun, he⟩ := Option.map_eq_some_iff.1 hrun
  cases hparse : Expr.parse (fieldPath name) with
  | error e =>
      rw [hparse] at hrun
      cases hrun
      cases he
  | ok e =>
      obtain ⟨l, op, r, rfl, hand, hor⟩ := h.exists_binary_of_parse hpath hparse
      rw [hparse] at hrun
      cases outcome with
      | error e => cases he
      | ok v =>
          have hmissing := s.isMissing_of_binary hand hor hrun
          cases he
          cases hmissing

end IsFieldName

namespace StageFunction

variable {f : StageFunction} {name : String} {items : List Value}

/-- The keys that a function reads from elements by the name of a field. -/
def keysBy (f : StageFunction) (nested : Nested) (name : String) (items : List Value) :
    Run (List Value) :=
  keysOf nested (f.keyText? (f.argsOfValues [.string name])) items

theorem keysBy_eq (hf : f ∈ keyed) (h : IsFieldName name) (s : Scope) (depth : Nat) :
    f.keysBy (s.nestedAt (depth + 1)) name items =
      items.mapM (s.evaluate depth (fieldPath name)) := by
  have hevaluate : (s.nestedAt (depth + 1)).evaluate (.ofText (fieldPath name)) =
      s.evaluate depth (fieldPath name) := funext fun x => s.nestedAt_evaluate depth _ x
  rw [keysBy, h.keyText?_eq hf]
  exact congrArg items.mapM hevaluate

theorem gives_keysBy (hf : f ∈ keyed) (h : IsFieldName name) (hword : IsWordName name)
    (s : Scope) (depth : Nat) (hitems : ∀ x ∈ items, x.object?.isSome = true) :
    Run.Gives (f.keysBy (s.nestedAt (depth + 1)) name items) (items.map (·.property name)) := by
  rw [keysBy_eq hf h]
  exact .mapM (List.forall₂_map_right_iff.2 (List.forall₂_same.2 fun x hx =>
    h.gives_property s depth hword (hitems x hx)))

theorem not_gives_keysBy (hf : f ∈ keyed) (h : IsFieldName name) (hword : ¬ IsWordName name)
    (s : Scope) (depth : Nat) :
    ¬ Run.Gives (f.keysBy (s.nestedAt (depth + 1)) name [.object []]) [.missing] := by
  intro hgives
  rw [keysBy_eq hf h] at hgives
  have hinquiry (x : Value) : (s.evaluate depth (fieldPath name) x).IsInquiry := by
    rw [← s.nestedAt_evaluate]
    exact (s.nestedAt_isInquiry (depth + 1)).evaluate _ ⟨_, rfl⟩ x
  have hsound := (PathMemo.holds_fresh true).sound
  obtain ⟨memo', -, hrun⟩ := hgives (.fresh true) hsound
  obtain ⟨v, hv⟩ := Run.exists_gives_of_mapM hinquiry hsound hrun (.object []) List.mem_cons_self
  have hkeys : Run.Gives ([.object []].mapM (s.evaluate depth (fieldPath name))) [v] :=
    .mapM (.cons hv .nil)
  obtain rfl : v = .missing := List.singleton_inj.1 (hkeys.unique hgives)
  exact h.not_gives_missing s depth hword _ hv

/-- A field that is given by a quoted name. The name is made of characters of words, hyphens and
inner spaces. In a stage the quoted name is the same argument as the name is in a call. By this
argument `sum`, `avg`, `unique` and `sort` read from all objects their own values under the name,
missing where there are none, exactly if the name is a word; and then their results are what the
functions make of these keys. -/
theorem reads_quotedName_iff (s : Scope) (depth : Nat) (h : IsFieldName name) (hf : f ∈ keyed) :
    (∀ nested data, f.readArgs nested (quotedName name) data =
      pure (f.argsOfValues [.string name])) ∧
    ((∀ items : List Value, (∀ x ∈ items, x.object?.isSome = true) →
        Run.Gives (f.keysBy (s.nestedAt (depth + 1)) name items)
          (items.map (·.property name))) ↔
      name ≠ "" ∧ '-' ∉ name.toList ∧ ' ' ∉ name.toList) ∧
    (name ≠ "" → '-' ∉ name.toList → ' ' ∉ name.toList →
      ∀ (items : List Value) (data : Value), (∀ x ∈ items, x.object?.isSome = true) →
        Run.Gives (f.readArgs (s.nestedAt (depth + 1)) (quotedName name) data >>=
            f.apply (s.nestedAt (depth + 1)) (.array items)).run
          (.ok (f.ofKeys (f.argsOfValues [.string name]) (items.map (·.property name)) items))) := by
  refine ⟨h.readArgs_quotedName hf, ⟨fun hreads => ?_, fun hname items hitems => ?_⟩, ?_⟩
  · refine h.isWordName_iff.1 (by_contra fun hword => ?_)
    exact not_gives_keysBy hf h hword s depth (hreads [.object []] (by simp [Value.object?]))
  · exact gives_keysBy hf h (h.isWordName_iff.2 hname) s depth hitems
  · intro hne hhyphen hspace items data hitems
    have hword := h.isWordName_iff.2 ⟨hne, hhyphen, hspace⟩
    have hpresent : ∀ x ∈ items, x.isMissing = false := fun x hx => by
      cases x <;> first | rfl | cases hitems _ hx
    rw [h.readArgs_quotedName hf, pure_bind, apply_keyed hf _ _ hpresent]
    exact (gives_keysBy hf h hword s depth hitems).infallible.andThen (.ok _)

/-- A name with an underscore. -/
theorem reads_quotedName_of_word :
    let nested := (Scope.mk {} Template.resolve 1).nestedAt 1
    let items := [Value.object [("unit_price", .number 2)], .object [("price", .number 3)]]
    IsFieldName "unit_price" ∧ sum ∈ keyed ∧
      Run.Gives (sum.readArgs nested "'unit_price'" .null >>=
          sum.apply nested (.array items)).run
        (.ok (.number (Items.sum [.number 2, .missing]))) := by
  have hname : IsFieldName "unit_price" := ⟨List.all_eq_true.1 (by decide), by decide⟩
  have hkeyed : sum ∈ keyed := by decide
  obtain ⟨-, -, hresult⟩ := reads_quotedName_iff (Scope.mk {} Template.resolve 1) 0 hname hkeyed
  exact ⟨hname, hkeyed, hresult (by decide) (by decide) (by decide) _ .null (by simp [Value.object?])⟩

/-- A name with a hyphen is read as a difference, which is a number where the name is no key. -/
theorem not_forall_gives_keysBy :
    ¬ ∀ (s : Scope) (depth : Nat) (f : StageFunction) (name : String) (items : List Value),
      f ∈ keyed → IsFieldName name → (∀ x ∈ items, x.object?.isSome = true) →
      Run.Gives (f.keysBy (s.nestedAt (depth + 1)) name items)
        (items.map (·.property name)) := by
  intro hreads
  have hname : IsFieldName "first-name" := ⟨List.all_eq_true.1 (by decide), by decide⟩
  have hkeyed : sum ∈ keyed := by decide
  have hword : ¬ IsWordName "first-name" := fun hword =>
    (hname.isWordName_iff.1 hword).2.1 (by decide)
  exact not_gives_keysBy hkeyed hname hword (Scope.mk {} Template.resolve 1) 0
    (hreads _ 0 sum "first-name" [.object []] hkeyed hname (by simp [Value.object?]))

end StageFunction

end Sluice
