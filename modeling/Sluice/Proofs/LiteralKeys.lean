import Sluice.Proofs.FieldNames
import Sluice.Proofs.RootPath
import Sluice.Proofs.StageFailures

/-!
# String literals as keys

A string literal names a key in two ways: as the text of an argument of a stage, and as an argument
of a call. The stage drops the quotes of the literal and keeps what stands between them; the call is
handed the value of the literal, in which escaped quotes have lost their backslashes. So the two
name one key exactly if the value is what stands between the quotes.
-/
namespace Sluice

open Sluice.Text Sluice.Pipeline

/-- The text is one string literal. -/
def IsLiteral (text : String) : Prop :=
  Token.tokenize text = .ok [⟨.string, text, 0⟩]

/-- What stands between the quotes of a literal. -/
def literalBody (literal : String) : String :=
  String.ofList (stripQuotes literal.toList)

/-- The text that a literal stands for. -/
def literalValue (literal : String) : String :=
  String.ofList (unquote literal.toList)

namespace IsLiteral

open Token

variable {literal : String}

theorem of_toOption (h : (tokenize literal).toOption = some [⟨.string, literal, 0⟩]) :
    IsLiteral literal := by
  unfold IsLiteral
  cases htokens : tokenize literal with
  | error e => simp [htokens, Except.toOption] at h
  | ok ts =>
      rw [htokens] at h
      exact congrArg Except.ok (Option.some.inj h)

theorem firstMatch (h : IsLiteral literal) :
    FirstMatch .string literal.toList literal.toList := by
  obtain ⟨before, after, htext, -, hmatch⟩ :=
    (tokenizes_of_scan h).lexemes _ List.mem_cons_self
  have hlength := congrArg List.length htext
  simp only [List.length_append] at hlength
  obtain rfl : after = [] := List.length_eq_zero_iff.1 (by omega)
  simpa using hmatch

theorem exists_body (h : IsLiteral literal) :
    ∃ q body, isQuote q = true ∧ StringBody q body ∧ literal.toList = q :: (body ++ [q]) := by
  have hlexeme := h.firstMatch.lexeme
  generalize literal.toList = cs at hlexeme
  cases hlexeme with
  | string hq hbody => exact ⟨_, _, hq, hbody, rfl⟩

theorem stringLength_append (h : IsLiteral literal) (rest : List Char) :
    stringLength (literal.toList ++ rest) = some literal.toList.length := by
  obtain ⟨q, body, hq, hbody, htext⟩ := h.exists_body
  have htail := hbody.stringTail_append (ne_of_class isQuote hq (by decide)) rest
  simp [htext, stringLength, hq, htail]

/-- Where a literal stands, no template in quotes does, also if a parenthesis comes next. -/
theorem quotedTemplateLength_eq_none (h : IsLiteral literal) {q : Char} (hq : isQuote q = true) :
    quotedTemplateLength q (literal.toList ++ [')']) = none := by
  cases hlength : quotedTemplateLength q (literal.toList ++ [')']) with
  | none => rfl
  | some n =>
      obtain ⟨body, rest, hbody, htext, -⟩ := exists_of_quotedTemplateLength hlength
      have hstart : q :: (bareTemplate body ++ [q]) <+: literal.toList ++ [')'] :=
        ⟨rest, htext.symm⟩
      rcases List.prefix_concat_iff.1 hstart with hwhole | hinside
      · have hlast := congrArg List.getLast? hwhole
        have hparen : q ≠ ')' := ne_of_class isQuote hq (by decide)
        simp [List.getLast?_cons, hparen] at hlast
      · have hquotes : q = '\'' ∨ q = '"' := by simpa [isQuote] using hq
        rcases hquotes with rfl | rfl
        · exact absurd (h.firstMatch.first _ _ (.singleQuotedTemplate hbody) hinside) (by decide)
        · exact absurd (h.firstMatch.first _ _ (.quotedTemplate hbody) hinside) (by decide)

theorem first?_rightParen (h : IsLiteral literal) :
    first? (literal.toList ++ [')']) = some (.string, literal.toList.length) := by
  obtain ⟨q, body, hq, -, htext⟩ := h.exists_body
  have htemplate := h.quotedTemplateLength_eq_none hq
  have hlength := h.stringLength_append [')']
  rw [htext, List.cons_append] at htemplate hlength
  rw [htext, List.cons_append, first?_of_isQuote hq htemplate, hlength]
  rfl

theorem scansTo (h : IsLiteral literal) (position : Nat) :
    ScansTo position (literal.toList ++ [')']) [⟨.string, literal, position⟩]
      (position + byteLength literal.toList) [')'] := by
  have htoken := ScansTo.token position h.firstMatch.ne_nil h.first?_rightParen
  rwa [String.ofList_toList] at htoken

theorem carried (h : IsLiteral literal) {sep : Char} (d : Int) (n : Nat) :
    Carried sep ⟨d, n, none⟩ literal.toList ⟨d, n, none⟩ := by
  have hlength := h.stringLength_append []
  rw [List.append_nil] at hlength
  have hcarried : Carried sep ⟨d, n, none⟩ (literal.toList.take literal.toList.length)
      ⟨d, n, none⟩ := carried_string hlength
  rwa [List.take_length] at hcarried

theorem trim_eq (h : IsLiteral literal) : trim literal.toList = literal.toList := by
  obtain ⟨q, body, hq, -, htext⟩ := h.exists_body
  have hblank : isBlank q = false := isBlank_of_class isQuote (by decide +kernel) hq
  rw [htext, trim_enclosed hblank hblank]

theorem trimmed_eq (h : IsLiteral literal) : trimmed literal = literal := by
  rw [trimmed, h.trim_eq, String.ofList_toList]

theorem toList_body (h : IsLiteral literal) :
    ∃ q, isQuote q = true ∧ literal.toList = q :: ((literalBody literal).toList ++ [q]) := by
  obtain ⟨q, body, hq, -, htext⟩ := h.exists_body
  refine ⟨q, hq, ?_⟩
  rw [literalBody, htext, stripQuotes_quoted q body hq, String.toList_ofList]

end IsLiteral

/-! ## The call -/

variable {name path literal : String}

namespace Expr

open Token

/-- In a call on a path and a literal the tokens of the path come first, and the literal is one
token after them. -/
theorem exists_scan_call_literal (hname : IsName name) (hpath : PlainText path)
    (hisPath : Prepared.isPath path = true) (h : IsLiteral literal) :
    ∃ ts p q r, Argument (.path (trimmed path)) ts ∧
      scan 0 (callForm name [path, literal]).toList =
        .ok (⟨.identifier, name, 0⟩ :: ⟨.leftParen, "(", p⟩ :: (ts ++
          [⟨.comma, ",", q⟩, ⟨.string, literal, q + 1 + 1⟩, ⟨.rightParen, ")", r⟩])) := by
  have htext : (callForm name [path, literal]).toList =
      name.toList ++ '(' :: (path.toList ++ ',' :: ' ' :: (literal.toList ++ [')'])) := by
    simp [toList_callForm, Stage.text]
  have hword : ∀ c ∈ ('(' :: (path.toList ++ ',' :: ' ' :: (literal.toList ++ [')']))).head?,
      isWord c = false := by simpa using (by decide : isWord '(' = false)
  have hident := ScansTo.token 0 (ne_nil_of_identifierLength hname.spelling)
    (first?_identifier hname.spelling hword)
  have hopen := ScansTo.leftParen (0 + byteLength name.toList)
    (path.toList ++ ',' :: ' ' :: (literal.toList ++ [')']))
  obtain ⟨ts, q, hts, hscan⟩ := scans_argument (parse_of_isPath hisPath) hpath.noOpening
    (0 + byteLength name.toList + 1) (',' :: ' ' :: (literal.toList ++ [')']))
    (stops_cons (by decide))
  have hcomma := ScansTo.comma q (' ' :: (literal.toList ++ [')']))
  have hspace := ScansTo.space (q + 1) (literal.toList ++ [')'])
  have hliteral := h.scansTo (q + 1 + 1)
  have hclose := ScansTo.rightParen (q + 1 + 1 + byteLength literal.toList) []
  have hall := hident.trans (hopen.trans (hscan.trans (hcomma.trans (hspace.trans
    (hliteral.trans hclose)))))
  refine ⟨ts, 0 + byteLength name.toList, q, q + 1 + 1 + byteLength literal.toList, hts, ?_⟩
  rw [htext, hall, String.ofList_toList]
  simp [scan, Except.map]

/-- A call on a path and a literal is read as such, whatever is in the literal. -/
theorem parse_call_literal (hname : IsName name) (hstage : isStageName name.toList = true)
    (hpath : PlainText path) (hisPath : Prepared.isPath path = true) (h : IsLiteral literal) :
    parse (callForm name [path, literal]) =
      .ok (.call name [.path (trimmed path), .literal (.string (literalValue literal))]) := by
  obtain ⟨ts, p, q, r, hts, hscan⟩ := exists_scan_call_literal hname hpath hisPath h
  have hliteral : ReadsExpr 0 [⟨.string, literal, q + 1 + 1⟩, ⟨.rightParen, ")", r⟩]
      (.literal (.string (literalValue literal))) [⟨.rightParen, ")", r⟩] :=
    .mk (.atom rfl) (.done (EndsArgument.stopsAt (.inl rfl) 0 []))
  have hargs := ReadsArgs.some (.more (hts ⟨.comma, ",", q⟩ _ (.inr rfl)) rfl (.last hliteral rfl))
  have hcall := @ReadsOperand.call ⟨.identifier, name, 0⟩ ⟨.leftParen, "(", p⟩ _ _ _
    rfl hname.notLiteral rfl hargs
  refine parse_eq_ok.2 ⟨?_, _, ?_, .mk hcall (.done (by simp [StopsAt]))⟩
  · rw [trimmed_callForm hstage]
    exact callForm_ne_empty name _
  · rw [trimmed_callForm hstage, tokenize, hscan]

end Expr

/-! ## Runs that agree -/

namespace Run

variable {α β : Type} {x y z : Run α}

theorem Agree.symm (h : Agree x y) : Agree y x :=
  fun memo memo' hmemo hmemo' => (h memo' memo hmemo' hmemo).symm

theorem Agree.trans (h : Agree x y) (h' : Agree y z) : Agree x z :=
  fun memo memo' hmemo hmemo' =>
    (h memo memo' hmemo hmemo').trans (h' memo' memo' hmemo' hmemo')

/-- After a run with a result the rest agrees with what it does with that result. -/
theorem Gives.agree_bind {a : β} {w : Run β} {f : β → Run α} (h : Gives w a)
    (hf : ∀ b, (f b).IsInquiry) : Agree (w >>= f) (f a) :=
  fun _ _ hmemo hmemo' => h.value?_bind hf hmemo hmemo'

theorem orElse_infallible_bind (default : β) (x : Run α) (f : α → FallibleRun β) :
    orElse default (infallible x >>= f) = x >>= fun a => orElse default (f a) := by
  funext memo
  rw [orElse_apply, infallible_bind_apply, bind_apply, Option.map_bind]
  refine congrArg _ (funext fun r => ?_)
  exact (orElse_apply default (f r.1) r.2).symm

/-- Where there is no failure it does not matter what would come in its place. -/
theorem NeverFails.orElse_eq {x : FallibleRun α} (h : NeverFails x) (a b : α) :
    orElse a x = orElse b x := by
  funext memo
  rw [orElse_apply, orElse_apply]
  cases hrun : x.run memo with
  | none => rfl
  | some r =>
      obtain ⟨e | v, memo'⟩ := r
      · exact absurd hrun (h memo e memo')
      · rfl

end Run

/-! ## The literal as the text of an argument -/

namespace StageFunction

/-- The text that a function takes from a literal after its name: the keys and the order are made of
what is between the quotes, while a field is made of the literal as it stands. -/
def textOfLiteral (f : StageFunction) (literal : String) : String :=
  match f with
  | sum | avg | unique => literal
  | _ => literalBody literal

theorem argsOfValues_pick_string {text : String} (htext : text ≠ "") :
    pick.argsOfValues [.string text] = .keys [text] := by
  simp [argsOfValues, keyNames, Value.toText, htext]

end StageFunction

/-- The name of the field that a text is taken for. -/
def fieldName (text : String) : String :=
  String.ofList (stripQuotes (trim text.toList))

theorem Prepared.ofField_congr {field field' : String} (h : fieldName field = fieldName field') :
    ofField field = ofField field' := by
  rw [ofField, ofField, pathOfField, pathOfField, String.ofList_injective h]

namespace IsLiteral

variable (h : IsLiteral literal)
include h

theorem fieldName_eq : fieldName literal = literalBody literal := by
  rw [fieldName, h.trim_eq, literalBody]

theorem toList_ne_nil : literal.toList ≠ [] := by
  obtain ⟨q, -, htext⟩ := h.toList_body
  simp [htext]

theorem arguments_eq : arguments literal.toList = [literal.toList] := by
  have hone := arguments_of_carried (List.forall_mem_singleton.2 (h.carried 0 0))
    (List.forall_mem_singleton.2 (by rw [h.trim_eq]; exact h.toList_ne_nil))
  rwa [String.intercalate_singleton, List.map_singleton, h.trim_eq] at hone

theorem readStage_eq (hstage : isStageName name.toList = true) :
    readStage (callForm name [literal]) = .ok ⟨name, literal⟩ := by
  have hcarried : Carried '|' ⟨0, 0, none⟩ literal.toList ⟨0, 0, none⟩ := h.carried 0 0
  have hbalance := hcarried.balance []
  have hbalanced : balanced (", ".intercalate [literal]).toList = true := by
    rw [String.intercalate_singleton]
    simpa [balanced, balancedFrom] using hbalance
  rw [readStage_of_balanced hstage hbalanced, String.intercalate_singleton, h.trimmed_eq]

theorem readKeys_eq (hbody : literalBody literal ≠ "") :
    readKeys literal = [literalBody literal] := by
  obtain ⟨q, hq, htext⟩ := h.toList_body
  have hbracket : q ≠ '[' := ne_of_class isQuote hq (by decide)
  have hunbracketed : unbracketed literal.toList = literal.toList := by
    rw [htext, unbracketed]
    intro rest he
    exact hbracket (List.cons.inj he).1
  have hstrip : stripQuotes literal.toList ≠ [] := fun hnil =>
    hbody (by rw [literalBody, hnil])
  simp [readKeys, h.trim_eq, hunbracketed, h.arguments_eq, hstrip, literalBody]

theorem readSortOrder_eq : readSortOrder literal = .ok ⟨some (literalBody literal), false⟩ := by
  obtain ⟨q, hq, htext⟩ := h.toList_body
  have hbrace : q ≠ '\x7b' := ne_of_class isQuote hq (by decide)
  have hbraced : braced? literal.toList = none := by
    rw [htext, braced?]
    intro rest he
    exact hbrace (List.cons.inj he).1
  simp [readSortOrder, readFieldMap, h.trim_eq, hbraced, h.arguments_eq, literalBody]

/-- A literal after the name of a function is read as the value that its text would be. -/
theorem readArgs_eq {f : StageFunction} (hf : f ∈ StageFunction.pick :: StageFunction.keyed)
    (hbody : literalBody literal ≠ "") (nested : Nested) (data : Value) :
    f.readArgs nested literal data = pure (f.argsOfValues [.string (f.textOfLiteral literal)]) := by
  have hempty : literal.isEmpty = false := by
    simpa using fun he => h.toList_ne_nil (by rw [he]; rfl)
  simp only [StageFunction.keyed, List.mem_cons, List.not_mem_nil, or_false] at hf
  rcases hf with rfl | rfl | rfl | rfl | rfl
  · have htext : StageFunction.pick.textOfLiteral literal = literalBody literal := rfl
    rw [htext, StageFunction.argsOfValues_pick_string hbody, StageFunction.readArgs, h.trimmed_eq,
      h.readKeys_eq hbody]
  all_goals
    simp only [StageFunction.readArgs, h.trimmed_eq, hempty, h.readSortOrder_eq]
    rfl

end IsLiteral

/-! ## Both forms on a list of objects -/

/-- The path leads from the data to a list of objects. -/
structure LeadsToObjects (path : String) (data : Value) (items : List Value) : Prop where
  plain : PlainText path
  isPath : Prepared.isPath path = true
  follow : data.follow (trimmed path) = .array items
  objects : ∀ x ∈ items, ∃ entries, x = .object entries

/-- The literal names the same key after the name of the function as it does in a call: wherever a
path leads to a list of objects, the two forms come to the same. -/
def NamesSameKey (f : StageFunction) (literal : String) : Prop :=
  ∀ (s : Scope) (depth : Nat) (path : String) (data : Value) (items : List Value),
    LeadsToObjects path data items →
    Run.Agree (s.evaluate (depth + 1) (stageForm f.name path [literal]) data)
      (s.evaluate (depth + 1) (callForm f.name [path, literal]) data)

variable {f : StageFunction} {data : Value} {items : List Value}

theorem StageFunction.isName (f : StageFunction) : Expr.IsName f.name := by
  cases f <;> exact ⟨by decide +kernel, by decide⟩

theorem StageFunction.isStageName_name (f : StageFunction) : isStageName f.name.toList = true := by
  cases f <;> decide

namespace Scope

variable (s : Scope) (depth : Nat)

/-- What a function does with a value, if the text is its argument. -/
def applyText (f : StageFunction) (input : Value) (text : String) : FallibleRun Value :=
  f.apply (s.nestedAt depth) input (f.argsOfValues [.string text])

theorem orElse_applyText_isInquiry (default input : Value) (text : String) :
    (Run.orElse default (s.applyText depth f input text)).IsInquiry :=
  Run.closed_isInquiry.orElse default (x := fun _ => s.applyText depth f input text)
    (StageFunction.apply_closed Run.closed_isInquiry (s.nestedAt_isInquiry depth) f input
      (f.argsOfValues_within _))

theorem applyText_pick {text : String} (htext : text ≠ "") :
    s.applyText depth .pick (.array items) text =
      pure (.array (items.map (Items.pick [text]))) := by
  rw [applyText, StageFunction.argsOfValues_pick_string htext, StageFunction.apply_pick,
    if_neg (List.cons_ne_nil _ _)]

/-- Texts that name one field are the same to the functions that read keys from elements. -/
theorem applyText_congr (hf : f ∈ StageFunction.keyed) {text text' : String}
    (h : fieldName text = fieldName text') :
    s.applyText depth f (.array items) text = s.applyText depth f (.array items) text' := by
  have hfield : Prepared.ofField text = .ofField text' := Prepared.ofField_congr h
  simp only [StageFunction.keyed, List.mem_cons, List.not_mem_nil, or_false] at hf
  rcases hf with rfl | rfl | rfl | rfl
  · exact congrArg (fun p => StageFunction.apply .sum _ _ (.expression p)) hfield
  · exact congrArg (fun p => StageFunction.apply .avg _ _ (.expression p)) hfield
  · exact congrArg (fun p => StageFunction.apply .unique _ _ (.expression p)) hfield
  · have hsort : StageFunction.sortItems (s.nestedAt depth) ⟨some text, false⟩ items =
        StageFunction.sortItems (s.nestedAt depth) ⟨some text', false⟩ items := by
      simp only [StageFunction.sortItems, Option.map_some, hfield]
    exact congrArg (fun found => do return Value.array (← Run.infallible found)) hsort

/-- With a key that is not empty nothing fails. -/
theorem applyText_neverFails (hf : f ∈ StageFunction.pick :: StageFunction.keyed) {text : String}
    (htext : text ≠ "") : Run.NeverFails (s.applyText depth f (.array items) text) := by
  rcases List.mem_cons.1 hf with rfl | hkeyed
  · rw [s.applyText_pick depth htext]
    exact .pure _
  · refine StageFunction.apply_neverFails ?_ _
    rintro rfl
    exact absurd hkeyed (by decide)

end Scope

namespace LeadsToObjects

variable (h : LeadsToObjects path data items) (s : Scope) (depth : Nat)
include h

theorem gives_initial :
    Run.Gives (s.initial (s.nestedAt (depth + 1)) (trimmed path) data) (.array items) := by
  have hdollar : (trimmed path).toList.head? = some '$' := by
    have hpath := h.isPath
    rw [Prepared.isPath, Token.isPath, beq_iff_eq, ← toList_trimmed] at hpath
    obtain ⟨cs, htext⟩ := Token.exists_of_pathLength hpath
    rw [htext, List.head?_cons]
  have hdata : trimmed path ≠ "data" := by
    intro he
    rw [he] at hdollar
    exact absurd hdollar (by decide)
  have hvalue : Run.Gives (s.evaluate depth path data) (.array items) := by
    refine Run.Gives.orElse Value.null ?_
    rw [Scope.tryEvaluate, h.plain.evalPrepared_eq (Expr.parse_of_isPath h.isPath),
      Scope.evalExpr, ← h.follow]
    exact .infallible (.follow _ data)
  rw [Scope.initial, if_neg hdata, if_pos hdollar, Prepared.ofText_trimmed, Scope.nestedAt_evaluate]
  exact hvalue

/-- As a stage the function takes the text of the literal. -/
theorem agree_stageForm (hliteral : IsLiteral literal) (hbody : literalBody literal ≠ "")
    (hf : f ∈ StageFunction.pick :: StageFunction.keyed) :
    Run.Agree (s.evaluate (depth + 1) (stageForm f.name path [literal]) data)
      (Run.orElse (.array [])
        (s.applyText (depth + 1) f (.array items) (f.textOfLiteral literal))) := by
  have hstage := f.isStageName_name
  have hcarried := carried_callForm_of_carried hstage
    (List.forall_mem_singleton.2 fun n => hliteral.carried 1 n)
  have hstages : (stages (callForm f.name [literal]).toList).map String.ofList =
      [callForm f.name [literal]] := by
    rw [stages, parts, hcarried.uncut.partsFrom_eq, List.map_singleton, toList_callForm,
      Stage.trim_text hstage, List.map_singleton, callForm_eq]
  have hstart : stageForm f.name path [literal] = startedFrom path (callForm f.name [literal]) :=
    rfl
  have hrun :
      s.runStages (s.nestedAt (depth + 1)) data [callForm f.name [literal]] (.array items) =
        Run.orElse (.array [])
          (s.applyText (depth + 1) f (.array items) (f.textOfLiteral literal)) := by
    rw [Scope.runStages, s.runStage_stageFunction (hliteral.readStage_eq hstage),
      hliteral.readArgs_eq hf hbody, pure_bind]
    exact bind_pure _
  rw [hstart, s.evaluate_startedFrom (depth + 1) h.plain, hstages, ← hrun]
  exact (h.gives_initial s depth).agree_bind (s.runStages_isInquiry _)

/-- In a call it takes the value. -/
theorem agree_callForm (f : StageFunction) (hliteral : IsLiteral literal) :
    Run.Agree (s.evaluate depth (callForm f.name [path, literal]) data)
      (Run.orElse .null (s.applyText depth f (.array items) (literalValue literal))) := by
  have hstage := f.isStageName_name
  have hcarried := carried_callForm_of_carried hstage
    (List.forall_mem_cons.2 ⟨fun n => h.plain.carried (by decide) 1 n,
      List.forall_mem_singleton.2 fun n => hliteral.carried 1 n⟩)
  have hparse := Expr.parse_call_literal f.isName hstage h.plain h.isPath hliteral
  have hcall (v : Value) : Function.call (s.nestedAt depth) s.patternBudget f.name
      [v, .string (literalValue literal)] = s.applyText depth f v (literalValue literal) := by
    rw [Function.call, Builtin.ofName?_stageFunction, StageFunction.ofName?_name]
    rfl
  have heval : s.evaluate depth (callForm f.name [path, literal]) data =
      Run.follow (trimmed path) data >>= fun v =>
        Run.orElse .null (s.applyText depth f v (literalValue literal)) := by
    rw [Scope.evaluate, Scope.tryEvaluate, Prepared.ofText_callForm hstage hcarried hparse,
      Scope.evalPrepared]
    simp only [Scope.evalExpr, Scope.evalArgs, bind_assoc, pure_bind, hcall]
    exact Run.orElse_infallible_bind _ _ _
  have hfollow := Run.Gives.follow (trimmed path) data
  rw [h.follow] at hfollow
  rw [heval]
  exact hfollow.agree_bind fun v => s.orElse_applyText_isInquiry depth .null v _

end LeadsToObjects

/-! ## The same key -/

theorem literalBody_ne_empty (hvalue : literalValue literal ≠ "") : literalBody literal ≠ "" := by
  intro he
  have hbody : stripQuotes literal.toList = [] := String.ofList_injective he
  rw [literalValue, unquote, hbody] at hvalue
  exact hvalue rfl

/-- The forms agree where the function does the same with the two texts. -/
theorem namesSameKey_of_applyText (h : IsLiteral literal) (hvalue : literalValue literal ≠ "")
    (hf : f ∈ StageFunction.pick :: StageFunction.keyed)
    (hsame : ∀ (s : Scope) (depth : Nat) (items : List Value),
      s.applyText depth f (.array items) (f.textOfLiteral literal) =
        s.applyText depth f (.array items) (literalValue literal)) : NamesSameKey f literal := by
  intro s depth path data items hpath
  have hstage := hpath.agree_stageForm s depth h (literalBody_ne_empty hvalue) hf
  have hcall := hpath.agree_callForm s (depth + 1) f h
  rw [hsame, (s.applyText_neverFails _ hf hvalue).orElse_eq _ .null] at hstage
  exact hstage.trans hcall.symm

/-- An object with one key. -/
def soleKey (key : String) : Value :=
  .object [(key, .bool true)]

/-- It shows which key is read. -/
theorem pick_soleKey_eq_iff {key key' : String} :
    Items.pick [key] (soleKey key) = Items.pick [key'] (soleKey key) ↔ key' = key := by
  refine ⟨fun h => ?_, fun h => by rw [h]⟩
  by_contra hne
  simp [soleKey, Items.pick, Keyed.get?, Ne.symm hne, Keyed.ofList, Keyed.extend, Keyed.insert] at h

theorem leadsToObjects_root (key : String) :
    LeadsToObjects "$" (.array [soleKey key]) [soleKey key] where
  plain := .root
  isPath := by decide +kernel
  follow := by
    rw [trimmed_root, Value.follow_root]
    rfl
  objects := List.forall_mem_singleton.2 ⟨_, rfl⟩

theorem Scope.literalValue_eq_of_agree (s : Scope) (depth : Nat) (h : IsLiteral literal)
    (hvalue : literalValue literal ≠ "")
    (hagree : Run.Agree
      (s.evaluate (depth + 1) (stageForm StageFunction.pick.name "$" [literal])
        (.array [soleKey (literalBody literal)]))
      (s.evaluate (depth + 1) (callForm StageFunction.pick.name ["$", literal])
        (.array [soleKey (literalBody literal)]))) :
    literalValue literal = literalBody literal := by
  have hbody := literalBody_ne_empty hvalue
  have hroot := leadsToObjects_root (literalBody literal)
  have hpick (default : Value) {text : String} (htext : text ≠ "") :
      Run.Gives (Run.orElse default
        (s.applyText (depth + 1) .pick (.array [soleKey (literalBody literal)]) text))
        (.array [Items.pick [text] (soleKey (literalBody literal))]) := by
    rw [s.applyText_pick (depth + 1) htext]
    exact (Run.Gives.ok _).orElse default
  have hstage := hroot.agree_stageForm s depth h hbody List.mem_cons_self
  have hcall := hroot.agree_callForm s (depth + 1) .pick h
  have hpicked := (hstage.symm.trans (hagree.trans hcall)).eq_of_gives
    (hpick _ hbody) (hpick _ hvalue)
  exact pick_soleKey_eq_iff.1 (List.singleton_inj.1 (Value.array.inj hpicked))

theorem namesSameKey_pick_iff (h : IsLiteral literal) (hvalue : literalValue literal ≠ "") :
    NamesSameKey .pick literal ↔ literalValue literal = literalBody literal := by
  constructor
  · intro hsame
    exact (Scope.mk {} Template.resolve 0).literalValue_eq_of_agree 0 h hvalue
      (hsame _ 0 "$" _ _ (leadsToObjects_root _))
  · intro heq
    refine namesSameKey_of_applyText h hvalue List.mem_cons_self fun s depth items => ?_
    rw [heq]
    rfl

/-- For the functions that read keys from elements it is enough that the two texts name one field.
-/
theorem namesSameKey_of_fieldName (h : IsLiteral literal) (hvalue : literalValue literal ≠ "")
    (hf : f ∈ StageFunction.keyed)
    (hname : fieldName (f.textOfLiteral literal) = fieldName (literalValue literal)) :
    NamesSameKey f literal :=
  namesSameKey_of_applyText h hvalue (List.mem_cons_of_mem _ hf) fun s depth _ =>
    s.applyText_congr depth hf hname

/-- Whether a literal names the same key in the two forms. To `pick` it does exactly if its value
is what is between its quotes, that is, if no quote in it has lost a backslash. To `sort` it does
if the two name one field, and to the functions that make a field of the literal itself if what is
between the quotes is the field that the value names. -/
theorem literal_namesSameKey (h : IsLiteral literal) (hvalue : literalValue literal ≠ "") :
    (NamesSameKey .pick literal ↔ literalValue literal = literalBody literal) ∧
    (fieldName (literalValue literal) = fieldName (literalBody literal) →
      NamesSameKey .sort literal) ∧
    (fieldName (literalValue literal) = literalBody literal →
      ∀ f ∈ [StageFunction.sum, .avg, .unique], NamesSameKey f literal) := by
  refine ⟨namesSameKey_pick_iff h hvalue, fun hname => ?_, fun hname f hf => ?_⟩
  · exact namesSameKey_of_fieldName h hvalue (by decide) hname.symm
  · have hliteral : fieldName literal = fieldName (literalValue literal) :=
      h.fieldName_eq.trans hname.symm
    simp only [List.mem_cons, List.not_mem_nil, or_false] at hf
    rcases hf with rfl | rfl | rfl <;>
      exact namesSameKey_of_fieldName h hvalue (by decide) hliteral

/-- A key with separators and an opening brace in it. -/
theorem literal_namesSameKey_of_separators :
    let literal := "\"a, \x7bb|\""
    IsLiteral literal ∧ literalValue literal = "a, \x7bb|" ∧ literalBody literal = "a, \x7bb|" ∧
      ∀ f ∈ StageFunction.pick :: StageFunction.keyed, NamesSameKey f literal := by
  intro literal
  have hliteral : IsLiteral literal := .of_toOption (by decide +kernel)
  have hvalue : literalValue literal = "a, \x7bb|" := by decide +kernel
  have hbody : literalBody literal = "a, \x7bb|" := by decide +kernel
  have hname : fieldName "a, \x7bb|" = "a, \x7bb|" := by decide +kernel
  obtain ⟨hpick, hsort, hothers⟩ := literal_namesSameKey hliteral (by rw [hvalue]; decide)
  rw [hvalue, hbody] at hpick hsort hothers
  refine ⟨hliteral, hvalue, hbody, fun f hf => ?_⟩
  simp only [StageFunction.keyed, List.mem_cons, List.not_mem_nil, or_false] at hf
  rcases hf with rfl | rfl | rfl | rfl | rfl
  · exact hpick.2 rfl
  · exact hothers hname _ (by decide)
  · exact hothers hname _ (by decide)
  · exact hothers hname _ (by decide)
  · exact hsort rfl

/-- The stage keeps the backslash before a quote in the key, and the call has dropped it. -/
theorem not_forall_namesSameKey :
    ¬ ∀ literal, IsLiteral literal → literalValue literal ≠ "" →
      ∀ f ∈ StageFunction.pick :: StageFunction.keyed, NamesSameKey f literal := by
  intro hall
  have hliteral : IsLiteral "'it\\'s'" := .of_toOption (by decide +kernel)
  have hvalue : literalValue "'it\\'s'" ≠ "" := by decide +kernel
  have hsame := hall _ hliteral hvalue .pick List.mem_cons_self
  exact absurd ((namesSameKey_pick_iff hliteral hvalue).1 hsame) (by decide +kernel)

end Sluice
