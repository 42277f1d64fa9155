import Sluice.Proofs.CallTexts
import Sluice.Proofs.Casts
import Sluice.Proofs.Results

/-!
# Stages are calls

A function called as a stage takes the value before it as its first argument. Where the
arguments of the function are values, this is the same as calling it with the text before the
stage as the first argument.
-/
namespace Sluice

open Sluice.Text Sluice.Pipeline

/-! ## Functions of values -/

theorem Builtin.ofName?_name (b : Builtin) : ofName? b.name = some b := by
  cases b with
  | operator op => simp [ofName?, name, Operator.ofSymbol?_symbol]
  | _ => decide

theorem StageFunction.ofName?_name (f : StageFunction) : ofName? f.name = some f := by
  cases f <;> decide

/-- No function is both. -/
theorem StageFunction.ofName?_builtin (b : Builtin) : ofName? b.name = none := by
  cases b with
  | operator op => cases op <;> decide
  | _ => decide

theorem Builtin.ofName?_stageFunction (f : StageFunction) : ofName? f.name = none := by
  cases f <;> decide

/-- The builtins whose names are words. -/
def Builtin.words : List Builtin :=
  named ++ (Operator.all.filter Operator.isKeyword).map operator

/-- The stage functions that use no arguments. -/
def StageFunction.argumentless : List StageFunction :=
  [count, first, last, reverse, keys, values]

/-- The stage functions whose arguments are values. -/
def StageFunction.valued : List StageFunction :=
  [take, skip, nth, flatten, join, add, sub, mul, div, mod]

/-- The names of functions that are called with values, or without using any. -/
def Function.valueNames : List String :=
  Builtin.words.map Builtin.name ++
    (StageFunction.argumentless ++ StageFunction.valued).map StageFunction.name

theorem Function.isName_of_mem {name : String} (h : name ∈ valueNames) :
    Expr.IsName name ∧ isStageName name.toList = true := by
  have hall : valueNames.all fun name =>
      Token.identifierLength name.toList == some name.toList.length &&
        !Expr.isLiteralWord name && isStageName name.toList := by decide +kernel
  have hname := List.all_eq_true.1 hall name h
  simp only [Bool.and_eq_true, beq_iff_eq, Bool.not_eq_true'] at hname
  exact ⟨⟨hname.1.1, hname.1.2⟩, hname.2⟩

variable {nested : Nested} {budget : Nat} {name text stage : String} {data input : Value}
  {vals : List Value} {f : StageFunction}

theorem StageFunction.exists_apply (hf : f ∈ argumentless ++ valued) (nested : Nested)
    (input : Value) (args : Arguments) : ∃ v, f.apply nested input args = pure v := by
  cases f <;> first | exact absurd hf (by decide) | (cases input <;> exact ⟨_, rfl⟩)

theorem StageFunction.apply_argumentless (hf : f ∈ argumentless) (nested : Nested) (input : Value)
    (args args' : Arguments) : f.apply nested input args = f.apply nested input args' := by
  cases f <;> first | exact absurd hf (by decide) | (cases input <;> rfl)

theorem StageFunction.argsOfValues_eq (hf : f ∈ argumentless ++ valued) (vals : List Value) :
    f.argsOfValues vals = .values vals := by
  cases f <;> first | exact absurd hf (by decide) | rfl

/-- A function that is run as a stage with arguments that have been read and evaluated. -/
theorem StageFunction.gives_stage {v : Value} (hf : f ∈ argumentless ++ valued)
    (hv : f.apply nested input (.values vals) = pure v)
    (hargs : Run.Gives (evaluateAll nested data (arguments (trim text.toList))) vals) :
    Run.Gives (f.readArgs nested text data >>= fun args => f.apply nested input args).run
      (.ok v) := by
  rcases List.mem_append.1 hf with hnone | hvalued
  · have hread : f.readArgs nested text data = pure .none := by
      cases f <;> first | exact absurd hnone (by decide) | rfl
    have happly := apply_argumentless hnone nested input .none (.values vals)
    rw [hread, pure_bind, happly, hv]
    exact .ok v
  · have hread : f.readArgs nested text data = (do
        return Arguments.values (← Run.infallible
          (evaluateAll nested data (arguments (trimmed text).toList)))) := by
      cases f <;> first | exact absurd hvalued (by decide) | rfl
    rw [hread, toList_trimmed]
    have hvals := Run.Gives.infallible hargs
    refine Run.Gives.andThen (Run.Gives.andThen hvals (.ok (Arguments.values vals))) ?_
    rw [hv]
    exact .ok v

theorem Function.call_builtin (b : Builtin) :
    call nested budget b.name vals = pure (b.call budget vals) := by
  rw [call, Builtin.ofName?_name]

theorem Function.call_stageFunction (hf : f ∈ StageFunction.argumentless ++ StageFunction.valued) :
    call nested budget f.name (input :: vals) = f.apply nested input (.values vals) := by
  rw [call, Builtin.ofName?_stageFunction, StageFunction.ofName?_name]
  dsimp only
  rw [List.tail_cons, StageFunction.argsOfValues_eq hf, List.headD_cons]

theorem Scope.runStage_builtin (s : Scope) {b : Builtin} {args : String}
    (hread : readStage stage = .ok ⟨b.name, args⟩) :
    s.runStage nested stage input data =
      Run.infallible (s.callBuiltin nested b args input data) := by
  rw [runStage, hread]
  dsimp only
  rw [StageFunction.ofName?_builtin, Builtin.ofName?_name]

theorem Scope.runStage_stageFunction (s : Scope) {args : String}
    (hread : readStage stage = .ok ⟨f.name, args⟩) :
    s.runStage nested stage input data =
      f.readArgs nested args data >>= fun args => f.apply nested input args := by
  rw [runStage, hread]
  dsimp only
  rw [StageFunction.ofName?_name]

/-- Called with values and run as a stage on the first of them, a function of values has the
same result. -/
theorem Scope.exists_gives_call_and_stage (s : Scope) {args : String}
    (hname : name ∈ Function.valueNames) (hread : readStage stage = .ok ⟨name, trimmed args⟩)
    (hargs : Run.Gives
      (StageFunction.evaluateAll nested data (arguments (trim args.toList))) vals) :
    ∃ v, Run.Gives (Function.call nested s.patternBudget name (input :: vals)).run (.ok v) ∧
      Run.Gives (s.runStage nested stage input data).run (.ok v) := by
  rcases List.mem_append.1 hname with hname | hname
  · obtain ⟨b, -, rfl⟩ := List.mem_map.1 hname
    refine ⟨b.call s.patternBudget (input :: vals), ?_, ?_⟩
    · rw [Function.call_builtin]
      exact .ok _
    · rw [← toList_trimmed] at hargs
      rw [s.runStage_builtin hread, callBuiltin]
      exact Run.Gives.infallible (Run.Gives.bind hargs (.pure _))
  · obtain ⟨f, hf, rfl⟩ := List.mem_map.1 hname
    obtain ⟨v, hv⟩ := StageFunction.exists_apply hf nested input (.values vals)
    refine ⟨v, ?_, ?_⟩
    · rw [Function.call_stageFunction hf, hv]
      exact .ok v
    · rw [← trim_trim, ← toList_trimmed] at hargs
      rw [s.runStage_stageFunction hread]
      exact StageFunction.gives_stage hf hv hargs

/-! ## Texts with values -/

/-- The text is an expression that has a value, evaluated as it stands and as a text inside of
another. -/
structure Scope.HasValue (s : Scope) (depth : Nat) (data : Value) (text : String) (e : Expr)
    (v : Value) : Prop where
  parses : Expr.parse text = .ok e
  expr : Run.Gives (s.evalExpr (s.nestedAt depth) e data).run (.ok v)
  nested : Run.Gives ((s.nestedAt depth).evaluate (.ofText text) data) v

namespace Scope

variable {s : Scope} {depth : Nat} {e : Expr} {v : Value} {args : List String}

/-- What is evaluated without a failure has a value one level up. -/
theorem exists_hasValue {memo memo' : PathMemo} (htext : PlainText text) (hmemo : memo.Sound)
    (h : (s.tryEvaluate depth text data).run memo = some (.ok v, memo')) {k : Nat}
    (hk : depth < k) : ∃ e, s.HasValue k data text e v := by
  obtain ⟨e, he⟩ := htext.parses
  obtain ⟨k, rfl⟩ : ∃ k', k = k' + 1 := ⟨k - 1, by omega⟩
  refine ⟨e, he, ?_, ?_⟩
  · rw [← htext.evalPrepared_eq he]
    exact s.gives_of_tryEvaluate hmemo h (Nat.le_of_lt hk)
  · rw [nestedAt_evaluate]
    exact Run.Gives.orElse Value.null (s.gives_of_tryEvaluate hmemo h (Nat.le_of_lt_succ hk))

theorem gives_evalArgs {found : List (Expr × Value)}
    (h : List.Forall₂ (fun arg x => s.HasValue depth data arg x.1 x.2) args found) :
    Run.Gives (s.evalArgs (s.nestedAt depth) (found.map Prod.fst) data).run
      (.ok (found.map Prod.snd)) := by
  induction h with
  | nil => exact .ok []
  | cons hx _ ih =>
      rw [List.map_cons, List.map_cons, evalArgs]
      exact Run.Gives.andThen hx.expr (Run.Gives.andThen ih (.ok _))

/-- The value that a pipeline starts from is that of its first text, unless this is the word
for the data or a cast. -/
theorem HasValue.gives_initial (h : s.HasValue depth data text e v) (htext : PlainText text)
    (hdata : trimmed text ≠ "data") (hcast : ¬ IsCast text) :
    Run.Gives (s.initial (s.nestedAt depth) (trimmed text) data) v := by
  unfold initial
  rw [if_neg hdata]
  split
  · rw [Prepared.ofText_trimmed]
    exact h.nested
  · cases hstage : castStage? (trimmed text) with
    | some cast => exact absurd (isCast_of_castStage? htext hstage) hcast
    | none =>
        have hparse : Expr.parse (trimmed text) = .ok e := by
          simpa only [Expr.parse_eq_ok, trimmed_trimmed] using h.parses
        have htext : s.evalText (s.nestedAt depth) (trimmed text) data =
            s.evalExpr (s.nestedAt depth) e data := by rw [evalText, hparse]
        dsimp only
        rw [htext]
        exact Run.Gives.orElse .null h.expr

theorem gives_evaluateAll {found : List (Expr × Value)}
    (h : List.Forall₂ (fun arg x => s.HasValue depth data arg x.1 x.2) args found) :
    Run.Gives (StageFunction.evaluateAll (s.nestedAt depth) data
      (args.map fun arg => trim arg.toList)) (found.map Prod.snd) := by
  refine Run.Gives.mapM ?_
  rw [List.forall₂_map_left_iff, List.forall₂_map_right_iff]
  refine h.imp fun arg x hx => ?_
  rw [← trimmed, Prepared.ofText_trimmed]
  exact hx.nested

/-- A pipeline of a text and one stage. -/
theorem gives_stageForm {w : Value} (hstage : isStageName name.toList = true)
    (htext : PlainText text) (hargs : ∀ arg ∈ args, PlainText arg)
    (hinitial : Run.Gives (s.initial (s.nestedAt depth) (trimmed text) data) v)
    (hrun : Run.Gives (s.runStage (s.nestedAt depth) (callForm name args) v data).run (.ok w)) :
    Run.Gives (s.evaluate depth (stageForm name text args) data) w := by
  have hstages : (stages (trimmed (stageForm name text args)).toList).map String.ofList =
      [trimmed text, callForm name args] := by
    rw [stages_stageForm hstage htext hargs, List.map_cons, List.map_singleton,
      String.ofList_toList, trimmed]
  refine Run.Gives.orElse Value.null ?_
  rw [tryEvaluate, Prepared.ofText_stageForm hstage htext hargs, evalPrepared, runPipeline, hstages]
  refine Run.Gives.infallible (hinitial.bind ?_)
  have hend : Run.Gives (s.runStages (s.nestedAt depth) data [] w) w := by
    rw [runStages]
    exact .pure w
  rw [runStages]
  refine Run.Gives.bind ?_ hend
  exact Run.Gives.orElse (Value.array []) hrun

theorem gives_callForm {found : List (Expr × Value)} {w : Value}
    (hname : name ∈ Function.valueNames) (hargs : ∀ arg ∈ args, PlainText arg) (hne : args ≠ [])
    (h : List.Forall₂ (fun arg x => s.HasValue depth data arg x.1 x.2) args found)
    (hcall : Run.Gives (Function.call (s.nestedAt depth) s.patternBudget name
      (found.map Prod.snd)).run (.ok w)) :
    Run.Gives (s.evaluate depth (callForm name args) data) w := by
  obtain ⟨hspelling, hstage⟩ := Function.isName_of_mem hname
  have hexprs : List.Forall₂ (fun arg e => Expr.parse arg = .ok e) args (found.map Prod.fst) :=
    List.forall₂_map_right_iff.2 (h.imp fun _ _ hx => hx.parses)
  have hopen : ∀ arg ∈ args, '\x7b' ∉ arg.toList := fun arg harg => (hargs arg harg).noOpening
  have hparse := Expr.parse_callForm hspelling hstage hexprs hopen hne
  refine Run.Gives.orElse Value.null ?_
  rw [tryEvaluate, Prepared.ofText_callForm hstage (carried_callForm hstage hargs) hparse,
    evalPrepared, evalExpr]
  exact Run.Gives.andThen (gives_evalArgs h) hcall

end Scope

/-! ## The two forms -/

theorem Run.Gives.evaluate {e : Engine} {v : Value}
    (h : Run.Gives (e.scope.evaluate e.depth text data) v) (hmemo : e.memo.Sound) :
    ∃ e', e.evaluate text data = some (v, e') := by
  obtain ⟨memo, -, hrun⟩ := h e.memo hmemo
  exact ⟨{ e with memo }, by rw [Engine.evaluate, Engine.run, hrun]; rfl⟩

theorem Engine.exists_hasValue {e e' : Engine} {depth k : Nat} {v : Value} (htext : PlainText text)
    (hmemo : e.memo.Sound) (h : { e with depth }.tryEvaluate text data = some (.ok v, e'))
    (hk : depth < k) : ∃ expr, e.scope.HasValue k data text expr v := by
  obtain ⟨⟨outcome, e₁⟩, hrun, he⟩ := Option.map_eq_some_iff.1 h
  obtain ⟨⟨outcome', memo⟩, hmap, he'⟩ := Option.map_eq_some_iff.1 hrun
  cases he'
  cases outcome with
  | error failure => cases he
  | ok v' =>
      cases he
      exact Scope.exists_hasValue htext hmemo hmap hk

theorem exists_forall₂ {α β : Type} {R : α → β → Prop} {items : List α}
    (h : ∀ a ∈ items, ∃ b, R a b) : ∃ found, List.Forall₂ R items found := by
  induction items with
  | nil => exact ⟨[], .nil⟩
  | cons a items ih =>
      obtain ⟨⟨b, hb⟩, hrest⟩ := List.forall_mem_cons.1 h
      obtain ⟨found, hfound⟩ := ih hrest
      exact ⟨b :: found, .cons hb hfound⟩

/-- A stage after a text is a call with the text as its first argument. The function is a
builtin with a word for its name or a stage function of values, the texts are plain, and the
first is neither the word for the data nor a cast. The engine remembers nothing false, as no
engine of a session does. If all texts are evaluated without a failure when they nest less deep
than the engine allows, then both forms have a value, and it is the same. -/
theorem Engine.evaluate_stageForm {e : Engine} {name text : String} {args : List String}
    {data : Value} {depth : Nat} (hname : name ∈ Function.valueNames) (htext : PlainText text)
    (hdata : trimmed text ≠ "data") (hcast : ¬ IsCast text) (hargs : ∀ arg ∈ args, PlainText arg)
    (hmemo : e.memo.Sound) (hdepth : depth < e.depth)
    (hvalues : ∀ t ∈ text :: args, ∃ v e', { e with depth }.tryEvaluate t data = some (.ok v, e')) :
    ∃ v e₁ e₂, e.evaluate (stageForm name text args) data = some (v, e₁) ∧
      e.evaluate (callForm name (text :: args)) data = some (v, e₂) := by
  obtain ⟨-, hstage⟩ := Function.isName_of_mem hname
  have hplain : ∀ t ∈ text :: args, PlainText t := List.forall_mem_cons.2 ⟨htext, hargs⟩
  have hfound (t : String) (ht : t ∈ text :: args) :
      ∃ x : Expr × Value, e.scope.HasValue e.depth data t x.1 x.2 := by
    obtain ⟨v, e', hv⟩ := hvalues t ht
    obtain ⟨expr, hexpr⟩ := exists_hasValue (hplain t ht) hmemo hv hdepth
    exact ⟨(expr, v), hexpr⟩
  obtain ⟨input, hinput⟩ := hfound text (by simp)
  obtain ⟨found, hothers⟩ := exists_forall₂ fun t ht => hfound t (List.mem_cons_of_mem text ht)
  have hread := readStage_callForm hstage hargs
  have hevaluated := Scope.gives_evaluateAll hothers
  rw [← arguments_intercalate hargs] at hevaluated
  obtain ⟨v, hcall, hrun⟩ := e.scope.exists_gives_call_and_stage hname hread hevaluated
  have hinitial := hinput.gives_initial htext hdata hcast
  obtain ⟨e₁, he₁⟩ := (Scope.gives_stageForm hstage htext hargs hinitial hrun).evaluate hmemo
  obtain ⟨e₂, he₂⟩ := (Scope.gives_callForm hname hplain (List.cons_ne_nil _ _)
    (.cons hinput hothers) hcall).evaluate hmemo
  exact ⟨v, e₁, e₂, he₁, he₂⟩

/-- Strings with the separators of stages and of arguments in them. -/
theorem Engine.evaluate_stageForm_of_strings :
    ∃ v e₁ e₂,
      (Engine.mk {} {} Template.resolve (.fresh true) 1).evaluate "'a|b' | contains(',')" .null =
        some (v, e₁) ∧
      (Engine.mk {} {} Template.resolve (.fresh true) 1).evaluate "contains('a|b', ',')" .null =
        some (v, e₂) := by
  have hstring {t : String}
      (htokens : (Token.tokenize (trimmed t)).toOption = some [⟨.string, t, 0⟩])
      (hne : trimmed t ≠ "") (hopen : '\x7b' ∉ t.toList) (hclose : '\x7d' ∉ t.toList) :
      PlainText t ∧ ∃ v, Expr.parse t = .ok (.literal v) := by
    have hall : Token.tokenize (trimmed t) = .ok [⟨.string, t, 0⟩] := by
      cases hts : Token.tokenize (trimmed t) with
      | error failure => simp [hts, Except.toOption] at htokens
      | ok ts => simpa [hts, Except.toOption] using htokens
    have hparse : Expr.parse t = .ok (.literal _) :=
      Expr.parse_eq_ok.2 ⟨hne, _, hall, .mk (.atom rfl) (.done (by simp [Expr.StopsAt]))⟩
    refine ⟨⟨⟨_, hparse⟩, hopen, hclose, fun ts hts t ht hkind => ?_⟩, _, hparse⟩
    obtain rfl := Except.ok.inj (hall.symm.trans hts)
    obtain rfl := List.mem_singleton.1 ht
    cases hkind
  have hvalue {t : String} (h : PlainText t ∧ ∃ v, Expr.parse t = .ok (.literal v)) :
      ∃ v e', (Engine.mk {} {} Template.resolve (.fresh true) 0).tryEvaluate t .null =
        some (.ok v, e') := by
    obtain ⟨hplain, v, hparse⟩ := h
    refine ⟨v, Engine.mk {} {} Template.resolve (.fresh true) 0, ?_⟩
    rw [Engine.tryEvaluate, Scope.tryEvaluate, hplain.evalPrepared_eq hparse, Scope.evalExpr]
    rfl
  have hfirst := hstring (by decide +kernel : (Token.tokenize (trimmed "'a|b'")).toOption =
    some [⟨.string, "'a|b'", 0⟩]) (by decide +kernel) (by decide) (by decide)
  have hsecond := hstring (by decide +kernel : (Token.tokenize (trimmed "','")).toOption =
    some [⟨.string, "','", 0⟩]) (by decide +kernel) (by decide) (by decide)
  have hcast : ¬ IsCast "'a|b'" := by
    have htrimmed : trimmed "'a|b'" = "'a|b'" := by decide +kernel
    obtain ⟨v, hparse⟩ := hfirst.2
    rintro ⟨b, hb, hname | ⟨-, args, hcall⟩⟩
    · rw [htrimmed] at hname
      cases b <;> first | exact absurd hname (by decide) | cases hb
    · cases hparse.symm.trans hcall
  have hvalues : ∀ t ∈ ["'a|b'", "','"], ∃ v e',
      (Engine.mk {} {} Template.resolve (.fresh true) 0).tryEvaluate t .null = some (.ok v, e') :=
    List.forall_mem_cons.2 ⟨hvalue hfirst, List.forall_mem_singleton.2 (hvalue hsecond)⟩
  have hstage : stageForm "contains" "'a|b'" ["','"] = "'a|b' | contains(',')" := by decide +kernel
  have hcall : callForm "contains" ["'a|b'", "','"] = "contains('a|b', ',')" := by decide +kernel
  have hname : "contains" ∈ Function.valueNames := by decide
  have hdata : trimmed "'a|b'" ≠ "data" := by decide +kernel
  rw [← hstage, ← hcall]
  exact evaluate_stageForm (e := Engine.mk {} {} Template.resolve (.fresh true) 1) hname hfirst.1
    hdata hcast (List.forall_mem_singleton.2 hsecond.1) (PathMemo.holds_fresh true).sound
    Nat.one_pos hvalues

end Sluice
