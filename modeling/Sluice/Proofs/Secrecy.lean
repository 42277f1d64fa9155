import Sluice.Proofs.Leaves
import Sluice.Proofs.Results

/-!
# What an expression can see of the bindings

Bindings are read where a template stands in an expression, and nowhere else. A text without two
opening braces in a row has no templates in it, and neither have the texts that its stages
evaluate out of it. But a call may be handed a text with templates as a value, and evaluates it
with the bindings of the whole. Where this does not happen, the result does not depend on
bindings and resolver.
-/
namespace Sluice

open Sluice.Pipeline Sluice.Text

/-! ## Texts and expressions without templates -/

/-- Two opening braces stand in the text one after the other, as at the start of a template. -/
def Text.OpensTemplate (cs : List Char) : Prop :=
  ['\x7b', '\x7b'] <:+: cs

instance (cs : List Char) : Decidable (OpensTemplate cs) :=
  inferInstanceAs (Decidable (['\x7b', '\x7b'] <:+: cs))

/-- No leaf of the expression is a template. -/
def Expr.TemplateFree : Expr → Prop :=
  Leaves fun leaf => ∀ text, leaf ≠ .template text

theorem Expr.leafProperty_templateFree :
    LeafProperty fun leaf => ∀ text, leaf ≠ .template text where
  word name text := by
    unfold word
    split
    · simp
    · split
      · simp
      · split <;> simp
  minus x _ text := by simp

theorem Expr.opensTemplate_of_atom? {t : Token} {text : String}
    (ht : Token.Lexeme t.kind t.text.toList) (h : atom? t = some (.template text)) :
    OpensTemplate t.text.toList := by
  have hbare (body : List Char) : ['\x7b', '\x7b'] <+: Token.bareTemplate body :=
    ⟨body ++ ['\x7d', '\x7d'], rfl⟩
  have hquoted (q : Char) (body : List Char) :
      OpensTemplate (q :: (Token.bareTemplate body ++ [q])) :=
    ((hbare body).trans (List.prefix_append _ _)).isInfix.trans (List.suffix_cons _ _).isInfix
  unfold atom? at h
  generalize t.text.toList = cs at ht
  split at h
  · next hkind =>
      rw [hkind] at ht
      cases ht with
      | quotedTemplate => exact hquoted _ _
  · next hkind =>
      rw [hkind] at ht
      cases ht with
      | singleQuotedTemplate => exact hquoted _ _
  · next hkind =>
      rw [hkind] at ht
      cases ht with
      | bareTemplate => exact (hbare _).isInfix
  · cases h
  · unfold numberLiteral at h
    split at h <;> cases h
  · cases h
  · cases h

/-- A text in which no template begins is read as an expression without templates. -/
theorem Expr.templateFree_of_parse {text : String} {e : Expr} (h : parse text = .ok e)
    (htext : ¬ OpensTemplate text.toList) : e.TemplateFree := by
  refine leaves_of_parse leafProperty_templateFree h fun t ht hpiece leaf hleaf template he => ?_
  subst he
  rw [toList_trimmed] at hpiece
  exact htext (((opensTemplate_of_atom? ht hleaf).trans hpiece).trans (trim_isInfix _))

namespace Prepared

variable {p q : Prepared} {text : String}

/-- A prepared text in which no template begins. -/
def OpensNone (p : Prepared) : Prop :=
  ∃ text, p = .ofText text ∧ ¬ OpensTemplate text.toList

theorem opensTemplate_pathOfField {field : String}
    (h : OpensTemplate (pathOfField field).toList) : OpensTemplate field.toList := by
  have hname := (stripQuotes_isInfix _).trans (trim_isInfix field.toList)
  have hcons {c : Char} {cs : List Char} (hc : c ≠ '\x7b') (h : OpensTemplate (c :: cs)) :
      OpensTemplate cs := by
    rcases List.infix_cons_iff.1 h with hstart | hinner
    · exact absurd (List.cons_prefix_cons.1 hstart).1.symm hc
    · exact hinner
  unfold pathOfField at h
  simp only at h
  split at h
  · rw [String.toList_ofList] at h
    exact h.trans hname
  · rw [String.toList_ofList] at h
    exact (hcons (by decide) (hcons (by decide) h)).trans hname

theorem InStage.opensNone {stage : String} (h : p.InStage stage)
    (hstage : ¬ OpensTemplate stage.toList) : p.OpensNone := by
  obtain ⟨call, hread, hne, piece, hpiece, hp⟩ := h
  have hwithin := hpiece.trans (args_infix_of_readStage hread hne).1
  have hnone : ¬ OpensTemplate piece.toList := fun h => hstage (h.trans hwithin)
  rcases hp with hp | hp
  · exact ⟨piece, hp, hnone⟩
  · exact ⟨pathOfField piece, hp, fun h => hnone (opensTemplate_pathOfField h)⟩

/-- What a text without templates evaluates out of itself has none either. -/
theorem OpensNone.of_contains (h : p.OpensNone) (hq : p.Contains q) : q.OpensNone := by
  obtain ⟨text, htext, hnone⟩ := h
  obtain ⟨source, stage, rfl, hstage, hq⟩ := hq
  obtain ⟨rfl, -⟩ := pipeline_of_ofText htext.symm
  obtain ⟨cs, hcs, rfl⟩ := List.mem_map.1 hstage
  have hpiece : cs <:+: text.toList := by
    have hpiece := stage_isInfix hcs
    rw [toList_trimmed] at hpiece
    exact hpiece.trans (trim_isInfix _)
  have hnone : ¬ OpensTemplate (String.ofList cs).toList := fun h =>
    hnone ((String.toList_ofList ▸ h).trans hpiece)
  rcases hq with hq | hq
  · exact ⟨_, hq, hnone⟩
  · exact hq.opensNone hnone

theorem parse_of_ofText {source : String} {e : Expr} (h : ofText text = .parsed source e) :
    Expr.parse (trimmed text) = .ok e := by
  unfold ofText at h
  simp only at h
  split at h
  · cases h
  · split at h
    · cases h
    · split at h
      · cases h
      · split at h
        · next hparse =>
            cases h
            exact hparse
        · cases h

end Prepared

/-! ## Two sets of bindings -/

namespace Scope

variable {s t : Scope}

mutual

/-- An expression without templates is evaluated alike with all bindings. -/
theorem evalExpr_congr (hbudget : s.patternBudget = t.patternBudget) (nested : Nested) {e : Expr}
    (he : e.TemplateFree) (data : Value) : s.evalExpr nested e data = t.evalExpr nested e data := by
  match e with
  | .literal v => simp only [evalExpr]
  | .identifier name => simp only [evalExpr]
  | .path text => simp only [evalExpr]
  | .template text => exact absurd rfl (he text)
  | .unary op e =>
      simp only [evalExpr]
      rw [evalExpr_congr hbudget nested (e := e) he data]
  | .binary l op r =>
      simp only [evalExpr, hbudget]
      rw [evalExpr_congr hbudget nested he.1 data, evalExpr_congr hbudget nested he.2 data]
  | .call name args =>
      simp only [evalExpr, hbudget]
      rw [evalArgs_congr hbudget nested he data]

theorem evalArgs_congr (hbudget : s.patternBudget = t.patternBudget) (nested : Nested)
    {args : List Expr} (hargs : Expr.ArgsLeaves (fun leaf => ∀ text, leaf ≠ .template text) args)
    (data : Value) : s.evalArgs nested args data = t.evalArgs nested args data := by
  match args with
  | [] => simp only [evalArgs]
  | e :: rest =>
      simp only [evalArgs]
      rw [evalExpr_congr hbudget nested hargs.1 data, evalArgs_congr hbudget nested hargs.2 data]

end

theorem callBuiltin_congr (hbudget : s.patternBudget = t.patternBudget) (nested : Nested)
    (b : Builtin) (args : String) (input data : Value) :
    s.callBuiltin nested b args input data = t.callBuiltin nested b args input data := by
  rw [callBuiltin, callBuiltin, hbudget]

theorem runStage_congr (hbudget : s.patternBudget = t.patternBudget) (nested : Nested)
    (stage : String) (input data : Value) :
    s.runStage nested stage input data = t.runStage nested stage input data := by
  simp only [runStage, callBuiltin_congr hbudget]

theorem runStages_congr (hbudget : s.patternBudget = t.patternBudget) (nested : Nested)
    (data : Value) (stages : List String) (v : Value) :
    s.runStages nested data stages v = t.runStages nested data stages v := by
  induction stages generalizing v with
  | nil => rfl
  | cons stage rest ih => simp only [runStages, runStage_congr hbudget, ih]

theorem initialBy_congr (hbudget : s.patternBudget = t.patternBudget) (calls stages : Nested)
    {stage : String} (hstage : ¬ OpensTemplate stage.toList) (data : Value) :
    s.initialBy calls stages stage data = t.initialBy calls stages stage data := by
  have htext : s.evalText calls stage data = t.evalText calls stage data := by
    unfold evalText
    cases hparse : Expr.parse stage with
    | ok e => exact evalExpr_congr hbudget calls (Expr.templateFree_of_parse hparse hstage) data
    | error e => rfl
  simp only [initialBy, callBuiltin_congr hbudget, htext]

/-- A text without templates is evaluated alike with all bindings, if the texts in it are. -/
theorem evalPreparedBy_congr (hbudget : s.patternBudget = t.patternBudget) (calls stages : Nested)
    {p : Prepared} (hp : p.OpensNone) (data : Value) :
    s.evalPreparedBy calls stages p data = t.evalPreparedBy calls stages p data := by
  obtain ⟨text, htext, hnone⟩ := hp
  have htrimmed : ¬ OpensTemplate (trimmed text).toList := by
    rw [toList_trimmed]
    exact fun h => hnone (h.trans (trim_isInfix _))
  cases p with
  | pipeline source =>
      obtain ⟨rfl, -⟩ := Prepared.pipeline_of_ofText htext.symm
      refine congrArg Run.infallible ?_
      unfold runPipelineBy
      cases hlist : (Pipeline.stages (trimmed text).toList).map String.ofList with
      | nil => rfl
      | cons first rest =>
          have hmem : first ∈ (Pipeline.stages (trimmed text).toList).map String.ofList := by
            rw [hlist]
            exact List.mem_cons_self
          obtain ⟨cs, hcs, rfl⟩ := List.mem_map.1 hmem
          have hfirst : ¬ OpensTemplate (String.ofList cs).toList := fun h =>
            htrimmed ((String.toList_ofList ▸ h).trans (stage_isInfix hcs))
          simp only [initialBy_congr hbudget calls stages hfirst, runStages_congr hbudget]
  | parsed source e =>
      have hparse := Prepared.parse_of_ofText htext.symm
      exact evalExpr_congr hbudget calls (Expr.templateFree_of_parse hparse htrimmed) data
  | _ => rfl

theorem level_evaluate_congr (hbudget : s.patternBudget = t.patternBudget)
    (calls stages : Nested) {p : Prepared} (hp : p.OpensNone) (data : Value) :
    (s.level calls stages).evaluate p data = (t.level calls stages).evaluate p data :=
  congrArg (Run.orElse Value.null) (evalPreparedBy_congr hbudget calls stages hp data)

end Scope

/-! ## A text that is handed to a call -/

open Sluice.Expr Sluice.Token in
/-- For each item of a list, evaluates a text; both are names. -/
theorem Prepared.ofText_mapCall : ofText "map(xs, e)" = .parsed "map(xs, e)"
    (.call "map" [.identifier "xs", .identifier "e"]) := by
  have htrimmed : trimmed "map(xs, e)" = "map(xs, e)" := by decide +kernel
  have htokens : (tokenize "map(xs, e)").toOption =
      some [⟨.identifier, "map", 0⟩, ⟨.leftParen, "(", 3⟩, ⟨.identifier, "xs", 4⟩,
        ⟨.comma, ",", 6⟩, ⟨.identifier, "e", 8⟩, ⟨.rightParen, ")", 9⟩] := by
    decide +kernel
  have harg {t next : Token} {rest : List Token} (ht : t.kind = .identifier)
      (hparen : next.kind ≠ .leftParen) (hnext : binaryOperator? next = none) :
      ReadsExpr 0 (t :: next :: rest) (word t.text) (next :: rest) :=
    .mk (.word ht (by simp [CallFollows, hparen])) (.done (by simp [StopsAt, hnext]))
  refine ofText_of_parse htrimmed (by decide) (by decide +kernel) (by decide +kernel) ?_
  refine parse_of_tokens htrimmed (by decide) htokens ?_
  exact .mk (.call rfl rfl rfl (.some (.more (harg rfl (by decide) rfl) rfl
    (.last (harg rfl (by decide) rfl) rfl)))) (.done (by simp [StopsAt]))

/-- Data with a list of one item, and the text to evaluate for it. -/
def mapData (item : Value) (text : String) : Value :=
  .object [("xs", .array [item]), ("e", .string text)]

/-- The call evaluates the text that it is handed for the item. -/
theorem Scope.level_mapCall (s : Scope) (calls stages : Nested) (item : Value) (text : String)
    (memo : PathMemo) :
    (s.level calls stages).evaluate (.ofText "map(xs, e)") (mapData item text) memo =
      (calls.evaluate (.ofText text) item memo).map fun r => (.array [r.1], r.2) := by
  have hmap : Builtin.ofName? "map" = none ∧ StageFunction.ofName? "map" = some .map := by decide
  have hxs : (mapData item text).property "xs" = .array [item] := rfl
  have he : (mapData item text).property "e" = .string text := rfl
  rw [Prepared.ofText_mapCall, level_evaluate, Run.orElse_apply]
  simp only [evalPreparedBy, evalExpr, evalArgs, pure_bind, Function.call, hmap, hxs, he]
  have hmapM : [item].mapM (StageFunction.mapItem calls (.expression (.ofText text))) =
      (do return [← calls.evaluate (.ofText text) item]) := by
    simp [StageFunction.mapItem]
  simp only [StageFunction.argsOfValues, StageFunction.apply, List.headD_cons, List.tail_cons,
    List.head?_cons, Option.bind_some, Value.string?, hmapM]
  rw [Run.infallible_bind_apply, Run.bind_apply]
  cases calls.evaluate (.ofText text) item memo <;> rfl

open Sluice.Expr Sluice.Token in
theorem Prepared.ofText_key : ofText "k" = .parsed "k" (.identifier "k") := by
  have htrimmed : trimmed "k" = "k" := by decide +kernel
  have htokens : (tokenize "k").toOption = some [⟨.identifier, "k", 0⟩] := by decide +kernel
  refine ofText_of_parse htrimmed (by decide) (by decide +kernel) (by decide +kernel) ?_
  refine parse_of_tokens htrimmed (by decide) htokens ?_
  exact .mk (.word rfl (by simp [CallFollows])) (.done (by simp [StopsAt]))

open Sluice.Expr Sluice.Token in
theorem Prepared.ofText_envCall : ofText "\x7b\x7benv:k\x7d\x7d" =
    .parsed "\x7b\x7benv:k\x7d\x7d" (.template "\x7b\x7benv:k\x7d\x7d") := by
  have htrimmed : trimmed "\x7b\x7benv:k\x7d\x7d" = "\x7b\x7benv:k\x7d\x7d" := by
    decide +kernel
  have htokens : (tokenize "\x7b\x7benv:k\x7d\x7d").toOption =
      some [⟨.bareTemplate, "\x7b\x7benv:k\x7d\x7d", 0⟩] := by decide +kernel
  refine ofText_of_parse htrimmed (by decide) (by decide +kernel) (by decide +kernel) ?_
  refine parse_of_tokens htrimmed (by decide) htokens ?_
  exact .mk (.atom rfl) (.done (by simp [StopsAt]))

/-! ## Evaluation that stays clear of templates -/

/-- The evaluation of some texts, with no result for others. -/
def Nested.only (nested : Nested) (allowed : Prepared → Prop) [DecidablePred allowed] : Nested :=
  ⟨fun p v => if allowed p then nested.evaluate p v else Run.outOfDepth,
    fun p v => if allowed p then nested.holds p v else Run.outOfDepth⟩

/-- What extends the evaluation of some texts extends this evaluation alone for all texts. -/
theorem Serves.extends_only {full part : Nested} {allowed : Prepared → Prop}
    [DecidablePred allowed] {texts : Prepared → Prop}
    (h : Serves (fun _ x => Run.Extends x) (fun b => cond b full part)
      fun p => texts p ∧ allowed p) :
    Serves (fun _ x => Run.Extends x) (fun b => cond b full (part.only allowed)) texts := by
  constructor
  · intro p hp v
    by_cases hallowed : allowed p
    · have hrun := h.evaluate p ⟨hp, hallowed⟩ v
      intro memo r hr
      exact hrun memo r (by simpa [Nested.only, hallowed] using hr)
    · exact Run.extends_outOfDepth (if_neg hallowed)
  · intro p hp v
    by_cases hallowed : allowed p
    · have hrun := h.holds p ⟨hp, hallowed⟩ v
      intro memo r hr
      exact hrun memo r (by simpa [Nested.only, hallowed] using hr)
    · exact Run.extends_outOfDepth (if_neg hallowed)

/-- The source of the text has no template that begins in it. -/
def Prepared.IsClear (p : Prepared) : Prop :=
  ¬ OpensTemplate p.source.toList

instance : DecidablePred Prepared.IsClear := fun p =>
  inferInstanceAs (Decidable (¬ OpensTemplate p.source.toList))

theorem Prepared.IsClear.opensNone {p : Prepared} (h : p.IsClear) (hp : p.IsText) :
    p.OpensNone := by
  obtain ⟨text, rfl⟩ := hp
  rw [IsClear, source_ofText] at h
  exact ⟨trimmed text, (ofText_trimmed text).symm, h⟩

namespace Scope

variable {s t : Scope}

/-- The evaluation of texts with so many levels of texts inside, with no result if a call
evaluates a text that it is handed as a value and in which a template begins. -/
def clearAt (s : Scope) : Nat → Nested
  | 0 => .outOfDepth
  | depth + 1 => s.level ((s.clearAt depth).only Prepared.IsClear) (s.clearAt depth)

/-- Of a text without templates, what stays clear of them is a result with all bindings. -/
theorem clearAt_extends (hbudget : s.patternBudget = t.patternBudget) (depth : Nat) :
    Serves (fun _ x => Run.Extends x) (fun b => cond b (t.nestedAt depth) (s.clearAt depth))
      Prepared.OpensNone := by
  induction depth with
  | zero => exact ⟨fun _ _ _ => Run.extends_outOfDepth rfl, fun _ _ _ => Run.extends_outOfDepth rfl⟩
  | succ depth ih =>
      have hcalls := (ih.mono fun p (hp : p.IsText ∧ p.IsClear) => hp.2.opensNone hp.1).extends_only
      have hlevel := s.level_closed Run.closed_extends hcalls ih
        fun p q (hp : p.OpensNone) hq => hp.of_contains hq
      have hevaluate (p : Prepared) (hp : p.OpensNone) (v : Value) : Run.Extends fun b =>
          (cond b (t.nestedAt (depth + 1)) (s.clearAt (depth + 1))).evaluate p v := by
        have hcongr := level_evaluate_congr hbudget (t.nestedAt depth) (t.nestedAt depth) hp v
        rw [nestedAt_succ]
        convert hlevel.evaluate p hp v using 2 with b
        cases b
        · rfl
        · exact hcongr.symm
      refine ⟨hevaluate, fun p hp v => ?_⟩
      have hholds := Run.closed_extends.bind (hevaluate p hp v) fun w =>
        Run.closed_extends.pure w.isTruthy
      rw [nestedAt_succ] at hholds ⊢
      convert hholds using 2 with b
      cases b <;> rfl

/-- With no template written in it, a text sees nothing of the bindings and of the resolver unless
a call is handed a text with a template as a value and evaluates it. If it has a result without
that, it has this result with all bindings and all resolvers, and no other. -/
theorem evaluate_clear {text : String} (htext : ¬ OpensTemplate text.toList) {data : Value}
    {depth : Nat} {memo : PathMemo} {r : Value × PathMemo}
    (h : (s.clearAt (depth + 1)).evaluate (.ofText text) data memo = some r) (b : Bindings)
    (resolver : Resolver) :
    (Scope.mk b resolver s.patternBudget).evaluate depth text data memo = some r ∧
    ∀ depth' memo' r', memo.Sound → memo'.Sound →
      (Scope.mk b resolver s.patternBudget).evaluate depth' text data memo' = some r' →
        r'.1 = r.1 := by
  have hextends := clearAt_extends (s := s) (t := .mk b resolver s.patternBudget) rfl (depth + 1)
  have hr := hextends.evaluate _ ⟨text, rfl, htext⟩ data memo r h
  simp only [cond_true, nestedAt_evaluate] at hr
  exact ⟨hr, fun depth' memo' r' hmemo hmemo' hr' =>
    (Scope.mk b resolver s.patternBudget).evaluate_unique hmemo' hmemo hr' hr⟩

end Scope

/-- A call that is handed the name of a key, with a binding of that name. -/
theorem Scope.evaluate_clear_of_map :
    ¬ OpensTemplate "map(xs, e)".toList ∧
    ((Scope.mk {} Template.resolve 1).clearAt 2).evaluate (.ofText "map(xs, e)")
      (mapData (.object [("k", .bool true)]) "k") (.fresh true) =
        some (.array [.bool true], .fresh true) ∧
    (Scope.mk { environment := [("k", .string "s")] } Template.resolve 1).evaluate 1 "map(xs, e)"
      (mapData (.object [("k", .bool true)]) "k") (.fresh true) =
        some (.array [.bool true], .fresh true) := by
  have hnone : ¬ OpensTemplate "map(xs, e)".toList := by decide
  have hkey : (Prepared.ofText "k").IsClear := by
    rw [Prepared.ofText_key]
    decide
  have hrun : ((Scope.mk {} Template.resolve 1).clearAt 2).evaluate (.ofText "map(xs, e)")
      (mapData (.object [("k", .bool true)]) "k") (.fresh true) =
        some (.array [.bool true], .fresh true) := by
    rw [clearAt, level_mapCall, Nested.only]
    simp only [hkey, if_true]
    rw [clearAt, level_evaluate, Prepared.ofText_key, evalPreparedBy, evalExpr]
    rfl
  exact ⟨hnone, hrun, (evaluate_clear hnone hrun _ _).1⟩

/-- Not all results are the same with all bindings: a template may come with the data. -/
theorem Scope.not_forall_evaluate_clear :
    ¬ ∀ (b b' : Bindings) (resolver resolver' : Resolver) (budget : Nat) (text : String)
        (data : Value) (depth : Nat) (memo : PathMemo) (r r' : Value × PathMemo),
      ¬ OpensTemplate text.toList → memo.Sound →
      (Scope.mk b resolver budget).evaluate depth text data memo = some r →
      (Scope.mk b' resolver' budget).evaluate depth text data memo = some r' → r.1 = r'.1 := by
  intro h
  have hrun (b : Bindings) (v : Value)
      (hv : Template.value Template.resolve b "\x7b\x7benv:k\x7d\x7d" = v) :
      (Scope.mk b Template.resolve 1).evaluate 1 "map(xs, e)"
        (mapData (.bool true) "\x7b\x7benv:k\x7d\x7d") (.fresh true) =
          some (.array [v], .fresh true) := by
    rw [← nestedAt_evaluate, nestedAt_succ, level_mapCall, nestedAt_succ, level_evaluate,
      Prepared.ofText_envCall, evalPreparedBy, evalExpr, hv]
    rfl
  have hequal := h { environment := [("k", .string "s")] } {} Template.resolve Template.resolve 1
    "map(xs, e)" (mapData (.bool true) "\x7b\x7benv:k\x7d\x7d") 1 (.fresh true) _ _ (by decide)
    (PathMemo.holds_fresh true).sound (hrun _ (.string "s") (by rfl))
    (hrun _ (.string "\x7b\x7benv:k\x7d\x7d") (by rfl))
  simp at hequal

end Sluice
