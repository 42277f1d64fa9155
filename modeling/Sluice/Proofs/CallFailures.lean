import Sluice.Proofs.StageFailures
import Sluice.Proofs.Termination

/-!
# Expressions without a value

An expression comes to no value only where one of its calls comes to none, on the values of its
arguments. A call does so for one of three reasons: its function is unknown, it is a projection
that names no key, or a text that it is handed has no result. In the first two cases it fails.
-/
namespace Sluice

/-! ## Runs without a value -/

namespace Run

variable {α β : Type} {memo : PathMemo}

/-- The run comes to no value: it has no result, or it fails. -/
inductive Stops (x : FallibleRun α) (memo : PathMemo) : Option Failure → Prop where
  | endless (h : x.run memo = none) : Stops x memo none
  | failed {e : Failure} {memo' : PathMemo} (h : x.run memo = some (.error e, memo')) :
      Stops x memo (some e)

theorem value_or_stops (x : FallibleRun α) (memo : PathMemo) :
    (∃ a memo', x.run memo = some (.ok a, memo')) ∨ ∃ stop, Stops x memo stop := by
  cases h : x.run memo with
  | none => exact .inr ⟨none, .endless h⟩
  | some result =>
      obtain ⟨outcome, memo'⟩ := result
      cases outcome with
      | ok a => exact .inl ⟨a, memo', rfl⟩
      | error e => exact .inr ⟨some e, .failed h⟩

/-- A run that never fails stops only where it does not end. -/
theorem Stops.eq_none {x : FallibleRun α} {stop : Option Failure} (h : Stops x memo stop)
    (hx : NeverFails x) : stop = none ∧ ¬ Ends x.run := by
  cases h with
  | endless hnone =>
      refine ⟨rfl, fun hends => ?_⟩
      obtain ⟨r, hr⟩ := hends memo
      rw [hnone] at hr
      cases hr
  | failed herror => exact (hx _ _ _ herror).elim

theorem not_stops_pure (a : α) {stop : Option Failure} : ¬ Stops (pure a) memo stop :=
  fun h => (h.eq_none (.pure a)).2 (closed_ends.ok a)

theorem not_stops_infallible {x : Run α} (hx : Ends x) {stop : Option Failure} :
    ¬ Stops (infallible x) memo stop :=
  fun h => (h.eq_none (.infallible x)).2 (closed_ends.infallible (x := fun _ => x) hx)

/-- A run that is made of two stops in the first or, after its value, in the second. -/
theorem Stops.of_andThen {x : FallibleRun α} {f : α → FallibleRun β} {stop : Option Failure}
    (h : Stops (x >>= f) memo stop) :
    Stops x memo stop ∨
      ∃ a memo', x.run memo = some (.ok a, memo') ∧ Stops (f a) memo' stop := by
  cases h with
  | failed herror =>
      obtain ⟨outcome, memo', hx, herror⟩ := bind_eq_some (x := x.run).1 herror
      cases outcome with
      | ok a => exact .inr ⟨a, memo', hx, .failed herror⟩
      | error e =>
          cases herror
          exact .inl (.failed hx)
  | endless hnone =>
      change (x.run >>= ExceptT.bindCont f) memo = none at hnone
      rw [bind_apply] at hnone
      cases hx : x.run memo with
      | none => exact .inl (.endless hx)
      | some result =>
          rw [hx] at hnone
          obtain ⟨e | a, memo'⟩ := result
          · cases hnone
          · exact .inr ⟨a, memo', rfl, .endless hnone⟩

end Run

open Run

/-! ## Calls in an expression -/

namespace Expr

mutual

/-- The calls anywhere in an expression. -/
def calls : Expr → List (String × List Expr)
  | .binary l _ r => l.calls ++ r.calls
  | .unary _ e => e.calls
  | .call name args => (name, args) :: argsCalls args
  | _ => []

def argsCalls : List Expr → List (String × List Expr)
  | [] => []
  | e :: rest => e.calls ++ argsCalls rest

end

mutual

theorem map_fst_calls (e : Expr) : e.calls.map Prod.fst = e.calledNames := by
  match e with
  | .binary l op r => simp [calls, calledNames, map_fst_calls l, map_fst_calls r]
  | .unary op e => simp [calls, calledNames, map_fst_calls e]
  | .call name args => simp [calls, calledNames, map_fst_argsCalls args]
  | .literal v => rfl
  | .identifier name => rfl
  | .path text => rfl
  | .template text => rfl

theorem map_fst_argsCalls (args : List Expr) :
    (argsCalls args).map Prod.fst = argsCalledNames args := by
  match args with
  | [] => rfl
  | e :: rest => simp [argsCalls, argsCalledNames, map_fst_calls e, map_fst_argsCalls rest]

end

theorem mem_calledNames {e : Expr} {name : String} {args : List Expr}
    (h : (name, args) ∈ e.calls) : name ∈ e.calledNames := by
  rw [← map_fst_calls]
  exact List.mem_map_of_mem h

end Expr

namespace Scope

variable (s : Scope) (nested : Nested) (data : Value)

/-- One of the calls comes to no value, on the values of its arguments. -/
def StopsIn (calls : List (String × List Expr)) (stop : Option Failure) : Prop :=
  ∃ name args, (name, args) ∈ calls ∧ ∃ memo values memo',
    (s.evalArgs nested args data).run memo = some (.ok values, memo') ∧
      Stops (Function.call nested s.patternBudget name values) memo' stop

variable {s nested data}

theorem StopsIn.mono {calls calls' : List (String × List Expr)} {stop : Option Failure}
    (h : s.StopsIn nested data calls stop) (hsub : calls ⊆ calls') :
    s.StopsIn nested data calls' stop := by
  obtain ⟨name, args, hmem, h⟩ := h
  exact ⟨name, args, hsub hmem, h⟩

mutual

/-- An expression stops where one of its calls does. -/
theorem evalExpr_stops (e : Expr) {memo : PathMemo} {stop : Option Failure}
    (h : Stops (s.evalExpr nested e data) memo stop) : s.StopsIn nested data e.calls stop := by
  match e with
  | .literal v =>
      rw [evalExpr] at h
      exact (not_stops_pure v h).elim
  | .identifier name =>
      rw [evalExpr] at h
      exact (not_stops_pure _ h).elim
  | .path text =>
      rw [evalExpr] at h
      exact (not_stops_infallible (closed_ends.follow text data) h).elim
  | .template text =>
      rw [evalExpr] at h
      exact (not_stops_pure _ h).elim
  | .unary op e =>
      rw [evalExpr] at h
      rcases h.of_andThen with h | ⟨v, memo', -, h⟩
      · exact evalExpr_stops e h
      · exact (not_stops_pure _ h).elim
  | .binary l op r =>
      have hl {memo} (h : Stops (s.evalExpr nested l data) memo stop) :
          s.StopsIn nested data (l.calls ++ r.calls) stop :=
        (evalExpr_stops l h).mono (List.subset_append_left _ _)
      have hr {memo} (h : Stops (s.evalExpr nested r data) memo stop) :
          s.StopsIn nested data (l.calls ++ r.calls) stop :=
        (evalExpr_stops r h).mono (List.subset_append_right _ _)
      rw [evalExpr] at h
      rcases h.of_andThen with h | ⟨a, memo', -, h⟩
      · exact hl h
      cases op
      case and =>
          cases ha : a.isTruthy
          all_goals simp only [ha] at h
          · exact (not_stops_pure _ h).elim
          · exact hr h
      case or =>
          cases ha : a.isTruthy
          all_goals simp only [ha] at h
          · exact hr h
          · exact (not_stops_pure _ h).elim
      all_goals
        rcases h.of_andThen with h | ⟨b, memo'', -, h⟩
        · exact hr h
        · exact (not_stops_pure _ h).elim
  | .call name args =>
      rw [evalExpr] at h
      rcases h.of_andThen with h | ⟨values, memo', hvalues, h⟩
      · exact (evalArgs_stops args h).mono (List.subset_cons_self _ _)
      · exact ⟨name, args, List.mem_cons_self, memo, values, memo', hvalues, h⟩

theorem evalArgs_stops (args : List Expr) {memo : PathMemo} {stop : Option Failure}
    (h : Stops (s.evalArgs nested args data) memo stop) :
    s.StopsIn nested data (Expr.argsCalls args) stop := by
  match args with
  | [] =>
      rw [evalArgs] at h
      exact (not_stops_pure _ h).elim
  | e :: rest =>
      rw [evalArgs] at h
      rcases h.of_andThen with h | ⟨v, memo', -, h⟩
      · exact (evalExpr_stops e h).mono (List.subset_append_left _ _)
      rcases h.of_andThen with h | ⟨vs, memo'', -, h⟩
      · exact (evalArgs_stops rest h).mono (List.subset_append_right _ _)
      · exact (not_stops_pure _ h).elim

end

end Scope

/-! ## What stops a call -/

/-- The evaluation has a result for the text on every value. -/
def Nested.AnswersText (nested : Nested) (p : Prepared) : Prop :=
  ∀ v, Ends (nested.evaluate p v) ∧ Ends (nested.holds p v)

/-- Some key that is not empty is among those that the values name. -/
def NamesKey (values : List Value) : Prop :=
  ∃ key ∈ values.flatMap StageFunction.keyNames, key ≠ ""

namespace StageFunction

theorem eq_pick_of_ofName? {name : String} (h : ofName? name = some pick) : name = "pick" := by
  unfold ofName? at h
  split at h
  · next a ha =>
      have hmem := List.mem_of_find?_eq_some ha
      simp only [aliases, List.mem_cons, List.not_mem_nil, or_false] at hmem
      rcases hmem with rfl | rfl <;> cases h
  · have hname := List.find?_some h
    exact (eq_of_beq hname).symm

theorem argsOfValues_pick (values : List Value) :
    pick.argsOfValues values = .keys ((values.flatMap keyNames).filter fun k => !k.isEmpty) := rfl

theorem namesKey_iff {values : List Value} :
    NamesKey values ↔ (values.flatMap keyNames).filter (fun k => !k.isEmpty) ≠ [] := by
  simp only [NamesKey, ne_eq, List.filter_eq_nil_iff, not_forall, exists_prop]
  exact exists_congr fun key => and_congr_right fun _ => by simp

/-- A call of a stage function stops if it is a projection that names no key, or if a text that
it is handed has no result. -/
theorem apply_stops {f : StageFunction} {nested : Nested} {input : Value} {values : List Value}
    {memo : PathMemo} {stop : Option Failure}
    (h : Stops (f.apply nested input (f.argsOfValues values)) memo stop) :
    (f = pick ∧ ¬ NamesKey values ∧ stop = some (.noKeys "pick")) ∨
      (stop = none ∧ ¬ (f.argsOfValues values).Within nested.AnswersText) := by
  by_cases hf : f = pick
  · subst hf
    rw [argsOfValues_pick, apply_pick] at h
    split at h
    · next hkeys =>
        refine .inl ⟨rfl, fun hnames => namesKey_iff.1 hnames hkeys, ?_⟩
        cases h with
        | endless hnone => cases hnone
        | failed herror =>
            cases herror
            rfl
    · exact (not_stops_pure _ h).elim
  · obtain ⟨hstop, hends⟩ := h.eq_none (apply_neverFails hf _)
    refine .inr ⟨hstop, fun hwithin => hends ?_⟩
    have hserves : Serves (fun _ (x : Unit → Run _) => (x ()).Ends) (fun _ => nested)
        nested.AnswersText :=
      ⟨fun p hp v => (hp v).1, fun p hp v => (hp v).2⟩
    exact apply_closed closed_ends hserves f input hwithin

end StageFunction

theorem Function.call_stops {nested : Nested} {patternBudget : Nat} {name : String}
    {values : List Value} {memo : PathMemo} {stop : Option Failure}
    (h : Stops (Function.call nested patternBudget name values) memo stop) :
    (isKnown name = false ∧ stop = some (.unknownFunction name)) ∨
      (name = "pick" ∧ ¬ NamesKey values.tail ∧ stop = some (.noKeys "pick")) ∨
      (stop = none ∧ ∃ f, StageFunction.ofName? name = some f ∧
        ¬ (f.argsOfValues values.tail).Within nested.AnswersText) := by
  unfold Function.call at h
  cases hbuiltin : Builtin.ofName? name with
  | some b =>
      simp only [hbuiltin] at h
      exact (not_stops_pure _ h).elim
  | none =>
      cases hfunction : StageFunction.ofName? name with
      | none =>
          simp only [hbuiltin, hfunction] at h
          refine .inl ⟨by simp [isKnown, hbuiltin, hfunction], ?_⟩
          cases h with
          | endless hnone => cases hnone
          | failed herror =>
              cases herror
              rfl
      | some f =>
          simp only [hbuiltin, hfunction] at h
          rcases StageFunction.apply_stops h with ⟨rfl, hnames, hstop⟩ | ⟨hstop, htexts⟩
          · exact .inr (.inl ⟨StageFunction.eq_pick_of_ofName? hfunction, hnames, hstop⟩)
          · exact .inr (.inr ⟨hstop, f, rfl, htexts⟩)

namespace Scope

/-- The failures of an expression: a name that is called in it is no function, or a call of
`pick` in it has arguments of which those after the first one name no key. -/
inductive CallFailure (s : Scope) (nested : Nested) (data : Value) (e : Expr) :
    Failure → Prop where
  | unknown {name : String} (hname : name ∈ e.calledNames)
      (hunknown : Function.isKnown name = false) :
      CallFailure s nested data e (.unknownFunction name)
  | noKeys {args : List Expr} {memo memo' : PathMemo} {values : List Value}
      (hcall : ("pick", args) ∈ e.calls)
      (hvalues : (s.evalArgs nested args data).run memo = some (.ok values, memo'))
      (hnames : ¬ NamesKey values.tail) : CallFailure s nested data e (.noKeys "pick")

variable {s : Scope} {nested : Nested} {data : Value} {e : Expr}

theorem callFailure_of_error {failure : Failure} {memo memo' : PathMemo}
    (h : (s.evalExpr nested e data).run memo = some (.error failure, memo')) :
    s.CallFailure nested data e failure := by
  obtain ⟨name, args, hcall, memo₁, values, memo₂, hvalues, hstops⟩ := evalExpr_stops e (.failed h)
  rcases Function.call_stops hstops with ⟨hunknown, hstop⟩ | ⟨rfl, hnames, hstop⟩ | ⟨hstop, -⟩
  · cases hstop
    exact .unknown (Expr.mem_calledNames hcall) hunknown
  · cases hstop
    exact .noKeys hcall hvalues hnames
  · cases hstop

/-- Where an expression cannot fail, it lacks a value only if a text that one of its calls is
handed has no result. -/
theorem value_of_neverFails (hnever : NeverFails (s.evalExpr nested e data))
    (htexts : ∀ name args, (name, args) ∈ e.calls → ∀ memo values memo',
      (s.evalArgs nested args data).run memo = some (.ok values, memo') →
        ∀ f, StageFunction.ofName? name = some f →
          (f.argsOfValues values.tail).Within nested.AnswersText) (memo : PathMemo) :
    ∃ v memo', (s.evalExpr nested e data).run memo = some (.ok v, memo') := by
  rcases value_or_stops (s.evalExpr nested e data) memo with hvalue | ⟨stop, hstops⟩
  · exact hvalue
  obtain ⟨rfl, -⟩ := hstops.eq_none hnever
  obtain ⟨name, args, hcall, memo₁, values, memo₂, hvalues, hstops⟩ := evalExpr_stops e hstops
  rcases Function.call_stops hstops with ⟨-, hstop⟩ | ⟨-, -, hstop⟩ | ⟨-, f, hf, hbeyond⟩
  · cases hstop
  · cases hstop
  · exact (hbeyond (htexts name args hcall memo₁ values memo₂ hvalues f hf)).elim

/-- Only unknown functions and projections without keys fail. If every name called in an
expression is a function, and each call of `pick` in it is given a key that is not empty, the
expression has no failure on any data; and it has a value where the texts that its calls are
handed have results. -/
theorem evalExpr_failures (s : Scope) (nested : Nested) (e : Expr) (data : Value) :
    (∀ failure memo memo',
      (s.evalExpr nested e data).run memo = some (.error failure, memo') →
        s.CallFailure nested data e failure) ∧
    ((∀ name ∈ e.calledNames, Function.isKnown name = true) →
      (∀ args, ("pick", args) ∈ e.calls → ∀ memo values memo',
        (s.evalArgs nested args data).run memo = some (.ok values, memo') →
          NamesKey values.tail) →
      NeverFails (s.evalExpr nested e data) ∧
      ((∀ name args, (name, args) ∈ e.calls → ∀ memo values memo',
        (s.evalArgs nested args data).run memo = some (.ok values, memo') →
          ∀ f, StageFunction.ofName? name = some f →
            (f.argsOfValues values.tail).Within nested.AnswersText) →
        ∀ memo, ∃ v memo', (s.evalExpr nested e data).run memo = some (.ok v, memo'))) := by
  refine ⟨fun failure memo memo' h => callFailure_of_error h, fun hknown hkeys => ?_⟩
  have hnever : NeverFails (s.evalExpr nested e data) := by
    intro memo failure memo' h
    cases callFailure_of_error h with
    | unknown hname hunknown =>
        rw [hknown _ hname] at hunknown
        cases hunknown
    | noKeys hcall hvalues hnames => exact hnames (hkeys _ hcall _ _ _ hvalues)
  exact ⟨hnever, value_of_neverFails hnever⟩

/-- The values after the first one are those of the arguments after the first one. -/
theorem evalArgs_tail {e : Expr} {rest : List Expr} {values : List Value} {memo memo' : PathMemo}
    (h : (s.evalArgs nested (e :: rest) data).run memo = some (.ok values, memo')) :
    ∃ memo₁, (s.evalArgs nested rest data).run memo₁ = some (.ok values.tail, memo') := by
  rw [evalArgs] at h
  obtain ⟨v, memo₁, -, h⟩ := andThen_eq_ok h
  obtain ⟨vs, memo₂, hothers, h⟩ := andThen_eq_ok h
  cases h
  exact ⟨memo₁, hothers⟩

/-- A projection, with a key, of what a text makes of the elements of a list. -/
theorem evalExpr_failures_of_pick :
    let s := Scope.mk {} Template.resolve 1
    let mapped := Expr.call "map" [.identifier "xs", .literal (.string "$.k")]
    let e := Expr.call "pick" [mapped, .literal (.string "id")]
    let data := Value.object [("xs", .array [.object [("k", .object [("id", .bool true)])], .null])]
    (∀ name ∈ e.calledNames, Function.isKnown name = true) ∧
    (∀ args, ("pick", args) ∈ e.calls → ∀ memo values memo',
      (s.evalArgs (s.nestedAt 1) args data).run memo = some (.ok values, memo') →
        NamesKey values.tail) ∧
    (∀ name args, (name, args) ∈ e.calls → ∀ memo values memo',
      (s.evalArgs (s.nestedAt 1) args data).run memo = some (.ok values, memo') →
        ∀ f, StageFunction.ofName? name = some f →
          (f.argsOfValues values.tail).Within (s.nestedAt 1).AnswersText) ∧
    ∃ v memo', (s.evalExpr (s.nestedAt 1) e data).run (.fresh true) = some (.ok v, memo') := by
  intro s mapped e data
  have hpath : Prepared.ofText "$.k" = .path "$.k" :=
    Prepared.ofText_of_isPath (by decide +kernel) (by decide) (by decide +kernel)
      (by decide +kernel)
  have htext : (s.nestedAt 1).AnswersText (.ofText "$.k") := by
    rw [hpath]
    exact fun v => ⟨fun memo => ⟨_, rfl⟩, fun memo => ⟨_, rfl⟩⟩
  have hknown : ∀ name ∈ e.calledNames, Function.isKnown name = true := by
    have hnames : e.calledNames = ["pick", "map"] := rfl
    rw [hnames]
    decide
  have hcalls : e.calls = [("pick", [mapped, .literal (.string "id")]),
      ("map", [.identifier "xs", .literal (.string "$.k")])] := rfl
  have hmap : StageFunction.ofName? "map" = some .map := by decide
  have hpick : StageFunction.ofName? "pick" = some .pick := by decide
  -- both calls have one argument after their first, a literal
  have hliteral {first : Expr} {w : Value} {memo : PathMemo} {values : List Value}
      {memo' : PathMemo} (h : (s.evalArgs (s.nestedAt 1) [first, .literal w] data).run memo =
        some (.ok values, memo')) : values.tail = [w] := by
    obtain ⟨memo₁, htail⟩ := evalArgs_tail h
    simp only [evalArgs, evalExpr, pure_bind] at htail
    exact (Except.ok.inj (congrArg Prod.fst (Option.some.inj htail))).symm
  have hkeys : ∀ args, ("pick", args) ∈ e.calls → ∀ memo values memo',
      (s.evalArgs (s.nestedAt 1) args data).run memo = some (.ok values, memo') →
        NamesKey values.tail := by
    intro args hcall memo values memo' hvalues
    obtain rfl : args = [mapped, .literal (.string "id")] := by simpa [hcalls] using hcall
    rw [hliteral hvalues]
    exact ⟨"id", by decide, by decide⟩
  have htexts : ∀ name args, (name, args) ∈ e.calls → ∀ memo values memo',
      (s.evalArgs (s.nestedAt 1) args data).run memo = some (.ok values, memo') →
        ∀ f, StageFunction.ofName? name = some f →
          (f.argsOfValues values.tail).Within (s.nestedAt 1).AnswersText := by
    intro name args hcall memo values memo' hvalues f hf
    simp only [hcalls, List.mem_cons, List.not_mem_nil, or_false, Prod.mk.injEq] at hcall
    rcases hcall with ⟨rfl, rfl⟩ | ⟨rfl, rfl⟩
    · obtain rfl := Option.some.inj (hpick.symm.trans hf)
      trivial
    · obtain rfl := Option.some.inj (hmap.symm.trans hf)
      rw [hliteral hvalues]
      exact htext
  exact ⟨hknown, hkeys, htexts,
    (((s.evalExpr_failures (s.nestedAt 1) e data).2 hknown hkeys).2 htexts) _⟩

/-- A projection of an object without any key fails, and its name is that of a function. -/
theorem not_forall_unknownFunction :
    ¬ ∀ (s : Scope) (nested : Nested) (e : Expr) (data : Value) (failure : Failure)
        (memo memo' : PathMemo),
      (s.evalExpr nested e data).run memo = some (.error failure, memo') →
        ∃ name ∈ e.calledNames, Function.isKnown name = false ∧
          failure = .unknownFunction name := by
  intro h
  have hpick : Builtin.ofName? "pick" = none ∧ StageFunction.ofName? "pick" = some .pick := by
    decide
  have hfails : ((Scope.mk {} Template.resolve 1).evalExpr .outOfDepth
      (.call "pick" [.identifier "x"]) (.object [("x", .object [("a", .number 1)])])).run
        (.fresh true) = some (.error (.noKeys "pick"), .fresh true) := by
    simp only [evalExpr, evalArgs, pure_bind, Function.call, hpick]
    rfl
  obtain ⟨name, -, -, hfailure⟩ := h _ _ _ _ _ _ _ hfails
  cases hfailure

end Scope

end Sluice
