import Sluice.Evaluation
import Sluice.Proofs.Runs

/-!
# Families of runs

The evaluators are put together from runs that give a value and runs that follow a path, by
doing one after the other, and they use the evaluation of nested texts through two functions
only. A property of families of runs that is closed under this holds of every evaluator, if
it holds of the nested evaluations: that runs have results, that one run extends another, that
a run is the limit of others, or that it does nothing to the memo but look paths up.
-/
namespace Sluice

namespace Run

variable {ι α β : Type}

/-- The property holds of runs that give a value, of runs that follow a path, and of one run
after another. -/
structure Closed (P : ∀ α : Type, (ι → Run α) → Prop) : Prop where
  pure {α : Type} (a : α) : P α fun _ => Pure.pure a
  follow (text : String) (v : Value) : P Value fun _ => Run.follow text v
  bind {α β : Type} {x : ι → Run α} {f : ι → α → Run β} (hx : P α x)
    (hf : ∀ a, P β fun i => f i a) : P β fun i => x i >>= f i

variable {P : ∀ α : Type, (ι → Run α) → Prop} (hP : Closed P)
include hP

theorem Closed.mapM {f : ι → α → Run β} (items : List α)
    (hf : ∀ a ∈ items, P β fun i => f i a) : P (List β) fun i => items.mapM (f i) := by
  induction items with
  | nil => exact hP.pure []
  | cons a items ih =>
      simp only [List.mapM_cons]
      refine hP.bind (hf a (by simp)) fun b => ?_
      exact hP.bind (ih fun a ha => hf a (by simp [ha])) fun bs => hP.pure _

theorem Closed.filterM {f : ι → α → Run Bool} (items : List α)
    (hf : ∀ a ∈ items, P Bool fun i => f i a) : P (List α) fun i => items.filterM (f i) := by
  have haux (kept : List α) : P (List α) fun i => items.filterAuxM (f i) kept := by
    induction items generalizing kept with
    | nil => exact hP.pure kept
    | cons a items ih =>
        simp only [List.filterAuxM]
        exact hP.bind (hf a (by simp)) fun b => ih (fun a ha => hf a (by simp [ha])) _
  exact hP.bind (haux []) fun kept => hP.pure kept.reverse

/-! Fallible runs are runs of outcomes. -/

theorem Closed.ok (a : α) : P (Except Failure α) fun _ => (Pure.pure a : FallibleRun α).run :=
  hP.pure (Except.ok a)

theorem Closed.fail (e : Failure) :
    P (Except Failure α) fun _ => (Run.fail e : FallibleRun α).run :=
  hP.pure (Except.error e)

theorem Closed.andThen {x : ι → FallibleRun α} {f : ι → α → FallibleRun β}
    (hx : P (Except Failure α) fun i => (x i).run)
    (hf : ∀ a, P (Except Failure β) fun i => (f i a).run) :
    P (Except Failure β) fun i => (x i >>= f i).run := by
  refine hP.bind hx fun outcome => ?_
  cases outcome with
  | ok a => exact hf a
  | error e => exact hP.pure (Except.error e)

theorem Closed.infallible {x : ι → Run α} (hx : P α x) :
    P (Except Failure α) fun i => (Run.infallible (x i)).run := by
  have hrun : (fun i => (Run.infallible (x i)).run) = fun i => x i >>= fun a => Pure.pure (.ok a) := by
    funext i
    exact (bind_pure_comp Except.ok (x i)).symm
  rw [hrun]
  exact hP.bind hx fun a => hP.pure _

theorem Closed.orElse {x : ι → FallibleRun α} (default : α)
    (hx : P (Except Failure α) fun i => (x i).run) : P α fun i => Run.orElse default (x i) := by
  refine hP.bind hx fun outcome => ?_
  cases outcome <;> exact hP.pure _

end Run

variable {ι : Type} {P : ∀ α : Type, (ι → Run α) → Prop}

/-- The nested evaluations of some texts have the property. -/
structure Serves (P : ∀ α : Type, (ι → Run α) → Prop) (nested : ι → Nested)
    (allowed : Prepared → Prop) : Prop where
  evaluate (p : Prepared) (hp : allowed p) (v : Value) : P Value fun i => (nested i).evaluate p v
  holds (p : Prepared) (hp : allowed p) (v : Value) : P Bool fun i => (nested i).holds p v

/-- All texts to be evaluated that arguments hold are allowed. -/
def Arguments.Within (allowed : Prepared → Prop) : Arguments → Prop
  | .expression p => allowed p
  | .fields entries => ∀ entry ∈ entries, allowed entry.2
  | .order o => ∀ field ∈ o.field, allowed (.ofField field)
  | _ => True

namespace StageFunction

variable {nested : ι → Nested} {allowed : Prepared → Prop} (hP : Run.Closed P)
  (hnested : Serves P nested allowed)
include hP hnested

theorem keysOf_closed (field : Option Prepared) (hfield : ∀ p ∈ field, allowed p)
    (items : List Value) : P (List Value) fun i => keysOf (nested i) field items := by
  cases field with
  | none => exact hP.pure items
  | some p => exact hP.mapM items fun v _ => hnested.evaluate p (hfield p rfl) v

omit hP hnested in
theorem perElement_within {args : Arguments} (hargs : args.Within allowed) :
    ∀ p ∈ perElement args, allowed p := by
  cases args with
  | expression p =>
      rintro _ ⟨⟩
      exact hargs
  | _ => simp [perElement]

theorem mapItem_closed {args : Arguments} (hargs : args.Within allowed) (item : Value) :
    P Value fun i => mapItem (nested i) args item := by
  cases args with
  | expression p => exact hnested.evaluate p hargs item
  | fields entries =>
      refine hP.bind (hP.mapM entries fun entry hentry => ?_) fun made => hP.pure _
      exact hP.bind (hnested.evaluate entry.2 (hargs entry hentry) item) fun v => hP.pure _
  | _ => exact hP.pure item

theorem keepItems_closed {args : Arguments} (hargs : args.Within allowed) (items : List Value) :
    P (List Value) fun i => keepItems (nested i) args items := by
  cases args with
  | expression p => exact hP.filterM items fun v _ => hnested.holds p hargs v
  | _ => exact hP.pure _

theorem sortItems_closed (spec : Pipeline.SortOrder)
    (hspec : ∀ field ∈ spec.field, allowed (.ofField field)) (items : List Value) :
    P (List Value) fun i => sortItems (nested i) spec items := by
  refine hP.bind (keysOf_closed hP hnested _ ?_ _) fun found => hP.pure _
  intro p hp
  obtain ⟨field, hfield, rfl⟩ := Option.map_eq_some_iff.1 hp
  exact hspec field hfield

/-- A stage function evaluates no texts but those that its arguments hold. -/
theorem apply_closed (f : StageFunction) (input : Value) {args : Arguments}
    (hargs : args.Within allowed) :
    P (Except Failure Value) fun i => (f.apply (nested i) input args).run := by
  have hkeys (items : List Value) := keysOf_closed hP hnested _ (perElement_within hargs) items
  cases f
  case filter =>
      cases input
      case array items =>
          exact hP.andThen (hP.infallible (keepItems_closed hP hnested hargs items)) fun _ => hP.ok _
      all_goals exact hP.ok _
  case map =>
      cases input
      case array items =>
          have hitems := hP.mapM items fun item _ => mapItem_closed hP hnested hargs item
          exact hP.andThen (hP.infallible hitems) fun _ => hP.ok _
      all_goals exact hP.ok _
  case sum =>
      cases input
      case array items => exact hP.andThen (hP.infallible (hkeys items)) fun _ => hP.ok _
      all_goals exact hP.ok _
  case avg =>
      cases input
      case array items =>
          cases items with
          | nil => exact hP.ok _
          | cons item rest => exact hP.andThen (hP.infallible (hkeys _)) fun _ => hP.ok _
      all_goals exact hP.ok _
  case sort =>
      cases input
      case array items =>
          refine hP.andThen (hP.infallible (sortItems_closed hP hnested _ ?_ items)) fun _ => hP.ok _
          cases args <;> simp_all [Arguments.Within]
      all_goals exact hP.ok _
  case unique =>
      cases input
      case array items => exact hP.andThen (hP.infallible (hkeys items)) fun _ => hP.ok _
      all_goals exact hP.ok _
  case pick =>
      cases args
      case keys names =>
          cases names with
          | nil => exact hP.fail _
          | cons name names => cases input <;> exact hP.ok _
      all_goals exact hP.fail _
  all_goals cases input <;> exact hP.ok _

theorem evaluateAll_closed (data : Value) (texts : List (List Char))
    (htexts : ∀ text ∈ texts, allowed (.ofText (String.ofList text))) :
    P (List Value) fun i => evaluateAll (nested i) data texts :=
  hP.mapM texts fun text htext => hnested.evaluate _ (htexts text htext) data

end StageFunction

/-- A prepared text is one that has been looked at. -/
def Prepared.IsText (p : Prepared) : Prop :=
  ∃ text, p = .ofText text

theorem StageFunction.argsOfValues_within (f : StageFunction) (args : List Value) :
    (f.argsOfValues args).Within Prepared.IsText := by
  have hfilter : (filter.argsOfValues args).Within Prepared.IsText := by
    simp only [argsOfValues]
    split
    · exact ⟨_, rfl⟩
    · trivial
  have hsum : (sum.argsOfValues args).Within Prepared.IsText := by
    simp only [argsOfValues]
    split
    · exact ⟨_, rfl⟩
    · trivial
  cases f
  case filter => exact hfilter
  case map => exact hfilter
  case sum => exact hsum
  case avg => exact hsum
  case unique => exact hsum
  case sort => exact fun field _ => ⟨_, rfl⟩
  all_goals trivial

section calls

variable {calls : ι → Nested}

theorem Function.call_closed (hP : Run.Closed P) (hcalls : Serves P calls Prepared.IsText)
    (patternBudget : Nat) (name : String) (args : List Value) :
    P (Except Failure Value) fun i => (Function.call (calls i) patternBudget name args).run := by
  unfold Function.call
  cases Builtin.ofName? name with
  | some b => exact hP.ok _
  | none =>
      cases StageFunction.ofName? name with
      | some f => exact StageFunction.apply_closed hP hcalls f _ (f.argsOfValues_within _)
      | none => exact hP.fail _

mutual

/-- An expression evaluates no texts but those that its calls are given as values. -/
theorem Scope.evalExpr_closed (s : Scope) (hP : Run.Closed P)
    (hcalls : Serves P calls Prepared.IsText) (e : Expr) (data : Value) :
    P (Except Failure Value) fun i => (s.evalExpr (calls i) e data).run := by
  match e with
  | .literal v => simpa only [Scope.evalExpr] using hP.ok v
  | .identifier name => simpa only [Scope.evalExpr] using hP.ok _
  | .path text => simpa only [Scope.evalExpr] using hP.infallible (hP.follow text data)
  | .template text => simpa only [Scope.evalExpr] using hP.ok _
  | .unary op e =>
      simp only [Scope.evalExpr]
      exact hP.andThen (Scope.evalExpr_closed s hP hcalls e data) fun v => hP.ok _
  | .binary l op r =>
      have hl := Scope.evalExpr_closed s hP hcalls l data
      have hr := Scope.evalExpr_closed s hP hcalls r data
      simp only [Scope.evalExpr]
      refine hP.andThen hl fun a => ?_
      cases op
      case and =>
          cases a.isTruthy
          · exact hP.ok a
          · exact hr
      case or =>
          cases a.isTruthy
          · exact hr
          · exact hP.ok a
      all_goals exact hP.andThen hr fun b => hP.ok _
  | .call name args =>
      simp only [Scope.evalExpr]
      exact hP.andThen (Scope.evalArgs_closed s hP hcalls args data) fun vs =>
        Function.call_closed hP hcalls s.patternBudget name vs

theorem Scope.evalArgs_closed (s : Scope) (hP : Run.Closed P)
    (hcalls : Serves P calls Prepared.IsText) (args : List Expr) (data : Value) :
    P (Except Failure (List Value)) fun i => (s.evalArgs (calls i) args data).run := by
  match args with
  | [] => simpa only [Scope.evalArgs] using hP.ok []
  | e :: rest =>
      simp only [Scope.evalArgs]
      refine hP.andThen (Scope.evalExpr_closed s hP hcalls e data) fun v => ?_
      exact hP.andThen (Scope.evalArgs_closed s hP hcalls rest data) fun vs => hP.ok _

end

theorem Scope.evalText_closed (s : Scope) (hP : Run.Closed P)
    (hcalls : Serves P calls Prepared.IsText) (text : String) (data : Value) :
    P (Except Failure Value) fun i => (s.evalText (calls i) text data).run := by
  unfold Scope.evalText
  cases Expr.parse text with
  | ok e => exact s.evalExpr_closed hP hcalls e data
  | error e => exact hP.fail _

end calls

end Sluice
