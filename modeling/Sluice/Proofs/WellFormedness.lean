import Sluice.Proofs.Flattening
import Sluice.Proofs.Identity
import Sluice.Proofs.Results
import Sluice.Proofs.SavedTexts
import Sluice.Proofs.Secrecy
import Sluice.Proofs.Sorting
import Sluice.Proofs.Walking

/-!
# Values stay well-formed

Whatever is evaluated against a well-formed value is well-formed: parts of a value are, and where
an object is made, later entries of a name replace earlier ones. So the names in every object that
an evaluation comes across are distinct, if they are in the data and in what templates stand for.
-/
namespace Sluice

/-! ## Values that are made of others -/

namespace Keyed

variable {α : Type} {t entries : Keyed α} {e : String × α}

theorem mem_of_mem_extend (h : e ∈ t.extend entries) : e ∈ t ∨ e ∈ entries := by
  induction entries generalizing t with
  | nil => exact .inl h
  | cons first entries ih =>
      rcases ih h with h | h
      · rcases mem_of_mem_insert h with rfl | h
        · exact .inr List.mem_cons_self
        · exact .inl h
      · exact .inr (List.mem_cons_of_mem first h)

theorem mem_of_mem_ofList (h : e ∈ ofList entries) : e ∈ entries :=
  (mem_of_mem_extend h).resolve_left List.not_mem_nil

end Keyed

namespace Value

variable {v w : Value} {items : List Value} {entries : Keyed Value}

theorem wellFormed_array : (array items).WellFormed ↔ ∀ v ∈ items, v.WellFormed :=
  allWellFormed_iff

theorem wellFormed_object :
    (object entries).WellFormed ↔ entries.keys.Nodup ∧ ∀ e ∈ entries, e.2.WellFormed :=
  and_congr_right' entriesWellFormed_iff

theorem wellFormed_ofList (h : ∀ e ∈ entries, e.2.WellFormed) :
    (object (Keyed.ofList entries)).WellFormed :=
  wellFormed_object.2 ⟨Keyed.nodup_keys_ofList entries,
    fun e he => h e (Keyed.mem_of_mem_ofList he)⟩

theorem WellFormed.of_isScalar (h : v.IsScalar = true) : v.WellFormed := by
  cases v <;> trivial

theorem WellFormed.getD {found : Option Value} (h : ∀ v ∈ found, v.WellFormed) :
    (found.getD .missing).WellFormed := by
  cases found with
  | none => trivial
  | some v => exact h v rfl

theorem WellFormed.headD (h : ∀ v ∈ items, v.WellFormed) : (items.headD .missing).WellFormed := by
  rw [List.headD_eq_head?_getD]
  exact .getD fun v hv => h v (List.mem_of_mem_head? hv)

theorem WellFormed.property (h : v.WellFormed) (name : String) : (v.property name).WellFormed := by
  refine .getD fun w hw => ?_
  cases v with
  | object entries => exact h.entry hw
  | _ => cases hw

theorem WellFormed.values (h : (object entries).WellFormed) :
    (array (Keyed.values entries)).WellFormed := by
  refine wellFormed_array.2 fun v hv => ?_
  obtain ⟨e, he, rfl⟩ := List.mem_map.1 hv
  exact (wellFormed_object.1 h).2 e he

/-- Items of a well-formed list make a well-formed list. -/
theorem WellFormed.of_subset {kept : List Value} (h : (array items).WellFormed)
    (hsub : kept ⊆ items) : (array kept).WellFormed :=
  wellFormed_array.2 fun v hv => wellFormed_array.1 h v (hsub hv)

/-! A cast makes a value that is no list and no object, or gives its fallback. -/

section Casts

variable {fallback : Value} (h : fallback.WellFormed) (v : Value)
include h

theorem WellFormed.orNull : fallback.orNull.WellFormed := by
  cases fallback <;> trivial

theorem WellFormed.toInt : (v.toInt fallback).WellFormed := by
  unfold Value.toInt
  split
  · split
    · trivial
    · exact h.orNull
  · exact h.orNull

theorem WellFormed.toFloat : (v.toFloat fallback).WellFormed := by
  unfold Value.toFloat
  split
  · trivial
  · trivial
  · split
    · split
      · trivial
      · exact h.orNull
    · exact h.orNull
  · exact h.orNull

theorem WellFormed.toStringValue : (v.toStringValue fallback).WellFormed := by
  unfold Value.toStringValue
  split
  · exact h.orNull
  · trivial

theorem WellFormed.toBool : (v.toBool fallback).WellFormed := by
  unfold Value.toBool
  split
  · trivial
  · trivial
  · trivial
  · exact h.orNull

end Casts

end Value

open Value

theorem sliceItems_subset {α : Type} (items : List α) (start : Int) (stop : Option Int) :
    sliceItems items start stop ⊆ items :=
  fun _ h => List.mem_of_mem_drop (List.mem_of_mem_take h)

/-! ### Paths -/

namespace Path

variable {v : Value}

theorem Step.wellFormed_apply (step : Step) (h : v.WellFormed) : (step.apply v).WellFormed := by
  cases step with
  | root => cases v <;> exact h
  | property name => cases v <;> exact h.property name
  | index n =>
      cases v with
      | array items => exact .getD fun w hw => h.item hw
      | object entries => exact .getD fun w hw => h.entry hw
      | _ => trivial
  | key name =>
      cases v with
      | array items =>
          refine .getD fun w hw => ?_
          obtain ⟨n, -, hw⟩ := Option.bind_eq_some_iff.1 hw
          exact h.item hw
      | object entries => exact .getD fun w hw => h.entry hw
      | _ => trivial
  | wildcard =>
      cases v with
      | array items => exact h
      | object entries => exact h.values
      | _ => trivial
  | slice start stop =>
      cases v with
      | array items => exact h.of_subset (sliceItems_subset items start stop)
      | _ => trivial

theorem Stand.wellFormed_advance {s : Stand} (h : s.value.WellFormed) (step : Step) :
    (s.advance step).value.WellFormed := by
  unfold advance
  split
  · trivial
  · split
    · next items name hvalue _ =>
        refine wellFormed_array.2 fun v hv => ?_
        obtain ⟨item, hitem, rfl⟩ := List.mem_map.1 hv
        exact (wellFormed_array.1 (hvalue ▸ h) item hitem).property name
    · exact Step.wellFormed_apply _ h

theorem Stand.wellFormed_run {s : Stand} (h : s.value.WellFormed) (steps : List Step) :
    (s.run steps).value.WellFormed := by
  induction steps generalizing s with
  | nil => exact h
  | cons step steps ih => exact ih (wellFormed_advance h step)

theorem wellFormed_walk (steps : List Step) (h : v.WellFormed) : (walk steps v).WellFormed := by
  rw [walk_eq_run]
  exact Stand.wellFormed_run h steps

theorem wellFormed_follow (p : Path) (h : v.WellFormed) : (p.follow v).WellFormed :=
  wellFormed_walk p.steps h

end Path

theorem Value.WellFormed.follow {v : Value} (h : v.WellFormed) (text : String) :
    (v.follow text).WellFormed := by
  unfold Value.follow
  split
  · exact Path.wellFormed_follow _ h
  · trivial

theorem PathMemo.wellFormed_follow (m : PathMemo) (text : String) {v : Value} (h : v.WellFormed) :
    (m.follow text v).1.WellFormed := by
  unfold PathMemo.follow
  split
  · exact Path.wellFormed_follow _ h
  · trivial

/-! ### Operators and builtins -/

theorem Operator.wellFormed_apply (op : Operator) (patternBudget : Nat) {a b : Value}
    (ha : a.WellFormed) (hb : b.WellFormed) : (op.apply patternBudget a b).WellFormed := by
  have hrelate (r : Float → Float → Bool) : (Operator.relate r a b).WellFormed := by
    unfold Operator.relate
    split <;> trivial
  have hlenient : (op.lenient a b).WellFormed := by
    unfold Operator.lenient
    split <;> trivial
  cases op
  case and =>
      change (if a.isTruthy then b else a).WellFormed
      split
      · exact hb
      · exact ha
  case or =>
      change (if a.isTruthy then a else b).WellFormed
      split
      · exact ha
      · exact hb
  case gt | ge | lt | le =>
      rw [Operator.apply]
      exact hrelate _
  case add | sub | mul | div | mod => exact hlenient
  all_goals trivial

theorem UnaryOperator.wellFormed_apply (op : UnaryOperator) (v : Value) :
    (op.apply v).WellFormed := by
  cases op with
  | not => trivial
  | negate =>
      simp only [UnaryOperator.apply]
      split <;> trivial

namespace Builtin

theorem wellFormed_roundTo (v places : Value) : (roundTo v places).WellFormed := by
  unfold roundTo
  extract_lets digits
  split
  · trivial
  · split <;> trivial

theorem wellFormed_choose (pick : Float → Float → Float) (acc : Float) (args : List Value) :
    (choose pick acc args).WellFormed := by
  induction args generalizing acc with
  | nil => trivial
  | cons v args ih =>
      rw [choose]
      split
      · trivial
      · exact ih _

theorem wellFormed_call (b : Builtin) (patternBudget : Nat) {args : List Value}
    (h : ∀ v ∈ args, v.WellFormed) : (b.call patternBudget args).WellFormed := by
  have hfirst : (args.headD Value.missing).WellFormed := .headD h
  have hsecond : ((args[1]?).getD Value.missing).WellFormed :=
    .getD fun v hv => h v (List.mem_of_getElem? hv)
  cases b
  case operator op => exact op.wellFormed_apply patternBudget hfirst hsecond
  case round => exact wellFormed_roundTo ..
  case min | max => exact wellFormed_choose ..
  case int => exact hsecond.toInt _
  case float => exact hsecond.toFloat _
  case string => exact hsecond.toStringValue _
  case bool => exact hsecond.toBool _
  all_goals trivial

end Builtin

/-! ## Runs that yield values of a kind -/

namespace Run

variable {α β : Type} {good : α → Prop} {good' : β → Prop}

/-- Whatever the run comes to is good. -/
def Yields (good : α → Prop) (x : Run α) : Prop :=
  ∀ memo r, x memo = some r → good r.1

theorem Yields.pure {a : α} (h : good a) : Yields good (Pure.pure a) := by
  rintro memo _ ⟨⟩
  exact h

theorem Yields.outOfDepth : Yields good Run.outOfDepth := by
  rintro memo _ ⟨⟩

theorem Yields.of_gives {x : Run α} {a : α} (hx : Yields good x) (h : Gives x a) : good a := by
  obtain ⟨memo, -, ha⟩ := h (.fresh true) (PathMemo.holds_fresh true).sound
  exact hx _ _ ha

theorem Yields.bind {x : Run α} {f : α → Run β} (hx : Yields good x)
    (hf : ∀ a, good a → Yields good' (f a)) : Yields good' (x >>= f) := by
  intro memo r h
  obtain ⟨a, memo', ha, hr⟩ := bind_eq_some.1 h
  exact hf a (hx memo _ ha) memo' r hr

theorem Yields.mapM {f : α → Run β} {items : List α} (hf : ∀ a ∈ items, Yields good' (f a)) :
    Yields (fun found => ∀ b ∈ found, good' b) (items.mapM f) := by
  induction items with
  | nil => exact .pure (by simp)
  | cons a items ih =>
      obtain ⟨ha, hitems⟩ := List.forall_mem_cons.1 hf
      rw [List.mapM_cons]
      exact ha.bind fun b hb => (ih hitems).bind fun found hfound =>
        .pure (List.forall_mem_cons.2 ⟨hb, hfound⟩)

/-- A filter keeps nothing but items. -/
theorem yields_filterM (p : α → Run Bool) (items : List α) :
    Yields (· ⊆ items) (items.filterM p) := by
  have haux (rest kept : List α) (hrest : rest ⊆ items) (hkept : kept ⊆ items) :
      Yields (· ⊆ items) (rest.filterAuxM p kept) := by
    induction rest generalizing kept with
    | nil => exact .pure hkept
    | cons a rest ih =>
        obtain ⟨ha, hrest⟩ := List.cons_subset.1 hrest
        have hany : Yields (fun _ => True) (p a) := fun _ _ _ => trivial
        refine hany.bind fun keep _ => ih _ hrest ?_
        cases keep with
        | true => exact List.cons_subset.2 ⟨ha, hkept⟩
        | false => exact hkept
  have hall := haux items [] (List.Subset.refl items) (List.nil_subset items)
  exact hall.bind fun kept h => .pure fun a ha => h (List.mem_reverse.1 ha)

/-- Whatever value the run comes to is good. It may fail instead. -/
def YieldsOk (good : α → Prop) (x : FallibleRun α) : Prop :=
  Yields (fun outcome => ∀ a, outcome = .ok a → good a) x.run

theorem YieldsOk.ok {a : α} (h : good a) : YieldsOk good (Pure.pure a) :=
  Yields.pure (α := Except Failure α) (by rintro _ ⟨⟩; exact h)

theorem YieldsOk.fail (e : Failure) : YieldsOk good (Run.fail e) :=
  Yields.pure (α := Except Failure α) nofun

theorem YieldsOk.andThen {x : FallibleRun α} {f : α → FallibleRun β} (hx : YieldsOk good x)
    (hf : ∀ a, good a → YieldsOk good' (f a)) : YieldsOk good' (x >>= f) := by
  refine Yields.bind hx fun outcome h => ?_
  cases outcome with
  | ok a => exact hf a (h a rfl)
  | error e => exact Yields.pure (α := Except Failure β) nofun

theorem YieldsOk.infallible {x : Run α} (hx : Yields good x) :
    YieldsOk good (Run.infallible x) :=
  Yields.bind (f := fun a => Pure.pure (Except.ok a)) hx fun a ha =>
    Yields.pure (α := Except Failure α) (by rintro _ ⟨⟩; exact ha)

theorem YieldsOk.orElse {x : FallibleRun α} {default : α} (hx : YieldsOk good x)
    (hdefault : good default) : Yields good (Run.orElse default x) := by
  refine Yields.bind hx fun outcome h => ?_
  cases outcome with
  | ok a => exact .pure (h a rfl)
  | error e => exact .pure hdefault

theorem yields_follow (text : String) {v : Value} (h : v.WellFormed) :
    Yields WellFormed (Run.follow text v) := by
  rintro memo _ ⟨⟩
  exact memo.wellFormed_follow text h

end Run

open Run

/-- What texts are evaluated to is well-formed, against data that is. -/
def Nested.Keeps (nested : Nested) : Prop :=
  ∀ p : Prepared, p.IsText → ∀ v : Value, v.WellFormed → Yields WellFormed (nested.evaluate p v)

/-! ## Stage functions -/

namespace Items

variable {items : List Value} {v : Value}

theorem distinctFrom_sublist (seen : List Value) (keyed : List (Value × Value)) :
    (distinctFrom seen keyed).Sublist (keyed.map Prod.snd) := by
  induction keyed generalizing seen with
  | nil => exact .slnil
  | cons p keyed ih =>
      rw [distinctFrom, List.map_cons]
      split
      · exact (ih seen).cons p.2
      · exact (ih _).cons_cons p.2

theorem wellFormed_flatten (depth : Nat) (h : (array items).WellFormed) :
    (array (flatten depth items)).WellFormed := by
  induction depth, items using flatten_inductionOn with
  | zero items => exact h
  | nil depth => exact h
  | array depth inner rest ihinner ihrest =>
      obtain ⟨hinner, hrest⟩ := List.forall_mem_cons.1 (wellFormed_array.1 h)
      rw [flatten_cons_array, wellFormed_array, List.forall_mem_append]
      exact ⟨wellFormed_array.1 (ihinner hinner),
        wellFormed_array.1 (ihrest (wellFormed_array.2 hrest))⟩
  | other depth v rest hv ih =>
      obtain ⟨hv', hrest⟩ := List.forall_mem_cons.1 (wellFormed_array.1 h)
      rw [flatten_cons_of_not_array hv, wellFormed_array, List.forall_mem_cons]
      exact ⟨hv', wellFormed_array.1 (ih (wellFormed_array.2 hrest))⟩

theorem wellFormed_pick (keys : List String) (h : v.WellFormed) : (pick keys v).WellFormed := by
  cases v with
  | object entries =>
      refine wellFormed_ofList fun e he => ?_
      obtain ⟨k, -, hk⟩ := List.mem_filterMap.1 he
      obtain ⟨w, hw, rfl⟩ := Option.map_eq_some_iff.1 hk
      exact h.entry hw
  | _ => exact h

theorem wellFormed_at? (n : Int) (h : (array items).WellFormed) : (at? items n).WellFormed := by
  unfold at?
  extract_lets place
  split
  · trivial
  · exact .getD fun v hv => h.item hv

end Items

namespace StageFunction

variable {nested : Nested} {args : Arguments} {items : List Value}

theorem yields_mapItem (hnested : nested.Keeps) (hargs : args.Within Prepared.IsText) {v : Value}
    (h : v.WellFormed) : Yields WellFormed (mapItem nested args v) := by
  cases args with
  | expression p => exact hnested p hargs v h
  | fields entries =>
      have hentry (entry : String × Prepared) (hmem : entry ∈ entries) :
          Yields (fun made : String × Value => made.2.WellFormed)
            (do return (entry.1, ← nested.evaluate entry.2 v)) :=
        (hnested entry.2 (hargs entry hmem) v h).bind fun w hw => .pure hw
      exact (Yields.mapM hentry).bind fun made hmade => .pure (wellFormed_ofList hmade)
  | _ => exact .pure h

theorem yields_keepItems (nested : Nested) (args : Arguments) (items : List Value) :
    Yields (· ⊆ items) (keepItems nested args items) := by
  cases args with
  | expression p => exact yields_filterM _ items
  | _ => exact .pure (List.filter_sublist.subset)

theorem map_snd_zip_subset (found items : List Value) :
    (found.zip items).map Prod.snd ⊆ items := by
  intro v hv
  obtain ⟨p, hp, rfl⟩ := List.mem_map.1 hv
  exact (List.of_mem_zip hp).2

theorem sortKeyed_subset (desc : Bool) (keyed : List (Value × Value)) :
    Items.sortKeyed desc keyed ⊆ keyed.map Prod.snd :=
  ((insertionSort_perm _ keyed).map Prod.snd).subset

theorem yields_sortItems (nested : Nested) (spec : Pipeline.SortOrder) (items : List Value) :
    Yields (· ⊆ items) (sortItems nested spec items) := by
  have hany : Yields (fun _ => True) (keysOf nested (spec.field.map .ofField)
      (items.filter fun v => !v.isMissing)) := fun _ _ _ => trivial
  refine hany.bind fun found _ => .pure (List.append_subset.2 ⟨?_, List.filter_sublist.subset⟩)
  refine List.Subset.trans (sortKeyed_subset _ _) ?_
  exact List.Subset.trans (map_snd_zip_subset _ _) List.filter_sublist.subset

theorem yields_pick (nested : Nested) (args : Arguments) {input : Value} (h : input.WellFormed) :
    YieldsOk WellFormed (pick.apply nested input args) := by
  cases args
  case keys names =>
      cases names with
      | nil => exact .fail _
      | cons name names =>
          cases input
          case array items =>
              refine .ok (wellFormed_array.2 fun v hv => ?_)
              obtain ⟨item, hitem, rfl⟩ := List.mem_map.1 hv
              exact Items.wellFormed_pick _ (wellFormed_array.1 h item hitem)
          all_goals exact .ok (Items.wellFormed_pick _ h)
  all_goals exact .fail _

/-- A stage function gives items of its list, what it evaluates for them, or a value made of
these. -/
theorem yields_apply (hnested : nested.Keeps) (hargs : args.Within Prepared.IsText)
    (f : StageFunction) {input : Value} (h : input.WellFormed) :
    YieldsOk WellFormed (f.apply nested input args) := by
  have hempty : (array []).WellFormed := trivial
  have hany (items : List Value) :
      Yields (fun _ => True) (keysOf nested (perElement args) items) := fun _ _ _ => trivial
  cases f
  case filter =>
      cases input
      case array items =>
          exact (YieldsOk.infallible (yields_keepItems nested args items)).andThen
            fun kept hkept => .ok (h.of_subset hkept)
      all_goals exact .ok hempty
  case map =>
      cases input
      case array items =>
          have hitems := Yields.mapM fun v hv =>
            yields_mapItem hnested hargs (wellFormed_array.1 h v hv)
          exact (YieldsOk.infallible hitems).andThen
            fun made hmade => .ok (wellFormed_array.2 hmade)
      all_goals exact .ok hempty
  case sum =>
      cases input
      case array items => exact (YieldsOk.infallible (hany items)).andThen fun _ _ => .ok trivial
      all_goals exact .ok trivial
  case avg =>
      cases input
      case array items =>
          cases items with
          | nil => exact .ok trivial
          | cons item rest => exact (YieldsOk.infallible (hany _)).andThen fun _ _ => .ok trivial
      all_goals exact .ok trivial
  case sort =>
      cases input
      case array items =>
          exact (YieldsOk.infallible (yields_sortItems nested _ items)).andThen
            fun sorted hsorted => .ok (h.of_subset hsorted)
      all_goals exact .ok h
  case unique =>
      cases input
      case array items =>
          refine (YieldsOk.infallible (hany items)).andThen fun found _ => .ok (h.of_subset ?_)
          exact List.Subset.trans (Items.distinctFrom_sublist [] _).subset
            (map_snd_zip_subset found items)
      all_goals exact .ok h
  case pick => exact yields_pick nested args h
  case first =>
      cases input
      case array items => exact .ok (.headD (wellFormed_array.1 h))
      all_goals exact .ok trivial
  case last =>
      cases input
      case array items =>
          refine .ok ?_
          rw [List.getLastD_eq_getLast?]
          exact .getD fun v hv => wellFormed_array.1 h v (List.mem_of_getLast? hv)
      all_goals exact .ok trivial
  case take =>
      cases input
      case array items =>
          refine .ok ?_
          split
          · exact h.of_subset (sliceItems_subset items _ _)
          · exact h
      all_goals exact .ok h
  case skip =>
      cases input
      case array items =>
          refine .ok ?_
          split
          · exact h.of_subset (sliceItems_subset items _ _)
          · exact h
      all_goals exact .ok h
  case nth =>
      cases input
      case array items =>
          refine .ok ?_
          split
          · exact Items.wellFormed_at? _ h
          · trivial
      all_goals exact .ok trivial
  case flatten =>
      cases input
      case array items => exact .ok (Items.wellFormed_flatten _ h)
      all_goals exact .ok h
  case reverse =>
      cases input
      case array items => exact .ok (h.of_subset (List.reverse_subset.2 (List.Subset.refl items)))
      all_goals exact .ok h
  case keys =>
      cases input
      case object entries =>
          refine .ok (wellFormed_array.2 fun v hv => ?_)
          obtain ⟨k, -, rfl⟩ := List.mem_map.1 hv
          trivial
      all_goals exact .ok hempty
  case values =>
      cases input
      case object entries => exact .ok h.values
      all_goals exact .ok hempty
  case join =>
      refine .ok ?_
      cases input <;> trivial
  case count => cases input <;> exact .ok trivial
  case add | sub | mul | div | mod =>
      refine .ok ?_
      split <;> trivial

end StageFunction

/-! ## Evaluations -/

theorem StageFunction.yields_evaluateAll {nested : Nested} (hnested : nested.Keeps) {data : Value}
    (hdata : data.WellFormed) (args : List (List Char)) :
    Yields (fun found => ∀ v ∈ found, v.WellFormed) (evaluateAll nested data args) :=
  .mapM fun _ _ => hnested _ ⟨_, rfl⟩ data hdata

theorem Function.yields_call {nested : Nested} (hnested : nested.Keeps) (patternBudget : Nat)
    (name : String) {args : List Value} (h : ∀ v ∈ args, v.WellFormed) :
    YieldsOk WellFormed (Function.call nested patternBudget name args) := by
  unfold Function.call
  split
  · exact .ok (Builtin.wellFormed_call _ patternBudget h)
  · split
    · exact StageFunction.yields_apply hnested (StageFunction.argsOfValues_within _ _) _ (.headD h)
    · exact .fail _

/-! ### Templates -/

/-- The values that are bound are well-formed, and so are those that helpers give. -/
structure Bindings.WellFormed (b : Bindings) : Prop where
  responses : ∀ e ∈ b.responses, e.2.WellFormed
  transformed : ∀ e ∈ b.transformed, e.2.WellFormed
  parameters : ∀ e ∈ b.parameters, e.2.WellFormed
  environment : ∀ e ∈ b.environment, e.2.WellFormed
  functions : ∀ e ∈ b.functions, (e.2 []).WellFormed

theorem Bindings.wellFormed_empty : Bindings.empty.WellFormed := by
  constructor <;> exact List.forall_mem_nil _

namespace Template

variable {v : Value} {b : Bindings}

theorem wellFormed_entryAt {entries : Keyed Value} (h : ∀ e ∈ entries, e.2.WellFormed)
    {key : List Char} (hv : entryAt entries key = some v) : v.WellFormed := by
  unfold entryAt at hv
  extract_lets isName rest at hv
  split at hv
  · cases hv
  · next w hw =>
      have hentry := h _ (Keyed.mem_of_get? hw)
      split at hv
      · cases hv
        exact hentry
      · cases hv
        exact hentry.follow _

theorem wellFormed_find (hb : b.WellFormed) {space key : List Char}
    (hv : find b space key = some v) : v.WellFormed := by
  unfold find at hv
  split at hv
  · exact hb.parameters _ (Keyed.mem_of_get? hv)
  · exact hb.environment _ (Keyed.mem_of_get? hv)
  · exact wellFormed_entryAt hb.responses hv
  · exact wellFormed_entryAt hb.transformed hv
  · obtain ⟨f, hf, rfl⟩ := Option.map_eq_some_iff.1 hv
    exact hb.functions _ (Keyed.mem_of_get? hf)
  · cases hv

theorem wellFormed_resolve (hb : b.WellFormed) {text : String}
    (hv : resolve b text = some v) : v.WellFormed := by
  unfold resolve at hv
  extract_lets cs at hv
  split at hv
  split at hv
  · cases hv
  · split at hv
    · cases hv
    · next w hw =>
        have hfound := wellFormed_find hb hw
        split at hv
        · cases hv
        · split at hv
          · cases hv
            trivial
          · cases hv
            exact hfound

end Template

namespace Scope

/-- Whatever the templates of the scope stand for is well-formed. -/
def WellFormed (s : Scope) : Prop :=
  ∀ text v, s.resolver s.bindings text = some v → v.WellFormed

variable {s : Scope} {nested : Nested} {data v : Value}

theorem wellFormed_of_bindings {b : Bindings} (hb : b.WellFormed) (patternBudget : Nat) :
    (Scope.mk b Template.resolve patternBudget).WellFormed :=
  fun _ _ h => Template.wellFormed_resolve hb h

theorem WellFormed.template (hs : s.WellFormed) (text : String) :
    (Template.value s.resolver s.bindings text).WellFormed := by
  unfold Template.value
  split
  · next v hv => exact hs _ v hv
  · trivial

mutual

/-- An expression gives a literal, a part of the data, what a template stands for, or what an
operator or a call makes of these. -/
theorem WellFormed.yields_evalExpr (hs : s.WellFormed) (hnested : nested.Keeps)
    (hdata : data.WellFormed) (e : Expr) (he : e.Leaves Expr.IsScalarLeaf) :
    YieldsOk Value.WellFormed (s.evalExpr nested e data) := by
  match e with
  | .literal v =>
      simp only [Scope.evalExpr]
      exact .ok (.of_isScalar (he v rfl))
  | .identifier name =>
      simp only [Scope.evalExpr]
      exact .ok (hdata.property name)
  | .path text =>
      simp only [Scope.evalExpr]
      exact .infallible (yields_follow text hdata)
  | .template text =>
      simp only [Scope.evalExpr]
      exact .ok (hs.template text)
  | .unary op e =>
      simp only [Scope.evalExpr]
      exact (hs.yields_evalExpr hnested hdata e he).andThen fun v _ =>
        .ok (op.wellFormed_apply v)
  | .binary l op r =>
      have hr := hs.yields_evalExpr hnested hdata r he.2
      simp only [Scope.evalExpr]
      refine (hs.yields_evalExpr hnested hdata l he.1).andThen fun a ha => ?_
      cases op
      case and =>
          cases a.isTruthy
          · exact .ok ha
          · exact hr
      case or =>
          cases a.isTruthy
          · exact hr
          · exact .ok ha
      all_goals exact hr.andThen fun b hb => .ok (Operator.wellFormed_apply _ _ ha hb)
  | .call name args =>
      simp only [Scope.evalExpr]
      exact (hs.yields_evalArgs hnested hdata args he).andThen fun vs hvs =>
        Function.yields_call hnested s.patternBudget name hvs

theorem WellFormed.yields_evalArgs (hs : s.WellFormed) (hnested : nested.Keeps)
    (hdata : data.WellFormed) (args : List Expr)
    (hargs : Expr.ArgsLeaves Expr.IsScalarLeaf args) :
    YieldsOk (fun found => ∀ v ∈ found, v.WellFormed) (s.evalArgs nested args data) := by
  match args with
  | [] =>
      simp only [Scope.evalArgs]
      exact .ok nofun
  | e :: rest =>
      simp only [Scope.evalArgs]
      exact (hs.yields_evalExpr hnested hdata e hargs.1).andThen fun v hv =>
        (hs.yields_evalArgs hnested hdata rest hargs.2).andThen fun vs hvs =>
          .ok (List.forall_mem_cons.2 ⟨hv, hvs⟩)

end

section stages

variable (hs : s.WellFormed) (hnested : nested.Keeps) (hdata : data.WellFormed)

include hnested hdata in
theorem yields_callBuiltin (s : Scope) (b : Builtin) (args : String) (hv : v.WellFormed) :
    Yields Value.WellFormed (s.callBuiltin nested b args v data) :=
  (StageFunction.yields_evaluateAll hnested hdata _).bind fun _ hrest =>
    .pure (b.wellFormed_call _ (List.forall_mem_cons.2 ⟨hv, hrest⟩))

include hnested hdata in
theorem yields_runStage (s : Scope) (stage : String) (hv : v.WellFormed) :
    YieldsOk Value.WellFormed (s.runStage nested stage v data) := by
  unfold Scope.runStage
  split
  · exact .fail _
  · next call hread =>
      split
      · next f _ =>
          obtain ⟨e, he⟩ | ⟨args, hwithin, he⟩ | he := f.readArgs_cases call.args data
          · rw [he]
            exact .fail e
          · have hargs : args.Within Prepared.IsText :=
              hwithin.mono fun p hp => Prepared.InStage.isText ⟨call, hread, hp⟩
            rw [he, pure_bind]
            exact StageFunction.yields_apply hnested hargs f hv
          · simp only [he, bind_assoc, pure_bind]
            have hall := StageFunction.yields_evaluateAll hnested hdata
            refine (YieldsOk.infallible (hall _)).andThen fun vs _ => ?_
            have hargs : (Arguments.values vs).Within Prepared.IsText := trivial
            exact StageFunction.yields_apply hnested hargs f hv
      · split
        · exact .infallible (yields_callBuiltin hnested hdata s _ _ hv)
        · exact .fail _

include hnested hdata in
theorem yields_runStages (s : Scope) (stages : List String) (hv : v.WellFormed) :
    Yields Value.WellFormed (s.runStages nested data stages v) := by
  induction stages generalizing v with
  | nil => exact .pure hv
  | cons stage rest ih =>
      have hempty : (array []).WellFormed := trivial
      have hstage := yields_runStage hnested hdata s stage hv
      exact (hstage.orElse hempty).bind fun w hw => ih hw

include hs hnested hdata

theorem WellFormed.yields_initial (stage : String) :
    Yields Value.WellFormed (s.initial nested stage data) := by
  unfold Scope.initial Scope.evalText
  split
  · exact .pure hdata
  · split
    · exact hnested _ ⟨_, rfl⟩ data hdata
    · split
      · exact yields_callBuiltin hnested hdata s _ _ hdata
      · refine YieldsOk.orElse ?_ trivial
        split
        · next e he => exact hs.yields_evalExpr hnested hdata e (Expr.leaves_isScalarLeaf he)
        · exact .fail _

theorem WellFormed.yields_runPipeline (source : String) :
    Yields Value.WellFormed (s.runPipeline nested source data) := by
  unfold Scope.runPipeline
  split
  · exact .pure trivial
  · exact (hs.yields_initial hnested hdata _).bind fun v hv =>
      yields_runStages hnested hdata s _ hv

theorem WellFormed.yields_evalPrepared {p : Prepared} (hp : p.IsText) :
    YieldsOk Value.WellFormed (s.evalPrepared nested p data) := by
  cases p with
  | empty => exact .ok trivial
  | pipeline source => exact .infallible (hs.yields_runPipeline hnested hdata source)
  | path text => exact .infallible (yields_follow text hdata)
  | parsed source e =>
      obtain ⟨text, htext⟩ := hp
      have hparse := Prepared.parse_of_ofText htext.symm
      exact hs.yields_evalExpr hnested hdata e (Expr.leaves_isScalarLeaf hparse)
  | invalid source e => exact .fail _

end stages

/-- Evaluation keeps values well-formed: where templates stand for well-formed values, a text has
no other value against well-formed data. -/
theorem WellFormed.nestedAt_keeps (hs : s.WellFormed) (depth : Nat) :
    (s.nestedAt depth).Keeps := by
  induction depth with
  | zero => exact fun p _ v _ => .outOfDepth
  | succ depth ih => exact fun p hp v hv => (hs.yields_evalPrepared ih hv hp).orElse trivial

end Scope

end Sluice
