import Sluice.Proofs.Remembering
import Mathlib.Data.List.Forall2

/-!
# Results that stay

A text that has a result at some depth, with a memo that holds nothing false, has this result at
every greater depth and with every such memo. Runs with results that stay are put together to
such runs.
-/
namespace Sluice

namespace Run

variable {α β : Type} {a : α} {b : β}

/-- The run has the result with every memo that holds nothing false, and leaves such a memo. -/
def Gives (x : Run α) (a : α) : Prop :=
  ∀ memo : PathMemo, memo.Sound → ∃ memo', memo'.Sound ∧ x memo = some (a, memo')

theorem Gives.pure (a : α) : Gives (Pure.pure a) a :=
  fun memo hmemo => ⟨memo, hmemo, rfl⟩

theorem Gives.bind {x : Run α} {f : α → Run β} (hx : Gives x a) (hf : Gives (f a) b) :
    Gives (x >>= f) b := by
  intro memo hmemo
  obtain ⟨memo₁, hmemo₁, ha⟩ := hx memo hmemo
  obtain ⟨memo₂, hmemo₂, hb⟩ := hf memo₁ hmemo₁
  exact ⟨memo₂, hmemo₂, bind_eq_some.2 ⟨a, memo₁, ha, hb⟩⟩

theorem Gives.mapM {f : α → Run β} {items : List α} {found : List β}
    (h : List.Forall₂ (fun a b => Gives (f a) b) items found) : Gives (items.mapM f) found := by
  induction h with
  | nil => exact .pure []
  | cons hb _ ih =>
      rw [List.mapM_cons]
      exact hb.bind (ih.bind (.pure _))

theorem Gives.follow (text : String) (v : Value) : Gives (Run.follow text v) (v.follow text) :=
  fun memo hmemo => ⟨(memo.path text).2, hmemo.path text, by rw [Run.follow, hmemo.follow_eq]⟩

/-! Fallible runs are runs of outcomes. -/

theorem Gives.ok (a : α) : Gives (Pure.pure a : FallibleRun α).run (.ok a) :=
  .pure (Except.ok a)

theorem Gives.andThen {x : FallibleRun α} {f : α → FallibleRun β} (hx : Gives x.run (.ok a))
    (hf : Gives (f a).run (.ok b)) : Gives (x >>= f).run (.ok b) :=
  Gives.bind hx hf

theorem Gives.infallible {x : Run α} (hx : Gives x a) :
    Gives (Run.infallible x).run (.ok a) :=
  Gives.bind (f := fun a => Pure.pure (Except.ok a)) hx (.pure _)

theorem Gives.orElse {x : FallibleRun α} (default : α) (hx : Gives x.run (.ok a)) :
    Gives (Run.orElse default x) a :=
  Gives.bind hx (.pure a)

theorem Gives.unique {x : Run α} {a' : α} (h : Gives x a) (h' : Gives x a') : a = a' := by
  obtain ⟨memo, -, ha⟩ := h (.fresh true) (PathMemo.holds_fresh true).sound
  obtain ⟨memo', -, ha'⟩ := h' (.fresh true) (PathMemo.holds_fresh true).sound
  exact congrArg Prod.fst (Option.some.inj (ha.symm.trans ha'))

/-- An inquiry has the result that it has with one memo with every memo, if these hold nothing
false, and leaves such a memo. -/
theorem IsInquiry.gives {x : Run α} {memo memo' : PathMemo} (hx : x.IsInquiry)
    (hmemo : memo.Sound) (h : x memo = some (a, memo')) : Gives x a := by
  obtain ⟨t, rfl⟩ := hx
  rw [t.run_eq hmemo] at h
  obtain ⟨a', hresult, he⟩ := Option.map_eq_some_iff.1 h
  obtain rfl : a' = a := congrArg Prod.fst he
  intro memo₁ hmemo₁
  exact ⟨memo₁.learn t.asked, hmemo₁.learn, by rw [t.run_eq hmemo₁, hresult]; rfl⟩

theorem IsInquiry.sound {x : Run α} {memo memo' : PathMemo} (hx : x.IsInquiry)
    (hmemo : memo.Sound) (h : x memo = some (a, memo')) : memo'.Sound := by
  obtain ⟨memo₁, hsound, hrun⟩ := hx.gives hmemo h memo hmemo
  obtain rfl : memo₁ = memo' := congrArg Prod.snd (Option.some.inj (hrun.symm.trans h))
  exact hsound

/-- What goes over a list to its end has a result for every element. -/
theorem exists_gives_of_mapM {f : α → Run β} (hf : ∀ a, (f a).IsInquiry) {items : List α}
    {memo : PathMemo} {r : List β × PathMemo} (hmemo : memo.Sound)
    (h : items.mapM f memo = some r) : ∀ a ∈ items, ∃ b, Gives (f a) b := by
  induction items generalizing memo r with
  | nil => exact nofun
  | cons a items ih =>
      rw [List.mapM_cons] at h
      obtain ⟨b, memo₁, ha, hrest⟩ := bind_eq_some.1 h
      obtain ⟨found, memo₂, hitems, -⟩ := bind_eq_some.1 hrest
      exact List.forall_mem_cons.2 ⟨⟨b, (hf a).gives hmemo ha⟩, ih ((hf a).sound hmemo ha) hitems⟩

end Run

namespace Scope

variable (s : Scope) {depth k : Nat} {text : String} {data v : Value} {memo memo' : PathMemo}

/-- A text that has a result at some depth has it at every greater one. -/
theorem nestedAt_mono (d : Nat) : ∀ k ≥ d,
    Serves (fun _ x => Run.Extends x) (fun b => cond b (s.nestedAt k) (s.nestedAt d))
      Prepared.IsText := by
  induction d with
  | zero =>
      intro k _
      exact ⟨fun _ _ _ => Run.extends_outOfDepth rfl, fun _ _ _ => Run.extends_outOfDepth rfl⟩
  | succ d ih =>
      intro k hk
      obtain ⟨k, rfl⟩ : ∃ k', k = k' + 1 := ⟨k - 1, by omega⟩
      have hlevel := s.level_closed_self Run.closed_extends (ih k (by omega))
      rw [nestedAt_succ, nestedAt_succ]
      convert hlevel using 2 with b
      cases b <;> rfl

theorem tryEvaluate_mono (hk : depth ≤ k)
    (h : (s.tryEvaluate depth text data).run memo = some (.ok v, memo')) :
    (s.tryEvaluate k text data).run memo = some (.ok v, memo') :=
  s.evalPrepared_closed Run.closed_extends (s.nestedAt_mono depth k hk) (.ofText text) data memo _ h

/-- What a text is evaluated to, it is evaluated to at every greater depth and with every memo
that holds nothing false. -/
theorem gives_of_tryEvaluate (hmemo : memo.Sound)
    (h : (s.tryEvaluate depth text data).run memo = some (.ok v, memo')) (hk : depth ≤ k) :
    Run.Gives (s.tryEvaluate k text data).run (.ok v) :=
  (s.tryEvaluate_isInquiry k text data).gives hmemo (s.tryEvaluate_mono hk h)

/-! The same for texts whose failures are null. -/

theorem nestedAt_evaluate (k : Nat) (text : String) (data : Value) :
    (s.nestedAt (k + 1)).evaluate (.ofText text) data = s.evaluate k text data := by
  rw [nestedAt, evaluate, tryEvaluate]

theorem gives_of_evaluate {r : Value × PathMemo} (hmemo : memo.Sound)
    (h : s.evaluate depth text data memo = some r) (hk : depth ≤ k) :
    Run.Gives (s.evaluate k text data) r.1 := by
  have htext : (Prepared.ofText text).IsText := ⟨text, rfl⟩
  have hmono := (s.nestedAt_mono (depth + 1) (k + 1) (by omega)).evaluate _ htext data memo r
  have hinquiry := (s.nestedAt_isInquiry (k + 1)).evaluate _ htext data
  simp only [cond_true, cond_false, nestedAt_evaluate] at hmono hinquiry
  exact hinquiry.gives hmemo (hmono h)

/-- A text has one result, whatever the depth and the memo. -/
theorem evaluate_unique {depth' : Nat} {r r' : Value × PathMemo} (hmemo : memo.Sound)
    (hmemo' : memo'.Sound) (h : s.evaluate depth text data memo = some r)
    (h' : s.evaluate depth' text data memo' = some r') : r.1 = r'.1 :=
  (s.gives_of_evaluate hmemo h (Nat.le_max_left depth depth')).unique
    (s.gives_of_evaluate hmemo' h' (Nat.le_max_right depth depth'))

end Scope

end Sluice
