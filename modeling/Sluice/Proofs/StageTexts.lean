import Sluice.Proofs.Blanks
import Sluice.Proofs.Families
import Sluice.Proofs.Splitting

/-!
# Texts inside of pipelines

What a pipeline evaluates out of its own text is made of pieces of this text: of the first
stage, and of the arguments of the stages. So it is shorter than the pipeline; the two characters
that make a path of a field name are paid for by the parentheses around the arguments.
-/
namespace Sluice

open Sluice.Pipeline Sluice.Text

namespace Text

theorem trim_isInfix (cs : List Char) : trim cs <:+: cs := by
  obtain ⟨before, after, he, -⟩ := exists_trim cs
  exact ⟨before, after, by rw [List.append_assoc, ← he]⟩

theorem dropLast_infix_cons (c : Char) (cs : List Char) : cs.dropLast <:+: c :: cs :=
  (List.dropLast_prefix cs).isInfix.trans (List.suffix_cons c cs).isInfix

theorem stripQuotes_isInfix (cs : List Char) : stripQuotes cs <:+: cs := by
  fun_cases stripQuotes cs with
  | case1 => exact List.infix_refl _
  | case2 c rest h => exact dropLast_infix_cons c rest
  | case3 => exact List.infix_refl _

end Text

namespace Pipeline

variable {sep : Char} {cs part : List Char} {found : List (List Char)}

/-! ## Pieces of a text -/

@[simp] theorem intercalate_parts (sep : Char) (cs : List Char) :
    [sep].intercalate (parts sep cs) = cs :=
  intercalate_partsFrom sep 0 none cs

theorem infix_intercalate (sep : Char) (h : part ∈ found) :
    part <:+: [sep].intercalate found := by
  induction found with
  | nil => simp at h
  | cons first rest ih =>
      cases rest with
      | nil =>
          obtain rfl := List.mem_singleton.1 h
          simp
      | cons second rest =>
          rw [List.intercalate_cons_cons]
          rcases List.mem_cons.1 h with rfl | h
          · exact ⟨[], [sep] ++ [sep].intercalate (second :: rest), by simp⟩
          · exact (ih h).trans (List.suffix_append _ _).isInfix

theorem part_isInfix (h : part ∈ parts sep cs) : part <:+: cs := by
  simpa using infix_intercalate sep h

theorem stage_isInfix {stage : List Char} (h : stage ∈ stages cs) : stage <:+: cs := by
  obtain ⟨part, hpart, rfl⟩ := List.mem_map.1 h
  exact (trim_isInfix part).trans (part_isInfix hpart)

/-- No argument is empty, and each is a piece of the argument list. -/
theorem argument_isInfix {arg : List Char} (h : arg ∈ arguments cs) : arg ≠ [] ∧ arg <:+: cs := by
  obtain ⟨hmem, hne⟩ := List.mem_filter.1 h
  obtain ⟨part, hpart, rfl⟩ := List.mem_map.1 hmem
  exact ⟨by simpa using hne, (trim_isInfix part).trans (part_isInfix hpart)⟩

theorem ne_nil_of_mem_arguments {arg : List Char} (h : arg ∈ arguments cs) : cs ≠ [] := by
  rintro rfl
  obtain ⟨hne, hpiece⟩ := argument_isInfix h
  exact hne (List.eq_nil_of_infix_nil hpiece)

theorem eq_of_cutTop {before after : List Char} (h : cutTop sep cs = some (before, after)) :
    cs = before ++ sep :: after := by
  unfold cutTop at h
  split at h
  · next part found hparts =>
      cases h
      have := intercalate_parts sep cs
      rw [hparts, List.intercalate_cons_cons] at this
      simpa using this.symm
  · cases h

/-- Arguments are a piece of the stage, and the parentheses around them are not part of them. -/
theorem args_infix_of_nameAndArgs {name args : List Char}
    (h : nameAndArgs cs = some (name, args)) (hargs : args ≠ []) :
    args <:+: cs ∧ args.length + 2 ≤ cs.length := by
  unfold nameAndArgs at h
  split at h
  · cases h
    exact absurd rfl hargs
  · next name' rest hcut =>
      split at h
      · cases h
        obtain ⟨rfl, -⟩ := eq_of_cutAt hcut
        have hinner := trim_isInfix rest.dropLast
        have hlength := hinner.length_le
        have hpos := List.length_pos_iff.2 hargs
        refine ⟨(hinner.trans (dropLast_infix_cons '(' rest)).trans
          (List.suffix_append _ _).isInfix, ?_⟩
        simp only [List.length_append, List.length_cons, List.length_dropLast] at hlength ⊢
        omega
      · cases h

theorem nameAndArgs_of_readStage {stage : String} {call : Stage}
    (h : readStage stage = .ok call) :
    nameAndArgs (trim stage.toList) = some (call.name.toList, call.args.toList) := by
  simp only [readStage] at h
  split at h
  · next name args hcut =>
      split at h
      · cases h
        simpa using hcut
      · cases h
  · cases h

theorem args_infix_of_readStage {stage : String} {call : Stage}
    (h : readStage stage = .ok call) (hargs : call.args.toList ≠ []) :
    call.args.toList <:+: stage.toList ∧
      call.args.toList.length + 2 ≤ stage.toList.length := by
  obtain ⟨hpiece, hlength⟩ := args_infix_of_nameAndArgs (nameAndArgs_of_readStage h) hargs
  have htrim := trim_isInfix stage.toList
  exact ⟨hpiece.trans htrim, hlength.trans htrim.length_le⟩

theorem infix_of_braced? {inner : List Char} (h : braced? cs = some inner) :
    cs ≠ [] ∧ inner <:+: cs := by
  unfold braced? at h
  split at h
  · next rest =>
      split at h
      · cases h
        exact ⟨List.cons_ne_nil _ _, dropLast_infix_cons _ _⟩
      · cases h
  · cases h

theorem infix_of_readField {entry : List Char} {field : String × String}
    (h : readField entry = .ok field) : field.2.toList <:+: entry := by
  unfold readField at h
  split at h
  · cases h
  · next key value hcut =>
      simp only at h
      split at h
      · cases h
      · cases h
        have hvalue : value <:+: entry := by
          rw [eq_of_cutTop hcut]
          exact ((List.suffix_cons ':' value).trans (List.suffix_append key _)).isInfix
        simpa using (trim_isInfix value).trans hvalue

theorem infix_of_readFields {entries : List (List Char)} {fields : List (String × String)}
    (h : readFields entries = .ok fields) (hentries : ∀ entry ∈ entries, entry <:+: cs) :
    ∀ field ∈ fields, field.2.toList <:+: cs := by
  induction entries generalizing fields with
  | nil =>
      cases h
      simp
  | cons entry rest ih =>
      simp only [readFields] at h
      split at h
      · cases h
      · next field hfield =>
          split at h
          · cases h
          · next fields' hfields =>
              cases h
              have hfirst := (infix_of_readField hfield).trans (hentries entry (by simp))
              have hrest := ih hfields fun e he => hentries e (by simp [he])
              exact List.forall_mem_cons.2 ⟨hfirst, hrest⟩

/-- What a table gives as expressions stands between its braces. -/
theorem infix_of_readFieldMap {args : String} {fields : List (String × String)}
    (h : readFieldMap args = .ok (some fields)) :
    args.toList ≠ [] ∧ ∀ field ∈ fields, field.2.toList <:+: args.toList := by
  unfold readFieldMap at h
  split at h
  · cases h
  · next inner hinner =>
      cases hfields : readFields (arguments inner) with
      | error e =>
          rw [hfields] at h
          cases h
      | ok found =>
          rw [hfields] at h
          cases h
          obtain ⟨hne, hbraced⟩ := infix_of_braced? hinner
          have htrim := trim_isInfix args.toList
          refine ⟨fun hnil => hne (List.eq_nil_of_infix_nil (hnil ▸ htrim)), ?_⟩
          exact infix_of_readFields hfields fun entry hentry =>
            ((argument_isInfix hentry).2.trans hbraced).trans htrim

/-- Options that are pieces of a text keep the field of an order one. -/
theorem infix_field_of_foldl_set {options : List (String × String)} {order : SortOrder}
    (horder : ∀ field ∈ order.field, field.toList <:+: cs)
    (hoptions : ∀ option ∈ options, option.2.toList <:+: cs) :
    ∀ field ∈ (options.foldl SortOrder.set order).field, field.toList <:+: cs := by
  induction options generalizing order with
  | nil => exact horder
  | cons option rest ih =>
      refine ih ?_ fun o ho => hoptions o (by simp [ho])
      have hoption := (stripQuotes_isInfix _).trans (hoptions option (by simp))
      unfold SortOrder.set
      split
      · simpa using hoption
      · exact horder
      · exact horder

/-- The field of an order is a piece of the arguments, which are not empty then. -/
theorem infix_of_readSortOrder {args : String} {order : SortOrder}
    (h : readSortOrder args = .ok order) :
    ∀ field ∈ order.field, args.toList ≠ [] ∧ field.toList <:+: args.toList := by
  unfold readSortOrder at h
  split at h
  · cases h
  · next fields hfields =>
      cases h
      obtain ⟨hne, hoptions⟩ := infix_of_readFieldMap hfields
      exact fun field hfield => ⟨hne, infix_field_of_foldl_set (by simp) hoptions field hfield⟩
  · cases h
    intro field hfield
    obtain ⟨arg, harg, rfl⟩ := Option.map_eq_some_iff.1 hfield
    have hmem := List.mem_of_mem_head? harg
    refine ⟨ne_nil_of_mem_arguments hmem, ?_⟩
    simpa using (stripQuotes_isInfix arg).trans (argument_isInfix hmem).2

end Pipeline

theorem Scope.readStage_of_castStage? {stage args : String} {b : Builtin}
    (h : castStage? stage = some (b, args)) :
    ∃ name, readStage stage = .ok ⟨name, args⟩ ∧ Builtin.ofName? name = some b ∧
      b.isCast = true := by
  unfold castStage? at h
  split at h
  · next call hread =>
      split at h
      · next b' hname =>
          split at h
          · next hcast =>
              cases h
              exact ⟨call.name, hread, hname, hcast⟩
          · cases h
      · cases h
  · cases h

/-! ## Texts in arguments, in stages and in pipelines -/

namespace Prepared

/-- A piece of an argument text, as an expression or as the name of a field. -/
def IsPieceOf (args : List Char) (p : Prepared) : Prop :=
  args ≠ [] ∧ ∃ piece : String, piece.toList <:+: args ∧ (p = .ofText piece ∨ p = .ofField piece)

/-- A piece of the arguments of a stage. -/
def InStage (stage : String) (p : Prepared) : Prop :=
  ∃ call, readStage stage = .ok call ∧ p.IsPieceOf call.args.toList

/-- What a pipeline evaluates out of its own text: a stage that it begins with, and pieces of
the arguments of its stages. Other texts hold no texts to be evaluated. -/
def Contains (p q : Prepared) : Prop :=
  ∃ source stage, p = .pipeline source ∧
    stage ∈ (stages source.toList).map String.ofList ∧ (q = .ofText stage ∨ q.InStage stage)

theorem isPieceOf_ofText {args : List Char} {piece : String} (hne : args ≠ [])
    (h : piece.toList <:+: args) : (ofText piece).IsPieceOf args :=
  ⟨hne, piece, h, .inl rfl⟩

theorem isPieceOf_ofField {args : List Char} {piece : String} (hne : args ≠ [])
    (h : piece.toList <:+: args) : (ofField piece).IsPieceOf args :=
  ⟨hne, piece, h, .inr rfl⟩

theorem IsPieceOf.trimmed {text : String} {p : Prepared} (h : p.IsPieceOf (trimmed text).toList) :
    p.IsPieceOf text.toList := by
  obtain ⟨hne, piece, hpiece, hp⟩ := h
  have htrim := trim_isInfix text.toList
  rw [toList_trimmed] at hne hpiece
  exact ⟨fun hnil => hne (List.eq_nil_of_infix_nil (hnil ▸ htrim)), piece, hpiece.trans htrim, hp⟩

end Prepared

theorem Arguments.Within.mono {allowed allowed' : Prepared → Prop} {args : Arguments}
    (h : args.Within allowed) (hsub : ∀ p, allowed p → allowed' p) : args.Within allowed' := by
  cases args with
  | expression p => exact hsub p h
  | fields entries => exact fun entry hentry => hsub _ (h entry hentry)
  | order o => exact fun field hfield => hsub _ (h field hfield)
  | _ => trivial

namespace StageFunction

variable {text : String}

/-- How the arguments of a stage can be read: not at all, without an evaluation and with nothing
but pieces of the text in them, or by evaluating every one of them. -/
theorem readArgs_cases (f : StageFunction) (text : String) (data : Value) :
    (∃ e, ∀ nested, f.readArgs nested text data = Run.fail e) ∨
    (∃ args : Arguments, args.Within (Prepared.IsPieceOf text.toList) ∧
      ∀ nested, f.readArgs nested text data = pure args) ∨
    (∀ nested, f.readArgs nested text data = do
      return .values (← Run.infallible
        (evaluateAll nested data (arguments (trimmed text).toList)))) := by
  have hpieces {args : Arguments} (h : args.Within (Prepared.IsPieceOf (trimmed text).toList)) :
      args.Within (Prepared.IsPieceOf text.toList) := h.mono fun _ hp => hp.trimmed
  -- What the trimmed text is does not matter from here on, and computing it is slow.
  unfold readArgs
  generalize trimmed text = source at hpieces
  have hne (h : source.isEmpty = false) : source.toList ≠ [] := by
    simpa using h
  have hexpression : (if source.isEmpty then Arguments.none
      else .expression (.ofText source)).Within (Prepared.IsPieceOf source.toList) := by
    cases hempty : source.isEmpty
    · exact Prepared.isPieceOf_ofText (hne hempty) (List.infix_refl _)
    · trivial
  have hfield : (if source.isEmpty then Arguments.none
      else .expression (.ofField source)).Within (Prepared.IsPieceOf source.toList) := by
    cases hempty : source.isEmpty
    · exact Prepared.isPieceOf_ofField (hne hempty) (List.infix_refl _)
    · trivial
  cases f
  case filter => exact .inr (.inl ⟨_, hpieces hexpression, fun _ => rfl⟩)
  case sum => exact .inr (.inl ⟨_, hpieces hfield, fun _ => rfl⟩)
  case avg => exact .inr (.inl ⟨_, hpieces hfield, fun _ => rfl⟩)
  case unique => exact .inr (.inl ⟨_, hpieces hfield, fun _ => rfl⟩)
  case map =>
      cases hread : readFieldMap source with
      | error e => exact .inl ⟨.parse e, fun nested => by simp only [hread]⟩
      | ok table =>
          refine .inr (.inl ?_)
          cases table with
          | none => exact ⟨_, hpieces hexpression, fun nested => by simp only [hread]⟩
          | some fields =>
              refine ⟨_, hpieces ?_, fun nested => by simp only [hread]; rfl⟩
              intro entry hentry
              obtain ⟨⟨key, e⟩, hfield, rfl⟩ := List.mem_map.1 hentry
              obtain ⟨hne, hpiece⟩ := infix_of_readFieldMap hread
              dsimp only
              exact Prepared.isPieceOf_ofText hne (hpiece _ hfield)
  case sort =>
      cases hread : readSortOrder source with
      | error e => exact .inl ⟨.parse e, fun nested => by simp only [hread]⟩
      | ok order =>
          refine .inr (.inl ⟨.order order, hpieces ?_, fun nested => by simp only [hread]⟩)
          intro field hfield
          obtain ⟨hne, hpiece⟩ := infix_of_readSortOrder hread field hfield
          exact Prepared.isPieceOf_ofField hne hpiece
  case pick => exact .inr (.inl ⟨.keys _, trivial, fun _ => rfl⟩)
  case count | first | last | reverse | keys | values =>
      exact .inr (.inl ⟨.none, trivial, fun _ => rfl⟩)
  all_goals exact .inr (.inr fun _ => rfl)

end StageFunction

section stages

variable {ι : Type} {P : ∀ α : Type, (ι → Run α) → Prop} {nested : ι → Nested}
  {allowed allowed' : Prepared → Prop}

theorem Serves.mono (h : Serves P nested allowed) (hsub : ∀ p, allowed' p → allowed p) :
    Serves P nested allowed' :=
  ⟨fun p hp => h.evaluate p (hsub p hp), fun p hp => h.holds p (hsub p hp)⟩

variable (hP : Run.Closed P)
include hP

theorem evaluateArguments_closed {args : String} (data : Value)
    (hnested : Serves P nested (Prepared.IsPieceOf args.toList)) :
    P (List Value) fun i =>
      StageFunction.evaluateAll (nested i) data (arguments args.toList) := by
  refine StageFunction.evaluateAll_closed hP hnested data _ fun text htext => ?_
  refine Prepared.isPieceOf_ofText (ne_nil_of_mem_arguments htext) ?_
  simpa using (argument_isInfix htext).2

theorem Scope.callBuiltin_closed (s : Scope) (b : Builtin) {args : String} (input data : Value)
    (hnested : Serves P nested (Prepared.IsPieceOf args.toList)) :
    P Value fun i => s.callBuiltin (nested i) b args input data :=
  hP.bind (evaluateArguments_closed hP data hnested) fun _ => hP.pure _

/-- A stage evaluates no texts out of its own text but pieces of its arguments. -/
theorem Scope.runStage_closed (s : Scope) {stage : String}
    (hnested : Serves P nested (Prepared.InStage stage)) (input data : Value) :
    P (Except Failure Value) fun i => (s.runStage (nested i) stage input data).run := by
  unfold Scope.runStage
  cases hread : readStage stage with
  | error e => exact hP.fail _
  | ok call =>
      have hargs : Serves P nested (Prepared.IsPieceOf call.args.toList) :=
        hnested.mono fun p hp => ⟨call, hread, hp⟩
      simp only
      cases StageFunction.ofName? call.name with
      | none =>
          cases Builtin.ofName? call.name with
          | none => exact hP.fail _
          | some b => exact hP.infallible (s.callBuiltin_closed hP b input data hargs)
      | some f =>
          simp only
          obtain ⟨e, he⟩ | ⟨args, hwithin, he⟩ | he := f.readArgs_cases call.args data
          · simp only [he]
            exact hP.fail e
          · simp only [he, pure_bind]
            exact StageFunction.apply_closed hP hargs f input hwithin
          · simp only [he, bind_assoc, pure_bind]
            have hall := evaluateArguments_closed hP data (hargs.mono fun p hp => hp.trimmed)
            refine hP.andThen (hP.infallible hall) fun vs => ?_
            exact StageFunction.apply_closed hP hargs f input trivial

theorem Scope.runStages_closed (s : Scope) (data : Value) {stages : List String}
    (hnested : ∀ stage ∈ stages, Serves P nested (Prepared.InStage stage)) (v : Value) :
    P Value fun i => s.runStages (nested i) data stages v := by
  induction stages generalizing v with
  | nil => exact hP.pure v
  | cons stage rest ih =>
      obtain ⟨hstage, hrest⟩ := List.forall_mem_cons.1 hnested
      simp only [Scope.runStages]
      exact hP.bind (hP.orElse _ (s.runStage_closed hP hstage v data)) fun v => ih hrest v

end stages

/-! ## Texts that get shorter -/

theorem Pipeline.length_le_length_intercalate (sep : Char) (found : List (List Char)) :
    found.length ≤ ([sep].intercalate found).length + 1 := by
  induction found with
  | nil => simp
  | cons first rest ih =>
      cases rest with
      | nil => simp
      | cons second rest =>
          rw [List.intercalate_cons_cons]
          simp only [List.length_append, List.length_cons] at ih ⊢
          omega

/-- A part leaves room for the separators between all the parts. -/
theorem Pipeline.length_add_length_le (sep : Char) {part : List Char} {found : List (List Char)}
    (h : part ∈ found) :
    part.length + found.length ≤ ([sep].intercalate found).length + 1 := by
  induction found with
  | nil => simp at h
  | cons first rest ih =>
      cases rest with
      | nil =>
          obtain rfl := List.mem_singleton.1 h
          simp
      | cons second rest =>
          have hrest := length_le_length_intercalate sep (second :: rest)
          rw [List.intercalate_cons_cons]
          simp only [List.length_append, List.length_cons] at ih hrest ⊢
          rcases List.mem_cons.1 h with rfl | h
          · omega
          · have := ih h
            simp only [List.length_nil]
            omega

theorem Pipeline.length_lt_of_mem_stages {cs stage : List Char} (hpipe : isPipeline cs = true)
    (h : stage ∈ stages cs) : stage.length < cs.length := by
  obtain ⟨part, hpart, rfl⟩ := List.mem_map.1 h
  have hlength := length_add_length_le '|' hpart
  have htrim := (trim_isInfix part).length_le
  simp only [isPipeline, decide_eq_true_eq] at hpipe
  rw [intercalate_parts] at hlength
  omega

namespace Prepared

variable {n : Nat} {p q : Prepared}

theorem length_pathOfField_le (field : String) :
    (pathOfField field).toList.length ≤ field.toList.length + 2 := by
  have hname := ((stripQuotes_isInfix _).trans (trim_isInfix field.toList)).length_le
  unfold pathOfField
  simp only
  split
  · simp only [String.toList_ofList]
    omega
  · simp only [String.toList_ofList, List.length_cons]
    omega

/-- A prepared text that has fewer characters, blanks at its ends aside. -/
def ShorterThan (n : Nat) (p : Prepared) : Prop :=
  ∃ text : String, p = .ofText text ∧ (trim text.toList).length < n

theorem shorterThan_ofText {text : String} (h : text.toList.length < n) :
    (ofText text).ShorterThan n :=
  ⟨text, rfl, Nat.lt_of_le_of_lt (trim_isInfix _).length_le h⟩

theorem InStage.shorterThan {stage : String} (h : p.InStage stage)
    (hn : stage.toList.length < n) : p.ShorterThan n := by
  obtain ⟨call, hread, hne, piece, hpiece, hp⟩ := h
  have hlength := (args_infix_of_readStage hread hne).2
  have hle := hpiece.length_le
  rcases hp with hp | hp
  · exact ⟨piece, hp, Nat.lt_of_le_of_lt (trim_isInfix _).length_le (by omega)⟩
  · have hfield := length_pathOfField_le piece
    exact ⟨pathOfField piece, hp, Nat.lt_of_le_of_lt (trim_isInfix _).length_le (by omega)⟩

theorem source_ofText (text : String) : (ofText text).source = trimmed text := by
  unfold ofText
  simp only [String.isEmpty_iff]
  split
  · next h => exact h.symm
  · split
    · rfl
    · split
      · rfl
      · split <;> rfl

theorem ofText_trimmed (text : String) : ofText (trimmed text) = ofText text := by
  simp [ofText]

theorem ofText_of_parse {text : String} {e : Expr} (htrimmed : trimmed text = text)
    (hne : text ≠ "") (hpipe : isPipeline text = false) (hpath : isPath text = false)
    (hparse : Expr.parse text = .ok e) : ofText text = .parsed text e := by
  have hempty : text.isEmpty = false := by simpa [String.isEmpty_iff] using hne
  simp [ofText, htrimmed, hempty, hpipe, hpath, hparse]

theorem ofText_of_isPath {text : String} (htrimmed : trimmed text = text) (hne : text ≠ "")
    (hpipe : isPipeline text = false) (hpath : isPath text = true) : ofText text = .path text := by
  have hempty : text.isEmpty = false := by simpa [String.isEmpty_iff] using hne
  simp [ofText, htrimmed, hempty, hpipe, hpath]

theorem pipeline_of_ofText {text source : String} (h : ofText text = .pipeline source) :
    source = trimmed text ∧ isPipeline source = true := by
  unfold ofText at h
  simp only at h
  split at h
  · cases h
  · split at h
    · next hpipe =>
        cases h
        exact ⟨rfl, hpipe⟩
    · split at h
      · cases h
      · split at h <;> cases h

/-- The texts in a pipeline are shorter than the pipeline. -/
theorem ShorterThan.of_contains (h : p.ShorterThan (n + 1)) (hq : p.Contains q) :
    q.ShorterThan n := by
  obtain ⟨text, htext, hlength⟩ := h
  obtain ⟨source, stage, rfl, hstage, hq⟩ := hq
  obtain ⟨rfl, hpipe⟩ := pipeline_of_ofText htext.symm
  obtain ⟨cs, hcs, rfl⟩ := List.mem_map.1 hstage
  have hshort := length_lt_of_mem_stages hpipe hcs
  rw [toList_trimmed] at hshort
  have hn : (String.ofList cs).toList.length < n := by
    rw [String.toList_ofList]
    omega
  rcases hq with rfl | hq
  · exact shorterThan_ofText hn
  · exact hq.shorterThan hn

theorem InStage.isText {stage : String} (h : p.InStage stage) : p.IsText := by
  obtain ⟨call, -, -, piece, -, hp | hp⟩ := h
  · exact ⟨piece, hp⟩
  · exact ⟨pathOfField piece, hp⟩

theorem isText_of_contains (h : p.Contains q) : q.IsText := by
  obtain ⟨source, stage, -, -, hq | hq⟩ := h
  · exact ⟨stage, hq⟩
  · exact hq.isText

end Prepared

end Sluice
