import Sluice.Proofs.Brackets

/-!
# Paths that are written and read again

The texts of the steps of a path, one after the other, are read as steps again. Each step but a
key is read back, whatever steps come after it. A key is always written between single quotes, and
it is read back if and only if its quoted form can stand in brackets; so the steps of a path are
read back if and only if this is so of all its keys.
-/
namespace Sluice.Path

open Sluice.Text

variable {c : Char} {cs word inner rest tail : List Char} {step : Step} {steps : List Step}

/-! ## What the reader makes -/

/-- A name of a property: what a word between points and brackets is, without blanks at its ends. -/
structure IsPropertyName (cs : List Char) : Prop where
  trimmed : trim cs = cs
  ne_nil : cs ≠ []
  ne_star : cs ≠ ['*']
  free : ∀ c ∈ cs, c ≠ '.' ∧ c ≠ '[' ∧ c ≠ ']'

/-- The steps that the reader makes after the root. -/
inductive Step.IsRead : Step → Prop where
  | property {name : String} (h : IsPropertyName name.toList) : IsRead (.property name)
  | bracketed {step : Step} (h : step.IsBracketed) : IsRead step

theorem isRead_of_mem_wordSteps (hword : ∀ c ∈ word, c ≠ '.' ∧ c ≠ '[' ∧ c ≠ ']')
    (h : step ∈ wordSteps word) : step.IsRead := by
  simp only [wordSteps] at h
  split at h
  · rw [List.mem_singleton.1 h]
    exact .bracketed trivial
  · next hstar =>
      split at h
      · cases h
      · next hempty =>
          rw [List.mem_singleton.1 h]
          refine .property ?_
          rw [String.toList_ofList]
          exact ⟨trim_trim word, by simpa using hempty, hstar,
            fun c hc => hword c (mem_of_mem_trim hc)⟩

theorem stepsFrom_nil : stepsFrom [] [] = .ok [] := by
  rw [stepsFrom]
  rfl

theorem stepsFrom_point (word rest : List Char) :
    stepsFrom word ('.' :: rest) = (stepsFrom [] rest).map (wordSteps word ++ ·) := by
  rw [stepsFrom, if_pos rfl]
  cases stepsFrom [] rest <;> rfl

theorem stepsFrom_bracket (word rest : List Char) :
    stepsFrom word ('[' :: rest) =
      match readBracket none rest with
      | none => .error .unterminatedBracket
      | some (inner, rest') =>
          match classify inner with
          | .error e => .error e
          | .ok step => (stepsFrom [] rest').map fun steps => wordSteps word ++ step :: steps := by
  rw [stepsFrom, if_neg (by decide), if_pos rfl]
  split
  · next h => simp only [h]
  · next inner rest' h =>
      simp only [h]
      cases hclassify : classify inner with
      | error e => rfl
      | ok step => cases hmore : stepsFrom [] rest' <;> rfl

theorem stepsFrom_word (h : ∀ c ∈ cs, c ≠ '.' ∧ c ≠ '[' ∧ c ≠ ']') (word rest : List Char) :
    stepsFrom word (cs ++ rest) = stepsFrom (word ++ cs) rest := by
  induction cs generalizing word with
  | nil => simp
  | cons c cs ih =>
      obtain ⟨hpoint, hopen, hclose⟩ := h c List.mem_cons_self
      rw [List.cons_append, stepsFrom, if_neg hpoint, if_neg hopen, if_neg hclose,
        ih (fun c hc => h c (List.mem_cons_of_mem _ hc))]
      simp

theorem isRead_of_stepsFrom (hword : ∀ c ∈ word, c ≠ '.' ∧ c ≠ '[' ∧ c ≠ ']')
    (h : stepsFrom word cs = .ok steps) : ∀ step ∈ steps, step.IsRead := by
  have hnil : ∀ c ∈ ([] : List Char), c ≠ '.' ∧ c ≠ '[' ∧ c ≠ ']' := by simp
  fun_induction stepsFrom word cs generalizing steps with
  | case1 word =>
      cases h
      exact fun step => isRead_of_mem_wordSteps hword
  | case3 word rest more hmore ih =>
      cases h
      exact List.forall_mem_append.2 ⟨fun step => isRead_of_mem_wordSteps hword, ih hnil hmore⟩
  | case7 word rest inner rest' _ step hclassify _ more hmore _ ih =>
      cases h
      have hstep := isBracketed_of_classify hclassify
      exact List.forall_mem_append.2 ⟨fun step => isRead_of_mem_wordSteps hword,
        List.forall_mem_cons.2 ⟨.bracketed hstep, ih hnil hmore⟩⟩
  | case9 word c rest hpoint hopen hclose ih =>
      refine ih (List.forall_mem_append.2 ⟨hword, ?_⟩) h
      exact List.forall_mem_singleton.2 ⟨hpoint, hopen, hclose⟩
  | case2 | case4 | case5 | case6 | case8 => cases h

/-! ## One step read back -/

/-- A text that goes on with no word: it is empty, or a point or a bracket comes first. -/
def EndsWord (cs : List Char) : Prop :=
  ∀ c ∈ cs.head?, c = '.' ∨ c = '['

theorem endsWord_chars (h : step.IsRead) (tail : List Char) : EndsWord (step.chars ++ tail) := by
  intro c hc
  cases h with
  | property _ => exact .inl (by simpa [Step.chars, eq_comm] using hc)
  | bracketed hstep =>
      rw [hstep.chars_eq] at hc
      exact .inr (by simpa [eq_comm] using hc)

theorem endsWord_flatMap_chars (h : ∀ step ∈ steps, step.IsRead) :
    EndsWord (steps.flatMap Step.chars) := by
  cases steps with
  | nil => simp [EndsWord]
  | cons step steps => exact endsWord_chars (h step List.mem_cons_self) _

/-- Where a word ends, its steps come before those of the rest. -/
theorem stepsFrom_of_endsWord (h : EndsWord cs) (word : List Char) :
    stepsFrom word cs = (stepsFrom [] cs).map (wordSteps word ++ ·) := by
  have hnone : wordSteps [] = [] := by decide
  cases cs with
  | nil =>
      simp [stepsFrom, hnone, Except.map]
  | cons c rest =>
      rcases h c rfl with rfl | rfl
      · rw [stepsFrom_point, stepsFrom_point, hnone]
        cases stepsFrom [] rest <;> rfl
      · rw [stepsFrom_bracket, stepsFrom_bracket, hnone]
        cases readBracket none rest with
        | none => rfl
        | some p =>
            cases hclassify : classify p.1 with
            | error e => simp only [hclassify]; rfl
            | ok step => simp only [hclassify]; cases stepsFrom [] p.2 <;> rfl

theorem isPropertyName_of_isWord (hne : cs ≠ []) (h : ∀ c ∈ cs, isWord c = true) :
    IsPropertyName cs where
  trimmed := trim_eq_self_of_forall fun c hc => isBlank_of_isWord (h c hc)
  ne_nil := hne
  ne_star := by
    rintro rfl
    exact absurd (h '*' List.mem_cons_self) (by decide)
  free c hc := ⟨ne_of_class isWord (h c hc) (by decide), ne_of_class isWord (h c hc) (by decide),
    ne_of_class isWord (h c hc) (by decide)⟩

theorem wordSteps_of_isPropertyName (h : IsPropertyName cs) :
    wordSteps cs = [.property (String.ofList cs)] := by
  simp [wordSteps, h.trimmed, h.ne_star, h.ne_nil]

/-! What stands first is read by itself if no word has begun. -/

theorem stepsFrom_nil_point (rest : List Char) : stepsFrom [] ('.' :: rest) = stepsFrom [] rest := by
  have hnone : wordSteps [] = [] := by decide
  rw [stepsFrom_point, hnone]
  cases stepsFrom [] rest <;> rfl

theorem IsPropertyName.stepsFrom_append (h : IsPropertyName cs) (htail : EndsWord tail) :
    stepsFrom [] (cs ++ tail) =
      (stepsFrom [] tail).map (.property (String.ofList cs) :: ·) := by
  rw [stepsFrom_word h.free, List.nil_append, stepsFrom_of_endsWord htail,
    wordSteps_of_isPropertyName h]
  rfl

theorem BracketBody.stepsFrom_append (h : BracketBody inner) (tail : List Char) :
    stepsFrom [] ('[' :: (inner ++ ']' :: tail)) =
      match classify inner with
      | .error e => .error e
      | .ok step => (stepsFrom [] tail).map (step :: ·) := by
  have hnone : wordSteps [] = [] := by decide
  rw [stepsFrom_bracket, h.readBracket_append, hnone]
  rfl

/-- The quoted form of a key can stand in brackets. -/
def Step.IsSealed : Step → Prop
  | key name => BracketBody ('\'' :: (name.toList ++ ['\'']))
  | _ => True

theorem Step.IsBracketed.bracketBody_inside (h : step.IsBracketed) (hsealed : step.IsSealed) :
    BracketBody step.inside := by
  have hint {n : Int} {c : Char} (hc : c ∈ intDigits n) : isQuote c = false ∧ c ≠ ']' :=
    have hdigit := isDigitOrMinus_of_mem_intDigits hc
    ⟨isQuote_of_isDigitOrMinus hdigit, ne_of_class isDigitOrMinus hdigit (by decide)⟩
  have hcolon : isQuote ':' = false ∧ ':' ≠ ']' := by decide
  match step with
  | root | property _ => cases h
  | index n =>
      have hdigits : natDigits n = intDigits n := by simp [intDigits]
      rw [Step.inside, hdigits]
      exact .of_forall fun c => hint
  | key name => exact hsealed
  | wildcard => exact .of_forall (List.forall_mem_singleton.2 (by decide))
  | slice start none =>
      exact .of_forall (List.forall_mem_append.2
        ⟨fun c => hint, List.forall_mem_singleton.2 hcolon⟩)
  | slice start (some stop) =>
      exact .of_forall (List.forall_mem_append.2
        ⟨fun c => hint, List.forall_mem_cons.2 ⟨hcolon, fun c => hint⟩⟩)

/-- A step is read back from its text, whatever steps come after it. -/
theorem stepsFrom_chars (h : step.IsRead) (hsealed : step.IsSealed) (htail : EndsWord tail) :
    stepsFrom [] (step.chars ++ tail) = (stepsFrom [] tail).map (step :: ·) := by
  cases h with
  | property hname =>
      rw [Step.chars, List.cons_append, stepsFrom_nil_point, hname.stepsFrom_append htail,
        String.ofList_toList]
  | bracketed hstep =>
      have hbody := hstep.bracketBody_inside hsealed
      rw [hstep.chars_eq, List.cons_append, List.append_assoc, List.singleton_append,
        hbody.stepsFrom_append, hstep.classify_inside]

/-! ## All steps read back -/

/-- If the text of a step is read as this step, the step is sealed. -/
theorem isSealed_of_stepsFrom {more : List Step}
    (h : stepsFrom [] (step.chars ++ tail) = .ok (step :: more)) : step.IsSealed := by
  cases step with
  | key name =>
      have hchars : (Step.key name).chars ++ tail =
          '[' :: ('\'' :: (name.toList ++ ['\'']) ++ ']' :: tail) := by simp [Step.chars]
      rw [hchars, stepsFrom_bracket] at h
      split at h
      · cases h
      · next inner rest hread =>
          split at h
          · cases h
          · next step hclassify =>
              cases hmore : stepsFrom [] rest with
              | error e =>
                  rw [hmore] at h
                  cases h
              | ok found =>
                  rw [hmore] at h
                  obtain rfl : step = .key name := (List.cons.inj (Except.ok.inj h)).1
                  exact bracketBody_of_read hread hclassify
  | _ => trivial

theorem stepsFrom_flatMap_chars_iff (h : ∀ step ∈ steps, step.IsRead) :
    stepsFrom [] (steps.flatMap Step.chars) = .ok steps ↔ ∀ step ∈ steps, step.IsSealed := by
  induction steps with
  | nil => simp [stepsFrom, (by decide : wordSteps [] = [])]
  | cons step steps ih =>
      obtain ⟨hstep, hsteps⟩ := List.forall_mem_cons.1 h
      have hends := endsWord_flatMap_chars hsteps
      rw [List.flatMap_cons, List.forall_mem_cons, ← ih hsteps]
      constructor
      · intro hread
        have hsealed := isSealed_of_stepsFrom hread
        rw [stepsFrom_chars hstep hsealed hends] at hread
        cases hmore : stepsFrom [] (steps.flatMap Step.chars) with
        | error e =>
            rw [hmore] at hread
            cases hread
        | ok found =>
            rw [hmore] at hread
            exact ⟨hsealed, congrArg Except.ok (List.cons.inj (Except.ok.inj hread)).2⟩
      · rintro ⟨hsealed, hmore⟩
        rw [stepsFrom_chars hstep hsealed hends, hmore]
        rfl

/-! ## Paths -/

/-- The steps of a path are steps that are read, after the root or alone. -/
theorem exists_of_stepsOf (h : stepsOf cs = .ok steps) :
    ∃ more, (∀ step ∈ more, step.IsRead) ∧ (steps = .root :: more ∨ steps = more) := by
  have hnil : ∀ c ∈ ([] : List Char), c ≠ '.' ∧ c ≠ '[' ∧ c ≠ ']' := by simp
  unfold stepsOf at h
  split at h
  · next rest =>
      cases hmore : stepsFrom [] rest with
      | error e =>
          rw [hmore] at h
          cases h
      | ok more =>
          rw [hmore] at h
          cases h
          exact ⟨more, isRead_of_stepsFrom hnil hmore, .inl rfl⟩
  · exact ⟨steps, isRead_of_stepsFrom hnil h, .inr rfl⟩

theorem stepsOf_of_endsWord (h : EndsWord cs) : stepsOf cs = stepsFrom [] cs := by
  unfold stepsOf
  split
  · exact absurd (h '$' rfl) (by decide)
  · rfl

theorem stepsOf_flatMap_chars_iff (h : stepsOf cs = .ok steps) :
    stepsOf (steps.flatMap Step.chars) = .ok steps ↔ ∀ step ∈ steps, step.IsSealed := by
  obtain ⟨more, hread, rfl | rfl⟩ := exists_of_stepsOf h
  · have hroot : Step.root.IsSealed := trivial
    rw [List.forall_mem_cons, ← stepsFrom_flatMap_chars_iff hread]
    change (stepsFrom [] (more.flatMap Step.chars)).map (Step.root :: ·) = _ ↔ _
    cases stepsFrom [] (more.flatMap Step.chars) <;> simp [Except.map, hroot]
  · rw [stepsOf_of_endsWord (endsWord_flatMap_chars hread), stepsFrom_flatMap_chars_iff hread]

/-! No blank is at an end of what is written. -/

theorem last_chars (h : step.IsRead) : ∀ c ∈ step.chars.getLast?, isBlank c = false := by
  cases h with
  | @property name hname =>
      have hlast := getLast?_trimEnd (trimStart name.toList)
      rw [← trim, hname.trimmed] at hlast
      exact last_append (last_singleton (by decide : isBlank '.' = false)) hlast
  | bracketed hstep =>
      rw [hstep.chars_eq]
      simpa [List.getLast?_cons] using (by decide : isBlank ']' = false)

theorem last_flatMap_chars (h : ∀ step ∈ steps, step.IsRead) :
    ∀ c ∈ (steps.flatMap Step.chars).getLast?, isBlank c = false := by
  induction steps with
  | nil => simp
  | cons step steps ih =>
      obtain ⟨hstep, hsteps⟩ := List.forall_mem_cons.1 h
      exact last_append (last_chars hstep) (ih hsteps)

theorem trim_flatMap_chars (h : stepsOf cs = .ok steps) :
    trim (steps.flatMap Step.chars) = steps.flatMap Step.chars := by
  obtain ⟨more, hread, rfl | rfl⟩ := exists_of_stepsOf h
  · refine trim_eq_self ?_ (last_append (last_singleton (by decide)) (last_flatMap_chars hread))
    simpa [Step.chars] using (by decide : isBlank '$' = false)
  · refine trim_eq_self (fun c hc => ?_) (last_flatMap_chars hread)
    rcases endsWord_flatMap_chars hread c hc with rfl | rfl <;> decide

/-- The steps of a path are read back from their texts exactly if the quoted form of each key can
stand in brackets: its quotes are closed, and its closing brackets are inside of quotes. -/
theorem ofText_display_iff {text : String} {p : Path} (h : ofText text = .ok p) :
    (ofText (display p.steps)).map Path.steps = .ok p.steps ↔
      ∀ name : String, .key name ∈ p.steps → BracketBody ('\'' :: (name.toList ++ ['\''])) := by
  have hsteps : stepsOf (trim text.toList) = .ok p.steps := by
    simp only [ofText] at h
    split at h
    · next steps hsteps =>
        cases h
        exact hsteps
    · cases h
  have hdisplay : (ofText (display p.steps)).map Path.steps = .ok p.steps ↔
      stepsOf (p.steps.flatMap Step.chars) = .ok p.steps := by
    rw [ofText, display, String.toList_ofList, trim_flatMap_chars hsteps]
    cases stepsOf (p.steps.flatMap Step.chars) <;> simp [Except.map]
  rw [hdisplay, stepsOf_flatMap_chars_iff hsteps]
  constructor
  · exact fun hsealed name hname => hsealed _ hname
  · intro hkeys step hstep
    cases step with
    | key name => exact hkeys name hstep
    | _ => trivial

/-- A path with steps of all kinds, and with a bracket and a double quote in a key. -/
theorem ofText_display_of_keys :
    ofText "$.a['b]\"c'][007][ -2 : ].*.d e" =
      .ok ⟨"$.a['b]\"c'][007][ -2 : ].*.d e",
        [.root, .property "a", .key "b]\"c", .index 7, .slice (-2) none, .wildcard,
          .property "d e"]⟩ ∧
    (ofText (display [.root, .property "a", .key "b]\"c", .index 7, .slice (-2) none, .wildcard,
      .property "d e"])).map Path.steps =
      .ok [.root, .property "a", .key "b]\"c", .index 7, .slice (-2) none, .wildcard,
        .property "d e"] := by
  have hread : ofText "$.a['b]\"c'][007][ -2 : ].*.d e" =
      .ok ⟨"$.a['b]\"c'][007][ -2 : ].*.d e",
        [.root, .property "a", .key "b]\"c", .index 7, .slice (-2) none, .wildcard,
          .property "d e"]⟩ := by
    decide +kernel
  refine ⟨hread, (ofText_display_iff hread).2 fun name hname => ?_⟩
  obtain rfl : name = "b]\"c" := by simpa using hname
  exact .quotedName (by decide)

/-- A key with a single quote in it is written in a form that is no path. -/
theorem not_forall_ofText_display :
    ¬ ∀ (text : String) (p : Path), ofText text = .ok p →
      (ofText (display p.steps)).map Path.steps = .ok p.steps := by
  intro h
  have hread : ofText "$[\"it's\"]" = .ok ⟨"$[\"it's\"]", [.root, .key "it's"]⟩ := by
    decide +kernel
  have hback := h _ _ hread
  have hwritten : ofText (display [.root, .key "it's"]) =
      .error (.invalidPath "$['it's']" .unterminatedBracket) := by
    decide +kernel
  rw [hwritten] at hback
  cases hback

end Sluice.Path
