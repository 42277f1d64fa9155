/-!
# Quoted text

A text may stand between two equal quotes, single or double. Inside, a backslash shields
the quote after it; every other backslash is text.
-/
namespace Sluice.Text

/-- A single or a double quote. -/
def isQuote (c : Char) : Bool :=
  c == '\'' || c == '"'

/-- Drops one pair of equal quotes around the text, if there is one. -/
def stripQuotes : List Char → List Char
  | [] => []
  | c :: rest =>
      if isQuote c && rest.getLast? == some c then rest.dropLast else c :: rest

/-- Drops the backslash before each quote. -/
def unescapeQuotes : List Char → List Char
  | [] => []
  | '\\' :: '\'' :: rest => '\'' :: unescapeQuotes rest
  | '\\' :: '"' :: rest => '"' :: unescapeQuotes rest
  | c :: rest => c :: unescapeQuotes rest

/-- The text that a string literal stands for. -/
def unquote (literal : List Char) : List Char :=
  unescapeQuotes (stripQuotes literal)

theorem unescapeQuotes_cons {c : Char} (h : c ≠ '\\') (rest : List Char) :
    unescapeQuotes (c :: rest) = c :: unescapeQuotes rest := by
  rw [unescapeQuotes] <;> simp [h]

/-- In front of a quote a backslash is dropped. -/
theorem unescapeQuotes_slash_quote {c : Char} (h : isQuote c = true) (rest : List Char) :
    unescapeQuotes ('\\' :: c :: rest) = unescapeQuotes (c :: rest) := by
  obtain rfl | rfl : c = '\'' ∨ c = '"' := by simpa [isQuote] using h
  · exact (unescapeQuotes_cons (c := '\'') (by decide) rest).symm
  · exact (unescapeQuotes_cons (c := '"') (by decide) rest).symm

/-- Anywhere else it stays. -/
theorem unescapeQuotes_slash {rest : List Char} (h : ∀ c ∈ rest.head?, isQuote c = false) :
    unescapeQuotes ('\\' :: rest) = '\\' :: unescapeQuotes rest := by
  cases rest with
  | nil => rfl
  | cons c rest =>
      have hquote : ¬ (c = '\'' ∨ c = '"') := by simpa [isQuote] using h c rfl
      rw [unescapeQuotes] <;> simp_all

@[simp] theorem stripQuotes_nil : stripQuotes [] = [] := rfl

theorem stripQuotes_quoted (q : Char) (body : List Char) (h : isQuote q = true) :
    stripQuotes (q :: (body ++ [q])) = body := by
  simp [stripQuotes, h]

theorem stripQuotes_of_not_quote (c : Char) (rest : List Char) (h : isQuote c = false) :
    stripQuotes (c :: rest) = c :: rest := by
  simp [stripQuotes, h]

/-- What is stripped is one pair of quotes. -/
theorem eq_or_eq_of_stripQuotes (cs : List Char) :
    stripQuotes cs = cs ∨ ∃ q, isQuote q = true ∧ cs = q :: (stripQuotes cs ++ [q]) := by
  cases cs with
  | nil => exact .inl rfl
  | cons c rest =>
      by_cases h : isQuote c && rest.getLast? == some c
      · obtain ⟨hquote, hlast⟩ := Bool.and_eq_true_iff.1 h
        refine .inr ⟨c, hquote, ?_⟩
        obtain ⟨body, rfl⟩ := List.getLast?_eq_some_iff.1 (eq_of_beq hlast)
        rw [stripQuotes, if_pos h, List.dropLast_concat]
      · exact .inl (if_neg h)

end Sluice.Text
