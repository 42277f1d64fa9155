import Sluice.Proofs.JsonAtoms
import Sluice.Proofs.Lexemes
import Sluice.Proofs.Nearest
import Sluice.Proofs.Numbers

/-!
# Texts that are read as numbers

A text is read as a number if it is one of a grammar, without the blanks around it: `Infinity`, or
digits with at most one point and an exponent, with an optional sign in front. A reader of floats
that also knows the words `inf`, `infinity` and `nan` accepts the same texts once all that have a
letter other than `e` are turned away. What is read is never not-a-number, so that every operation
that reads numbers takes a text for a number or for none.
-/
namespace Sluice

namespace Text

variable {cs body digits rest : List Char}

/-- Nothing, a plus or a minus. -/
def IsSign (cs : List Char) : Prop :=
  cs = [] ∨ cs = ['+'] ∨ cs = ['-']

/-- At least one digit, and nothing else. -/
def IsDigits (cs : List Char) : Prop :=
  cs ≠ [] ∧ ∀ c ∈ cs, isAsciiDigit c

/-- Digits with at most one point, at least one of them. -/
structure IsMantissa (cs : List Char) : Prop where
  all : ∀ c ∈ cs, isAsciiDigit c ∨ c = '.'
  point : cs.count '.' ≤ 1
  digit : ∃ c ∈ cs, isAsciiDigit c

/-- Nothing, or an `e` and digits with an optional sign. -/
inductive IsExponent : List Char → Prop
  | none : IsExponent []
  | some {e : Char} {sign digits : List Char} (he : e = 'e' ∨ e = 'E') (hsign : IsSign sign)
      (hdigits : IsDigits digits) : IsExponent (e :: (sign ++ digits))

/-- The grammar of numeric text. -/
inductive IsNumeric : List Char → Prop
  | infinity {sign : List Char} (hsign : IsSign sign) : IsNumeric (sign ++ "Infinity".toList)
  | decimal {sign mantissa exponent : List Char} (hsign : IsSign sign)
      (hmantissa : IsMantissa mantissa) (hexponent : IsExponent exponent) :
      IsNumeric (sign ++ (mantissa ++ exponent))

/-! ## Signs -/

/-- No sign is in front. -/
def Unsigned (cs : List Char) : Prop :=
  ∀ c ∈ cs.head?, c ≠ '+' ∧ c ≠ '-'

theorem exists_sign (cs : List Char) : ∃ sign, IsSign sign ∧ cs = sign ++ (signed cs).2 := by
  unfold signed
  split
  · exact ⟨['-'], .inr (.inr rfl), rfl⟩
  · exact ⟨['+'], .inr (.inl rfl), rfl⟩
  · exact ⟨[], .inl rfl, rfl⟩

theorem signed_append {sign : List Char} (hsign : IsSign sign) (hbody : Unsigned body) :
    (signed (sign ++ body)).2 = body := by
  rcases hsign with rfl | rfl | rfl
  · rw [List.nil_append]
    unfold signed
    split
    · exact absurd rfl (hbody '-' rfl).2
    · exact absurd rfl (hbody '+' rfl).1
    · rfl
  · rfl
  · rfl

/-- What holds of texts without a sign holds after the sign of a text exactly if it holds of what
comes after some sign. -/
theorem signed_iff {P : List Char → Prop} (hP : ∀ body, P body → Unsigned body) :
    P (signed cs).2 ↔ ∃ sign body, IsSign sign ∧ P body ∧ cs = sign ++ body := by
  constructor
  · intro h
    obtain ⟨sign, hsign, hcs⟩ := exists_sign cs
    exact ⟨sign, _, hsign, h, hcs⟩
  · rintro ⟨sign, body, hsign, hbody, rfl⟩
    rwa [signed_append hsign (hP body hbody)]

theorem ne_sign_of_isAsciiDigit {c : Char} (h : isAsciiDigit c) : c ≠ '+' ∧ c ≠ '-' :=
  ⟨ne_of_class isAsciiDigit h (by decide), ne_of_class isAsciiDigit h (by decide)⟩

theorem IsDigits.unsigned (h : IsDigits cs) : Unsigned cs :=
  fun _ hc => ne_sign_of_isAsciiDigit (h.2 _ (List.mem_of_mem_head? hc))

theorem isDigits_iff : IsDigits cs ↔ (cs.isEmpty || !cs.all isAsciiDigit) = false := by
  simp [IsDigits]

theorem isSome_readInt :
    (readInt cs).isSome ↔ ∃ sign digits, IsSign sign ∧ IsDigits digits ∧ cs = sign ++ digits := by
  rw [← signed_iff fun _ => IsDigits.unsigned, isDigits_iff]
  unfold readInt
  dsimp only
  split_ifs with h <;> simp [h]

/-- An exponent does not go on with digits or with a point. -/
theorem IsExponent.head? (h : IsExponent cs) :
    ∀ c ∈ cs.head?, isAsciiDigit c = false ∧ c ≠ '.' := by
  cases h with
  | none => simp
  | some he hsign hdigits => rcases he with rfl | rfl <;> simp <;> decide

end Text

namespace Decimal

open Text Json

variable {cs mantissa exponent : List Char}

theorem isSome_readExponent : (readExponent cs).isSome ↔ IsExponent cs := by
  cases cs with
  | nil => exact ⟨fun _ => .none, fun _ => rfl⟩
  | cons c rest =>
      rw [readExponent]
      split_ifs with hc
      · rw [isSome_readInt]
        constructor
        · rintro ⟨sign, digits, hsign, hdigits, rfl⟩
          exact .some hc hsign hdigits
        · rintro ⟨⟩
          exact ⟨_, _, ‹_›, ‹_›, rfl⟩
      · rw [Option.isSome_none, Bool.false_eq_true, false_iff]
        rintro ⟨⟩
        exact hc ‹_›

/-- Digits, or digits on at least one side of a point. -/
theorem isMantissa_iff : IsMantissa cs ↔ IsDigits cs ∨ ∃ whole fraction,
    cs = whole ++ '.' :: fraction ∧ (∀ c ∈ whole, isAsciiDigit c) ∧
    (∀ c ∈ fraction, isAsciiDigit c) ∧ (whole ≠ [] ∨ fraction ≠ []) := by
  have hpoint {c : Char} (h : isAsciiDigit c) : c ≠ '.' := ne_of_class isAsciiDigit h (by decide)
  constructor
  · rintro ⟨hall, hcount, c, hc, hdigit⟩
    by_cases hmem : '.' ∈ cs
    · right
      obtain ⟨whole, fraction, rfl⟩ := List.append_of_mem hmem
      rw [List.count_append, List.count_cons_self] at hcount
      have hwhole : '.' ∉ whole := List.count_eq_zero.1 (by omega)
      have hfraction : '.' ∉ fraction := List.count_eq_zero.1 (by omega)
      refine ⟨whole, fraction, rfl, fun d hd => ?_, fun d hd => ?_, ?_⟩
      · exact (hall d (by simp [hd])).resolve_right fun h => hwhole (h ▸ hd)
      · exact (hall d (by simp [hd])).resolve_right fun h => hfraction (h ▸ hd)
      · rw [List.mem_append, List.mem_cons, or_iff_right (hpoint hdigit)] at hc
        exact hc.imp List.ne_nil_of_mem List.ne_nil_of_mem
    · left
      refine ⟨List.ne_nil_of_mem hc, fun d hd => (hall d hd).resolve_right ?_⟩
      exact fun h => hmem (h ▸ hd)
  · rintro (⟨hne, hall⟩ | ⟨whole, fraction, rfl, hwhole, hfraction, hne⟩)
    · have hcount : cs.count '.' = 0 :=
        List.count_eq_zero.2 fun h => hpoint (hall '.' h) rfl
      obtain ⟨c, hc⟩ := List.exists_mem_of_ne_nil cs hne
      exact ⟨fun d hd => .inl (hall d hd), by omega, c, hc, hall c hc⟩
    · have hcount (ds : List Char) (h : ∀ c ∈ ds, isAsciiDigit c) : ds.count '.' = 0 :=
        List.count_eq_zero.2 fun hmem => hpoint (h '.' hmem) rfl
      refine ⟨fun d hd => ?_, ?_, ?_⟩
      · rw [List.mem_append, List.mem_cons] at hd
        rcases hd with hd | rfl | hd
        · exact .inl (hwhole d hd)
        · exact .inr rfl
        · exact .inl (hfraction d hd)
      · rw [List.count_append, List.count_cons_self, hcount whole hwhole, hcount fraction hfraction]
      · rcases hne with hne | hne
        · obtain ⟨c, hc⟩ := List.exists_mem_of_ne_nil whole hne
          exact ⟨c, by simp [hc], hwhole c hc⟩
        · obtain ⟨c, hc⟩ := List.exists_mem_of_ne_nil fraction hne
          exact ⟨c, by simp [hc], hfraction c hc⟩

section Numeral

variable {whole fraction rest : List Char} (hwhole : ∀ c ∈ whole, isAsciiDigit c)
include hwhole

theorem split_digits (hrest : ∀ c ∈ rest.head?, isAsciiDigit c = false) :
    (whole ++ rest).takeWhile isAsciiDigit = whole ∧
      (whole ++ rest).dropWhile isAsciiDigit = rest := by
  obtain ⟨htake, hdrop⟩ := takeWhile_append_tail (p := isAsciiDigit) hrest
  rw [htake, hdrop, List.takeWhile_eq_self_iff.2 hwhole, List.dropWhile_eq_nil_iff.2 hwhole]
  exact ⟨rfl, rfl⟩

theorem readNumeral_point (hfraction : ∀ c ∈ fraction, isAsciiDigit c)
    (hrest : ∀ c ∈ rest.head?, isAsciiDigit c = false) :
    readNumeral (whole ++ '.' :: (fraction ++ rest)) =
      if whole = [] ∧ fraction = [] then none
      else (readExponent rest).map fun e => ⟨whole, fraction, e⟩ := by
  have hpoint : ∀ c ∈ ('.' :: (fraction ++ rest)).head?, isAsciiDigit c = false := by
    rintro _ ⟨⟩
    decide
  simp only [readNumeral, split_digits hwhole hpoint, split_digits hfraction hrest,
    Bool.and_eq_true, List.isEmpty_iff]

theorem readNumeral_whole (hrest : ∀ c ∈ rest.head?, isAsciiDigit c = false ∧ c ≠ '.') :
    readNumeral (whole ++ rest) =
      if whole = [] then none else (readExponent rest).map fun e => ⟨whole, [], e⟩ := by
  simp only [readNumeral, split_digits hwhole fun c hc => (hrest c hc).1]
  split
  · exact absurd rfl (hrest '.' rfl).2
  · simp

end Numeral

theorem isSome_readNumeral : (readNumeral cs).isSome ↔
    ∃ mantissa exponent, IsMantissa mantissa ∧ IsExponent exponent ∧ cs = mantissa ++ exponent := by
  constructor
  · intro h
    obtain ⟨whole, tail, rfl, hwhole, htail⟩ := Token.exists_run isAsciiDigit cs
    by_cases hpoint : tail.head? = some '.'
    · obtain ⟨tail, rfl⟩ := List.head?_eq_some_iff.1 hpoint
      obtain ⟨fraction, rest, rfl, hfraction, hrest⟩ := Token.exists_run isAsciiDigit tail
      rw [readNumeral_point hwhole hfraction hrest] at h
      split_ifs at h with hempty
      · cases h
      · rw [Option.isSome_map, isSome_readExponent] at h
        refine ⟨whole ++ '.' :: fraction, rest, isMantissa_iff.2 (.inr ?_), h, by simp⟩
        exact ⟨whole, fraction, rfl, hwhole, hfraction, not_and_or.1 hempty⟩
    · rw [readNumeral_whole hwhole fun c hc => ⟨htail c hc, fun he => hpoint (he ▸ hc)⟩] at h
      split_ifs at h with hempty
      · cases h
      · rw [Option.isSome_map, isSome_readExponent] at h
        exact ⟨whole, tail, isMantissa_iff.2 (.inl ⟨hempty, hwhole⟩), h, rfl⟩
  · rintro ⟨mantissa, exponent, hmantissa, hexponent, rfl⟩
    have hread := isSome_readExponent.2 hexponent
    obtain ⟨hne, hall⟩ | ⟨whole, fraction, rfl, hwhole, hfraction, hne⟩ :=
      isMantissa_iff.1 hmantissa
    · rw [readNumeral_whole hall hexponent.head?, if_neg hne, Option.isSome_map, hread]
    · rw [List.append_assoc, List.cons_append,
        readNumeral_point hwhole hfraction fun c hc => (hexponent.head? c hc).1,
        if_neg (not_and_or.2 hne), Option.isSome_map, hread]

/-- An unsigned numeral. -/
theorem unsigned_numeral (hmantissa : IsMantissa mantissa) (exponent : List Char) :
    Unsigned (mantissa ++ exponent) := by
  obtain ⟨c, hc, -⟩ := hmantissa.digit
  obtain ⟨d, rest, rfl⟩ := List.exists_cons_of_ne_nil (List.ne_nil_of_mem hc)
  rintro _ ⟨⟩
  rcases hmantissa.all d List.mem_cons_self with hd | rfl
  · exact ne_sign_of_isAsciiDigit hd
  · decide

theorem isSome_readFloat : (readFloat cs).isSome ↔ ∃ sign mantissa exponent, IsSign sign ∧
    IsMantissa mantissa ∧ IsExponent exponent ∧ cs = sign ++ (mantissa ++ exponent) := by
  have hbody : (readFloat cs).isSome = (readNumeral (signed cs).2).isSome := Option.isSome_map
  rw [hbody, signed_iff (P := fun body => (readNumeral body).isSome) ?_]
  · constructor
    · rintro ⟨sign, body, hsign, hread, rfl⟩
      obtain ⟨mantissa, exponent, hmantissa, hexponent, rfl⟩ := isSome_readNumeral.1 hread
      exact ⟨sign, mantissa, exponent, hsign, hmantissa, hexponent, rfl⟩
    · rintro ⟨sign, mantissa, exponent, hsign, hmantissa, hexponent, rfl⟩
      exact ⟨sign, _, hsign, isSome_readNumeral.2 ⟨_, _, hmantissa, hexponent, rfl⟩, rfl⟩
  · intro body hread
    obtain ⟨mantissa, exponent, hmantissa, -, rfl⟩ := isSome_readNumeral.1 hread
    exact unsigned_numeral hmantissa exponent

end Decimal

namespace Number

open Text Decimal

variable {cs : List Char} {s : String} {x : Number}

theorem read?_eq (s : String) : read? s =
    if trim s.toList = "Infinity".toList ∨ trim s.toList = "+Infinity".toList then some (1 / 0)
    else if trim s.toList = "-Infinity".toList then some (-1 / 0)
    else (readFloat (trim s.toList)).map ofFloat := by
  simp only [read?, Bool.or_eq_true, beq_iff_eq]

/-- What is read is a number. -/
theorem isNaN_of_read? (h : read? s = some x) : x.isNaN = false := by
  rw [read?_eq] at h
  split_ifs at h
  · cases h
    decide
  · cases h
    decide
  · obtain ⟨x, hx, rfl⟩ := Option.map_eq_some_iff.1 h
    rw [isNaN_ofFloat]
    exact isNaN_of_readFloat hx

/-- A text is read exactly if it is numeric, without the blanks around it. -/
theorem isSome_read? (s : String) : (read? s).isSome ↔ IsNumeric (trim s.toList) := by
  rw [read?_eq]
  constructor
  · intro h
    split_ifs at h with hplus hminus
    · rcases hplus with hcs | hcs <;> rw [hcs]
      · exact .infinity (.inl rfl)
      · exact .infinity (.inr (.inl rfl))
    · rw [hminus]
      exact .infinity (.inr (.inr rfl))
    · rw [Option.isSome_map] at h
      obtain ⟨sign, mantissa, exponent, hsign, hmantissa, hexponent, hcs⟩ := isSome_readFloat.1 h
      rw [hcs]
      exact .decimal hsign hmantissa hexponent
  · generalize trim s.toList = cs
    rintro (⟨rfl | rfl | rfl⟩ | ⟨hsign, hmantissa, hexponent⟩)
    · rfl
    · rfl
    · rfl
    · split_ifs
      · rfl
      · rfl
      · rw [Option.isSome_map]
        exact isSome_readFloat.2 ⟨_, _, _, hsign, hmantissa, hexponent, rfl⟩

/-! ## Words that are turned away -/

/-- A letter that is in no numeral. -/
def IsForeign (c : Char) : Prop :=
  isAlphabetic c ∧ c ≠ 'e' ∧ c ≠ 'E'

instance : DecidablePred IsForeign :=
  fun _ => inferInstanceAs (Decidable (_ ∧ _))

/-- Reads a numeral with an optional sign, or one of three words for what is not finite, whatever
its case. -/
def readLenient (cs : List Char) : Option Float :=
  let word := asciiLower (signed cs).2
  if word = "inf".toList ∨ word = "infinity".toList then
    some (if (signed cs).1 then -1 / 0 else 1 / 0)
  else if word = "nan".toList then some (0 / 0)
  else readFloat cs

/-- Reads a text leniently if it has no foreign letter. -/
def readGuarded? (s : String) : Option Number :=
  let cs := trim s.toList
  if cs = [] then none
  else if cs = "Infinity".toList ∨ cs = "+Infinity".toList then some (1 / 0)
  else if cs = "-Infinity".toList then some (-1 / 0)
  else if ∃ c ∈ cs, IsForeign c then none
  else (readLenient cs).map ofFloat

theorem not_isForeign_of_isAsciiDigit {c : Char} (h : isAsciiDigit c) : ¬ IsForeign c := by
  have hall : ∀ n < 10, isAlphabetic (Char.ofNat ('0'.toNat + n)) = false := by decide
  have hbounds : '0' ≤ c ∧ c ≤ '9' := by simpa [isAsciiDigit] using h
  have hlower : '0'.toNat ≤ c.toNat := hbounds.1
  obtain ⟨hlt, -⟩ := natDigits_of_isAsciiDigit h
  have hc := hall _ hlt
  rw [Nat.add_sub_cancel' hlower, Char.ofNat_toNat] at hc
  exact fun hforeign => absurd hforeign.1 (by simp [hc])

theorem not_isForeign_of_isSign {sign : List Char} (h : IsSign sign) :
    ∀ c ∈ sign, ¬ IsForeign c := by
  have hplus : ¬ IsForeign '+' := by decide
  have hminus : ¬ IsForeign '-' := by decide
  rcases h with rfl | rfl | rfl
  · simp
  · simpa using hplus
  · simpa using hminus

/-- Nothing that is read has a foreign letter in it. -/
theorem not_isForeign_of_readFloat (h : (readFloat cs).isSome) : ∀ c ∈ cs, ¬ IsForeign c := by
  obtain ⟨sign, mantissa, exponent, hsign, hmantissa, hexponent, rfl⟩ := isSome_readFloat.1 h
  have hpoint : ¬ IsForeign '.' := by decide
  intro c hc
  rw [List.mem_append, List.mem_append] at hc
  rcases hc with hc | hc | hc
  · exact not_isForeign_of_isSign hsign c hc
  · rcases hmantissa.all c hc with hdigit | rfl
    · exact not_isForeign_of_isAsciiDigit hdigit
    · exact hpoint
  · cases hexponent with
    | none => cases hc
    | some he hsign hdigits =>
        rw [List.mem_cons, List.mem_append] at hc
        rcases hc with rfl | hc | hc
        · rcases he with rfl | rfl <;> decide
        · exact not_isForeign_of_isSign hsign c hc
        · exact not_isForeign_of_isAsciiDigit (hdigits.2 c hc)

theorem eq_of_lower {c : Char}
    (h : (if 'A' ≤ c && c ≤ 'Z' then Char.ofNat (c.toNat + 32) else c) = 'n') :
    c = 'n' ∨ c = 'N' := by
  split_ifs at h with hcapital
  · right
    have hupper : c.toNat ≤ 'Z'.toNat := by
      simp only [Bool.and_eq_true, decide_eq_true_eq] at hcapital
      exact hcapital.2
    have hvalid : (c.toNat + 32).isValidChar :=
      .inl (Nat.lt_of_le_of_lt (Nat.add_le_add_right hupper 32) (by decide))
    have hnat := congrArg Char.toNat h
    rw [Char.toNat_ofNat, if_pos hvalid] at hnat
    exact Char.toNat_inj.1 (Nat.add_right_cancel (hnat.trans (by decide : _ = 'N'.toNat + 32)))
  · exact .inl h

theorem isForeign_of_asciiLower {cs word : List Char} (h : asciiLower cs = word) (hn : 'n' ∈ word) :
    ∃ c ∈ cs, IsForeign c := by
  rw [← h, asciiLower, List.mem_map] at hn
  obtain ⟨c, hc, hlower⟩ := hn
  refine ⟨c, hc, ?_⟩
  rcases eq_of_lower hlower with rfl | rfl <;> decide

/-- The words have a foreign letter in them, so that the reader does not come to know them. -/
theorem readLenient_eq (h : ∀ c ∈ cs, ¬ IsForeign c) : readLenient cs = readFloat cs := by
  have hword {word : List Char} (hn : 'n' ∈ word) : asciiLower (signed cs).2 ≠ word := by
    intro heq
    obtain ⟨c, hc, hforeign⟩ := isForeign_of_asciiLower heq hn
    obtain ⟨sign, -, hcs⟩ := exists_sign cs
    exact h c (hcs ▸ List.mem_append_right sign hc) hforeign
  simp only [readLenient]
  rw [if_neg (not_or.2 ⟨hword (by decide), hword (by decide)⟩), if_neg (hword (by decide))]

theorem read?_eq_readGuarded? (s : String) : read? s = readGuarded? s := by
  rw [read?_eq, readGuarded?]
  generalize trim s.toList = cs
  by_cases hempty : cs = []
  · subst hempty
    rw [if_neg (by decide), if_neg (by decide), if_pos rfl]
    rfl
  · rw [if_neg hempty]
    by_cases hforeign : ∃ c ∈ cs, IsForeign c
    · have hnone : readFloat cs = none := by
        rw [← Option.not_isSome_iff_eq_none]
        obtain ⟨c, hc, hletter⟩ := hforeign
        exact fun h => not_isForeign_of_readFloat h c hc hletter
      rw [if_pos hforeign, hnone, Option.map_none]
    · rw [if_neg hforeign, readLenient_eq fun c hc h => hforeign ⟨c, hc, h⟩]

end Number

end Sluice
