import AuditGovernance.Domain.Numbers

/-! # Canonical number literals

    What `writeNumber` (`internal/domain/canonical.go`) accepts and what it
    writes, said without its code: the grammar of JSON numbers, the rational a
    literal stands for, and size limits on the literal and on its shortest
    decimal form. `writeNumber_contract` is the whole contract.
-/

namespace AuditGovernance

namespace Json

/-! ## Section 1: The grammar -/

/-- The exponent part of a JSON number: an optional sign and digits. -/
def ExponentText (exponent : List Char) : Prop :=
  ∃ sign digits, exponent = sign ++ digits ∧ (sign = [] ∨ sign = ['+'] ∨ sign = ['-']) ∧
    digits ≠ [] ∧ ∀ c ∈ digits, c.isDigit = true

/-- The parts of a JSON number. -/
structure NumberParts.WellFormed (parts : NumberParts) : Prop where
  integer : IntegerDigits parts.integer
  fraction : ∀ c ∈ parts.fraction, c.isDigit = true
  exponent : parts.exponent = [] ∨ ExponentText parts.exponent

/-- The parts put together, with the letter in front of an exponent. -/
def NumberParts.text (parts : NumberParts) (letter : Char) : List Char :=
  (if parts.negative then ['-'] else []) ++
    (parts.integer ++ ((if parts.fraction = [] then [] else '.' :: parts.fraction) ++
      (if parts.exponent = [] then [] else letter :: parts.exponent)))

/-- A literal with these parts. -/
def NumberParts.Spells (parts : NumberParts) (text : List Char) : Prop :=
  parts.WellFormed ∧ ∃ letter, (letter = 'e' ∨ letter = 'E') ∧ text = parts.text letter

theorem readSign_sign {sign digits : List Char} (hs : sign = [] ∨ sign = ['+'] ∨ sign = ['-'])
    (hd : ∀ c ∈ digits, c.isDigit = true) : readSign (sign ++ digits) = (sign, digits) := by
  rcases hs with rfl | rfl | rfl
  · cases digits with
    | nil => rfl
    | cons c rest =>
      have hc := hd c List.mem_cons_self
      have hsign : ¬ (c = '+' ∨ c = '-') := by
        rintro (rfl | rfl)
        · exact absurd hc (by decide)
        · exact absurd hc (by decide)
      rw [List.nil_append, readSign, if_neg hsign]
  · rfl
  · rfl

theorem readExponent_text_of {exponent : List Char} (h : ExponentText exponent) {letter : Char}
    (hl : letter = 'e' ∨ letter = 'E') : readExponent (letter :: exponent) = some (exponent, []) := by
  obtain ⟨sign, digits, rfl, hsign, hne, hd⟩ := h
  have hspan := span_digits [] hd (by simp)
  rw [List.append_nil] at hspan
  rw [readExponent, if_pos hl, readSign_sign hsign hd]
  simp only [hspan, hne, if_false]

theorem tail_not_digit {fraction exponent : List Char} {letter : Char}
    (hl : letter = 'e' ∨ letter = 'E') :
    (∀ c more, (if fraction = [] then [] else '.' :: fraction) ++
        (if exponent = [] then [] else letter :: exponent) = c :: more → c.isDigit = false) ∧
      ∀ c more, (if exponent = [] then [] else letter :: exponent) = c :: more →
        c.isDigit = false := by
  have hletter : letter.isDigit = false := by
    rcases hl with rfl | rfl <;> rfl
  constructor
  · intro c more heq
    by_cases hf : fraction = []
    · by_cases he : exponent = []
      · simp [hf, he] at heq
      · simp only [hf, he, if_true, if_false, List.nil_append, List.cons.injEq] at heq
        rw [← heq.1]
        exact hletter
    · simp only [hf, if_false, List.cons_append, List.cons.injEq] at heq
      rw [← heq.1]
      rfl
  · intro c more heq
    by_cases he : exponent = []
    · simp [he] at heq
    · simp only [he, if_false, List.cons.injEq] at heq
      rw [← heq.1]
      exact hletter

theorem readFraction_text {fraction exponent : List Char} {letter : Char}
    (hf : ∀ c ∈ fraction, c.isDigit = true) (hl : letter = 'e' ∨ letter = 'E') :
    readFraction ((if fraction = [] then [] else '.' :: fraction) ++
      (if exponent = [] then [] else letter :: exponent)) =
      some (fraction, if exponent = [] then [] else letter :: exponent) := by
  obtain ⟨-, htail⟩ := @tail_not_digit fraction exponent letter hl
  by_cases hnil : fraction = []
  · subst hnil
    rw [if_pos rfl, List.nil_append]
    by_cases he : exponent = []
    · rw [if_pos he]
      rfl
    · have hpoint : letter ≠ '.' := by
        rcases hl with rfl | rfl <;> decide
      rw [if_neg he, readFraction, if_neg hpoint]
  · rw [if_neg hnil, List.cons_append, readFraction, if_pos rfl, span_digits _ hf htail,
      if_neg hnil]

theorem parseJSONNumber_text {parts : NumberParts} {text : List Char} (h : parts.Spells text) :
    parseJSONNumber text = some parts := by
  obtain ⟨⟨hi, hf, he⟩, letter, hl, rfl⟩ := h
  obtain ⟨negative, integer, fraction, exponent⟩ := parts
  obtain ⟨htail, -⟩ := @tail_not_digit fraction exponent letter hl
  have hunsigned : parseUnsigned negative (integer ++
      ((if fraction = [] then [] else '.' :: fraction) ++
        (if exponent = [] then [] else letter :: exponent))) =
      some ⟨negative, integer, fraction, exponent⟩ := by
    rw [parseUnsigned, readInteger_digits _ hi htail]
    simp only [readFraction_text hf hl]
    by_cases hnil : exponent = []
    · subst hnil
      rfl
    · rw [if_neg hnil, readExponent_text_of (he.resolve_left hnil) hl]
      rfl
  rw [NumberParts.text]
  cases negative with
  | true => exact hunsigned
  | false =>
    obtain ⟨c, rest, rfl, hc⟩ := hi.head
    rw [if_neg Bool.false_ne_true, List.nil_append, List.cons_append, parseJSONNumber, if_neg hc]
    exact hunsigned

theorem readInteger_spec {text integer rest : List Char}
    (h : readInteger text = some (integer, rest)) :
    IntegerDigits integer ∧ text = integer ++ rest := by
  cases text with
  | nil => cases h
  | cons c more =>
    rw [readInteger] at h
    split_ifs at h with hzero hdigit
    · cases h
      exact ⟨.inl (by rw [hzero]), rfl⟩
    · rw [List.span_eq_takeWhile_dropWhile] at h
      cases h
      refine ⟨.inr ⟨fun d hd => List.mem_takeWhile_imp hd, c, more.takeWhile Char.isDigit, ?_, hzero⟩,
        (List.takeWhile_append_dropWhile).symm⟩
      exact List.takeWhile_cons_of_pos hdigit

theorem readFraction_spec {text fraction rest : List Char}
    (h : readFraction text = some (fraction, rest)) :
    (∀ c ∈ fraction, c.isDigit = true) ∧
      text = (if fraction = [] then [] else '.' :: fraction) ++ rest := by
  cases text with
  | nil =>
    cases h
    exact ⟨by simp, rfl⟩
  | cons c more =>
    rw [readFraction] at h
    split_ifs at h with hpoint hempty
    · rw [List.span_eq_takeWhile_dropWhile] at h hempty
      cases h
      refine ⟨fun d hd => List.mem_takeWhile_imp hd, ?_⟩
      rw [if_neg hempty, hpoint, List.cons_append, List.takeWhile_append_dropWhile]
    · cases h
      exact ⟨by simp, rfl⟩

theorem readSign_spec (text : List Char) :
    text = (readSign text).1 ++ (readSign text).2 ∧
      ((readSign text).1 = [] ∨ (readSign text).1 = ['+'] ∨ (readSign text).1 = ['-']) := by
  cases text with
  | nil => exact ⟨rfl, .inl rfl⟩
  | cons c rest =>
    rw [readSign]
    split_ifs with hsign
    · refine ⟨rfl, .inr ?_⟩
      rcases hsign with rfl | rfl
      · exact .inl rfl
      · exact .inr rfl
    · exact ⟨rfl, .inl rfl⟩

theorem readExponent_spec {text exponent : List Char}
    (h : readExponent text = some (exponent, [])) :
    (exponent = [] ∨ ExponentText exponent) ∧
      ∃ letter, (letter = 'e' ∨ letter = 'E') ∧
        text = if exponent = [] then [] else letter :: exponent := by
  cases text with
  | nil =>
    cases h
    exact ⟨.inl rfl, 'e', .inl rfl, rfl⟩
  | cons c more =>
    rw [readExponent] at h
    split_ifs at h with hletter
    · dsimp only at h
      obtain ⟨hsplit, hsign⟩ := readSign_spec more
      split_ifs at h with hempty
      rw [List.span_eq_takeWhile_dropWhile] at h hempty
      simp only [Option.some.injEq, Prod.mk.injEq] at h
      obtain ⟨rfl, hrest⟩ := h
      have hdigits : (readSign more).2.takeWhile Char.isDigit = (readSign more).2 := by
        have hjoin := List.takeWhile_append_dropWhile (p := Char.isDigit) (l := (readSign more).2)
        rwa [hrest, List.append_nil] at hjoin
      rw [hdigits] at hempty ⊢
      refine ⟨.inr ⟨_, _, rfl, hsign, hempty, ?_⟩, c, hletter, ?_⟩
      · intro d hd
        rw [← hdigits] at hd
        exact List.mem_takeWhile_imp hd
      · have hne : (readSign more).1 ++ (readSign more).2 ≠ [] := by
          intro hnil
          exact hempty (List.append_eq_nil_iff.1 hnil).2
        rw [if_neg hne, ← hsplit]
    · simp only [Option.some.injEq, Prod.mk.injEq] at h
      exact absurd h.2 (List.cons_ne_nil _ _)

theorem parseUnsigned_spec {negative : Bool} {text : List Char} {parts : NumberParts}
    (h : parseUnsigned negative text = some parts) :
    parts.negative = negative ∧ parts.WellFormed ∧ ∃ letter, (letter = 'e' ∨ letter = 'E') ∧
      text = parts.integer ++ ((if parts.fraction = [] then [] else '.' :: parts.fraction) ++
        (if parts.exponent = [] then [] else letter :: parts.exponent)) := by
  unfold parseUnsigned at h
  split at h
  · cases h
  next integer rest hinteger =>
  split at h
  · cases h
  next fraction rest' hfraction =>
  split at h
  · cases h
  next exponent rest'' hexponent =>
  split_ifs at h with hrest
  subst hrest
  cases h
  obtain ⟨hi, rfl⟩ := readInteger_spec hinteger
  obtain ⟨hf, rfl⟩ := readFraction_spec hfraction
  obtain ⟨he, letter, hl, rfl⟩ := readExponent_spec hexponent
  exact ⟨rfl, ⟨hi, hf, he⟩, letter, hl, rfl⟩

/-- **The reader and the grammar agree.** -/
theorem parseJSONNumber_iff {text : List Char} {parts : NumberParts} :
    parseJSONNumber text = some parts ↔ parts.Spells text := by
  refine ⟨?_, parseJSONNumber_text⟩
  intro h
  cases text with
  | nil => cases h
  | cons c rest =>
    rw [parseJSONNumber] at h
    split_ifs at h with hsign
    · obtain ⟨hneg, hwf, letter, hl, hrest⟩ := parseUnsigned_spec h
      refine ⟨hwf, letter, hl, ?_⟩
      rw [NumberParts.text, hneg, if_pos rfl, ← hrest, hsign]
      rfl
    · obtain ⟨hneg, hwf, letter, hl, hrest⟩ := parseUnsigned_spec h
      refine ⟨hwf, letter, hl, ?_⟩
      rw [NumberParts.text, hneg, if_neg Bool.false_ne_true, ← hrest]
      rfl

/-! ## Section 2: Sizes -/

/-- How many digits a number has. -/
def decimalLength (m : Nat) : Nat := (Nat.toDigits 10 m).length

/-- The shortest decimal form of a number has at most `2 ^ 20` digits if it is
    an integer; otherwise its significant digits and those behind the point are
    at most `2 ^ 20 + 1` together. -/
def FitsCanonical (q : ℚ) : Prop :=
  q = 0 ∨ ∃ (m : Nat) (k : Int), m % 10 ≠ 0 ∧ |q| = m * 10 ^ (-k) ∧
    if k ≤ 0 then decimalLength m - k ≤ 2 ^ 20 else decimalLength m + k ≤ 2 ^ 20 + 1

/-- What `writeNumber` accepts. -/
def Writable (literal : String) : Prop :=
  ∃ parts : NumberParts, parts.Spells literal.toList ∧
    |exponentValue parts.exponent| ≤ 4096 ∧
    parts.integer.length + parts.fraction.length ≤ 2 ^ 20 + 1 ∧ FitsCanonical parts.value

/-- A literal without an exponent and without zeros that could be left out, and
    not a negative zero. -/
def CanonicalText (text : String) : Prop :=
  ∃ parts : NumberParts, parts.Spells text.toList ∧ parts.exponent = [] ∧
    (∀ rest, parts.fraction ≠ rest ++ ['0']) ∧
    ¬ (parts.negative = true ∧ parts.integer = ['0'] ∧ parts.fraction = [])

theorem parseDecimalExponent_ok {exponent : List Char} {x : Int} :
    parseDecimalExponent exponent = .ok x ↔
      x = exponentValue exponent ∧ |exponentValue exponent| ≤ 4096 := by
  unfold parseDecimalExponent exponentValue
  dsimp only
  rw [maxCanonicalExponent]
  split_ifs with hbig hsign hsign
  · simp only [false_iff, not_and, abs_neg]
    intro _ habs
    rw [abs_of_nonneg (Int.natCast_nonneg _)] at habs
    omega
  · simp only [false_iff, not_and]
    intro _ habs
    rw [abs_of_nonneg (Int.natCast_nonneg _)] at habs
    omega
  · rw [abs_neg, abs_of_nonneg (Int.natCast_nonneg _), Except.ok.injEq]
    constructor
    · rintro rfl
      exact ⟨rfl, by omega⟩
    · rintro ⟨rfl, -⟩
      rfl
  · rw [abs_of_nonneg (Int.natCast_nonneg _), Except.ok.injEq]
    constructor
    · rintro rfl
      exact ⟨rfl, by omega⟩
    · rintro ⟨rfl, -⟩
      rfl

theorem significant_of_mod {m : Nat} (h : m % 10 ≠ 0) : Decimal.Significant (Nat.toDigits 10 m) where
  digit := toDigits_digit m
  head := toDigits_head (by omega)
  last := by
    have hlast : Nat.digitChar (m % 10) ≠ '0' := by
      have hlt : m % 10 < 10 := Nat.mod_lt _ (by decide)
      generalize m % 10 = d at h hlt
      interval_cases d <;> simp_all
    by_cases hsmall : m < 10
    · refine ⟨[], Nat.digitChar m, Nat.toDigits_of_lt_base hsmall, ?_⟩
      rwa [Nat.mod_eq_of_lt hsmall] at hlast
    · exact ⟨Nat.toDigits 10 (m / 10), Nat.digitChar (m % 10),
        Nat.toDigits_of_base_le (by decide) (by omega), hlast⟩

theorem exceedsMagnitude_iff {digits : List Char} (h : Decimal.Significant digits) (scale : Int) :
    exceedsMagnitude digits scale = false ↔
      if scale ≤ 0 then decimalLength (Decimal.value digits) - scale ≤ 2 ^ 20
      else decimalLength (Decimal.value digits) + scale ≤ 2 ^ 20 + 1 := by
  have hpos := List.length_pos_iff.2 h.ne_nil
  have hlength : decimalLength (Decimal.value digits) = digits.length := by
    rw [decimalLength, Decimal.toDigits_value h.digit h.head]
  rw [hlength, exceedsMagnitude, maxCanonicalNumberDigits]
  split_ifs with hscale
  · rw [decide_eq_false_iff_not]
    push_cast
    omega
  · rw [decide_eq_false_iff_not]
    push_cast
    omega

theorem abs_value {parts : NumberParts} (h : Decimal.Significant parts.digits) :
    |parts.value| = (Decimal.value parts.digits : ℚ) *
      10 ^ (-(parts.scale (exponentValue parts.exponent))) := by
  have hpos := fixed_value_pos h (parts.scale (exponentValue parts.exponent))
  rw [NumberParts.value_eq, mul_assoc, abs_mul, abs_of_pos hpos]
  cases parts.negative <;> simp [signFactor]

theorem fitsCanonical_iff {parts : NumberParts} (hdigits : ∀ c ∈ parts.all, c.isDigit = true) :
    FitsCanonical parts.value ↔ parts.digits = [] ∨
      exceedsMagnitude parts.digits (parts.scale (exponentValue parts.exponent)) = false := by
  rcases Decimal.significant_spec hdigits with hnil | hsig
  · have hzero : parts.value = 0 := by
      have hnil' : parts.digits = [] := hnil
      rw [NumberParts.value_eq, hnil']
      simp
    simp only [FitsCanonical, hzero, true_or, true_iff]
    exact .inl hnil
  · have hsig : Decimal.Significant parts.digits := hsig
    have hne : parts.value ≠ 0 := by
      rw [NumberParts.value_eq]
      exact fixed_value_ne_zero hsig _ _
    rw [FitsCanonical, or_iff_right hne, or_iff_right hsig.ne_nil, exceedsMagnitude_iff hsig]
    constructor
    · rintro ⟨m, k, hm, habs, hfits⟩
      have hm' := significant_of_mod hm
      have hvalue : Decimal.value (Nat.toDigits 10 m) = m := by
        rw [Decimal.value, Nat.ofDigitChars_toDigits (by decide) (by decide)]
      have heq : (Decimal.value (Nat.toDigits 10 m) : ℚ) * 10 ^ (-k) =
          Decimal.value parts.digits * 10 ^ (-(parts.scale (exponentValue parts.exponent))) := by
        rw [hvalue, ← habs, abs_value hsig]
      obtain ⟨hd, hk⟩ := hm'.unique hsig heq
      rw [← hd, hvalue, ← hk]
      exact hfits
    · intro hfits
      exact ⟨_, _, hsig.not_dvd, abs_value hsig, hfits⟩

/-- **What is accepted.** -/
theorem writeNumber_succeeds_iff (literal : String) :
    (∃ text, writeNumber literal = .ok text) ↔ Writable literal := by
  constructor
  · rintro ⟨text, h⟩
    unfold writeNumber at h
    split at h
    · cases h
    next parts hparts =>
    split at h
    · cases h
    next exponent hexponent =>
    obtain ⟨hx, hbound⟩ := parseDecimalExponent_ok.1 hexponent
    have hspells := parseJSONNumber_iff.1 hparts
    have hfits := fitsCanonical_iff (parseJSONNumber_digits hparts)
    rw [maxCanonicalNumberDigits, hx] at h
    split_ifs at h with hlong hzero hbig
    · exact ⟨parts, hspells, hbound, by omega, hfits.2 (.inl hzero)⟩
    · exact ⟨parts, hspells, hbound, by omega, hfits.2 (.inr (by simpa using hbig))⟩
  · rintro ⟨parts, hspells, hbound, hlength, hfits⟩
    have hparts := parseJSONNumber_iff.2 hspells
    have hexponent := parseDecimalExponent_ok.2 ⟨rfl, hbound⟩
    unfold writeNumber
    rw [hparts]
    dsimp only
    rw [hexponent]
    dsimp only
    rw [maxCanonicalNumberDigits, if_neg (by omega)]
    by_cases hzero : parts.digits = []
    · exact ⟨"0", if_pos hzero⟩
    · have hmagnitude :=
        ((fitsCanonical_iff (parseJSONNumber_digits hparts)).1 hfits).resolve_left hzero
      rw [if_neg hzero, hmagnitude, if_neg Bool.false_ne_true]
      exact ⟨_, rfl⟩

/-! ## Section 3: What is written -/

theorem canonicalText_fixed {digits : List Char} (h : Decimal.Significant digits)
    (negative : Bool) (scale : Int) :
    CanonicalText (String.ofList (Decimal.fixed negative digits scale)) := by
  have hparse := parse_fixed h negative scale
  refine ⟨fixedParts negative digits scale, ?_, ?_, ?_, ?_⟩
  · rw [String.toList_ofList]
    exact parseJSONNumber_iff.1 hparse
  · unfold fixedParts
    split_ifs <;> rfl
  · -- the digits end in another digit than zero
    intro rest heq
    obtain ⟨front, c, hlast, hc⟩ := h.last
    have hend : ∀ more : List Char, more ≠ [] → more <:+ digits → more ≠ rest ++ ['0'] := by
      rintro more hne ⟨before, hbefore⟩ hmore
      rw [hmore, hlast, ← List.append_assoc] at hbefore
      have hconcat := List.append_inj_right' hbefore rfl
      exact hc (List.cons.inj hconcat).1.symm
    unfold fixedParts at heq
    split_ifs at heq with hscale hlong
    · exact absurd heq.symm (by simp)
    · rw [hlast, ← List.append_assoc] at heq
      have hconcat := List.append_inj_right' heq rfl
      exact hc (List.cons.inj hconcat).1
    · refine hend _ ?_ (List.drop_suffix _ _) heq
      intro hnil
      rw [List.drop_eq_nil_iff] at hnil
      omega
  · -- an integer does not start with zero, and the others have a fraction
    rintro ⟨-, hint, hfrac⟩
    obtain ⟨c, more, hhead, hc⟩ := h.head
    unfold fixedParts at hint hfrac
    split_ifs at hint hfrac with hscale hlong
    · rw [hhead, List.cons_append] at hint
      exact hc (List.cons.inj hint).1
    · exact h.ne_nil (List.append_eq_nil_iff.1 hfrac).2
    · have hlen := congrArg List.length hfrac
      rw [List.length_drop, List.length_nil] at hlen
      omega

theorem length_fixed {digits : List Char} (h : Decimal.Significant digits) (negative : Bool)
    {scale : Int} (hsize : exceedsMagnitude digits scale = false) :
    (Decimal.fixed negative digits scale).length ≤ 2 ^ 20 + 3 := by
  have hpos := List.length_pos_iff.2 h.ne_nil
  have hsign : (if negative then ['-'] else []).length ≤ 1 := by
    cases negative <;> decide
  unfold exceedsMagnitude at hsize
  rw [maxCanonicalNumberDigits] at hsize
  unfold Decimal.fixed
  dsimp only
  generalize (if negative then ['-'] else []) = sign at hsign ⊢
  split_ifs at hsize ⊢ with hscale hlong <;>
    simp only [decide_eq_false_iff_not, not_lt, not_or, gt_iff_lt, List.length_append,
      List.length_replicate, List.length_cons, List.length_take, List.length_drop] at hsize ⊢ <;>
    push_cast at hsize <;> omega

theorem canonicalText_zero : CanonicalText "0" := by
  refine ⟨⟨false, ['0'], [], []⟩, ⟨⟨.inl rfl, by simp, .inl rfl⟩, 'e', .inl rfl, rfl⟩, rfl, ?_, ?_⟩
  · intro rest heq
    exact absurd heq.symm (by simp)
  · rintro ⟨hneg, -⟩
    cases hneg

/-- **The contract of number canonicalisation.** -/
theorem writeNumber_contract (literal : String) :
    ((∃ text, writeNumber literal = .ok text) ↔ Writable literal) ∧
      ∀ text, writeNumber literal = .ok text →
        CanonicalText text ∧ text.toList.length ≤ 2 ^ 20 + 3 ∧
        literalValue text = literalValue literal ∧ writeNumber text = .ok text ∧
        ∀ literal' text', writeNumber literal' = .ok text' →
          (text = text' ↔ literalValue literal = literalValue literal') := by
  refine ⟨writeNumber_succeeds_iff literal, ?_⟩
  intro text h
  have hshape : CanonicalText text ∧ text.toList.length ≤ 2 ^ 20 + 3 := by
    obtain ⟨parts, exponent, -, -, ⟨-, rfl⟩ | ⟨hsig, hsize, rfl⟩⟩ := writeNumber_ok h
    · exact ⟨canonicalText_zero, by decide⟩
    · refine ⟨canonicalText_fixed hsig _ _, ?_⟩
      rw [String.toList_ofList]
      exact length_fixed hsig _ hsize
  refine ⟨hshape.1, hshape.2, literalValue_writeNumber h, writeNumber_idem h, ?_⟩
  intro literal' text' h'
  constructor
  · intro heq
    rw [← literalValue_writeNumber h, ← literalValue_writeNumber h', heq]
  · exact writeNumber_unique h h'

end Json

end AuditGovernance
