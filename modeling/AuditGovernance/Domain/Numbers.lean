import AuditGovernance.Framework.Binary64
import AuditGovernance.Domain.CanonicalJson

/-! # What number literals stand for

    The exact value of a JSON number literal, and what `writeNumber` does to
    it: nothing (`literalValue_writeNumber`). A literal it has written once is
    left as it is (`writeNumber_idem`), and so are integers. Literals with one
    value get one text (`writeNumber_unique`). The text that a literal has
    after a round trip through binary64 stands beside it.
-/

namespace AuditGovernance

namespace Json

/-! ## Section 1: Values -/

/-- The exponent of a literal, without the bound that `parseDecimalExponent`
    puts on it. -/
def exponentValue (exponent : List Char) : Int :=
  if (readSign exponent).1 = ['-'] then -(Decimal.value (readSign exponent).2 : Int)
  else Decimal.value (readSign exponent).2

/-- The sign as a factor. -/
def signFactor (negative : Bool) : ℚ := if negative then -1 else 1

/-- The rational number a literal stands for. -/
def NumberParts.value (parts : NumberParts) : ℚ :=
  signFactor parts.negative * Decimal.value parts.all *
    10 ^ (exponentValue parts.exponent - parts.fraction.length)

/-- The value of a literal; texts that are no JSON numbers have none. -/
def literalValue (literal : String) : Option ℚ :=
  (parseJSONNumber literal.toList).map NumberParts.value

/-- The value in terms of the significant digits. -/
theorem NumberParts.value_eq (parts : NumberParts) :
    parts.value = signFactor parts.negative * Decimal.value parts.digits *
      10 ^ (-(parts.scale (exponentValue parts.exponent))) := by
  have hten : (10 : ℚ) ≠ 0 := by norm_num
  have hexp : -(parts.scale (exponentValue parts.exponent)) =
      (exponentValue parts.exponent - parts.fraction.length) +
        (Decimal.trailing parts.all : Int) := by
    unfold NumberParts.scale
    omega
  unfold NumberParts.value
  rw [Decimal.value_significant parts.all, hexp, zpow_add₀ hten, zpow_natCast]
  unfold NumberParts.digits
  push_cast
  ring

theorem exponentValue_of_parse {exponent : List Char} {x : Int}
    (h : parseDecimalExponent exponent = .ok x) : exponentValue exponent = x := by
  unfold parseDecimalExponent at h
  simp only at h
  split_ifs at h with hbig hsign
  · cases h
    simp [exponentValue, hsign]
  · cases h
    simp [exponentValue, hsign]

/-! ## Section 2: Reading plain decimals -/

theorem span_digits {digits : List Char} (rest : List Char) (hd : ∀ c ∈ digits, c.isDigit = true)
    (hr : ∀ c more, rest = c :: more → c.isDigit = false) :
    (digits ++ rest).span Char.isDigit = (digits, rest) := by
  rw [List.span_eq_takeWhile_dropWhile]
  have htake : rest.takeWhile Char.isDigit = [] ∧ rest.dropWhile Char.isDigit = rest := by
    cases rest with
    | nil => simp
    | cons c more => simp [hr c more rfl]
  rw [List.takeWhile_append_of_pos hd, List.dropWhile_append_of_pos hd, htake.1, htake.2,
    List.append_nil]

/-- The digits in front of the point: `0`, or no zero first. -/
def IntegerDigits (integer : List Char) : Prop :=
  integer = ['0'] ∨ ((∀ c ∈ integer, c.isDigit = true) ∧ ∃ c rest, integer = c :: rest ∧ c ≠ '0')

theorem readInteger_digits {integer : List Char} (rest : List Char) (h : IntegerDigits integer)
    (hr : ∀ c more, rest = c :: more → c.isDigit = false) :
    readInteger (integer ++ rest) = some (integer, rest) := by
  rcases h with rfl | ⟨hd, c, more, rfl, hne⟩
  · rfl
  · rw [List.cons_append, readInteger, if_neg hne, if_pos (hd c (by simp)),
      ← List.cons_append, span_digits _ hd hr]

theorem parseUnsigned_decimal (negative : Bool) (integer fraction : List Char)
    (hi : IntegerDigits integer) (hf : ∀ c ∈ fraction, c.isDigit = true) :
    parseUnsigned negative (integer ++ if fraction = [] then [] else '.' :: fraction) =
      some ⟨negative, integer, fraction, []⟩ := by
  by_cases hnil : fraction = []
  · subst hnil
    have hread := readInteger_digits [] hi (by simp)
    rw [if_pos rfl, parseUnsigned, hread]
    simp only [readFraction, readExponent, if_true]
  · have hread := readInteger_digits ('.' :: fraction) hi (by
      intro c more heq
      cases heq
      rfl)
    have hspan : fraction.span Char.isDigit = (fraction, []) := by
      have hs := span_digits [] hf (by simp)
      rwa [List.append_nil] at hs
    have hfrac : readFraction ('.' :: fraction) = some (fraction, []) := by
      rw [readFraction, if_pos rfl, hspan, if_neg hnil]
    rw [if_neg hnil, parseUnsigned, hread]
    simp only [hfrac, readExponent, if_true]

theorem IntegerDigits.head {integer : List Char} (h : IntegerDigits integer) :
    ∃ c rest, integer = c :: rest ∧ c ≠ '-' := by
  rcases h with rfl | ⟨hd, c, rest, rfl, -⟩
  · exact ⟨'0', [], rfl, by decide⟩
  · refine ⟨c, rest, rfl, ?_⟩
    rintro rfl
    exact absurd (hd '-' (by simp)) (by decide)

theorem parseJSONNumber_decimal (negative : Bool) (integer fraction : List Char)
    (hi : IntegerDigits integer) (hf : ∀ c ∈ fraction, c.isDigit = true) :
    parseJSONNumber ((if negative then ['-'] else []) ++
      (integer ++ if fraction = [] then [] else '.' :: fraction)) =
      some ⟨negative, integer, fraction, []⟩ := by
  have hparse := parseUnsigned_decimal negative integer fraction hi hf
  cases negative with
  | true => exact hparse
  | false =>
    obtain ⟨c, rest, rfl, hc⟩ := hi.head
    rw [if_neg (by decide), List.nil_append, List.cons_append, parseJSONNumber, if_neg hc]
    exact hparse

theorem parseUnsigned_digits {negative : Bool} {text : List Char} {parts : NumberParts}
    (h : parseUnsigned negative text = some parts) : ∀ c ∈ parts.all, c.isDigit = true := by
  unfold parseUnsigned at h
  split at h
  · cases h
  next integer rest hint =>
  split at h
  · cases h
  next fraction rest' hfrac =>
  split at h
  · cases h
  split_ifs at h
  cases h
  intro c hc
  rcases List.mem_append.1 hc with hc | hc
  · cases text with
    | nil => cases hint
    | cons d more =>
      simp only [readInteger] at hint
      split_ifs at hint with hzero hdigit
      · cases hint
        rw [List.mem_singleton.1 hc, hzero]
        rfl
      · rw [List.span_eq_takeWhile_dropWhile] at hint
        cases hint
        exact List.mem_takeWhile_imp hc
  · cases rest with
    | nil =>
      cases hfrac
      cases hc
    | cons d more =>
      simp only [readFraction] at hfrac
      split_ifs at hfrac with hpoint hempty
      · rw [List.span_eq_takeWhile_dropWhile] at hfrac
        cases hfrac
        exact List.mem_takeWhile_imp hc
      · cases hfrac
        cases hc

theorem parseJSONNumber_digits {text : List Char} {parts : NumberParts}
    (h : parseJSONNumber text = some parts) : ∀ c ∈ parts.all, c.isDigit = true := by
  cases text with
  | nil => cases h
  | cons c rest =>
    rw [parseJSONNumber] at h
    split_ifs at h
    · exact parseUnsigned_digits h
    · exact parseUnsigned_digits h

/-! ## Section 3: Canonical literals -/

/-- How a canonical literal is read. -/
def fixedParts (negative : Bool) (digits : List Char) (scale : Int) : NumberParts :=
  if scale ≤ 0 then ⟨negative, digits ++ List.replicate (-scale).toNat '0', [], []⟩
  else if (digits.length : Int) ≤ scale then
    ⟨negative, ['0'], List.replicate (scale.toNat - digits.length) '0' ++ digits, []⟩
  else
    ⟨negative, digits.take (digits.length - scale.toNat),
      digits.drop (digits.length - scale.toNat), []⟩

section Fixed

variable {digits : List Char} (h : Decimal.Significant digits) (negative : Bool) (scale : Int)

include h

theorem parse_fixed : parseJSONNumber (Decimal.fixed negative digits scale) =
    some (fixedParts negative digits scale) := by
  have hne := h.ne_nil
  unfold Decimal.fixed fixedParts
  simp only
  by_cases hscale : scale ≤ 0
  · -- no point
    rw [if_pos hscale, if_pos hscale]
    have hi : IntegerDigits (digits ++ List.replicate (-scale).toNat '0') := by
      refine .inr ⟨?_, ?_⟩
      · intro c hc
        rcases List.mem_append.1 hc with hc | hc
        · exact h.digit c hc
        · rw [List.eq_of_mem_replicate hc]
          rfl
      · obtain ⟨c, rest, rfl, hc⟩ := h.head
        exact ⟨c, _, rfl, hc⟩
    have hparse := parseJSONNumber_decimal negative _ [] hi (by simp)
    rw [if_pos rfl, List.append_nil, ← List.append_assoc] at hparse
    exact hparse
  by_cases hlen : (digits.length : Int) ≤ scale
  · -- all digits behind the point
    rw [if_neg hscale, if_pos hlen, if_neg hscale, if_pos hlen]
    have hf : ∀ c ∈ List.replicate (scale.toNat - digits.length) '0' ++ digits,
        c.isDigit = true := by
      intro c hc
      rcases List.mem_append.1 hc with hc | hc
      · rw [List.eq_of_mem_replicate hc]
        rfl
      · exact h.digit c hc
    have hparse := parseJSONNumber_decimal negative ['0'] _ (.inl rfl) hf
    simpa [hne] using hparse
  · rw [if_neg hscale, if_neg hlen, if_neg hscale, if_neg hlen]
    have hi : IntegerDigits (digits.take (digits.length - scale.toNat)) := by
      refine .inr ⟨fun c hc => h.digit c (List.mem_of_mem_take hc), ?_⟩
      obtain ⟨c, rest, rfl, hc⟩ := h.head
      obtain ⟨n, hn⟩ : ∃ n, (c :: rest).length - scale.toNat = n + 1 :=
        ⟨(c :: rest).length - scale.toNat - 1, by omega⟩
      rw [hn]
      exact ⟨c, rest.take n, rfl, hc⟩
    have hparse := parseJSONNumber_decimal negative _
      (digits.drop (digits.length - scale.toNat)) hi
      (fun c hc => h.digit c (List.mem_of_mem_drop hc))
    have hdrop : digits.drop (digits.length - scale.toNat) ≠ [] := by
      rw [Ne, List.drop_eq_nil_iff]
      have hpos := List.length_pos_iff.2 hne
      omega
    rw [if_neg hdrop, ← List.append_assoc] at hparse
    exact hparse

omit h in
theorem fixedParts_all : ∃ m n, (fixedParts negative digits scale).all =
    List.replicate m '0' ++ digits ++ List.replicate n '0' ∧
    ((fixedParts negative digits scale).fraction.length : Int) - n = scale := by
  unfold fixedParts NumberParts.all
  split_ifs with hscale hlen
  · refine ⟨0, (-scale).toNat, by simp, ?_⟩
    simp only [List.length_nil]
    omega
  · refine ⟨1 + (scale.toNat - digits.length), 0, ?_, ?_⟩
    · rw [List.replicate_add]
      simp
    · simp only [List.length_append, List.length_replicate]
      omega
  · refine ⟨0, 0, by simp, ?_⟩
    simp only [List.length_drop]
    omega

theorem fixedParts_digits : (fixedParts negative digits scale).digits = digits := by
  obtain ⟨m, n, hall, -⟩ := fixedParts_all negative scale
  rw [NumberParts.digits, hall, Decimal.significant_pad h]

theorem fixedParts_scale : (fixedParts negative digits scale).scale 0 = scale := by
  obtain ⟨m, n, hall, hlen⟩ := fixedParts_all negative scale
  rw [NumberParts.scale, hall, Decimal.trailing_pad h]
  omega

theorem fixedParts_size (hsize : exceedsMagnitude digits scale = false) :
    (fixedParts negative digits scale).integer.length +
      (fixedParts negative digits scale).fraction.length ≤ maxCanonicalNumberDigits + 1 := by
  have hpos := List.length_pos_iff.2 h.ne_nil
  unfold exceedsMagnitude at hsize
  unfold fixedParts
  split_ifs at hsize ⊢ with hscale hlen <;>
    simp only [decide_eq_false_iff_not, not_lt, not_or, List.length_append, List.length_replicate,
      List.length_nil, List.length_cons, List.length_take, List.length_drop] at hsize ⊢ <;> omega

theorem writeNumber_fixed (hsize : exceedsMagnitude digits scale = false) :
    writeNumber (String.ofList (Decimal.fixed negative digits scale)) =
      .ok (String.ofList (Decimal.fixed negative digits scale)) := by
  have hsmall := fixedParts_size h negative scale hsize
  have hexponent : (fixedParts negative digits scale).exponent = [] := by
    unfold fixedParts
    split_ifs <;> rfl
  have hnegative : (fixedParts negative digits scale).negative = negative := by
    unfold fixedParts
    split_ifs <;> rfl
  have hzero : parseDecimalExponent [] = .ok 0 := rfl
  rw [writeNumber, String.toList_ofList, parse_fixed h]
  simp only [hexponent, hzero, fixedParts_digits h, fixedParts_scale h, hnegative, hsize,
    h.ne_nil, if_false, gt_iff_lt, Nat.not_lt.2 hsmall]
  rfl

end Fixed

/-- What `writeNumber` makes of a literal: zero, or its digits and scale in
    plain form. -/
theorem writeNumber_ok {literal text : String} (h : writeNumber literal = .ok text) :
    ∃ parts exponent, parseJSONNumber literal.toList = some parts ∧
      exponentValue parts.exponent = exponent ∧
      ((parts.digits = [] ∧ text = "0") ∨
        (Decimal.Significant parts.digits ∧
          exceedsMagnitude parts.digits (parts.scale exponent) = false ∧
          text = String.ofList
            (Decimal.fixed parts.negative parts.digits (parts.scale exponent)))) := by
  unfold writeNumber at h
  split at h
  · cases h
  next parts hparts =>
  split at h
  · cases h
  next exponent hexponent =>
  refine ⟨parts, exponent, hparts, exponentValue_of_parse hexponent, ?_⟩
  have hspec := Decimal.significant_spec (parseJSONNumber_digits hparts)
  split_ifs at h with hlong hzero hbig
  · cases h
    exact .inl ⟨hzero, rfl⟩
  · cases h
    exact .inr ⟨hspec.resolve_left hzero, by simpa using hbig, rfl⟩

/-- Writing a literal a second time changes nothing. -/
theorem writeNumber_idem {literal text : String} (h : writeNumber literal = .ok text) :
    writeNumber text = .ok text := by
  obtain ⟨parts, exponent, -, -, ⟨-, rfl⟩ | ⟨hsig, hsize, rfl⟩⟩ := writeNumber_ok h
  · rfl
  · exact writeNumber_fixed hsig _ _ hsize

theorem literalValue_fixed {digits : List Char} (h : Decimal.Significant digits) (negative : Bool)
    (scale : Int) : literalValue (String.ofList (Decimal.fixed negative digits scale)) =
      some (signFactor negative * Decimal.value digits * 10 ^ (-scale)) := by
  have hexponent : exponentValue (fixedParts negative digits scale).exponent = 0 := by
    unfold fixedParts
    split_ifs <;> rfl
  have hnegative : (fixedParts negative digits scale).negative = negative := by
    unfold fixedParts
    split_ifs <;> rfl
  rw [literalValue, String.toList_ofList, parse_fixed h, Option.map_some, NumberParts.value_eq,
    hexponent, fixedParts_digits h, fixedParts_scale h, hnegative]

theorem literalValue_zero : literalValue "0" = some 0 := by
  simp [literalValue, NumberParts.value, parseJSONNumber, parseUnsigned, readInteger,
    readFraction, readExponent, NumberParts.all, Decimal.value, Nat.ofDigitChars]

/-- `writeNumber` keeps the exact value. -/
theorem literalValue_writeNumber {literal text : String} (h : writeNumber literal = .ok text) :
    literalValue text = literalValue literal := by
  obtain ⟨parts, exponent, hparts, hexp, ⟨hzero, rfl⟩ | ⟨hsig, -, rfl⟩⟩ := writeNumber_ok h
  · have hvalue : parts.value = 0 := by
      rw [NumberParts.value_eq, hzero]
      simp
    rw [literalValue_zero, literalValue, hparts, Option.map_some, hvalue]
  · rw [literalValue_fixed hsig, literalValue, hparts, Option.map_some, NumberParts.value_eq parts,
      hexp]

theorem fixed_value_ne_zero {digits : List Char} (h : Decimal.Significant digits)
    (negative : Bool) (scale : Int) :
    signFactor negative * (Decimal.value digits : ℚ) * 10 ^ (-scale) ≠ 0 := by
  have hvalue : (Decimal.value digits : ℚ) ≠ 0 := by
    have hmod := h.not_dvd
    exact_mod_cast fun hz => hmod (by rw [hz])
  have hsign : signFactor negative ≠ 0 := by
    cases negative <;> simp [signFactor]
  exact mul_ne_zero (mul_ne_zero hsign hvalue) (zpow_ne_zero _ (by norm_num))

theorem signFactor_inj {negative negative' : Bool} {x y : ℚ} (hx : 0 < x) (hy : 0 < y)
    (h : signFactor negative * x = signFactor negative' * y) :
    negative = negative' ∧ x = y := by
  have htrue : signFactor true = -1 := rfl
  have hfalse : signFactor false = 1 := rfl
  cases negative <;> cases negative' <;> simp only [htrue, hfalse] at h
  · exact ⟨rfl, by linarith⟩
  · linarith
  · linarith
  · exact ⟨rfl, by linarith⟩

theorem fixed_value_pos {digits : List Char} (h : Decimal.Significant digits) (scale : Int) :
    0 < (Decimal.value digits : ℚ) * 10 ^ (-scale) := by
  have hvalue : 0 < Decimal.value digits := by
    have hmod := h.not_dvd
    omega
  have hcast : (0 : ℚ) < Decimal.value digits := by exact_mod_cast hvalue
  exact mul_pos hcast (zpow_pos (by norm_num) _)

theorem writeNumber_unique {literal text literal' text' : String}
    (h : writeNumber literal = .ok text) (h' : writeNumber literal' = .ok text')
    (hvalue : literalValue literal = literalValue literal') : text = text' := by
  rw [← literalValue_writeNumber h, ← literalValue_writeNumber h'] at hvalue
  obtain ⟨parts, exponent, -, -, ⟨-, rfl⟩ | ⟨hsig, -, rfl⟩⟩ := writeNumber_ok h <;>
    obtain ⟨parts', exponent', -, -, ⟨-, rfl⟩ | ⟨hsig', -, rfl⟩⟩ := writeNumber_ok h'
  · rfl
  · rw [literalValue_zero, literalValue_fixed hsig'] at hvalue
    exact absurd (Option.some.inj hvalue).symm (fixed_value_ne_zero hsig' _ _)
  · rw [literalValue_zero, literalValue_fixed hsig] at hvalue
    exact absurd (Option.some.inj hvalue) (fixed_value_ne_zero hsig _ _)
  · rw [literalValue_fixed hsig, literalValue_fixed hsig'] at hvalue
    have heq := Option.some.inj hvalue
    rw [mul_assoc, mul_assoc] at heq
    obtain ⟨hneg, habs⟩ := signFactor_inj (fixed_value_pos hsig _) (fixed_value_pos hsig' _) heq
    obtain ⟨hdigits, hscale⟩ := hsig.unique hsig' habs
    rw [hneg, hdigits, hscale]

/-! ## Section 4: Integers -/

theorem toDigits_head {n : Nat} (hn : 0 < n) :
    ∃ c rest, Nat.toDigits 10 n = c :: rest ∧ c ≠ '0' := by
  induction n using Nat.strongRecOn with
  | _ n ih =>
    by_cases hsmall : n < 10
    · rw [Nat.toDigits_of_lt_base hsmall]
      refine ⟨_, [], rfl, ?_⟩
      interval_cases n <;> decide
    · obtain ⟨c, rest, heq, hc⟩ := ih (n / 10) (by omega) (by omega)
      rw [Nat.toDigits_of_base_le (by decide) (by omega), heq]
      exact ⟨c, _, rfl, hc⟩

theorem toDigits_digit (n : Nat) : ∀ c ∈ Nat.toDigits 10 n, c.isDigit = true :=
  fun _ hc => Nat.isDigit_of_mem_toDigits (by decide) (by decide) hc

theorem toList_intRepr (n : Int) :
    (Int.repr n).toList = (if n < 0 then ['-'] else []) ++ Nat.toDigits 10 n.natAbs := by
  rw [Int.repr_eq_if]
  by_cases hn : 0 ≤ n
  · rw [if_pos hn, if_neg (by omega), Nat.toList_repr, List.nil_append]
    congr 1
    omega
  · rw [if_neg hn, if_pos (by omega), String.toList_append, Nat.toList_repr]
    congr 2
    omega

theorem parse_intRepr (n : Int) : parseJSONNumber (Int.repr n).toList =
    some ⟨decide (n < 0), Nat.toDigits 10 n.natAbs, [], []⟩ := by
  have hi : IntegerDigits (Nat.toDigits 10 n.natAbs) := by
    by_cases hn : n.natAbs = 0
    · rw [hn]
      exact .inl rfl
    · exact .inr ⟨toDigits_digit _, toDigits_head (by omega)⟩
  have hparse := parseJSONNumber_decimal (decide (n < 0)) _ [] hi (by simp)
  rw [toList_intRepr]
  simpa using hparse

/-- Integers are canonical. -/
theorem writeNumber_int {n : Int} {text : String} (h : writeNumber (Int.repr n) = .ok text) :
    text = Int.repr n := by
  obtain ⟨parts, exponent, hparts, hexp, hcases⟩ := writeNumber_ok h
  rw [parse_intRepr] at hparts
  cases hparts
  have hzeroExp : exponent = 0 := hexp.symm
  subst hzeroExp
  have hall : NumberParts.all ⟨decide (n < 0), Nat.toDigits 10 n.natAbs, [], []⟩ =
      Nat.toDigits 10 n.natAbs := by simp [NumberParts.all]
  rcases hcases with ⟨hzero, rfl⟩ | ⟨hsig, -, rfl⟩
  · -- without significant digits the number is zero
    have hvalue := Decimal.value_significant (Nat.toDigits 10 n.natAbs)
    rw [NumberParts.digits, hall] at hzero
    rw [hzero, Decimal.value, Nat.ofDigitChars_toDigits (by decide) (by decide)] at hvalue
    have hn : n = 0 := by simpa using hvalue
    subst hn
    rfl
  · apply String.toList_injective
    have hpos : 0 < n.natAbs := by
      by_contra hn
      have hz : n.natAbs = 0 := by omega
      rw [NumberParts.digits, hall, hz] at hsig
      exact hsig.ne_nil rfl
    have hsplit := Decimal.significant_append_trailing (toDigits_head hpos)
    rw [String.toList_ofList, NumberParts.digits, NumberParts.scale, hall, toList_intRepr]
    conv_rhs => rw [hsplit]
    have hscale : ((([] : List Char).length : Int) - 0 -
        (Decimal.trailing (Nat.toDigits 10 n.natAbs) : Int)) ≤ 0 := by
      simp
    rw [Decimal.fixed]
    simp only [hscale, if_true]
    rw [List.append_assoc]
    congr 2
    · simp
    · simp

/-! ## Section 5: Through binary64 -/

/-- A literal decoded into a binary64 number and written with
    `strconv.FormatFloat(f, 'g', -1, 64)`. -/
def float64Text (literal : String) : Except Err String :=
  match parseJSONNumber literal.toList with
  | none => .error (.plain ("invalid number literal " ++ literal.quote))
  | some parts =>
    let f := Binary64.round |parts.value|
    if Binary64.overflow ≤ f then
      .error (.plain ("json: cannot unmarshal number " ++ literal ++
        " into Go value of type float64"))
    else .ok (String.ofList (Binary64.text parts.negative f))

theorem writeNumber_no_exponent {literal text : String} (h : writeNumber literal = .ok text) :
    'e' ∉ text.toList := by
  obtain ⟨parts, exponent, -, -, ⟨-, rfl⟩ | ⟨hsig, -, rfl⟩⟩ := writeNumber_ok h
  · decide
  · rw [String.toList_ofList]
    intro he
    rcases Decimal.mem_fixed he with he | he | he | he
    · exact absurd (hsig.digit 'e' he) (by decide)
    · exact absurd he (by decide)
    · exact absurd he (by decide)
    · exact absurd he (by decide)

theorem significant_toDigits {c : Nat} (hc : 0 < c) :
    Decimal.Significant (Decimal.significant (Nat.toDigits 10 c)) := by
  refine (Decimal.significant_spec (toDigits_digit c)).resolve_left ?_
  intro hnil
  have hsum := Decimal.value_significant (Nat.toDigits 10 c)
  rw [hnil, Decimal.value, Nat.ofDigitChars_toDigits (by decide) (by decide), Decimal.value_nil,
    Nat.zero_mul] at hsum
  omega

theorem literalValue_plain {c : Nat} (hc : 0 < c) (p : Int) (negative : Bool) :
    literalValue (String.ofList (Decimal.fixed negative (Decimal.significant (Nat.toDigits 10 c))
      ((Decimal.significant (Nat.toDigits 10 c)).length - ((Nat.toDigits 10 c).length + p)))) =
      some (signFactor negative * (c * 10 ^ p)) := by
  have hvalue : Decimal.value (Nat.toDigits 10 c) = c :=
    Nat.ofDigitChars_toDigits (by decide) (by decide)
  have hsum := Decimal.value_significant (Nat.toDigits 10 c)
  rw [hvalue] at hsum
  have hsig := significant_toDigits hc
  have hlen := congrArg List.length (Decimal.significant_append_trailing (toDigits_head hc))
  rw [List.length_append, List.length_replicate] at hlen
  have hexp : -(((Decimal.significant (Nat.toDigits 10 c)).length : Int) -
      ((Nat.toDigits 10 c).length + p)) = (Decimal.trailing (Nat.toDigits 10 c) : Int) + p := by
    omega
  have hcast : (c : ℚ) = Decimal.value (Decimal.significant (Nat.toDigits 10 c)) *
      10 ^ Decimal.trailing (Nat.toDigits 10 c) := by exact_mod_cast hsum
  rw [literalValue_fixed hsig, hexp, zpow_add₀ (by norm_num), zpow_natCast]
  conv_rhs => rw [hcast]
  ring_nf

theorem literalValue_text_of_small {n : Nat} (hpos : 0 < n) (hn : n < 10 ^ 6) (negative : Bool)
    (hplain : 'e' ∉ Binary64.text negative n) :
    literalValue (String.ofList (Binary64.text negative n)) = some (signFactor negative * n) := by
  have hshort := Binary64.shortest_natCast hpos hn
  have hne : (n : ℚ) ≠ 0 := by exact_mod_cast hpos.ne'
  have hcoef := Binary64.shortest_pos (f := n) (by exact_mod_cast hpos)
  unfold Binary64.text at hplain ⊢
  rw [if_neg hne] at hplain ⊢
  simp only at hplain ⊢
  split_ifs at hplain ⊢ with hlarge
  · exact absurd (Binary64.mem_scientific _ _ _) hplain
  · rw [literalValue_plain hcoef, hshort]

theorem value_intRepr (n : Int) :
    (⟨decide (n < 0), Nat.toDigits 10 n.natAbs, [], []⟩ : NumberParts).value =
      signFactor (decide (n < 0)) * n.natAbs := by
  have hvalue : Decimal.value (Nat.toDigits 10 n.natAbs) = n.natAbs :=
    Nat.ofDigitChars_toDigits (by decide) (by decide)
  simp [NumberParts.value, NumberParts.all, hvalue, exponentValue, readSign]

theorem abs_signFactor_mul (negative : Bool) (n : Nat) : |signFactor negative * (n : ℚ)| = n := by
  cases negative <;> simp [signFactor]

theorem float64Text_int {n : Int} {text : String} (h : float64Text (Int.repr n) = .ok text)
    (hcanon : writeNumber text = .ok text) (hint : (writeNumber (Int.repr n)).isOk = true) :
    text = Int.repr n := by
  have hplain := writeNumber_no_exponent hcanon
  obtain ⟨text', hint'⟩ : ∃ text', writeNumber (Int.repr n) = .ok text' := by
    cases hw : writeNumber (Int.repr n) with
    | error err => rw [hw] at hint; cases hint
    | ok text' => exact ⟨text', rfl⟩
  rw [float64Text, parse_intRepr] at h
  simp only [value_intRepr, abs_signFactor_mul] at h
  split_ifs at h
  cases h
  rw [String.toList_ofList] at hplain
  rcases Nat.eq_zero_or_pos n.natAbs with hzero | hpos
  · have hn : n = 0 := by omega
    subst hn
    decide +kernel
  have hsmall : n.natAbs < 10 ^ 6 := by
    by_contra hlarge
    apply hplain
    apply Binary64.mem_text_of_large
    by_cases hbits : n.natAbs < 2 ^ 53
    · rw [Binary64.round_natCast hbits]
      exact_mod_cast Nat.not_lt.1 hlarge
    · have hge : (2 : ℚ) ^ 53 ≤ n.natAbs := by exact_mod_cast Nat.not_lt.1 hbits
      have hround := Binary64.le_round_of_large hge
      have hhalf : (10 : ℚ) ^ 6 ≤ (n.natAbs : ℚ) / 2 := by linarith
      exact hhalf.trans hround
  rw [Binary64.round_natCast (by omega)] at hplain hcanon ⊢
  have hvalue := literalValue_text_of_small hpos hsmall _ hplain
  rw [← writeNumber_int hint']
  apply writeNumber_unique hcanon hint'
  rw [hvalue, literalValue, parse_intRepr, Option.map_some, value_intRepr]

theorem readExponent_text (e : Int) :
    ∃ exponent, readExponent (Binary64.exponentText e) = some (exponent, []) := by
  obtain ⟨digits, hdigits, hne, htext⟩ : ∃ digits : List Char,
      (∀ c ∈ digits, c.isDigit = true) ∧ digits ≠ [] ∧
      Binary64.exponentText e = 'e' :: (if e < 0 then '-' else '+') :: digits := by
    refine ⟨_, ?_, ?_, rfl⟩
    · intro c hc
      split_ifs at hc
      · rcases List.mem_cons.1 hc with rfl | hc
        · rfl
        · exact toDigits_digit _ c hc
      · exact toDigits_digit _ c hc
    · have hlen := Nat.length_toDigits_pos (b := 10) (n := e.natAbs)
      split_ifs
      · simp
      · exact List.length_pos_iff.1 hlen
  have hspan := span_digits [] hdigits (by simp)
  rw [List.append_nil] at hspan
  have hsign : (if e < 0 then '-' else '+') = '+' ∨ (if e < 0 then '-' else '+') = '-' := by
    split_ifs
    · exact .inr rfl
    · exact .inl rfl
  refine ⟨(if e < 0 then '-' else '+') :: digits, ?_⟩
  rw [htext, readExponent, if_pos (.inl rfl)]
  simp only [readSign, if_pos hsign, hspan, if_neg hne]
  rfl

theorem parse_scientific {digits : List Char} (h : Decimal.Significant digits) (negative : Bool)
    (e : Int) : (parseJSONNumber (Binary64.scientific negative digits e)).isSome = true := by
  obtain ⟨c, rest, rfl, hc⟩ := h.head
  obtain ⟨exponent, hexponent⟩ := readExponent_text e
  have hrest : ∀ d ∈ rest, d.isDigit = true := fun d hd => h.digit d (by simp [hd])
  have hi : IntegerDigits [c] :=
    .inr ⟨fun d hd => h.digit d (by rw [List.mem_singleton.1 hd]; simp), c, [], rfl, hc⟩
  have hehead : ∀ d more, Binary64.exponentText e = d :: more → d.isDigit = false := by
    intro d more heq
    cases heq
    rfl
  obtain ⟨tail, htail, hparse⟩ : ∃ tail, Binary64.scientific negative (c :: rest) e =
      (if negative then ['-'] else []) ++ c :: tail ∧
      ∀ neg, (parseUnsigned neg (c :: tail)).isSome = true := by
    unfold Binary64.scientific
    by_cases hnil : rest = []
    · subst hnil
      refine ⟨Binary64.exponentText e, by simp, ?_⟩
      intro neg
      have hread := readInteger_digits (Binary64.exponentText e) hi hehead
      have hfrac : readFraction (Binary64.exponentText e) = some ([], Binary64.exponentText e) := rfl
      rw [List.singleton_append] at hread
      simp [parseUnsigned, hread, hfrac, hexponent]
    · have hlen : ¬ (c :: rest).length ≤ 1 := by
        have hpos := List.length_pos_iff.2 hnil
        rw [List.length_cons]
        omega
      refine ⟨'.' :: (rest ++ Binary64.exponentText e), by simp [hnil], ?_⟩
      intro neg
      have hread := readInteger_digits ('.' :: (rest ++ Binary64.exponentText e)) hi (by
        intro d more heq
        cases heq
        rfl)
      have hspan := span_digits (Binary64.exponentText e) hrest hehead
      have hfrac : readFraction ('.' :: (rest ++ Binary64.exponentText e)) =
          some (rest, Binary64.exponentText e) := by
        rw [readFraction, if_pos rfl, hspan, if_neg hnil]
      rw [List.singleton_append] at hread
      simp [parseUnsigned, hread, hfrac, hexponent]
  rw [htail]
  cases negative with
  | true => exact hparse true
  | false =>
    have hminus : c ≠ '-' := by
      rintro rfl
      exact absurd (h.digit '-' (by simp)) (by decide)
    rw [if_neg (by decide), List.nil_append, parseJSONNumber, if_neg hminus]
    exact hparse false

theorem validNumber_float64Text {literal text : String} (h : float64Text literal = .ok text) :
    validNumber text = true := by
  unfold float64Text at h
  split at h
  · cases h
  next parts hparts =>
  simp only at h
  split_ifs at h
  cases h
  have hnonneg := Binary64.round_nonneg |parts.value|
  unfold validNumber
  rw [String.toList_ofList]
  unfold Binary64.text
  by_cases hzero : Binary64.round |parts.value| = 0
  · rw [if_pos hzero]
    cases parts.negative <;> rfl
  · have hpos := Binary64.shortest_pos (lt_of_le_of_ne hnonneg (Ne.symm hzero))
    have hsig := significant_toDigits hpos
    rw [if_neg hzero]
    simp only
    split_ifs
    · exact parse_scientific hsig _ _
    · rw [parse_fixed hsig]
      rfl

/-! ## Section 6: The numbers of a value -/

mutual

/-- The value with every number literal replaced. -/
def mapNumbers (f : String → String) : Json → Json
  | .null => .null
  | .bool b => .bool b
  | .num literal => .num (f literal)
  | .str text => .str text
  | .arr items => .arr (mapItems f items)
  | .obj fields => .obj (mapFields f fields)

def mapItems (f : String → String) : List Json → List Json
  | [] => []
  | x :: rest => mapNumbers f x :: mapItems f rest

def mapFields (f : String → String) : List (String × Json) → List (String × Json)
  | [] => []
  | (k, x) :: rest => (k, mapNumbers f x) :: mapFields f rest

end

theorem mapItems_eq_map (f : String → String) (items : List Json) :
    mapItems f items = items.map (mapNumbers f) := by
  induction items with
  | nil => rfl
  | cons x rest ih => rw [mapItems, ih, List.map_cons]

theorem mapFields_eq_map (f : String → String) (fields : List (String × Json)) :
    mapFields f fields = fields.map (fun p => (p.1, mapNumbers f p.2)) := by
  induction fields with
  | nil => rfl
  | cons p rest ih => rw [mapFields, ih, List.map_cons]

theorem mapFields_insertField (f : String → String) (k : String) (v : Json)
    (fields : List (String × Json)) :
    mapFields f (insertField k v fields) = insertField k (mapNumbers f v) (mapFields f fields) := by
  induction fields with
  | nil => rfl
  | cons p rest ih =>
    obtain ⟨l, w⟩ := p
    simp only [insertField, mapFields]
    split_ifs
    · rfl
    · rfl
    · rw [mapFields, ih]

/-- Numbers may be replaced before or after fields are sorted. -/
theorem mapNumbers_normalize (f : String → String) (v : Json) :
    mapNumbers f v.normalize = (mapNumbers f v).normalize := by
  induction v using induct with
  | null => rfl
  | bool b => rfl
  | num literal => rfl
  | str text => rfl
  | arr items ih =>
    simp only [Json.normalize, mapNumbers, mapItems_eq_map, normalizeItems_eq_map, List.map_map]
    congr 1
    exact List.map_congr_left ih
  | obj fields ih =>
    simp only [Json.normalize, mapNumbers]
    congr 1
    induction fields with
    | nil => rfl
    | cons p rest ihrest =>
      obtain ⟨k, x⟩ := p
      have hx := ih (k, x) (by simp)
      have hrest := ihrest (fun q hq => ih q (by simp [hq]))
      simp only [normalizeFields, mapFields, mapFields_insertField, hx, hrest]

/-- What a rewriting makes of a literal, where it succeeds. -/
def rewritten (rewrite : String → Except Err String) (literal : String) : String :=
  match rewrite literal with
  | .ok text => text
  | .error _ => literal

mutual

/-- The number literals of a value. -/
def numbers : Json → List String
  | .null | .bool _ | .str _ => []
  | .num literal => [literal]
  | .arr items => numbersOfItems items
  | .obj fields => numbersOfFields fields

def numbersOfItems : List Json → List String
  | [] => []
  | x :: rest => numbers x ++ numbersOfItems rest

def numbersOfFields : List (String × Json) → List String
  | [] => []
  | (_, x) :: rest => numbers x ++ numbersOfFields rest

end

theorem mem_numbersOfItems {items : List Json} {literal : String} :
    literal ∈ numbersOfItems items ↔ ∃ x ∈ items, literal ∈ numbers x := by
  induction items with
  | nil => simp [numbersOfItems]
  | cons x rest ih => simp [numbersOfItems, ih]

theorem mem_numbersOfFields {fields : List (String × Json)} {literal : String} :
    literal ∈ numbersOfFields fields ↔ ∃ p ∈ fields, literal ∈ numbers p.2 := by
  induction fields with
  | nil => simp [numbersOfFields]
  | cons p rest ih => simp [numbersOfFields, ih]

theorem numbers_mapNumbers (f : String → String) (v : Json) :
    numbers (mapNumbers f v) = (numbers v).map f := by
  induction v using induct with
  | null | bool | num | str => rfl
  | arr items ih =>
    simp only [mapNumbers, numbers]
    induction items with
    | nil => rfl
    | cons x rest ihrest =>
      rw [mapItems, numbersOfItems, numbersOfItems, List.map_append, ih x (by simp),
        ihrest (fun y hy => ih y (by simp [hy]))]
  | obj fields ih =>
    simp only [mapNumbers, numbers]
    induction fields with
    | nil => rfl
    | cons p rest ihrest =>
      obtain ⟨k, x⟩ := p
      rw [mapFields, numbersOfFields, numbersOfFields, List.map_append, ih (k, x) (by simp),
        ihrest (fun y hy => ih y (by simp [hy]))]

theorem mapNumbers_eq_self {f : String → String} (v : Json)
    (h : ∀ literal ∈ numbers v, f literal = literal) : mapNumbers f v = v := by
  induction v using induct with
  | null | bool | str => rfl
  | num literal => rw [mapNumbers, h literal (by simp [numbers])]
  | arr items ih =>
    rw [mapNumbers, mapItems_eq_map]
    congr 1
    refine (List.map_congr_left ?_).trans (List.map_id items)
    intro x hx
    exact ih x hx (fun l hl => h l (mem_numbersOfItems.2 ⟨x, hx, hl⟩))
  | obj fields ih =>
    rw [mapNumbers, mapFields_eq_map]
    congr 1
    refine (List.map_congr_left ?_).trans (List.map_id fields)
    intro p hp
    rw [ih p hp (fun l hl => h l (mem_numbersOfFields.2 ⟨p, hp, hl⟩))]
    rfl

/-- Rewriting succeeds if it does so on every literal. -/
theorem rewriteNumbers_of_forall {rewrite : String → Except Err String} (v : Json)
    (h : ∀ literal ∈ numbers v, rewrite literal = .ok (rewritten rewrite literal)) :
    rewriteNumbers rewrite v = .ok (mapNumbers (rewritten rewrite) v) := by
  induction v using induct with
  | null | bool | str => rfl
  | num literal =>
    rw [rewriteNumbers, h literal (by simp [numbers])]
    rfl
  | arr items ih =>
    have hitems : rewriteItems rewrite items = .ok (mapItems (rewritten rewrite) items) := by
      rw [numbers] at h
      induction items with
      | nil => rfl
      | cons x rest ihrest =>
        have hx := ih x (by simp) (fun l hl => h l (by simp [numbersOfItems, hl]))
        have hrest := ihrest (fun y hy => ih y (by simp [hy]))
          (fun l hl => h l (by simp [numbersOfItems, hl]))
        rw [rewriteItems, hx]
        simp only [hrest]
        rfl
    rw [rewriteNumbers, hitems]
    rfl
  | obj fields ih =>
    have hfields : rewriteFields rewrite fields = .ok (mapFields (rewritten rewrite) fields) := by
      rw [numbers] at h
      induction fields with
      | nil => rfl
      | cons p rest ihrest =>
        obtain ⟨k, x⟩ := p
        have hx := ih (k, x) (by simp) (fun l hl => h l (by simp [numbersOfFields, hl]))
        have hrest := ihrest (fun y hy => ih y (by simp [hy]))
          (fun l hl => h l (by simp [numbersOfFields, hl]))
        rw [rewriteFields, hx]
        simp only [hrest]
        rfl
    rw [rewriteNumbers, hfields]
    rfl

theorem exists_of_forall₂ {α β : Type} {R : α → β → Prop} {xs : List α} {ys : List β}
    (h : List.Forall₂ R xs ys) {x : α} (hx : x ∈ xs) : ∃ y ∈ ys, R x y := by
  induction h with
  | nil => cases hx
  | cons hxy _ ih =>
    rcases List.mem_cons.1 hx with rfl | hx
    · exact ⟨_, by simp, hxy⟩
    · obtain ⟨y, hy, hr⟩ := ih hx
      exact ⟨y, by simp [hy], hr⟩

theorem rewriteNumbers_ok {rewrite : String → Except Err String} (v : Json) :
    ∀ w, rewriteNumbers rewrite v = .ok w →
      ∀ literal ∈ numbers v, rewrite literal = .ok (rewritten rewrite literal) := by
  induction v using induct with
  | null | bool | str =>
    intro w h literal hl
    cases hl
  | num literal =>
    intro w h l hl
    rw [numbers, List.mem_singleton] at hl
    subst hl
    rw [rewriteNumbers] at h
    cases htext : rewrite l with
    | error err => rw [htext] at h; cases h
    | ok text => simp [rewritten, htext]
  | arr items ih =>
    intro w h l hl
    rw [rewriteNumbers] at h
    obtain ⟨x, hx, hl⟩ := mem_numbersOfItems.1 hl
    cases hitems : rewriteItems rewrite items with
    | error err => rw [hitems] at h; cases h
    | ok items' =>
      obtain ⟨y, -, hxy⟩ := exists_of_forall₂ (rewriteItems_ok hitems) hx
      exact ih x hx y hxy l hl
  | obj fields ih =>
    intro w h l hl
    rw [rewriteNumbers] at h
    obtain ⟨p, hp, hl⟩ := mem_numbersOfFields.1 hl
    cases hfields : rewriteFields rewrite fields with
    | error err => rw [hfields] at h; cases h
    | ok fields' =>
      obtain ⟨q, -, hpq⟩ := exists_of_forall₂ (rewriteFields_ok hfields) hp
      exact ih p hp q.2 hpq.2 l hl

theorem rewriteNumbers_eq_map {rewrite : String → Except Err String} {v w : Json}
    (h : rewriteNumbers rewrite v = .ok w) : w = mapNumbers (rewritten rewrite) v := by
  have hall := rewriteNumbers_of_forall v (rewriteNumbers_ok v w h)
  rw [h] at hall
  exact Except.ok.inj hall

theorem valid_of_numbers (v : Json) (h : ∀ literal ∈ numbers v, validNumber literal = true) :
    v.valid = true := by
  induction v using induct with
  | null | bool | str => rfl
  | num literal => exact h literal (by simp [numbers])
  | arr items ih =>
    rw [valid, validItems_iff]
    intro x hx
    exact ih x hx (fun l hl => h l (mem_numbersOfItems.2 ⟨x, hx, hl⟩))
  | obj fields ih =>
    rw [valid, validFields_iff]
    intro p hp
    exact ih p hp (fun l hl => h l (mem_numbersOfFields.2 ⟨p, hp, hl⟩))

/-- The literals of a rewritten value are texts that the rewriting gave. -/
theorem numbers_rewriteNumbers {rewrite : String → Except Err String} {v w : Json}
    (h : rewriteNumbers rewrite v = .ok w) {text : String} (ht : text ∈ numbers w) :
    ∃ literal ∈ numbers v, rewrite literal = .ok text := by
  rw [rewriteNumbers_eq_map h, numbers_mapNumbers] at ht
  obtain ⟨literal, hl, rfl⟩ := List.mem_map.1 ht
  exact ⟨literal, hl, rewriteNumbers_ok v w h literal hl⟩

theorem valid_of_writeNumber {v w : Json} (h : rewriteNumbers writeNumber v = .ok w) :
    w.valid = true := by
  apply valid_of_numbers
  intro text htext
  obtain ⟨literal, -, hl⟩ := numbers_rewriteNumbers h htext
  exact validNumber_of_writeNumber (writeNumber_idem hl)

theorem rewriteNumbers_writeNumber_idem {v w : Json}
    (h : rewriteNumbers writeNumber v = .ok w) : rewriteNumbers writeNumber w = .ok w := by
  have hfix : ∀ text ∈ numbers w, writeNumber text = .ok text := by
    intro text ht
    obtain ⟨literal, -, hl⟩ := numbers_rewriteNumbers h ht
    exact writeNumber_idem hl
  have hself : ∀ text ∈ numbers w, rewritten writeNumber text = text := by
    intro text ht
    simp [rewritten, hfix text ht]
  have hall := rewriteNumbers_of_forall w
    (fun text ht => by rw [hself text ht]; exact hfix text ht)
  rwa [mapNumbers_eq_self w hself] at hall

/-! ## Section 7: Meanings -/

/-- What a value says: its texts and structure, and the exact values of its
    numbers in order. To be read of normal values, whose fields are sorted. -/
def meaning (v : Json) : Json × List (Option ℚ) :=
  (mapNumbers (fun _ => "") v, (numbers v).map literalValue)

theorem mapNumbers_mapNumbers (f g : String → String) (v : Json) :
    mapNumbers g (mapNumbers f v) = mapNumbers (fun literal => g (f literal)) v := by
  induction v using induct with
  | null | bool | num | str => rfl
  | arr items ih =>
    simp only [mapNumbers, mapItems_eq_map, List.map_map]
    congr 1
    exact List.map_congr_left ih
  | obj fields ih =>
    simp only [mapNumbers, mapFields_eq_map, List.map_map]
    congr 1
    apply List.map_congr_left
    intro p hp
    simp only [Function.comp_apply, ih p hp]

theorem meaning_mapNumbers {f : String → String}
    (hf : ∀ literal, literalValue (f literal) = literalValue literal) (v : Json) :
    (mapNumbers f v).meaning = v.meaning := by
  unfold meaning
  rw [mapNumbers_mapNumbers, numbers_mapNumbers, List.map_map]
  congr 1
  exact List.map_congr_left (fun literal _ => hf literal)

theorem meaning_writeNumber {v w : Json} (h : rewriteNumbers writeNumber v = .ok w) :
    w.meaning = v.meaning := by
  rw [rewriteNumbers_eq_map h]
  apply meaning_mapNumbers
  intro literal
  unfold rewritten
  split
  · next text htext => exact literalValue_writeNumber htext
  · rfl

end Json

end AuditGovernance
