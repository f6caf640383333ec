import AuditGovernance.Framework.Decimal
import Mathlib.Algebra.Order.Floor.Semifield
import Mathlib.Data.Int.Log
import Mathlib.Data.Rat.Floor
import Mathlib.Tactic.Linarith
import Mathlib.Tactic.NormNum

/-! # Binary64 numbers and their shortest texts

    Rounding a non-negative rational to the nearest binary64 value, ties to
    even, and the shortest decimal text that reads back as that value, in
    exponent form when the number is very large or very small.

    Everything is exact rational arithmetic. The integers below `2 ^ 53` are
    binary64 values (`round_natCast`), and their shortest decimal is the
    integer itself (`shortest_natCast`).
-/

namespace Binary64

/-! ## Section 1: Rounding -/

/-- Round half to even. -/
def roundHalfEven (x : ℚ) : Nat :=
  if x - ⌊x⌋₊ < 1 / 2 then ⌊x⌋₊
  else if 1 / 2 < x - ⌊x⌋₊ then ⌊x⌋₊ + 1
  else if ⌊x⌋₊ % 2 = 0 then ⌊x⌋₊ else ⌊x⌋₊ + 1

/-- The exponent of the last place a binary64 number of this size has. -/
def quantum (x : ℚ) : Int := max (Int.log 2 x - 52) (-1074)

/-- The binary64 number nearest to a non-negative rational, without an upper
    bound on the exponent. -/
def round (x : ℚ) : ℚ := roundHalfEven (x / 2 ^ quantum x) * 2 ^ quantum x

/-- The least power of two that is out of range. -/
def overflow : ℚ := 2 ^ 1024

theorem roundHalfEven_natCast (n : Nat) : roundHalfEven n = n := by
  simp [roundHalfEven]

theorem floor_le_roundHalfEven (x : ℚ) : ⌊x⌋₊ ≤ roundHalfEven x := by
  unfold roundHalfEven
  split_ifs <;> omega

theorem log_lt {b n k : Nat} (hb : 1 < b) (hn : 0 < n) (hk : n < b ^ k) :
    Int.log b (n : ℚ) < k := by
  have hcast : ((n : Nat) : ℚ) < ((b : Nat) : ℚ) ^ ((k : Nat) : Int) := by
    rw [zpow_natCast]
    exact_mod_cast hk
  have hpos : (0 : ℚ) < n := by exact_mod_cast hn
  exact (Int.lt_zpow_iff_log_lt hb hpos).1 hcast

/-- Integers with at most 53 bits are binary64 numbers. -/
theorem round_natCast {n : Nat} (hn : n < 2 ^ 53) : round n = n := by
  rcases Nat.eq_zero_or_pos n with rfl | hpos
  · simp [round, roundHalfEven]
  have hlog := log_lt (b := 2) (by decide) hpos hn
  obtain ⟨k, hk⟩ : ∃ k : Nat, quantum n = -(k : Int) :=
    ⟨(-quantum n).toNat, by unfold quantum; omega⟩
  have hscaled : (n : ℚ) / 2 ^ quantum n = ((n * 2 ^ k : Nat) : ℚ) := by
    rw [hk, zpow_neg, zpow_natCast]
    push_cast
    field_simp
  rw [round, hscaled, roundHalfEven_natCast, hk, zpow_neg, zpow_natCast]
  push_cast
  field_simp

theorem round_nonneg (x : ℚ) : 0 ≤ round x :=
  mul_nonneg (Nat.cast_nonneg _) (zpow_nonneg (by norm_num) _)

/-- Rounding takes away less than half of a large number. -/
theorem le_round_of_large {x : ℚ} (hx : 2 ^ 53 ≤ x) : x / 2 ≤ round x := by
  have hpos : 0 < x := lt_of_lt_of_le (by norm_num) hx
  have hlog : (53 : Int) ≤ Int.log 2 x := by
    have h53 : ((2 : Nat) : ℚ) ^ (53 : Int) ≤ x := by exact_mod_cast hx
    exact (Int.zpow_le_iff_le_log (by decide) hpos).1 h53
  have hq : quantum x = Int.log 2 x - 52 := by
    unfold quantum
    omega
  have hunit : (0 : ℚ) < 2 ^ quantum x := zpow_pos (by norm_num) _
  have hle := Int.zpow_log_le_self (b := 2) (by decide) hpos
  -- one unit of the last place is at most half of the number
  have hhalf : (2 : ℚ) ^ quantum x ≤ x / 2 := by
    have hsmall : (2 : ℚ) ^ quantum x ≤ 2 ^ (Int.log 2 x - 1) := by
      apply zpow_le_zpow_right₀ (by norm_num)
      omega
    have hstep : (2 : ℚ) ^ (Int.log 2 x - 1) = 2 ^ Int.log 2 x / 2 := by
      rw [zpow_sub_one₀ (by norm_num)]
      rfl
    push_cast at hle
    rw [hstep] at hsmall
    linarith
  have hfloor : x / 2 ^ quantum x - 1 < (⌊x / 2 ^ quantum x⌋₊ : ℚ) := Nat.sub_one_lt_floor _
  have hround : (⌊x / 2 ^ quantum x⌋₊ : ℚ) ≤ roundHalfEven (x / 2 ^ quantum x) := by
    exact_mod_cast floor_le_roundHalfEven _
  calc x / 2 ≤ x - 2 ^ quantum x := by linarith
    _ = (x / 2 ^ quantum x - 1) * 2 ^ quantum x := by field_simp
    _ ≤ round x := by
        unfold round
        apply mul_le_mul_of_nonneg_right _ hunit.le
        linarith

/-! ## Section 2: The shortest decimal -/

/-- The exponent of the last of `k` significant decimal digits. -/
def lastPlace (f : ℚ) (k : Nat) : Int := Int.log 10 f + 1 - k

/-- The `k`-digit decimal nearest to `f` that still rounds to it: the digits
    cut off, or one more in the last place. -/
def candidate (f : ℚ) (k : Nat) : Option Nat :=
  let unit : ℚ := 10 ^ lastPlace f k
  let low := ⌊f / unit⌋₊
  let below := round (low * unit) = f
  let above := round ((low + 1 : Nat) * unit) = f
  if below ∧ (¬ above ∨ f - low * unit ≤ (low + 1 : Nat) * unit - f) then some low
  else if above then some (low + 1)
  else none

/-- The first of the lengths that has a decimal which rounds to `f`. -/
def firstCandidate (f : ℚ) : List Nat → Option (Nat × Int)
  | [] => none
  | k :: rest =>
    match candidate f k with
    | some c => some (c, lastPlace f k)
    | none => firstCandidate f rest

/-- The shortest decimal `c * 10 ^ p` that rounds to `f`; 17 digits always
    suffice. -/
def shortest (f : ℚ) : Nat × Int :=
  (firstCandidate f (List.range' 1 17)).getD (⌊f / 10 ^ lastPlace f 17⌋₊, lastPlace f 17)

theorem firstCandidate_some {f : ℚ} {c : Nat} {p : Int} {ks : List Nat}
    (h : firstCandidate f ks = some (c, p)) :
    ∃ k ∈ ks, candidate f k = some c ∧ p = lastPlace f k := by
  induction ks with
  | nil => cases h
  | cons k rest ih =>
    rw [firstCandidate] at h
    split at h
    · next c' hc =>
      cases h
      exact ⟨k, by simp, hc, rfl⟩
    · obtain ⟨k', hk', hrest⟩ := ih h
      exact ⟨k', by simp [hk'], hrest⟩

theorem firstCandidate_isSome {f : ℚ} {k : Nat} {ks : List Nat} (hk : k ∈ ks)
    (h : (candidate f k).isSome) : (firstCandidate f ks).isSome := by
  induction ks with
  | nil => cases hk
  | cons l rest ih =>
    rw [firstCandidate]
    split
    · rfl
    · next hnone =>
      rcases List.mem_cons.1 hk with rfl | hk
      · rw [hnone] at h
        cases h
      · exact ih hk

/-- Whatever is chosen is one of the two neighbours. -/
theorem candidate_eq {f : ℚ} {k c : Nat} (h : candidate f k = some c) :
    (c = ⌊f / 10 ^ lastPlace f k⌋₊ ∨ c = ⌊f / 10 ^ lastPlace f k⌋₊ + 1) ∧
      round (c * 10 ^ lastPlace f k) = f := by
  unfold candidate at h
  simp only at h
  split_ifs at h with hlow habove
  · cases h
    exact ⟨.inl rfl, hlow.1⟩
  · cases h
    exact ⟨.inr rfl, habove⟩

/-- An integer that is cut off nowhere is its own candidate. -/
theorem candidate_natCast_of_neg {n k : Nat} (hn : n < 2 ^ 53) (hp : lastPlace n k ≤ 0) :
    ∃ c : Nat, candidate n k = some c ∧ (c : ℚ) * 10 ^ lastPlace n k = n := by
  obtain ⟨j, hj⟩ : ∃ j : Nat, lastPlace n k = -(j : Int) := ⟨(-lastPlace n k).toNat, by omega⟩
  have hscaled : (n : ℚ) / 10 ^ lastPlace n k = ((n * 10 ^ j : Nat) : ℚ) := by
    rw [hj, zpow_neg, zpow_natCast]
    push_cast
    field_simp
  have hback : ((n * 10 ^ j : Nat) : ℚ) * 10 ^ lastPlace n k = n := by
    rw [hj, zpow_neg, zpow_natCast]
    push_cast
    field_simp
  have hunit : (0 : ℚ) < 10 ^ lastPlace (n : ℚ) k := zpow_pos (by norm_num) _
  refine ⟨n * 10 ^ j, ?_, hback⟩
  unfold candidate
  simp only
  rw [hscaled, Nat.floor_natCast, hback, if_pos]
  refine ⟨round_natCast hn, .inr ?_⟩
  have hstep : ((n * 10 ^ j + 1 : Nat) : ℚ) * 10 ^ lastPlace (n : ℚ) k =
      n + 10 ^ lastPlace (n : ℚ) k := by
    rw [Nat.cast_succ, add_mul, hback, one_mul]
  rw [hstep]
  linarith

/-- A candidate for an integer is the integer. -/
theorem candidate_natCast {n k c : Nat} (hpos : 0 < n) (hn : n < 10 ^ 6)
    (h : candidate n k = some c) : (c : ℚ) * 10 ^ lastPlace n k = n := by
  by_cases hp : lastPlace n k ≤ 0
  · obtain ⟨c', hc', heq⟩ := candidate_natCast_of_neg (show n < 2 ^ 53 by omega) hp
    rw [hc'] at h
    cases h
    exact heq
  · -- a multiple of a power of ten is an integer and rounds to itself
    obtain ⟨hc, hround⟩ := candidate_eq h
    obtain ⟨j, hj⟩ : ∃ j : Nat, lastPlace n k = (j : Int) := ⟨(lastPlace n k).toNat, by omega⟩
    have hlog := log_lt (b := 10) (by decide) hpos hn
    have hj6 : j ≤ 6 := by
      unfold lastPlace at hj
      omega
    rw [hj, zpow_natCast] at hround hc ⊢
    have hfloor : ⌊(n : ℚ) / 10 ^ j⌋₊ = n / 10 ^ j := by
      have := Nat.floor_div_eq_div (K := ℚ) n (10 ^ j)
      push_cast at this
      exact this
    rw [hfloor] at hc
    have hten : 10 ^ j ≤ 10 ^ 6 := Nat.pow_le_pow_right (by decide) hj6
    have hmul : n / 10 ^ j * 10 ^ j ≤ n := Nat.div_mul_le_self n (10 ^ j)
    have hsmall : c * 10 ^ j < 2 ^ 53 := by
      rcases hc with rfl | rfl
      · omega
      · rw [Nat.add_mul, Nat.one_mul]
        omega
    have hcast : (c : ℚ) * 10 ^ j = ((c * 10 ^ j : Nat) : ℚ) := by push_cast; rfl
    rw [hcast, round_natCast hsmall] at hround
    rw [hcast]
    exact hround

/-- **The shortest decimal of a small integer is the integer.** -/
theorem shortest_natCast {n : Nat} (hpos : 0 < n) (hn : n < 10 ^ 6) :
    ((shortest n).1 : ℚ) * 10 ^ (shortest n).2 = n := by
  have hlog := log_lt (b := 10) (by decide) hpos hn
  have hplace : lastPlace n 17 ≤ 0 := by
    unfold lastPlace
    push_cast
    omega
  obtain ⟨c, hc, -⟩ := candidate_natCast_of_neg (show n < 2 ^ 53 by omega) hplace
  have hmem : 17 ∈ List.range' 1 17 := by decide
  have hsome := firstCandidate_isSome hmem (Option.isSome_of_eq_some hc)
  obtain ⟨⟨c', p⟩, hfirst⟩ := Option.isSome_iff_exists.1 hsome
  obtain ⟨k, -, hk, rfl⟩ := firstCandidate_some hfirst
  unfold shortest
  rw [hfirst]
  exact candidate_natCast hpos hn hk

/-- The shortest decimal has the digits in front of the point that `f` has. -/
theorem shortest_size {f : ℚ} (hf : 0 < f) :
    ∃ k : Nat, 1 ≤ k ∧ (shortest f).2 = lastPlace f k ∧ 10 ^ (k - 1) ≤ (shortest f).1 := by
  have hcut : ∀ k : Nat, 1 ≤ k → 10 ^ (k - 1) ≤ ⌊f / 10 ^ lastPlace f k⌋₊ := by
    intro k hk
    apply Nat.le_floor
    have hunit : (0 : ℚ) < 10 ^ lastPlace f k := zpow_pos (by norm_num) _
    rw [le_div_iff₀ hunit]
    have hle := Int.zpow_log_le_self (b := 10) (by decide) hf
    push_cast at hle ⊢
    calc (10 : ℚ) ^ (k - 1) * 10 ^ lastPlace f k = 10 ^ Int.log 10 f := by
          rw [← zpow_natCast, ← zpow_add₀ (by norm_num)]
          congr 1
          unfold lastPlace
          omega
      _ ≤ f := hle
  cases hfirst : firstCandidate f (List.range' 1 17) with
  | none =>
    refine ⟨17, by decide, ?_, ?_⟩
    · simp [shortest, hfirst]
    · simpa [shortest, hfirst] using hcut 17 (by decide)
  | some cp =>
    obtain ⟨c, p⟩ := cp
    obtain ⟨k, hk, hc, rfl⟩ := firstCandidate_some hfirst
    have hk1 : 1 ≤ k := (List.mem_range'_1.1 hk).1
    refine ⟨k, hk1, by simp [shortest, hfirst], ?_⟩
    have hlow := hcut k hk1
    have hchosen : c = ⌊f / 10 ^ lastPlace f k⌋₊ ∨ c = ⌊f / 10 ^ lastPlace f k⌋₊ + 1 :=
      (candidate_eq hc).1
    simp only [shortest, hfirst, Option.getD_some]
    omega

theorem shortest_pos {f : ℚ} (hf : 0 < f) : 0 < (shortest f).1 := by
  obtain ⟨k, -, -, hsize⟩ := shortest_size hf
  exact lt_of_lt_of_le (Nat.pow_pos (by decide)) hsize

/-! ## Section 3: Text -/

/-- An exponent, with its sign and at least two digits. -/
def exponentText (e : Int) : List Char :=
  let digits := Nat.toDigits 10 e.natAbs
  'e' :: (if e < 0 then '-' else '+') :: (if digits.length < 2 then '0' :: digits else digits)

/-- Exponent form: one digit in front of the point. -/
def scientific (negative : Bool) (digits : List Char) (e : Int) : List Char :=
  (if negative then ['-'] else []) ++ digits.take 1 ++
    (if digits.length ≤ 1 then [] else '.' :: digits.drop 1) ++ exponentText e

theorem mem_scientific (negative : Bool) (digits : List Char) (e : Int) :
    'e' ∈ scientific negative digits e := by
  unfold scientific exponentText
  simp

/-- The shortest text of a binary64 number: plain for decimal exponents from
    -4 to 5, otherwise in exponent form. -/
def text (negative : Bool) (f : ℚ) : List Char :=
  if f = 0 then (if negative then ['-'] else []) ++ ['0']
  else
    let all := Nat.toDigits 10 (shortest f).1
    let digits := Decimal.significant all
    let point : Int := all.length + (shortest f).2
    if point - 1 < -4 ∨ 6 ≤ point - 1 then scientific negative digits (point - 1)
    else Decimal.fixed negative digits (digits.length - point)

/-- Large numbers are written in exponent form. -/
theorem mem_text_of_large {f : ℚ} (hf : 10 ^ 6 ≤ f) (negative : Bool) : 'e' ∈ text negative f := by
  have hpos : 0 < f := lt_of_lt_of_le (by norm_num) hf
  obtain ⟨k, hk, hplace, hsize⟩ := shortest_size hpos
  have hlog : (6 : Int) ≤ Int.log 10 f := by
    have h6 : ((10 : Nat) : ℚ) ^ (6 : Int) ≤ f := by exact_mod_cast hf
    exact (Int.zpow_le_iff_le_log (by decide) hpos).1 h6
  have hlen : k ≤ (Nat.toDigits 10 (shortest f).1).length := by
    by_contra hshort
    rcases Nat.eq_zero_or_pos (k - 1) with hone | hmore
    · have := Nat.length_toDigits_pos (b := 10) (n := (shortest f).1)
      omega
    · have hlt := (Nat.length_toDigits_le_iff (b := 10) (n := (shortest f).1) (by decide)
        hmore).1 (by omega)
      omega
  unfold text
  rw [if_neg hpos.ne']
  simp only
  rw [if_pos]
  · exact mem_scientific _ _ _
  · right
    rw [hplace]
    unfold lastPlace
    omega

example : text false (round (1 / 10)) = ['0', '.', '1'] := by decide +kernel

example : text true (round (10 ^ 22 + 1)) = ['-', '1', 'e', '+', '2', '2'] := by decide +kernel

end Binary64
