import Mathlib.Algebra.Order.Field.Rat
import Mathlib.Data.List.DropRight
import Mathlib.Tactic.FieldSimp
import Mathlib.Tactic.NormNum
import Mathlib.Tactic.Ring

/-! # Decimal digits

    Runs of decimal digits, the number they stand for, and their fixed-point
    text. A run without leading and trailing zeros together with the place of
    the point is the normal form of a positive decimal number: the text
    determines both (`significant_pad`, `trailing_pad`).
-/

namespace Decimal

/-! ## Section 1: The number a run stands for -/

def isZero (c : Char) : Bool := c = '0'

/-- The number a run of digits stands for. -/
def value (digits : List Char) : Nat := Nat.ofDigitChars 10 digits 0

@[simp] theorem value_nil : value [] = 0 := rfl

theorem value_append (a b : List Char) : value (a ++ b) = value a * 10 ^ b.length + value b := by
  unfold value
  rw [Nat.ofDigitChars_append, Nat.ofDigitChars_eq_ofDigitChars_zero]
  ring

theorem value_zeros (n : Nat) : value (List.replicate n '0') = 0 := by
  rw [value, Nat.ofDigitChars_replicate_zero, Nat.mul_zero]

/-- Runs of zeros in front do not count. -/
theorem value_zeros_append (n : Nat) (digits : List Char) :
    value (List.replicate n '0' ++ digits) = value digits := by
  rw [value_append, value_zeros, Nat.zero_mul, Nat.zero_add]

theorem value_append_zeros (digits : List Char) (n : Nat) :
    value (digits ++ List.replicate n '0') = value digits * 10 ^ n := by
  rw [value_append, value_zeros, List.length_replicate, Nat.add_zero]

/-! ## Section 2: Significant digits -/

/-- The digits without leading and trailing zeros. -/
def significant (digits : List Char) : List Char := (digits.rdropWhile isZero).dropWhile isZero

/-- How many trailing zeros there are. -/
def trailing (digits : List Char) : Nat := digits.length - (digits.rdropWhile isZero).length

theorem eq_zeros {zeros : List Char} (h : ∀ c ∈ zeros, isZero c = true) :
    zeros = List.replicate zeros.length '0' := by
  apply List.eq_replicate_of_mem
  intro c hc
  simpa [isZero] using h c hc

theorem dropWhile_zeros (digits : List Char) :
    ∃ n, digits = List.replicate n '0' ++ digits.dropWhile isZero := by
  refine ⟨(digits.takeWhile isZero).length, ?_⟩
  rw [← eq_zeros (fun c hc => List.mem_takeWhile_imp hc), List.takeWhile_append_dropWhile]

theorem rdropWhile_zeros (digits : List Char) :
    digits = digits.rdropWhile isZero ++ List.replicate (trailing digits) '0' := by
  obtain ⟨n, hn⟩ := dropWhile_zeros digits.reverse
  have hsplit : digits = digits.rdropWhile isZero ++ List.replicate n '0' := by
    have hrev := congrArg List.reverse hn
    rwa [List.reverse_reverse, List.reverse_append, List.reverse_replicate] at hrev
  have hlen : trailing digits = n := by
    have := congrArg List.length hsplit
    simp only [List.length_append, List.length_replicate] at this
    unfold trailing
    omega
  rw [hlen]
  exact hsplit

/-- The number in terms of its significant digits. -/
theorem value_significant (digits : List Char) :
    value digits = value (significant digits) * 10 ^ trailing digits := by
  conv_lhs => rw [rdropWhile_zeros digits]
  rw [value_append_zeros]
  obtain ⟨n, hn⟩ := dropWhile_zeros (digits.rdropWhile isZero)
  conv_lhs => rw [hn, value_zeros_append]
  rfl

/-- A non-empty run of digits that neither starts nor ends with a zero. -/
structure Significant (digits : List Char) : Prop where
  digit : ∀ c ∈ digits, c.isDigit = true
  head : ∃ c rest, digits = c :: rest ∧ c ≠ '0'
  last : ∃ rest c, digits = rest ++ [c] ∧ c ≠ '0'

theorem significant_spec {digits : List Char} (h : ∀ c ∈ digits, c.isDigit = true) :
    significant digits = [] ∨ Significant (significant digits) := by
  by_cases hnil : significant digits = []
  · exact .inl hnil
  refine .inr ⟨?_, ?_, ?_⟩
  · intro c hc
    exact h c ((List.rdropWhile_prefix isZero _).subset ((List.dropWhile_sublist isZero).subset hc))
  · obtain ⟨c, rest, hcons⟩ := List.exists_cons_of_ne_nil hnil
    refine ⟨c, rest, hcons, ?_⟩
    have hhead := List.head_dropWhile_not isZero hnil
    have hc : (List.dropWhile isZero (digits.rdropWhile isZero)).head hnil = c := by
      simp only [significant] at hcons
      simp [hcons]
    rw [hc] at hhead
    simpa [isZero] using hhead
  · obtain ⟨rest, c, hconcat⟩ := (List.eq_nil_or_concat (significant digits)).resolve_left hnil
    rw [List.concat_eq_append] at hconcat
    refine ⟨rest, c, hconcat, ?_⟩
    obtain ⟨n, hn⟩ := dropWhile_zeros (digits.rdropWhile isZero)
    have hr : digits.rdropWhile isZero = (List.replicate n '0' ++ rest) ++ [c] := by
      rw [List.append_assoc, ← hconcat]
      exact hn
    have hne : digits.rdropWhile isZero ≠ [] := by simp [hr]
    have hlast := List.rdropWhile_last_not isZero digits hne
    have hc : (digits.rdropWhile isZero).getLast hne = c := by simp [hr]
    rw [hc] at hlast
    simpa [isZero] using hlast

theorem Significant.ne_nil {digits : List Char} (h : Significant digits) : digits ≠ [] := by
  obtain ⟨c, rest, rfl, -⟩ := h.head
  simp

theorem rdropWhile_append_zeros (digits : List Char) (n : Nat) :
    (digits ++ List.replicate n '0').rdropWhile isZero = digits.rdropWhile isZero := by
  induction n with
  | zero => simp
  | succ n ih =>
    rw [List.replicate_succ', ← List.append_assoc, List.rdropWhile_concat_pos _ _ _ (by rfl), ih]

/-- Zeros on either side are what `significant` takes away. -/
theorem rdropWhile_pad {digits : List Char} (h : Significant digits) (m n : Nat) :
    (List.replicate m '0' ++ digits ++ List.replicate n '0').rdropWhile isZero =
      List.replicate m '0' ++ digits := by
  rw [rdropWhile_append_zeros]
  obtain ⟨rest, c, rfl, hc⟩ := h.last
  rw [← List.append_assoc, List.rdropWhile_concat_neg _ _ _ (by simpa [isZero] using hc)]

theorem significant_pad {digits : List Char} (h : Significant digits) (m n : Nat) :
    significant (List.replicate m '0' ++ digits ++ List.replicate n '0') = digits := by
  rw [significant, rdropWhile_pad h]
  obtain ⟨c, rest, rfl, hc⟩ := h.head
  rw [List.dropWhile_append_of_pos (by simp [isZero]),
    List.dropWhile_cons_of_neg (by simpa [isZero] using hc)]

theorem trailing_pad {digits : List Char} (h : Significant digits) (m n : Nat) :
    trailing (List.replicate m '0' ++ digits ++ List.replicate n '0') = n := by
  rw [trailing, rdropWhile_pad h]
  simp only [List.length_append, List.length_replicate]
  omega

/-- Without zeros in front, only the trailing ones are taken away. -/
theorem significant_append_trailing {digits : List Char}
    (h : ∃ c rest, digits = c :: rest ∧ c ≠ '0') :
    digits = significant digits ++ List.replicate (trailing digits) '0' := by
  have hr := rdropWhile_zeros digits
  obtain ⟨c, rest, heq, hc⟩ := h
  have hdrop : (digits.rdropWhile isZero).dropWhile isZero = digits.rdropWhile isZero := by
    cases hcons : digits.rdropWhile isZero with
    | nil => rfl
    | cons d more =>
      have hd : c = d := by
        rw [hcons, heq, List.cons_append] at hr
        exact (List.cons.inj hr).1
      rw [List.dropWhile_cons_of_neg (by simpa [isZero, ← hd] using hc)]
  rw [significant, hdrop]
  exact hr

/-! ## Section 3: Digits and values determine each other -/

theorem value_concat (rest : List Char) (c : Char) :
    value (rest ++ [c]) = value rest * 10 + (c.toNat - 48) := by
  rw [value_append]
  simp [value, Nat.ofDigitChars_cons]

theorem toNat_of_isDigit {c : Char} (h : c.isDigit = true) : 48 ≤ c.toNat ∧ c.toNat ≤ 57 :=
  Char.isDigit_iff_toNat.1 h


theorem digitChar_toNat {c : Char} (h : c.isDigit = true) : Nat.digitChar (c.toNat - 48) = c := by
  have hbounds := toNat_of_isDigit h
  apply Char.toNat_inj.1
  rw [Nat.toNat_digitChar_of_lt_ten (by omega)]
  omega

theorem toNat_ne_of_ne_zero {c : Char} (h : c ≠ '0') : c.toNat ≠ 48 :=
  fun heq => h (Char.toNat_inj.1 heq)

theorem value_pos {c : Char} {rest : List Char} (hc : c.isDigit = true) (hne : c ≠ '0') :
    0 < value (c :: rest) := by
  have hbounds := toNat_of_isDigit hc
  have hnz := toNat_ne_of_ne_zero hne
  rw [← List.singleton_append, value_append]
  have hone : 0 < value [c] := by
    simp only [value, Nat.ofDigitChars_cons, Nat.ofDigitChars_nil]
    show 0 < 10 * 0 + (c.toNat - 48)
    omega
  have hpow : 0 < value [c] * 10 ^ rest.length := Nat.mul_pos hone (Nat.pow_pos (by decide))
  omega

/-- A run of digits that does not start with a zero is what its value is
    written as. -/
theorem toDigits_value {digits : List Char} (hd : ∀ c ∈ digits, c.isDigit = true)
    (hh : ∃ c rest, digits = c :: rest ∧ c ≠ '0') : Nat.toDigits 10 (value digits) = digits := by
  induction digits using List.reverseRecOn with
  | nil =>
    obtain ⟨c, rest, heq, -⟩ := hh
    cases heq
  | append_singleton rest c ih =>
    have hc : c.isDigit = true := hd c (by simp)
    have hbounds := toNat_of_isDigit hc
    rw [value_concat]
    cases rest with
    | nil =>
      rw [value_nil, Nat.zero_mul, Nat.zero_add, Nat.toDigits_of_lt_base (by omega),
        digitChar_toNat hc]
      rfl
    | cons d more =>
      obtain ⟨c', rest', heq, hne⟩ := hh
      rw [List.cons_append] at heq
      cases heq
      have hd' : ∀ x ∈ d :: more, x.isDigit = true := fun x hx => hd x (by
        rw [List.mem_append]
        exact .inl hx)
      have hpos : 0 < value (d :: more) := value_pos (hd' d (by simp)) hne
      have hdiv : (value (d :: more) * 10 + (c.toNat - 48)) / 10 = value (d :: more) := by omega
      have hmod : (value (d :: more) * 10 + (c.toNat - 48)) % 10 = c.toNat - 48 := by omega
      rw [Nat.toDigits_of_base_le (by decide) (by omega), hdiv, hmod, digitChar_toNat hc,
        ih hd' ⟨d, more, rfl, hne⟩]

theorem Significant.not_dvd {digits : List Char} (h : Significant digits) :
    value digits % 10 ≠ 0 := by
  obtain ⟨rest, c, rfl, hne⟩ := h.last
  have hbounds := toNat_of_isDigit (h.digit c (by simp))
  have hnz := toNat_ne_of_ne_zero hne
  rw [value_concat]
  omega

theorem Significant.scale_le {d d' : List Char} (h' : Significant d') {s s' : Int}
    (heq : (value d : ℚ) * 10 ^ (-s) = value d' * 10 ^ (-s')) : s' ≤ s := by
  by_contra hlt
  obtain ⟨k, hk⟩ : ∃ k : Nat, s' = s + (k + 1 : Nat) := ⟨(s' - s).toNat - 1, by omega⟩
  -- multiplied out, the digits of the finer scale would end in a zero
  have hmul : (value d' : ℚ) = value d * 10 ^ (k + 1) := by
    have hpos : (10 : ℚ) ^ (-s') ≠ 0 := zpow_ne_zero _ (by norm_num)
    have hsplit : (10 : ℚ) ^ (-s) = 10 ^ (-s') * 10 ^ (k + 1) := by
      rw [← zpow_natCast, ← zpow_add₀ (by norm_num)]
      congr 1
      omega
    rw [hsplit] at heq
    apply mul_right_cancel₀ hpos
    rw [← heq]
    ring
  have hnat : value d' = value d * 10 ^ (k + 1) := by exact_mod_cast hmul
  apply h'.not_dvd
  rw [hnat, pow_succ, ← Nat.mul_assoc]
  exact Nat.mul_mod_left _ _

/-- The normal form of a positive decimal number is unique. -/
theorem Significant.unique {d d' : List Char} (h : Significant d) (h' : Significant d')
    {s s' : Int} (heq : (value d : ℚ) * 10 ^ (-s) = value d' * 10 ^ (-s')) :
    d = d' ∧ s = s' := by
  have hs : s = s' := le_antisymm (h.scale_le heq.symm) (h'.scale_le heq)
  subst hs
  refine ⟨?_, rfl⟩
  have hpos : (10 : ℚ) ^ (-s) ≠ 0 := zpow_ne_zero _ (by norm_num)
  have hvalue : value d = value d' := by exact_mod_cast mul_right_cancel₀ hpos heq
  rw [← toDigits_value h.digit h.head, ← toDigits_value h'.digit h'.head, hvalue]

/-! ## Section 4: Fixed-point text -/

/-- A sign and digits, `scale` of which stand behind the point. -/
def fixed (negative : Bool) (digits : List Char) (scale : Int) : List Char :=
  let sign := if negative then ['-'] else []
  if scale ≤ 0 then sign ++ digits ++ List.replicate (-scale).toNat '0'
  else if (digits.length : Int) ≤ scale then
    sign ++ '0' :: '.' :: List.replicate (scale.toNat - digits.length) '0' ++ digits
  else
    sign ++ digits.take (digits.length - scale.toNat) ++
      '.' :: digits.drop (digits.length - scale.toNat)

theorem mem_fixed {negative : Bool} {digits : List Char} {scale : Int} {c : Char}
    (h : c ∈ fixed negative digits scale) : c ∈ digits ∨ c = '-' ∨ c = '.' ∨ c = '0' := by
  have hsign : c ∈ (if negative then ['-'] else []) → c = '-' := by
    cases negative <;> simp
  unfold fixed at h
  simp only at h
  by_cases hscale : scale ≤ 0
  · rw [if_pos hscale, List.mem_append, List.mem_append] at h
    rcases h with (h | h) | h
    · exact .inr (.inl (hsign h))
    · exact .inl h
    · exact .inr (.inr (.inr (List.eq_of_mem_replicate h)))
  by_cases hlen : (digits.length : Int) ≤ scale
  · rw [if_neg hscale, if_pos hlen, List.append_assoc, List.mem_append, List.cons_append,
      List.cons_append, List.mem_cons, List.mem_cons, List.mem_append] at h
    rcases h with h | h | h | h | h
    · exact .inr (.inl (hsign h))
    · exact .inr (.inr (.inr h))
    · exact .inr (.inr (.inl h))
    · exact .inr (.inr (.inr (List.eq_of_mem_replicate h)))
    · exact .inl h
  · rw [if_neg hscale, if_neg hlen, List.mem_append, List.mem_append, List.mem_cons] at h
    rcases h with (h | h) | h | h
    · exact .inr (.inl (hsign h))
    · exact .inl (List.mem_of_mem_take h)
    · exact .inr (.inr (.inl h))
    · exact .inl (List.mem_of_mem_drop h)

end Decimal
