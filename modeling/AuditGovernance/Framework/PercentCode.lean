import Mathlib

/-! # Percent escapes

    Bytes written as text: a byte of a safe alphabet stands for itself, every
    other byte is a percent sign with two hexadecimal digits. Reading inverts
    writing, so the code is injective, and the length of a text is known from
    the number of escaped bytes.
-/

namespace PercentCode

/-- The bytes that stand for themselves: ASCII, without the percent sign. -/
structure Alphabet where
  safe : Nat → Bool
  ascii : ∀ b, safe b = true → b < 128
  percent : safe 37 = false

def upperHex (n : Nat) : Char := if n < 10 then Char.ofNat (48 + n) else Char.ofNat (55 + n)

def hexValue (c : Char) : Option Nat :=
  if 48 ≤ c.toNat ∧ c.toNat ≤ 57 then some (c.toNat - 48)
  else if 65 ≤ c.toNat ∧ c.toNat ≤ 70 then some (c.toNat - 55)
  else none

/-- One byte. -/
def encodeByte (a : Alphabet) (b : Nat) : List Char :=
  if a.safe b then [Char.ofNat b] else ['%', upperHex (b / 16), upperHex (b % 16)]

def encode (a : Alphabet) (bytes : List Nat) : List Char := bytes.flatMap (encodeByte a)

/-- Read escapes back. -/
def decode : List Char → Option (List Nat)
  | [] => some []
  | [c] => if c = '%' then none else some [c.toNat]
  | [c, d] => if c = '%' ∨ d = '%' then none else some [c.toNat, d.toNat]
  | c :: d :: e :: rest =>
    if c = '%' then
      match hexValue d, hexValue e with
      | some hi, some lo => (decode rest).map (fun bytes => (hi * 16 + lo) :: bytes)
      | _, _ => none
    else (decode (d :: e :: rest)).map (fun bytes => c.toNat :: bytes)

theorem hexValue_upperHex {n : Nat} (h : n < 16) : hexValue (upperHex n) = some n := by
  interval_cases n <;> decide

theorem upperHex_lt {n : Nat} (h : n < 16) : (upperHex n).toNat < 128 := by
  interval_cases n <;> decide

/-- A character that is not the percent sign stands for itself. -/
theorem decode_cons {c : Char} (hc : c ≠ '%') (rest : List Char) :
    decode (c :: rest) = (decode rest).map (fun bytes => c.toNat :: bytes) := by
  match rest with
  | [] => simp [decode, hc]
  | [d] =>
    by_cases hd : d = '%'
    · simp [decode, hd]
    · simp [decode, hc, hd]
  | d :: e :: rest => simp [decode, hc]

variable {a : Alphabet}

theorem toNat_ofNat_ascii {b : Nat} (h : b < 128) : (Char.ofNat b).toNat = b := by
  rw [Char.toNat_ofNat, if_pos]
  exact .inl (by omega)

theorem ofNat_safe_ne {b : Nat} (h : a.safe b = true) : Char.ofNat b ≠ '%' := by
  intro heq
  have hb := toNat_ofNat_ascii (a.ascii b h)
  rw [heq] at hb
  have hpercent : b = 37 := hb.symm
  rw [hpercent, a.percent] at h
  cases h

theorem decode_encodeByte {b : Nat} (hb : b < 256) (rest : List Char) :
    decode (encodeByte a b ++ rest) = (decode rest).map (fun bytes => b :: bytes) := by
  unfold encodeByte
  split_ifs with hsafe
  · rw [List.singleton_append, decode_cons (ofNat_safe_ne hsafe),
      toNat_ofNat_ascii (a.ascii b hsafe)]
  · have hhi : b / 16 < 16 := by omega
    have hlo : b % 16 < 16 := by omega
    have hsum : b / 16 * 16 + b % 16 = b := by omega
    simp only [List.cons_append, List.nil_append, decode, if_pos, hexValue_upperHex hhi,
      hexValue_upperHex hlo, hsum]

/-- **Reading inverts writing.** -/
theorem decode_encode {bytes : List Nat} (h : ∀ b ∈ bytes, b < 256) :
    decode (encode a bytes) = some bytes := by
  induction bytes with
  | nil => rfl
  | cons b rest ih =>
    have ih := ih (fun c hc => h c (List.mem_cons_of_mem _ hc))
    unfold encode at ih ⊢
    rw [List.flatMap_cons, decode_encodeByte (h b List.mem_cons_self), ih]
    rfl

/-- How long a byte gets. -/
theorem length_encodeByte (b : Nat) :
    (encodeByte a b).length = if a.safe b then 1 else 3 := by
  unfold encodeByte
  split_ifs <;> rfl

/-- Every byte counts once, an escaped one twice more. -/
theorem length_encode (bytes : List Nat) :
    (encode a bytes).length = bytes.length + 2 * bytes.countP (fun b => !a.safe b) := by
  induction bytes with
  | nil => rfl
  | cons b rest ih =>
    unfold encode at ih ⊢
    rw [List.flatMap_cons, List.length_append, ih, length_encodeByte, List.countP_cons,
      List.length_cons]
    cases a.safe b <;> simp <;> omega

/-- The characters of an encoded text. -/
theorem mem_encode {bytes : List Nat} (h : ∀ b ∈ bytes, b < 256) {c : Char}
    (hc : c ∈ encode a bytes) :
    a.safe c.toNat = true ∨ c = '%' ∨ ∃ n < 16, c = upperHex n := by
  obtain ⟨b, hb, hmem⟩ := List.mem_flatMap.1 hc
  unfold encodeByte at hmem
  split_ifs at hmem with hsafe
  · rw [List.mem_singleton] at hmem
    subst hmem
    rw [toNat_ofNat_ascii (a.ascii b hsafe)]
    exact .inl hsafe
  · have hlt := h b hb
    simp only [List.mem_cons, List.not_mem_nil, or_false] at hmem
    rcases hmem with rfl | rfl | rfl
    · exact .inr (.inl rfl)
    · exact .inr (.inr ⟨b / 16, by omega, rfl⟩)
    · exact .inr (.inr ⟨b % 16, by omega, rfl⟩)

/-- Encoded texts are ASCII. -/
theorem ascii_of_mem_encode {bytes : List Nat} (h : ∀ b ∈ bytes, b < 256) {c : Char}
    (hc : c ∈ encode a bytes) : c.toNat < 128 := by
  rcases mem_encode h hc with hsafe | rfl | ⟨n, hn, rfl⟩
  · exact a.ascii _ hsafe
  · decide
  · exact upperHex_lt hn

/-- Bytes of the alphabet are left as they are. -/
theorem encode_of_safe {chars : List Char} (h : ∀ c ∈ chars, a.safe c.toNat = true) :
    encode a (chars.map Char.toNat) = chars := by
  induction chars with
  | nil => rfl
  | cons c rest ih =>
    have ih := ih (fun d hd => h d (List.mem_cons_of_mem _ hd))
    unfold encode at ih ⊢
    rw [List.map_cons, List.flatMap_cons, ih, encodeByte, if_pos (h c List.mem_cons_self),
      Char.ofNat_toNat, List.singleton_append]

end PercentCode
