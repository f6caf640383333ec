import Mathlib.Data.List.Basic

/-! # Base64 texts

    The unpadded, URL-safe base64 code, and texts carried by it as UTF-8.
    Reading is lenient in two ways: line ends are skipped, and unused bits of
    the last digit are ignored. Bytes that are no UTF-8 are read as the
    replacement character, one for each byte.
-/

namespace Base64

/-! ## Section 1: Digits -/

/-- The digit of a six-bit number. -/
def digit (n : Nat) : Char :=
  if n < 26 then Char.ofNat (65 + n)
  else if n < 52 then Char.ofNat (71 + n)
  else if n < 62 then Char.ofNat (n - 4)
  else if n = 62 then '-'
  else '_'

/-- The number of a digit. -/
def value (c : Char) : Option Nat :=
  if 'A' ≤ c ∧ c ≤ 'Z' then some (c.toNat - 65)
  else if 'a' ≤ c ∧ c ≤ 'z' then some (c.toNat - 71)
  else if '0' ≤ c ∧ c ≤ '9' then some (c.toNat + 4)
  else if c = '-' then some 62
  else if c = '_' then some 63
  else none

theorem value_digit {n : Nat} (h : n < 64) : value (digit n) = some n := by
  have hall : ∀ m : Fin 64, value (digit m.val) = some m.val := by decide
  exact hall ⟨n, h⟩

theorem digit_lineEnd {n : Nat} (h : n < 64) : digit n ≠ '\r' ∧ digit n ≠ '\n' := by
  have hall : ∀ m : Fin 64, digit m.val ≠ '\r' ∧ digit m.val ≠ '\n' := by decide
  exact hall ⟨n, h⟩

/-! ## Section 2: Bytes -/

/-- Three bytes take four digits; one or two bytes at the end take two or
    three. -/
def encodeValues : List UInt8 → List Nat
  | [] => []
  | [a] => [a.toNat / 4, a.toNat % 4 * 16]
  | [a, b] => [a.toNat / 4, a.toNat % 4 * 16 + b.toNat / 16, b.toNat % 16 * 4]
  | a :: b :: c :: rest =>
    a.toNat / 4 :: (a.toNat % 4 * 16 + b.toNat / 16) :: (b.toNat % 16 * 4 + c.toNat / 64) ::
      c.toNat % 64 :: encodeValues rest

/-- The bytes of a list of six-bit numbers. A single number at the end is not
    enough for a byte. -/
def decodeValues : List Nat → Option (List UInt8)
  | [] => some []
  | [_] => none
  | [x, y] => some [UInt8.ofNat (x * 4 + y / 16)]
  | [x, y, z] => some [UInt8.ofNat (x * 4 + y / 16), UInt8.ofNat (y % 16 * 16 + z / 4)]
  | x :: y :: z :: w :: rest =>
    (decodeValues rest).map fun bytes =>
      UInt8.ofNat (x * 4 + y / 16) :: UInt8.ofNat (y % 16 * 16 + z / 4) ::
        UInt8.ofNat (z % 4 * 64 + w) :: bytes

theorem encodeValues_lt (bytes : List UInt8) : ∀ n ∈ encodeValues bytes, n < 64 := by
  induction bytes using encodeValues.induct with
  | case1 => simp [encodeValues]
  | case2 a =>
    have ha := a.toNat_lt
    simp only [encodeValues, List.mem_cons, List.not_mem_nil, or_false, forall_eq_or_imp,
      forall_eq]
    omega
  | case3 a b =>
    have ha := a.toNat_lt
    have hb := b.toNat_lt
    simp only [encodeValues, List.mem_cons, List.not_mem_nil, or_false, forall_eq_or_imp,
      forall_eq]
    omega
  | case4 a b c rest ih =>
    have ha := a.toNat_lt
    have hb := b.toNat_lt
    have hc := c.toNat_lt
    simp only [encodeValues, List.mem_cons, forall_eq_or_imp]
    refine ⟨by omega, by omega, by omega, by omega, ih⟩

/-- A byte put together from its two parts. -/
theorem byte_eq {a : UInt8} {n : Nat} (h : n = a.toNat) : UInt8.ofNat n = a := by
  rw [h, UInt8.ofNat_toNat]

theorem decodeValues_encodeValues (bytes : List UInt8) :
    decodeValues (encodeValues bytes) = some bytes := by
  induction bytes using encodeValues.induct with
  | case1 => rfl
  | case2 a =>
    simp only [encodeValues, decodeValues]
    rw [@byte_eq a _ (by omega)]
  | case3 a b =>
    have hb := b.toNat_lt
    simp only [encodeValues, decodeValues]
    rw [@byte_eq a _ (by omega), @byte_eq b _ (by omega)]
  | case4 a b c rest ih =>
    have hb := b.toNat_lt
    have hc := c.toNat_lt
    simp only [encodeValues, decodeValues, ih, Option.map_some]
    rw [@byte_eq a _ (by omega), @byte_eq b _ (by omega), @byte_eq c _ (by omega)]

def encodeBytes (bytes : List UInt8) : List Char := (encodeValues bytes).map digit

/-- Line ends are skipped; any other character must be a digit. -/
def decodeBytes (text : List Char) : Option (List UInt8) :=
  ((text.filter (fun c => c ≠ '\r' ∧ c ≠ '\n')).mapM value).bind decodeValues

theorem mapM_value_digit {numbers : List Nat} (h : ∀ n ∈ numbers, n < 64) :
    (numbers.map digit).mapM value = some numbers := by
  induction numbers with
  | nil => rfl
  | cons n rest ih =>
    have hrest := ih fun m hm => h m (List.mem_cons_of_mem _ hm)
    simp [List.mapM_cons, value_digit (h n List.mem_cons_self), hrest]

theorem decodeBytes_encodeBytes (bytes : List UInt8) :
    decodeBytes (encodeBytes bytes) = some bytes := by
  have hlt := encodeValues_lt bytes
  have hfilter : (encodeBytes bytes).filter (fun c => c ≠ '\r' ∧ c ≠ '\n') = encodeBytes bytes := by
    rw [List.filter_eq_self]
    intro c hc
    obtain ⟨n, hn, rfl⟩ := List.mem_map.1 hc
    simpa using digit_lineEnd (hlt n hn)
  unfold decodeBytes
  rw [hfilter, encodeBytes, mapM_value_digit hlt]
  exact decodeValues_encodeValues bytes

/-! ## Section 3: Texts -/

def utf8 (text : List Char) : List UInt8 := text.flatMap String.utf8EncodeChar

def replacement : Char := Char.ofNat 0xFFFD

/-- One character for each encoding, and for each byte that starts none. -/
def readUtf8 : Nat → List UInt8 → List Char
  | 0, _ => []
  | _ + 1, [] => []
  | fuel + 1, b :: rest =>
    match (b :: rest).toByteArray.utf8DecodeChar? 0 with
    | some c => c :: readUtf8 fuel ((b :: rest).drop c.utf8Size)
    | none => replacement :: readUtf8 fuel rest

theorem toByteArray_append (a b : List UInt8) :
    (a ++ b).toByteArray = a.toByteArray ++ b.toByteArray := by
  simp

theorem readUtf8_utf8 (text : List Char) {fuel : Nat} (h : text.length ≤ fuel) :
    readUtf8 fuel (utf8 text) = text := by
  induction text generalizing fuel with
  | nil => cases fuel <;> rfl
  | cons c rest ih =>
    obtain ⟨fuel, rfl⟩ : ∃ n, fuel = n + 1 := ⟨fuel - 1, by simp at h; omega⟩
    have hbytes : utf8 (c :: rest) = String.utf8EncodeChar c ++ utf8 rest := rfl
    have hdecode : (utf8 (c :: rest)).toByteArray.utf8DecodeChar? 0 = some c := by
      rw [hbytes, toByteArray_append]
      exact ByteArray.utf8DecodeChar?_utf8EncodeChar_append
    have hdrop : (utf8 (c :: rest)).drop c.utf8Size = utf8 rest := by
      rw [hbytes, List.drop_left' (String.length_utf8EncodeChar c)]
    have hcons : ∃ b tail, utf8 (c :: rest) = b :: tail := by
      apply List.exists_cons_of_ne_nil
      intro hnil
      have hlen := congrArg List.length hnil
      rw [hbytes, List.length_append, String.length_utf8EncodeChar] at hlen
      have hpos := c.utf8Size_pos
      simp only [List.length_nil] at hlen
      omega
    obtain ⟨b, tail, hcons⟩ := hcons
    rw [hcons] at hdecode hdrop ⊢
    rw [readUtf8, hdecode]
    simp only [hdrop]
    rw [ih (by simp at h; omega)]

/-- The base64 text of a text. -/
def encode (text : String) : String := String.ofList (encodeBytes (utf8 text.toList))

/-- The text that a base64 text carries. -/
def decode (encoded : String) : Option String :=
  (decodeBytes encoded.toList).map fun bytes => String.ofList (readUtf8 bytes.length bytes)

theorem length_le_utf8 (text : List Char) : text.length ≤ (utf8 text).length := by
  induction text with
  | nil => exact Nat.le_refl _
  | cons c rest ih =>
    have hpos := c.utf8Size_pos
    have hlen : (utf8 (c :: rest)).length = c.utf8Size + (utf8 rest).length := by
      simp [utf8, String.length_utf8EncodeChar]
    rw [hlen, List.length_cons]
    omega

/-- **Round trip.** -/
theorem decode_encode (text : String) : decode (encode text) = some text := by
  unfold decode encode
  rw [String.toList_ofList, decodeBytes_encodeBytes]
  simp only [Option.map_some]
  rw [readUtf8_utf8 _ (length_le_utf8 _), String.ofList_toList]

theorem encode_ne_empty {text : String} (h : text ≠ "") : encode text ≠ "" := by
  intro hempty
  have hdecode := decode_encode text
  rw [hempty] at hdecode
  exact h (Option.some.inj hdecode).symm

end Base64
