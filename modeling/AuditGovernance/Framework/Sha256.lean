import Mathlib.Data.List.Basic
import Mathlib.Tactic.IntervalCases

/-! # SHA-256

    The hash of FIPS 180-4 on texts, written in lower-case hexadecimal. Words
    are natural numbers below `2 ^ 32`, so that closed digests can be evaluated
    by the kernel.
-/

namespace Sha256

/-! ## Section 1: Words -/

/-- Addition modulo `2 ^ 32`. -/
def add (a b : Nat) : Nat := (a + b) % 2 ^ 32

def rotr (n x : Nat) : Nat := (x >>> n) ||| ((x <<< (32 - n)) % 2 ^ 32)

def complement (x : Nat) : Nat := (2 ^ 32 - 1) ^^^ x

def ch (x y z : Nat) : Nat := (x &&& y) ^^^ (complement x &&& z)

def maj (x y z : Nat) : Nat := (x &&& y) ^^^ (x &&& z) ^^^ (y &&& z)

def bigSigma0 (x : Nat) : Nat := rotr 2 x ^^^ rotr 13 x ^^^ rotr 22 x

def bigSigma1 (x : Nat) : Nat := rotr 6 x ^^^ rotr 11 x ^^^ rotr 25 x

def smallSigma0 (x : Nat) : Nat := rotr 7 x ^^^ rotr 18 x ^^^ (x >>> 3)

def smallSigma1 (x : Nat) : Nat := rotr 17 x ^^^ rotr 19 x ^^^ (x >>> 10)

/-- The round constants. -/
def roundConstants : List Nat :=
  [0x428a2f98, 0x71374491, 0xb5c0fbcf, 0xe9b5dba5, 0x3956c25b, 0x59f111f1, 0x923f82a4, 0xab1c5ed5,
   0xd807aa98, 0x12835b01, 0x243185be, 0x550c7dc3, 0x72be5d74, 0x80deb1fe, 0x9bdc06a7, 0xc19bf174,
   0xe49b69c1, 0xefbe4786, 0x0fc19dc6, 0x240ca1cc, 0x2de92c6f, 0x4a7484aa, 0x5cb0a9dc, 0x76f988da,
   0x983e5152, 0xa831c66d, 0xb00327c8, 0xbf597fc7, 0xc6e00bf3, 0xd5a79147, 0x06ca6351, 0x14292967,
   0x27b70a85, 0x2e1b2138, 0x4d2c6dfc, 0x53380d13, 0x650a7354, 0x766a0abb, 0x81c2c92e, 0x92722c85,
   0xa2bfe8a1, 0xa81a664b, 0xc24b8b70, 0xc76c51a3, 0xd192e819, 0xd6990624, 0xf40e3585, 0x106aa070,
   0x19a4c116, 0x1e376c08, 0x2748774c, 0x34b0bcb5, 0x391c0cb3, 0x4ed8aa4a, 0x5b9cca4f, 0x682e6ff3,
   0x748f82ee, 0x78a5636f, 0x84c87814, 0x8cc70208, 0x90befffa, 0xa4506ceb, 0xbef9a3f7, 0xc67178f2]

/-! ## Section 2: Compression -/

/-- The working variables `a` … `h`, or a chaining value. -/
structure Working where
  a : Nat
  b : Nat
  c : Nat
  d : Nat
  e : Nat
  f : Nat
  g : Nat
  h : Nat
deriving DecidableEq, Repr

def initial : Working :=
  ⟨0x6a09e667, 0xbb67ae85, 0x3c6ef372, 0xa54ff53a, 0x510e527f, 0x9b05688c, 0x1f83d9ab, 0x5be0cd19⟩

/-- One round with constant `k` and schedule word `w`. -/
def round (s : Working) (k w : Nat) : Working :=
  let t1 := (s.h + bigSigma1 s.e + ch s.e s.f s.g + k + w) % 2 ^ 32
  let t2 := (bigSigma0 s.a + maj s.a s.b s.c) % 2 ^ 32
  ⟨add t1 t2, s.a, s.b, s.c, add s.d t1, s.e, s.f, s.g⟩

/-- The rounds of one block. `window` holds the schedule words of this and the
    next fifteen rounds. -/
def rounds : List Nat → List Nat → Working → Working
  | [], _, s => s
  | k :: ks, window, s =>
    let word := (smallSigma1 (window.getD 14 0) + window.getD 9 0 +
      smallSigma0 (window.getD 1 0) + window.getD 0 0) % 2 ^ 32
    rounds ks (window.tail ++ [word]) (round s k (window.getD 0 0))

def compress (s : Working) (block : List Nat) : Working :=
  let r := rounds roundConstants block s
  ⟨add s.a r.a, add s.b r.b, add s.c r.c, add s.d r.d, add s.e r.e, add s.f r.f, add s.g r.g,
    add s.h r.h⟩

/-! ## Section 3: Messages -/

/-- Big-endian words of a byte list whose length is a multiple of four. -/
def words : List Nat → List Nat
  | a :: b :: c :: d :: rest => (((a * 256 + b) * 256 + c) * 256 + d) :: words rest
  | _ => []

/-- The `n` low bytes of `x`, highest first. -/
def bytesBE : Nat → Nat → List Nat
  | 0, _ => []
  | n + 1, x => (x >>> (8 * n)) % 256 :: bytesBE n x

/-- Padding to a multiple of 64 bytes, with the bit length at the end. -/
def padded (message : List Nat) : List Nat :=
  message ++ [0x80] ++ List.replicate ((119 - message.length % 64) % 64) 0 ++
    bytesBE 8 (8 * message.length)

/-- Compress `n` blocks of sixteen words. -/
def compressBlocks : Nat → List Nat → Working → Working
  | 0, _, s => s
  | n + 1, message, s => compressBlocks n (message.drop 16) (compress s (message.take 16))

/-- The digest of a byte list. -/
def digest (message : List Nat) : Working :=
  let block := words (padded message)
  compressBlocks (block.length / 16) block initial

/-- The bytes of a digest. -/
def Working.bytes (s : Working) : List Nat :=
  [s.a, s.b, s.c, s.d, s.e, s.f, s.g, s.h].flatMap (bytesBE 4)

/-- HMAC with a key of bytes; a key longer than a block is hashed first. -/
def hmac (key message : List Nat) : Working :=
  let short := if key.length > 64 then (digest key).bytes else key
  let block := short ++ List.replicate (64 - short.length) 0
  let inner := digest (block.map (fun b => b ^^^ 0x36) ++ message)
  digest (block.map (fun b => b ^^^ 0x5c) ++ inner.bytes)

/-! ## Section 4: Texts -/

/-- The UTF-8 bytes of a text. -/
def utf8 (text : String) : List Nat := text.toByteArray.data.toList.map UInt8.toNat

def hexDigit (n : Nat) : Char :=
  if n < 10 then Char.ofNat (48 + n) else Char.ofNat (87 + n)

/-- A word as eight hexadecimal digits. -/
def hexWord (x : Nat) : List Char :=
  [7, 6, 5, 4, 3, 2, 1, 0].map (fun i => hexDigit ((x >>> (4 * i)) % 16))

def Working.hex (s : Working) : String :=
  String.ofList ([s.a, s.b, s.c, s.d, s.e, s.f, s.g, s.h].flatMap hexWord)

/-- The digest of a text in hexadecimal. -/
def hex (text : String) : String := (digest (utf8 text)).hex

/-- Digests have 64 characters, whatever was hashed. -/
theorem length_hex (text : String) : (hex text).length = 64 := by
  simp [hex, Working.hex, hexWord]

theorem hexDigit_of_lt {n : Nat} (h : n < 16) : hexDigit n ∈ "0123456789abcdef".toList := by
  interval_cases n <;> decide

theorem hex_chars (text : String) : ∀ c ∈ (hex text).toList, c ∈ "0123456789abcdef".toList := by
  intro c hc
  rw [hex, Working.hex, String.toList_ofList, List.mem_flatMap] at hc
  obtain ⟨word, -, hc⟩ := hc
  obtain ⟨i, -, rfl⟩ := List.mem_map.1 hc
  exact hexDigit_of_lt (Nat.mod_lt _ (by decide))

/-- HMAC of a text under a text key, in hexadecimal. -/
def hmacHex (key text : String) : String := (hmac (utf8 key) (utf8 text)).hex

example : hex "abc" = "ba7816bf8f01cfea414140de5dae2223b00361a396177a9cb410ff61f20015ad" := by
  decide +kernel

end Sha256
