import AuditGovernance.Domain.Types
import Mathlib.Data.String.Basic

/-! # JSON texts

    Values, their text and back, as `encoding/json` does it with HTML escaping
    and `UseNumber`: strings are escaped and number literals are kept as
    written. Objects are written and read in the order of their fields; that
    they are Go maps is left to the modules that use them so.

    The parser reads back everything the printer writes (`readsBack`), so the
    text of a value determines the value.
-/

namespace AuditGovernance

namespace Json

/-! ## Section 1: Strings -/

def hexDigit (n : Nat) : Char :=
  if n < 10 then Char.ofNat (48 + n) else Char.ofNat (87 + n)

/-- The escape `\uXXXX` of a code unit. -/
def unicodeEscape (n : Nat) : List Char :=
  ['\\', 'u', hexDigit (n / 4096 % 16), hexDigit (n / 256 % 16), hexDigit (n / 16 % 16),
    hexDigit (n % 16)]

/-- A character inside a JSON string, with HTML escaping. -/
def escapeChar (c : Char) : List Char :=
  if c = '"' then ['\\', '"']
  else if c = '\\' then ['\\', '\\']
  else if c.toNat = 8 then ['\\', 'b']
  else if c.toNat = 12 then ['\\', 'f']
  else if c.toNat = 10 then ['\\', 'n']
  else if c.toNat = 13 then ['\\', 'r']
  else if c.toNat = 9 then ['\\', 't']
  else if c.toNat < 0x20 ∨ c = '<' ∨ c = '>' ∨ c = '&' ∨ c.toNat = 0x2028 ∨ c.toNat = 0x2029 then
    unicodeEscape c.toNat
  else [c]

/-- A string with its quotes. -/
def quote (text : String) : List Char := '"' :: (text.toList.flatMap escapeChar ++ ['"'])

def hexValue (c : Char) : Option Nat :=
  if 48 ≤ c.toNat ∧ c.toNat ≤ 57 then some (c.toNat - 48)
  else if 97 ≤ c.toNat ∧ c.toNat ≤ 102 then some (c.toNat - 87)
  else if 65 ≤ c.toNat ∧ c.toNat ≤ 70 then some (c.toNat - 55)
  else none

/-- Four hexadecimal digits. -/
def hex4 : List Char → Option (Nat × List Char)
  | a :: b :: c :: d :: rest =>
    match hexValue a, hexValue b, hexValue c, hexValue d with
    | some a, some b, some c, some d => some (((a * 16 + b) * 16 + c) * 16 + d, rest)
    | _, _, _, _ => none
  | _ => none

/-- What stands for half of a surrogate pair. -/
def replacementChar : Char := Char.ofNat 0xFFFD

/-- The second half of a surrogate pair that starts with `high`. -/
def lowSurrogate (high : Nat) (text : List Char) : Option (Char × List Char) :=
  match text with
  | '\\' :: 'u' :: more =>
    match hex4 more with
    | some (low, rest) =>
      if high < 0xDC00 ∧ 0xDC00 ≤ low ∧ low < 0xE000 then
        some (Char.ofNat (0x10000 + (high - 0xD800) * 1024 + (low - 0xDC00)), rest)
      else none
    | none => none
  | _ => none

/-- The character behind `\u`. -/
def readUnicode (text : List Char) : Option (Char × List Char) :=
  match hex4 text with
  | none => none
  | some (n, rest) =>
    if 0xD800 ≤ n ∧ n < 0xE000 then some ((lowSurrogate n rest).getD (replacementChar, rest))
    else some (Char.ofNat n, rest)

/-- The one-letter escapes. -/
def simpleEscape (e : Char) : Option Char :=
  if e = '"' then some '"'
  else if e = '\\' then some '\\'
  else if e = '/' then some '/'
  else if e = 'b' then some (Char.ofNat 8)
  else if e = 'f' then some (Char.ofNat 12)
  else if e = 'n' then some (Char.ofNat 10)
  else if e = 'r' then some (Char.ofNat 13)
  else if e = 't' then some (Char.ofNat 9)
  else none

/-- One character of a string. -/
def readChar : List Char → Option (Char × List Char)
  | [] => none
  | c :: rest =>
    if c = '\\' then
      match rest with
      | [] => none
      | e :: rest => if e = 'u' then readUnicode rest else (simpleEscape e).map (fun c => (c, rest))
    else if c.toNat < 0x20 then none
    else some (c, rest)

/-- A string up to its closing quote. -/
def readString : Nat → List Char → Option (List Char × List Char)
  | 0, _ => none
  | _ + 1, [] => none
  | fuel + 1, c :: text =>
    if c = '"' then some ([], text)
    else
      match readChar (c :: text) with
      | none => none
      | some (d, rest) => (readString fuel rest).map (fun p => (d :: p.1, p.2))

/-! ### Strings are read back -/

theorem hexValue_hexDigit {n : Nat} (h : n < 16) : hexValue (hexDigit n) = some n := by
  interval_cases n <;> rfl

theorem hex4_unicodeEscape {n : Nat} (h : n < 65536) (rest : List Char) :
    hex4 ((unicodeEscape n).drop 2 ++ rest) = some (n, rest) := by
  have hval : (((n / 4096 % 16) * 16 + n / 256 % 16) * 16 + n / 16 % 16) * 16 + n % 16 = n := by
    omega
  have ha : n / 4096 % 16 < 16 := Nat.mod_lt _ (by decide)
  have hb : n / 256 % 16 < 16 := Nat.mod_lt _ (by decide)
  have hc : n / 16 % 16 < 16 := Nat.mod_lt _ (by decide)
  have hd : n % 16 < 16 := Nat.mod_lt _ (by decide)
  simp only [unicodeEscape, List.drop_succ_cons, List.drop_zero, List.cons_append, List.nil_append,
    hex4, hexValue_hexDigit ha, hexValue_hexDigit hb, hexValue_hexDigit hc, hexValue_hexDigit hd,
    hval]

theorem readChar_escapeChar (c : Char) (rest : List Char) :
    readChar (escapeChar c ++ rest) = some (c, rest) := by
  have hof : ∀ n, c.toNat = n → Char.ofNat n = c := fun n hn => by rw [← hn, Char.ofNat_toNat]
  unfold escapeChar
  split_ifs with h1 h2 h3 h4 h5 h6 h7 h8
  · rw [h1]
    rfl
  · rw [h2]
    rfl
  · simpa [readChar, simpleEscape] using hof 8 h3
  · simpa [readChar, simpleEscape] using hof 12 h4
  · simpa [readChar, simpleEscape] using hof 10 h5
  · simpa [readChar, simpleEscape] using hof 13 h6
  · simpa [readChar, simpleEscape] using hof 9 h7
  · -- a four-digit escape, never of a surrogate
    have hsmall : c.toNat < 0xD800 := by
      rcases h8 with h | rfl | rfl | rfl | h | h
      · omega
      · decide
      · decide
      · decide
      · omega
      · omega
    have hex := hex4_unicodeEscape (show c.toNat < 65536 by omega) rest
    have hread : readChar (unicodeEscape c.toNat ++ rest) =
        readUnicode ((unicodeEscape c.toNat).drop 2 ++ rest) := by
      simp [unicodeEscape, readChar]
    rw [hread, readUnicode, hex]
    simp only
    rw [if_neg (by omega), hof _ rfl]
  · have hlow : ¬ c.toNat < 0x20 := fun hlt => h8 (.inl hlt)
    simp [readChar, h2, hlow]

theorem escapeChar_ne_quote (c : Char) : ∃ d rest, escapeChar c = d :: rest ∧ d ≠ '"' := by
  unfold escapeChar
  split_ifs with h1
  all_goals first
    | exact ⟨'\\', _, rfl, by decide⟩
    | exact ⟨c, [], rfl, h1⟩

theorem readString_escape (text rest : List Char) {fuel : Nat} (hf : text.length < fuel) :
    readString fuel (text.flatMap escapeChar ++ '"' :: rest) = some (text, rest) := by
  induction text generalizing fuel with
  | nil =>
    obtain ⟨fuel, rfl⟩ : ∃ n, fuel = n + 1 := ⟨fuel - 1, by simp at hf; omega⟩
    simp [readString]
  | cons c text ih =>
    obtain ⟨fuel, rfl⟩ : ∃ n, fuel = n + 1 := ⟨fuel - 1, by omega⟩
    have hread := readChar_escapeChar c (text.flatMap escapeChar ++ '"' :: rest)
    obtain ⟨d, more, hd, hne⟩ := escapeChar_ne_quote c
    rw [List.flatMap_cons, List.append_assoc]
    rw [hd, List.cons_append] at hread ⊢
    rw [readString, if_neg hne, hread]
    simp only [ih (by simpa using hf), Option.map_some]

theorem length_le_escape (text : List Char) : text.length ≤ (text.flatMap escapeChar).length := by
  induction text with
  | nil => simp
  | cons c text ih =>
    obtain ⟨d, more, hd, -⟩ := escapeChar_ne_quote c
    simp only [List.flatMap_cons, hd, List.length_cons, List.length_append]
    omega

/-! ## Section 2: Numbers -/

/-- A number literal taken apart (`parseJSONNumber`). -/
structure NumberParts where
  negative : Bool
  integer : List Char
  fraction : List Char
  exponent : List Char
deriving DecidableEq, Repr

/-- The digits in front: `0` alone, or a run that does not start with it. -/
def readInteger : List Char → Option (List Char × List Char)
  | [] => none
  | c :: rest =>
    if c = '0' then some ([c], rest)
    else if c.isDigit then some ((c :: rest).span Char.isDigit)
    else none

/-- A point with at least one digit, or nothing. -/
def readFraction : List Char → Option (List Char × List Char)
  | [] => some ([], [])
  | c :: rest =>
    if c = '.' then
      if (rest.span Char.isDigit).1 = [] then none else some (rest.span Char.isDigit)
    else some ([], c :: rest)

/-- An optional sign. -/
def readSign : List Char → List Char × List Char
  | [] => ([], [])
  | c :: rest => if c = '+' ∨ c = '-' then ([c], rest) else ([], c :: rest)

/-- An exponent with at least one digit, or nothing. -/
def readExponent : List Char → Option (List Char × List Char)
  | [] => some ([], [])
  | c :: rest =>
    if c = 'e' ∨ c = 'E' then
      let (sign, digits) := readSign rest
      if (digits.span Char.isDigit).1 = [] then none
      else some (sign ++ (digits.span Char.isDigit).1, (digits.span Char.isDigit).2)
    else some ([], c :: rest)

/-- The literal after its sign: nothing may be left over. -/
def parseUnsigned (negative : Bool) (text : List Char) : Option NumberParts :=
  match readInteger text with
  | none => none
  | some (integer, text) =>
    match readFraction text with
    | none => none
    | some (fraction, text) =>
      match readExponent text with
      | none => none
      | some (exponent, text) =>
        if text = [] then some ⟨negative, integer, fraction, exponent⟩ else none

/-- `parseJSONNumber`. -/
def parseJSONNumber : List Char → Option NumberParts
  | [] => none
  | c :: rest => if c = '-' then parseUnsigned true rest else parseUnsigned false (c :: rest)

/-- The literal is a JSON number. -/
def validNumber (literal : String) : Bool := (parseJSONNumber literal.toList).isSome

def isNumberChar (c : Char) : Bool :=
  c.isDigit || c = '-' || c = '+' || c = '.' || c = 'e' || c = 'E'

/-- The reader used up characters of numbers only. -/
def UsesNumberChars (text rest : List Char) : Prop :=
  ∃ used, text = used ++ rest ∧ ∀ c ∈ used, isNumberChar c = true

theorem UsesNumberChars.refl (text : List Char) : UsesNumberChars text text := ⟨[], rfl, by simp⟩

theorem UsesNumberChars.cons {c : Char} {text rest : List Char} (hc : isNumberChar c = true)
    (h : UsesNumberChars text rest) : UsesNumberChars (c :: text) rest := by
  obtain ⟨used, rfl, hused⟩ := h
  refine ⟨c :: used, rfl, ?_⟩
  intro d hd
  rcases List.mem_cons.1 hd with rfl | hd
  · exact hc
  · exact hused d hd

theorem UsesNumberChars.trans {text mid rest : List Char} (h : UsesNumberChars text mid)
    (h' : UsesNumberChars mid rest) : UsesNumberChars text rest := by
  obtain ⟨used, rfl, hused⟩ := h
  obtain ⟨used', rfl, hused'⟩ := h'
  refine ⟨used ++ used', by simp, ?_⟩
  intro c hc
  rcases List.mem_append.1 hc with hc | hc
  · exact hused c hc
  · exact hused' c hc

theorem usesNumberChars_digits (text : List Char) :
    UsesNumberChars text (text.span Char.isDigit).2 := by
  rw [List.span_eq_takeWhile_dropWhile]
  refine ⟨text.takeWhile Char.isDigit, List.takeWhile_append_dropWhile.symm, ?_⟩
  intro c hc
  simp [isNumberChar, List.mem_takeWhile_imp hc]

theorem readInteger_uses {text rest digits : List Char}
    (h : readInteger text = some (digits, rest)) : UsesNumberChars text rest := by
  cases text with
  | nil => cases h
  | cons c more =>
    simp only [readInteger] at h
    split_ifs at h with hzero hdigit
    · cases h
      subst hzero
      exact .cons (by decide) (.refl _)
    · have hrest : ((c :: more).span Char.isDigit).2 = rest := by
        rw [Option.some.inj h]
      rw [← hrest]
      exact usesNumberChars_digits _

theorem readFraction_uses {text rest digits : List Char}
    (h : readFraction text = some (digits, rest)) : UsesNumberChars text rest := by
  cases text with
  | nil =>
    cases h
    exact .refl _
  | cons c more =>
    simp only [readFraction] at h
    split_ifs at h with hpoint hempty
    · have hrest : (more.span Char.isDigit).2 = rest := by rw [Option.some.inj h]
      subst hpoint
      rw [← hrest]
      exact .cons (by decide) (usesNumberChars_digits _)
    · cases h
      exact .refl _

theorem readSign_uses (text : List Char) : UsesNumberChars text (readSign text).2 := by
  cases text with
  | nil => exact .refl _
  | cons c rest =>
    simp only [readSign]
    split_ifs with hsign
    · refine .cons ?_ (.refl _)
      rcases hsign with rfl | rfl <;> decide
    · exact .refl _

theorem readExponent_uses {text rest digits : List Char}
    (h : readExponent text = some (digits, rest)) : UsesNumberChars text rest := by
  cases text with
  | nil =>
    cases h
    exact .refl _
  | cons c more =>
    simp only [readExponent] at h
    split_ifs at h with he hempty
    · cases h
      refine .cons ?_ ((readSign_uses more).trans (usesNumberChars_digits _))
      rcases he with rfl | rfl <;> decide
    · cases h
      exact .refl _

theorem parseUnsigned_uses {negative : Bool} {text : List Char} {parts : NumberParts}
    (h : parseUnsigned negative text = some parts) : UsesNumberChars text [] := by
  unfold parseUnsigned at h
  split at h
  · cases h
  next integer rest hint =>
  split at h
  · cases h
  next fraction rest' hfrac =>
  split at h
  · cases h
  next exponent rest'' hexp =>
  split_ifs at h with hnil
  subst hnil
  exact ((readInteger_uses hint).trans (readFraction_uses hfrac)).trans (readExponent_uses hexp)

/-- A valid literal is a non-empty text of number characters. -/
theorem validNumber_chars {literal : String} (h : validNumber literal = true) :
    literal.toList ≠ [] ∧ ∀ c ∈ literal.toList, isNumberChar c = true := by
  obtain ⟨parts, hparts⟩ := Option.isSome_iff_exists.1 h
  cases hlit : literal.toList with
  | nil =>
    rw [hlit] at hparts
    cases hparts
  | cons c rest =>
    rw [hlit] at hparts
    have huses : UsesNumberChars (c :: rest) [] := by
      simp only [parseJSONNumber] at hparts
      split_ifs at hparts with hminus
      · subst hminus
        exact .cons (by decide) (parseUnsigned_uses hparts)
      · exact parseUnsigned_uses hparts
    obtain ⟨used, heq, hused⟩ := huses
    refine ⟨by simp, fun d hd => hused d ?_⟩
    simpa [heq] using hd

/-! ## Section 3: Values -/

mutual

/-- The text of a value, its object fields in the order listed. -/
def print : Json → List Char
  | .null => ['n', 'u', 'l', 'l']
  | .bool true => ['t', 'r', 'u', 'e']
  | .bool false => ['f', 'a', 'l', 's', 'e']
  | .num literal => literal.toList
  | .str text => quote text
  | .arr [] => ['[', ']']
  | .arr (x :: rest) => '[' :: (print x ++ printItems rest)
  | .obj [] => ['\x7b', '\x7d']
  | .obj ((k, x) :: rest) => '\x7b' :: (quote k ++ ':' :: (print x ++ printFields rest))

/-- The rest of an array. -/
def printItems : List Json → List Char
  | [] => [']']
  | x :: rest => ',' :: (print x ++ printItems rest)

/-- The rest of an object. -/
def printFields : List (String × Json) → List Char
  | [] => ['\x7d']
  | (k, x) :: rest => ',' :: (quote k ++ ':' :: (print x ++ printFields rest))

end

def skipSpace : List Char → List Char
  | [] => []
  | c :: rest =>
    if c = ' ' ∨ c = '\t' ∨ c = '\n' ∨ c = '\r' then skipSpace rest else c :: rest

/-- The rest of a literal name. -/
def readLiteral (word : List Char) (value : Json) (text : List Char) : Option (Json × List Char) :=
  if word.isPrefixOf text then some (value, text.drop word.length) else none

def readNumber (text : List Char) : Option (Json × List Char) :=
  let (literal, rest) := text.span isNumberChar
  if (parseJSONNumber literal).isSome then some (.num (String.ofList literal), rest) else none

mutual

/-- One value; the fuel bounds nesting and number of items together. -/
def parseValue : Nat → List Char → Option (Json × List Char)
  | 0, _ => none
  | fuel + 1, text =>
    match skipSpace text with
    | [] => none
    | c :: rest =>
      if c = '\x7b' then
        if (skipSpace rest).head? = some '\x7d' then some (.obj [], (skipSpace rest).tail)
        else (parseFields fuel rest).map (fun p => (.obj p.1, p.2))
      else if c = '[' then
        if (skipSpace rest).head? = some ']' then some (.arr [], (skipSpace rest).tail)
        else (parseItems fuel rest).map (fun p => (.arr p.1, p.2))
      else if c = '"' then
        (readString (rest.length + 1) rest).map (fun p => (.str (String.ofList p.1), p.2))
      else if c = 't' then readLiteral ['r', 'u', 'e'] (.bool true) rest
      else if c = 'f' then readLiteral ['a', 'l', 's', 'e'] (.bool false) rest
      else if c = 'n' then readLiteral ['u', 'l', 'l'] .null rest
      else readNumber (c :: rest)

/-- The items of a non-empty array, up to its closing bracket. -/
def parseItems : Nat → List Char → Option (List Json × List Char)
  | 0, _ => none
  | fuel + 1, text =>
    match parseValue fuel text with
    | none => none
    | some (x, text) =>
      match skipSpace text with
      | [] => none
      | c :: rest =>
        if c = ',' then (parseItems fuel rest).map (fun p => (x :: p.1, p.2))
        else if c = ']' then some ([x], rest)
        else none

/-- The fields of a non-empty object, up to its closing brace. -/
def parseFields : Nat → List Char → Option (List (String × Json) × List Char)
  | 0, _ => none
  | fuel + 1, text =>
    match skipSpace text with
    | [] => none
    | c :: rest =>
      if c = '"' then
        match readString (rest.length + 1) rest with
        | none => none
        | some (key, text) =>
          match skipSpace text with
          | [] => none
          | c :: rest =>
            if c = ':' then
              match parseValue fuel rest with
              | none => none
              | some (x, text) =>
                match skipSpace text with
                | [] => none
                | c :: rest =>
                  if c = ',' then
                    (parseFields fuel rest).map (fun p => ((String.ofList key, x) :: p.1, p.2))
                  else if c = '\x7d' then some ([(String.ofList key, x)], rest)
                  else none
            else none
      else none

end

mutual

/-- All number literals are JSON numbers. -/
def valid : Json → Bool
  | .null => true
  | .bool _ => true
  | .num literal => validNumber literal
  | .str _ => true
  | .arr items => validItems items
  | .obj fields => validFields fields

def validItems : List Json → Bool
  | [] => true
  | x :: rest => valid x && validItems rest

def validFields : List (String × Json) → Bool
  | [] => true
  | (_, x) :: rest => valid x && validFields rest

end

mutual

/-- Fuel that suffices to parse the text of a value. -/
def fuelOf : Json → Nat
  | .null => 1
  | .bool _ => 1
  | .num _ => 1
  | .str _ => 1
  | .arr items => 1 + fuelOfItems items
  | .obj fields => 1 + fuelOfFields fields

def fuelOfItems : List Json → Nat
  | [] => 0
  | x :: rest => 1 + fuelOf x + fuelOfItems rest

def fuelOfFields : List (String × Json) → Nat
  | [] => 0
  | (_, x) :: rest => 1 + fuelOf x + fuelOfFields rest

end

/-- Induction over values, with the hypothesis for every item and field. -/
theorem induct {P : Json → Prop} (null : P .null) (bool : ∀ b, P (.bool b))
    (num : ∀ literal, P (.num literal)) (str : ∀ text, P (.str text))
    (arr : ∀ items : List Json, (∀ x ∈ items, P x) → P (.arr items))
    (obj : ∀ fields : List (String × Json), (∀ p ∈ fields, P p.2) → P (.obj fields)) :
    ∀ v, P v := by
  intro v
  refine @Json.rec P (fun items => ∀ x ∈ items, P x) (fun fields => ∀ p ∈ fields, P p.2)
    (fun p => P p.2) null bool num str (fun items ih => arr items ih) (fun fields ih => obj fields ih)
    ?_ ?_ ?_ ?_ ?_ v
  · simp
  · intro x rest hx hrest
    simpa using ⟨hx, hrest⟩
  · simp
  · intro p rest hp hrest q hq
    rcases List.mem_cons.1 hq with rfl | hq
    · exact hp
    · exact hrest q hq
  · intro k x hx
    exact hx

/-! ## Section 4: Values are read back -/

/-- What may follow a value: nothing that could continue a number. -/
def Ends (rest : List Char) : Prop := ∀ c ∈ rest.head?, isNumberChar c = false

theorem ends_cons {c : Char} {rest : List Char} (h : isNumberChar c = false) : Ends (c :: rest) := by
  intro d hd
  cases hd
  exact h

/-- The text of the value parses to the value. -/
def ReadsBack (v : Json) : Prop :=
  ∀ (rest : List Char) (fuel : Nat), Ends rest → fuelOf v ≤ fuel →
    parseValue fuel (print v ++ rest) = some (v, rest)

theorem skipSpace_cons {c : Char} (h : ¬ (c = ' ' ∨ c = '\t' ∨ c = '\n' ∨ c = '\r'))
    (rest : List Char) : skipSpace (c :: rest) = c :: rest := by
  simp only [skipSpace, if_neg h]

theorem isNumberChar_cases {c : Char} (h : isNumberChar c = true) :
    (48 ≤ c.toNat ∧ c.toNat ≤ 57) ∨ c = '-' ∨ c = '+' ∨ c = '.' ∨ c = 'e' ∨ c = 'E' := by
  simp only [isNumberChar, Bool.or_eq_true, decide_eq_true_eq, Char.isDigit] at h
  rcases h with ((((h | h) | h) | h) | h) | h
  · refine .inl ?_
    simp only [Bool.and_eq_true, decide_eq_true_eq, ge_iff_le] at h
    exact h
  all_goals simp [h]

theorem isNumberChar_ne {c d : Char} (h : isNumberChar c = true) (hd : isNumberChar d = false) :
    c ≠ d := by
  rintro rfl
  rw [h] at hd
  cases hd

theorem print_head (v : Json) (hv : v.valid = true) :
    ∃ c rest, print v = c :: rest ∧ ¬ (c = ' ' ∨ c = '\t' ∨ c = '\n' ∨ c = '\r') ∧
      c ≠ ']' ∧ c ≠ '\x7d' := by
  cases v with
  | null => exact ⟨_, _, rfl, by decide, by decide, by decide⟩
  | bool b => cases b <;> exact ⟨_, _, rfl, by decide, by decide, by decide⟩
  | num literal =>
    obtain ⟨hne, hchars⟩ := validNumber_chars hv
    obtain ⟨c, rest, hlit⟩ := List.exists_cons_of_ne_nil hne
    have hc : isNumberChar c = true := hchars c (by simp [hlit])
    refine ⟨c, rest, hlit, ?_, isNumberChar_ne hc (by decide), isNumberChar_ne hc (by decide)⟩
    rintro (h | h | h | h)
    all_goals exact isNumberChar_ne hc (by decide) h
  | str text => exact ⟨_, _, rfl, by decide, by decide, by decide⟩
  | arr items =>
    cases items with
    | nil => exact ⟨_, _, rfl, by decide, by decide, by decide⟩
    | cons x rest => exact ⟨_, _, rfl, by decide, by decide, by decide⟩
  | obj fields =>
    cases fields with
    | nil => exact ⟨_, _, rfl, by decide, by decide, by decide⟩
    | cons p rest => exact ⟨_, _, rfl, by decide, by decide, by decide⟩

theorem readString_quote (text : String) (rest : List Char) :
    readString ((text.toList.flatMap escapeChar ++ '"' :: rest).length + 1)
      (text.toList.flatMap escapeChar ++ '"' :: rest) = some (text.toList, rest) := by
  apply readString_escape
  have hlen := length_le_escape text.toList
  simp only [List.length_append]
  omega

theorem readNumber_print {literal : String} (hv : validNumber literal = true) {rest : List Char}
    (hrest : Ends rest) : readNumber (literal.toList ++ rest) = some (.num literal, rest) := by
  have hchars := (validNumber_chars hv).2
  have htake : (literal.toList ++ rest).takeWhile isNumberChar = literal.toList := by
    rw [List.takeWhile_append_of_pos hchars]
    cases rest with
    | nil => simp
    | cons c more => simp [hrest c rfl]
  have hdrop : (literal.toList ++ rest).dropWhile isNumberChar = rest := by
    rw [List.dropWhile_append_of_pos hchars]
    cases rest with
    | nil => simp
    | cons c more => simp [hrest c rfl]
  have hsome : (parseJSONNumber literal.toList).isSome = true := hv
  simp only [readNumber, List.span_eq_takeWhile_dropWhile, htake, hdrop, hsome, if_true,
    String.ofList_toList]

theorem parseItems_print (items : List Json) :
    ∀ x, (∀ y ∈ x :: items, ReadsBack y ∧ y.valid = true) → ∀ (rest : List Char) (fuel : Nat),
      1 + fuelOf x + fuelOfItems items ≤ fuel →
      parseItems fuel (print x ++ (printItems items ++ rest)) = some (x :: items, rest) := by
  induction items with
  | nil =>
    intro x hx rest fuel hf
    obtain ⟨fuel, rfl⟩ : ∃ n, fuel = n + 1 := ⟨fuel - 1, by omega⟩
    have hread := (hx x (by simp)).1 (']' :: rest) fuel (ends_cons (by decide)) (by omega)
    simp only [printItems, List.cons_append, List.nil_append, parseItems, hread]
    simp [skipSpace]
  | cons y items ih =>
    intro x hx rest fuel hf
    simp only [fuelOfItems] at hf
    obtain ⟨fuel, rfl⟩ : ∃ n, fuel = n + 1 := ⟨fuel - 1, by omega⟩
    have hread := (hx x (by simp)).1 (',' :: (print y ++ (printItems items ++ rest))) fuel
      (ends_cons (by decide)) (by omega)
    have hmore := ih y (fun z hz => hx z (by simp [List.mem_cons.1 hz])) rest fuel (by omega)
    simp only [printItems, List.cons_append, List.append_assoc, parseItems, hread]
    simp [skipSpace, hmore]

theorem parseFields_print (fields : List (String × Json)) :
    ∀ k x, (∀ q ∈ (k, x) :: fields, ReadsBack q.2 ∧ q.2.valid = true) →
      ∀ (rest : List Char) (fuel : Nat), 1 + fuelOf x + fuelOfFields fields ≤ fuel →
      parseFields fuel (quote k ++ ':' :: (print x ++ (printFields fields ++ rest))) =
        some ((k, x) :: fields, rest) := by
  induction fields with
  | nil =>
    intro k x hx rest fuel hf
    obtain ⟨fuel, rfl⟩ : ∃ n, fuel = n + 1 := ⟨fuel - 1, by omega⟩
    have hread := (hx (k, x) (by simp)).1 ('\x7d' :: rest) fuel (ends_cons (by decide))
      (show fuelOf x ≤ fuel by omega)
    have hkey := readString_quote k (':' :: (print x ++ ('\x7d' :: rest)))
    simp only [printFields, quote, List.cons_append, List.append_assoc, List.nil_append,
      parseFields]
    rw [skipSpace_cons (by decide)]
    simp only [if_true, hkey]
    rw [skipSpace_cons (by decide)]
    simp [hread, skipSpace]
  | cons q fields ih =>
    obtain ⟨l, y⟩ := q
    intro k x hx rest fuel hf
    simp only [fuelOfFields] at hf
    obtain ⟨fuel, rfl⟩ : ∃ n, fuel = n + 1 := ⟨fuel - 1, by omega⟩
    have hread := (hx (k, x) (by simp)).1
      (',' :: (quote l ++ ':' :: (print y ++ (printFields fields ++ rest)))) fuel
      (ends_cons (by decide)) (show fuelOf x ≤ fuel by omega)
    have hmore := ih l y (fun z hz => hx z (by simp [List.mem_cons.1 hz])) rest fuel (by omega)
    have hkey := readString_quote k
      (':' :: (print x ++ (',' :: (quote l ++ ':' :: (print y ++ (printFields fields ++ rest))))))
    simp only [printFields, quote, List.cons_append, List.append_assoc, List.nil_append,
      parseFields] at hkey hread hmore ⊢
    rw [skipSpace_cons (by decide)]
    simp only [if_true, hkey]
    rw [skipSpace_cons (by decide)]
    simp [hread, skipSpace, hmore]

theorem validItems_iff {items : List Json} :
    validItems items = true ↔ ∀ x ∈ items, x.valid = true := by
  induction items with
  | nil => simp [validItems]
  | cons x rest ih => simp [validItems, ih]

theorem validFields_iff {fields : List (String × Json)} :
    validFields fields = true ↔ ∀ p ∈ fields, p.2.valid = true := by
  induction fields with
  | nil => simp [validFields]
  | cons p rest ih =>
    obtain ⟨k, x⟩ := p
    simp [validFields, ih]

/-- **Every valid value is read back from its text.** -/
theorem readsBack (v : Json) : v.valid = true → ReadsBack v := by
  induction v using induct with
  | null =>
    intro _ rest fuel _ hf
    obtain ⟨fuel, rfl⟩ : ∃ n, fuel = n + 1 := ⟨fuel - 1, by simp [fuelOf] at hf; omega⟩
    simp [print, parseValue, skipSpace, readLiteral]
  | bool b =>
    intro _ rest fuel _ hf
    obtain ⟨fuel, rfl⟩ : ∃ n, fuel = n + 1 := ⟨fuel - 1, by simp [fuelOf] at hf; omega⟩
    cases b <;> simp [print, parseValue, skipSpace, readLiteral]
  | num literal =>
    intro hv rest fuel hrest hf
    obtain ⟨fuel, rfl⟩ : ∃ n, fuel = n + 1 := ⟨fuel - 1, by simp [fuelOf] at hf; omega⟩
    obtain ⟨c, more, hprint, hspace, -, -⟩ := print_head (.num literal) hv
    have hlit : literal.toList = c :: more := hprint
    have hc : isNumberChar c = true := (validNumber_chars hv).2 c (by simp [hlit])
    have hread := readNumber_print hv hrest
    rw [hlit, List.cons_append] at hread
    rw [print, hlit, List.cons_append, parseValue, skipSpace_cons hspace]
    simp only [isNumberChar_ne hc (show isNumberChar '\x7b' = false by decide),
      isNumberChar_ne hc (show isNumberChar '[' = false by decide),
      isNumberChar_ne hc (show isNumberChar '"' = false by decide),
      isNumberChar_ne hc (show isNumberChar 't' = false by decide),
      isNumberChar_ne hc (show isNumberChar 'f' = false by decide),
      isNumberChar_ne hc (show isNumberChar 'n' = false by decide), if_false]
    exact hread
  | str text =>
    intro _ rest fuel _ hf
    obtain ⟨fuel, rfl⟩ : ∃ n, fuel = n + 1 := ⟨fuel - 1, by simp [fuelOf] at hf; omega⟩
    have hkey := readString_quote text rest
    simp only [print, quote, List.cons_append, List.append_assoc, List.nil_append, parseValue]
    rw [skipSpace_cons (by decide)]
    simp only [if_true, hkey, Option.map_some, String.ofList_toList]
    simp
  | arr items ih =>
    intro hv rest fuel _ hf
    have hvalid := validItems_iff.1 hv
    simp only [fuelOf] at hf
    obtain ⟨fuel, rfl⟩ : ∃ n, fuel = n + 1 := ⟨fuel - 1, by omega⟩
    cases items with
    | nil => simp [print, parseValue, skipSpace]
    | cons x items =>
      obtain ⟨c, more, hprint, hspace, hclose, -⟩ := print_head x (hvalid x (by simp))
      have hitems := parseItems_print items x (fun y hy => ⟨ih y hy (hvalid y hy), hvalid y hy⟩)
        rest fuel (by simp only [fuelOfItems] at hf; omega)
      simp only [print, List.cons_append, List.append_assoc, parseValue]
      rw [skipSpace_cons (by decide)]
      have hopen : (skipSpace (print x ++ (printItems items ++ rest))).head? ≠ some ']' := by
        rw [hprint, List.cons_append, skipSpace_cons hspace]
        simp [hclose]
      simp [hopen, hitems]
  | obj fields ih =>
    intro hv rest fuel _ hf
    have hvalid := validFields_iff.1 hv
    simp only [fuelOf] at hf
    obtain ⟨fuel, rfl⟩ : ∃ n, fuel = n + 1 := ⟨fuel - 1, by omega⟩
    cases fields with
    | nil => simp [print, parseValue, skipSpace]
    | cons p fields =>
      obtain ⟨k, x⟩ := p
      have hfields := parseFields_print fields k x
        (fun q hq => ⟨ih q hq (hvalid q hq), hvalid q hq⟩) rest fuel
        (by simp only [fuelOfFields] at hf; omega)
      simp only [print, List.cons_append, List.append_assoc, parseValue]
      rw [skipSpace_cons (by decide)]
      have hopen : (skipSpace (quote k ++ ':' :: (print x ++ (printFields fields ++ rest)))).head? ≠
          some '\x7d' := by
        rw [quote, List.cons_append, skipSpace_cons (by decide)]
        simp
      simp [hopen, hfields]

/-! ### The length of a text bounds its fuel -/

theorem fuelOfItems_le (items : List Json)
    (h : ∀ x ∈ items, fuelOf x ≤ 2 * (print x).length) :
    fuelOfItems items + 2 ≤ 2 * (printItems items).length := by
  induction items with
  | nil => simp [fuelOfItems, printItems]
  | cons x rest ih =>
    have hx := h x (by simp)
    have hrest := ih (fun y hy => h y (by simp [hy]))
    simp only [fuelOfItems, printItems, List.length_cons, List.length_append]
    omega

theorem fuelOfFields_le (fields : List (String × Json))
    (h : ∀ p ∈ fields, fuelOf p.2 ≤ 2 * (print p.2).length) :
    fuelOfFields fields + 2 ≤ 2 * (printFields fields).length := by
  induction fields with
  | nil => simp [fuelOfFields, printFields]
  | cons p rest ih =>
    obtain ⟨k, x⟩ := p
    have hx : fuelOf x ≤ 2 * (print x).length := h (k, x) (by simp)
    have hrest := ih (fun q hq => h q (by simp [hq]))
    simp only [fuelOfFields, printFields, List.length_cons, List.length_append]
    omega

theorem fuelOf_le (v : Json) : v.valid = true → fuelOf v ≤ 2 * (print v).length := by
  induction v using induct with
  | null => simp [fuelOf, print]
  | bool b => cases b <;> simp [fuelOf, print]
  | num literal =>
    intro hv
    have hne := (validNumber_chars hv).1
    have hpos : 0 < literal.toList.length := List.length_pos_of_ne_nil hne
    simp only [fuelOf, print]
    omega
  | str text =>
    intro _
    simp only [fuelOf, print, quote, List.length_cons]
    omega
  | arr items ih =>
    intro hv
    have hvalid := validItems_iff.1 hv
    cases items with
    | nil => simp [fuelOf, fuelOfItems, print]
    | cons x rest =>
      have hx := ih x (by simp) (hvalid x (by simp))
      have hrest := fuelOfItems_le rest
        (fun y hy => ih y (by simp [hy]) (hvalid y (by simp [hy])))
      simp only [fuelOf, fuelOfItems, print, List.length_cons, List.length_append]
      omega
  | obj fields ih =>
    intro hv
    have hvalid := validFields_iff.1 hv
    cases fields with
    | nil => simp [fuelOf, fuelOfFields, print]
    | cons p rest =>
      obtain ⟨k, x⟩ := p
      have hx : fuelOf x ≤ 2 * (print x).length :=
        ih (k, x) (by simp) (hvalid (k, x) (by simp))
      have hrest := fuelOfFields_le rest
        (fun q hq => ih q (by simp [hq]) (hvalid q (by simp [hq])))
      simp only [fuelOf, fuelOfFields, print, List.length_cons, List.length_append]
      omega

/-- One value that makes up the whole text. -/
def parse (text : String) : Option Json :=
  match parseValue (2 * text.toList.length) text.toList with
  | none => none
  | some (v, rest) => if skipSpace rest = [] then some v else none

/-- The text of a value as a string. -/
def toText (v : Json) : String := String.ofList (print v)

theorem parse_toText {v : Json} (hv : v.valid = true) : parse v.toText = some v := by
  have hread := readsBack v hv [] (2 * (print v).length) (by simp [Ends]) (fuelOf_le v hv)
  rw [List.append_nil] at hread
  simp [parse, toText, hread, skipSpace]

/-- **The text determines the value.** -/
theorem toText_inj {v w : Json} (hv : v.valid = true) (hw : w.valid = true)
    (h : v.toText = w.toText) : v = w := by
  have hread := parse_toText hv
  rw [h, parse_toText hw] at hread
  exact (Option.some.inj hread).symm

end Json

end AuditGovernance
