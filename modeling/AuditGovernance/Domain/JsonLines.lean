import AuditGovernance.Domain.CanonicalJson
import AuditGovernance.Framework.Segments

/-! # JSON objects on lines

    The bytes of a text, and what the readers of line files need of a JSON
    object that is written to a line: its bytes hold no newline, and they are
    read back as the object. Struct fields are read the way `encoding/json`
    reads them.
-/

namespace AuditGovernance

open LineLog

/-! ## Section 1: Texts and bytes -/

def bytesOf (text : String) : Bytes := text.toUTF8.data.toList

def textOf (bytes : Bytes) : Option String := String.fromUTF8? ⟨bytes.toArray⟩

theorem textOf_bytesOf (text : String) : textOf (bytesOf text) = some text := by
  unfold textOf bytesOf String.fromUTF8? String.toUTF8
  have hbytes : (⟨text.toByteArray.data.toList.toArray⟩ : ByteArray) = text.toByteArray := rfl
  rw [hbytes, dif_pos text.isValidUTF8]
  rfl

/-- `bytes.TrimRight(_, "\r")`. -/
def trimRight (bytes : Bytes) : Bytes := bytes.rdropWhile (· = 13)

theorem bytesOf_ofList (chars : List Char) :
    bytesOf (String.ofList chars) = chars.flatMap String.utf8EncodeChar := by
  unfold bytesOf String.toUTF8
  rw [String.toByteArray_ofList]
  simp [List.utf8Encode]

theorem bytesOf_append (a b : String) : bytesOf (a ++ b) = bytesOf a ++ bytesOf b := by
  unfold bytesOf String.toUTF8
  rw [String.toByteArray_append]
  simp

theorem length_bytesOf (text : String) : (bytesOf text).length = text.utf8ByteSize := rfl

theorem bytesOf_inj {a b : String} (h : bytesOf a = bytesOf b) : a = b := by
  have htext := textOf_bytesOf a
  rw [h, textOf_bytesOf] at htext
  exact (Option.some.inj htext).symm

/-- No control characters. -/
def Printable (text : List Char) : Prop := ∀ c ∈ text, 32 ≤ c.toNat

theorem le_of_mem_encode {c : Char} (hc : 32 ≤ c.toNat) {b : UInt8}
    (h : b ∈ String.utf8EncodeChar c) : 32 ≤ b.toNat := by
  have hbyte : ∀ n : Nat, 32 ≤ n → n < 256 → b = UInt8.ofNat n → 32 ≤ b.toNat := by
    rintro n hle hn rfl
    rwa [UInt8.toNat_ofNat', Nat.mod_eq_of_lt hn]
  unfold String.utf8EncodeChar at h
  dsimp only at h
  split_ifs at h
  · exact hbyte c.val.toNat hc (by omega) (List.mem_singleton.1 h)
  -- all bytes of a longer encoding have their top bit set
  all_goals simp only [List.mem_cons, List.not_mem_nil, or_false] at h
  · rcases h with h | h
    all_goals exact hbyte _ (by omega) (by omega) h
  · rcases h with h | h | h
    all_goals exact hbyte _ (by omega) (by omega) h
  · rcases h with h | h | h | h
    all_goals exact hbyte _ (by omega) (by omega) h

theorem le_of_mem_bytesOf {chars : List Char} (h : Printable chars) {b : UInt8}
    (hb : b ∈ bytesOf (String.ofList chars)) : 32 ≤ b.toNat := by
  rw [bytesOf_ofList] at hb
  obtain ⟨c, hc, hin⟩ := List.mem_flatMap.1 hb
  exact le_of_mem_encode (h c hc) hin

/-! ### The printer escapes control characters -/

theorem printable_cons {c : Char} {text : List Char} (hc : 32 ≤ c.toNat) (h : Printable text) :
    Printable (c :: text) := by
  intro x hx
  rcases List.mem_cons.1 hx with rfl | hx
  · exact hc
  · exact h x hx

theorem printable_append {a b : List Char} (ha : Printable a) (hb : Printable b) :
    Printable (a ++ b) := by
  intro x hx
  rcases List.mem_append.1 hx with hx | hx
  · exact ha x hx
  · exact hb x hx

theorem printable_unicodeEscape (n : Nat) : Printable (Json.unicodeEscape n) := by
  have hdigit : ∀ k < 16, 32 ≤ (Json.hexDigit k).toNat := by decide
  have hmod : ∀ k, 32 ≤ (Json.hexDigit (k % 16)).toNat := fun k => hdigit _ (Nat.mod_lt _ (by decide))
  intro x hx
  unfold Json.unicodeEscape at hx
  simp only [List.mem_cons, List.not_mem_nil, or_false] at hx
  rcases hx with rfl | rfl | rfl | rfl | rfl | rfl
  · decide
  · decide
  all_goals exact hmod _

theorem printable_short {c : Char} (hc : 32 ≤ c.toNat) : Printable ['\\', c] :=
  printable_cons (by decide) (printable_cons hc (by simp [Printable]))

theorem printable_escape (c : Char) : Printable (Json.escapeChar c) := by
  unfold Json.escapeChar
  split_ifs
  all_goals first
    | exact printable_short (by decide)
    | exact printable_unicodeEscape _
    | skip
  intro x hx
  obtain rfl := List.mem_singleton.1 hx
  omega

theorem printable_quote (text : String) : Printable (Json.quote text) := by
  unfold Json.quote
  have hbody : Printable (text.toList.flatMap Json.escapeChar) := by
    intro x hx
    obtain ⟨c, -, hin⟩ := List.mem_flatMap.1 hx
    exact printable_escape c x hin
  exact printable_cons (by decide)
    (printable_append hbody (printable_cons (by decide) (by simp [Printable])))

theorem printable_number {literal : String} (h : Json.validNumber literal = true) :
    Printable literal.toList := by
  intro c hc
  rcases Json.isNumberChar_cases ((Json.validNumber_chars h).2 c hc) with
    ⟨hdigit, -⟩ | rfl | rfl | rfl | rfl | rfl
  · omega
  all_goals decide

theorem printable_items {items : List Json}
    (h : ∀ x ∈ items, x.valid = true → Printable x.print)
    (hvalid : Json.validItems items = true) : Printable (Json.printItems items) := by
  induction items with
  | nil =>
    rw [Json.printItems]
    exact printable_cons (by decide) (by simp [Printable])
  | cons x rest ih =>
    rw [Json.validItems, Bool.and_eq_true] at hvalid
    rw [Json.printItems]
    exact printable_cons (by decide) (printable_append (h x List.mem_cons_self hvalid.1)
      (ih (fun y hy => h y (List.mem_cons_of_mem _ hy)) hvalid.2))

theorem printable_fields {fields : List (String × Json)}
    (h : ∀ p ∈ fields, p.2.valid = true → Printable p.2.print)
    (hvalid : Json.validFields fields = true) : Printable (Json.printFields fields) := by
  induction fields with
  | nil =>
    rw [Json.printFields]
    exact printable_cons (by decide) (by simp [Printable])
  | cons p rest ih =>
    rw [Json.validFields, Bool.and_eq_true] at hvalid
    rw [Json.printFields]
    exact printable_cons (by decide) (printable_append (printable_quote p.1)
      (printable_cons (by decide) (printable_append (h p List.mem_cons_self hvalid.1)
        (ih (fun q hq => h q (List.mem_cons_of_mem _ hq)) hvalid.2))))

theorem Printable.tail {c : Char} {text : List Char} (h : Printable (c :: text)) : Printable text :=
  fun x hx => h x (List.mem_cons_of_mem _ hx)

/-- **The text of a value has no control characters.** -/
theorem printable_print {v : Json} : v.valid = true → Printable v.print := by
  induction v using Json.induct with
  | null =>
    intro _ c hc
    rw [Json.print] at hc
    fin_cases hc <;> decide
  | bool b =>
    intro _ c hc
    cases b with
    | true =>
      rw [Json.print] at hc
      fin_cases hc <;> decide
    | false =>
      rw [Json.print] at hc
      fin_cases hc <;> decide
  | num literal =>
    intro hvalid
    rw [Json.print]
    exact printable_number hvalid
  | str text =>
    intro _
    rw [Json.print]
    exact printable_quote text
  | arr items ih =>
    intro hvalid
    rw [Json.valid] at hvalid
    have hitems := printable_items ih hvalid
    cases items with
    | nil =>
      rw [Json.print]
      exact printable_cons (by decide) (printable_cons (by decide) (by simp [Printable]))
    | cons x rest =>
      rw [Json.printItems] at hitems
      rw [Json.print]
      exact printable_cons (by decide) hitems.tail
  | obj fields ih =>
    intro hvalid
    rw [Json.valid] at hvalid
    have hfields := printable_fields ih hvalid
    cases fields with
    | nil =>
      rw [Json.print]
      exact printable_cons (by decide) (printable_cons (by decide) (by simp [Printable]))
    | cons p rest =>
      rw [Json.printFields] at hfields
      rw [Json.print]
      exact printable_cons (by decide) hfields.tail

theorem le_of_mem_toText {v : Json} (hv : v.valid = true) {b : UInt8} (hb : b ∈ bytesOf v.toText) :
    32 ≤ b.toNat :=
  le_of_mem_bytesOf (printable_print hv) hb

/-! ## Section 2: Objects of strings -/

/-- The value of a line. -/
def jsonOf (line : Bytes) : Option Json := (textOf line).bind Json.parse

/-- What a reader needs of the bytes of a JSON object. -/
structure LineBody (body : Bytes) (v : Json) : Prop where
  oneLine : newline ∉ body
  solid : trimRight body ≠ []
  value : jsonOf body = some v

/-- An object of strings. -/
def texts (fields : List (String × String)) : List (String × Json) :=
  fields.map (fun p => (p.1, .str p.2))

theorem validFields_texts (fields : List (String × String)) :
    Json.validFields (texts fields) = true := by
  induction fields with
  | nil => rfl
  | cons p rest ih =>
    simp only [texts, List.map_cons, Json.validFields, Json.valid, Bool.true_and]
    exact ih

theorem lineBody_texts (p : String × String) (rest : List (String × String)) :
    LineBody (bytesOf (Json.obj (texts (p :: rest))).toText) (.obj (texts (p :: rest))) := by
  have hv : (Json.obj (texts (p :: rest))).valid = true := by
    rw [Json.valid]
    exact validFields_texts (p :: rest)
  refine ⟨?_, ?_, ?_⟩
  · intro hmem
    exact absurd (le_of_mem_toText hv hmem) (by decide)
  · -- the text opens with a brace
    have hopen : (123 : UInt8) ∈ bytesOf (Json.obj (texts (p :: rest))).toText := by
      unfold Json.toText
      rw [bytesOf_ofList, List.mem_flatMap]
      exact ⟨'\x7b', by simp [texts, Json.print], by decide⟩
    intro hnil
    unfold trimRight at hnil
    rw [List.rdropWhile_eq_nil_iff] at hnil
    exact absurd (hnil 123 hopen) (by decide)
  · unfold jsonOf
    rw [textOf_bytesOf, Option.bind_some]
    exact Json.parse_toText hv

/-! ## Section 3: Struct fields -/

/-- A string field of a struct: field names match in any case, `null` leaves
    the field alone, the last match counts, and another kind of value is an
    error. -/
def structText (name : String) (fields : List (String × Json)) : Option String :=
  (fields.filter (fun p => p.1.toLower = name)).foldl
    (fun text p =>
      match p.2 with
      | .null => text
      | .str value => text.map (fun _ => value)
      | _ => none)
    (some "")

end AuditGovernance
