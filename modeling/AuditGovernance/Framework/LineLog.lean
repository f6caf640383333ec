import Mathlib.Data.List.Infix
import Mathlib.Data.List.TakeWhile
import Mathlib.Logic.Encodable.Basic
import Mathlib.Logic.Equiv.Basic

/-! # Line logs

    A log file holds one encoded value per line. A reader splits the bytes at
    newlines, trims white space, skips empty lines and decodes the rest; a
    final line without its newline counts. A writer appends whole lines, but
    an append that fails may leave any prefix of them behind.

    The encoding is a parameter: values open with `{` and close with `}`, the
    decoder reads the first value of a line and does not look at what follows
    it, and a value that is cut short cannot be decoded.
-/

namespace LineLog

abbrev Bytes := List UInt8

def newline : UInt8 := 10

def openBrace : UInt8 := 123

def closeBrace : UInt8 := 125

/-! ## Section 1: Splitting into lines -/

/-- Split the rest of a text, the line so far being `line`. -/
def splitFrom (line : Bytes) : Bytes → List Bytes
  | [] => if line = [] then [] else [line]
  | b :: rest => if b = newline then line :: splitFrom [] rest else splitFrom (line ++ [b]) rest

/-- The lines of a text. A last line needs no newline, but an empty one is not
    returned. -/
def splitLines (text : Bytes) : List Bytes := splitFrom [] text

theorem splitFrom_append {text : Bytes} (h : newline ∉ text) (line rest : Bytes) :
    splitFrom line (text ++ rest) = splitFrom (line ++ text) rest := by
  induction text generalizing line with
  | nil => simp
  | cons b text ih =>
    simp only [List.mem_cons, not_or] at h
    rw [List.cons_append, splitFrom, if_neg (Ne.symm h.1), ih h.2]
    simp

theorem splitLines_line {text : Bytes} (h : newline ∉ text) (rest : Bytes) :
    splitLines (text ++ newline :: rest) = text :: splitLines rest := by
  unfold splitLines
  rw [splitFrom_append h, splitFrom, if_pos rfl]
  rfl

theorem splitLines_last {text : Bytes} (h : newline ∉ text) (hne : text ≠ []) :
    splitLines text = [text] := by
  have hsplit := splitFrom_append h [] []
  rw [List.append_nil, List.nil_append] at hsplit
  unfold splitLines
  rw [hsplit, splitFrom, if_neg hne]

/-! ## Section 2: White space -/

/-- UTF-8 encodings of the white space characters. -/
def spaces : List Bytes :=
  [[9], [10], [11], [12], [13], [32], [0xC2, 0x85], [0xC2, 0xA0], [0xE1, 0x9A, 0x80],
   [0xE2, 0x80, 0x80], [0xE2, 0x80, 0x81], [0xE2, 0x80, 0x82], [0xE2, 0x80, 0x83],
   [0xE2, 0x80, 0x84], [0xE2, 0x80, 0x85], [0xE2, 0x80, 0x86], [0xE2, 0x80, 0x87],
   [0xE2, 0x80, 0x88], [0xE2, 0x80, 0x89], [0xE2, 0x80, 0x8A], [0xE2, 0x80, 0xA8],
   [0xE2, 0x80, 0xA9], [0xE2, 0x80, 0xAF], [0xE2, 0x81, 0x9F], [0xE3, 0x80, 0x80]]

/-- Remove one of the given pieces from the front. -/
def strip (pieces : List Bytes) (text : Bytes) : Option Bytes :=
  pieces.findSome? fun piece =>
    if piece.isPrefixOf text then some (text.drop piece.length) else none

/-- Remove the given pieces from the front for as long as there are any. -/
def stripAll (pieces : List Bytes) : Nat → Bytes → Bytes
  | 0, text => text
  | fuel + 1, text =>
    match strip pieces text with
    | none => text
    | some rest => stripAll pieces fuel rest

/-- White space removed on both sides. -/
def trimSpace (text : Bytes) : Bytes :=
  let front := stripAll spaces text.length text
  (stripAll (spaces.map List.reverse) front.length front.reverse).reverse

/-- A byte that occurs in no piece stops the stripping. -/
theorem stripAll_keep {pieces : List Bytes} {b : UInt8} (h : ∀ piece ∈ pieces, b ∉ piece)
    (fuel : Nat) (text : Bytes) :
    ∃ rest, rest <:+ text ∧ stripAll pieces fuel (text ++ [b]) = rest ++ [b] := by
  induction fuel generalizing text with
  | zero => exact ⟨text, List.suffix_refl _, rfl⟩
  | succ fuel ih =>
    unfold stripAll
    cases hs : strip pieces (text ++ [b]) with
    | none => exact ⟨text, List.suffix_refl _, rfl⟩
    | some stripped =>
      obtain ⟨piece, hmem, hpiece⟩ := List.exists_of_findSome?_eq_some hs
      split at hpiece
      · next hpre =>
        rcases List.prefix_concat_iff.1 (List.isPrefixOf_iff_prefix.1 hpre) with heq | hshort
        · -- the piece cannot reach the byte
          exact absurd (by simp [heq]) (h piece hmem)
        · cases hpiece
          obtain ⟨rest, hrest, heq⟩ := ih (text.drop piece.length)
          refine ⟨rest, hrest.trans (List.drop_suffix _ _), ?_⟩
          rw [← heq, List.drop_append_of_le_length hshort.length_le]
      · cases hpiece

/-- Nothing is stripped in front of a byte that starts no piece. -/
theorem stripAll_solid {pieces : List Bytes} {b : UInt8}
    (h : ∀ piece ∈ pieces, piece ≠ [] ∧ piece.head? ≠ some b) (fuel : Nat) (text : Bytes) :
    stripAll pieces fuel (b :: text) = b :: text := by
  cases fuel with
  | zero => rfl
  | succ fuel =>
    have hstrip : strip pieces (b :: text) = none := by
      unfold strip
      rw [List.findSome?_eq_none_iff]
      intro piece hpiece
      obtain ⟨hne, hhead⟩ := h piece hpiece
      obtain ⟨c, rest, rfl⟩ := List.exists_cons_of_ne_nil hne
      have hcb : c ≠ b := by simpa using hhead
      simp [List.isPrefixOf, hcb]
    rw [stripAll, hstrip]

/-- A text that opens with a brace loses at most some of its end. -/
theorem trimSpace_open (text : Bytes) :
    ∃ part, part <+: text ∧ trimSpace (openBrace :: text) = openBrace :: part := by
  have hfront : stripAll spaces (openBrace :: text).length (openBrace :: text) =
      openBrace :: text := stripAll_solid (by decide) _ _
  have hbytes : ∀ piece ∈ spaces.map List.reverse, openBrace ∉ piece := by decide
  obtain ⟨rest, hrest, heq⟩ := stripAll_keep hbytes (openBrace :: text).length text.reverse
  refine ⟨rest.reverse, ?_, ?_⟩
  · rw [← List.reverse_suffix, List.reverse_reverse]
    exact hrest
  · unfold trimSpace
    simp only [hfront, List.reverse_cons, heq, List.reverse_append, List.reverse_nil,
      List.nil_append, List.cons_append]

/-- A text between braces stays as it is. -/
theorem trimSpace_braces (body : Bytes) :
    trimSpace (openBrace :: (body ++ [closeBrace])) = openBrace :: (body ++ [closeBrace]) := by
  have hfront : stripAll spaces (openBrace :: (body ++ [closeBrace])).length
      (openBrace :: (body ++ [closeBrace])) = openBrace :: (body ++ [closeBrace]) :=
    stripAll_solid (by decide) _ _
  have hback : (openBrace :: (body ++ [closeBrace])).reverse =
      closeBrace :: (body.reverse ++ [openBrace]) := by simp
  unfold trimSpace
  simp only [hfront]
  rw [hback, stripAll_solid (by decide)]
  simp

/-! ## Section 3: Values on lines -/

/-- An encoding of values as self-delimiting texts without newlines. -/
structure LineCodec (α : Type) where
  encode : α → Bytes
  /-- Decode the first value of a text. -/
  decode : Bytes → Option α
  braces : ∀ a, ∃ body, encode a = openBrace :: (body ++ [closeBrace])
  oneLine : ∀ a, newline ∉ encode a
  /-- What follows the first value is not looked at. -/
  decode_append : ∀ a rest, decode (encode a ++ rest) = some a
  /-- A value that is cut short is an error. -/
  decode_truncated : ∀ a part, part <+: encode a → part ≠ encode a → decode part = none

/-- What a reader asks of a line besides being decodable. -/
structure Reader (α ε : Type) where
  /-- Lines of this length or more are refused. -/
  limit : Nat
  tooLong : ε
  malformed : ε
  check : α → Except ε Unit

section Reading

variable {α ε : Type} (codec : LineCodec α) (reader : Reader α ε)

/-- The bytes of an append. -/
def LineCodec.text (values : List α) : Bytes :=
  values.flatMap fun a => codec.encode a ++ [newline]

/-- Decode line by line; the first bad line decides the error. -/
def Reader.readLines : List Bytes → Except ε (List α)
  | [] => .ok []
  | line :: rest =>
    if line.length ≥ reader.limit then .error reader.tooLong
    else
      let text := trimSpace line
      if text = [] then Reader.readLines rest
      else
        match codec.decode text with
        | none => .error reader.malformed
        | some a =>
          match reader.check a with
          | .error e => .error e
          | .ok () => (Reader.readLines rest).map (a :: ·)

def Reader.read (file : Bytes) : Except ε (List α) := reader.readLines codec (splitLines file)

/-- The value can be read back from a line of its own. -/
def Reader.Accepts (a : α) : Prop :=
  (codec.encode a).length < reader.limit ∧ reader.check a = .ok ()

/-- A line that starts with a value is read as that value. -/
theorem Reader.readLines_value {a : α} {more : Bytes} (rest : List Bytes)
    (hfit : (codec.encode a ++ more).length < reader.limit)
    (hend : more = [] ∨ ∃ body, more = body ++ [closeBrace]) :
    reader.readLines codec ((codec.encode a ++ more) :: rest) =
      match reader.check a with
      | .error e => .error e
      | .ok () => (reader.readLines codec rest).map (a :: ·) := by
  obtain ⟨body, hbody⟩ := codec.braces a
  have htrim : trimSpace (codec.encode a ++ more) = codec.encode a ++ more := by
    rcases hend with rfl | ⟨body', rfl⟩
    · rw [List.append_nil, hbody]
      exact trimSpace_braces body
    · rw [hbody]
      simpa using trimSpace_braces (body ++ [closeBrace] ++ body')
  have hne : codec.encode a ++ more ≠ [] := by
    rw [hbody]
    exact List.cons_ne_nil _ _
  rw [Reader.readLines, if_neg (by omega)]
  simp only [htrim, if_neg hne, codec.decode_append]

variable {codec reader}

@[simp] theorem LineCodec.text_nil : codec.text [] = [] := rfl

@[simp] theorem LineCodec.text_cons (a : α) (rest : List α) :
    codec.text (a :: rest) = codec.encode a ++ newline :: codec.text rest := by
  simp [LineCodec.text]

@[simp] theorem LineCodec.text_append (left right : List α) :
    codec.text (left ++ right) = codec.text left ++ codec.text right := by
  simp [LineCodec.text]

/-- Complete lines are read one value each, whatever follows them. -/
theorem Reader.read_text_append {values : List α} (h : ∀ a ∈ values, reader.Accepts codec a)
    (tail : Bytes) :
    reader.read codec (codec.text values ++ tail) =
      (reader.read codec tail).map (values ++ ·) := by
  induction values with
  | nil =>
    simp only [LineCodec.text_nil, List.nil_append]
    cases reader.read codec tail <;> rfl
  | cons a rest ih =>
    obtain ⟨hfit, hcheck⟩ := h a List.mem_cons_self
    have hrest := ih (fun b hb => h b (List.mem_cons_of_mem _ hb))
    have hline := Reader.readLines_value codec reader (a := a)
      (splitLines (codec.text rest ++ tail)) (by simpa using hfit) (.inl rfl)
    unfold Reader.read at hrest ⊢
    rw [LineCodec.text_cons, List.append_assoc, List.cons_append, splitLines_line (codec.oneLine a)]
    rw [List.append_nil, hcheck] at hline
    rw [hline]
    simp only [hrest]
    cases reader.readLines codec (splitLines tail) <;> rfl

theorem Reader.read_text {values : List α} (h : ∀ a ∈ values, reader.Accepts codec a) :
    reader.read codec (codec.text values) = .ok values := by
  have htail := Reader.read_text_append h []
  rw [List.append_nil] at htail
  rw [htail]
  show Except.ok (values ++ []) = Except.ok values
  rw [List.append_nil]

/-- A file whose last line is cut inside a value cannot be read. -/
theorem Reader.read_truncated {a : α} {part : Bytes} (hfit : part.length < reader.limit)
    (hpart : part <+: codec.encode a) (hne : part ≠ []) (hcut : part ≠ codec.encode a) :
    reader.read codec part = .error reader.malformed := by
  obtain ⟨body, hbody⟩ := codec.braces a
  have hline : newline ∉ part := fun hmem => codec.oneLine a (hpart.subset hmem)
  obtain ⟨b, text, rfl⟩ := List.exists_cons_of_ne_nil hne
  have hb : b = openBrace := by
    obtain ⟨more, hmore⟩ := hpart
    rw [hbody] at hmore
    exact (List.cons.inj hmore).1
  subst hb
  obtain ⟨kept, hkept, htrim⟩ := trimSpace_open text
  -- trimming only shortens the fragment
  have hpre : openBrace :: kept <+: openBrace :: text := (List.prefix_cons_inj _).2 hkept
  have hshort : openBrace :: kept ≠ codec.encode a := by
    intro heq
    apply hcut
    exact hpart.eq_of_length_le (heq ▸ hpre.length_le)
  unfold Reader.read
  rw [splitLines_last hline (List.cons_ne_nil _ _), Reader.readLines, if_neg (by omega)]
  simp only [htrim, codec.decode_truncated a _ (hpre.trans hpart) hshort]
  rfl

end Reading

/-! ## Section 4: An encoding of any countable type

    Values are numbered and written in unary between braces; the number of one
    chosen value is zero. -/

section Unary

variable {α : Type} [Encodable α]

def unaryText (n : Nat) : Bytes := openBrace :: (List.replicate n 49 ++ [closeBrace])

def parseUnary : Bytes → Option Nat
  | [] => none
  | b :: rest =>
    if b = openBrace then
      match rest.dropWhile (· = 49) with
      | [] => none
      | c :: _ => if c = closeBrace then some (rest.takeWhile (· = 49)).length else none
    else none

theorem parseUnary_text (n : Nat) (rest : Bytes) :
    parseUnary (unaryText n ++ rest) = some n := by
  have hdrop : (List.replicate n (49 : UInt8) ++ closeBrace :: rest).dropWhile (· = 49) =
      closeBrace :: rest := by
    rw [List.dropWhile_append_of_pos (by simp +contextual [List.mem_replicate])]
    simp [closeBrace]
  have htake : (List.replicate n (49 : UInt8) ++ closeBrace :: rest).takeWhile (· = 49) =
      List.replicate n 49 := by
    rw [List.takeWhile_append_of_pos (by simp +contextual [List.mem_replicate])]
    simp [closeBrace]
  simp [parseUnary, unaryText, hdrop, htake]

theorem parseUnary_truncated {n : Nat} {part : Bytes} (hpre : part <+: unaryText n)
    (hcut : part ≠ unaryText n) : parseUnary part = none := by
  unfold unaryText at hpre hcut
  rw [← List.cons_append, List.prefix_concat_iff] at hpre
  have hshort : part <+: openBrace :: List.replicate n 49 := by
    rcases hpre with heq | hshort
    · exact absurd heq hcut
    · exact hshort
  cases part with
  | nil => rfl
  | cons b rest =>
    obtain ⟨rfl, hrest⟩ := List.cons_prefix_cons.1 hshort
    have hones : ∀ c ∈ rest, decide (c = 49) = true := by
      intro c hc
      simpa using List.eq_of_mem_replicate (hrest.subset hc)
    have hdrop : rest.dropWhile (· = 49) = [] := by
      rw [List.dropWhile_eq_nil_iff]
      exact hones
    simp [parseUnary, hdrop]

/-- The code of a value, with zero for the chosen one. -/
def unaryCode (first a : α) : Nat := Equiv.swap 0 (Encodable.encode first) (Encodable.encode a)

def LineCodec.unary (first : α) : LineCodec α where
  encode a := unaryText (unaryCode first a)
  decode text := (parseUnary text).bind fun n =>
    Encodable.decode (Equiv.swap 0 (Encodable.encode first) n)
  braces a := ⟨_, rfl⟩
  oneLine a := by
    simp [unaryText, newline, openBrace, closeBrace, List.mem_replicate]
  decode_append a rest := by
    rw [parseUnary_text]
    simp [unaryCode]
  decode_truncated a part hpre hcut := by
    rw [parseUnary_truncated hpre hcut]
    rfl

theorem LineCodec.unary_encode_first (first : α) :
    (LineCodec.unary first).encode first = [openBrace, closeBrace] := by
  simp [LineCodec.unary, unaryCode, unaryText]

end Unary

end LineLog
