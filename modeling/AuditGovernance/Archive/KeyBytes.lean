import AuditGovernance.Framework.PathClean
import AuditGovernance.Service.ArchiveKeys
import AuditGovernance.Service.Persistence

/-! # Archive keys as byte strings

    The component code of `internal/fsutil/fsutil.go` on arbitrary byte
    strings, with its decoder, the object keys of events and segments, and the
    lexical check a key passes before the archive directory is touched
    (`validateArchiveKey` in `internal/archive/archive_secure_common.go`).

    Identifiers of accepted events are texts; the code itself works byte by
    byte, and what it promises (`archive_keys_injective_and_contained`) holds
    for all byte strings. `eventArchiveKey_bytes` connects the two.
-/

namespace AuditGovernance

namespace ArchiveKey

open InMemory (InInt64)

/-! ## Section 1: The component code -/

abbrev Bytes := List UInt8

/-- The bytes of a text. -/
def text (s : String) : Bytes := s.toByteArray.data.toList

def percent : UInt8 := 37

def slash : UInt8 := 47

def backslash : UInt8 := 92

def dot : UInt8 := 46

def isSafe (c : UInt8) : Bool := isSafeComponentByte c.toNat

/-- `hexUpperDigits[n]`. -/
def hexUpperDigit (n : UInt8) : UInt8 := if n < 10 then 48 + n else 55 + n

def encodeByte (c : UInt8) : Bytes :=
  if isSafe c then [c] else [percent, hexUpperDigit (c >>> 4), hexUpperDigit (c &&& 0x0f)]

/-- `EncodeKeyComponent`. -/
def encodeKeyComponent (value : Bytes) : Bytes :=
  if value = [] then [percent]
  else if value = [dot] then text "%2E"
  else if value = [dot, dot] then text "%2E%2E"
  else value.flatMap encodeByte

/-- `hexDigitValue`. -/
def hexDigitValue (c : UInt8) : Option UInt8 :=
  if 48 ≤ c ∧ c ≤ 57 then some (c - 48)
  else if 97 ≤ c ∧ c ≤ 102 then some (c - 97 + 10)
  else if 65 ≤ c ∧ c ≤ 70 then some (c - 65 + 10)
  else none

/-- The errors of `DecodeKeyComponent`. -/
inductive DecodeError where
  | truncatedEscape
  | nonHexEscape
  | unescapedByte (c : UInt8)
deriving DecidableEq

/-- The loop of `DecodeKeyComponent`. -/
def decodeBytes : Bytes → Except DecodeError Bytes
  | [] => .ok []
  | c :: rest =>
    if isSafe c then (decodeBytes rest).map (c :: ·)
    else if c = percent then
      match rest with
      | hi :: lo :: rest' =>
        match hexDigitValue hi, hexDigitValue lo with
        | some h, some l => (decodeBytes rest').map ((h <<< 4 ||| l) :: ·)
        | _, _ => .error .nonHexEscape
      | _ => .error .truncatedEscape
    else .error (.unescapedByte c)

/-- `DecodeKeyComponent`. -/
def decodeKeyComponent (value : Bytes) : Except DecodeError Bytes :=
  if value = [percent] then .ok [] else decodeBytes value

theorem forall_byte {P : UInt8 → Prop} (h : ∀ n : Fin 256, P (UInt8.ofNat n.val)) (c : UInt8) :
    P c := by
  have hc := h ⟨c.toNat, c.toNat_lt⟩
  rwa [UInt8.ofNat_toNat] at hc

/-- A byte that needs no care in a path. -/
def isPlain (b : UInt8) : Bool := b != slash && b != backslash && b < 128

/-- What the code does with each of the 256 bytes: the two digits of an escape
    read back, what is written is plain, and the escape is that of the file
    names. -/
theorem byte_table : ∀ c : UInt8,
    (hexDigitValue (hexUpperDigit (c >>> 4)) = some (c >>> 4) ∧
      hexDigitValue (hexUpperDigit (c &&& 0x0f)) = some (c &&& 0x0f) ∧
      ((c >>> 4) <<< 4 ||| (c &&& 0x0f)) = c) ∧
    (isPlain (hexUpperDigit (c >>> 4)) = true ∧ isPlain (hexUpperDigit (c &&& 0x0f)) = true) ∧
    (isSafe c = true → isPlain c = true) ∧
    (45 ≤ c.toNat → c.toNat ≤ 57 → c.toNat ≠ 47 → isPlain c = true) ∧
    (PercentCode.encodeByte componentAlphabet c.toNat).map Char.toNat =
      (encodeByte c).map UInt8.toNat :=
  forall_byte (by decide +kernel)

theorem hex_roundtrip (c : UInt8) :
    hexDigitValue (hexUpperDigit (c >>> 4)) = some (c >>> 4) ∧
      hexDigitValue (hexUpperDigit (c &&& 0x0f)) = some (c &&& 0x0f) ∧
      ((c >>> 4) <<< 4 ||| (c &&& 0x0f)) = c :=
  (byte_table c).1

theorem hexUpperDigit_plain (c : UInt8) :
    isPlain (hexUpperDigit (c >>> 4)) = true ∧ isPlain (hexUpperDigit (c &&& 0x0f)) = true :=
  (byte_table c).2.1

theorem isSafe_plain (c : UInt8) : isSafe c = true → isPlain c = true := (byte_table c).2.2.1

theorem encodeByte_plain (c : UInt8) : ∀ b ∈ encodeByte c, isPlain b = true := by
  intro b hb
  unfold encodeByte at hb
  by_cases hsafe : isSafe c = true
  · rw [if_pos hsafe, List.mem_singleton] at hb
    rw [hb]
    exact isSafe_plain c hsafe
  · rw [if_neg hsafe] at hb
    simp only [List.mem_cons, List.not_mem_nil, or_false] at hb
    rcases hb with rfl | rfl | rfl
    · decide
    · exact (hexUpperDigit_plain c).1
    · exact (hexUpperDigit_plain c).2

theorem decodeBytes_encodeByte (c : UInt8) (rest : Bytes) :
    decodeBytes (encodeByte c ++ rest) = (decodeBytes rest).map (c :: ·) := by
  unfold encodeByte
  by_cases hsafe : isSafe c = true
  · rw [if_pos hsafe, List.singleton_append]
    conv_lhs => unfold decodeBytes
    rw [if_pos hsafe]
  · obtain ⟨hhi, hlo, hjoin⟩ := hex_roundtrip c
    have hpercent : ¬ isSafe percent = true := by decide
    rw [if_neg hsafe]
    show decodeBytes (percent :: hexUpperDigit (c >>> 4) :: hexUpperDigit (c &&& 0x0f) :: rest) = _
    conv_lhs => unfold decodeBytes
    rw [if_neg hpercent, if_pos rfl]
    simp only [hhi, hlo, hjoin]

theorem decodeBytes_flatMap (value : Bytes) : decodeBytes (value.flatMap encodeByte) = .ok value := by
  induction value with
  | nil => rfl
  | cons c rest ih =>
    rw [List.flatMap_cons, decodeBytes_encodeByte, ih]
    rfl

theorem decodeBytes_percent : decodeBytes [percent] = .error .truncatedEscape := by decide

/-- **The code can be read back.** -/
theorem decode_encode (value : Bytes) : decodeKeyComponent (encodeKeyComponent value) = .ok value := by
  unfold encodeKeyComponent
  split_ifs with hempty hdot hdots
  · rw [hempty]
    rfl
  · rw [hdot]
    rfl
  · rw [hdots]
    rfl
  · have hloop := decodeBytes_flatMap value
    rw [decodeKeyComponent, if_neg]
    · exact hloop
    · intro hlone
      rw [hlone, decodeBytes_percent] at hloop
      cases hloop

theorem encodeKeyComponent_inj {a b : Bytes} (h : encodeKeyComponent a = encodeKeyComponent b) :
    a = b := by
  have hdecode := decode_encode a
  rw [h, decode_encode b] at hdecode
  exact (Except.ok.inj hdecode).symm

theorem encodeKeyComponent_plain (value : Bytes) :
    ∀ b ∈ encodeKeyComponent value, isPlain b = true := by
  unfold encodeKeyComponent
  split_ifs
  · exact List.all_eq_true.1 rfl
  · exact List.all_eq_true.1 rfl
  · exact List.all_eq_true.1 rfl
  · intro b hb
    obtain ⟨c, -, hc⟩ := List.mem_flatMap.1 hb
    exact encodeByte_plain c b hc

/-- The symbols of archive paths. -/
def symbols : PathClean.Symbols UInt8 := ⟨slash, dot⟩

/-- An encoded component names something: the texts it must not be are read
    back as themselves, and for those the code writes an escape. -/
theorem encodeKeyComponent_ordinary (value : Bytes) :
    PathClean.Ordinary symbols (encodeKeyComponent value) where
  nonempty := by
    intro h
    have hdecode := decode_encode value
    rw [h] at hdecode
    have hvalue : value = [] := (Except.ok.inj hdecode).symm
    rw [hvalue] at h
    cases h
  notDot := by
    intro h
    have hdecode := decode_encode value
    rw [h] at hdecode
    have hvalue : value = [dot] := (Except.ok.inj hdecode).symm
    rw [hvalue] at h
    exact absurd h (by decide)
  notDotDot := by
    intro h
    have hdecode := decode_encode value
    rw [h] at hdecode
    have hvalue : value = [dot, dot] := (Except.ok.inj hdecode).symm
    rw [hvalue] at h
    exact absurd h (by decide)
  noSep := fun h => absurd (encodeKeyComponent_plain value _ h) (by decide)

/-! ## Section 2: Sequence numbers -/

theorem text_append (a b : String) : text (a ++ b) = text a ++ text b := by
  rw [text, String.toByteArray_append]
  simp [text]

theorem text_inj {a b : String} (h : text a = text b) : a = b :=
  utf8_inj (congrArg (List.map UInt8.toNat) h)

theorem value_leftpad (width n : Nat) :
    Decimal.value (List.leftpad width '0' (Nat.toDigits 10 n)) = n := by
  rw [List.leftpad, Decimal.value_zeros_append, Decimal.value, Nat.ofDigitChars_ten_toDigits]

theorem leftpad_digits (width n : Nat) :
    ∀ c ∈ List.leftpad width '0' (Nat.toDigits 10 n), c.isDigit = true := by
  intro c hc
  rw [List.leftpad, List.mem_append] at hc
  rcases hc with hc | hc
  · rw [List.eq_of_mem_replicate hc]
    decide
  · exact Nat.isDigit_of_mem_toDigits (by decide) (by decide) hc

theorem toList_sequenceText_sign (n : Int) :
    (sequenceText n).toList =
      if n < 0 then '-' :: List.leftpad 19 '0' (Nat.toDigits 10 n.natAbs)
      else List.leftpad 20 '0' (Nat.toDigits 10 n.natAbs) := by
  have hdash : "-".toList = ['-'] := by decide
  unfold sequenceText
  split_ifs
  · rw [String.toList_append, hdash, String.toList_ofList]
    rfl
  · rw [String.toList_ofList]

theorem sequenceText_inj {m n : Int} (h : sequenceText m = sequenceText n) : m = n := by
  have hlist := congrArg String.toList h
  rw [toList_sequenceText_sign, toList_sequenceText_sign] at hlist
  -- a sign is no digit
  have hsign : ∀ (width k : Nat) (rest : List Char),
      '-' :: rest ≠ List.leftpad width '0' (Nat.toDigits 10 k) := by
    intro width k rest heq
    exact absurd (leftpad_digits width k '-' (heq ▸ List.mem_cons_self)) (by decide)
  split_ifs at hlist with hm hn hn
  · have hvalue := congrArg Decimal.value (List.cons_inj_right _ |>.1 hlist)
    rw [value_leftpad, value_leftpad] at hvalue
    omega
  · exact absurd hlist (hsign _ _ _)
  · exact absurd hlist.symm (hsign _ _ _)
  · have hvalue := congrArg Decimal.value hlist
    rw [value_leftpad, value_leftpad] at hvalue
    omega

theorem text_sequence {n : Int} (h : InInt64 n) :
    (text (sequenceText n)).length = 20 ∧ ∀ b ∈ text (sequenceText n), isPlain b = true := by
  obtain ⟨hlow, hhigh⟩ := h
  rw [maxInt64] at hhigh
  have hlength : (sequenceText n).toList.length = 20 := by
    rw [toList_sequenceText_sign]
    split_ifs with hneg
    · have hdigits : (Nat.toDigits 10 n.natAbs).length ≤ 19 := by
        rw [Nat.length_toDigits_le_iff (by decide) (by decide)]
        omega
      rw [List.length_cons, List.length_leftpad]
      omega
    · have hdigits : (Nat.toDigits 10 n.natAbs).length ≤ 20 := by
        rw [Nat.length_toDigits_le_iff (by decide) (by decide)]
        omega
      rw [List.length_leftpad]
      omega
  have hchars : ∀ c ∈ (sequenceText n).toList, c = '-' ∨ c.isDigit = true := by
    intro c hc
    rw [toList_sequenceText_sign] at hc
    split_ifs at hc
    · rcases List.mem_cons.1 hc with hc | hc
      · exact .inl hc
      · exact .inr (leftpad_digits _ _ c hc)
    · exact .inr (leftpad_digits _ _ c hc)
  have hrange : ∀ c ∈ (sequenceText n).toList, 45 ≤ c.toNat ∧ c.toNat ≤ 57 ∧ c.toNat ≠ 47 := by
    intro c hc
    rcases hchars c hc with rfl | hdigit
    · decide
    · simp only [Char.isDigit, Bool.and_eq_true, decide_eq_true_eq] at hdigit
      have hge : '0'.toNat ≤ c.toNat := hdigit.1
      have hle : c.toNat ≤ '9'.toNat := hdigit.2
      have h0 : '0'.toNat = 48 := by decide
      have h9 : '9'.toNat = 57 := by decide
      omega
  have hascii : ∀ c ∈ (sequenceText n).toList, c.toNat < 128 := by
    intro c hc
    have := hrange c hc
    omega
  have hbytes : (text (sequenceText n)).map UInt8.toNat = (sequenceText n).toList.map Char.toNat :=
    utf8_of_ascii hascii
  constructor
  · have hlen := congrArg List.length hbytes
    rwa [List.length_map, List.length_map, hlength] at hlen
  · intro b hb
    have hmem : b.toNat ∈ (sequenceText n).toList.map Char.toNat := by
      rw [← hbytes]
      exact List.mem_map_of_mem hb
    obtain ⟨c, hc, hcb⟩ := List.mem_map.1 hmem
    obtain ⟨h1, h2, h3⟩ := hrange c hc
    exact (byte_table b).2.2.2.1 (by omega) (by omega) (by omega)

/-! ## Section 3: Object keys -/

/-- `eventArchiveKey`. -/
def eventArchiveKey (tenantID streamID : Bytes) (sequence : Int) (eventID : Bytes) : Bytes :=
  text "events/" ++ encodeKeyComponent tenantID ++ text "/" ++ encodeKeyComponent streamID ++
    text "/" ++ text (sequenceText sequence) ++ text "-" ++ encodeKeyComponent eventID ++
    text ".json"

/-- The key of `archiveSegment`. -/
def segmentArchiveKey (tenantID streamID : Bytes) (firstSequence lastSequence : Int) : Bytes :=
  text "segments/" ++ encodeKeyComponent tenantID ++ text "/" ++ encodeKeyComponent streamID ++
    text "/" ++ text (sequenceText firstSequence) ++ text "-" ++ text (sequenceText lastSequence) ++
    text ".manifest.json"

/-- `validateArchiveKey`, up to the texts of its errors. -/
def validateArchiveKey (dir key : Bytes) : Except Err Bytes :=
  if dir = [] then .error (.plain "archive directory is not configured")
  else
    let clean := PathClean.clean symbols key
    if clean = [dot] ∨ clean.head? = some slash ∨ clean = [dot, dot] ∨
        [dot, dot, slash].isPrefixOf clean then
      .error (.plain "archive key escapes the archive directory")
    else .ok clean

/-- A file name: a sequence number, a dash and the rest. -/
def fileName (sequence : Int) (rest : Bytes) : Bytes := text (sequenceText sequence) ++ 45 :: rest

def eventElements (tenantID streamID : Bytes) (sequence : Int) (eventID : Bytes) : List Bytes :=
  [text "events", encodeKeyComponent tenantID, encodeKeyComponent streamID,
    fileName sequence (encodeKeyComponent eventID ++ text ".json")]

def segmentElements (tenantID streamID : Bytes) (firstSequence lastSequence : Int) : List Bytes :=
  [text "segments", encodeKeyComponent tenantID, encodeKeyComponent streamID,
    fileName firstSequence (text (sequenceText lastSequence) ++ text ".manifest.json")]

theorem eventArchiveKey_eq (tenantID streamID : Bytes) (sequence : Int) (eventID : Bytes) :
    eventArchiveKey tenantID streamID sequence eventID =
      [slash].intercalate (eventElements tenantID streamID sequence eventID) := by
  have hevents : text "events/" = text "events" ++ [slash] := rfl
  have hslash : text "/" = [slash] := rfl
  have hdash : text "-" = [45] := rfl
  rw [eventArchiveKey, hevents, hslash, hdash]
  simp [eventElements, fileName, List.intercalate]

theorem segmentArchiveKey_eq (tenantID streamID : Bytes) (firstSequence lastSequence : Int) :
    segmentArchiveKey tenantID streamID firstSequence lastSequence =
      [slash].intercalate (segmentElements tenantID streamID firstSequence lastSequence) := by
  have hsegments : text "segments/" = text "segments" ++ [slash] := rfl
  have hslash : text "/" = [slash] := rfl
  have hdash : text "-" = [45] := rfl
  rw [segmentArchiveKey, hsegments, hslash, hdash]
  simp [segmentElements, fileName, List.intercalate]

theorem fileName_ordinary {sequence : Int} (h : InInt64 sequence) {rest : Bytes}
    (hrest : ∀ b ∈ rest, isPlain b = true) : PathClean.Ordinary symbols (fileName sequence rest) := by
  obtain ⟨hlength, hplain⟩ := text_sequence h
  have hlong : 20 ≤ (fileName sequence rest).length := by
    rw [fileName, List.length_append, hlength]
    omega
  refine ⟨?_, ?_, ?_, ?_⟩
  · intro heq
    rw [heq] at hlong
    exact absurd hlong (by decide)
  · intro heq
    rw [heq] at hlong
    exact absurd hlong (by decide)
  · intro heq
    rw [heq] at hlong
    exact absurd hlong (by decide)
  · intro hsep
    rw [fileName, List.mem_append, List.mem_cons] at hsep
    rcases hsep with hsep | hsep | hsep
    · exact absurd (hplain _ hsep) (by decide)
    · exact absurd hsep (by decide)
    · exact absurd (hrest _ hsep) (by decide)

theorem fileName_inj {m n : Int} (hm : InInt64 m) (hn : InInt64 n) {r s : Bytes}
    (h : fileName m r = fileName n s) : m = n ∧ r = s := by
  obtain ⟨hsequence, hrest⟩ := List.append_inj h
    ((text_sequence hm).1.trans (text_sequence hn).1.symm)
  exact ⟨sequenceText_inj (text_inj hsequence), (List.cons_inj_right _).1 hrest⟩

theorem eventElements_ordinary {sequence : Int} (h : InInt64 sequence)
    (tenantID streamID eventID : Bytes) :
    ∀ e ∈ eventElements tenantID streamID sequence eventID, PathClean.Ordinary symbols e := by
  have hsuffix : ∀ b ∈ text ".json", isPlain b = true :=
    List.all_eq_true.1 (rfl : (text ".json").all isPlain = true)
  have hevents : PathClean.Ordinary symbols (text "events") := by
    have hbytes : text "events" = [101, 118, 101, 110, 116, 115] := rfl
    rw [hbytes]
    exact ⟨by decide, by decide, by decide, by decide⟩
  simp only [eventElements, List.forall_mem_cons]
  refine ⟨hevents, encodeKeyComponent_ordinary tenantID, encodeKeyComponent_ordinary streamID,
    fileName_ordinary h ?_, by simp⟩
  intro b hb
  rcases List.mem_append.1 hb with hb | hb
  · exact encodeKeyComponent_plain eventID b hb
  · exact hsuffix b hb

theorem segmentElements_ordinary {firstSequence lastSequence : Int} (hf : InInt64 firstSequence)
    (hl : InInt64 lastSequence) (tenantID streamID : Bytes) :
    ∀ e ∈ segmentElements tenantID streamID firstSequence lastSequence,
      PathClean.Ordinary symbols e := by
  have hsuffix : ∀ b ∈ text ".manifest.json", isPlain b = true :=
    List.all_eq_true.1 (rfl : (text ".manifest.json").all isPlain = true)
  have hsegments : PathClean.Ordinary symbols (text "segments") := by
    have hbytes : text "segments" = [115, 101, 103, 109, 101, 110, 116, 115] := rfl
    rw [hbytes]
    exact ⟨by decide, by decide, by decide, by decide⟩
  simp only [segmentElements, List.forall_mem_cons]
  refine ⟨hsegments, encodeKeyComponent_ordinary tenantID, encodeKeyComponent_ordinary streamID,
    fileName_ordinary hf ?_, by simp⟩
  intro b hb
  rcases List.mem_append.1 hb with hb | hb
  · exact (text_sequence hl).2 b hb
  · exact hsuffix b hb

theorem validateArchiveKey_ordinary {dir : Bytes} (hdir : dir ≠ []) {first : Bytes}
    {rest : List Bytes} (h : ∀ e ∈ first :: rest, PathClean.Ordinary symbols e)
    (hfirst : first.head? ≠ some dot) :
    validateArchiveKey dir ([slash].intercalate (first :: rest)) =
      .ok ([slash].intercalate (first :: rest)) := by
  have hclean : PathClean.clean symbols ([slash].intercalate (first :: rest)) =
      [slash].intercalate (first :: rest) := PathClean.clean_ordinary symbols h
  obtain ⟨c, tail, hkey, hc⟩ :=
    PathClean.head_intercalate symbols rest (h first List.mem_cons_self)
  have hslash : c ≠ slash := by
    rintro rfl
    exact (h first List.mem_cons_self).noSep hc
  have hkey : [slash].intercalate (first :: rest) = c :: tail := hkey
  have hdot : c ≠ dot := by
    rintro rfl
    apply hfirst
    obtain ⟨d, ds, rfl⟩ := List.exists_cons_of_ne_nil (h first List.mem_cons_self).nonempty
    have hhead := congrArg List.head? hkey
    cases rest with
    | nil => simpa [List.intercalate] using hhead
    | cons second rest => simpa [List.intercalate] using hhead
  rw [validateArchiveKey, if_neg hdir]
  dsimp only
  rw [hclean, if_neg]
  rw [hkey]
  simp [hslash, hdot, List.isPrefixOf, Ne.symm hdot]

/-! ## Section 4: Texts -/

theorem encodeByte_toNat (c : UInt8) :
    (PercentCode.encodeByte componentAlphabet c.toNat).map Char.toNat =
      (encodeByte c).map UInt8.toNat :=
  (byte_table c).2.2.2.2

theorem toNat_injective : Function.Injective (List.map UInt8.toNat) :=
  List.map_injective_iff.2 (fun _ _ => UInt8.toNat_inj.1)

theorem encodeKeyComponent_text (s : String) :
    encodeKeyComponent (text s) = text (AuditGovernance.encodeKeyComponent s) := by
  have hempty : text "" = [] := rfl
  have hdot : text "." = [dot] := rfl
  have hdots : text ".." = [dot, dot] := rfl
  have hcases : ∀ {t : String} {b : Bytes}, text t = b → (text s = b ↔ s = t) := by
    rintro t b rfl
    exact ⟨text_inj, congrArg text⟩
  unfold encodeKeyComponent AuditGovernance.encodeKeyComponent
  simp only [hcases hempty, hcases hdot, hcases hdots]
  split_ifs
  · rfl
  · rfl
  · rfl
  · apply toNat_injective
    have hascii : ∀ c ∈ (String.ofList (PercentCode.encode componentAlphabet
        (Sha256.utf8 s))).toList, c.toNat < 128 := by
      rw [String.toList_ofList]
      exact fun c hc => PercentCode.ascii_of_mem_encode (utf8_lt s) hc
    have htext : (text (String.ofList (PercentCode.encode componentAlphabet
        (Sha256.utf8 s)))).map UInt8.toNat =
        (PercentCode.encode componentAlphabet (Sha256.utf8 s)).map Char.toNat := by
      have hbytes := utf8_of_ascii hascii
      rwa [String.toList_ofList] at hbytes
    have hencode : ∀ bytes : Bytes,
        (PercentCode.encode componentAlphabet (bytes.map UInt8.toNat)).map Char.toNat =
          (bytes.flatMap encodeByte).map UInt8.toNat := by
      intro bytes
      induction bytes with
      | nil => rfl
      | cons c rest ih =>
        rw [List.map_cons, PercentCode.encode, List.flatMap_cons, List.map_append,
          List.flatMap_cons, List.map_append, encodeByte_toNat]
        exact congrArg _ ih
    rw [htext]
    exact (hencode (text s)).symm

/-- The key of an accepted event is the key of its bytes. -/
theorem eventArchiveKey_bytes (tenantID streamID : String) (sequence : Int) (eventID : String) :
    text (AuditGovernance.eventArchiveKey tenantID streamID sequence eventID) =
      eventArchiveKey (text tenantID) (text streamID) sequence (text eventID) := by
  rw [AuditGovernance.eventArchiveKey, eventArchiveKey]
  simp only [text_append, encodeKeyComponent_text]

/-! ## Section 5: The contract -/

theorem inInt64_of_positive {n : Int} (hpos : 0 < n) (hmax : n ≤ maxInt64) : InInt64 n :=
  ⟨by omega, hmax⟩

theorem text_dot : text "." = [dot] := rfl

theorem text_dots : text ".." = [dot, dot] := rfl

theorem backslash_notin (v : Bytes) : backslash ∉ encodeKeyComponent v := by
  intro hmem
  exact absurd (encodeKeyComponent_plain v _ hmem) (by decide)

section

variable {tenant stream event tenant' stream' event' dir : Bytes}

theorem eventArchiveKey_inj {sequence sequence' : Int} (h : InInt64 sequence)
    (h' : InInt64 sequence')
    (heq : eventArchiveKey tenant stream sequence event =
      eventArchiveKey tenant' stream' sequence' event') :
    tenant = tenant' ∧ stream = stream' ∧ sequence = sequence' ∧ event = event' := by
  rw [eventArchiveKey_eq, eventArchiveKey_eq] at heq
  have helements := PathClean.intercalate_ordinary_inj symbols
    (eventElements_ordinary h tenant stream event) (eventElements_ordinary h' tenant' stream' event')
    (List.cons_ne_nil _ _) (List.cons_ne_nil _ _) heq
  simp only [eventElements, List.cons.injEq, and_true, true_and] at helements
  obtain ⟨htenant, hstream, hfile⟩ := helements
  obtain ⟨hsequence, hrest⟩ := fileName_inj h h' hfile
  exact ⟨encodeKeyComponent_inj htenant, encodeKeyComponent_inj hstream, hsequence,
    encodeKeyComponent_inj (List.append_cancel_right hrest)⟩

theorem segmentArchiveKey_inj {first last first' last' : Int} (hf : InInt64 first)
    (hl : InInt64 last) (hf' : InInt64 first') (hl' : InInt64 last')
    (heq : segmentArchiveKey tenant stream first last =
      segmentArchiveKey tenant' stream' first' last') :
    tenant = tenant' ∧ stream = stream' ∧ first = first' ∧ last = last' := by
  rw [segmentArchiveKey_eq, segmentArchiveKey_eq] at heq
  have helements := PathClean.intercalate_ordinary_inj symbols
    (segmentElements_ordinary hf hl tenant stream) (segmentElements_ordinary hf' hl' tenant' stream')
    (List.cons_ne_nil _ _) (List.cons_ne_nil _ _) heq
  simp only [segmentElements, List.cons.injEq, and_true, true_and] at helements
  obtain ⟨htenant, hstream, hfile⟩ := helements
  obtain ⟨hfirst, hrest⟩ := fileName_inj hf hf' hfile
  exact ⟨encodeKeyComponent_inj htenant, encodeKeyComponent_inj hstream, hfirst,
    sequenceText_inj (text_inj (List.append_cancel_right hrest))⟩

theorem eventArchiveKey_ne_segmentArchiveKey (sequence first last : Int) :
    eventArchiveKey tenant stream sequence event ≠
      segmentArchiveKey tenant' stream' first last := by
  intro heq
  have hevents : text "events/" = 101 :: text "vents/" := rfl
  have hsegments : text "segments/" = 115 :: text "egments/" := rfl
  have hhead := congrArg List.head? heq
  rw [eventArchiveKey, segmentArchiveKey, hevents, hsegments] at hhead
  simp only [List.cons_append, List.head?_cons, Option.some.injEq] at hhead
  exact absurd hhead (by decide)

theorem validateArchiveKey_event (hdir : dir ≠ []) {sequence : Int} (h : InInt64 sequence) :
    validateArchiveKey dir (eventArchiveKey tenant stream sequence event) =
      .ok (eventArchiveKey tenant stream sequence event) := by
  rw [eventArchiveKey_eq]
  exact validateArchiveKey_ordinary hdir (eventElements_ordinary h tenant stream event)
    (by decide)

theorem validateArchiveKey_segment (hdir : dir ≠ []) {first last : Int} (hf : InInt64 first)
    (hl : InInt64 last) :
    validateArchiveKey dir (segmentArchiveKey tenant stream first last) =
      .ok (segmentArchiveKey tenant stream first last) := by
  rw [segmentArchiveKey_eq]
  exact validateArchiveKey_ordinary hdir (segmentElements_ordinary hf hl tenant stream)
    (by decide)

end

/-- **Archive keys.** The component code can be read back and writes names that
    stay in place; the keys of events and of segments determine what they are
    keys of, no event key is a segment key, and every one of them is accepted
    below the archive directory. -/
theorem archive_keys_injective_and_contained :
    (∀ v, decodeKeyComponent (encodeKeyComponent v) = .ok v ∧ encodeKeyComponent v ≠ [] ∧
      slash ∉ encodeKeyComponent v ∧ backslash ∉ encodeKeyComponent v ∧
      encodeKeyComponent v ≠ text "." ∧ encodeKeyComponent v ≠ text "..") ∧
    (∀ tenant stream sequence event tenant' stream' sequence' event',
      0 < sequence → sequence ≤ maxInt64 → 0 < sequence' → sequence' ≤ maxInt64 →
      eventArchiveKey tenant stream sequence event =
        eventArchiveKey tenant' stream' sequence' event' →
      tenant = tenant' ∧ stream = stream' ∧ sequence = sequence' ∧ event = event') ∧
    (∀ tenant stream first last tenant' stream' first' last',
      InInt64 first → InInt64 last → InInt64 first' → InInt64 last' →
      segmentArchiveKey tenant stream first last = segmentArchiveKey tenant' stream' first' last' →
      tenant = tenant' ∧ stream = stream' ∧ first = first' ∧ last = last') ∧
    (∀ tenant stream sequence event tenant' stream' first last,
      eventArchiveKey tenant stream sequence event ≠
        segmentArchiveKey tenant' stream' first last) ∧
    (∀ dir tenant stream sequence event, dir ≠ [] → 0 < sequence → sequence ≤ maxInt64 →
      validateArchiveKey dir (eventArchiveKey tenant stream sequence event) =
        .ok (eventArchiveKey tenant stream sequence event)) ∧
    (∀ dir tenant stream first last, dir ≠ [] → InInt64 first → InInt64 last →
      validateArchiveKey dir (segmentArchiveKey tenant stream first last) =
        .ok (segmentArchiveKey tenant stream first last)) := by
  refine ⟨?_, ?_, ?_, ?_, ?_, ?_⟩
  · intro v
    have hordinary := encodeKeyComponent_ordinary v
    exact ⟨decode_encode v, hordinary.nonempty, hordinary.noSep, backslash_notin v,
      text_dot ▸ hordinary.notDot, text_dots ▸ hordinary.notDotDot⟩
  · intro tenant stream sequence event tenant' stream' sequence' event' hpos hmax hpos' hmax' heq
    exact eventArchiveKey_inj (inInt64_of_positive hpos hmax) (inInt64_of_positive hpos' hmax') heq
  · intro tenant stream first last tenant' stream' first' last' hf hl hf' hl' heq
    exact segmentArchiveKey_inj hf hl hf' hl' heq
  · intro tenant stream sequence event tenant' stream' first last
    exact eventArchiveKey_ne_segmentArchiveKey sequence first last
  · intro dir tenant stream sequence event hdir hpos hmax
    exact validateArchiveKey_event hdir (inInt64_of_positive hpos hmax)
  · intro dir tenant stream first last hdir hf hl
    exact validateArchiveKey_segment hdir hf hl

/-- Bytes that are no text, and a component that would leave the directory. -/
theorem archive_key_of_hostile_components :
    validateArchiveKey (text "/archive") (eventArchiveKey [0xff, 0x2f] (text "..") 1 []) =
        .ok (eventArchiveKey [0xff, 0x2f] (text "..") 1 []) ∧
      decodeKeyComponent (encodeKeyComponent [0xff, 0x2f]) = .ok [0xff, 0x2f] :=
  ⟨archive_keys_injective_and_contained.2.2.2.2.1 _ _ _ _ _ (by decide) (by decide)
    (by decide), (archive_keys_injective_and_contained.1 _).1⟩

end ArchiveKey

end AuditGovernance
