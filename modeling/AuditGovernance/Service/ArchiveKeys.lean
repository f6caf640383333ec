import AuditGovernance.Service.Admission
import AuditGovernance.Store.FileNames

/-! # Archive keys of events

    The object key of an archived event (`eventArchiveKey` in
    `internal/service/archive_fallback.go`) and the limits of the file archive
    (`checkKeyLength` in `internal/archive/archive_secure_common.go`).

    Every identifier is capped at 85 bytes, a third of a path component, so a
    fully escaped identifier fits. A stream name is built of several
    identifiers and an event file name carries a sequence number, though, and
    those two components have no cap of their own.
-/

namespace AuditGovernance

/-! ## Section 1: Keys and their limits -/

/-- `fmt.Sprintf("%020d", sequence)`. -/
def sequenceText (sequence : Int) : String :=
  if sequence < 0 then
    "-" ++ String.ofList (List.leftpad 19 '0' (Nat.toDigits 10 sequence.natAbs))
  else String.ofList (List.leftpad 20 '0' (Nat.toDigits 10 sequence.natAbs))

/-- `eventArchiveKey`. -/
def eventArchiveKey (tenantID streamID : String) (sequence : Int) (eventID : String) : String :=
  "events/" ++ encodeKeyComponent tenantID ++ "/" ++ encodeKeyComponent streamID ++ "/" ++
    sequenceText sequence ++ "-" ++ encodeKeyComponent eventID ++ ".json"

/-- `fsutil.MaxS3KeyBytes`. -/
def maxKeyBytes : Nat := 1024

/-- `fsutil.MaxFileStoreComponentBytes`, the POSIX `NAME_MAX`. -/
def maxFileStoreComponentBytes : Nat := 255

/-- `strings.Split(key, "/")`. -/
def keyComponents (key : String) : List String :=
  (key.toList.splitOn '/').map String.ofList

/-- The loop of `checkKeyLength` over the components. -/
def checkComponents (key : String) : List String → Except Err Unit
  | [] => .ok ()
  | component :: rest =>
    if component.utf8ByteSize > maxFileStoreComponentBytes then
      .error (.plain ("archive key exceeds the destination length limit: key " ++ key.quote ++
        " component " ++ component.quote ++ " is " ++ toString component.utf8ByteSize ++
        " bytes (limit " ++ toString maxFileStoreComponentBytes ++ ")"))
    else checkComponents key rest

/-- `checkKeyLength`. -/
def checkKeyLength (key : String) : Except Err Unit :=
  if key.utf8ByteSize > maxKeyBytes then
    .error (.plain ("archive key exceeds the destination length limit: key " ++ key.quote ++
      " is " ++ toString key.utf8ByteSize ++ " bytes (limit " ++ toString maxKeyBytes ++ ")"))
  else checkComponents key (keyComponents key)

theorem checkComponents_ok {key : String} {components : List String} :
    checkComponents key components = .ok () ↔
      ∀ component ∈ components, component.utf8ByteSize ≤ maxFileStoreComponentBytes := by
  induction components with
  | nil => simp [checkComponents]
  | cons component rest ih =>
    unfold checkComponents
    split
    · next hlong =>
      constructor
      · intro h
        cases h
      · intro h
        have := h component List.mem_cons_self
        omega
    · next hshort =>
      rw [ih, List.forall_mem_cons]
      constructor
      · intro h
        exact ⟨by omega, h⟩
      · exact And.right

theorem checkKeyLength_ok {key : String} :
    checkKeyLength key = .ok () ↔ key.utf8ByteSize ≤ maxKeyBytes ∧
      ∀ component ∈ keyComponents key, component.utf8ByteSize ≤ maxFileStoreComponentBytes := by
  unfold checkKeyLength
  split
  · next hlong =>
    constructor
    · intro h
      cases h
    · intro h
      omega
  · next hshort =>
    rw [checkComponents_ok]
    constructor
    · intro h
      exact ⟨by omega, h⟩
    · exact And.right

/-! ## Section 2: The components of an event key -/

theorem toList_sequenceText {sequence : Int} (hpos : 0 < sequence) (hmax : sequence ≤ maxInt64) :
    (sequenceText sequence).toList.length = 20 ∧
      ∀ c ∈ (sequenceText sequence).toList, c.isDigit = true := by
  have hdigits : (Nat.toDigits 10 sequence.natAbs).length ≤ 20 := by
    rw [Nat.length_toDigits_le_iff (by decide) (by decide)]
    rw [maxInt64] at hmax
    omega
  rw [sequenceText, if_neg (by omega), String.toList_ofList]
  constructor
  · rw [List.length_leftpad]
    omega
  · intro c hc
    rw [List.leftpad, List.mem_append] at hc
    rcases hc with hc | hc
    · rw [List.eq_of_mem_replicate hc]
      decide
    · exact Nat.isDigit_of_mem_toDigits (by decide) (by decide) hc

theorem slash_notin_encodeKeyComponent (value : String) :
    '/' ∉ (encodeKeyComponent value).toList := by
  intro hslash
  rcases mem_encodeKeyComponent hslash with hsafe | hpercent | ⟨n, hn, hhex⟩
  · exact absurd hsafe (by decide)
  · exact absurd hpercent (by decide)
  · have hall : ∀ n < 16, '/' ≠ PercentCode.upperHex n := by decide
    exact hall n hn hhex

/-- The file name under the directory of a stream. -/
def eventFileName (sequence : Int) (eventID : String) : String :=
  sequenceText sequence ++ "-" ++ encodeKeyComponent eventID ++ ".json"

theorem toList_eventArchiveKey (tenantID streamID : String) (sequence : Int) (eventID : String) :
    (eventArchiveKey tenantID streamID sequence eventID).toList =
      "events".toList ++ '/' :: ((encodeKeyComponent tenantID).toList ++
        '/' :: ((encodeKeyComponent streamID).toList ++
          '/' :: (eventFileName sequence eventID).toList)) := by
  have hevents : "events/".toList = "events".toList ++ ['/'] := by decide +kernel
  simp only [eventArchiveKey, eventFileName, String.toList_append, hevents]
  simp

theorem ascii_digit {c : Char} (h : c.isDigit = true) : c.toNat < 128 ∧ c ≠ '/' := by
  have hle : c ≤ '9' := by
    simp only [Char.isDigit, Bool.and_eq_true, decide_eq_true_eq] at h
    exact h.2
  have hge : '0' ≤ c := by
    simp only [Char.isDigit, Bool.and_eq_true, decide_eq_true_eq] at h
    exact h.1
  constructor
  · have hval : c.toNat ≤ '9'.toNat := hle
    exact lt_of_le_of_lt hval (by decide)
  · rintro rfl
    exact absurd hge (by decide)

theorem eventFileName_plain {sequence : Int} (hpos : 0 < sequence) (hmax : sequence ≤ maxInt64)
    (eventID : String) :
    ∀ c ∈ (eventFileName sequence eventID).toList, c.toNat < 128 ∧ c ≠ '/' := by
  intro c hc
  simp only [eventFileName, String.toList_append, List.mem_append] at hc
  rcases hc with ((hc | hc) | hc) | hc
  · exact ascii_digit ((toList_sequenceText hpos hmax).2 c hc)
  · have hdash : c = '-' := by simpa using hc
    subst hdash
    decide
  · refine ⟨ascii_encodeKeyComponent eventID c hc, ?_⟩
    rintro rfl
    exact slash_notin_encodeKeyComponent eventID hc
  · have hsuffix : ".json".toList.all (fun c => c.toNat < 128 && c != '/') = true := by
      decide +kernel
    have := List.all_eq_true.1 hsuffix c hc
    simpa using this

theorem length_eventFileName {sequence : Int} (hpos : 0 < sequence) (hmax : sequence ≤ maxInt64)
    (eventID : String) : (eventFileName sequence eventID).toList.length =
      26 + (encodeKeyComponent eventID).toList.length := by
  have hdash : "-".toList.length = 1 := by decide
  have hsuffix : ".json".toList.length = 5 := by decide
  simp only [eventFileName, String.toList_append, List.length_append,
    (toList_sequenceText hpos hmax).1, hdash, hsuffix]
  omega

theorem keyComponents_eventArchiveKey {sequence : Int} (hpos : 0 < sequence)
    (hmax : sequence ≤ maxInt64) (tenantID streamID eventID : String) :
    keyComponents (eventArchiveKey tenantID streamID sequence eventID) =
      ["events", encodeKeyComponent tenantID, encodeKeyComponent streamID,
        eventFileName sequence eventID] := by
  have hevents : '/' ∉ "events".toList := by decide
  have hfile : '/' ∉ (eventFileName sequence eventID).toList := by
    intro hmem
    exact (eventFileName_plain hpos hmax eventID _ hmem).2 rfl
  rw [keyComponents, toList_eventArchiveKey, List.splitOn_append_cons_self_of_not_mem hevents,
    List.splitOn_append_cons_self_of_not_mem (slash_notin_encodeKeyComponent tenantID),
    List.splitOn_append_cons_self_of_not_mem (slash_notin_encodeKeyComponent streamID),
    List.splitOn_eq_singleton hfile]
  simp only [List.map_cons, List.map_nil, String.ofList_toList]

/-! ## Section 3: Which events can be archived -/

theorem utf8_append (a b : String) : Sha256.utf8 (a ++ b) = Sha256.utf8 a ++ Sha256.utf8 b := by
  rw [Sha256.utf8, String.toByteArray_append]
  simp [Sha256.utf8]

theorem escapedLength_append (a b : String) :
    escapedLength (a ++ b) = escapedLength a + escapedLength b := by
  rw [escapedLength, escapedLength, escapedLength, utf8_append, List.countP_append,
    String.utf8ByteSize_append]
  omega

theorem escapedLength_le (text : String) : escapedLength text ≤ 3 * text.utf8ByteSize := by
  have hcount : (Sha256.utf8 text).countP (fun b => !isSafeComponentByte b) ≤ text.utf8ByteSize := by
    rw [← length_utf8]
    exact List.countP_le_length
  rw [escapedLength]
  omega

theorem validTenantID_length {tenantID : String} (h : validTenantID tenantID = .ok ()) :
    tenantID.utf8ByteSize ≤ 85 := by
  rw [validTenantID, validTenantIDComponent, validFrameComponent] at h
  split at h
  · cases h
  split at h
  · cases h
  · rw [validArchiveComponentLength] at h
    split at h
    · cases h
    · next hlen =>
      rw [maxArchiveComponentBytes] at hlen
      omega

/-- An event of the tenant: `Ingest` sets the tenant and clears the stream id
    that the source sent. -/
def Event.under (e : Event) (tenantID : String) : Event :=
  { e with tenantID := tenantID, streamID := "" }

/-- The identifiers that the stream name is built of, escaped, leave room in
    one component for the words between them. -/
def Event.fitsStreamComponent (e : Event) (tenantID : String) : Bool :=
  if e.aggregateType ≠ "" ∧ e.aggregateID ≠ "" then
    escapedLength tenantID + escapedLength e.aggregateType + escapedLength e.aggregateID ≤ 237
  else if e.operationID ≠ "" then escapedLength tenantID + escapedLength e.operationID ≤ 240
  else escapedLength tenantID + escapedLength e.sourceSystem ≤ 243

/-- The stream name fits, and the event id leaves room for the sequence
    number. -/
def Event.fitsArchiveKey (e : Event) (tenantID : String) : Bool :=
  e.fitsStreamComponent tenantID && escapedLength e.eventID ≤ 229

theorem stream_under (e : Event) (tenantID : String) :
    (e.under tenantID).stream =
      if e.aggregateType ≠ "" ∧ e.aggregateID ≠ "" then
        tenantID ++ ":aggregate:" ++ e.aggregateType ++ ":" ++ e.aggregateID
      else if e.operationID ≠ "" then tenantID ++ ":operation:" ++ e.operationID
      else tenantID ++ ":source:" ++ e.sourceSystem := by
  have hcleared : ¬ (e.under tenantID).streamID ≠ "" := by simp [Event.under]
  rw [Event.stream, if_neg hcleared]
  rfl

theorem escapedLength_stream (e : Event) (tenantID : String) :
    escapedLength (e.under tenantID).stream ≤ 255 ↔ e.fitsStreamComponent tenantID = true := by
  have haggregate : escapedLength ":aggregate:" = 15 := by decide +kernel
  have hoperation : escapedLength ":operation:" = 15 := by decide +kernel
  have hsource : escapedLength ":source:" = 12 := by decide +kernel
  have hcolon : escapedLength ":" = 3 := by decide +kernel
  rw [stream_under, Event.fitsStreamComponent]
  split_ifs
  · rw [escapedLength_append, escapedLength_append, escapedLength_append, escapedLength_append,
      haggregate, hcolon, decide_eq_true_eq]
    omega
  · rw [escapedLength_append, escapedLength_append, hoperation, decide_eq_true_eq]
    omega
  · rw [escapedLength_append, escapedLength_append, hsource, decide_eq_true_eq]
    omega

theorem checkKeyLength_eventArchiveKey {tenantID streamID eventID : String} {sequence : Int}
    (hpos : 0 < sequence) (hmax : sequence ≤ maxInt64) :
    checkKeyLength (eventArchiveKey tenantID streamID sequence eventID) = .ok () ↔
      escapedLength tenantID ≤ 255 ∧ escapedLength streamID ≤ 255 ∧
        escapedLength eventID ≤ 229 := by
  have htenant := length_encodeKeyComponent_cases tenantID
  have hstream := length_encodeKeyComponent_cases streamID
  have hevent := length_encodeKeyComponent_cases eventID
  have hplain := eventFileName_plain hpos hmax eventID
  have hfile := length_eventFileName hpos hmax eventID
  have hevents : "events".utf8ByteSize = 6 := rfl
  -- the key is plain text, so its bytes are its characters
  have hkeyASCII : ∀ c ∈ (eventArchiveKey tenantID streamID sequence eventID).toList,
      c.toNat < 128 := by
    intro c hc
    have hmark : "events".toList.all (fun c => c.toNat < 128) = true := by decide +kernel
    rw [toList_eventArchiveKey] at hc
    simp only [List.mem_append, List.mem_cons] at hc
    rcases hc with hc | rfl | hc | rfl | hc | rfl | hc
    · simpa using List.all_eq_true.1 hmark c hc
    · decide
    · exact ascii_encodeKeyComponent tenantID c hc
    · decide
    · exact ascii_encodeKeyComponent streamID c hc
    · decide
    · exact (hplain c hc).1
  have hkey : (eventArchiveKey tenantID streamID sequence eventID).utf8ByteSize =
      9 + (encodeKeyComponent tenantID).toList.length +
        (encodeKeyComponent streamID).toList.length +
        (eventFileName sequence eventID).toList.length := by
    have hmark : "events".toList.length = 6 := by decide
    rw [utf8ByteSize_of_ascii hkeyASCII, toList_eventArchiveKey]
    simp only [List.length_append, List.length_cons, hmark]
    omega
  rw [checkKeyLength_ok, keyComponents_eventArchiveKey hpos hmax, hkey]
  simp only [List.forall_mem_cons, List.not_mem_nil, false_implies, implies_true, and_true,
    maxKeyBytes, maxFileStoreComponentBytes, hevents,
    utf8ByteSize_of_ascii (ascii_encodeKeyComponent tenantID),
    utf8ByteSize_of_ascii (ascii_encodeKeyComponent streamID),
    utf8ByteSize_of_ascii (fun c hc => (hplain c hc).1), hfile]
  omega

/-- An event of an order, with a stream of its own. -/
def orderEvent (aggregateType aggregateID : String) : Event where
  eventID := "e1"
  sourceSystem := "billing"
  eventType := "order.created"
  schemaID := "order"
  schemaVersion := 1
  occurredAt := minOccurredAt
  actor := { id := "alice" }
  action := "create"
  outcome := "success"
  aggregateType := aggregateType
  aggregateID := aggregateID
  dataClassification := "internal"
  retentionClass := "standard"
  idempotencyKey := "k1"

/-- An identifier of the maximal length, without a byte that is escaped. -/
def longIdentifier : String := String.ofList (List.replicate 85 'a')

end AuditGovernance
