import AuditGovernance.Domain.InMemory
import AuditGovernance.Service.ArchiveKeys
import AuditGovernance.Service.TamperEvidence

/-! # Hashes of persisted events

    An accepted event is kept in memory, in store documents written by
    `encoding/json` and in the archive as canonical JSON
    (`archiveEvent`, `archivedEventContext`). Its canonical text, its content
    digest and its chain hash are taken of the event in memory and compared
    with those of the event as it was read back.

    They agree unless a changed field holds a nil map or slice: in memory such
    a side is written as `null`, and after a reload it is not there
    (`hashes_survive_iff`).
-/

namespace AuditGovernance

open FiniteMap Json

/-! ## Section 1: Digests of events in memory -/

namespace InMemory

/-- The event without the fields that processing fills in. -/
def content (m : InMemory) : InMemory := { m with event := Env.contentOf m.event }

/-- `EventContentDigest`. -/
def contentDigest (d : Deployment) (m : InMemory) : Except Err String :=
  m.content.canonicalJSON.map d.hash

/-- `eventHash`. -/
def eventHash (d : Deployment) (m : InMemory) : Except Err String :=
  (if m.event.sourceDigest ≠ "" then .ok m.event.sourceDigest else m.contentDigest d).map
    fun digest => d.hash (linkText digest m.event.prevHash m.event.sequence m.event.streamID)

/-- The event with its place in a stream and its hash. -/
def place (d : Deployment) (stream : StreamState) (m : InMemory) : Except Err InMemory :=
  let placed := { m with event := { m.event with
    streamID := m.event.stream, sequence := stream.nextSequence, prevHash := stream.headHash } }
  (placed.eventHash d).map fun hash => { placed with event := { placed.event with hash := hash } }

/-- `Ingest` of a new event, up to the event it commits. The checks see a nil
    collection as nil; only the digest tells them apart. -/
def ingest (d : Deployment) (control : Control) (r : IngestRequest) (zone : Timestamp.Zone)
    (typedNil : List (String × Side)) (stream : StreamState) : Except Err InMemory :=
  match d.admission control r with
  | .error err => .error err
  | .ok a =>
    match contentDigest d
        { event := d.stamp r a.tenantID, zone := zone, typedNil := typedNil } with
    | .error err => .error err
    | .ok digest =>
      place d stream
        { event := { a.event with sourceDigest := digest }, zone := zone, typedNil := typedNil }

/-- The receipt of the event. -/
def receipt (m : InMemory) : EventReceipt := ledgeredReceipt m.event.tenantID m.event

/-- `archiveEvent`: the key and the object it puts. -/
def archiveEvent (m : InMemory) : Except Err (String × String) :=
  m.canonicalJSON.map fun object =>
    (eventArchiveKey m.event.tenantID m.event.streamID m.event.sequence m.event.eventID, object)

/-- `archivedEventContext`, over what the archive has under a key. -/
def archivedEventContext (d : Deployment) (get : String → Except Err String)
    (receipt : EventReceipt) : Except Err InMemory :=
  let context := "archived event " ++ receipt.eventID
  match get (eventArchiveKey receipt.tenantID receipt.streamID receipt.sequence receipt.eventID) with
  | .error err => .error (.wrap context err)
  | .ok raw =>
    match (Json.decode raw).bind read with
    | none => .error (.plain (context ++ ": decode"))
    | some m =>
      if m.event.eventID ≠ receipt.eventID ∨ m.event.tenantID ≠ receipt.tenantID ∨
          m.event.streamID ≠ receipt.streamID ∨ m.event.sequence ≠ receipt.sequence then
        .error (.plain (context ++ ": identity mismatch"))
      else
        match m.eventHash d with
        | .error err => .error (.wrap (context ++ ": hash derivation") err)
        | .ok hash =>
          if receipt.hash = "" ∨ hash ≠ receipt.hash then
            .error (.plain (context ++ ": hash does not match retained receipt"))
          else .ok m

/-- The three texts of an event are those of another. -/
structure Preserved (d : Deployment) (m m' : InMemory) : Prop where
  canonical : m'.canonicalJSON = m.canonicalJSON
  digest : m'.contentDigest d = m.contentDigest d
  hash : m'.eventHash d = m.eventHash d

/-- **Hashes survive persistence**: any number of reloads of the document that
    holds the event, and a round trip through the archive. -/
structure Survives (d : Deployment) (document : Dict InMemory) (key : String) (m : InMemory) :
    Prop where
  store : ∀ n, ∃ document' m', reloads document n = some document' ∧
    document'[key]? = some m' ∧ Preserved d m m'
  archive : ∃ place object, m.archiveEvent = .ok (place, object) ∧
    ∀ get : String → Except Err String, get place = .ok object →
      ∃ m', archivedEventContext d get m.receipt = .ok m' ∧ Preserved d m m'

end InMemory

/-! ## Section 2: What protection leaves -/

section Protection

variable {d : Deployment} {e : Event}

theorem encryptFields_values {nonce : Nat → Nat} {i : Nat} {fields : List String}
    {payload result : Dict Json} (h : d.env.encryptFields e nonce i fields payload = .ok result)
    {k : String} {v : Json} (hv : result[k]? = some v) : IsText v ∨ payload[k]? = some v := by
  induction fields generalizing i payload with
  | nil =>
    cases h
    exact .inr hv
  | cons field rest ih =>
    rw [Env.encryptFields] at h
    split at h
    · exact ih h
    split at h
    · cases h
    next encoded _ =>
    rcases ih h with htext | hold
    · exact .inl htext
    · by_cases hk : field = k
      · subst hk
        rw [lookup_insert_self] at hold
        exact .inl ⟨encoded, (Option.some.inj hold).symm⟩
      · rw [lookup_insert_ne _ _ hk] at hold
        exact .inr hold

theorem digestFields_values {fields : List String} {payload result : Dict Json}
    (h : d.env.digestFields e fields payload = .ok result) {k : String} {v : Json}
    (hv : result[k]? = some v) : IsText v ∨ payload[k]? = some v := by
  induction fields generalizing payload with
  | nil =>
    cases h
    exact .inr hv
  | cons field rest ih =>
    rw [Env.digestFields] at h
    split at h
    · exact ih h
    split at h
    · cases h
    next digest _ =>
    rcases ih h with htext | hold
    · exact .inl htext
    · by_cases hk : field ++ Env.searchDigestSuffix = k
      · subst hk
        rw [lookup_insert_self] at hold
        exact .inl ⟨digest, (Option.some.inj hold).symm⟩
      · rw [lookup_insert_ne _ _ hk] at hold
        exact .inr hold

theorem protectSensitiveFields_values {schema : EventSchema} {nonce : Nat → Nat} {stored : Event}
    (h : d.env.protectSensitiveFields e schema nonce = .ok stored) :
    stored = { e with payload := stored.payload } ∧
      ∀ (k : String) (v : Json), stored.payload[k]? = some v →
        IsText v ∨ e.payload[k]? = some v := by
  rw [Env.protectSensitiveFields] at h
  split at h
  · cases h
  next encrypted hencrypted =>
  cases hdigest : d.env.digestFields e schema.searchableFields encrypted with
  | error err => rw [hdigest] at h; cases h
  | ok payload =>
    rw [hdigest] at h
    cases h
    refine ⟨rfl, ?_⟩
    intro k v hv
    rcases digestFields_values hdigest hv with htext | hold
    · exact .inl htext
    · exact encryptFields_values hencrypted hold

end Protection

/-! ## Section 3: What is committed -/

theorem Accepted.horizon {d : Deployment} {control : Control} {r : IngestRequest} {e : Event}
    {schema : EventSchema} (h : Accepted d control r e schema) :
    minOccurredAt ≤ r.event.occurredAt ∧ r.event.occurredAt ≤ maxOccurredAt := by
  have hcheck := checkAll_ok.1 h.basic _
    (List.mem_append_right _ (List.mem_of_getElem? (i := 10) rfl))
  simpa using require_ok.1 hcheck

/-- What `Ingest` hands to its commit is the stamped event with texts in place
    of some values. -/
theorem Deployment.admission_ok {d : Deployment} {control : Control} {r : IngestRequest} {a : Admitted}
    (h : d.admission control r = .ok a) :
    ∃ digest, a.event = { d.stamp r a.tenantID with
        sourceDigest := digest, payload := a.event.payload } ∧
      (∀ (k : String) (v : Json), a.event.payload[k]? = some v →
        IsText v ∨ r.event.payload[k]? = some v) ∧
      minOccurredAt ≤ r.event.occurredAt ∧ r.event.occurredAt ≤ maxOccurredAt := by
  rw [Deployment.admission] at h
  split at h
  · cases h
  next e schema haccept =>
  have haccepted := Deployment.accept_ok haccept
  cases hprotect : d.env.protectSensitiveFields e schema r.nonce with
  | error err => rw [hprotect] at h; cases h
  | ok stored =>
    rw [hprotect] at h
    cases h
    obtain ⟨hstored, hvalues⟩ := protectSensitiveFields_values hprotect
    refine ⟨e.sourceDigest, ?_, ?_, haccepted.horizon⟩
    · dsimp only
      conv_lhs => rw [hstored, haccepted.stamped]
    · rw [← haccepted.payload]
      exact hvalues

namespace InMemory

variable {d : Deployment} {control : Control} {r : IngestRequest} {zone : Timestamp.Zone}
  {typedNil : List (String × Side)} {stream : StreamState} {m : InMemory}

/-- What `Ingest` has established about the event it commits. -/
structure Committed (d : Deployment) (r : IngestRequest) (zone : Timestamp.Zone)
    (typedNil : List (String × Side)) (stream : StreamState) (m : InMemory) : Prop where
  zone : m.zone = zone
  typed : m.typedNil = typedNil
  changed : m.event.changedFields = r.event.changedFields
  occurred : m.event.occurredAt = r.event.occurredAt
  horizon : minOccurredAt ≤ r.event.occurredAt ∧ r.event.occurredAt ≤ maxOccurredAt
  received : m.event.receivedAt = r.now
  sequence : m.event.sequence = stream.nextSequence
  numbers : ∀ literal ∈ m.event.toJson.normalize.numbers,
    literal = Int.repr m.event.sequence ∨ ∃ text, writeNumber literal = .ok text
  hash : m.eventHash d = .ok m.event.hash
  hashed : ∃ text, m.event.hash = d.hash text

theorem contentDigest_ok {digest : String} (h : m.contentDigest d = .ok digest) :
    ∃ text, m.content.canonicalJSON = .ok text := by
  rw [contentDigest] at h
  cases hc : m.content.canonicalJSON with
  | error err => rw [hc] at h; cases h
  | ok text => exact ⟨text, rfl⟩

theorem place_ok {placed : InMemory} (h : place d stream m = .ok placed) :
    ∃ hash, placed = { m with event := { m.event with
        streamID := m.event.stream, sequence := stream.nextSequence, prevHash := stream.headHash
        hash := hash } } ∧
      placed.eventHash d = .ok hash ∧ ∃ text, hash = d.hash text := by
  rw [place] at h
  dsimp only at h
  cases hhash : eventHash d { m with event := { m.event with
      streamID := m.event.stream, sequence := stream.nextSequence
      prevHash := stream.headHash } } with
  | error err => rw [hhash] at h; cases h
  | ok hash =>
    rw [hhash] at h
    cases h
    -- no digest is taken of the hash itself
    refine ⟨hash, rfl, hhash, ?_⟩
    rw [eventHash] at hhash
    split at hhash
    · cases hhash
      exact ⟨_, rfl⟩
    · cases hc : contentDigest d { m with event := { m.event with
          streamID := m.event.stream, sequence := stream.nextSequence
          prevHash := stream.headHash } } with
      | error err => rw [hc] at hhash; cases hhash
      | ok digest =>
        rw [hc] at hhash
        cases hhash
        exact ⟨_, rfl⟩

theorem ingest_ok (h : ingest d control r zone typedNil stream = .ok m) :
    Committed d r zone typedNil stream m := by
  rw [ingest] at h
  split at h
  · cases h
  next a ha =>
  split at h
  · cases h
  next digest hdigest =>
  obtain ⟨hash, rfl, hhash, hhashed⟩ := place_ok h
  obtain ⟨sourceDigest, hevent, hvalues, hhorizon⟩ := Deployment.admission_ok ha
  obtain ⟨text, htext⟩ := contentDigest_ok hdigest
  have hwritten := canonicalJSON_succeeds.1 ⟨text, htext⟩
  have hchanged := congrArg Event.changedFields hevent
  have hschema := congrArg Event.schemaVersion hevent
  have haggregate := congrArg Event.aggregateVersion hevent
  have hoccurred := congrArg Event.occurredAt hevent
  refine ⟨rfl, rfl, hchanged, hoccurred, hhorizon, congrArg Event.receivedAt hevent, rfl, ?_, hhash,
    hhashed⟩
  · -- every number but the sequence has been in the content digest
    intro literal hl
    dsimp only at hl
    rw [Event.mem_numbers] at hl
    dsimp only at hl
    rw [hschema, haggregate, hchanged] at hl
    rcases hl with hl | hl | hl | ⟨k, v, hv, hl⟩ | hl
    · exact .inr (hwritten _ (Event.mem_numbers.2 (.inl hl)))
    · exact .inr (hwritten _ (Event.mem_numbers.2 (.inr (.inl hl))))
    · exact .inr (hwritten _ (Event.mem_numbers.2 (.inr (.inr (.inl hl)))))
    · rcases hvalues k v hv with ⟨text, rfl⟩ | hold
      · cases hl
      · exact .inr (hwritten _ (Event.mem_numbers.2 (.inr (.inr (.inr (.inl ⟨k, v, hold, hl⟩))))))
    · exact .inl hl.2

/-- The values of Go's `int64`. -/
def InInt64 (n : Int) : Prop := -2 ^ 63 ≤ n ∧ n ≤ maxInt64

instance (n : Int) : Decidable (InInt64 n) := inferInstanceAs (Decidable (_ ∧ _))

theorem Committed.written (h : Committed d r zone typedNil stream m)
    (hstream : InInt64 stream.nextSequence) :
    ∀ literal ∈ m.event.toJson.normalize.numbers, ∃ text, writeNumber literal = .ok text := by
  intro literal hl
  rcases h.numbers literal hl with rfl | hwritten
  · apply writeNumber_int_succeeds
    rw [h.sequence]
    obtain ⟨hlow, hhigh⟩ := hstream
    unfold maxInt64 at hhigh
    omega
  · exact hwritten

theorem Committed.times (h : Committed d r zone typedNil stream m) (ht : m.TimesMarshal) :
    m.event.TimesMarshal := by
  refine ⟨?_, ht.2⟩
  rw [h.occurred]
  exact hasYear_of_horizon h.horizon.1 h.horizon.2

theorem Committed.encodes (h : Committed d r zone typedNil stream m)
    (hstream : InInt64 stream.nextSequence)
    (hoccurred : Timestamp.HasYear (m.event.occurredAt + zone.nanos))
    (hnow : Timestamp.HasYear r.now) (key : String) :
    ∃ text, encodeDocument ((∅ : Dict InMemory).insert key m) = .ok text := by
  rw [encodeDocument_succeeds]
  intro key' m' hm'
  rw [lookup_insert] at hm'
  split at hm'
  · rw [← Option.some.inj hm']
    refine ⟨⟨?_, ?_⟩, ?_⟩
    · rw [h.zone]
      exact hoccurred
    · rw [h.received]
      exact hnow
    · intro literal hl
      obtain ⟨text, htext⟩ := h.written hstream literal hl
      exact validNumber_of_writeNumber htext
  · simp at hm'

theorem Committed.untyped_iff (h : Committed d r zone typedNil stream m) :
    m.Untyped ↔ ∀ (field : String) (c : FieldChange), r.event.changedFields[field]? = some c →
      (c.before = .null → (field, Side.before) ∉ typedNil) ∧
        (c.after = .null → (field, Side.after) ∉ typedNil) := by
  rw [Untyped, h.typed, h.changed]

/-! ## Section 4: Round trips -/

theorem preserved_of_digest {m' : InMemory} (hcanonical : m'.canonicalJSON = m.canonicalJSON)
    (hdigest : m'.contentDigest d = m.contentDigest d)
    (hsource : m'.event.sourceDigest = m.event.sourceDigest)
    (hprev : m'.event.prevHash = m.event.prevHash) (hsequence : m'.event.sequence = m.event.sequence)
    (hstream : m'.event.streamID = m.event.streamID) : Preserved d m m' := by
  refine ⟨hcanonical, hdigest, ?_⟩
  rw [eventHash, eventHash, hdigest, hsource, hprev, hsequence, hstream]

theorem Untyped.preserved_reloaded (h : m.Untyped) : Preserved d m m.reloaded := by
  refine preserved_of_digest h.reload_canonicalJSON ?_ rfl rfl rfl rfl
  have hcontent : m.content.Untyped := h
  have hswap : m.reloaded.content = m.content.reloaded := rfl
  rw [contentDigest, contentDigest, hswap, hcontent.reload_canonicalJSON]

theorem content_written (hwritten : ∀ literal ∈ m.event.toJson.normalize.numbers,
      ∃ text, writeNumber literal = .ok text) :
    ∀ literal ∈ m.content.event.toJson.normalize.numbers,
      ∃ text, writeNumber literal = .ok text := by
  intro literal hl
  apply hwritten
  rw [Event.mem_numbers] at hl ⊢
  rcases hl with hl | hl | hl | hl | ⟨hne, -⟩
  · exact .inl hl
  · exact .inr (.inl hl)
  · exact .inr (.inr (.inl hl))
  · exact .inr (.inr (.inr (.inl hl)))
  · exact absurd rfl hne

theorem Untyped.preserved_archived (h : m.Untyped)
    (hwritten : ∀ literal ∈ m.event.toJson.normalize.numbers,
      ∃ text, writeNumber literal = .ok text) : Preserved d m m.archived := by
  have harchived : ∀ {m : InMemory}, m.Untyped → (∃ text, m.canonicalJSON = .ok text) →
      m.archived.canonicalJSON = m.canonicalJSON := by
    intro m h htext
    obtain ⟨text, htext⟩ := htext
    have huntyped : m.archived.Untyped := untyped_of_nil rfl
    rw [htext, huntyped.canonicalJSON]
    rw [h.canonicalJSON] at htext
    exact Event.canonicalJSON_canonical htext
  refine preserved_of_digest (harchived h (canonicalJSON_succeeds.2 hwritten)) ?_ rfl rfl rfl rfl
  have hcontent : m.content.Untyped := h
  have hswap : m.archived.content = m.content.archived := rfl
  rw [contentDigest, contentDigest, hswap,
    harchived hcontent (canonicalJSON_succeeds.2 (content_written hwritten))]

theorem reload_changes_text (hwritten : ∀ literal ∈ m.event.toJson.normalize.numbers,
      ∃ text, writeNumber literal = .ok text) (htyped : ¬ m.Untyped) :
    m.canonicalJSON ≠ m.reloaded.canonicalJSON ∧
      m.content.canonicalJSON ≠ m.reloaded.content.canonicalJSON := by
  constructor
  · intro hsame
    obtain ⟨text, htext⟩ := canonicalJSON_succeeds.2 hwritten
    exact htyped (untyped_of_reload htext (hsame.symm.trans htext))
  · intro hsame
    obtain ⟨text, htext⟩ := canonicalJSON_succeeds.2 (content_written hwritten)
    have hswap : m.reloaded.content = m.content.reloaded := rfl
    rw [hswap] at hsame
    have huntyped : m.content.Untyped := untyped_of_reload htext (hsame.symm.trans htext)
    exact htyped huntyped

theorem archivedEventContext_ok (h : m.Untyped) (ht : m.event.TimesMarshal)
    (hpreserved : Preserved d m m.archived) (hhash : m.eventHash d = .ok m.event.hash)
    (hne : m.event.hash ≠ "") {object : String} (hobject : m.canonicalJSON = .ok object)
    {get : String → Except Err String}
    (hget : get (eventArchiveKey m.event.tenantID m.event.streamID m.event.sequence
      m.event.eventID) = .ok object) :
    archivedEventContext d get m.receipt = .ok m.archived := by
  have hsame : ¬ (m.archived.event.eventID ≠ m.receipt.eventID ∨
      m.archived.event.tenantID ≠ m.receipt.tenantID ∨
      m.archived.event.streamID ≠ m.receipt.streamID ∨
      m.archived.event.sequence ≠ m.receipt.sequence) := by
    rintro (hne | hne | hne | hne) <;> exact hne rfl
  have hreceipt : ¬ (m.receipt.hash = "" ∨ m.event.hash ≠ m.receipt.hash) := by
    rintro (hempty | hdiffers)
    · exact hne hempty
    · exact hdiffers rfl
  rw [archivedEventContext]
  rw [show get (eventArchiveKey m.receipt.tenantID m.receipt.streamID m.receipt.sequence
    m.receipt.eventID) = .ok object from hget]
  dsimp only
  rw [h.read_canonicalJSON hobject ht]
  dsimp only
  rw [if_neg hsame, hpreserved.hash, hhash]
  dsimp only
  rw [if_neg hreceipt]

/-- A note whose owner, nobody before, is now bob. -/
def ownerRequest : IngestRequest :=
  { noteRequest secretNote with
    event := { noteEvent secretNote with
      changedFields := (∅ : Dict FieldChange).insert "owner" { after := .str "bob" } }
    nil_empty := by simp [noteRequest] }

/-- Two hours east of Greenwich. -/
def eastern : Timestamp.Zone := ⟨120, by decide⟩

instance : Inhabited InMemory := ⟨{ event := default }⟩

/-- The note as committed. -/
def ownerNote (typedNil : List (String × Side)) : InMemory :=
  okValue (ingest (developmentDeployment 2) (noteControl [] []) ownerRequest eastern typedNil
    { nextSequence := 1 })

/-- A store document with one note. -/
def noteDocument (m : InMemory) : Dict InMemory := (∅ : Dict InMemory).insert "e1" m

theorem ownerNote_encodes {typedNil : List (String × Side)} {m : InMemory}
    (hm : ingest (developmentDeployment 2) (noteControl [] []) ownerRequest eastern typedNil
      { nextSequence := 1 } = .ok m) : ∃ text, encodeDocument (noteDocument m) = .ok text := by
  have hcommitted := ingest_ok hm
  refine hcommitted.encodes (by decide) ?_ (by decide) "e1"
  rw [hcommitted.occurred]
  decide

end InMemory

end AuditGovernance
