import AuditGovernance.Store.Snapshot

/-! # Digests, hashes and seals

    The bytes that back an audit fact (`internal/service/ingest_validation.go`,
    `internal/service/query_match.go`, `internal/domain/canonical.go`): content
    digest, event hash, field protection and its inverse, Merkle root and
    segment seal. Hashing, canonical encoding, encryption and signing are
    functions of the environment; randomness and the clock are inputs of the
    operations that use them.
-/

namespace AuditGovernance

open FiniteMap

/-! ## Section 1: Environment -/

/-- Configuration and library functions of a service process. -/
structure Env where
  /-- `domain.HashBytes`. -/
  hashBytes : String → String
  /-- `domain.CanonicalJSON` of an event. -/
  canonicalEvent : Event → Except Err String
  /-- The encoding before numbers were kept exact (`legacyCanonicalJSON`). -/
  legacyCanonicalEvent : Event → Except Err String
  /-- `domain.CanonicalJSON` of digest, previous hash, sequence and stream,
      which cannot fail on three texts and an integer. -/
  canonicalLink : String → String → Int → String → String
  /-- `security.EncryptJSON` under the configured key: value, associated data
      and nonce. -/
  encryptJSON : Json → String → Nat → Except Err String
  /-- `security.DecryptJSON` under the configured key. -/
  decryptJSON : String → String → Except Err Json
  /-- `security.SearchDigestBound` under the configured key: value, tenant and
      field. -/
  searchDigestBound : Json → String → String → Except Err String
  /-- `Signer.Sign`. -/
  sign : String → Except Err String
  /-- `Signer.Verify`. -/
  verify : String → String → Except Err Bool
  /-- `Signer.Algorithm`. -/
  algorithm : String
  /-- `Config.SegmentSize`. -/
  segmentSize : Int
  /-- Whether a `Config.LedgeredPublisher` is set. -/
  publisher : Bool

namespace Env

variable (env : Env)

/-! ## Section 2: Event digests -/

/-- The event without the fields that processing fills in. -/
def contentOf (e : Event) : Event :=
  { e with
    sourceDigest := "", receivedAt := 0, serverVersion := "", hash := "", prevHash := ""
    sequence := 0, streamID := "" }

/-- `EventContentDigest`. -/
def eventContentDigest (e : Event) : Except Err String :=
  (env.canonicalEvent (contentOf e)).map env.hashBytes

/-- `legacyEventContentDigest`. -/
def legacyEventContentDigest (e : Event) : Except Err String :=
  (env.legacyCanonicalEvent (contentOf e)).map env.hashBytes

/-- `EventDigest`. -/
def eventDigest (e : Event) : Except Err String :=
  if e.sourceDigest ≠ "" then .ok e.sourceDigest else env.eventContentDigest e

/-- `eventHash`. -/
def eventHash (e : Event) : Except Err String :=
  (env.eventDigest e).map fun digest =>
    env.hashBytes (env.canonicalLink digest e.prevHash e.sequence e.streamID)

/-- `MatchEventContentDigest`, as whether one of the two encodings matches. -/
def matchEventContentDigest (e : Event) (expected : String) : Except Err Bool :=
  match env.eventContentDigest e with
  | .error err => .error err
  | .ok current =>
    if current = expected then .ok true
    else (env.legacyEventContentDigest e).map (fun legacy => legacy = expected)

/-! ## Section 3: Field protection -/

def searchDigestSuffix : String := "__search_digest"

/-- Associated data of an encrypted field. -/
def fieldBinding (e : Event) (field : String) : String :=
  e.tenantID ++ "/" ++ field ++ "/" ++ e.eventID

/-- The encryption loop of `protectSensitiveFields`. Values are taken from the
    original payload, and the `i`-th entry of the list draws its own nonce. -/
def encryptFields (e : Event) (nonce : Nat → Nat) :
    Nat → List String → Dict Json → Except Err (Dict Json)
  | _, [], payload => .ok payload
  | i, field :: rest, payload =>
    match e.payload[field]? with
    | none => encryptFields e nonce (i + 1) rest payload
    | some value =>
      match env.encryptJSON value (fieldBinding e field) (nonce i) with
      | .error err => .error err
      | .ok encoded => encryptFields e nonce (i + 1) rest (payload.insert field (.str encoded))

/-- The digest loop of `protectSensitiveFields`, over the original values. -/
def digestFields (e : Event) : List String → Dict Json → Except Err (Dict Json)
  | [], payload => .ok payload
  | field :: rest, payload =>
    match e.payload[field]? with
    | none => digestFields e rest payload
    | some value =>
      match env.searchDigestBound value e.tenantID field with
      | .error err => .error err
      | .ok digest => digestFields e rest (payload.insert (field ++ searchDigestSuffix) (.str digest))

/-- `protectSensitiveFields`. -/
def protectSensitiveFields (e : Event) (schema : EventSchema) (nonce : Nat → Nat) :
    Except Err Event :=
  match env.encryptFields e nonce 0 schema.encryptedFields e.payload with
  | .error err => .error err
  | .ok encrypted =>
    (env.digestFields e schema.searchableFields encrypted).map fun payload =>
      { e with payload := payload }

/-- The decryption loop of `reconstructEventForDigest`. -/
def decryptFields (e : Event) : List String → Dict Json → Except Err (Dict Json)
  | [], payload => .ok payload
  | field :: rest, payload =>
    match payload[field]? with
    | some (.str encoded) =>
      match env.decryptJSON encoded (fieldBinding e field) with
      | .error err => .error (.wrap ("cannot decrypt field " ++ field) err)
      | .ok original => decryptFields e rest (payload.insert field original)
    | _ => decryptFields e rest payload

/-- `reconstructEventForDigest`: drop the search digests, then decrypt. -/
def reconstructEventForDigest (e : Event) (schemas : Dict EventSchema) : Except Err Event :=
  match schemas[schemaKey e.tenantID e.schemaID e.schemaVersion]? with
  | none => .error (.plain ("schema " ++ e.schemaID ++ " v" ++ Int.repr e.schemaVersion ++
      " not found"))
  | some schema =>
    let stripped := schema.searchableFields.foldl
      (fun (payload : Dict Json) field => payload.erase (field ++ searchDigestSuffix)) e.payload
    (env.decryptFields e schema.encryptedFields stripped).map fun payload =>
      { e with payload := payload }

/-- `reconstructAndDerive`. -/
def reconstructAndDerive (e : Event) (schemas : Dict EventSchema) : Except Err String :=
  match env.reconstructEventForDigest e schemas with
  | .error err => .error err
  | .ok original => env.eventContentDigest original

/-- `firstReservedSearchDigestKey`: dictionaries list their keys in order. -/
def firstReservedSearchDigestKey (payload : Dict Json) : Option String :=
  (payload.toList.map Prod.fst).find? (fun key => key.endsWith searchDigestSuffix)

/-- `verifyContentDigest`. -/
def verifyContentDigest (e : Event) (schemas : Dict EventSchema) : Except Err Unit :=
  let place := "stream " ++ e.streamID ++ " sequence " ++ Int.repr e.sequence
  if e.sourceDigest = "" then .error (.plain (place ++ " missing source_digest"))
  else
    match env.reconstructEventForDigest e schemas with
    | .error err => .error (.wrap (place ++ " content digest check failed") err)
    | .ok original =>
      match env.matchEventContentDigest original e.sourceDigest with
      | .error err => .error (.wrap (place ++ " content digest check failed") err)
      | .ok true => .ok ()
      | .ok false =>
        match firstReservedSearchDigestKey e.payload with
        | some key => .error (.plain (place ++ " content verification failed: stored payload " ++
            "carries top-level key " ++ key.quote ++ " in the reserved search_digest namespace " ++
            "(mismatch cannot be attributed to ordinary tampering)"))
        | none => .error (.plain (place ++ " content digest mismatch"))

/-- `validatePublicationEvent`. -/
def validatePublicationEvent (e : Event) (receipt : EventReceipt) (schemas : Dict EventSchema) :
    Except Err Unit :=
  if receipt.tenantID = "" ∨ receipt.eventID = "" ∨ receipt.streamID = "" ∨
      receipt.sequence ≤ 0 ∨ receipt.hash = "" ∨ e.tenantID ≠ receipt.tenantID ∨
      e.eventID ≠ receipt.eventID ∨ e.streamID ≠ receipt.streamID ∨
      e.sequence ≠ receipt.sequence ∨ e.hash ≠ receipt.hash then
    .error (.plain "publication evidence identity mismatch")
  else
    match env.verifyContentDigest e schemas with
    | .error _ => .error (.plain "publication evidence content mismatch")
    | .ok () =>
      match env.eventHash e with
      | .error _ => .error (.plain "publication evidence hash mismatch")
      | .ok hash =>
        if hash = receipt.hash then .ok ()
        else .error (.plain "publication evidence hash mismatch")

/-! ## Section 4: Seals -/

/-- One level of the Merkle tree; an odd last node is paired with itself. -/
def merkleLevel : List String → List String
  | [] => []
  | [last] => [env.hashBytes (last ++ last)]
  | left :: right :: rest => env.hashBytes (left ++ right) :: merkleLevel rest

/-- The loop of `merkleRoot`; a level of `n` nodes needs fewer than `n`
    rounds. -/
def merkleLoop : Nat → List String → List String
  | 0, level => level
  | fuel + 1, level =>
    if level.length > 1 then merkleLoop fuel (env.merkleLevel level) else level

/-- `merkleRoot`. -/
def merkleRoot (hashes : List String) : String :=
  match hashes with
  | [] => env.hashBytes ""
  | first :: _ => ((env.merkleLoop hashes.length hashes).head?).getD first

/-- The text a segment's manifest hash is taken of. -/
def manifestText (tenantID : String) (first last : Int) (lastHash root : String) : String :=
  tenantID ++ ":" ++ Int.repr first ++ ":" ++ Int.repr last ++ ":" ++ lastHash ++ ":" ++ root

/-- `sealSegment`: segment and checkpoint of everything the stream has
    pending. -/
def sealSegment (stream : StreamState) (now : Time) (checkpointID : String) :
    Except Err (Segment × Checkpoint) :=
  let hashes := stream.pendingHashes
  let root := env.merkleRoot hashes
  let first := stream.nextSequence - hashes.length
  let last := stream.nextSequence - 1
  let manifestHash := env.hashBytes
    (manifestText stream.tenantID first last stream.headHash root)
  match env.sign manifestHash with
  | .error err => .error (.wrap "sign segment" err)
  | .ok signature =>
    .ok ({ tenantID := stream.tenantID, streamID := stream.streamID
           firstSequence := first, lastSequence := last
           firstPrevHash := stream.pendingPrevHash, lastHash := stream.headHash
           eventCount := hashes.length, merkleRoot := root, manifestHash := manifestHash
           signature := signature, createdAt := now },
         { id := checkpointID, tenantID := stream.tenantID, streamID := stream.streamID
           sequence := last, merkleRoot := root, signature := signature
           algorithm := env.algorithm, createdAt := now })

end Env

end AuditGovernance
