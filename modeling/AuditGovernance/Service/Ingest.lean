import AuditGovernance.Service.Digest
import AuditGovernance.Domain.Identifiers

/-! # The ingest transaction

    The body of the tenant transaction that commits one event
    (`internal/service/tenant_ingest.go`, `ingest_stream_anchor.go`,
    `ledgered_intent.go`, `sources.go`). What the body reads from outside the
    store (an archived body, a publication confirmation) and the random id of
    a checkpoint are part of the call.
-/

namespace AuditGovernance

open FiniteMap

/-! ## Section 1: Source access -/

/-- `Event.Stream`. -/
def Event.stream (e : Event) : String :=
  if e.streamID ≠ "" then e.streamID
  else if e.aggregateType ≠ "" ∧ e.aggregateID ≠ "" then
    e.tenantID ++ ":aggregate:" ++ e.aggregateType ++ ":" ++ e.aggregateID
  else if e.operationID ≠ "" then e.tenantID ++ ":operation:" ++ e.operationID
  else e.tenantID ++ ":source:" ++ e.sourceSystem

/-- `SourceSystem.AllowsClient`. -/
def SourceSystem.allowsClient (source : SourceSystem) (clientID : String) : Bool :=
  if clientID = "" then false
  else if source.allowedClientIDs = [] then clientID = source.id
  else clientID ∈ source.allowedClientIDs

def sourceAccessAllowed (control : Control) (tenantID sourceID clientID : String) : Bool :=
  match control.sources[sourceKey tenantID sourceID]? with
  | none => false
  | some source => source.active && source.allowsClient clientID

def sourceAccessError : Err :=
  .forbidden "source_system is not allowed for authenticated client"

/-- The source scan of `resolveIngestTenantFromData`: every source that admits
    the client must belong to one tenant. -/
def resolveFromSources (clientID sourceID : String) :
    List SourceSystem → String → Except Err String
  | [], resolved => .ok resolved
  | source :: rest, resolved =>
    if !source.active || source.id ≠ sourceID || !source.allowsClient clientID then
      resolveFromSources clientID sourceID rest resolved
    else if resolved ≠ "" ∧ resolved ≠ source.tenantID then .error sourceAccessError
    else resolveFromSources clientID sourceID rest source.tenantID

/-- `resolveIngestTenantFromData`. -/
def resolveIngestTenantFromData (control : Control) (tenantHint clientID sourceID : String) :
    Except Err String :=
  if tenantHint ≠ "" then
    if sourceAccessAllowed control tenantHint sourceID clientID then .ok tenantHint
    else .error sourceAccessError
  else
    match resolveFromSources clientID sourceID (control.sources.toList.map Prod.snd) "" with
    | .error err => .error err
    | .ok resolved => if resolved = "" then .error sourceAccessError else .ok resolved

/-! ## Section 2: Events that are already there -/

/-- One call of `ingestTenantOnce`. -/
structure IngestCall where
  tenantHint : String
  clientID : String
  tenantID : String
  event : Event
  inputDigest : String
  /-- The id `newID` draws if the commit seals a segment. -/
  checkpointID : String
  /-- `archivedEventContext`: the verified archived body behind a receipt. -/
  archivedEvent : EventReceipt → Except Err Event
  /-- `TenantView.PublicationConfirmed`. -/
  publicationConfirmed : EventReceipt → Except Err Bool

/-- `conflictReceipt`. -/
def conflictReceipt (tenantID : String) (event : Event) : EventReceipt :=
  { eventID := event.eventID, tenantID := tenantID, idempotencyKey := event.idempotencyKey
    conflict := true, errorCode := "idempotency_key_conflict"
    errorMessage := "idempotency_key is already associated with another event" }

/-- `idempotencyKeyReusedTenant`. -/
def idempotencyKeyReusedTenant (view : TenantView) (tenantID key idempotencyKey : String) : Bool :=
  (view.ledger.parent.findReceiptByIdempotencyKey idempotencyKey).any
      (fun receipt => eventKey tenantID receipt.eventID ≠ key) ||
    view.hot.events.toList.any (fun p =>
      p.1 ≠ key && p.2.tenantID = tenantID && p.2.idempotencyKey = idempotencyKey &&
        (view.ledger.parent.receipt p.1).isSome)

/-- What `checkExistingTenantIngest` finds: nothing, a receipt, or an error
    with the receipt reported beside it. -/
inductive Existing where
  | absent
  | duplicate (receipt : EventReceipt)
  | refused (receipt : EventReceipt) (err : Err)

/-- The comparison of `checkExistingTenantIngest` with the stored body. The
    receipt it buffers on a conflict is discarded with the transaction, which
    always fails there. -/
def Env.compareExisting (env : Env) (view : TenantView) (inputDigest : String)
    (stored : EventReceipt) (existing : Event) : Existing :=
  match env.reconstructAndDerive existing view.global.schemas with
  | .error err => .refused {} err
  | .ok digest =>
    if digest = inputDigest then .duplicate { stored with duplicate := true }
    else
      let marked := { stored with
        conflict := true, errorCode := "event_id_content_conflict"
        errorMessage := "event_id already exists with different canonical content" }
      match view.ledger.setReceipt marked with
      | .error err => .refused marked err
      | .ok _ => .refused marked (.conflict "event_id content differs")

/-- `checkExistingTenantIngest`. -/
def Env.checkExistingTenantIngest (env : Env) (view : TenantView) (call : IngestCall) : Existing :=
  let key := eventKey call.tenantID call.event.eventID
  match view.hot.events[key]?, view.ledger.parent.receipt key with
  | none, none => .absent
  | none, some stored =>
    if stored.status ≠ .archived then
      .refused {} (.plain ("event " ++ call.event.eventID ++ " has receipt but no hot payload"))
    else
      match call.archivedEvent stored with
      | .error err => .refused {} err
      | .ok existing => env.compareExisting view call.inputDigest stored existing
  | some _, none => .refused {} (.conflict "hot evidence has no committed receipt")
  | some existing, some stored => env.compareExisting view call.inputDigest stored existing

/-! ## Section 3: Publication intents -/

/-- `ensureLedgeredIntent`. -/
def Env.ensureLedgeredIntent (env : Env) (view : TenantView) (event : Event) (key : String) :
    TenantView :=
  if env.publisher then
    { view with global := { view.global with
        ledgeredOutbox := view.global.ledgeredOutbox.insert key event } }
  else view

/-- `repairLedgeredIntent`: the view, and whether an intent was re-created. -/
def Env.repairLedgeredIntent (env : Env) (view : TenantView) (call : IngestCall)
    (receipt : EventReceipt) (key : String) : Except Err (TenantView × Bool) :=
  if !env.publisher || !receipt.duplicate then .ok (view, false)
  else if (view.global.ledgeredOutbox[key]?).isSome then .ok (view, false)
  else
    match call.publicationConfirmed receipt with
    | .error err => .error err
    | .ok true => .ok (view, false)
    | .ok false =>
      match view.hot.events[key]? with
      | none => .ok (view, false)
      | some stored =>
        match env.validatePublicationEvent stored receipt view.global.schemas with
        | .error err => .error err
        | .ok () => .ok (env.ensureLedgeredIntent view stored key, true)

/-! ## Section 4: Placing an event in its stream -/

/-- `math.MaxInt64`. -/
def maxInt64 : Int := 2 ^ 63 - 1

/-- The stream an event is appended to, a fresh one when there is none. -/
def ingestStream (hot : HotDoc) (tenantID streamID : String) : StreamState :=
  let stream := (hot.streams[streamKey tenantID streamID]?).getD {}
  if stream.streamID = "" then { tenantID := tenantID, streamID := streamID, nextSequence := 1 }
  else stream

/-- The head of the stream, as far as it is hot, has its own receipt. -/
def headAnchored (view : TenantView) (stream : StreamState) : Bool :=
  view.hot.events.toList.all fun p =>
    p.2.streamID ≠ stream.streamID || p.2.sequence ≠ stream.nextSequence - 1 ||
      (view.ledger.parent.receipt p.1).any fun receipt =>
        receipt.tenantID = stream.tenantID && receipt.eventID = p.2.eventID &&
          receipt.streamID = stream.streamID && receipt.sequence = p.2.sequence &&
          receipt.hash = p.2.hash && receipt.hash = stream.headHash

/-- `validateIngestHotHead`. -/
def validateIngestHotHead (view : TenantView) (stream : StreamState) : Except Err Unit :=
  if stream.nextSequence ≤ 0 ∨ stream.nextSequence = maxInt64 then
    .error (.conflict "invalid ingest stream sequence")
  else if stream.nextSequence = 1 then
    if stream.headHash ≠ "" then .error (.conflict "") else .ok ()
  else if headAnchored view stream then .ok ()
  else .error (.conflict "ingest head has no matching committed receipt")

/-- The event with its place in the stream and its hash. -/
def Env.placeEvent (env : Env) (stream : StreamState) (event : Event) : Except Err Event :=
  let placed := { event with
    streamID := event.stream, sequence := stream.nextSequence, prevHash := stream.headHash }
  (env.eventHash placed).map fun hash => { placed with hash := hash }

/-- The stream after one more event. -/
def StreamState.extend (stream : StreamState) (event : Event) (key : String) : StreamState :=
  let pendingHashes := stream.pendingHashes ++ [event.hash]
  { stream with
    nextSequence := stream.nextSequence + 1
    headHash := event.hash
    pendingHashes := pendingHashes
    pendingEvents := stream.pendingEvents ++ [key]
    pendingPrevHash := if pendingHashes.length = 1 then event.prevHash else stream.pendingPrevHash }

/-- The stream with nothing pending. -/
def StreamState.cleared (stream : StreamState) : StreamState :=
  { stream with pendingHashes := [], pendingEvents := [], pendingPrevHash := "" }

/-- The receipt of a freshly placed event. -/
def ledgeredReceipt (tenantID : String) (event : Event) : EventReceipt :=
  { eventID := event.eventID, tenantID := tenantID, idempotencyKey := event.idempotencyKey
    status := .ledgered, acceptedAt := event.receivedAt, ledgeredAt := event.receivedAt
    streamID := event.streamID, sequence := event.sequence, hash := event.hash }

/-- Seal everything the stream at `key` has pending into the ledger and clear
    it. -/
def Env.sealInto (env : Env) (view : TenantView) (key : String) (stream : StreamState)
    (now : Time) (checkpointID : String) : Except Err (TenantView × Segment) :=
  match env.sealSegment stream now checkpointID with
  | .error err => .error err
  | .ok (segment, checkpoint) =>
    match view.ledger.appendSegment segment with
    | .error err => .error err
    | .ok ledger =>
      match ledger.appendCheckpoint checkpoint with
      | .error err => .error err
      | .ok ledger =>
        let streams := view.hot.streams.insert key stream.cleared
        .ok ({ view with ledger := ledger, hot := { view.hot with streams := streams } }, segment)

/-! ## Section 5: The transaction body -/

/-- What `ingestTenantOnce` keeps outside the closure. The segments of a
    failed run are left out: every caller drops them. -/
structure IngestState where
  event : Event
  receipt : EventReceipt := {}
  sealed : List Segment := []
  repaired : Bool := false
deriving DecidableEq

/-- The view after the placed event was added: hot body, stream, intent and
    receipt. -/
def Env.recordEvent (env : Env) (view : TenantView) (tenantID : String) (stream : StreamState)
    (event : Event) : Except Err TenantView :=
  let key := eventKey tenantID event.eventID
  let hot : HotDoc :=
    { streams := view.hot.streams.insert (streamKey tenantID event.streamID) stream
      events := view.hot.events.insert key event }
  let queued := env.ensureLedgeredIntent { view with hot := hot } event key
  (queued.ledger.setReceipt (ledgeredReceipt tenantID event)).map fun ledger =>
    { queued with ledger := ledger }

/-- The branch of the body that commits a new event. -/
def Env.ingestNew (env : Env) (call : IngestCall) (view : TenantView) :
    Except (Err × IngestState) (TenantView × IngestState) :=
  let started : IngestState :=
    { event := call.event
      receipt := { eventID := call.event.eventID, tenantID := call.tenantID
                   idempotencyKey := call.event.idempotencyKey, status := .ledgered
                   acceptedAt := call.event.receivedAt, ledgeredAt := call.event.receivedAt } }
  let stream := ingestStream view.hot call.tenantID call.event.stream
  match validateIngestHotHead view stream with
  | .error err => .error (err, started)
  | .ok () =>
    match env.placeEvent stream call.event with
    | .error err => .error (err, started)
    | .ok event =>
      let extended := stream.extend event (eventKey call.tenantID event.eventID)
      let state : IngestState := { event := event, receipt := ledgeredReceipt call.tenantID event }
      match env.recordEvent view call.tenantID extended event with
      | .error err => .error (err, state)
      | .ok recorded =>
        if (extended.pendingHashes.length : Int) < env.segmentSize then .ok (recorded, state)
        else
          match env.sealInto recorded (streamKey call.tenantID event.streamID) extended
              call.event.receivedAt call.checkpointID with
          | .error err => .error (err, state)
          | .ok (view', segment) => .ok (view', { state with sealed := [segment] })

/-- The closure of `ingestTenantOnce`. A failed run reports the state it had
    reached. -/
def Env.ingestBody (env : Env) (call : IngestCall) (view : TenantView) :
    Except (Err × IngestState) (TenantView × IngestState) :=
  let start : IngestState := { event := call.event }
  let key := eventKey call.tenantID call.event.eventID
  if resolveIngestTenantFromData view.global call.tenantHint call.clientID
      call.event.sourceSystem ≠ .ok call.tenantID then
    .error (sourceAccessError, start)
  else
    match env.checkExistingTenantIngest view call with
    | .refused receipt err => .error (err, { start with receipt := receipt })
    | .duplicate receipt =>
      match env.repairLedgeredIntent view call receipt key with
      | .error err => .error (err, { start with receipt := receipt })
      | .ok (view', repaired) => .ok (view', { start with receipt := receipt, repaired := repaired })
    | .absent =>
      if idempotencyKeyReusedTenant view call.tenantID key call.event.idempotencyKey then
        .error (.conflict "idempotency_key is already associated with another event",
          { start with receipt := conflictReceipt call.tenantID call.event })
      else env.ingestNew call view

end AuditGovernance
