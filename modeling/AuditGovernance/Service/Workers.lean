import AuditGovernance.Service.Ingest

/-! # Worker passes and receipt transitions

    The tenant transactions that run beside ingest
    (`internal/service/hotcold_workers.go`, `internal/service/tenant_ingest.go`):
    sealing what is pending, archiving what is hot, and moving one receipt to
    its next status. Archive writes happen outside the store and are inputs:
    a write either stored the object or failed.
-/

namespace AuditGovernance

open FiniteMap

/-! ## Section 1: Sealing -/

/-- Keys of the tenant's streams with pending hashes, in order. -/
def pendingStreams (hot : HotDoc) (tenantID : String) : List String :=
  hot.streams.toList.filterMap fun p =>
    if p.2.tenantID = tenantID ∧ p.2.pendingHashes ≠ [] then some p.1 else none

/-- The loop of `sealPendingTenant`. `checkpointIDs` gives the id drawn for
    each stream. -/
def Env.sealStreams (env : Env) (now : Time) (checkpointIDs : String → String) :
    List String → TenantView → Except Err TenantView
  | [], view => .ok view
  | key :: rest, view =>
    match env.sealInto view key ((view.hot.streams[key]?).getD {}) now (checkpointIDs key) with
    | .error err => .error err
    | .ok (view', _) => env.sealStreams now checkpointIDs rest view'

/-- The closure of `sealPendingTenant`. -/
def Env.sealBody (env : Env) (tenantID : String) (now : Time) (checkpointIDs : String → String)
    (view : TenantView) : Except Err TenantView :=
  env.sealStreams now checkpointIDs (pendingStreams view.hot tenantID) view

/-! ## Section 2: Receipt transitions -/

def receiptFromEvent (event : Event) : EventReceipt :=
  { eventID := event.eventID, tenantID := event.tenantID, idempotencyKey := event.idempotencyKey
    status := .ledgered, acceptedAt := event.receivedAt, ledgeredAt := event.receivedAt
    streamID := event.streamID, sequence := event.sequence, hash := event.hash }

/-- The receipt a transition starts from. -/
def transitionSource (view : TenantView) (key : String) : Except Err EventReceipt :=
  match view.ledger.parent.receipt key with
  | some receipt => .ok receipt
  | none =>
    match view.hot.events[key]? with
    | none => .error (.notFound "")
    | some event => .ok (receiptFromEvent event)

/-- A receipt in its next status. -/
def EventReceipt.moved (receipt : EventReceipt) (status : Status) (evict : Bool) (now : Time) :
    EventReceipt :=
  { receipt with
    status := status, indexedAt := now
    archivedAt := if evict then now else receipt.archivedAt }

/-- The closure of `transitionTenantReceipt`. -/
def transitionBody (tenantID eventID : String) (status : Status) (evict : Bool) (now : Time)
    (view : TenantView) : Except Err (TenantView × EventReceipt) :=
  let key := eventKey tenantID eventID
  match transitionSource view key with
  | .error err => .error err
  | .ok receipt =>
    let moved := receipt.moved status evict now
    let events := if evict then view.hot.events.erase key else view.hot.events
    (view.ledger.setReceipt moved).map fun ledger =>
      ({ view with ledger := ledger, hot := { view.hot with events := events } }, moved)

/-! ## Section 3: Collecting an archive batch -/

/-- Failures of an archive write. -/
inductive ArchiveError where
  | keyTooLong (message : String)
  | objectConflict (message : String)
  /-- Everything else aborts the pass and is tried again later. -/
  | transient (err : Err)
deriving DecidableEq

/-- `isPermanentArchiveError`, with the message of a permanent failure. -/
def ArchiveError.permanent : ArchiveError → Except Err String
  | .keyTooLong message => .ok message
  | .objectConflict message => .ok message
  | .transient err => .error err

/-- `archiveErrorReason`. -/
def ArchiveError.reason : ArchiveError → String
  | .keyTooLong _ => "archive_key_too_long"
  | .objectConflict _ => "archive_object_conflict"
  | .transient _ => "archive_permanent_failure"

/-- `boundedErrorMessage`; the texts of permanent failures are ASCII. -/
def boundedErrorMessage (message : String) : String := String.ofList (message.toList.take 512)

/-- `segmentDeadLetterKey`: key and synthetic event id. -/
def segmentDeadLetterKey (segment : Segment) : String × String :=
  let eventID := Framing.join keySeparator "seg" (segment.streamID ++ ":" ++
    Int.repr segment.firstSequence ++ "-" ++ Int.repr segment.lastSequence)
  (eventKey segment.tenantID eventID, eventID)

structure ArchiveTenantBatch where
  events : List Event := []
  evictedKeys : List String := []
  segments : List Segment := []
  deadLetters : Dict DeadLetter := ∅

/-- The hot events a pass looks at: those of the tenant that are not dead. -/
def archiveCandidates (view : TenantView) (tenantID : String) : List (String × Event) :=
  view.hot.events.toList.filter fun p =>
    p.2.tenantID = tenantID && (view.global.deadLetters[p.1]?).isNone

/-- `collectArchiveTenantBatch`. -/
def collectArchiveTenantBatch (view : TenantView) (tenantID : String) :
    Except Err ArchiveTenantBatch :=
  let candidates := archiveCandidates view tenantID
  let archived := fun (key : String) =>
    (view.ledger.parent.receipt key).any (fun receipt => receipt.status = .archived)
  if candidates.any (fun p => (view.ledger.parent.receipt p.1).isNone) then
    .error (.conflict "uncommitted hot evidence cannot be archived")
  else
    let live := fun (record : LedgerRecord) =>
      record.segment.filter fun segment =>
        record.recordType = .segment &&
          (view.global.deadLetters[(segmentDeadLetterKey segment).1]?).isNone
    .ok {
      events := ((candidates.filter (fun p => !archived p.1)).map Prod.snd).insertionSort
        (fun a b => a.eventID ≤ b.eventID)
      evictedKeys := (candidates.filter (fun p => archived p.1)).map Prod.fst
      segments := ((sortLedgerRecords view.ledger.parent.records).filterMap live).insertionSort
        (fun a b => if a.streamID ≠ b.streamID then a.streamID < b.streamID
          else a.firstSequence ≤ b.firstSequence) }

/-! ## Section 4: Archiving -/

/-- Archive the segments of a batch; permanent failures become dead letters. -/
def archiveSegments (tenantID : String) (now : Time)
    (put : Segment → Except ArchiveError Unit) :
    List Segment → Dict DeadLetter → Except Err (Dict DeadLetter)
  | [], dead => .ok dead
  | segment :: rest, dead =>
    match put segment with
    | .ok () => archiveSegments tenantID now put rest dead
    | .error failure =>
      match failure.permanent with
      | .error err => .error err
      | .ok message =>
        archiveSegments tenantID now put rest (dead.insert (segmentDeadLetterKey segment).1
          { tenantID := tenantID, eventID := (segmentDeadLetterKey segment).2
            streamID := segment.streamID, sequence := segment.firstSequence
            reason := failure.reason, errorMessage := boundedErrorMessage message, at_ := now })

/-- Archive the events of a batch: the archived ones and the dead letters. -/
def archiveEvents (tenantID : String) (now : Time) (put : Event → Except ArchiveError Unit) :
    List Event → Dict DeadLetter → Except Err (List Event × Dict DeadLetter)
  | [], dead => .ok ([], dead)
  | event :: rest, dead =>
    match put event with
    | .ok () => (archiveEvents tenantID now put rest dead).map fun (archived, dead') =>
        (event :: archived, dead')
    | .error failure =>
      match failure.permanent with
      | .error err => .error err
      | .ok message =>
        archiveEvents tenantID now put rest (dead.insert (eventKey tenantID event.eventID)
          { tenantID := tenantID, eventID := event.eventID, streamID := event.streamID
            sequence := event.sequence, reason := failure.reason
            errorMessage := boundedErrorMessage message, at_ := now })

/-- Drop the bodies of events that are archived already. -/
def evictArchived (keys : List String) (view : TenantView) : TenantView :=
  keys.foldl (fun view key =>
    if (view.ledger.parent.receipt key).any (fun receipt => receipt.status = .archived) then
      { view with hot := { view.hot with events := view.hot.events.erase key } }
    else view) view

/-- Mark the events just archived and drop their bodies. -/
def markArchived (tenantID : String) (now : Time) :
    List Event → TenantView → Except Err TenantView
  | [], view => .ok view
  | event :: rest, view =>
    let key := eventKey tenantID event.eventID
    match view.ledger.parent.receipt key with
    | none => .error (.notFound "")
    | some receipt =>
      match view.ledger.setReceipt (receipt.moved .archived true now) with
      | .error err => .error err
      | .ok ledger => markArchived tenantID now rest
          { view with ledger := ledger, hot := { view.hot with events := view.hot.events.erase key } }

/-- A receipt that reports a dead letter. -/
def EventReceipt.deadLettered (receipt : EventReceipt) (dead : DeadLetter) : EventReceipt :=
  { receipt with errorCode := "archive_dead_letter", errorMessage := dead.errorMessage }

/-- The control plane with one more dead letter. -/
def Control.addDeadLetter (control : Control) (key : String) (dead : DeadLetter) : Control :=
  { control with deadLetters := control.deadLetters.insert key dead }

/-- Record the dead letters, and report them on the receipts they have. -/
def markDead : List (String × DeadLetter) → TenantView → Except Err TenantView
  | [], view => .ok view
  | (key, dead) :: rest, view =>
    match view.ledger.parent.receipt key with
    | none => markDead rest { view with global := view.global.addDeadLetter key dead }
    | some receipt =>
      match view.ledger.setReceipt (receipt.deadLettered dead) with
      | .error err => .error err
      | .ok ledger => markDead rest
          { view with ledger := ledger, global := view.global.addDeadLetter key dead }

/-- The closure of `archivePendingTenant`. -/
def archiveBody (tenantID : String) (now : Time) (evictedKeys : List String)
    (archived : List Event) (deadLetters : Dict DeadLetter) (view : TenantView) :
    Except Err TenantView :=
  match markArchived tenantID now archived (evictArchived evictedKeys view) with
  | .error err => .error err
  | .ok marked =>
    (markDead deadLetters.toList marked).map fun view =>
      { view with global := { view.global with
          archiveConflictFailures := view.global.archiveConflictFailures.insert tenantID 0 } }

end AuditGovernance
