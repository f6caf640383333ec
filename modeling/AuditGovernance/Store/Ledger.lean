import AuditGovernance.Store.Keys

/-! # The tenant ledger

    The cold tier of one tenant (`internal/store/ledger.go`): an append-only
    list of receipt, segment and checkpoint records, the read indexes built
    from it record by record, and the buffered view a tenant transaction
    writes to. The write timestamp of a record takes part in no decision and
    is left out, and so are the lookup hints (`recordPositions`), which only
    shortcut the scan of the record list.
-/

namespace AuditGovernance

open FiniteMap

/-! ## Section 1: Records -/

/-- One cold-ledger entry. Exactly one payload is present, chosen by the
    record type; `version` counts the values of one key. -/
structure LedgerRecord where
  tenantID : String
  recordType : LedgerRecordType
  key : String
  version : Nat
  receipt : Option EventReceipt := none
  segment : Option Segment := none
  checkpoint : Option Checkpoint := none
deriving DecidableEq, Inhabited

def LedgerRecord.identity (r : LedgerRecord) : String :=
  ledgerRecordIdentity r.recordType r.key r.version

/-- The three identity fields of `r` are these. -/
def LedgerRecord.hasIdentity (r : LedgerRecord) (recordType : LedgerRecordType) (key : String)
    (version : Nat) : Bool :=
  r.recordType = recordType && r.key = key && r.version = version

def LedgerRecord.payloads (r : LedgerRecord) : Nat :=
  r.receipt.toList.length + r.segment.toList.length + r.checkpoint.toList.length

def validateReceiptRecord (r : LedgerRecord) : Except Err Unit :=
  match r.receipt with
  | none => .error (.plain s!"receipt ledger record {r.key} has no receipt")
  | some receipt =>
    if receipt.tenantID ≠ r.tenantID ∨ receipt.eventID = "" then
      .error (.plain s!"receipt ledger record {r.key} has non-canonical ownership")
    else if r.key ≠ eventKey r.tenantID receipt.eventID then
      .error (.plain ("receipt ledger record key " ++ r.key.quote ++ ", want " ++
        (eventKey r.tenantID receipt.eventID).quote))
    else .ok ()

def validateSegmentRecord (r : LedgerRecord) : Except Err Unit :=
  match r.segment with
  | none => .error (.plain s!"segment ledger record {r.key} has no segment")
  | some segment =>
    if segment.tenantID ≠ r.tenantID ∨ segment.streamID = "" ∨ segment.firstSequence ≤ 0 then
      .error (.plain s!"segment ledger record {r.key} has non-canonical ownership")
    else if r.key ≠ segmentLedgerKey segment then
      .error (.plain ("segment ledger record key " ++ r.key.quote ++ ", want " ++
        (segmentLedgerKey segment).quote))
    else .ok ()

def validateCheckpointRecord (r : LedgerRecord) : Except Err Unit :=
  match r.checkpoint with
  | none => .error (.plain s!"checkpoint ledger record {r.key} has no checkpoint")
  | some checkpoint =>
    if checkpoint.tenantID ≠ r.tenantID then
      .error (.plain s!"checkpoint ledger record {r.key} has non-canonical ownership")
    else if checkpoint.id = "" ∧ (checkpoint.streamID = "" ∨ checkpoint.sequence ≤ 0) then
      .error (.plain s!"checkpoint ledger record {r.key} has empty identity")
    else if r.key ≠ checkpointKey checkpoint then
      .error (.plain ("checkpoint ledger record key " ++ r.key.quote ++ ", want " ++
        (checkpointKey checkpoint).quote))
    else .ok ()

/-- `validateLedgerRecord`: identity present, exactly one payload, and the key
    the payload itself dictates. -/
def validateLedgerRecord (r : LedgerRecord) : Except Err Unit :=
  if r.tenantID = "" ∨ r.key = "" ∨ r.version = 0 then
    .error (.plain "invalid ledger record identity")
  else if r.payloads ≠ 1 then
    .error (.plain s!"ledger record {r.key} must contain exactly one payload")
  else
    match r.recordType with
    | .receipt => validateReceiptRecord r
    | .segment => validateSegmentRecord r
    | .checkpoint => validateCheckpointRecord r

/-- Equality of two records up to the fields that are not evidence. -/
def immutableLedgerRecordEqual (left right : LedgerRecord) : Bool :=
  left.tenantID = right.tenantID && left.recordType = right.recordType &&
    left.key = right.key && left.version = right.version &&
    match left.recordType with
    | .receipt => left.receipt = right.receipt
    | .segment => left.segment = right.segment
    | .checkpoint => left.checkpoint = right.checkpoint

def ledgerConflict (r : LedgerRecord) : Err :=
  .ledgerRecordConflict r.tenantID r.recordType r.key r.version

/-- The order of `sortLedgerRecords`: record type text, key text, version. -/
def ledgerRecordLE (left right : LedgerRecord) : Bool :=
  if left.recordType ≠ right.recordType then left.recordType.text < right.recordType.text
  else if left.key ≠ right.key then left.key < right.key
  else left.version ≤ right.version

/-- Stable sort by type, key and version. -/
def sortLedgerRecords (records : List LedgerRecord) : List LedgerRecord :=
  records.insertionSort (fun a b => ledgerRecordLE a b = true)

/-! ## Section 2: The committed index -/

/-- The committed records of one tenant and the indexes over them. -/
structure TenantLedger where
  tenantID : String
  records : List LedgerRecord := []
  /-- Latest receipt of each event key. -/
  receipts : Dict EventReceipt := ∅
  /-- Version of that receipt. -/
  receiptVersions : Dict Nat := ∅
  /-- Event key that owns an idempotency key. -/
  idempotency : Dict String := ∅
  segments : Dict (List Segment) := ∅
  checkpoints : Dict (List Checkpoint) := ∅
  /-- Identities of the committed records. -/
  committedRecordKey : Dict Unit := ∅
deriving DecidableEq

namespace TenantLedger

def hasCommittedRecord (l : TenantLedger) (recordType : LedgerRecordType) (key : String)
    (version : Nat) : Bool :=
  l.committedRecordKey.contains (ledgerRecordIdentity recordType key version)

/-- Retain a record whose payload has been indexed. -/
def retain (l : TenantLedger) (r : LedgerRecord) : TenantLedger :=
  { l with
    records := l.records ++ [r]
    committedRecordKey := l.committedRecordKey.insert r.identity () }

def indexReceipt (l : TenantLedger) (key : String) (version : Nat) (receipt : EventReceipt) :
    TenantLedger :=
  { l with
    receipts := l.receipts.insert key receipt
    receiptVersions := l.receiptVersions.insert key version
    idempotency := if receipt.idempotencyKey = "" then l.idempotency
      else l.idempotency.insert receipt.idempotencyKey key }

def indexSegment (l : TenantLedger) (segment : Segment) : TenantLedger :=
  let key := streamKey segment.tenantID segment.streamID
  { l with segments := l.segments.insert key ((l.segments[key]?).getD [] ++ [segment]) }

def indexCheckpoint (l : TenantLedger) (checkpoint : Checkpoint) : TenantLedger :=
  let key := streamKey checkpoint.tenantID checkpoint.streamID
  { l with checkpoints := l.checkpoints.insert key ((l.checkpoints[key]?).getD [] ++ [checkpoint]) }

/-- `applyRecord`: index one record. Records of another tenant, without a
    version, already committed, without their payload, or older than the
    latest receipt of their key are dropped. -/
def applyRecord (l : TenantLedger) (record : LedgerRecord) : TenantLedger :=
  let r := if record.tenantID = "" then { record with tenantID := l.tenantID } else record
  if r.tenantID ≠ l.tenantID ∨ r.version = 0 then l
  else if l.hasCommittedRecord r.recordType r.key r.version then l
  else
    match r.recordType with
    | .receipt =>
      match r.receipt with
      | none => l
      | some receipt =>
        if r.version ≤ (l.receiptVersions[r.key]?).getD 0 then l
        else (l.indexReceipt r.key r.version receipt).retain r
    | .segment =>
      match r.segment with
      | none => l
      | some segment => (l.indexSegment segment).retain r
    | .checkpoint =>
      match r.checkpoint with
      | none => l
      | some checkpoint => (l.indexCheckpoint checkpoint).retain r

/-- `newTenantLedger`: replay the records into an empty index. -/
def new (tenantID : String) (records : List LedgerRecord) : TenantLedger :=
  records.foldl applyRecord { tenantID := tenantID }

/-- `commitPending`: index a committed batch. -/
def commitPending (l : TenantLedger) (records : List LedgerRecord) : TenantLedger :=
  records.foldl (fun acc r =>
    if acc.hasCommittedRecord r.recordType r.key r.version then acc else acc.applyRecord r) l

/-- `findCommittedRecord`: the first committed record with this identity. -/
def findCommittedRecord (l : TenantLedger) (recordType : LedgerRecordType) (key : String)
    (version : Nat) : Option LedgerRecord :=
  l.records.find? (fun r => r.hasIdentity recordType key version)

/-- `recordsToAppend`: the records of a batch that are not committed yet.
    A record whose identity is taken by a different payload is a conflict. -/
def recordsToAppendFrom (l : TenantLedger) (seen : List LedgerRecord) :
    List LedgerRecord → Except Err (List LedgerRecord)
  | [] => .ok []
  | r :: rest =>
    match validateLedgerRecord r with
    | .error e => .error e
    | .ok () =>
      match seen.find? (fun p => p.hasIdentity r.recordType r.key r.version) with
      | some previous =>
        if immutableLedgerRecordEqual previous r then l.recordsToAppendFrom seen rest
        else .error (ledgerConflict r)
      | none =>
        match l.findCommittedRecord r.recordType r.key r.version with
        | some existing =>
          if immutableLedgerRecordEqual existing r then
            l.recordsToAppendFrom (seen ++ [r]) rest
          else .error (ledgerConflict r)
        | none => (l.recordsToAppendFrom (seen ++ [r]) rest).map (r :: ·)

def recordsToAppend (l : TenantLedger) (records : List LedgerRecord) :
    Except Err (List LedgerRecord) :=
  l.recordsToAppendFrom [] records

/-- `Receipt`: latest committed receipt of a key. -/
def receipt (l : TenantLedger) (key : String) : Option EventReceipt := l.receipts[key]?

/-- `FindReceiptByIdempotencyKey`; the empty key is never indexed. -/
def findReceiptByIdempotencyKey (l : TenantLedger) (key : String) : Option EventReceipt :=
  if key = "" then none
  else
    match l.idempotency[key]? with
    | none => none
    | some owner => l.receipts[owner]?

/-- `Segments`: committed segments of a stream in append order. -/
def segmentsOf (l : TenantLedger) (key : String) : List Segment := (l.segments[key]?).getD []

/-- `Checkpoints`: committed checkpoints of a stream in append order. -/
def checkpointsOf (l : TenantLedger) (key : String) : List Checkpoint :=
  (l.checkpoints[key]?).getD []

end TenantLedger

/-! ## Section 3: The buffered view

    A transaction writes into a private buffer. Reads go to the committed
    parent; the buffer becomes visible when the store commits it. -/

structure LedgerView where
  parent : TenantLedger
  pending : List LedgerRecord := []
  /-- Value last buffered for each event key. -/
  pendingReceipts : Dict EventReceipt := ∅
deriving DecidableEq

namespace LedgerView

/-- `findRecord`: buffered records first, then the committed ones. -/
def findRecord (v : LedgerView) (recordType : LedgerRecordType) (key : String) (version : Nat) :
    Option LedgerRecord :=
  (v.pending.find? (fun r => r.hasIdentity recordType key version)).or
    (v.parent.findCommittedRecord recordType key version)

/-- `pendingReceiptRecord`: the buffered receipt record of `key` with the
    highest version. -/
def pendingReceiptRecord (v : LedgerView) (key : String) : Option LedgerRecord :=
  v.pending.foldl (fun latest r =>
    if r.recordType = .receipt ∧ r.key = key ∧ (latest.map (·.version)).getD 0 < r.version then
      some r
    else latest) none

/-- Version the next buffered receipt of `key` gets. -/
def nextReceiptVersion (v : LedgerView) (key : String) : Nat :=
  match v.pendingReceiptRecord key with
  | some previous => previous.version + 1
  | none => (v.parent.receiptVersions[key]?).getD 0 + 1

/-- Buffer `r` unless its identity is taken: an equal record is a no-op, a
    different one a conflict. -/
def buffer (v : LedgerView) (r : LedgerRecord) : Except Err (Bool × LedgerView) :=
  match validateLedgerRecord r with
  | .error e => .error e
  | .ok () =>
    match v.findRecord r.recordType r.key r.version with
    | some existing =>
      if immutableLedgerRecordEqual existing r then .ok (false, v) else .error (ledgerConflict r)
    | none => .ok (true, { v with pending := v.pending ++ [r] })

/-- `SetReceipt` once the tenant is settled. A repeated value is a no-op. -/
def bufferReceipt (v : LedgerView) (receipt : EventReceipt) : Except Err LedgerView :=
  let key := eventKey v.parent.tenantID receipt.eventID
  if v.pendingReceipts[key]? = some receipt then .ok v
  else if v.parent.receipt key = some receipt ∧ v.pendingReceipts[key]? = none then .ok v
  else
    let record : LedgerRecord :=
      { tenantID := v.parent.tenantID, recordType := .receipt, key := key
        version := v.nextReceiptVersion key, receipt := some receipt }
    (v.buffer record).map fun (appended, v') =>
      if appended then { v' with pendingReceipts := v'.pendingReceipts.insert key receipt }
      else v'

/-- `SetReceipt`: a receipt without a tenant gets the ledger's. -/
def setReceipt (v : LedgerView) (value : EventReceipt) : Except Err LedgerView :=
  let receipt := if value.tenantID = "" then { value with tenantID := v.parent.tenantID } else value
  if receipt.tenantID ≠ v.parent.tenantID then
    .error (.plain ("receipt tenant " ++ receipt.tenantID.quote ++
      " does not belong to ledger tenant " ++ v.parent.tenantID.quote))
  else v.bufferReceipt receipt

/-- `AppendSegment`. Stream and first sequence identify the segment. -/
def appendSegment (v : LedgerView) (segment : Segment) : Except Err LedgerView :=
  if segment.tenantID ≠ v.parent.tenantID then
    .error (.plain ("segment tenant " ++ segment.tenantID.quote ++
      " does not belong to ledger tenant " ++ v.parent.tenantID.quote))
  else
    (v.buffer
      { tenantID := v.parent.tenantID, recordType := .segment, key := segmentLedgerKey segment
        version := 1, segment := some segment }).map Prod.snd

/-- `AppendCheckpoint`. The checkpoint id identifies it. -/
def appendCheckpoint (v : LedgerView) (checkpoint : Checkpoint) : Except Err LedgerView :=
  if checkpoint.tenantID ≠ v.parent.tenantID then
    .error (.plain ("checkpoint tenant " ++ checkpoint.tenantID.quote ++
      " does not belong to ledger tenant " ++ v.parent.tenantID.quote))
  else
    (v.buffer
      { tenantID := v.parent.tenantID, recordType := .checkpoint, key := checkpointKey checkpoint
        version := 1, checkpoint := some checkpoint }).map Prod.snd

end LedgerView

end AuditGovernance
