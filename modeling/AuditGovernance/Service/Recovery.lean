import AuditGovernance.Service.Ingest
import AuditGovernance.Store.FileStore

/-! # Recovery of a journaled commit

    `RecoverHotTenantCommit` (`internal/service/hot_commit_recovery.go`,
    `hot_commit_pending.go`): read the unresolved journal of a tenant, prove
    from the captured documents that it is one ingest's work, and only then
    append it. Nothing is sequenced again.
-/

namespace AuditGovernance

open FiniteMap

/-- `requireTenantScope`. -/
def requireTenantScope (tenantID : String) : Except Err Unit :=
  if tenantID = "" then .error (.invalid "tenant_id is required") else validTenantID tenantID

/-! ## Section 1: The journaled records -/

/-- The payloads of a journal, at most one of each family. -/
structure HotRecoveryRecords where
  receipt : Option EventReceipt := none
  segment : Option Segment := none
  checkpoint : Option Checkpoint := none
deriving DecidableEq

/-- One iteration of the loop of `recoveryRecords`. -/
def HotRecoveryRecords.add (proof : HotRecoveryRecords) (record : LedgerRecord) :
    Except Err HotRecoveryRecords :=
  match record.recordType with
  | .receipt =>
    if proof.receipt.isSome then .error (.conflict "")
    else .ok { proof with receipt := record.receipt }
  | .segment =>
    if proof.segment.isSome then .error (.conflict "")
    else .ok { proof with segment := record.segment }
  | .checkpoint =>
    if proof.checkpoint.isSome then .error (.conflict "")
    else .ok { proof with checkpoint := record.checkpoint }

def HotRecoveryRecords.addAll :
    HotRecoveryRecords → List LedgerRecord → Except Err HotRecoveryRecords
  | proof, [] => .ok proof
  | proof, record :: rest =>
    match proof.add record with
    | .error err => .error err
    | .ok next => next.addAll rest

/-- A receipt as ingest journals it. -/
def recoverableReceipt (receipt : EventReceipt) : Bool :=
  receipt.status = .ledgered && !receipt.duplicate && !receipt.conflict &&
    receipt.errorCode = "" && receipt.ledgeredAt ≠ 0 && 0 < receipt.sequence &&
    receipt.sequence ≠ maxInt64

/-- `recoveryRecords`, with the receipt it insists on. -/
def recoveryRecords (c : TenantCommitCandidate) :
    Except Err (HotRecoveryRecords × EventReceipt) :=
  if c.records.length > 3 then .error (.conflict "unsupported hot commit recovery")
  else
    match HotRecoveryRecords.addAll {} c.records with
    | .error err => .error err
    | .ok proof =>
      match proof.receipt with
      | none => .error (.conflict "invalid recovery receipt")
      | some receipt =>
        if recoverableReceipt receipt then .ok (proof, receipt)
        else .error (.conflict "invalid recovery receipt")

/-! ## Section 2: Validation -/

/-- The captured anchor just before `sequence` carries `prevHash`. -/
def anchorMatches (c : TenantCommitCandidate) (streamID : String) (sequence : Int)
    (prevHash : String) : Bool :=
  (c.anchors ⟨streamID, sequence - 1⟩).any fun anchor =>
    anchor.tenantID = c.tenantID && anchor.streamID = streamID &&
      anchor.sequence = sequence - 1 && anchor.hash ≠ "" && anchor.hash = prevHash

/-- `recoveryPrefixMatches`. -/
def recoveryPrefixMatches (c : TenantCommitCandidate) (streamID : String) (firstSequence : Int)
    (prevHash : String) : Bool :=
  if firstSequence = 1 then prevHash = ""
  else if firstSequence < 1 then false
  else anchorMatches c streamID firstSequence prevHash

/-- `validateRecoveryHead`: the hot body is the receipt's event, and the stream
    ends with it. -/
def Env.validateRecoveryHead (env : Env) (c : TenantCommitCandidate) (receipt : EventReceipt) :
    Except Err StreamState :=
  match c.hot.events[eventKey c.tenantID receipt.eventID]? with
  | none => .error (.conflict "")
  | some event =>
    match env.validatePublicationEvent event receipt c.schemas with
    | .error _ => .error (.conflict "invalid hot recovery evidence")
    | .ok () =>
      match c.hot.streams[streamKey c.tenantID receipt.streamID]? with
      | none => .error (.conflict "hot recovery stream mismatch")
      | some stream =>
        if stream.tenantID ≠ c.tenantID ∨ stream.streamID ≠ receipt.streamID ∨
            stream.nextSequence ≠ receipt.sequence + 1 ∨ stream.headHash ≠ receipt.hash then
          .error (.conflict "hot recovery stream mismatch")
        else if receipt.sequence = 1 then
          if event.prevHash ≠ "" then .error (.conflict "") else .ok stream
        else if anchorMatches c receipt.streamID receipt.sequence event.prevHash then .ok stream
        else .error (.conflict "recovery predecessor unavailable")

/-- One pending event of `validateRecoveryPending`: its receipt sits at its
    place in the stream. -/
def pendingReceiptMatches (c : TenantCommitCandidate) (stream : StreamState) (sequence : Int)
    (key hash : String) (value : EventReceipt) : Bool :=
  value.tenantID = c.tenantID && value.streamID = stream.streamID && value.sequence = sequence &&
    value.hash ≠ "" && value.hash = hash && key = eventKey c.tenantID value.eventID

/-- The loop of `validateRecoveryPending`. The last pending event is the
    journaled one, whose receipt is not committed yet. -/
def checkPendingReceipts (c : TenantCommitCandidate) (stream : StreamState)
    (receipt : EventReceipt) : Int → List String → List String → Bool
  | sequence, [key], [hash] => pendingReceiptMatches c stream sequence key hash receipt
  | sequence, key :: keys, hash :: hashes =>
    (c.pendingReceipts[key]?).any (pendingReceiptMatches c stream sequence key hash) &&
      checkPendingReceipts c stream receipt (sequence + 1) keys hashes
  | _, _, _ => true

/-- `validateRecoveryPending`. -/
def validateRecoveryPending (c : TenantCommitCandidate) (stream : StreamState)
    (receipt : EventReceipt) : Except Err Unit :=
  let n := stream.pendingHashes.length
  let first := stream.nextSequence - n
  if n = 0 ∨ stream.pendingEvents.length ≠ n ∨
      stream.pendingHashes.getLast? ≠ some receipt.hash ∨
      stream.pendingEvents.getLast? ≠ some (eventKey c.tenantID receipt.eventID) then
    .error (.conflict "")
  else if !recoveryPrefixMatches c stream.streamID first stream.pendingPrevHash then
    .error (.conflict "")
  else if checkPendingReceipts c stream receipt first stream.pendingEvents
      stream.pendingHashes then .ok ()
  else .error (.conflict "")

/-- `validateRecoverySeal`. -/
def Env.validateRecoverySeal (env : Env) (c : TenantCommitCandidate) (stream : StreamState)
    (receipt : EventReceipt) (proof : HotRecoveryRecords) : Except Err Unit :=
  match proof.segment, proof.checkpoint with
  | some segment, some checkpoint =>
    if stream.pendingHashes ≠ [] ∨ stream.pendingEvents ≠ [] then .error (.conflict "")
    else if segment.tenantID ≠ c.tenantID ∨ segment.streamID ≠ receipt.streamID ∨
        segment.lastSequence ≠ receipt.sequence ∨ segment.lastHash ≠ receipt.hash ∨
        segment.firstSequence ≤ 0 ∨ segment.lastSequence < segment.firstSequence ∨
        segment.eventCount ≠ segment.lastSequence - segment.firstSequence + 1 then
      .error (.conflict "")
    else if checkpoint.tenantID ≠ c.tenantID ∨ checkpoint.streamID ≠ receipt.streamID ∨
        checkpoint.sequence ≠ receipt.sequence ∨ checkpoint.merkleRoot ≠ segment.merkleRoot ∨
        checkpoint.signature ≠ segment.signature ∨ checkpoint.algorithm ≠ env.algorithm then
      .error (.conflict "")
    else if !recoveryPrefixMatches c segment.streamID segment.firstSequence
        segment.firstPrevHash then .error (.conflict "")
    else
      let digest := env.hashBytes (Env.manifestText segment.tenantID segment.firstSequence
        segment.lastSequence segment.lastHash segment.merkleRoot)
      if digest ≠ segment.manifestHash then .error (.conflict "")
      else
        match env.verify digest segment.signature with
        | .error err => .error err
        | .ok true => .ok ()
        | .ok false => .error (.conflict "hot recovery signature mismatch")
  | _, _ => .error (.conflict "")

/-- `validateHotTenantCommit`. -/
def Env.validateHotTenantCommit (env : Env) (c : TenantCommitCandidate) : Except Err Unit :=
  match recoveryRecords c with
  | .error err => .error err
  | .ok (proof, receipt) =>
    match env.validateRecoveryHead c receipt with
    | .error err => .error err
    | .ok stream =>
      if proof.segment.isNone && proof.checkpoint.isNone then
        validateRecoveryPending c stream receipt
      else env.validateRecoverySeal c stream receipt proof

/-! ## Section 3: The recovery call -/

/-- `RecoverHotTenantCommit`: the store, the number of appended records and
    the result. -/
def Env.recoverHotTenantCommit (env : Env) (s : FileStore) (faults : WriteFaults)
    (tenantID : String) : FileStore × Nat × Except Err Unit :=
  match requireTenantScope tenantID with
  | .error err => (s, 0, .error err)
  | .ok () =>
    match s.readPendingTenantCommit tenantID with
    | .error err => (s, 0, .error err)
    | .ok candidate =>
      if candidate.records = [] then (s, 0, .ok ())
      else
        match env.validateHotTenantCommit candidate with
        | .error err => (s, 0, .error err)
        | .ok () => s.commitPendingTenantCommit faults candidate

end AuditGovernance
