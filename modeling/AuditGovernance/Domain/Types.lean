import AuditGovernance.Framework.FiniteMap

/-! # Domain records

    The records the audit ledger stores and the control plane keeps beside
    them (`internal/domain/models.go`, `internal/store`). Field names follow
    the source. Conventions of the embedding:

    - A Go `map[string]V` is a `Dict V`; a nil map and an empty map are the
      same dictionary.
    - `time.Time` is the number of nanoseconds since the zero time, so `0`
      is the zero value that `IsZero` tests for.
    - Sequence numbers and counters are `Int` where the source compares them
      with zero, and record versions are `Nat`.
    - A nil slice and an empty slice are the same list.
-/

namespace AuditGovernance

open FiniteMap

/-- Nanoseconds since the zero `time.Time`; negative before it. -/
abbrev Time := Int

/-- A JSON value as `encoding/json` with `UseNumber` decodes it: numbers keep
    their literal text. -/
inductive Json where
  | null
  | bool (value : Bool)
  | num (literal : String)
  | str (text : String)
  | arr (items : List Json)
  | obj (fields : List (String × Json))
deriving Repr, Inhabited

mutual

def Json.decEq : (a b : Json) → Decidable (a = b)
  | .null, .null => isTrue rfl
  | .bool a, .bool b => decidable_of_iff (a = b) (by simp)
  | .num a, .num b => decidable_of_iff (a = b) (by simp)
  | .str a, .str b => decidable_of_iff (a = b) (by simp)
  | .arr a, .arr b => @decidable_of_iff _ (a = b) (by simp) (Json.decEqList a b)
  | .obj a, .obj b => @decidable_of_iff _ (a = b) (by simp) (Json.decEqFields a b)
  | .null, .bool _ | .null, .num _ | .null, .str _ | .null, .arr _ | .null, .obj _
  | .bool _, .null | .bool _, .num _ | .bool _, .str _ | .bool _, .arr _ | .bool _, .obj _
  | .num _, .null | .num _, .bool _ | .num _, .str _ | .num _, .arr _ | .num _, .obj _
  | .str _, .null | .str _, .bool _ | .str _, .num _ | .str _, .arr _ | .str _, .obj _
  | .arr _, .null | .arr _, .bool _ | .arr _, .num _ | .arr _, .str _ | .arr _, .obj _
  | .obj _, .null | .obj _, .bool _ | .obj _, .num _ | .obj _, .str _ | .obj _, .arr _ =>
    isFalse (by simp)

def Json.decEqList : (a b : List Json) → Decidable (a = b)
  | [], [] => isTrue rfl
  | [], _ :: _ => isFalse (by simp)
  | _ :: _, [] => isFalse (by simp)
  | x :: xs, y :: ys =>
    match Json.decEq x y, Json.decEqList xs ys with
    | isTrue h, isTrue hs => isTrue (by rw [h, hs])
    | isFalse h, _ => isFalse (by simp [h])
    | _, isFalse hs => isFalse (by simp [hs])

def Json.decEqFields : (a b : List (String × Json)) → Decidable (a = b)
  | [], [] => isTrue rfl
  | [], _ :: _ => isFalse (by simp)
  | _ :: _, [] => isFalse (by simp)
  | (k, x) :: xs, (l, y) :: ys =>
    match instDecidableEqString k l, Json.decEq x y, Json.decEqFields xs ys with
    | isTrue hk, isTrue h, isTrue hs => isTrue (by rw [hk, h, hs])
    | isFalse hk, _, _ => isFalse (by simp [hk])
    | _, isFalse h, _ => isFalse (by simp [h])
    | _, _, isFalse hs => isFalse (by simp [hs])

end

instance : DecidableEq Json := Json.decEq

/-! ## Audit evidence -/

structure Actor where
  id : String := ""
  type : String := ""
  name : String := ""
  department : String := ""
  roles : List String := []
deriving DecidableEq, Inhabited

structure Target where
  type : String := ""
  id : String := ""
  name : String := ""
deriving DecidableEq, Inhabited

structure FieldChange where
  before : Json := .null
  after : Json := .null
deriving DecidableEq, Inhabited

/-- The canonical audit fact accepted from a source system. -/
structure Event where
  eventID : String := ""
  tenantID : String := ""
  sourceSystem : String := ""
  eventType : String := ""
  schemaID : String := ""
  schemaVersion : Int := 0
  occurredAt : Time := 0
  receivedAt : Time := 0
  operationID : String := ""
  causationID : String := ""
  correlationID : String := ""
  traceID : String := ""
  spanID : String := ""
  actor : Actor := {}
  targets : List Target := []
  aggregateType : String := ""
  aggregateID : String := ""
  aggregateVersion : Int := 0
  workflowInstanceID : String := ""
  executionRunID : String := ""
  action : String := ""
  outcome : String := ""
  reason : String := ""
  changedFields : Dict FieldChange := ∅
  payload : Dict Json := ∅
  payloadRef : String := ""
  sourceDigest : String := ""
  dataClassification : String := ""
  retentionClass : String := ""
  idempotencyKey : String := ""
  streamID : String := ""
  sequence : Int := 0
  prevHash : String := ""
  hash : String := ""
  serverVersion : String := ""
deriving DecidableEq, Inhabited

/-- Receipt status texts (`StatusReceived` … `StatusFailed`). `unset` is the
    empty text of a zero receipt. -/
inductive Status where
  | unset
  | received
  | accepted
  | ledgered
  | indexed
  | archived
  | failed
deriving DecidableEq, Repr, Inhabited

/-- The acknowledgement of one event. `sequence` and `hash` tie it to the
    event's place in its stream's hash chain. -/
structure EventReceipt where
  eventID : String := ""
  tenantID : String := ""
  idempotencyKey : String := ""
  status : Status := .unset
  acceptedAt : Time := 0
  ledgeredAt : Time := 0
  indexedAt : Time := 0
  archivedAt : Time := 0
  streamID : String := ""
  sequence : Int := 0
  hash : String := ""
  duplicate : Bool := false
  conflict : Bool := false
  errorCode : String := ""
  errorMessage : String := ""
deriving DecidableEq, Inhabited

/-- A sealed run of consecutive events of one stream. -/
structure Segment where
  tenantID : String := ""
  streamID : String := ""
  firstSequence : Int := 0
  lastSequence : Int := 0
  firstPrevHash : String := ""
  lastHash : String := ""
  eventCount : Int := 0
  merkleRoot : String := ""
  manifestHash : String := ""
  signature : String := ""
  createdAt : Time := 0
deriving DecidableEq, Inhabited

/-- The signed root of a sealed segment. -/
structure Checkpoint where
  id : String := ""
  tenantID : String := ""
  streamID : String := ""
  sequence : Int := 0
  merkleRoot : String := ""
  signature : String := ""
  algorithm : String := ""
  createdAt : Time := 0
deriving DecidableEq, Inhabited

/-- Head of one stream together with the events not sealed yet. -/
structure StreamState where
  tenantID : String := ""
  streamID : String := ""
  nextSequence : Int := 0
  headHash : String := ""
  pendingPrevHash : String := ""
  pendingHashes : List String := []
  pendingEvents : List String := []
deriving DecidableEq, Inhabited

/-! ## Control plane -/

structure Tenant where
  id : String := ""
  name : String := ""
  homeRegion : String := ""
  dataRegion : String := ""
  active : Bool := false
  eventsPerSecond : Int := 0
  burst : Int := 0
  createdAt : Time := 0
deriving DecidableEq, Inhabited

structure SourceSystem where
  id : String := ""
  tenantID : String := ""
  name : String := ""
  allowedClientIDs : List String := []
  active : Bool := false
  createdAt : Time := 0
deriving DecidableEq, Inhabited

structure EventSchema where
  tenantID : String := ""
  schemaID : String := ""
  version : Int := 0
  eventType : String := ""
  requiredFields : List String := []
  allowedFields : List String := []
  encryptedFields : List String := []
  searchableFields : List String := []
  classification : String := ""
  active : Bool := false
  createdAt : Time := 0
deriving DecidableEq, Inhabited

structure RetentionPolicy where
  tenantID : String := ""
  hotDays : Int := 0
  warmDays : Int := 0
  archiveDays : Int := 0
  retentionClass : String := ""
deriving DecidableEq, Inhabited

structure Query where
  from_ : Time := 0
  to_ : Time := 0
  eventType : String := ""
  sourceSystem : String := ""
  actorID : String := ""
  targetID : String := ""
  aggregateType : String := ""
  aggregateID : String := ""
  operationID : String := ""
  causationID : String := ""
  correlationID : String := ""
  traceID : String := ""
  outcome : String := ""
  payloadField : String := ""
  payloadDigest : String := ""
  streamID : String := ""
  cursor : String := ""
  pageSize : Int := 0
deriving DecidableEq, Inhabited

structure LegalHold where
  id : String := ""
  tenantID : String := ""
  name : String := ""
  reason : String := ""
  filter : Query := {}
  createdBy : String := ""
  createdAt : Time := 0
  releasedAt : Option Time := none
  releasedBy : String := ""
deriving DecidableEq, Inhabited

structure ExportJob where
  id : String := ""
  tenantID : String := ""
  requestedBy : String := ""
  query : Query := {}
  status : String := ""
  retryOf : String := ""
  failureCode : String := ""
  createdAt : Time := 0
  startedAt : Option Time := none
  finishedAt : Option Time := none
  objectPath : String := ""
  digest : String := ""
  eventCount : Int := 0
  error : String := ""
deriving DecidableEq, Inhabited

/-- Runtime fence of one export claim. -/
structure ExportLease where
  version : Int := 0
  jobID : String := ""
  tenantID : String := ""
  owner : String := ""
  heartbeatAt : Time := 0
  expiresAt : Time := 0
deriving DecidableEq, Inhabited

structure ExportCheckpoint where
  version : Int := 0
  sealVersion : Int := 0
  jobID : String := ""
  tenantID : String := ""
  binding : String := ""
  objectPath : String := ""
  sealedDigest : String := ""
  digest : String := ""
  eventCount : Int := 0
  createdAt : Time := 0
  signature : String := ""
deriving DecidableEq, Inhabited

structure EventReference where
  occurredAt : Time := 0
  eventID : String := ""
  streamID : String := ""
  sequence : Int := 0
  hash : String := ""
deriving DecidableEq, Inhabited

structure ExportPlanMember extends EventReference where
  schemaID : String := ""
  schemaVersion : Int := 0
  schemaDigest : String := ""
deriving DecidableEq, Inhabited

structure ExportPlanChunk where
  sealVersion : Int := 0
  first : Int := 0
  count : Int := 0
  objectPath : String := ""
  sealedDigest : String := ""
  digest : String := ""
  createdAt : Time := 0
deriving DecidableEq, Inhabited

structure ExportPlan where
  version : Int := 0
  formatVersion : Int := 0
  jobID : String := ""
  tenantID : String := ""
  binding : String := ""
  createdAt : Time := 0
  members : List ExportPlanMember := []
  chunks : List ExportPlanChunk := []
  signature : String := ""
deriving DecidableEq, Inhabited

structure RestoreRun where
  id : String := ""
  tenantID : String := ""
  operationID : String := ""
  status : String := ""
  reason : String := ""
  createdBy : String := ""
  createdAt : Time := 0
  approvedBy : String := ""
  approvedAt : Option Time := none
  rejectedBy : String := ""
  rejectedAt : Option Time := none
deriving DecidableEq, Inhabited

structure AdminAction where
  id : String := ""
  tenantID : String := ""
  actor : String := ""
  action : String := ""
  targetType : String := ""
  targetID : String := ""
  detail : String := ""
  createdAt : Time := 0
deriving DecidableEq, Inhabited

structure CheckpointRef where
  streamID : String := ""
  checkpointID : String := ""
  sequence : Int := 0
  merkleRoot : String := ""
deriving DecidableEq, Inhabited

structure AggregateCheckpoint where
  id : String := ""
  tenantID : String := ""
  streamCount : Int := 0
  root : String := ""
  signature : String := ""
  algorithm : String := ""
  createdAt : Time := 0
  streamRoots : List String := []
  attestationVersion : Int := 0
  checkpointRefs : List CheckpointRef := []
deriving DecidableEq, Inhabited

/-- An event or sealed segment that can never be archived. -/
structure DeadLetter where
  tenantID : String := ""
  eventID : String := ""
  streamID : String := ""
  sequence : Int := 0
  reason : String := ""
  errorMessage : String := ""
  at_ : Time := 0
deriving DecidableEq, Inhabited

/-! ## Errors -/

/-- The immutable record families of the cold ledger. -/
inductive LedgerRecordType where
  | receipt
  | segment
  | checkpoint
deriving DecidableEq, Repr, Inhabited

/-- The compatibility text of a record family. -/
def LedgerRecordType.text : LedgerRecordType → String
  | .receipt => "receipt"
  | .segment => "segment"
  | .checkpoint => "checkpoint"

/-- The error values the modelled functions return. A sentinel that the source
    wraps with `%w` is a constructor carrying the text after the sentinel. -/
inductive Err where
  | notFound (detail : String)
  | conflict (detail : String)
  | unauthorized (detail : String)
  | forbidden (detail : String)
  | invalid (detail : String)
  | quotaExceeded (detail : String)
  | schemaNotFound (detail : String)
  | tenantMismatch (detail : String)
  | snapshotConflict
  | hotColdInconsistency (detail : String)
  | tenantCommitPending
  | ledgerRecordConflict (tenantID : String) (recordType : LedgerRecordType)
      (key : String) (version : Nat)
  /-- `ErrLedgerRecordConflict` itself, without coordinates. -/
  | ledgerRecordConflictSentinel
  | plain (text : String)
  | storage (text : String)
  /-- Another error with text in front of it, still found by `errors.Is`. -/
  | wrap (context : String) (err : Err)
deriving DecidableEq, Repr, Inhabited

/-- `errors.Is(err, ErrSnapshotConflict)`: `ErrTenantCommitPending` wraps it. -/
def Err.isSnapshotConflict : Err → Bool
  | .snapshotConflict => true
  | .tenantCommitPending => true
  | .wrap _ err => err.isSnapshotConflict
  | _ => false

/-- `errors.Is(err, ErrTenantCommitPending)`. -/
def Err.isTenantCommitPending : Err → Bool
  | .tenantCommitPending => true
  | .wrap _ err => err.isTenantCommitPending
  | _ => false

instance decidableEqExcept {ε α : Type} [DecidableEq ε] [DecidableEq α] :
    DecidableEq (Except ε α)
  | .error _, .error _ => decidable_of_iff _ (Except.error.injEq _ _).to_iff.symm
  | .ok _, .ok _ => decidable_of_iff _ (Except.ok.injEq _ _).to_iff.symm
  | .error _, .ok _ => .isFalse nofun
  | .ok _, .error _ => .isFalse nofun

theorem bind_ok {α β : Type} {x : Except Err α} {f : α → Except Err β} {b : β}
    (h : x >>= f = .ok b) : ∃ a, x = .ok a ∧ f a = .ok b := by
  cases x with
  | error err => cases h
  | ok a => exact ⟨a, rfl, h⟩

theorem map_ok {α β : Type} {x : Except Err α} {f : α → β} {b : β}
    (h : x.map f = .ok b) : ∃ a, x = .ok a ∧ f a = b := by
  cases x with
  | error err => cases h
  | ok a => exact ⟨a, rfl, Except.ok.inj h⟩

end AuditGovernance
