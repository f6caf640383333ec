import AuditGovernance.Domain.Identifiers
import AuditGovernance.Store.Split

/-! # The file-backed store

    One process over a directory: the control document, and for each tenant a
    hot document and an append-only ledger file (`internal/store/hotcold_split.go`,
    `hotcold_commit.go`, `hotcold_files.go`, `tenant_commit.go`). A file write
    is atomic and either happens or fails without effect; `WriteFaults` says
    which of the writes of an operation fail. File contents are decoded
    documents, and file names are tenant ids.
-/

namespace AuditGovernance

open FiniteMap

/-! ## Section 1: State -/

/-- A tenant's hot file. -/
structure HotFile where
  version : Nat
  hot : HotDoc
  pendingLedger : List LedgerRecord := []
deriving DecidableEq

/-- The directory. -/
structure Disk where
  control : Control := {}
  hot : Dict HotFile := ∅
  ledger : Dict (List LedgerRecord) := ∅
deriving DecidableEq

/-- An open store: the directory and the state the process keeps of it. -/
structure FileStore where
  disk : Disk := {}
  control : Control := {}
  tenant : Dict TenantState := ∅
deriving DecidableEq

/-- Which writes of an operation fail. -/
structure WriteFaults where
  hot : Bool := false
  ledger : Bool := false
  control : Bool := false
deriving DecidableEq

def noFaults : WriteFaults := {}

def maxTenantCommitRecords : Nat := 100

/-- The error of a failed file write. -/
def writeError (path : String) : Err := .storage ("write " ++ path)

/-! ## Section 2: Journals -/

/-- Every record belongs to the tenant and is well formed; the first bad one
    decides the error. -/
def checkRecords (mismatch : LedgerRecord → Err) (tenantID : String) :
    List LedgerRecord → Except Err Unit
  | [] => .ok ()
  | r :: rest =>
    if r.tenantID ≠ tenantID then .error (mismatch r)
    else
      match validateLedgerRecord r with
      | .error e => .error e
      | .ok () => checkRecords mismatch tenantID rest

/-- `validateTenantCommitRecords`. -/
def validateTenantCommitRecords (tenantID : String) (records : List LedgerRecord) :
    Except Err Unit :=
  if records.length > maxTenantCommitRecords then
    .error (.invalid "tenant commit record budget exceeded")
  else checkRecords (fun _ => .invalid "tenant commit identity mismatch") tenantID records

/-- `unresolvedTenantCommit`: the journal names records the ledger lacks. -/
def unresolvedTenantCommit (state : TenantState) : Except Err Bool :=
  match state.pending with
  | [] => .ok false
  | first :: _ =>
    match validateTenantCommitRecords first.tenantID state.pending with
    | .error e => .error e
    | .ok () => (state.ledger.recordsToAppend state.pending).map (fun missing => !missing.isEmpty)

namespace FileStore

/-- `tenantState`: the state of a tenant, empty when there is none. -/
def stateOf (s : FileStore) (tenantID : String) : TenantState :=
  (s.tenant[tenantID]?).getD (emptyTenantState tenantID)

def setTenant (s : FileStore) (tenantID : String) (state : TenantState) : FileStore :=
  { s with tenant := s.tenant.insert tenantID state }

/-! ## Section 3: File writes -/

/-- `saveTenantHotWithCommit`. -/
def saveTenantHot (s : FileStore) (fail : Bool) (tenantID : String) (hot : HotDoc) (version : Nat)
    (records : List LedgerRecord) : Except Err FileStore :=
  if fail then .error (writeError "tenant hot file")
  else .ok { s with disk := { s.disk with
    hot := s.disk.hot.insert tenantID ⟨version, hot, records⟩ } }

/-- `appendLedgerFile`. -/
def appendLedgerFile (s : FileStore) (fail : Bool) (tenantID : String)
    (records : List LedgerRecord) : Except Err FileStore :=
  if fail then .error (writeError "tenant ledger file")
  else .ok { s with disk := { s.disk with
    ledger := s.disk.ledger.insert tenantID ((s.disk.ledger[tenantID]?).getD [] ++ records) } }

/-- `writeControlFile`. -/
def writeControlFile (s : FileStore) (fail : Bool) (control : Control) : Except Err FileStore :=
  if fail then .error (writeError "state file")
  else .ok { s with disk := { s.disk with control := control }, control := control }

/-- `appendLedger`: append the missing records to the file, then index the
    batch in memory. -/
def appendLedger (s : FileStore) (fail : Bool) (tenantID : String) (pending : List LedgerRecord) :
    Except Err FileStore :=
  match pending with
  | [] => .ok s
  | _ :: _ =>
    let state := s.stateOf tenantID
    match state.ledger.recordsToAppend pending with
    | .error e => .error e
    | .ok toAppend =>
      let committed := { state with ledger := state.ledger.commitPending pending }
      match toAppend with
      | [] => .ok (s.setTenant tenantID committed)
      | _ :: _ => (s.appendLedgerFile fail tenantID toAppend).map (·.setTenant tenantID committed)

/-! ## Section 4: Tenant transactions -/

/-- The journal a hot-first commit writes: nothing when there is nothing to
    append or the hot document does not change. -/
def journalOf (state : TenantState) (hot : HotDoc) (pending : List LedgerRecord) :
    List LedgerRecord :=
  if pending ≠ [] ∧ (hot.events ≠ state.hot.events ∨ hot.streams ≠ state.hot.streams) then pending
  else []

/-- The cold-first half of `commitTenant`: ledger, then hot document. Work done
    before a failed write stays done. -/
def commitColdFirst (s : FileStore) (faults : WriteFaults) (tenantID : String) (hot : HotDoc)
    (pending : List LedgerRecord) : FileStore × Except Err Unit :=
  match s.appendLedger faults.ledger tenantID pending with
  | .error e => (s, .error e)
  | .ok s1 =>
    let state := s1.stateOf tenantID
    match s1.saveTenantHot faults.hot tenantID hot (state.version + 1) [] with
    | .error e => (s1, .error e)
    | .ok s2 =>
      (s2.setTenant tenantID { state with hot := hot, version := state.version + 1 }, .ok ())

/-- The hot-first half of `commitTenant`: hot document with its journal, then
    ledger. -/
def commitHotFirst (s : FileStore) (faults : WriteFaults) (tenantID : String) (hot : HotDoc)
    (pending : List LedgerRecord) : FileStore × Except Err Unit :=
  let state := s.stateOf tenantID
  let journal := journalOf state hot pending
  match (if journal = [] then .ok () else validateTenantCommitRecords tenantID pending) with
  | .error e => (s, .error e)
  | .ok () =>
    match s.saveTenantHot faults.hot tenantID hot (state.version + 1) journal with
    | .error e => (s, .error e)
    | .ok s1 =>
      let s2 := s1.setTenant tenantID
        { state with hot := hot, version := state.version + 1, pending := journal }
      match s2.appendLedger faults.ledger tenantID pending with
      | .error e => (s2, .error e)
      | .ok s3 => (s3.setTenant tenantID { s3.stateOf tenantID with pending := [] }, .ok ())

/-- The tenant's own files, in the given order. -/
def commitFiles (s : FileStore) (faults : WriteFaults) (tenantID : String) (order : CommitOrder)
    (hot : HotDoc) (pending : List LedgerRecord) : FileStore × Except Err Unit :=
  match order with
  | .coldFirst => s.commitColdFirst faults tenantID hot pending
  | .hotFirst => s.commitHotFirst faults tenantID hot pending

/-- `commitTenant`. The control document is written last and only when the
    transaction changed it; then the batch is indexed once more. -/
def commitTenant (s : FileStore) (faults : WriteFaults) (tenantID : String) (order : CommitOrder)
    (hot : HotDoc) (pending : List LedgerRecord) (global : Control) :
    FileStore × Except Err Unit :=
  let indexed := fun (st : FileStore) =>
    let state := st.stateOf tenantID
    st.setTenant tenantID { state with ledger := state.ledger.commitPending pending }
  match s.commitFiles faults tenantID order hot pending with
  | (s1, .error e) => (s1, .error e)
  | (s1, .ok ()) =>
    if global = s.control then (indexed s1, .ok ())
    else
      match s1.writeControlFile faults.control global with
      | .error e => (s1, .error e)
      | .ok s2 => (indexed s2, .ok ())

/-- `updateTenant`: run a transaction on the tenant's view and commit it. An
    unresolved journal blocks it; a resolved one is forgotten. -/
def updateTenant {α : Type} (s : FileStore) (faults : WriteFaults) (tenantID : String)
    (order : CommitOrder) (fn : TenantView → Except Err (TenantView × α)) :
    FileStore × Except Err α :=
  let state := s.stateOf tenantID
  let opened := s.setTenant tenantID state
  match unresolvedTenantCommit state with
  | .error e => (opened, .error e)
  | .ok true => (opened, .error .tenantCommitPending)
  | .ok false =>
    let ready := s.setTenant tenantID { state with pending := [] }
    match fn { hot := state.hot, ledger := { parent := state.ledger }, global := s.control } with
    | .error e => (ready, .error e)
    | .ok (view, out) =>
      let (s', result) :=
        ready.commitTenant faults tenantID order view.hot view.ledger.pending view.global
      (s', result.map (fun _ => out))

/-- `LedgerScan`: the committed records of a tenant in record order. -/
def ledgerScan (s : FileStore) (tenantID : String) : List LedgerRecord :=
  match s.tenant[tenantID]? with
  | none => []
  | some state => sortLedgerRecords state.ledger.records

/-! ## Section 5: Whole-snapshot updates

    These are modelled without write faults. -/

/-- Name a tenant the control plane does not list. -/
def nameTenant (result : Snapshot) (tenantID : String) : Snapshot :=
  if (result.tenants[tenantID]?).isNone ∧ tenantID ≠ "" then
    { result with tenants := result.tenants.insert tenantID { id := tenantID } }
  else result

/-- `materialize`. -/
def materialize (s : FileStore) : Snapshot :=
  s.tenant.toList.foldl (fun result p =>
    nameTenant (result.addTenant p.2.hot p.2.ledger) p.1) { toControl := s.control }

/-- The comparison `replaceFromSnapshot` makes for a tenant with a journal. -/
def sameEvidence (current next : TenantState) : Bool :=
  current.hot.events = next.hot.events && current.hot.streams = next.hot.streams &&
    current.ledger.receipts = next.ledger.receipts &&
    current.ledger.segments = next.ledger.segments &&
    current.ledger.checkpoints = next.ledger.checkpoints

/-- The tenants with a journal. -/
def awaiting (s : FileStore) : Dict TenantState :=
  collect (fun _ state => if state.pending ≠ [] then some state else none) s.tenant

/-- `persistPrepared`: write the files of every prepared tenant that was not
    kept, then the control file. Files of tenants that are no longer prepared
    stay where they are. -/
def persistPrepared (s : FileStore) (prepared : Dict TenantState) (control : Control) : Disk :=
  let rewritten := collect (fun id state =>
    if (s.awaiting[id]?).isSome then none else some state) prepared
  { control := control
    hot := overlay s.disk.hot
      (collect (fun _ state => some ⟨state.version, state.hot, state.pending⟩) rewritten)
    ledger := overlay s.disk.ledger (collect (fun _ state => some state.ledger.records) rewritten) }

/-- `replaceFromSnapshot`: a tenant with a journal is kept as it is and must
    come out of the snapshot unchanged. -/
def replaceFromSnapshot (s : FileStore) (data : Snapshot) : FileStore × Except Err Unit :=
  let prepared := splitTenants data
  if s.awaiting.toList.all (fun p => (prepared[p.1]?).any (sameEvidence p.2)) then
    let kept := overlay prepared s.awaiting
    ({ disk := s.persistPrepared kept (controlSnapshot data)
       control := controlSnapshot data
       tenant := kept }, .ok ())
  else (s, .error .tenantCommitPending)

/-- `updateChecked`: nothing is written when the closure reports no change. -/
def updateChecked (s : FileStore) (fn : Snapshot → Except Err (Snapshot × Bool)) :
    FileStore × Except Err Unit :=
  match fn s.materialize with
  | .error e => (s, .error e)
  | .ok (_, false) => (s, .ok ())
  | .ok (working, true) => s.replaceFromSnapshot working

/-- `update`. -/
def update (s : FileStore) (fn : Snapshot → Except Err Snapshot) : FileStore × Except Err Unit :=
  match fn s.materialize with
  | .error e => (s, .error e)
  | .ok working => s.replaceFromSnapshot working

/-- `updateControl`. -/
def updateControl (s : FileStore) (fail : Bool) (fn : Control → Except Err Control) :
    FileStore × Except Err Unit :=
  match fn s.control with
  | .error e => (s, .error e)
  | .ok control =>
    match s.writeControlFile fail control with
    | .error e => (s, .error e)
    | .ok s' => (s', .ok ())

end FileStore

/-! ## Section 6: Recovery of a journaled commit -/

structure LedgerCoordinate where
  streamID : String
  sequence : Int
deriving DecidableEq, Repr

/-- A private capture of one unresolved journal and the committed receipts its
    validation needs. -/
structure TenantCommitCandidate where
  tenantID : String := ""
  version : Nat := 0
  records : List LedgerRecord := []
  hot : HotDoc := {}
  schemas : Dict EventSchema := ∅
  anchors : LedgerCoordinate → Option EventReceipt := fun _ => none
  pendingReceipts : Dict EventReceipt := ∅

/-- Coordinates whose receipts one journaled record asks for. -/
def wantedCoordinates (tenantID : String) (hot : HotDoc) (r : LedgerRecord) :
    List LedgerCoordinate :=
  (match r.receipt with
    | none => []
    | some receipt =>
      ⟨receipt.streamID, receipt.sequence - 1⟩ ::
        match hot.streams[streamKey tenantID receipt.streamID]? with
        | none => []
        | some stream =>
          [⟨receipt.streamID, stream.nextSequence - stream.pendingHashes.length - 1⟩]) ++
  (match r.segment with
    | none => []
    | some segment => [⟨segment.streamID, segment.firstSequence - 1⟩])

/-- Event keys the stream of one journaled receipt still has pending. -/
def wantedPending (tenantID : String) (hot : HotDoc) (r : LedgerRecord) : List String :=
  match r.receipt with
  | none => []
  | some receipt =>
    match hot.streams[streamKey tenantID receipt.streamID]? with
    | none => []
    | some stream => stream.pendingEvents

/-- The receipt scan of `captureRecoveryAnchors`: two different events at one
    wanted coordinate are a conflict. -/
def captureAnchors (wanted : List LedgerCoordinate) :
    List EventReceipt → (LedgerCoordinate → Option EventReceipt) →
      Except Err (LedgerCoordinate → Option EventReceipt)
  | [], anchors => .ok anchors
  | anchor :: rest, anchors =>
    let coord : LedgerCoordinate := ⟨anchor.streamID, anchor.sequence⟩
    if coord ∉ wanted then captureAnchors wanted rest anchors
    else if (anchors coord).any (fun previous =>
        previous.eventID ≠ anchor.eventID || previous.hash ≠ anchor.hash) then
      .error .ledgerRecordConflictSentinel
    else
      captureAnchors wanted rest (fun c => if c = coord then some anchor else anchors c)

/-- `captureRecoveryAnchors`. -/
def captureRecoveryAnchors (state : TenantState) (c : TenantCommitCandidate) :
    Except Err TenantCommitCandidate :=
  let wanted := c.records.flatMap (wantedCoordinates c.tenantID c.hot)
  let keys := c.records.flatMap (wantedPending c.tenantID c.hot)
  let pendingReceipts := collect (fun key receipt => if key ∈ keys then some receipt else none)
    state.ledger.receipts
  (captureAnchors wanted (state.ledger.receipts.toList.map Prod.snd) c.anchors).map fun anchors =>
    { c with anchors := anchors, pendingReceipts := pendingReceipts }

namespace FileStore

/-- `ReadPendingTenantCommit`: the empty candidate when nothing awaits
    recovery. -/
def readPendingTenantCommit (s : FileStore) (tenantID : String) :
    Except Err TenantCommitCandidate :=
  match validKeyComponent "tenant_id" tenantID with
  | .error e => .error e
  | .ok () =>
    match s.tenant[tenantID]? with
    | none => .ok {}
    | some state =>
      match unresolvedTenantCommit state with
      | .error e => .error e
      | .ok false => .ok {}
      | .ok true =>
        captureRecoveryAnchors state
          { tenantID := tenantID, version := state.version, records := state.pending
            hot := state.hot, schemas := s.control.schemas }

/-- `CommitPendingTenantCommit`: append the journaled records, then clear the
    journal. The number of appended records is reported even when the journal
    could not be cleared. -/
def commitPendingTenantCommit (s : FileStore) (faults : WriteFaults)
    (candidate : TenantCommitCandidate) : FileStore × Nat × Except Err Unit :=
  match validKeyComponent "tenant_id" candidate.tenantID with
  | .error e => (s, 0, .error e)
  | .ok () =>
    match validateTenantCommitRecords candidate.tenantID candidate.records with
    | .error e => (s, 0, .error e)
    | .ok () =>
      match s.tenant[candidate.tenantID]? with
      | none => (s, 0, .error .snapshotConflict)
      | some state =>
        if state.pending = [] then (s, 0, .ok ())
        else if state.version ≠ candidate.version ∨ state.pending ≠ candidate.records then
          (s, 0, .error .snapshotConflict)
        else
          match state.ledger.recordsToAppend state.pending with
          | .error e => (s, 0, .error e)
          | .ok missing =>
            match s.appendLedger faults.ledger candidate.tenantID state.pending with
            | .error e => (s, 0, .error e)
            | .ok s1 =>
              let committed := s1.stateOf candidate.tenantID
              match s1.saveTenantHot faults.hot candidate.tenantID committed.hot
                  (committed.version + 1) [] with
              | .error e => (s1, missing.length, .error e)
              | .ok s2 =>
                (s2.setTenant candidate.tenantID
                  { committed with version := committed.version + 1, pending := [] },
                  missing.length, .ok ())

end FileStore

/-! ## Section 7: Opening the store -/

namespace Disk

/-- `readLedgerFile`. -/
def readLedgerFile (d : Disk) (tenantID : String) : Except Err (List LedgerRecord) :=
  let records := (d.ledger[tenantID]?).getD []
  (checkRecords (fun r => .plain ("ledger file contains tenant " ++ r.tenantID.quote))
    tenantID records).map (fun _ => records)

/-- `loadTenantState`. A journal whose records are all committed is dropped. -/
def loadTenantState (d : Disk) (tenantID : String) : Except Err TenantState :=
  match d.readLedgerFile tenantID with
  | .error e => .error e
  | .ok records =>
    let ledger := TenantLedger.new tenantID records
    match d.hot[tenantID]? with
    | none => .ok { ledger := ledger }
    | some file =>
      match validateTenantCommitRecords tenantID file.pendingLedger with
      | .error e => .error e
      | .ok () =>
        let state : TenantState :=
          { hot := file.hot, ledger := ledger, version := file.version
            pending := file.pendingLedger }
        (unresolvedTenantCommit state).map fun unresolved =>
          if unresolved then state else { state with pending := [] }

/-- `tenantIDs` and `tenantIDsFromFiles` together: tenants of the control
    plane, owners of queued publications, and tenants named inside the files. -/
def tenantIDs (d : Disk) : Dict Unit :=
  let controlled := addOwners (addKeys ∅ d.control.tenants) d.control.ledgeredOutbox
  let hot := addKeys ∅ d.hot
  let ledger := d.ledger.toList.foldl (fun (ids : Dict Unit) p =>
    match p.2.head? with
    | some r => ids.insert r.tenantID ()
    | none => ids) hot
  overlay controlled (ledger.erase "")

/-- `loadFiles` over the given tenants. -/
def loadTenants (d : Disk) : List String → Except Err (Dict TenantState)
  | [] => .ok ∅
  | tenantID :: rest =>
    match d.loadTenantState tenantID with
    | .error e => .error e
    | .ok state => (d.loadTenants rest).map (fun m => m.insert tenantID state)

/-- `validateV2Layout`: every tenant of the control plane has both files. -/
def completeLayout (d : Disk) : Bool :=
  d.control.tenants.toList.all (fun p => (d.hot[p.1]?).isSome && (d.ledger[p.1]?).isSome)

/-- `newSplitStore` on a v2 directory. -/
def openStore (d : Disk) : Except Err FileStore :=
  if d.completeLayout then
    (d.loadTenants (d.tenantIDs.toList.map Prod.fst)).map fun tenants =>
      { disk := d, control := d.control, tenant := tenants }
  else .error (.plain "v2 layout is incomplete")

end Disk

end AuditGovernance
