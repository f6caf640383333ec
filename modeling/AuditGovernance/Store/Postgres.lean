import AuditGovernance.Store.ControlMerge

/-! # The PostgreSQL tables

    The three tables of the split store (`migrations/006`, with the control
    row of `migrations/004`) and the statements the store issues against them
    (`internal/store/postgres_hotcold.go`, `internal/store/postgres_cutover.go`).
    Every function below is one statement, or one transaction where the
    source opens one, and is therefore atomic. JSON columns hold decoded
    documents, and the ledger table is kept in `id` order.
-/

namespace AuditGovernance

open FiniteMap

/-- A row of `audit_tenant`. -/
structure TenantRow where
  hot : HotDoc
  version : Nat
deriving DecidableEq

/-- `snapshotConflictRetries`. -/
def snapshotConflictRetries : Nat := 3

/-- The tables. -/
structure Postgres where
  /-- `audit_state_snapshot`, row 1, with its version column. -/
  control : Option (Control × Nat) := none
  /-- `audit_tenant`. -/
  tenants : Dict TenantRow := ∅
  /-- `audit_ledger` in `id` order. -/
  ledger : List LedgerRecord := []
deriving DecidableEq

namespace Postgres

/-- `loadControl`: a missing row reads as the empty document at version 0. -/
def loadControl (db : Postgres) : Control × Nat := db.control.getD ({}, 0)

/-- `saveInitialControl`: create the control row of an empty database. -/
def saveInitialControl (db : Postgres) (control : Control) : Except Err Postgres :=
  if db.control.isSome then .error .snapshotConflict
  else if db.tenants.size ≠ 0 ∨ db.ledger.length ≠ 0 then
    .error (.hotColdInconsistency ("fresh migration requires empty targets, actual audit_tenant=" ++
      toString db.tenants.size ++ " audit_ledger=" ++ toString db.ledger.length))
  else .ok { db with control := some (control, 1) }

/-- `saveControl`: version-checked replacement of the control document. -/
def saveControl (db : Postgres) (control : Control) (version : Nat) : Except Err Postgres :=
  if version = 0 then db.saveInitialControl control
  else
    match db.control with
    | none => .error .snapshotConflict
    | some (_, current) =>
      if current = version then .ok { db with control := some (control, current + 1) }
      else .error .snapshotConflict

/-- `tenantIDs`: tenants with a hot row or a ledger record, in order. -/
def tenantIDs (db : Postgres) : List String :=
  (db.ledger.foldl (fun (ids : Dict Unit) r => ids.insert r.tenantID ())
    (collect (fun _ _ => some ()) db.tenants)).toList.map Prod.fst

/-- `loadTenantHot`: a missing row reads as the empty document at version 0. -/
def loadTenantHot (db : Postgres) (tenantID : String) : HotDoc × Nat :=
  match db.tenants[tenantID]? with
  | none => ({}, 0)
  | some row => (row.hot, row.version)

/-- `saveTenantHot`: insert the row, or replace it when its version is the
    expected one. -/
def saveTenantHot (db : Postgres) (tenantID : String) (hot : HotDoc) (version : Nat) :
    Except Err Postgres :=
  match db.tenants[tenantID]? with
  | none => .ok { db with tenants := db.tenants.insert tenantID ⟨hot, 1⟩ }
  | some row =>
    if row.version = version then
      .ok { db with tenants := db.tenants.insert tenantID ⟨hot, row.version + 1⟩ }
    else .error .snapshotConflict

/-- Ledger rows of one tenant in `id` order (`postgresLedgerReader.records`). -/
def ledgerRecords (db : Postgres) (tenantID : String) : List LedgerRecord :=
  db.ledger.filter (fun r => r.tenantID = tenantID)

/-- The ledger index a reader builds from the rows. -/
def tenantLedger (db : Postgres) (tenantID : String) : TenantLedger :=
  TenantLedger.new tenantID (db.ledgerRecords tenantID)

/-- One iteration of `appendLedgerOn`: insert the record unless its identity
    is taken; a taken identity must carry the same evidence. -/
def appendRecord (db : Postgres) (r : LedgerRecord) : Except Err Postgres :=
  match validateLedgerRecord r with
  | .error e => .error e
  | .ok () =>
    match db.ledger.find? (fun p => p.tenantID = r.tenantID &&
        p.hasIdentity r.recordType r.key r.version) with
    | none => .ok { db with ledger := db.ledger ++ [r] }
    | some existing =>
      if immutableLedgerRecordEqual existing r then .ok db else .error (ledgerConflict r)

/-- `appendLedger` outside a transaction: what was inserted before an error
    stays inserted. -/
def appendLedger (db : Postgres) : List LedgerRecord → Postgres × Except Err Unit
  | [] => (db, .ok ())
  | r :: rest =>
    match db.appendRecord r with
    | .error e => (db, .error e)
    | .ok db' => db'.appendLedger rest

/-- `commitHotFirst`: hot row and ledger records in one transaction. -/
def commitHotFirst (db : Postgres) (tenantID : String) (hot : HotDoc) (version : Nat)
    (records : List LedgerRecord) : Except Err Postgres :=
  match db.saveTenantHot tenantID hot version with
  | .error e => .error e
  | .ok db' =>
    match db'.appendLedger records with
    | (_, .error e) => .error e
    | (db'', .ok ()) => .ok db''

/-! ## Tenant transactions

    A transaction as one process runs it when no other process interferes. -/

/-- One attempt of `updateControl`: `none` when the save found another
    version. -/
def tryControl (db : Postgres) (fn : Control → Except Err Control) :
    Option (Postgres × Except Err Unit) :=
  match fn db.loadControl.1 with
  | .error e => some (db, .error e)
  | .ok control =>
    match db.saveControl control db.loadControl.2 with
    | .ok db' => some (db', .ok ())
    | .error e => if e.isSnapshotConflict then none else some (db, .error e)

/-- `updateControl`, `attempts` retries left. -/
def updateControl (db : Postgres) (fn : Control → Except Err Control) :
    Nat → Postgres × Except Err Unit
  | 0 => (db.tryControl fn).getD (db, .error .snapshotConflict)
  | attempts + 1 => (db.tryControl fn).getD (db.updateControl fn attempts)

/-- The view a transaction of tenant `t` starts from. -/
def viewOf (db : Postgres) (tenantID : String) : TenantView :=
  { hot := (db.loadTenantHot tenantID).1, ledger := { parent := db.tenantLedger tenantID }
    global := db.loadControl.1 }

/-- The tenant tables, in the given order. -/
def commitTables (db : Postgres) (tenantID : String) (order : CommitOrder) (hot : HotDoc)
    (version : Nat) (records : List LedgerRecord) : Postgres × Except Err Unit :=
  match order with
  | .coldFirst =>
    match db.appendLedger records with
    | (db', .error e) => (db', .error e)
    | (db', .ok ()) =>
      match db'.saveTenantHot tenantID hot version with
      | .error e => (db', .error e)
      | .ok db'' => (db'', .ok ())
  | .hotFirst =>
    match db.commitHotFirst tenantID hot version records with
    | .error e => (db, .error e)
    | .ok db' => (db', .ok ())

/-- `updateTenantOnce`: the tables, then the control-plane change if there is
    one. -/
def updateTenantOnce {α : Type} (db : Postgres) (tenantID : String) (order : CommitOrder)
    (fn : TenantView → Except Err (TenantView × α)) : Postgres × Except Err α :=
  let baseline := db.loadControl.1
  match fn (db.viewOf tenantID) with
  | .error e => (db, .error e)
  | .ok (view, out) =>
    match db.commitTables tenantID order view.hot (db.loadTenantHot tenantID).2
        view.ledger.pending with
    | (db', .error e) => (db', .error e)
    | (db', .ok ()) =>
      if view.global = baseline then (db', .ok out)
      else
        let (db'', result) := db'.updateControl
          (fun current => .ok (mergeControlDelta current baseline view.global))
          snapshotConflictRetries
        (db'', result.map (fun _ => out))

/-- `updateTenant`, `attempts` retries left. -/
def updateTenant {α : Type} (db : Postgres) (tenantID : String) (order : CommitOrder)
    (fn : TenantView → Except Err (TenantView × α)) : Nat → Postgres × Except Err α
  | 0 => db.updateTenantOnce tenantID order fn
  | attempts + 1 =>
    match db.updateTenantOnce tenantID order fn with
    | (db', .ok out) => (db', .ok out)
    | (db', .error e) =>
      if e.isSnapshotConflict then db'.updateTenant tenantID order fn attempts
      else (db', .error e)

/-! ## The whole store as one document -/

/-- The tenant tables under a given control document. -/
def materializeWith (db : Postgres) (control : Control) : Snapshot :=
  db.tenantIDs.foldl (fun result tenantID =>
    result.addTenant (db.loadTenantHot tenantID).1 (db.tenantLedger tenantID))
    { toControl := control }

/-- `materialize`. -/
def materialize (db : Postgres) : Snapshot := db.materializeWith db.loadControl.1

end Postgres

/-- `tenantDataEqual`: the evidence of two snapshots is the same. -/
def tenantDataEqual (left right : Snapshot) : Bool :=
  left.events = right.events && left.receipts = right.receipts && left.streams = right.streams &&
    left.segments = right.segments && left.checkpoints = right.checkpoints

end AuditGovernance
