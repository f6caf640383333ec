import AuditGovernance.Store.Snapshot

/-! # Splitting a snapshot into tenants

    `splitSnapshot` turns one whole-store document back into a control
    document and one hot document and ledger per tenant
    (`internal/store/hotcold_split.go`). The ledger half is rebuilt from the
    latest receipts, the segments and the checkpoints the document shows:
    every record gets version 1, and the records are put in the textual
    order of `sortLedgerRecords`.
-/

namespace AuditGovernance

open FiniteMap

/-- What the store holds for one tenant. `pending` is the journal of a commit
    whose ledger append may be missing. -/
structure TenantState where
  hot : HotDoc := {}
  ledger : TenantLedger
  version : Nat := 1
  pending : List LedgerRecord := []
deriving DecidableEq

/-- State of a tenant nothing was stored for. -/
def emptyTenantState (tenantID : String) : TenantState := { ledger := { tenantID := tenantID } }

/-! ## Ownership -/

def eventOwned (tenantID key : String) (event : Event) : Bool :=
  event.tenantID = tenantID || keyBelongsToTenant key tenantID

def streamOwned (tenantID key : String) (stream : StreamState) : Bool :=
  stream.tenantID = tenantID || keyBelongsToTenant key tenantID

def receiptOwned (tenantID key : String) (receipt : EventReceipt) : Bool :=
  receipt.tenantID = tenantID || keyBelongsToTenant key tenantID

/-! ## One tenant -/

/-- Hot events of a tenant; bodies whose receipt is archived are dropped. -/
def splitEvents (data : Snapshot) (tenantID : String) : Dict Event :=
  collect (fun key event =>
    if eventOwned tenantID key event &&
        !((data.receipts[key]?).any (fun receipt => receipt.status = .archived)) then some event
    else none) data.events

def splitStreams (data : Snapshot) (tenantID : String) : Dict StreamState :=
  collect (fun key stream => if streamOwned tenantID key stream then some stream else none)
    data.streams

/-- First-version records of the receipts the document shows of a tenant,
    under the keys they have there. -/
def splitReceiptRecords (data : Snapshot) (tenantID : String) : List LedgerRecord :=
  data.receipts.toList.filterMap fun p =>
    if receiptOwned tenantID p.1 p.2 then
      some { tenantID := tenantID, recordType := .receipt, key := p.1, version := 1
             receipt := some p.2 }
    else none

def splitSegmentRecords (data : Snapshot) (tenantID : String) : List LedgerRecord :=
  data.segments.toList.flatMap fun p =>
    if keyBelongsToTenant p.1 tenantID then
      p.2.map fun segment =>
        { tenantID := tenantID, recordType := .segment, key := segmentLedgerKey segment
          version := 1, segment := some segment }
    else []

/-- The key is the checkpoint id even when it is empty. -/
def splitCheckpointRecords (data : Snapshot) (tenantID : String) : List LedgerRecord :=
  data.checkpoints.toList.flatMap fun p =>
    if keyBelongsToTenant p.1 tenantID then
      p.2.map fun checkpoint =>
        { tenantID := tenantID, recordType := .checkpoint, key := checkpoint.id
          version := 1, checkpoint := some checkpoint }
    else []

/-- First-version records for everything the document shows of a tenant. -/
def splitRecords (data : Snapshot) (tenantID : String) : List LedgerRecord :=
  splitReceiptRecords data tenantID ++ splitSegmentRecords data tenantID ++
    splitCheckpointRecords data tenantID

/-- `splitTenantSnapshot`. -/
def splitTenantSnapshot (data : Snapshot) (tenantID : String) : TenantState :=
  { hot := { events := splitEvents data tenantID, streams := splitStreams data tenantID }
    ledger := TenantLedger.new tenantID (sortLedgerRecords (splitRecords data tenantID)) }

/-! ## All tenants -/

/-- Insert the owner of every key of a dictionary. -/
def addOwners {V : Type} (ids : Dict Unit) (m : Dict V) : Dict Unit :=
  m.toList.foldl (fun acc p =>
    match splitTenantKey p.1 with
    | some (owner, _) => acc.insert owner ()
    | none => acc) ids

/-- Insert every key of a dictionary. -/
def addKeys {V : Type} (ids : Dict Unit) (m : Dict V) : Dict Unit :=
  m.toList.foldl (fun acc p => acc.insert p.1 ()) ids

/-- `tenantIDsFromSnapshot` as a set: tenants named by the control plane or
    owning a key of the evidence. The empty id is never a tenant. -/
def tenantIDsFromSnapshot (data : Snapshot) : Dict Unit :=
  (addOwners (addOwners (addOwners (addOwners (addOwners (addKeys ∅ data.tenants)
    data.events) data.receipts) data.streams) data.segments) data.checkpoints).erase ""

/-- `splitSnapshot`, the tenant half. -/
def splitTenants (data : Snapshot) : Dict TenantState :=
  collect (fun tenantID _ => some (splitTenantSnapshot data tenantID)) (tenantIDsFromSnapshot data)

end AuditGovernance
