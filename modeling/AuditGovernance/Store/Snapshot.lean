import AuditGovernance.Store.LedgerView

/-! # Snapshots

    `Control` is the control plane that one document keeps (a snapshot
    reduced by `cloneControl`), `HotDoc` the hot document of one tenant, and
    `Snapshot` the union that whole-store updates work on
    (`internal/store/store.go`). The layout version, which every v2 document
    carries unchanged, is left out.
-/

namespace AuditGovernance

open FiniteMap

/-- Control-plane fields of a snapshot. -/
structure Control where
  tenants : Dict Tenant := ∅
  sources : Dict SourceSystem := ∅
  schemas : Dict EventSchema := ∅
  policies : Dict RetentionPolicy := ∅
  legalHolds : Dict LegalHold := ∅
  exports : Dict ExportJob := ∅
  exportLeases : Dict ExportLease := ∅
  exportCheckpoints : Dict ExportCheckpoint := ∅
  exportPlans : Dict ExportPlan := ∅
  restoreRuns : Dict RestoreRun := ∅
  ledgeredOutbox : Dict Event := ∅
  adminActions : List AdminAction := []
  aggregateCheckpoints : List AggregateCheckpoint := []
  archiveConflictFailures : Dict Int := ∅
  deadLetters : Dict DeadLetter := ∅
deriving DecidableEq, Inhabited

/-- The mutable hot document of one tenant. -/
structure HotDoc where
  events : Dict Event := ∅
  streams : Dict StreamState := ∅
deriving DecidableEq, Inhabited

/-- The whole store as one document. -/
structure Snapshot extends Control where
  events : Dict Event := ∅
  receipts : Dict EventReceipt := ∅
  streams : Dict StreamState := ∅
  segments : Dict (List Segment) := ∅
  checkpoints : Dict (List Checkpoint) := ∅
deriving DecidableEq, Inhabited

/-- `controlSnapshot`: keep the control-plane fields. -/
def controlSnapshot (data : Snapshot) : Control := data.toControl

/-- What a tenant transaction sees: the hot document, the buffered ledger and
    the control plane. -/
structure TenantView where
  hot : HotDoc
  ledger : LedgerView
  global : Control
deriving DecidableEq

/-- Which of a tenant's two documents a commit writes first. -/
inductive CommitOrder where
  | hotFirst
  | coldFirst
deriving DecidableEq, Repr

/-- A transaction body. It works on the view through the ledger's write
    operations, whatever else it computes. -/
structure TenantClosure (α : Type) where
  run : TenantView → Except Err (TenantView × α)
  lawful : ∀ view view' out, run view = .ok (view', out) →
    LedgerView.Wrote view.ledger view'.ledger

/-- Add one tenant's hot document and ledger to a whole-store document. -/
def Snapshot.addTenant (result : Snapshot) (hot : HotDoc) (ledger : TenantLedger) : Snapshot :=
  { result with
    events := overlay result.events hot.events
    streams := overlay result.streams hot.streams
    receipts := overlay result.receipts ledger.receipts
    segments := overlay result.segments ledger.segments
    checkpoints := overlay result.checkpoints ledger.checkpoints }

/-! ## Control-plane dictionaries -/

/-- The dictionary fields of the control plane. -/
inductive MapField where
  | tenants | sources | schemas | policies | legalHolds | exports | exportLeases
  | exportCheckpoints | exportPlans | restoreRuns | ledgeredOutbox
  | archiveConflictFailures | deadLetters
deriving DecidableEq, Repr

/-- Value type of each dictionary. -/
def MapField.Value : MapField → Type
  | .tenants => Tenant
  | .sources => SourceSystem
  | .schemas => EventSchema
  | .policies => RetentionPolicy
  | .legalHolds => LegalHold
  | .exports => ExportJob
  | .exportLeases => ExportLease
  | .exportCheckpoints => ExportCheckpoint
  | .exportPlans => ExportPlan
  | .restoreRuns => RestoreRun
  | .ledgeredOutbox => Event
  | .archiveConflictFailures => Int
  | .deadLetters => DeadLetter

instance : (f : MapField) → DecidableEq f.Value
  | .tenants => inferInstanceAs (DecidableEq Tenant)
  | .sources => inferInstanceAs (DecidableEq SourceSystem)
  | .schemas => inferInstanceAs (DecidableEq EventSchema)
  | .policies => inferInstanceAs (DecidableEq RetentionPolicy)
  | .legalHolds => inferInstanceAs (DecidableEq LegalHold)
  | .exports => inferInstanceAs (DecidableEq ExportJob)
  | .exportLeases => inferInstanceAs (DecidableEq ExportLease)
  | .exportCheckpoints => inferInstanceAs (DecidableEq ExportCheckpoint)
  | .exportPlans => inferInstanceAs (DecidableEq ExportPlan)
  | .restoreRuns => inferInstanceAs (DecidableEq RestoreRun)
  | .ledgeredOutbox => inferInstanceAs (DecidableEq Event)
  | .archiveConflictFailures => inferInstanceAs (DecidableEq Int)
  | .deadLetters => inferInstanceAs (DecidableEq DeadLetter)

/-- The dictionary a field names. -/
def Control.map (c : Control) : (f : MapField) → Dict f.Value
  | .tenants => c.tenants
  | .sources => c.sources
  | .schemas => c.schemas
  | .policies => c.policies
  | .legalHolds => c.legalHolds
  | .exports => c.exports
  | .exportLeases => c.exportLeases
  | .exportCheckpoints => c.exportCheckpoints
  | .exportPlans => c.exportPlans
  | .restoreRuns => c.restoreRuns
  | .ledgeredOutbox => c.ledgeredOutbox
  | .archiveConflictFailures => c.archiveConflictFailures
  | .deadLetters => c.deadLetters

end AuditGovernance
