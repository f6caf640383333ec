import AuditGovernance.Framework.ThreeWayMerge
import AuditGovernance.Store.Snapshot

/-! # The control-plane merge of a tenant commit

    A tenant commit on PostgreSQL carries a control-plane change computed
    from an earlier read of the control row. `mergeControlDelta` replays that
    change onto the row as it is now (`internal/store/postgres_hotcold.go`).
    Its comment promises that the writer's intended change is applied
    without clobbering what other writers committed in the meantime, and that
    without a concurrent writer the result is the writer's document. The
    overlay keeps both promises only while the writer deletes nothing and
    every key it leaves alone inside a changed dictionary is still at its
    baseline value.
-/

namespace AuditGovernance

open FiniteMap ThreeWayMerge

/-- `overlayControlMap`. -/
def overlayControlMap {V : Type} [DecidableEq V] (current baseline mutated : Dict V) : Dict V :=
  overlayMap current baseline mutated

/-- `unionControlSlice`. -/
def unionControlSlice {T : Type} [DecidableEq T] (current mutated : List T) : List T :=
  unionList current mutated

/-- `mergeControlDelta`. -/
def mergeControlDelta (current baseline mutated : Control) : Control where
  tenants := overlayControlMap current.tenants baseline.tenants mutated.tenants
  sources := overlayControlMap current.sources baseline.sources mutated.sources
  schemas := overlayControlMap current.schemas baseline.schemas mutated.schemas
  policies := overlayControlMap current.policies baseline.policies mutated.policies
  legalHolds := overlayControlMap current.legalHolds baseline.legalHolds mutated.legalHolds
  exports := overlayControlMap current.exports baseline.exports mutated.exports
  exportLeases := overlayControlMap current.exportLeases baseline.exportLeases mutated.exportLeases
  exportCheckpoints :=
    overlayControlMap current.exportCheckpoints baseline.exportCheckpoints mutated.exportCheckpoints
  exportPlans := overlayControlMap current.exportPlans baseline.exportPlans mutated.exportPlans
  restoreRuns := overlayControlMap current.restoreRuns baseline.restoreRuns mutated.restoreRuns
  ledgeredOutbox :=
    overlayControlMap current.ledgeredOutbox baseline.ledgeredOutbox mutated.ledgeredOutbox
  archiveConflictFailures :=
    overlayControlMap current.archiveConflictFailures baseline.archiveConflictFailures
      mutated.archiveConflictFailures
  deadLetters := overlayControlMap current.deadLetters baseline.deadLetters mutated.deadLetters
  adminActions :=
    if mutated.adminActions = baseline.adminActions then current.adminActions
    else unionControlSlice current.adminActions mutated.adminActions
  aggregateCheckpoints :=
    if mutated.aggregateCheckpoints = baseline.aggregateCheckpoints then
      current.aggregateCheckpoints
    else unionControlSlice current.aggregateCheckpoints mutated.aggregateCheckpoints

theorem mergeControlDelta_map (current baseline mutated : Control) (f : MapField) :
    (mergeControlDelta current baseline mutated).map f =
      overlayMap (current.map f) (baseline.map f) (mutated.map f) := by
  cases f <;> rfl

/-! ## The intended merge -/

/-- **The merge the comment describes.** Every dictionary of `result` has the
    writer's presence and value at the keys the writer changed and the
    current ones elsewhere; against an unchanged baseline every dictionary
    and list of `result` is the writer's. -/
def IsControlMerge (current baseline mutated result : Control) : Prop :=
  (∀ f : MapField, IsMerge (current.map f) (baseline.map f) (mutated.map f) (result.map f)) ∧
  (current = baseline →
    (∀ f : MapField, result.map f = mutated.map f) ∧
    result.adminActions = mutated.adminActions ∧
    result.aggregateCheckpoints = mutated.aggregateCheckpoints)

/-- The three documents leave the overlay no choice: in every dictionary the
    writer changed, the keys the writer removed are absent now and the keys
    the writer kept still have their baseline value; and when no other writer
    intervened, a changed list is the baseline followed by new elements. -/
def OverlaySafe (current baseline mutated : Control) : Prop :=
  (∀ f : MapField, mutated.map f = baseline.map f ∨
    Undisturbed (current.map f) (baseline.map f) (mutated.map f)) ∧
  (current = baseline →
    OnlyAppended baseline.adminActions mutated.adminActions ∧
    OnlyAppended baseline.aggregateCheckpoints mutated.aggregateCheckpoints)

/-- **Exact domain of the merge.** `mergeControlDelta` is a three-way merge of
    three given documents if and only if they are `OverlaySafe`. -/
theorem mergeControlDelta_isControlMerge_iff (current baseline mutated : Control) :
    IsControlMerge current baseline mutated (mergeControlDelta current baseline mutated) ↔
      OverlaySafe current baseline mutated := by
  unfold IsControlMerge OverlaySafe
  have hmaps : (∀ f : MapField, IsMerge (current.map f) (baseline.map f) (mutated.map f)
        ((mergeControlDelta current baseline mutated).map f)) ↔
      (∀ f : MapField, mutated.map f = baseline.map f ∨
        Undisturbed (current.map f) (baseline.map f) (mutated.map f)) := by
    apply forall_congr'
    intro f
    rw [mergeControlDelta_map]
    exact overlayMap_isMerge_iff _ _ _
  constructor
  · intro ⟨hmerge, hbase⟩
    refine ⟨hmaps.1 hmerge, ?_⟩
    intro hcur
    subst hcur
    obtain ⟨-, hadmin, hagg⟩ := hbase rfl
    exact ⟨(mergeList_eq_mutated_iff _ _).1 hadmin, (mergeList_eq_mutated_iff _ _).1 hagg⟩
  · intro ⟨hsafe, hlists⟩
    have hmerge := hmaps.2 hsafe
    refine ⟨hmerge, ?_⟩
    intro hcur
    subst hcur
    obtain ⟨hadmin, hagg⟩ := hlists rfl
    exact ⟨fun f => (hmerge f).eq_mutated, (mergeList_eq_mutated_iff _ _).2 hadmin,
      (mergeList_eq_mutated_iff _ _).2 hagg⟩

/-! ## A merge that goes wrong

    An ingest of `e2` read the control row while the publication of `e1` was
    still queued; a publisher acknowledged `e1` and removed it before the
    ingest replayed its change. -/

def outboxBaseline : Control :=
  { ledgeredOutbox := (∅ : Dict Event).insert (eventKey "t" "e1")
      { eventID := "e1", tenantID := "t", sequence := 1 } }

def outboxMutated : Control :=
  { ledgeredOutbox := outboxBaseline.ledgeredOutbox.insert (eventKey "t" "e2")
      { eventID := "e2", tenantID := "t", sequence := 2 } }

def outboxCurrent : Control := {}

/-- The merge queues the acknowledged publication again. -/
theorem mergeControlDelta_requeues_publication :
    ¬ IsControlMerge outboxCurrent outboxBaseline outboxMutated
      (mergeControlDelta outboxCurrent outboxBaseline outboxMutated) := by
  intro ⟨hmaps, _⟩
  have h := hmaps .ledgeredOutbox (eventKey "t" "e1")
  revert h
  decide

end AuditGovernance
