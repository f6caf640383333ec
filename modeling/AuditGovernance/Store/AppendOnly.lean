import AuditGovernance.Framework.Transition
import AuditGovernance.Store.AwaitingRecovery
import AuditGovernance.Store.Coherence

/-! # The ledger is append-only

    Runs of the file store's operations without file faults. Tenant
    transactions, recovery, control updates and reopening only ever extend a
    ledger. A whole-snapshot update rebuilds the ledger of every tenant from
    the latest values the snapshot shows, as first versions, so it keeps the
    ledger only where every committed record is a first version that the
    snapshot still shows.
-/

namespace AuditGovernance

open FiniteMap TenantLedger

/-! ## Section 1: Operations -/

/-- The exported operations of the file store that can change it. -/
inductive StoreOp where
  | updateTenant (t : String) (order : CommitOrder) (fn : TenantClosure Unit)
  | update (fn : Snapshot → Except Err Snapshot)
  | updateChecked (fn : Snapshot → Except Err (Snapshot × Bool))
  | updateControl (fn : Control → Except Err Control)
  | recover (candidate : TenantCommitCandidate)
  | reopen

namespace FileStore

/-- One operation without file faults. A directory that cannot be opened has
    no next state. -/
def perform (s : FileStore) : StoreOp → Option FileStore
  | .updateTenant t order fn => some (s.updateTenant noFaults t order fn.run).1
  | .update fn => some (s.update fn).1
  | .updateChecked fn => some (s.updateChecked fn).1
  | .updateControl fn => some (s.updateControl false fn).1
  | .recover candidate => some (s.commitPendingTenantCommit noFaults candidate).1
  | .reopen => s.disk.openStore.toOption

/-- The file store as a transition system, starting from any store that agrees
    with its files. -/
def operations : Transition.System FileStore StoreOp where
  init := Coherent
  step := perform

/-! ## Section 2: Whole-snapshot updates -/

/-- The snapshot still shows a committed record, which is a first version. -/
def ShownBy (data : Snapshot) (t : String) (r : LedgerRecord) : Prop :=
  (∃ rc, r = receiptRecord 1 rc ∧
    (ownedReceipts data t)[eventKey rc.tenantID rc.eventID]? = some rc) ∨
  (∃ segment, r = segmentRecord 1 segment ∧
    segment ∈ ownedSegments data t (streamKey segment.tenantID segment.streamID)) ∨
  (∃ checkpoint, r = checkpointRecord 1 checkpoint ∧
    checkpoint ∈ ownedCheckpoints data t (streamKey checkpoint.tenantID checkpoint.streamID))

/-- The snapshot is fit to replace the store: for every tenant without a
    journal, what it shows is canonically keyed, it names the tenant if the
    tenant has committed records, and each of these is a first version it
    shows. -/
def KeepsHistory (s : FileStore) (data : Snapshot) : Prop :=
  ∀ t, (∀ state, ¬ s.Awaits t state) →
    (SnapshotNames data t → CanonicalFor data t) ∧
      ∀ r ∈ s.ledgerScan t, SnapshotNames data t ∧ ShownBy data t r

/-- A whole-snapshot operation is guarded by the snapshot its closure returns. -/
def Guarded (s : FileStore) : StoreOp → Prop
  | .update fn => ∀ after, fn s.materialize = .ok after → s.KeepsHistory after
  | .updateChecked fn => ∀ after, fn s.materialize = .ok (after, true) → s.KeepsHistory after
  | _ => True

theorem mem_ledgerScan {s : FileStore} {t : String} {r : LedgerRecord} :
    r ∈ s.ledgerScan t ↔ r ∈ (s.stateOf t).ledger.records := by
  unfold ledgerScan stateOf
  cases s.tenant[t]? with
  | none => simp [emptyTenantState]
  | some state => exact (sortLedgerRecords_perm _).mem_iff

theorem ShownBy.mem_splitRecords {data : Snapshot} {t : String} (hcan : CanonicalFor data t)
    {r : LedgerRecord} (h : ShownBy data t r) : r ∈ splitRecords data t := by
  rw [hcan.mem_splitRecords]
  rcases h with ⟨rc, rfl, hrc⟩ | ⟨segment, rfl, hs⟩ | ⟨checkpoint, rfl, hc⟩
  · left
    rw [ownedReceipts, lookup_collect] at hrc
    obtain ⟨rc', hk, hkeep⟩ := Option.bind_eq_some_iff.1 hrc
    simp only [Option.ite_none_right_eq_some, Option.some.injEq] at hkeep
    obtain ⟨hown, rfl⟩ := hkeep
    exact ⟨_, _, hk, hown, rfl⟩
  · right; left
    unfold ownedSegments at hs
    split at hs
    · next hb =>
      cases hk : data.segments[streamKey segment.tenantID segment.streamID]? with
      | none => simp [hk] at hs
      | some vs =>
        rw [hk] at hs
        exact ⟨_, vs, segment, hk, hb, hs, rfl⟩
    · cases hs
  · right; right
    unfold ownedCheckpoints at hc
    split at hc
    · next hb =>
      cases hk : data.checkpoints[streamKey checkpoint.tenantID checkpoint.streamID]? with
      | none => simp [hk] at hc
      | some vs =>
        rw [hk] at hc
        exact ⟨_, vs, checkpoint, hk, hb, hc, rfl⟩
    · cases hc

/-- What an operation may do to the ledgers: the store stays coherent and no
    committed record disappears. -/
structure Grows (s s' : FileStore) : Prop where
  coherent : s'.Coherent
  records : ∀ t, ∀ r ∈ (s.stateOf t).ledger.records, r ∈ (s'.stateOf t).ledger.records

theorem Grows.refl {s : FileStore} (h : s.Coherent) : s.Grows s := ⟨h, fun _ _ hr => hr⟩

theorem TenantEffect.grows {s s' : FileStore} {t : String} (h : s.TenantEffect s' t) :
    s.Grows s' := by
  refine ⟨h.coherent, ?_⟩
  intro u r hr
  by_cases hne : t = u
  · subst hne
    obtain ⟨batch, hbatch⟩ := h.extended
    rw [hbatch]
    exact List.mem_append_left _ hr
  · rw [h.frame u hne]
    exact hr

theorem Coherent.replaceFromSnapshot {s : FileStore} (h : s.Coherent) {data : Snapshot}
    (hkeep : s.KeepsHistory data) : s.Grows (s.replaceFromSnapshot data).1 := by
  by_cases hok : (s.replaceFromSnapshot data).2 = .ok ()
  swap
  · rw [replaceFromSnapshot_refused hok]
    exact .refl h
  suffices hone : ∀ t, (s.replaceFromSnapshot data).1.LedgerCoherent t ∧
      ∀ r ∈ (s.stateOf t).ledger.records,
        r ∈ ((s.replaceFromSnapshot data).1.stateOf t).ledger.records from
    ⟨fun t => (hone t).1, fun t => (hone t).2⟩
  intro t
  obtain ⟨hl, hfile, hj, hhot⟩ := h t
  by_cases hawait : ∃ state, s.Awaits t state
  · -- kept as it was, in memory and on disk
    obtain ⟨state, ha⟩ := hawait
    obtain ⟨htenant, hhotEq, hledgerEq⟩ := replaceFromSnapshot_keeps hok ha
    have hstate : (s.replaceFromSnapshot data).1.stateOf t = s.stateOf t := by
      simp only [stateOf, htenant, ha.1]
    refine ⟨⟨?_, ?_, ?_, ?_⟩, ?_⟩
    · rw [hstate]
      exact hl
    · rw [hstate, ← hfile, ledgerFile, ledgerFile, hledgerEq]
    · rw [hstate]
      exact hj
    · rw [hstate, hhotEq]
      exact hhot
    · rw [hstate]
      exact fun r hr => hr
  · have hfree : ∀ state, ¬ s.Awaits t state := fun state ha => hawait ⟨state, ha⟩
    obtain ⟨htenant, hhotEq, hledgerEq⟩ := replaceFromSnapshot_rewrites hok hfree
    obtain ⟨hcanon, hshown⟩ := hkeep t hfree
    have hnopending : (s.stateOf t).pending = [] := by
      by_contra hne
      cases hmem : s.tenant[t]? with
      | none => simp [stateOf, hmem, emptyTenantState] at hne
      | some state =>
        exact hfree state ⟨hmem, by simpa [stateOf, hmem] using hne⟩
    by_cases hname : SnapshotNames data t
    · -- rebuilt from the snapshot
      have hcan := hcanon hname
      have hsplit := (lookup_splitTenants data t _).2 ⟨hname, rfl⟩
      have hstate : (s.replaceFromSnapshot data).1.stateOf t = splitTenantSnapshot data t := by
        simp only [stateOf, htenant, hsplit, Option.getD_some]
      rw [hsplit] at hhotEq hledgerEq
      refine ⟨⟨?_, ?_, ?_, ?_⟩, ?_⟩
      · rw [hstate]
        exact hcan.built.1
      · rw [hstate, ledgerFile, hledgerEq]
        rfl
      · rw [hstate]
        exact .nil _
      · intro f hf
        rw [hhotEq] at hf
        simp only [Option.map_some, Option.some_or, Option.some.injEq] at hf
        subst hf
        rw [hstate]
        exact .inl rfl
      · intro r hr
        rw [hstate, hcan.mem_records]
        exact (hshown r (mem_ledgerScan.2 hr)).2.mem_splitRecords hcan
    · -- not named, so nothing was committed
      have hempty : (s.stateOf t).ledger.records = [] := by
        rw [List.eq_nil_iff_forall_not_mem]
        intro r hr
        exact hname (hshown r (mem_ledgerScan.2 hr)).1
      have hsplit : (splitTenants data)[t]? = none := by
        cases hst : (splitTenants data)[t]? with
        | none => rfl
        | some state => exact absurd ((lookup_splitTenants data t state).1 hst).1 hname
      have hstate : (s.replaceFromSnapshot data).1.stateOf t = emptyTenantState t := by
        simp only [stateOf, htenant, hsplit, Option.getD_none]
      rw [hsplit] at hhotEq hledgerEq
      refine ⟨⟨?_, ?_, ?_, ?_⟩, ?_⟩
      · rw [hstate]
        exact .empty
      · rw [hstate, ledgerFile, hledgerEq]
        show s.ledgerFile t = _
        rw [hfile, hempty]
        rfl
      · rw [hstate]
        exact .nil _
      · intro f hf
        rw [hhotEq] at hf
        rw [hstate]
        left
        rcases hhot f hf with heq | ⟨_, hcom⟩
        · rw [heq, hnopending]
          rfl
        · rw [hempty] at hcom
          exact List.eq_nil_iff_forall_not_mem.2 (fun r hr => by cases hcom r hr)
      · rw [hempty]
        intro r hr
        cases hr

/-! ## Section 3: Runs -/

theorem Coherent.perform {s s' : FileStore} (h : s.Coherent) {op : StoreOp} (hg : s.Guarded op)
    (hs : s.perform op = some s') : s.Grows s' := by
  cases op with
  | updateTenant t order fn =>
    cases hs
    exact (h.updateTenant noFaults t order fn).grows
  | update fn =>
    cases hs
    unfold FileStore.update
    cases hfn : fn s.materialize with
    | error e => exact .refl h
    | ok after => exact h.replaceFromSnapshot (hg after hfn)
  | updateChecked fn =>
    cases hs
    unfold FileStore.updateChecked
    cases hfn : fn s.materialize with
    | error e => exact .refl h
    | ok p =>
      obtain ⟨after, changed⟩ := p
      cases changed with
      | false => exact .refl h
      | true => exact h.replaceFromSnapshot (hg after hfn)
  | updateControl fn =>
    cases hs
    obtain ⟨hc, htenant⟩ := h.updateControl false fn
    refine ⟨hc, ?_⟩
    intro t r hr
    unfold stateOf at hr ⊢
    rw [htenant]
    exact hr
  | recover candidate =>
    cases hs
    exact (h.commitPending noFaults candidate).grows
  | reopen =>
    simp only [FileStore.perform] at hs
    cases ho : s.disk.openStore with
    | error e =>
      rw [ho] at hs
      cases hs
    | ok opened =>
      rw [ho] at hs
      cases hs
      obtain ⟨hc, hledger⟩ := h.reopen ho
      refine ⟨hc, ?_⟩
      intro t r hr
      rw [hledger]
      exact hr

theorem Reach.coherent {s : FileStore} (h : operations.Reach Guarded s) : s.Coherent :=
  h.invariant (fun _ hi => hi) (fun _ _ _ _ hc hg hs => (hc.perform hg hs).coherent)

/-- **The ledger is append-only** along every run whose whole-snapshot updates
    keep the history: what a scan returned before an operation it returns
    after it, and the versions of every receipt have no gap. -/
theorem ledger_append_only (s : FileStore) (h : operations.Reach Guarded s) :
    (∀ t key, ∃ n, ∀ v,
      (∃ r ∈ s.ledgerScan t, r.hasIdentity .receipt key v = true) ↔ 1 ≤ v ∧ v ≤ n) ∧
      ∀ op s', s.Guarded op → s.perform op = some s' →
        ∀ t, ∀ r ∈ s.ledgerScan t, r ∈ s'.ledgerScan t := by
  have hc := Reach.coherent h
  constructor
  · intro t key
    refine ⟨((s.stateOf t).ledger.receiptVersions[key]?).getD 0, ?_⟩
    intro v
    rw [← (hc t).built.receipt_versions key v]
    simp only [mem_ledgerScan]
  · intro op s' hg hs t r hr
    rw [mem_ledgerScan] at hr ⊢
    exact (hc.perform hg hs).records t r hr

/-- A transaction that records a receipt with the given status. -/
def recordStatus (status : Status) : TenantClosure Unit where
  run view :=
    (view.ledger.setReceipt { eventID := "e", tenantID := "t", status := status }).map
      fun ledger => ({ view with ledger := ledger }, ())
  lawful := by
    intro view view' out hrun
    cases hset : view.ledger.setReceipt { eventID := "e", tenantID := "t", status := status } with
    | error e =>
      rw [hset] at hrun
      cases hrun
    | ok ledger =>
      rw [hset] at hrun
      simp only [Except.map, Except.ok.injEq, Prod.mk.injEq] at hrun
      obtain ⟨rfl, _⟩ := hrun
      exact .receipt (.refl _) hset

/-- The update of `CreateTenant`. -/
def createTenant (data : Snapshot) : Except Err Snapshot :=
  .ok { data with tenants := data.tenants.insert "u" { id := "u" } }

/-- The store after event `e` was ledgered. -/
def ledgeredOnce : FileStore :=
  (FileStore.updateTenant {} noFaults "t" .hotFirst (recordStatus .ledgered).run).1

/-- The store after event `e` was ledgered and then indexed. -/
def ledgeredThenIndexed : FileStore :=
  (ledgeredOnce.updateTenant noFaults "t" .hotFirst (recordStatus .indexed).run).1

private theorem ledgeredOnce_reach : operations.Reach Guarded ledgeredOnce :=
  .step (a := .updateTenant "t" .hotFirst (recordStatus .ledgered)) (.init Coherent.empty) trivial
    rfl

private theorem ledgeredOnce_tenants : ∀ (t : String) state,
    ledgeredOnce.tenant[t]? = some state → t = "t" :=
  forall_entries (by decide +kernel)

private theorem ledgeredOnce_keeps (after : Snapshot)
    (hafter : createTenant ledgeredOnce.materialize = .ok after) :
    ledgeredOnce.KeepsHistory after := by
  cases hafter
  have hreceipts : ∀ (k : String) rc, ledgeredOnce.materialize.receipts[k]? = some rc →
      k = eventKey "t" "e" ∧ rc = { eventID := "e", tenantID := "t", status := .ledgered } :=
    forall_entries (by decide +kernel)
  have hsegments : ∀ (k : String) vs, ledgeredOnce.materialize.segments[k]? = some vs → False :=
    forall_entries (by decide +kernel)
  have hcheckpoints : ∀ (k : String) vs,
      ledgeredOnce.materialize.checkpoints[k]? = some vs → False :=
    forall_entries (by decide +kernel)
  intro t _
  refine ⟨fun _ => ⟨?_, ?_, ?_, ?_, ?_, ?_⟩, ?_⟩
  · intro k rc hk hown
    obtain ⟨rfl, rfl⟩ := hreceipts k rc hk
    have ht : t = "t" := by
      rw [receiptOwned, eventKey, keyBelongsToTenant_join (by decide) (by decide)] at hown
      simp only [Bool.or_eq_true, decide_eq_true_eq, beq_iff_eq, or_self] at hown
      exact hown.symm
    subst ht
    exact ⟨rfl, ⟨by decide, by decide⟩, rfl⟩
  · exact fun k vs _ hk => (hsegments k vs hk).elim
  · exact fun k vs hk => (hsegments k vs hk).elim
  · exact fun k vs _ hk => (hcheckpoints k vs hk).elim
  · exact fun k vs hk => (hcheckpoints k vs hk).elim
  · exact fun k _ vs _ _ _ hk => (hcheckpoints k vs hk).elim
  · intro r hr
    by_cases ht : t = "t"
    · subst ht
      have hone : ∀ r ∈ ledgeredOnce.ledgerScan "t",
          r = receiptRecord 1 { eventID := "e", tenantID := "t", status := .ledgered } := by
        decide +kernel
      rw [hone r hr]
      exact ⟨⟨by decide, .inl (by decide +kernel)⟩, .inl ⟨_, rfl, by decide +kernel⟩⟩
    · cases hmem : ledgeredOnce.tenant[t]? with
      | none => simp [ledgerScan, hmem] at hr
      | some state => exact absurd (ledgeredOnce_tenants t state hmem) ht

/-- Creating a tenant after the first ingest keeps its receipt. -/
theorem ledger_append_only_createTenant :
    receiptRecord 1 { eventID := "e", tenantID := "t", status := .ledgered } ∈
        ledgeredOnce.ledgerScan "t" ∧
      ∀ r ∈ ledgeredOnce.ledgerScan "t", r ∈ (ledgeredOnce.update createTenant).1.ledgerScan "t" :=
  ⟨by decide +kernel, (ledger_append_only ledgeredOnce ledgeredOnce_reach).2
    (.update createTenant) _ ledgeredOnce_keeps rfl "t"⟩

/-- Once the receipt has a second version, creating any tenant erases it and
    changes the payload of the first. -/
theorem update_rewrites_ledger :
    operations.Reachable ledgeredThenIndexed ∧
      (ledgeredThenIndexed.ledgerScan "t").map (fun r => (r.version, r.receipt.map (·.status))) =
        [(1, some .ledgered), (2, some .indexed)] ∧
      (ledgeredThenIndexed.update createTenant).2 = .ok () ∧
      ((ledgeredThenIndexed.update createTenant).1.ledgerScan "t").map
          (fun r => (r.version, r.receipt.map (·.status))) = [(1, some .indexed)] := by
  refine ⟨?_, by decide +kernel, by decide +kernel, by decide +kernel⟩
  have hempty : operations.Reachable ({} : FileStore) := .init Coherent.empty
  have hrun : operations.exec {} [.updateTenant "t" .hotFirst (recordStatus .ledgered),
      .updateTenant "t" .hotFirst (recordStatus .indexed)] = some ledgeredThenIndexed := rfl
  exact hempty.exec hrun

end FileStore

end AuditGovernance
