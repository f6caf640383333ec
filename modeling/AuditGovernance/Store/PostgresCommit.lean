import AuditGovernance.Store.Postgres

/-! # Tenant transactions on PostgreSQL

    What a transaction does to the tables when no statement fails and no
    other process interferes. The ledger rows of a tenant, read in `id`
    order, are exactly the ledger its appends built, so a transaction's
    buffer is appended without a conflict and its version checks pass.
-/

namespace AuditGovernance

open FiniteMap TenantLedger LedgerView

theorem TenantLedger.Built.replay {t : String} {l : TenantLedger} (h : Built t l)
    {batch : List LedgerRecord} (ha : l.AcceptsAll batch) :
    batch.foldl applyRecord l = l.pushAll batch := by
  induction batch generalizing l with
  | nil => rfl
  | cons r rest ih =>
    obtain ⟨hr, hrest⟩ := ha
    rw [List.foldl_cons, h.applyRecord_eq_push hr, pushAll_cons]
    exact ih (.append h hr) hrest

namespace Postgres

/-- Tables that transactions can have produced. -/
structure Sound (db : Postgres) : Prop where
  built : ∀ t, Built t (db.tenantLedger t)
  records : ∀ t, (db.tenantLedger t).records = db.ledgerRecords t
  versioned : ∀ c v, db.control = some (c, v) → v ≠ 0

theorem Sound.empty : Sound {} :=
  ⟨fun _ => .empty, fun _ => rfl, fun _ _ h => by cases h⟩

/-! ## Section 1: Ledger rows -/

theorem tenantLedger_append_ne {db : Postgres} {t u : String} {batch : List LedgerRecord}
    (hown : ∀ r ∈ batch, r.tenantID = t) (hne : t ≠ u) :
    { db with ledger := db.ledger ++ batch }.tenantLedger u = db.tenantLedger u ∧
      { db with ledger := db.ledger ++ batch }.ledgerRecords u = db.ledgerRecords u := by
  have hrecords : { db with ledger := db.ledger ++ batch }.ledgerRecords u =
      db.ledgerRecords u := by
    unfold ledgerRecords
    have hnone : batch.filter (fun r => r.tenantID = u) = [] := by
      rw [List.filter_eq_nil_iff]
      intro r hr
      simp [hown r hr, hne]
    rw [List.filter_append, hnone, List.append_nil]
  exact ⟨by rw [tenantLedger, hrecords, tenantLedger], hrecords⟩

theorem ledgerRecords_append {db : Postgres} {t : String} {batch : List LedgerRecord}
    (hown : ∀ r ∈ batch, r.tenantID = t) :
    { db with ledger := db.ledger ++ batch }.ledgerRecords t = db.ledgerRecords t ++ batch := by
  unfold ledgerRecords
  rw [List.filter_append, List.append_right_inj, List.filter_eq_self]
  intro r hr
  simp [hown r hr]

theorem Sound.tenantLedger_append {db : Postgres} (h : db.Sound) {t : String}
    {batch : List LedgerRecord} (ha : (db.tenantLedger t).AcceptsAll batch) :
    { db with ledger := db.ledger ++ batch }.tenantLedger t = (db.tenantLedger t).pushAll batch := by
  have hown : ∀ r ∈ batch, r.tenantID = t := fun r hr =>
    (acceptsAll_valid ha r hr).2.trans (h.built t).tenantID_eq
  rw [tenantLedger, ledgerRecords_append hown, TenantLedger.new, List.foldl_append]
  exact (h.built t).replay ha

theorem Sound.append {db : Postgres} (h : db.Sound) {t : String} {batch : List LedgerRecord}
    (ha : (db.tenantLedger t).AcceptsAll batch) :
    Sound { db with ledger := db.ledger ++ batch } := by
  have hown : ∀ r ∈ batch, r.tenantID = t := fun r hr =>
    (acceptsAll_valid ha r hr).2.trans (h.built t).tenantID_eq
  refine ⟨?_, ?_, h.versioned⟩
  · intro u
    by_cases hu : t = u
    · subst hu
      rw [h.tenantLedger_append ha]
      exact (h.built t).pushAll ha
    · rw [(tenantLedger_append_ne hown hu).1]
      exact h.built u
  · intro u
    by_cases hu : t = u
    · subst hu
      rw [h.tenantLedger_append ha, pushAll_records, h.records, ledgerRecords_append hown]
    · rw [(tenantLedger_append_ne hown hu).1, (tenantLedger_append_ne hown hu).2]
      exact h.records u

theorem Sound.appendLedger {db : Postgres} (h : db.Sound) {t : String}
    {batch : List LedgerRecord} (ha : (db.tenantLedger t).AcceptsAll batch) :
    db.appendLedger batch = ({ db with ledger := db.ledger ++ batch }, .ok ()) := by
  induction batch generalizing db with
  | nil => simp [Postgres.appendLedger]
  | cons r rest ih =>
    obtain ⟨hr, hrest⟩ := ha
    have hone : (db.tenantLedger t).AcceptsAll [r] := ⟨hr, trivial⟩
    have hfind : db.ledger.find? (fun p => p.tenantID = r.tenantID &&
        p.hasIdentity r.recordType r.key r.version) = none := by
      rw [List.find?_eq_none]
      intro p hp hmatch
      simp only [Bool.and_eq_true, decide_eq_true_eq] at hmatch
      have hmem : p ∈ (db.tenantLedger t).records := by
        rw [h.records, ledgerRecords, List.mem_filter]
        exact ⟨hp, by simp [hmatch.1, hr.owned, (h.built t).tenantID_eq]⟩
      rw [hr.fresh p hmem] at hmatch
      exact absurd hmatch.2 (by simp)
    have hstep : db.appendRecord r = .ok { db with ledger := db.ledger ++ [r] } := by
      unfold appendRecord
      rw [hr.valid]
      simp only [hfind]
    have hnext := ih (h.append hone) (by
      rw [h.tenantLedger_append hone]
      exact hrest)
    rw [Postgres.appendLedger, hstep]
    simp only [hnext, List.append_assoc, List.singleton_append]

/-! ## Section 2: One transaction -/

theorem saveTenantHot_loaded (db : Postgres) (t : String) (hot : HotDoc) :
    db.saveTenantHot t hot (db.loadTenantHot t).2 =
      .ok { db with tenants := db.tenants.insert t ⟨hot, (db.loadTenantHot t).2 + 1⟩ } := by
  unfold saveTenantHot loadTenantHot
  cases db.tenants[t]? with
  | none => rfl
  | some row => simp

/-- The tables after a commit of tenant `t`. -/
def commitRows (db : Postgres) (t : String) (view : TenantView) : Postgres :=
  { db with
    tenants := db.tenants.insert t ⟨view.hot, (db.loadTenantHot t).2 + 1⟩
    ledger := db.ledger ++ view.ledger.pending }

/-- The control row after a commit that leaves `after` in its view. -/
def mergeControl (db : Postgres) (after : Control) : Option (Control × Nat) :=
  if after = db.loadControl.1 then db.control
  else db.control.map (fun row => (mergeControlDelta row.1 row.1 after, row.2 + 1))

section Transaction

variable {α : Type} {db : Postgres} {t : String}

/-- What a transaction body buffers is what the tenant's ledger accepts. -/
theorem Sound.closure_batch (h : db.Sound) (fn : TenantClosure α) {view : TenantView} {out : α}
    (hfn : fn.run (db.viewOf t) = .ok (view, out)) :
    (db.tenantLedger t).AcceptsAll view.ledger.pending ∧
      view.ledger.future = (db.tenantLedger t).pushAll view.ledger.pending := by
  have hw := fn.lawful _ _ _ hfn
  obtain ⟨hbuf, hpar⟩ := hw.buffered (Buffered.start (h.built t))
  have hpar' : view.ledger.parent = db.tenantLedger t := hpar
  refine ⟨hpar' ▸ hbuf.accepts, ?_⟩
  unfold future
  rw [hpar']

theorem Sound.commitTables (h : db.Sound) (order : CommitOrder) (fn : TenantClosure α)
    {view : TenantView} {out : α} (hfn : fn.run (db.viewOf t) = .ok (view, out)) :
    db.commitTables t order view.hot (db.loadTenantHot t).2 view.ledger.pending =
      (db.commitRows t view, .ok ()) := by
  obtain ⟨hacc, -⟩ := h.closure_batch fn hfn
  have happend := h.appendLedger hacc
  cases order with
  | coldFirst =>
    unfold Postgres.commitTables
    simp only [happend]
    have hsave := saveTenantHot_loaded { db with ledger := db.ledger ++ view.ledger.pending } t
      view.hot
    have hload : { db with ledger := db.ledger ++ view.ledger.pending }.loadTenantHot t =
        db.loadTenantHot t := rfl
    rw [hload] at hsave
    rw [hsave]
    rfl
  | hotFirst =>
    unfold Postgres.commitTables commitHotFirst
    rw [saveTenantHot_loaded]
    have hsound : Sound { db with
        tenants := db.tenants.insert t ⟨view.hot, (db.loadTenantHot t).2 + 1⟩ } :=
      ⟨h.built, h.records, h.versioned⟩
    have hrows := hsound.appendLedger hacc
    simp only [hrows]
    rfl

theorem Sound.updateControl_merge (h : db.Sound) (view : TenantView) (after : Control)
    (attempts : Nat) :
    ∃ result, (db.commitRows t view).updateControl
        (fun current => .ok (mergeControlDelta current db.loadControl.1 after)) attempts =
      ({ db.commitRows t view with
          control := db.control.map
            (fun row => (mergeControlDelta row.1 row.1 after, row.2 + 1)) }, result) ∧
      (db.control.isSome → result = .ok ()) ∧
      ∀ e, result = .error e → e.isSnapshotConflict = false := by
  have htry : ∃ result, (db.commitRows t view).tryControl
      (fun current => .ok (mergeControlDelta current db.loadControl.1 after)) =
      some ({ db.commitRows t view with
          control := db.control.map
            (fun row => (mergeControlDelta row.1 row.1 after, row.2 + 1)) }, result) ∧
      (db.control.isSome → result = .ok ()) ∧
      ∀ e, result = .error e → e.isSnapshotConflict = false := by
    have hload : (db.commitRows t view).loadControl = db.loadControl := rfl
    unfold tryControl
    rw [hload]
    cases hc : db.control with
    | none =>
      -- the first control row needs empty tables, and the tenant row is there
      have hsize : (db.commitRows t view).tenants.size ≠ 0 := size_insert_ne_zero _ _ _
      have hinit : (db.commitRows t view).control = none := hc
      unfold saveControl saveInitialControl loadControl
      simp only [hc, Option.getD_none, if_true, hinit, Option.isSome_none, Bool.false_eq_true,
        if_false, hsize, ne_eq, not_false_eq_true, true_or]
      have hself : ({ db.commitRows t view with control := none } : Postgres) =
          db.commitRows t view := by
        rw [← hinit]
      simp only [Err.isSnapshotConflict, Bool.false_eq_true, if_false, Option.map_none, hself]
      refine ⟨_, rfl, by simp, ?_⟩
      intro e he
      cases he
      rfl
    | some row =>
      obtain ⟨c, v⟩ := row
      have hv : v ≠ 0 := h.versioned c v hc
      have hsome : (db.commitRows t view).control = some (c, v) := hc
      unfold saveControl loadControl
      simp only [hc, Option.getD_some, hv, if_false, hsome, if_true]
      exact ⟨_, rfl, by simp, by simp⟩
  obtain ⟨result, htry, hok, herr⟩ := htry
  refine ⟨result, ?_, hok, herr⟩
  cases attempts with
  | zero => rw [updateControl, htry]; rfl
  | succ n => rw [updateControl, htry]; rfl

theorem updateTenant_failed {order : CommitOrder} {fn : TenantView → Except Err (TenantView × α)}
    {e : Err} (hfn : fn (db.viewOf t) = .error e) (attempts : Nat) :
    db.updateTenant t order fn attempts = (db, .error e) := by
  have honce : db.updateTenantOnce t order fn = (db, .error e) := by
    unfold updateTenantOnce
    simp only [hfn]
  induction attempts with
  | zero => exact honce
  | succ n ih =>
    rw [updateTenant, honce]
    simp only [ih]
    split <;> rfl

/-- **A transaction whose body succeeds** commits its tables at the first
    attempt; only a store without a control row can still report an error. -/
theorem Sound.updateTenant_committed (h : db.Sound) (order : CommitOrder) (fn : TenantClosure α)
    {view : TenantView} {out : α} (hfn : fn.run (db.viewOf t) = .ok (view, out))
    (attempts : Nat) :
    ∃ result, db.updateTenant t order fn.run attempts =
        ({ db.commitRows t view with control := db.mergeControl view.global }, result) ∧
      (view.global = db.loadControl.1 ∨ db.control.isSome → result = .ok out) := by
  have honce : ∃ result, db.updateTenantOnce t order fn.run =
        ({ db.commitRows t view with control := db.mergeControl view.global }, result) ∧
      (view.global = db.loadControl.1 ∨ db.control.isSome → result = .ok out) ∧
      ∀ e, result = .error e → e.isSnapshotConflict = false := by
    unfold updateTenantOnce mergeControl
    simp only [hfn, h.commitTables order fn hfn]
    by_cases hg : view.global = db.loadControl.1
    · refine ⟨.ok out, ?_, by simp, by simp⟩
      rw [if_pos hg, if_pos hg]
      rfl
    · obtain ⟨result, heq, hok, herr⟩ := h.updateControl_merge (t := t) view view.global
        snapshotConflictRetries
      refine ⟨result.map (fun _ => out), ?_, ?_, ?_⟩
      · rw [if_neg hg, if_neg hg, heq]
      · intro hor
        rw [hok (hor.resolve_left hg)]
        rfl
      · intro e he
        cases result with
        | ok _ => cases he
        | error e' =>
          cases he
          exact herr e rfl
  obtain ⟨result, heq, hok, herr⟩ := honce
  refine ⟨result, ?_, hok⟩
  cases attempts with
  | zero => exact heq
  | succ n =>
    rw [updateTenant, heq]
    cases hr : result with
    | ok _ => rfl
    | error e => simp [herr e hr]

theorem Sound.commitRows (h : db.Sound) (fn : TenantClosure α) {view : TenantView} {out : α}
    (hfn : fn.run (db.viewOf t) = .ok (view, out)) :
    Sound { db.commitRows t view with control := db.mergeControl view.global } := by
  obtain ⟨hacc, -⟩ := h.closure_batch fn hfn
  have happ := h.append hacc
  refine ⟨happ.built, happ.records, ?_⟩
  intro c v hc
  simp only [mergeControl] at hc
  split at hc
  · exact h.versioned c v hc
  · obtain ⟨row, -, heq⟩ := Option.map_eq_some_iff.1 hc
    cases heq
    simp

theorem Sound.commitRows_self (h : db.Sound) (fn : TenantClosure α) {view : TenantView} {out : α}
    (hfn : fn.run (db.viewOf t) = .ok (view, out)) (control : Option (Control × Nat)) :
    ({ db.commitRows t view with control := control }.loadTenantHot t).1 = view.hot ∧
      { db.commitRows t view with control := control }.tenantLedger t = view.ledger.future := by
  obtain ⟨hacc, hfut⟩ := h.closure_batch fn hfn
  refine ⟨by simp [Postgres.commitRows, loadTenantHot], ?_⟩
  rw [hfut]
  exact h.tenantLedger_append hacc

theorem Sound.commitRows_ne (h : db.Sound) (fn : TenantClosure α) {view : TenantView} {out : α}
    (hfn : fn.run (db.viewOf t) = .ok (view, out)) (control : Option (Control × Nat)) {u : String}
    (hu : t ≠ u) :
    { db.commitRows t view with control := control }.loadTenantHot u = db.loadTenantHot u ∧
      { db.commitRows t view with control := control }.tenantLedger u = db.tenantLedger u := by
  obtain ⟨hacc, -⟩ := h.closure_batch fn hfn
  have hown : ∀ r ∈ view.ledger.pending, r.tenantID = t := fun r hr =>
    (acceptsAll_valid hacc r hr).2.trans (h.built t).tenantID_eq
  refine ⟨?_, (tenantLedger_append_ne hown hu).1⟩
  unfold Postgres.commitRows loadTenantHot
  simp only [lookup_insert_ne _ _ hu]

end Transaction

/-! ## Section 3: Control-plane updates -/

theorem Sound.of_rows {db db' : Postgres} (h : db.Sound)
    (hled : db'.ledger = db.ledger)
    (hver : ∀ c v, db'.control = some (c, v) → v ≠ 0) : db'.Sound := by
  refine ⟨fun t => ?_, fun t => ?_, hver⟩
  · have hb := h.built t
    simp only [tenantLedger, ledgerRecords] at hb ⊢
    rw [hled]
    exact hb
  · have hr := h.records t
    simp only [tenantLedger, ledgerRecords] at hr ⊢
    rw [hled]
    exact hr

theorem saveControl_frame {db db' : Postgres} {control : Control} {version : Nat}
    (hs : db.saveControl control version = .ok db') :
    db'.tenants = db.tenants ∧ db'.ledger = db.ledger ∧
      ∀ c v, db'.control = some (c, v) → v ≠ 0 := by
  unfold saveControl at hs
  split at hs
  · unfold saveInitialControl at hs
    split at hs
    · cases hs
    split at hs
    · cases hs
    · cases hs
      exact ⟨rfl, rfl, by simp⟩
  · split at hs
    · cases hs
    split at hs
    · cases hs
      refine ⟨rfl, rfl, ?_⟩
      intro c v hc
      cases hc
      omega
    · cases hs

theorem updateControl_frame {db : Postgres} (h : db.Sound) (fn : Control → Except Err Control)
    (attempts : Nat) :
    (db.updateControl fn attempts).1.tenants = db.tenants ∧
      (db.updateControl fn attempts).1.ledger = db.ledger ∧
      ∀ c v, (db.updateControl fn attempts).1.control = some (c, v) → v ≠ 0 := by
  have htry : ∀ out, db.tryControl fn = some out → out.1.tenants = db.tenants ∧
      out.1.ledger = db.ledger ∧ ∀ c v, out.1.control = some (c, v) → v ≠ 0 := by
    intro out hout
    unfold tryControl at hout
    split at hout
    · cases hout
      exact ⟨rfl, rfl, h.versioned⟩
    split at hout
    · next db' hsave =>
      cases hout
      exact saveControl_frame hsave
    split at hout
    · cases hout
    · cases hout
      exact ⟨rfl, rfl, h.versioned⟩
  induction attempts with
  | zero =>
    rw [updateControl]
    cases hc : db.tryControl fn with
    | none => exact ⟨rfl, rfl, h.versioned⟩
    | some out => exact htry out hc
  | succ n ih =>
    rw [updateControl]
    cases hc : db.tryControl fn with
    | none => exact ih
    | some out => exact htry out hc

end Postgres

end AuditGovernance
