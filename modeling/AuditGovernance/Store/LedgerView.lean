import AuditGovernance.Store.LedgerInvariant

/-! # Buffered views

    What a transaction's buffer stands for: the ledger the commit will
    produce (`future`). Each write operation either changes nothing or
    appends exactly one accepted record to that ledger, so a transaction
    body is reasoned about as a sequence of appends to `future`.
-/

namespace AuditGovernance

open FiniteMap TenantLedger

namespace LedgerView

/-- The ledger that committing the buffer produces. -/
def future (v : LedgerView) : TenantLedger := v.parent.pushAll v.pending

/-- Buffers that the write operations can fill. -/
structure Buffered (v : LedgerView) : Prop where
  built : Built v.parent.tenantID v.parent
  accepts : v.parent.AcceptsAll v.pending
  /-- A buffered value is the one the commit makes current. -/
  latest : ∀ (k : String) rc, v.pendingReceipts[k]? = some rc → v.future.receipts[k]? = some rc
  /-- A key without a buffered value keeps its committed receipt. -/
  untouched : ∀ k : String, v.pendingReceipts[k]? = none →
    v.future.receipts[k]? = v.parent.receipts[k]?

theorem Buffered.start {t : String} {l : TenantLedger} (h : Built t l) :
    Buffered { parent := l } := by
  refine ⟨?_, trivial, ?_, ?_⟩
  · rw [h.tenantID_eq]
    exact h
  · intro k rc hk
    simp at hk
  · intro k _
    rfl

variable {v : LedgerView}

theorem Buffered.future_built (h : v.Buffered) : Built v.parent.tenantID v.future :=
  h.built.pushAll h.accepts

@[simp] theorem future_tenantID : v.future.tenantID = v.parent.tenantID := pushAll_tenantID _

theorem future_records : v.future.records = v.parent.records ++ v.pending := pushAll_records _

theorem Buffered.findRecord_eq (h : v.Buffered) (ty : LedgerRecordType) (k : String) (n : Nat) :
    v.findRecord ty k n = v.future.findCommittedRecord ty k n := by
  unfold findRecord
  cases hp : v.pending.find? (fun r => r.hasIdentity ty k n) with
  | some r =>
    have hid : r.hasIdentity ty k n = true := by simpa using List.find?_some hp
    have hmem : r ∈ v.future.records := by
      rw [future_records]
      exact List.mem_append_right _ (List.mem_of_find?_eq_some hp)
    obtain ⟨rfl, rfl, rfl⟩ := hasIdentity_iff.1 hid
    rw [h.future_built.findCommittedRecord_eq hmem]
    rfl
  | none =>
    unfold findCommittedRecord
    rw [future_records, List.find?_append, hp]
    simp

private theorem pendingReceiptRecord_version {l : TenantLedger} (k : String)
    (batch : List LedgerRecord) (ha : l.AcceptsAll batch) :
    match (LedgerView.mk l batch ∅).pendingReceiptRecord k with
    | some p => (l.pushAll batch).receiptVersions[k]? = some p.version
    | none => (l.pushAll batch).receiptVersions[k]? = l.receiptVersions[k]? := by
  induction batch using List.reverseRecOn with
  | nil => rfl
  | append_singleton pre r ih =>
    obtain ⟨hpre, hlast, -⟩ := acceptsAll_append.1 ha
    have ih := ih hpre
    unfold pendingReceiptRecord at ih ⊢
    simp only at ih ⊢
    rw [List.foldl_append, pushAll_append]
    generalize hlatest : List.foldl _ none pre = latest at ih ⊢
    simp only [List.foldl_cons, List.foldl_nil, pushAll_cons, pushAll_nil]
    rcases hlast.cases with ⟨rc, -, ht, hr⟩ | ⟨s, -, -, hr⟩ | ⟨c, -, -, hr⟩
    · subst hr
      rw [push_receiptRecord_receiptVersions]
      by_cases hk : eventKey rc.tenantID rc.eventID = k
      · -- the new record carries a higher version than everything buffered before it
        have hlt : (latest.map (·.version)).getD 0 <
            (l.pushAll pre).nextVersion (eventKey (l.pushAll pre).tenantID rc.eventID) := by
          unfold nextVersion
          rw [← ht, hk]
          cases latest with
          | none => simp
          | some p =>
            simp only at ih
            rw [ih]
            simp
        rw [if_pos ⟨rfl, hk, hlt⟩, hk, lookup_insert_self]
        rfl
      · rw [lookup_insert_ne _ _ hk, if_neg (fun hc => hk hc.2.1)]
        exact ih
    · subst hr
      rw [push_segmentRecord_receiptVersions, if_neg (fun hc => by simp [segmentRecord] at hc)]
      exact ih
    · subst hr
      rw [push_checkpointRecord_receiptVersions,
        if_neg (fun hc => by simp [checkpointRecord] at hc)]
      exact ih

theorem Buffered.nextReceiptVersion_eq (h : v.Buffered) (k : String) :
    v.nextReceiptVersion k = v.future.nextVersion k := by
  have hver := pendingReceiptRecord_version k v.pending h.accepts
  have hcur : (LedgerView.mk v.parent v.pending ∅).pendingReceiptRecord k =
      v.pendingReceiptRecord k := rfl
  rw [hcur] at hver
  unfold nextReceiptVersion nextVersion future
  cases hp : v.pendingReceiptRecord k with
  | some p =>
    rw [hp] at hver
    simp only at hver ⊢
    rw [hver]
    rfl
  | none =>
    rw [hp] at hver
    simp only at hver ⊢
    rw [hver]

/-! ## The write operations -/

/-- Appending one more accepted record to the buffer. -/
theorem future_snoc (r : LedgerRecord) (p : Dict EventReceipt) :
    (LedgerView.mk v.parent (v.pending ++ [r]) p).future = v.future.push r := by
  unfold future
  rw [pushAll_append]
  rfl

/-- `buffer` either finds the record already there or appends it. -/
theorem Buffered.buffer_cases (h : v.Buffered) {r : LedgerRecord} {b : Bool} {v' : LedgerView}
    (hb : v.buffer r = .ok (b, v')) :
    validateLedgerRecord r = .ok () ∧
    ((b = false ∧ v' = v ∧ ∃ p ∈ v.future.records,
        p.hasIdentity r.recordType r.key r.version = true ∧
        immutableLedgerRecordEqual p r = true) ∨
     (b = true ∧ v' = { v with pending := v.pending ++ [r] } ∧
        ∀ p ∈ v.future.records, p.hasIdentity r.recordType r.key r.version = false)) := by
  unfold buffer at hb
  cases hval : validateLedgerRecord r with
  | error e => rw [hval] at hb; cases hb
  | ok u =>
    rw [hval, h.findRecord_eq] at hb
    refine ⟨rfl, ?_⟩
    cases hf : v.future.findCommittedRecord r.recordType r.key r.version with
    | some p =>
      rw [hf] at hb
      simp only at hb
      split at hb
      · next heq =>
        cases hb
        left
        unfold findCommittedRecord at hf
        exact ⟨rfl, rfl, p, List.mem_of_find?_eq_some hf, by simpa using List.find?_some hf, heq⟩
      · cases hb
    | none =>
      rw [hf] at hb
      cases hb
      right
      exact ⟨rfl, rfl, findCommittedRecord_none.1 hf⟩

theorem eq_of_immutableEqual {p r : LedgerRecord} (hp : validateLedgerRecord p = .ok ())
    (hr : validateLedgerRecord r = .ok ()) (h : immutableLedgerRecordEqual p r = true) : p = r := by
  obtain ⟨-, ⟨a, ha, -⟩ | ⟨a, ha, -⟩ | ⟨a, ha, -⟩⟩ := validate_cases hp <;>
  obtain ⟨-, ⟨b, hb, -⟩ | ⟨b, hb, -⟩ | ⟨b, hb, -⟩⟩ := validate_cases hr <;>
  rw [ha, hb] at h ⊢ <;>
  simp only [immutableLedgerRecordEqual, receiptRecord, segmentRecord, checkpointRecord,
    Bool.and_eq_true, decide_eq_true_eq, reduceCtorEq, and_false, false_and,
    Option.some.injEq] at h
  · rw [of_decide_eq_true h.1.2, h.2]
  · rw [of_decide_eq_true h.1.2, h.2]
  · rw [of_decide_eq_true h.1.2, h.2]

theorem Buffered.snoc_other (h : v.Buffered) {r : LedgerRecord}
    (hval : validateLedgerRecord r = .ok ()) (hown : r.tenantID = v.parent.tenantID)
    (hty : r.recordType ≠ .receipt) (hver : r.version = 1)
    (hfresh : ∀ p ∈ v.future.records, p.hasIdentity r.recordType r.key r.version = false) :
    Buffered { v with pending := v.pending ++ [r] } := by
  have hacc : v.future.Accepts r := by
    refine ⟨hval, by rw [hown, future_tenantID], ?_, hfresh⟩
    rw [if_neg hty]
    exact hver
  have hreceipts : (v.future.push r).receipts = v.future.receipts := by
    rcases hacc.cases with ⟨rc, -, -, hr⟩ | ⟨s, -, -, hr⟩ | ⟨c, -, -, hr⟩
    · subst hr
      exact absurd rfl hty
    · subst hr
      rfl
    · subst hr
      rfl
  refine ⟨h.built, acceptsAll_append.2 ⟨h.accepts, hacc, trivial⟩, ?_, ?_⟩
  · intro k rc hk
    rw [future_snoc, hreceipts]
    exact h.latest k rc hk
  · intro k hk
    rw [future_snoc, hreceipts]
    exact h.untouched k hk

theorem Buffered.snoc_receipt (h : v.Buffered) {rc : EventReceipt} (hrec : rc.Recordable)
    (hown : rc.tenantID = v.parent.tenantID)
    (hfresh : ∀ p ∈ v.future.records, p.hasIdentity .receipt
      (eventKey rc.tenantID rc.eventID) (v.future.nextVersion (eventKey rc.tenantID rc.eventID))
        = false) :
    Buffered
      { v with
        pending := v.pending ++
          [receiptRecord (v.future.nextVersion (eventKey rc.tenantID rc.eventID)) rc]
        pendingReceipts := v.pendingReceipts.insert (eventKey rc.tenantID rc.eventID) rc } := by
  have hacc : v.future.Accepts
      (receiptRecord (v.future.nextVersion (eventKey rc.tenantID rc.eventID)) rc) := by
    refine ⟨validate_receiptRecord (by simp [nextVersion]) hrec, ?_, ?_, hfresh⟩
    · rw [future_tenantID]
      exact hown
    · simp [receiptRecord]
  refine ⟨h.built, acceptsAll_append.2 ⟨h.accepts, hacc, trivial⟩, ?_, ?_⟩
  · intro k rc' hk
    rw [future_snoc, push_receiptRecord_receipts, lookup_insert]
    simp only [lookup_insert] at hk
    split
    · next heq => rw [if_pos heq] at hk; exact hk
    · next hne => rw [if_neg hne] at hk; exact h.latest k rc' hk
  · intro k hk
    rw [future_snoc, push_receiptRecord_receipts, lookup_insert]
    simp only [lookup_insert] at hk
    split
    · next heq => rw [if_pos heq] at hk; cases hk
    · next hne => rw [if_neg hne] at hk; exact h.untouched k hk

theorem setReceipt_eq {rc : EventReceipt} (hown : rc.tenantID = v.parent.tenantID) :
    v.setReceipt rc = v.bufferReceipt rc := by
  have hsame : (if rc.tenantID = "" then { rc with tenantID := v.parent.tenantID } else rc) = rc := by
    split
    · rw [← hown]
    · rfl
  unfold setReceipt
  simp only [hsame]
  exact if_neg (by simp [hown])

theorem Buffered.bufferReceipt_cases (h : v.Buffered) {rc : EventReceipt} {v' : LedgerView}
    (hown : rc.tenantID = v.parent.tenantID) (hs : v.bufferReceipt rc = .ok v') :
    v'.Buffered ∧
    ((v' = v ∧ v.future.receipts[eventKey rc.tenantID rc.eventID]? = some rc) ∨
     (rc.Recordable ∧ v'.parent = v.parent ∧ v'.pending = v.pending ++
        [receiptRecord (v.future.nextVersion (eventKey rc.tenantID rc.eventID)) rc])) := by
  unfold bufferReceipt at hs
  simp only at hs
  rw [← hown] at hs
  split at hs
  · next hpend =>
    cases hs
    exact ⟨h, .inl ⟨rfl, h.latest _ _ hpend⟩⟩
  · split at hs
    · next hcur =>
      cases hs
      refine ⟨h, .inl ⟨rfl, ?_⟩⟩
      rw [h.untouched _ hcur.2]
      exact hcur.1
    · rw [h.nextReceiptVersion_eq] at hs
      have hrecord : ({ tenantID := rc.tenantID, recordType := .receipt
                        key := eventKey rc.tenantID rc.eventID
                        version := v.future.nextVersion (eventKey rc.tenantID rc.eventID)
                        receipt := some rc } : LedgerRecord) =
          receiptRecord (v.future.nextVersion (eventKey rc.tenantID rc.eventID)) rc := rfl
      rw [hrecord] at hs
      cases hb : v.buffer
          (receiptRecord (v.future.nextVersion (eventKey rc.tenantID rc.eventID)) rc) with
      | error e => rw [hb] at hs; cases hs
      | ok out =>
        obtain ⟨b, v1⟩ := out
        rw [hb] at hs
        obtain ⟨hval, hcases⟩ := h.buffer_cases hb
        have hfresh := h.future_built.nextVersion_fresh (eventKey rc.tenantID rc.eventID)
        rcases hcases with ⟨-, -, p, hp, hid, -⟩ | ⟨rfl, rfl, -⟩
        · -- the next version is never taken
          exact absurd hid (by rw [show (receiptRecord _ rc).recordType = .receipt from rfl]
                               simpa [receiptRecord] using hfresh p hp)
        · cases hs
          have hrec : rc.Recordable := by
            obtain ⟨-, ⟨a, ha, harec⟩ | ⟨a, ha, -⟩ | ⟨a, ha, -⟩⟩ := validate_cases hval
            · have hpay := congrArg LedgerRecord.receipt ha
              simp only [receiptRecord, Option.some.injEq] at hpay
              rw [hpay]
              exact harec
            · exact absurd (congrArg LedgerRecord.recordType ha)
                (by simp [receiptRecord, segmentRecord])
            · exact absurd (congrArg LedgerRecord.recordType ha)
                (by simp [receiptRecord, checkpointRecord])
          exact ⟨h.snoc_receipt hrec hown hfresh, .inr ⟨hrec, rfl, rfl⟩⟩

theorem Buffered.setReceipt_cases (h : v.Buffered) {rc : EventReceipt} {v' : LedgerView}
    (hown : rc.tenantID = v.parent.tenantID) (hs : v.setReceipt rc = .ok v') :
    v'.Buffered ∧
    ((v' = v ∧ v.future.receipts[eventKey rc.tenantID rc.eventID]? = some rc) ∨
     (rc.Recordable ∧ v'.parent = v.parent ∧ v'.pending = v.pending ++
        [receiptRecord (v.future.nextVersion (eventKey rc.tenantID rc.eventID)) rc])) :=
  h.bufferReceipt_cases hown (by rw [← setReceipt_eq hown]; exact hs)

/-- Both outcomes of `SetReceipt` make the value current and touch no other
    key and no other index. -/
theorem Buffered.setReceipt_future (h : v.Buffered) {rc : EventReceipt} {v' : LedgerView}
    (hown : rc.tenantID = v.parent.tenantID) (hs : v.setReceipt rc = .ok v') :
    v'.Buffered ∧ v'.parent = v.parent ∧
    v'.future.receipts = v.future.receipts.insert (eventKey rc.tenantID rc.eventID) rc ∧
    v'.future.segments = v.future.segments ∧ v'.future.checkpoints = v.future.checkpoints := by
  obtain ⟨hbuf, ⟨rfl, hcur⟩ | ⟨-, hpar, hpend⟩⟩ := h.setReceipt_cases hown hs
  · exact ⟨hbuf, rfl, (insert_lookup_self hcur).symm, rfl, rfl⟩
  · have hfut : v'.future = v.future.push
        (receiptRecord (v.future.nextVersion (eventKey rc.tenantID rc.eventID)) rc) := by
      unfold future
      rw [hpar, hpend, pushAll_append]
      rfl
    rw [hfut]
    exact ⟨hbuf, hpar, rfl, rfl, rfl⟩

/-! ### Segments and checkpoints -/

/-- What `AppendSegment` does: nothing when the same segment is there,
    otherwise one append under a fresh identity. -/
theorem Buffered.appendSegment_cases (h : v.Buffered) {s : Segment} {v' : LedgerView}
    (hs : v.appendSegment s = .ok v') :
    v'.Buffered ∧ s.Recordable ∧ s.tenantID = v.parent.tenantID ∧
    ((v' = v ∧ segmentRecord 1 s ∈ v.future.records) ∨
     (v' = { v with pending := v.pending ++ [segmentRecord 1 s] } ∧
      ∀ p ∈ v.future.records, p.hasIdentity .segment (segmentLedgerKey s) 1 = false)) := by
  unfold appendSegment at hs
  split at hs
  · cases hs
  · next hown =>
    simp only [ne_eq, Decidable.not_not] at hown
    rw [← hown] at hs
    cases hb : v.buffer (segmentRecord 1 s) with
    | error e =>
      unfold segmentRecord at hb
      rw [hb] at hs
      cases hs
    | ok out =>
      obtain ⟨b, v1⟩ := out
      obtain ⟨hval, hcases⟩ := h.buffer_cases hb
      unfold segmentRecord at hb
      rw [hb] at hs
      cases hs
      have hrec : s.Recordable := by
        obtain ⟨-, ⟨a, ha, -⟩ | ⟨a, ha, harec⟩ | ⟨a, ha, -⟩⟩ := validate_cases hval
        · exact absurd (congrArg LedgerRecord.recordType ha)
            (by simp [receiptRecord, segmentRecord])
        · have hpay := congrArg LedgerRecord.segment ha
          simp only [segmentRecord, Option.some.injEq] at hpay
          rw [hpay]
          exact harec
        · exact absurd (congrArg LedgerRecord.recordType ha)
            (by simp [segmentRecord, checkpointRecord])
      rcases hcases with ⟨-, rfl, p, hp, -, heq⟩ | ⟨-, rfl, hfresh⟩
      · refine ⟨h, hrec, hown, .inl ⟨rfl, ?_⟩⟩
        rw [← eq_of_immutableEqual (h.future_built.valid p hp).1 hval heq]
        exact hp
      · exact ⟨h.snoc_other hval hown (by simp [segmentRecord]) rfl hfresh, hrec, hown,
          .inr ⟨rfl, hfresh⟩⟩

/-- What `AppendCheckpoint` does. -/
theorem Buffered.appendCheckpoint_cases (h : v.Buffered) {c : Checkpoint} {v' : LedgerView}
    (hs : v.appendCheckpoint c = .ok v') :
    v'.Buffered ∧ c.Recordable ∧ c.tenantID = v.parent.tenantID ∧
    ((v' = v ∧ checkpointRecord 1 c ∈ v.future.records) ∨
     (v' = { v with pending := v.pending ++ [checkpointRecord 1 c] } ∧
      ∀ p ∈ v.future.records, p.hasIdentity .checkpoint (checkpointKey c) 1 = false)) := by
  unfold appendCheckpoint at hs
  split at hs
  · cases hs
  · next hown =>
    simp only [ne_eq, Decidable.not_not] at hown
    rw [← hown] at hs
    cases hb : v.buffer (checkpointRecord 1 c) with
    | error e =>
      unfold checkpointRecord at hb
      rw [hb] at hs
      cases hs
    | ok out =>
      obtain ⟨b, v1⟩ := out
      obtain ⟨hval, hcases⟩ := h.buffer_cases hb
      unfold checkpointRecord at hb
      rw [hb] at hs
      cases hs
      have hrec : c.Recordable := by
        obtain ⟨-, ⟨a, ha, -⟩ | ⟨a, ha, -⟩ | ⟨a, ha, harec⟩⟩ := validate_cases hval
        · exact absurd (congrArg LedgerRecord.recordType ha)
            (by simp [receiptRecord, checkpointRecord])
        · exact absurd (congrArg LedgerRecord.recordType ha)
            (by simp [segmentRecord, checkpointRecord])
        · have hpay := congrArg LedgerRecord.checkpoint ha
          simp only [checkpointRecord, Option.some.injEq] at hpay
          rw [hpay]
          exact harec
      rcases hcases with ⟨-, rfl, p, hp, -, heq⟩ | ⟨-, rfl, hfresh⟩
      · refine ⟨h, hrec, hown, .inl ⟨rfl, ?_⟩⟩
        rw [← eq_of_immutableEqual (h.future_built.valid p hp).1 hval heq]
        exact hp
      · exact ⟨h.snoc_other hval hown (by simp [checkpointRecord]) rfl hfresh, hrec, hown,
          .inr ⟨rfl, hfresh⟩⟩

/-! ### How much a write buffers -/

theorem Buffered.setReceipt_length (h : v.Buffered) {rc : EventReceipt} {v' : LedgerView}
    (hown : rc.tenantID = v.parent.tenantID) (hs : v.setReceipt rc = .ok v') :
    v'.pending.length ≤ v.pending.length + 1 := by
  obtain ⟨-, ⟨rfl, -⟩ | ⟨-, -, hpend⟩⟩ := h.setReceipt_cases hown hs
  · omega
  · simp [hpend]

theorem Buffered.appendSegment_length (h : v.Buffered) {s : Segment} {v' : LedgerView}
    (hs : v.appendSegment s = .ok v') : v'.pending.length ≤ v.pending.length + 1 := by
  obtain ⟨-, -, -, ⟨rfl, -⟩ | ⟨rfl, -⟩⟩ := h.appendSegment_cases hs
  · omega
  · simp

theorem Buffered.appendCheckpoint_length (h : v.Buffered) {c : Checkpoint} {v' : LedgerView}
    (hs : v.appendCheckpoint c = .ok v') : v'.pending.length ≤ v.pending.length + 1 := by
  obtain ⟨-, -, -, ⟨rfl, -⟩ | ⟨rfl, -⟩⟩ := h.appendCheckpoint_cases hs
  · omega
  · simp

theorem Buffered.appendSegment_future (h : v.Buffered) {s : Segment} {v' : LedgerView}
    (hs : v.appendSegment s = .ok v') (hnew : segmentRecord 1 s ∉ v.future.records) :
    v'.Buffered ∧ v'.parent = v.parent ∧ v'.future.receipts = v.future.receipts ∧
    ∀ k, v'.future.segmentsOf k = if k = streamKey s.tenantID s.streamID then
      v.future.segmentsOf k ++ [s] else v.future.segmentsOf k := by
  obtain ⟨hbuf, -, -, ⟨-, hmem⟩ | ⟨rfl, -⟩⟩ := h.appendSegment_cases hs
  · exact absurd hmem hnew
  · refine ⟨hbuf, rfl, ?_, ?_⟩
    · rw [future_snoc]
      rfl
    · intro k
      rw [future_snoc]
      unfold segmentsOf
      rw [push_segmentRecord_segments, lookup_insert]
      by_cases hk : streamKey s.tenantID s.streamID = k
      · rw [if_pos hk, if_pos hk.symm, hk]
        rfl
      · rw [if_neg hk, if_neg (Ne.symm hk)]

theorem Buffered.appendCheckpoint_future (h : v.Buffered) {c : Checkpoint} {v' : LedgerView}
    (hs : v.appendCheckpoint c = .ok v') :
    v'.Buffered ∧ v'.parent = v.parent ∧ v'.future.receipts = v.future.receipts ∧
    v'.future.segments = v.future.segments := by
  obtain ⟨hbuf, -, -, ⟨rfl, -⟩ | ⟨rfl, -⟩⟩ := h.appendCheckpoint_cases hs
  · exact ⟨hbuf, rfl, rfl, rfl⟩
  · rw [future_snoc]
    exact ⟨hbuf, rfl, rfl, rfl⟩

/-! ## Transaction bodies -/

/-- The buffers a transaction body can turn `v` into. A refused operation
    leaves the buffer as it was, so only successful ones count. -/
inductive Wrote : LedgerView → LedgerView → Prop where
  | refl (v : LedgerView) : Wrote v v
  | receipt {v v1 v2 : LedgerView} {rc : EventReceipt} :
      Wrote v v1 → v1.setReceipt rc = .ok v2 → Wrote v v2
  | segment {v v1 v2 : LedgerView} {s : Segment} :
      Wrote v v1 → v1.appendSegment s = .ok v2 → Wrote v v2
  | checkpoint {v v1 v2 : LedgerView} {c : Checkpoint} :
      Wrote v v1 → v1.appendCheckpoint c = .ok v2 → Wrote v v2

theorem setReceipt_owned {rc : EventReceipt} {v' : LedgerView} (hs : v.setReceipt rc = .ok v') :
    ∃ rc', rc'.tenantID = v.parent.tenantID ∧ v.bufferReceipt rc' = .ok v' := by
  unfold setReceipt at hs
  generalize hrc : (if rc.tenantID = "" then { rc with tenantID := v.parent.tenantID } else rc) = rc'
    at hs
  by_cases hown : rc'.tenantID = v.parent.tenantID
  · simp only [hown, ne_eq, not_true, if_false] at hs
    exact ⟨rc', hown, hs⟩
  · simp only [hown, ne_eq, not_false_eq_true, if_true] at hs
    cases hs

theorem Wrote.trans {a b c : LedgerView} (hab : Wrote a b) (hbc : Wrote b c) : Wrote a c := by
  induction hbc with
  | refl => exact hab
  | receipt _ hs ih => exact .receipt ih hs
  | segment _ hs ih => exact .segment ih hs
  | checkpoint _ hs ih => exact .checkpoint ih hs

theorem Wrote.buffered {a b : LedgerView} (h : Wrote a b) (ha : a.Buffered) :
    b.Buffered ∧ b.parent = a.parent := by
  induction h with
  | refl => exact ⟨ha, rfl⟩
  | receipt _ hs ih =>
    obtain ⟨hbuf, hpar⟩ := ih
    obtain ⟨rc', hown, hs'⟩ := setReceipt_owned hs
    obtain ⟨hbuf', ⟨rfl, _⟩ | ⟨_, hpar', _⟩⟩ := hbuf.bufferReceipt_cases hown hs'
    · exact ⟨hbuf', hpar⟩
    · exact ⟨hbuf', hpar'.trans hpar⟩
  | segment _ hs ih =>
    obtain ⟨hbuf, hpar⟩ := ih
    obtain ⟨hbuf', _, _, ⟨rfl, _⟩ | ⟨rfl, _⟩⟩ := hbuf.appendSegment_cases hs
    · exact ⟨hbuf', hpar⟩
    · exact ⟨hbuf', hpar⟩
  | checkpoint _ hs ih =>
    obtain ⟨hbuf, hpar⟩ := ih
    obtain ⟨hbuf', _, _, ⟨rfl, _⟩ | ⟨rfl, _⟩⟩ := hbuf.appendCheckpoint_cases hs
    · exact ⟨hbuf', hpar⟩
    · exact ⟨hbuf', hpar⟩

end LedgerView

end AuditGovernance
