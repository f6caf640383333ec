import AuditGovernance.Store.Ledger

/-! # Ledgers that can exist

    `Built t l` says that `l` is reached from the empty ledger of tenant `t`
    by appending, one at a time, well-formed records under fresh identities:
    a receipt with the next version of its key, or a first version of a
    segment or checkpoint. Everything the store relies on about a committed
    ledger follows by induction on this predicate.
-/

namespace AuditGovernance

open FiniteMap Framing

/-! ## Section 1: Records by payload -/

def receiptRecord (version : Nat) (receipt : EventReceipt) : LedgerRecord :=
  { tenantID := receipt.tenantID, recordType := .receipt
    key := eventKey receipt.tenantID receipt.eventID
    version := version, receipt := some receipt }

def segmentRecord (version : Nat) (segment : Segment) : LedgerRecord :=
  { tenantID := segment.tenantID, recordType := .segment, key := segmentLedgerKey segment
    version := version, segment := some segment }

def checkpointRecord (version : Nat) (checkpoint : Checkpoint) : LedgerRecord :=
  { tenantID := checkpoint.tenantID, recordType := .checkpoint, key := checkpointKey checkpoint
    version := version, checkpoint := some checkpoint }

/-- Ownership conditions a receipt must meet to be recorded. -/
def EventReceipt.Recordable (receipt : EventReceipt) : Prop :=
  receipt.tenantID ≠ "" ∧ receipt.eventID ≠ ""

def Segment.Recordable (segment : Segment) : Prop :=
  segment.tenantID ≠ "" ∧ segment.streamID ≠ "" ∧ 0 < segment.firstSequence

def Checkpoint.Recordable (checkpoint : Checkpoint) : Prop :=
  checkpoint.tenantID ≠ "" ∧
    (checkpoint.id = "" → checkpoint.streamID ≠ "" ∧ 0 < checkpoint.sequence)

theorem eventKey_ne_empty (t e : String) : eventKey t e ≠ "" := join_ne_empty _ _ _

theorem segmentLedgerKey_ne_empty (s : Segment) : segmentLedgerKey s ≠ "" := join_ne_empty _ _ _

theorem checkpointKey_ne_empty (c : Checkpoint) : checkpointKey c ≠ "" := by
  unfold checkpointKey
  split
  · exact join_ne_empty _ _ _
  · assumption

theorem validate_receiptRecord {v : Nat} {rc : EventReceipt} (hv : v ≠ 0) (h : rc.Recordable) :
    validateLedgerRecord (receiptRecord v rc) = .ok () := by
  obtain ⟨ht, he⟩ := h
  simp [validateLedgerRecord, receiptRecord, validateReceiptRecord, LedgerRecord.payloads, ht, he,
    hv, eventKey_ne_empty]

theorem validate_segmentRecord {v : Nat} {s : Segment} (hv : v ≠ 0) (h : s.Recordable) :
    validateLedgerRecord (segmentRecord v s) = .ok () := by
  obtain ⟨ht, hs, hf⟩ := h
  have hf' : ¬ s.firstSequence ≤ 0 := by omega
  simp [validateLedgerRecord, segmentRecord, validateSegmentRecord, LedgerRecord.payloads, ht, hs,
    hf', hv, segmentLedgerKey_ne_empty]

theorem validate_checkpointRecord {v : Nat} {c : Checkpoint} (hv : v ≠ 0) (h : c.Recordable) :
    validateLedgerRecord (checkpointRecord v c) = .ok () := by
  obtain ⟨ht, hid⟩ := h
  have hempty : ¬ (c.id = "" ∧ (c.streamID = "" ∨ c.sequence ≤ 0)) := by
    intro ⟨h1, h2⟩
    obtain ⟨hs, hq⟩ := hid h1
    rcases h2 with h2 | h2
    · exact hs h2
    · omega
  simp [validateLedgerRecord, checkpointRecord, validateCheckpointRecord, LedgerRecord.payloads,
    ht, hv, checkpointKey_ne_empty, hempty]

/-- A record passes validation exactly when it is the record of a recordable
    payload under a positive version. -/
theorem validate_cases {r : LedgerRecord} (h : validateLedgerRecord r = .ok ()) :
    r.version ≠ 0 ∧
    ((∃ rc, r = receiptRecord r.version rc ∧ rc.Recordable) ∨
     (∃ s, r = segmentRecord r.version s ∧ s.Recordable) ∨
     (∃ c, r = checkpointRecord r.version c ∧ c.Recordable)) := by
  unfold validateLedgerRecord at h
  split at h
  · cases h
  next hid =>
  simp only [not_or] at hid
  obtain ⟨ht, hk, hv⟩ := hid
  refine ⟨hv, ?_⟩
  split at h
  · cases h
  next hp =>
  simp only [ne_eq, Decidable.not_not] at hp
  obtain ⟨tenantID, recordType, key, version, receipt, segment, checkpoint⟩ := r
  cases recordType with
  | receipt =>
    left
    simp only [validateReceiptRecord] at h
    cases receipt with
    | none => cases h
    | some rc =>
      cases segment <;> cases checkpoint <;> simp [LedgerRecord.payloads] at hp
      simp only at h
      split at h
      · cases h
      next hown =>
      split at h
      · cases h
      next hkey =>
      simp only [ne_eq, not_or, Decidable.not_not] at hown hkey
      obtain ⟨rfl, he⟩ := hown
      subst hkey
      exact ⟨rc, rfl, ht, he⟩
  | segment =>
    right; left
    simp only [validateSegmentRecord] at h
    cases segment with
    | none => cases h
    | some s =>
      cases receipt <;> cases checkpoint <;> simp [LedgerRecord.payloads] at hp
      simp only at h
      split at h
      · cases h
      next hown =>
      split at h
      · cases h
      next hkey =>
      simp only [ne_eq, not_or, Decidable.not_not] at hown hkey
      obtain ⟨rfl, hs, hf⟩ := hown
      subst hkey
      exact ⟨s, rfl, ht, hs, by omega⟩
  | checkpoint =>
    right; right
    simp only [validateCheckpointRecord] at h
    cases checkpoint with
    | none => cases h
    | some c =>
      cases receipt <;> cases segment <;> simp [LedgerRecord.payloads] at hp
      simp only at h
      split at h
      · cases h
      next hown =>
      split at h
      · cases h
      next hempty =>
      split at h
      · cases h
      next hkey =>
      simp only [ne_eq, Decidable.not_not] at hown hkey
      subst hown
      subst hkey
      refine ⟨c, rfl, ht, ?_⟩
      intro hcid
      simp only [hcid, true_and, not_or] at hempty
      exact ⟨hempty.1, by omega⟩

theorem validate_tenantID_ne {r : LedgerRecord} (h : validateLedgerRecord r = .ok ()) :
    r.tenantID ≠ "" := by
  unfold validateLedgerRecord at h
  split at h
  · cases h
  · next hid => exact fun ht => hid (.inl ht)

/-! ## Section 2: Built ledgers -/

namespace TenantLedger

/-- Version the next receipt of `key` gets. -/
def nextVersion (l : TenantLedger) (key : String) : Nat := (l.receiptVersions[key]?).getD 0 + 1

/-- Index the payload of `r` and retain it, without any check. -/
def push (l : TenantLedger) (r : LedgerRecord) : TenantLedger :=
  match r.recordType with
  | .receipt => ((r.receipt.map (l.indexReceipt r.key r.version)).getD l).retain r
  | .segment => ((r.segment.map l.indexSegment).getD l).retain r
  | .checkpoint => ((r.checkpoint.map l.indexCheckpoint).getD l).retain r

/-- `l` can take `r` next: `r` is well formed, belongs to the tenant and
    carries the next free identity of its family. -/
structure Accepts (l : TenantLedger) (r : LedgerRecord) : Prop where
  valid : validateLedgerRecord r = .ok ()
  owned : r.tenantID = l.tenantID
  version : if r.recordType = .receipt then r.version = l.nextVersion r.key else r.version = 1
  fresh : ∀ p ∈ l.records, p.hasIdentity r.recordType r.key r.version = false

/-- Ledgers of tenant `t` that can exist. -/
inductive Built (t : String) : TenantLedger → Prop where
  | empty : Built t { tenantID := t }
  | append {l : TenantLedger} {r : LedgerRecord} :
      Built t l → l.Accepts r → Built t (l.push r)

@[simp] theorem push_records (l : TenantLedger) (r : LedgerRecord) :
    (l.push r).records = l.records ++ [r] := by
  unfold push
  cases r.recordType with
  | receipt => cases r.receipt <;> rfl
  | segment => cases r.segment <;> rfl
  | checkpoint => cases r.checkpoint <;> rfl

@[simp] theorem push_tenantID (l : TenantLedger) (r : LedgerRecord) :
    (l.push r).tenantID = l.tenantID := by
  unfold push
  cases r.recordType with
  | receipt => cases r.receipt <;> rfl
  | segment => cases r.segment <;> rfl
  | checkpoint => cases r.checkpoint <;> rfl

@[simp] theorem push_committedRecordKey (l : TenantLedger) (r : LedgerRecord) :
    (l.push r).committedRecordKey = l.committedRecordKey.insert r.identity () := by
  unfold push
  cases r.recordType with
  | receipt => cases r.receipt <;> rfl
  | segment => cases r.segment <;> rfl
  | checkpoint => cases r.checkpoint <;> rfl

/-! ### What one append does to the indexes -/

section PushIndexes

variable (l : TenantLedger) (v : Nat)

@[simp] theorem push_receiptRecord_receipts (rc : EventReceipt) :
    (l.push (receiptRecord v rc)).receipts =
      l.receipts.insert (eventKey rc.tenantID rc.eventID) rc := rfl

@[simp] theorem push_receiptRecord_receiptVersions (rc : EventReceipt) :
    (l.push (receiptRecord v rc)).receiptVersions =
      l.receiptVersions.insert (eventKey rc.tenantID rc.eventID) v := rfl

@[simp] theorem push_receiptRecord_segments (rc : EventReceipt) :
    (l.push (receiptRecord v rc)).segments = l.segments := rfl

@[simp] theorem push_receiptRecord_checkpoints (rc : EventReceipt) :
    (l.push (receiptRecord v rc)).checkpoints = l.checkpoints := rfl

@[simp] theorem push_segmentRecord_receipts (s : Segment) :
    (l.push (segmentRecord v s)).receipts = l.receipts := rfl

@[simp] theorem push_segmentRecord_receiptVersions (s : Segment) :
    (l.push (segmentRecord v s)).receiptVersions = l.receiptVersions := rfl

@[simp] theorem push_segmentRecord_idempotency (s : Segment) :
    (l.push (segmentRecord v s)).idempotency = l.idempotency := rfl

@[simp] theorem push_segmentRecord_segments (s : Segment) :
    (l.push (segmentRecord v s)).segments =
      l.segments.insert (streamKey s.tenantID s.streamID)
        (l.segmentsOf (streamKey s.tenantID s.streamID) ++ [s]) := rfl

@[simp] theorem push_segmentRecord_checkpoints (s : Segment) :
    (l.push (segmentRecord v s)).checkpoints = l.checkpoints := rfl

@[simp] theorem push_checkpointRecord_receipts (c : Checkpoint) :
    (l.push (checkpointRecord v c)).receipts = l.receipts := rfl

@[simp] theorem push_checkpointRecord_receiptVersions (c : Checkpoint) :
    (l.push (checkpointRecord v c)).receiptVersions = l.receiptVersions := rfl

@[simp] theorem push_checkpointRecord_idempotency (c : Checkpoint) :
    (l.push (checkpointRecord v c)).idempotency = l.idempotency := rfl

@[simp] theorem push_checkpointRecord_segments (c : Checkpoint) :
    (l.push (checkpointRecord v c)).segments = l.segments := rfl

@[simp] theorem push_checkpointRecord_checkpoints (c : Checkpoint) :
    (l.push (checkpointRecord v c)).checkpoints =
      l.checkpoints.insert (streamKey c.tenantID c.streamID)
        (l.checkpointsOf (streamKey c.tenantID c.streamID) ++ [c]) := rfl

/-- The segment of `r` when it lies on the stream `k`. -/
def segmentOn (k : String) (r : LedgerRecord) : Option Segment :=
  r.segment.filter (fun s => streamKey s.tenantID s.streamID = k)

/-- The checkpoint of `r` when it lies on the stream `k`. -/
def checkpointOn (k : String) (r : LedgerRecord) : Option Checkpoint :=
  r.checkpoint.filter (fun c => streamKey c.tenantID c.streamID = k)

@[simp] theorem segmentOn_receiptRecord (k : String) (rc : EventReceipt) :
    segmentOn k (receiptRecord v rc) = none := rfl

@[simp] theorem segmentOn_checkpointRecord (k : String) (c : Checkpoint) :
    segmentOn k (checkpointRecord v c) = none := rfl

@[simp] theorem segmentOn_segmentRecord (k : String) (s : Segment) :
    segmentOn k (segmentRecord v s) =
      if streamKey s.tenantID s.streamID = k then some s else none := by
  simp [segmentOn, segmentRecord, Option.filter]

@[simp] theorem checkpointOn_receiptRecord (k : String) (rc : EventReceipt) :
    checkpointOn k (receiptRecord v rc) = none := rfl

@[simp] theorem checkpointOn_segmentRecord (k : String) (s : Segment) :
    checkpointOn k (segmentRecord v s) = none := rfl

@[simp] theorem checkpointOn_checkpointRecord (k : String) (c : Checkpoint) :
    checkpointOn k (checkpointRecord v c) =
      if streamKey c.tenantID c.streamID = k then some c else none := by
  simp [checkpointOn, checkpointRecord, Option.filter]

end PushIndexes

/-! ### Facts about every built ledger -/

variable {t : String} {l : TenantLedger}

theorem Built.tenantID_eq (h : Built t l) : l.tenantID = t := by
  induction h with
  | empty => rfl
  | append _ _ ih => rw [push_tenantID, ih]

theorem Built.valid (h : Built t l) :
    ∀ r ∈ l.records, validateLedgerRecord r = .ok () ∧ r.tenantID = t := by
  induction h with
  | empty => intro r hr; cases hr
  | append hl ha ih =>
    intro r hr
    rw [push_records, List.mem_append, List.mem_singleton] at hr
    rcases hr with hr | hr
    · exact ih r hr
    · subst hr
      exact ⟨ha.valid, ha.owned.trans hl.tenantID_eq⟩

theorem hasIdentity_iff {r : LedgerRecord} {ty : LedgerRecordType} {k : String} {v : Nat} :
    r.hasIdentity ty k v = true ↔ r.recordType = ty ∧ r.key = k ∧ r.version = v := by
  simp [LedgerRecord.hasIdentity, and_assoc]

theorem identity_eq_iff {r : LedgerRecord} {ty : LedgerRecordType} {k : String} {v : Nat} :
    r.identity = ledgerRecordIdentity ty k v ↔ r.hasIdentity ty k v = true := by
  unfold LedgerRecord.identity
  rw [ledgerRecordIdentity_inj, hasIdentity_iff]

/-- The committed identities are those of the record list. -/
theorem Built.hasCommittedRecord_iff (h : Built t l) (ty : LedgerRecordType) (k : String)
    (v : Nat) :
    l.hasCommittedRecord ty k v = true ↔ ∃ r ∈ l.records, r.hasIdentity ty k v = true := by
  induction h with
  | empty => simp [hasCommittedRecord]
  | @append l r hl ha ih =>
    unfold hasCommittedRecord at ih ⊢
    rw [push_committedRecordKey, push_records]
    simp only [Std.ExtTreeMap.contains_insert, Bool.or_eq_true, ih, List.mem_append,
      List.mem_singleton, beq_iff_eq, Std.compare_eq_iff_eq, identity_eq_iff]
    constructor
    · intro hor
      rcases hor with hr | ⟨p, hp, hid⟩
      · exact ⟨r, .inr rfl, hr⟩
      · exact ⟨p, .inl hp, hid⟩
    · intro ⟨p, hp, hid⟩
      rcases hp with hp | hp
      · exact .inr ⟨p, hp, hid⟩
      · subst hp
        exact .inl hid

/-- Identities are pairwise distinct. -/
theorem Built.distinct (h : Built t l) :
    l.records.Pairwise (fun a b => a.hasIdentity b.recordType b.key b.version = false) := by
  induction h with
  | empty => exact List.Pairwise.nil
  | append _ ha ih =>
    rw [push_records, List.pairwise_append]
    refine ⟨ih, List.pairwise_singleton _ _, ?_⟩
    intro a hmem b hb
    rw [List.mem_singleton] at hb
    subst hb
    exact ha.fresh a hmem

/-- What one accepted append does, by record family. -/
theorem Accepts.cases {r : LedgerRecord} (ha : l.Accepts r) :
    (∃ rc, rc.Recordable ∧ rc.tenantID = l.tenantID ∧
      r = receiptRecord (l.nextVersion (eventKey l.tenantID rc.eventID)) rc) ∨
    (∃ s, s.Recordable ∧ s.tenantID = l.tenantID ∧ r = segmentRecord 1 s) ∨
    (∃ c, c.Recordable ∧ c.tenantID = l.tenantID ∧ r = checkpointRecord 1 c) := by
  obtain ⟨-, ⟨rc, hr, hrec⟩ | ⟨s, hr, hrec⟩ | ⟨c, hr, hrec⟩⟩ := validate_cases ha.valid
  · left
    have hown := ha.owned
    have hver := ha.version
    rw [hr] at hown hver
    simp only [receiptRecord, if_true] at hown hver
    refine ⟨rc, hrec, hown, ?_⟩
    rw [hown] at hver
    rw [hr, hver]
  · right; left
    have hown := ha.owned
    have hver := ha.version
    rw [hr] at hown hver
    simp only [segmentRecord, reduceCtorEq, if_false] at hown hver
    refine ⟨s, hrec, hown, ?_⟩
    rw [hr, hver]
  · right; right
    have hown := ha.owned
    have hver := ha.version
    rw [hr] at hown hver
    simp only [checkpointRecord, reduceCtorEq, if_false] at hown hver
    refine ⟨c, hrec, hown, ?_⟩
    rw [hr, hver]

/-- The segment index of a stream lists its segment records in order. -/
theorem Built.segmentsOf_eq (h : Built t l) (k : String) :
    l.segmentsOf k = l.records.filterMap (segmentOn k) := by
  induction h with
  | empty => simp [segmentsOf]
  | @append l r _ ha ih =>
    rw [push_records, List.filterMap_append, ← ih]
    unfold segmentsOf
    rcases ha.cases with ⟨rc, -, -, hr⟩ | ⟨s, -, -, hr⟩ | ⟨c, -, -, hr⟩
    · subst hr
      simp
    · subst hr
      by_cases hk : streamKey s.tenantID s.streamID = k
      · subst hk
        simp [segmentsOf]
      · simp [lookup_insert_ne _ _ hk, hk]
    · subst hr
      simp

/-- The checkpoint index of a stream lists its checkpoint records in order. -/
theorem Built.checkpointsOf_eq (h : Built t l) (k : String) :
    l.checkpointsOf k = l.records.filterMap (checkpointOn k) := by
  induction h with
  | empty => simp [checkpointsOf]
  | @append l r _ ha ih =>
    rw [push_records, List.filterMap_append, ← ih]
    unfold checkpointsOf
    rcases ha.cases with ⟨rc, -, -, hr⟩ | ⟨s, -, -, hr⟩ | ⟨c, -, -, hr⟩
    · subst hr
      simp
    · subst hr
      simp
    · subst hr
      by_cases hk : streamKey c.tenantID c.streamID = k
      · subst hk
        simp [checkpointsOf]
      · simp [lookup_insert_ne _ _ hk, hk]

/-- **Gapless versions.** The committed versions of a receipt key are exactly
    `1 .. n`, where `n` is the indexed version. -/
theorem Built.receipt_versions (h : Built t l) (k : String) (v : Nat) :
    (∃ r ∈ l.records, r.hasIdentity .receipt k v = true) ↔
      1 ≤ v ∧ v ≤ (l.receiptVersions[k]?).getD 0 := by
  induction h with
  | empty => simp; omega
  | @append l r _ ha ih =>
    have hsplit : (∃ p ∈ (l.push r).records, p.hasIdentity .receipt k v = true) ↔
        (1 ≤ v ∧ v ≤ (l.receiptVersions[k]?).getD 0) ∨ r.hasIdentity .receipt k v = true := by
      rw [← ih, push_records]
      simp only [List.mem_append, List.mem_singleton]
      constructor
      · intro ⟨p, hp, hid⟩
        rcases hp with hp | hp
        · exact .inl ⟨p, hp, hid⟩
        · subst hp; exact .inr hid
      · intro hor
        rcases hor with ⟨p, hp, hid⟩ | hid
        · exact ⟨p, .inl hp, hid⟩
        · exact ⟨r, .inr rfl, hid⟩
    rw [hsplit, hasIdentity_iff]
    rcases ha.cases with ⟨rc, -, ht, hr⟩ | ⟨s, -, -, hr⟩ | ⟨c, -, -, hr⟩
    · subst hr
      rw [push_receiptRecord_receiptVersions]
      simp only [receiptRecord, ht, true_and]
      by_cases hk : eventKey l.tenantID rc.eventID = k
      · subst hk
        rw [lookup_insert_self]
        simp only [nextVersion, Option.getD_some, true_and]
        omega
      · rw [lookup_insert_ne _ _ hk]
        simp [hk]
    · subst hr
      rw [push_segmentRecord_receiptVersions]
      simp [segmentRecord]
    · subst hr
      rw [push_checkpointRecord_receiptVersions]
      simp [checkpointRecord]

theorem receiptRecord_hasIdentity (v : Nat) (rc : EventReceipt) :
    (receiptRecord v rc).hasIdentity .receipt (eventKey rc.tenantID rc.eventID) v = true := by
  simp [LedgerRecord.hasIdentity, receiptRecord]

/-- The receipt index holds the payload of the record with the indexed
    version. -/
theorem Built.receipts_iff (h : Built t l) (k : String) (rc : EventReceipt) :
    l.receipts[k]? = some rc ↔
      ∃ v, l.receiptVersions[k]? = some v ∧ receiptRecord v rc ∈ l.records ∧
        eventKey rc.tenantID rc.eventID = k := by
  induction h with
  | empty => simp
  | @append l r hl ha ih =>
    rcases ha.cases with ⟨rc', -, ht, hr⟩ | ⟨s, -, -, hr⟩ | ⟨c, -, -, hr⟩
    · subst hr
      rw [push_receiptRecord_receipts, push_receiptRecord_receiptVersions, push_records]
      simp only [List.mem_append, List.mem_singleton]
      by_cases hk : eventKey rc'.tenantID rc'.eventID = k
      · subst hk
        rw [lookup_insert_self, lookup_insert_self]
        constructor
        · intro heq
          cases heq
          exact ⟨_, rfl, .inr rfl, rfl⟩
        · intro ⟨v, hv, hmem, hkey⟩
          cases hv
          rcases hmem with hmem | hmem
          · -- an older record cannot carry the next version
            exfalso
            have hold := (hl.receipt_versions _ _).1 ⟨_, hmem, receiptRecord_hasIdentity _ _⟩
            rw [hkey, ht] at hold
            unfold nextVersion at hold
            omega
          · have hpay := congrArg LedgerRecord.receipt hmem
            simp only [receiptRecord, Option.some.injEq] at hpay
            rw [hpay]
      · rw [lookup_insert_ne _ _ hk, lookup_insert_ne _ _ hk, ih]
        constructor
        · intro ⟨v, hv, hmem, hkey⟩
          exact ⟨v, hv, .inl hmem, hkey⟩
        · intro ⟨v, hv, hmem, hkey⟩
          rcases hmem with hmem | hmem
          · exact ⟨v, hv, hmem, hkey⟩
          · have hpay := congrArg LedgerRecord.receipt hmem
            simp only [receiptRecord, Option.some.injEq] at hpay
            subst hpay
            exact absurd hkey hk
    · subst hr
      rw [push_segmentRecord_receipts, push_segmentRecord_receiptVersions, push_records, ih]
      simp [receiptRecord, segmentRecord]
    · subst hr
      rw [push_checkpointRecord_receipts, push_checkpointRecord_receiptVersions, push_records, ih]
      simp [receiptRecord, checkpointRecord]

theorem Built.nextVersion_fresh (h : Built t l) (k : String) :
    ∀ p ∈ l.records, p.hasIdentity .receipt k (l.nextVersion k) = false := by
  intro p hp
  rw [Bool.eq_false_iff]
  intro hid
  have hle := ((h.receipt_versions k _).1 ⟨p, hp, hid⟩).2
  unfold nextVersion at hle
  omega

/-- An accepted record passes every test of `applyRecord`. -/
theorem Built.applyRecord_eq_push (h : Built t l) {r : LedgerRecord} (ha : l.Accepts r) :
    l.applyRecord r = l.push r := by
  have hfresh : l.hasCommittedRecord r.recordType r.key r.version = false := by
    rw [Bool.eq_false_iff]
    intro hc
    obtain ⟨p, hp, hid⟩ := (h.hasCommittedRecord_iff _ _ _).1 hc
    rw [ha.fresh p hp] at hid
    cases hid
  have hv := (validate_cases ha.valid).1
  have hown := ha.owned
  rcases ha.cases with ⟨rc, hrec, ht, hr⟩ | ⟨s, hrec, ht, hr⟩ | ⟨c, hrec, ht, hr⟩
  · subst hr
    have hne : rc.tenantID ≠ "" := hrec.1
    have hle : ¬ l.nextVersion (eventKey l.tenantID rc.eventID) ≤
        (l.receiptVersions[eventKey l.tenantID rc.eventID]?).getD 0 := by
      unfold nextVersion
      omega
    simp only [receiptRecord, ht] at hfresh hv hne
    simp [applyRecord, receiptRecord, push, ht, hne, hfresh, hv, hle]
  · subst hr
    have hne : s.tenantID ≠ "" := hrec.1
    simp only [segmentRecord, ht] at hfresh hne
    simp [applyRecord, segmentRecord, push, ht, hne, hfresh]
  · subst hr
    have hne : c.tenantID ≠ "" := hrec.1
    simp only [checkpointRecord, ht] at hfresh hne
    simp [applyRecord, checkpointRecord, push, ht, hne, hfresh]

/-- **Reload.** Replaying the record list rebuilds the ledger, so the file
    contents determine the index. -/
theorem Built.new_records (h : Built t l) : new t l.records = l := by
  induction h with
  | empty => rfl
  | @append l r hl ha ih =>
    rw [push_records]
    unfold new at ih ⊢
    rw [List.foldl_append, ih]
    exact hl.applyRecord_eq_push ha

/-! ## Section 3: Appending a batch -/

/-- Append a batch of records. -/
def pushAll (l : TenantLedger) (batch : List LedgerRecord) : TenantLedger := batch.foldl push l

/-- Each record of the batch is accepted when its turn comes. -/
def AcceptsAll (l : TenantLedger) : List LedgerRecord → Prop
  | [] => True
  | r :: rest => l.Accepts r ∧ (l.push r).AcceptsAll rest

@[simp] theorem pushAll_nil : l.pushAll [] = l := rfl

@[simp] theorem pushAll_cons (r : LedgerRecord) (rest : List LedgerRecord) :
    l.pushAll (r :: rest) = (l.push r).pushAll rest := rfl

theorem pushAll_append (a b : List LedgerRecord) : l.pushAll (a ++ b) = (l.pushAll a).pushAll b :=
  List.foldl_append

@[simp] theorem pushAll_records (batch : List LedgerRecord) :
    (l.pushAll batch).records = l.records ++ batch := by
  induction batch generalizing l with
  | nil => simp
  | cons r rest ih => rw [pushAll_cons, ih, push_records]; simp

@[simp] theorem pushAll_tenantID (batch : List LedgerRecord) :
    (l.pushAll batch).tenantID = l.tenantID := by
  induction batch generalizing l with
  | nil => rfl
  | cons r rest ih => rw [pushAll_cons, ih, push_tenantID]

theorem acceptsAll_append {a b : List LedgerRecord} :
    l.AcceptsAll (a ++ b) ↔ l.AcceptsAll a ∧ (l.pushAll a).AcceptsAll b := by
  induction a generalizing l with
  | nil => simp [AcceptsAll]
  | cons r rest ih =>
    simp only [List.cons_append, AcceptsAll, ih, pushAll_cons, and_assoc]

theorem Built.pushAll (h : Built t l) {batch : List LedgerRecord} (ha : l.AcceptsAll batch) :
    Built t (l.pushAll batch) := by
  induction batch generalizing l with
  | nil => exact h
  | cons r rest ih => exact ih (.append h ha.1) ha.2

theorem immutableLedgerRecordEqual_refl (r : LedgerRecord) :
    immutableLedgerRecordEqual r r = true := by
  unfold immutableLedgerRecordEqual
  cases r.recordType <;> simp

theorem eq_of_distinct {records : List LedgerRecord}
    (h : records.Pairwise (fun a b => a.hasIdentity b.recordType b.key b.version = false))
    {a b : LedgerRecord} (ha : a ∈ records) (hb : b ∈ records)
    (hid : a.hasIdentity b.recordType b.key b.version = true) : a = b := by
  by_contra hne
  have hsymm : Std.Symm (fun x y : LedgerRecord =>
      x.hasIdentity y.recordType y.key y.version = false) := by
    constructor
    intro x y hxy
    rw [Bool.eq_false_iff] at hxy ⊢
    intro hyx
    apply hxy
    rw [hasIdentity_iff] at hyx ⊢
    exact ⟨hyx.1.symm, hyx.2.1.symm, hyx.2.2.symm⟩
  rw [h.forall ha hb hne] at hid
  cases hid

theorem find?_of_distinct {records : List LedgerRecord}
    (h : records.Pairwise (fun a b => a.hasIdentity b.recordType b.key b.version = false))
    {r : LedgerRecord} (hr : r ∈ records) :
    records.find? (fun p => p.hasIdentity r.recordType r.key r.version) = some r := by
  cases hf : records.find? (fun p => p.hasIdentity r.recordType r.key r.version) with
  | none =>
    rw [List.find?_eq_none] at hf
    exact absurd (hasIdentity_iff.2 ⟨rfl, rfl, rfl⟩) (hf r hr)
  | some p =>
    have hid := List.find?_some hf
    rw [eq_of_distinct h (List.mem_of_find?_eq_some hf) hr hid]

theorem Built.eq_of_identity (h : Built t l) {a b : LedgerRecord} (ha : a ∈ l.records)
    (hb : b ∈ l.records) (hid : a.hasIdentity b.recordType b.key b.version = true) : a = b :=
  eq_of_distinct h.distinct ha hb hid

theorem Built.findCommittedRecord_eq (h : Built t l) {r : LedgerRecord} (hr : r ∈ l.records) :
    l.findCommittedRecord r.recordType r.key r.version = some r :=
  find?_of_distinct h.distinct hr

theorem findCommittedRecord_none {ty : LedgerRecordType} {k : String} {v : Nat} :
    l.findCommittedRecord ty k v = none ↔ ∀ p ∈ l.records, p.hasIdentity ty k v = false := by
  unfold findCommittedRecord
  rw [List.find?_eq_none]
  simp

theorem Built.commitPending_eq (h : Built t l) {batch : List LedgerRecord}
    (ha : l.AcceptsAll batch) : l.commitPending batch = l.pushAll batch := by
  induction batch generalizing l with
  | nil => rfl
  | cons r rest ih =>
    have hfresh : l.hasCommittedRecord r.recordType r.key r.version = false := by
      rw [Bool.eq_false_iff]
      intro hc
      obtain ⟨p, hp, hid⟩ := (h.hasCommittedRecord_iff _ _ _).1 hc
      rw [ha.1.fresh p hp] at hid
      cases hid
    have hstep : l.commitPending (r :: rest) = (l.push r).commitPending rest := by
      unfold commitPending
      rw [List.foldl_cons, hfresh, if_neg Bool.false_ne_true, h.applyRecord_eq_push ha.1]
    rw [hstep, pushAll_cons]
    exact ih (.append h ha.1) ha.2

theorem Built.commitPending_committed (h : Built t l) {batch : List LedgerRecord}
    (hc : ∀ r ∈ batch, r ∈ l.records) : l.commitPending batch = l := by
  induction batch with
  | nil => rfl
  | cons r rest ih =>
    have hcom : l.hasCommittedRecord r.recordType r.key r.version = true :=
      (h.hasCommittedRecord_iff _ _ _).2
        ⟨r, hc r List.mem_cons_self, hasIdentity_iff.2 ⟨rfl, rfl, rfl⟩⟩
    have hstep : l.commitPending (r :: rest) = l.commitPending rest := by
      unfold commitPending
      rw [List.foldl_cons, hcom, if_pos rfl]
    rw [hstep]
    exact ih (fun p hp => hc p (List.mem_cons_of_mem _ hp))

theorem acceptsAll_valid {batch : List LedgerRecord} (ha : l.AcceptsAll batch) :
    ∀ r ∈ batch, validateLedgerRecord r = .ok () ∧ r.tenantID = l.tenantID := by
  induction batch generalizing l with
  | nil => intro r hr; cases hr
  | cons r rest ih =>
    intro p hp
    rcases List.mem_cons.1 hp with hp | hp
    · subst hp
      exact ⟨ha.1.valid, ha.1.owned⟩
    · obtain ⟨hv, ht⟩ := ih ha.2 p hp
      exact ⟨hv, by rw [ht, push_tenantID]⟩

private theorem recordsToAppendFrom_fresh {seen batch : List LedgerRecord}
    (hvalid : ∀ r ∈ batch, validateLedgerRecord r = .ok ())
    (hdist : (seen ++ batch).Pairwise
      (fun a b => a.hasIdentity b.recordType b.key b.version = false))
    (hnew : ∀ r ∈ batch, ∀ p ∈ l.records, p.hasIdentity r.recordType r.key r.version = false) :
    l.recordsToAppendFrom seen batch = .ok batch := by
  induction batch generalizing seen with
  | nil => rfl
  | cons r rest ih =>
    have hseen : seen.find? (fun p => p.hasIdentity r.recordType r.key r.version) = none := by
      rw [List.find?_eq_none]
      intro p hp
      rw [List.pairwise_append] at hdist
      simp [hdist.2.2 p hp r List.mem_cons_self]
    have hfind : l.findCommittedRecord r.recordType r.key r.version = none :=
      findCommittedRecord_none.2 (hnew r List.mem_cons_self)
    have hrest : l.recordsToAppendFrom (seen ++ [r]) rest = .ok rest := by
      apply ih
      · intro p hp
        exact hvalid p (List.mem_cons_of_mem _ hp)
      · rw [List.append_assoc]
        exact hdist
      · intro p hp
        exact hnew p (List.mem_cons_of_mem _ hp)
    unfold recordsToAppendFrom
    rw [hvalid r List.mem_cons_self]
    simp only [hseen, hfind, hrest]
    rfl

theorem Built.recordsToAppend_fresh (h : Built t l) {batch : List LedgerRecord}
    (ha : l.AcceptsAll batch) : l.recordsToAppend batch = .ok batch := by
  have hdist := (h.pushAll ha).distinct
  rw [pushAll_records, List.pairwise_append] at hdist
  apply recordsToAppendFrom_fresh
  · exact fun r hr => (acceptsAll_valid ha r hr).1
  · exact hdist.2.1
  · exact fun r hr p hp => hdist.2.2 p hp r hr

private theorem recordsToAppendFrom_committed (h : Built t l) {seen batch : List LedgerRecord}
    (hseen : ∀ r ∈ seen, r ∈ l.records) (hc : ∀ r ∈ batch, r ∈ l.records) :
    l.recordsToAppendFrom seen batch = .ok [] := by
  induction batch generalizing seen with
  | nil => rfl
  | cons r rest ih =>
    have hr : r ∈ l.records := hc r List.mem_cons_self
    have hc' : ∀ p ∈ rest, p ∈ l.records := fun p hp => hc p (List.mem_cons_of_mem _ hp)
    unfold recordsToAppendFrom
    rw [(h.valid r hr).1]
    simp only
    cases hf : seen.find? (fun p => p.hasIdentity r.recordType r.key r.version) with
    | some p =>
      have hpr : p = r := h.eq_of_identity (hseen p (List.mem_of_find?_eq_some hf)) hr
        (by simpa using List.find?_some hf)
      subst hpr
      simp only [immutableLedgerRecordEqual_refl, if_true]
      exact ih hseen hc'
    | none =>
      simp only [h.findCommittedRecord_eq hr, immutableLedgerRecordEqual_refl, if_true]
      apply ih _ hc'
      intro p hp
      rcases List.mem_append.1 hp with hp | hp
      · exact hseen p hp
      · rw [List.mem_singleton] at hp
        subst hp
        exact hr

theorem Built.recordsToAppend_committed (h : Built t l) {batch : List LedgerRecord}
    (hc : ∀ r ∈ batch, r ∈ l.records) : l.recordsToAppend batch = .ok [] :=
  recordsToAppendFrom_committed h (fun _ hr => by cases hr) hc

/-! ## Section 4: Reading the indexes -/

/-- Every committed record is the record of a recordable payload of the
    tenant; only receipts have versions beyond the first. -/
theorem Built.record_cases (h : Built t l) {r : LedgerRecord} (hr : r ∈ l.records) :
    (∃ v rc, rc.Recordable ∧ rc.tenantID = t ∧ r = receiptRecord v rc) ∨
    (∃ s, s.Recordable ∧ s.tenantID = t ∧ r = segmentRecord 1 s) ∨
    (∃ c, c.Recordable ∧ c.tenantID = t ∧ r = checkpointRecord 1 c) := by
  induction h with
  | empty => cases hr
  | @append l r' hl ha ih =>
    rw [push_records, List.mem_append, List.mem_singleton] at hr
    rcases hr with hr | rfl
    · exact ih hr
    · rcases ha.cases with ⟨rc, hrec, ht, hr⟩ | ⟨s, hrec, ht, hr⟩ | ⟨c, hrec, ht, hr⟩
      · exact .inl ⟨_, rc, hrec, ht.trans hl.tenantID_eq, hr⟩
      · exact .inr (.inl ⟨s, hrec, ht.trans hl.tenantID_eq, hr⟩)
      · exact .inr (.inr ⟨c, hrec, ht.trans hl.tenantID_eq, hr⟩)

theorem Built.receipt_facts (h : Built t l) {k : String} {rc : EventReceipt}
    (hk : l.receipts[k]? = some rc) : rc.tenantID = t ∧ rc.Recordable ∧ k = eventKey t rc.eventID := by
  obtain ⟨v, _, hmem, hkey⟩ := (h.receipts_iff k rc).1 hk
  rcases h.record_cases hmem with ⟨_, rc', hrec, ht, heq⟩ | ⟨s, _, _, heq⟩ | ⟨c, _, _, heq⟩
  · have hrc : rc = rc' := Option.some.inj (congrArg LedgerRecord.receipt heq)
    subst hrc
    exact ⟨ht, hrec, by rw [← hkey, ht]⟩
  · exact absurd (congrArg LedgerRecord.recordType heq) (by simp [receiptRecord, segmentRecord])
  · exact absurd (congrArg LedgerRecord.recordType heq) (by simp [receiptRecord, checkpointRecord])

theorem Built.mem_segmentsOf (h : Built t l) {k : String} {s : Segment} :
    s ∈ l.segmentsOf k ↔ segmentRecord 1 s ∈ l.records ∧ streamKey s.tenantID s.streamID = k := by
  rw [h.segmentsOf_eq, List.mem_filterMap]
  constructor
  · intro ⟨r, hr, hs⟩
    rcases h.record_cases hr with ⟨_, rc, _, _, rfl⟩ | ⟨s', _, _, rfl⟩ | ⟨c, _, _, rfl⟩
    · simp at hs
    · simp only [segmentOn_segmentRecord, Option.ite_none_right_eq_some, Option.some.injEq] at hs
      obtain ⟨hkey, rfl⟩ := hs
      exact ⟨hr, hkey⟩
    · simp at hs
  · intro ⟨hr, hkey⟩
    exact ⟨_, hr, by simp [hkey]⟩

theorem Built.mem_checkpointsOf (h : Built t l) {k : String} {c : Checkpoint} :
    c ∈ l.checkpointsOf k ↔
      checkpointRecord 1 c ∈ l.records ∧ streamKey c.tenantID c.streamID = k := by
  rw [h.checkpointsOf_eq, List.mem_filterMap]
  constructor
  · intro ⟨r, hr, hc⟩
    rcases h.record_cases hr with ⟨_, rc, _, _, rfl⟩ | ⟨s', _, _, rfl⟩ | ⟨c', _, _, rfl⟩
    · simp at hc
    · simp at hc
    · simp only [checkpointOn_checkpointRecord, Option.ite_none_right_eq_some,
        Option.some.injEq] at hc
      obtain ⟨hkey, rfl⟩ := hc
      exact ⟨hr, hkey⟩
  · intro ⟨hr, hkey⟩
    exact ⟨_, hr, by simp [hkey]⟩

theorem Built.segment_facts (h : Built t l) {k : String} {s : Segment} (hs : s ∈ l.segmentsOf k) :
    s.tenantID = t ∧ s.Recordable ∧ k = streamKey t s.streamID := by
  obtain ⟨hmem, hkey⟩ := h.mem_segmentsOf.1 hs
  rcases h.record_cases hmem with ⟨_, rc, _, _, heq⟩ | ⟨s', hrec, ht, heq⟩ | ⟨c, _, _, heq⟩
  · exact absurd (congrArg LedgerRecord.recordType heq) (by simp [receiptRecord, segmentRecord])
  · have hss : s = s' := Option.some.inj (congrArg LedgerRecord.segment heq)
    subst hss
    exact ⟨ht, hrec, by rw [← hkey, ht]⟩
  · exact absurd (congrArg LedgerRecord.recordType heq) (by simp [segmentRecord, checkpointRecord])

theorem Built.checkpoint_facts (h : Built t l) {k : String} {c : Checkpoint}
    (hc : c ∈ l.checkpointsOf k) : c.tenantID = t ∧ c.Recordable ∧ k = streamKey t c.streamID := by
  obtain ⟨hmem, hkey⟩ := h.mem_checkpointsOf.1 hc
  rcases h.record_cases hmem with ⟨_, rc, _, _, heq⟩ | ⟨s', _, _, heq⟩ | ⟨c', hrec, ht, heq⟩
  · exact absurd (congrArg LedgerRecord.recordType heq) (by simp [receiptRecord, checkpointRecord])
  · exact absurd (congrArg LedgerRecord.recordType heq) (by simp [segmentRecord, checkpointRecord])
  · have hcc : c = c' := Option.some.inj (congrArg LedgerRecord.checkpoint heq)
    subst hcc
    exact ⟨ht, hrec, by rw [← hkey, ht]⟩

theorem Built.segments_once (h : Built t l) (k : String) :
    (l.segmentsOf k).Pairwise (fun a b => segmentLedgerKey a ≠ segmentLedgerKey b) := by
  rw [h.segmentsOf_eq, List.pairwise_filterMap]
  refine h.distinct.imp_of_mem ?_
  intro a b ha hb hne x hx y hy hkey
  rcases h.record_cases ha with ⟨_, rc, _, _, rfl⟩ | ⟨s, _, _, rfl⟩ | ⟨c, _, _, rfl⟩
  · simp at hx
  · rcases h.record_cases hb with ⟨_, rc, _, _, rfl⟩ | ⟨s', _, _, rfl⟩ | ⟨c, _, _, rfl⟩
    · simp at hy
    · simp only [segmentOn_segmentRecord, Option.ite_none_right_eq_some, Option.some.injEq] at hx hy
      obtain ⟨_, rfl⟩ := hx
      obtain ⟨_, rfl⟩ := hy
      rw [Bool.eq_false_iff] at hne
      exact hne (hasIdentity_iff.2 ⟨rfl, hkey, rfl⟩)
    · simp at hy
  · simp at hx

theorem Built.checkpoint_eq_of_key (h : Built t l) {a b : Checkpoint}
    (ha : checkpointRecord 1 a ∈ l.records) (hb : checkpointRecord 1 b ∈ l.records)
    (hkey : checkpointKey a = checkpointKey b) : a = b := by
  have heq := h.eq_of_identity ha hb (hasIdentity_iff.2 ⟨rfl, hkey, rfl⟩)
  exact Option.some.inj (congrArg LedgerRecord.checkpoint heq)

theorem Built.checkpoints_once (h : Built t l) (k : String) :
    (l.checkpointsOf k).Pairwise (fun a b => checkpointKey a ≠ checkpointKey b) := by
  rw [h.checkpointsOf_eq, List.pairwise_filterMap]
  refine h.distinct.imp_of_mem ?_
  intro a b ha hb hne x hx y hy hkey
  rcases h.record_cases ha with ⟨_, rc, _, _, rfl⟩ | ⟨s, _, _, rfl⟩ | ⟨c, _, _, rfl⟩
  · simp at hx
  · simp at hx
  · rcases h.record_cases hb with ⟨_, rc, _, _, rfl⟩ | ⟨s', _, _, rfl⟩ | ⟨c', _, _, rfl⟩
    · simp at hy
    · simp at hy
    · simp only [checkpointOn_checkpointRecord, Option.ite_none_right_eq_some,
        Option.some.injEq] at hx hy
      obtain ⟨_, rfl⟩ := hx
      obtain ⟨_, rfl⟩ := hy
      rw [Bool.eq_false_iff] at hne
      exact hne (hasIdentity_iff.2 ⟨rfl, hkey, rfl⟩)

end TenantLedger

end AuditGovernance
