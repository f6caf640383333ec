import AuditGovernance.Store.Split

/-! # Ledgers rebuilt from a snapshot

    What `splitTenantSnapshot` produces for a snapshot whose keys are
    canonical: a ledger that can exist, holding one first-version record for
    every receipt, segment and checkpoint of the tenant, in record order. In
    particular the segments of a stream come out ordered by the text of
    their ledger key, whatever order the snapshot listed them in.
-/

namespace AuditGovernance

open FiniteMap TenantLedger

/-! ## Section 1: Record order -/

instance : Std.Total (fun a b : LedgerRecord => ledgerRecordLE a b = true) where
  total a b := by
    simp only [ledgerRecordLE]
    by_cases hty : a.recordType = b.recordType
    · by_cases hk : a.key = b.key
      · simp only [hty, hk, ne_eq, not_true, if_false, decide_eq_true_eq]
        exact Nat.le_total _ _
      · simp only [hty, hk, Ne.symm hk, ne_eq, not_true, not_false_eq_true, if_false, if_true,
          decide_eq_true_eq]
        exact lt_or_gt_of_ne hk
    · have htext : a.recordType.text ≠ b.recordType.text :=
        fun h => hty (LedgerRecordType.text_inj.1 h)
      simp only [hty, Ne.symm hty, ne_eq, not_false_eq_true, if_true, decide_eq_true_eq]
      exact lt_or_gt_of_ne htext

instance : IsTrans LedgerRecord (fun a b => ledgerRecordLE a b = true) where
  trans a b c hab hbc := by
    simp only [ledgerRecordLE] at hab hbc ⊢
    grind

theorem sortLedgerRecords_perm (records : List LedgerRecord) :
    (sortLedgerRecords records).Perm records :=
  List.perm_insertionSort _ _

theorem sortLedgerRecords_sorted (records : List LedgerRecord) :
    (sortLedgerRecords records).Pairwise (fun a b => ledgerRecordLE a b = true) :=
  List.pairwise_insertionSort _ _

/-! ## Section 2: A batch of first versions -/

/-- Two records with different identities. -/
def DifferentIdentity (a b : LedgerRecord) : Prop :=
  a.hasIdentity b.recordType b.key b.version = false

theorem DifferentIdentity.symm {a b : LedgerRecord} (h : DifferentIdentity a b) :
    DifferentIdentity b a := by
  unfold DifferentIdentity at h ⊢
  rw [Bool.eq_false_iff] at h ⊢
  intro hba
  apply h
  rw [hasIdentity_iff] at hba ⊢
  exact ⟨hba.1.symm, hba.2.1.symm, hba.2.2.symm⟩

/-- Well-formed first versions of tenant `t` under pairwise different
    identities. -/
structure FirstVersions (t : String) (batch : List LedgerRecord) : Prop where
  valid : ∀ r ∈ batch, validateLedgerRecord r = .ok ()
  owned : ∀ r ∈ batch, r.tenantID = t
  first : ∀ r ∈ batch, r.version = 1
  distinct : batch.Pairwise DifferentIdentity

theorem FirstVersions.perm {t : String} {batch batch' : List LedgerRecord}
    (h : FirstVersions t batch) (hp : batch'.Perm batch) : FirstVersions t batch' where
  valid r hr := h.valid r (hp.mem_iff.1 hr)
  owned r hr := h.owned r (hp.mem_iff.1 hr)
  first r hr := h.first r (hp.mem_iff.1 hr)
  distinct := h.distinct.perm hp.symm DifferentIdentity.symm

/-- A ledger accepts a first version whose identity it does not have: a
    committed version of the key would already use that identity. -/
theorem accepts_first {t : String} {l : TenantLedger} (hl : Built t l) {r : LedgerRecord}
    (hvalid : validateLedgerRecord r = .ok ()) (howned : r.tenantID = t) (hfirst : r.version = 1)
    (hfresh : ∀ p ∈ l.records, p.hasIdentity r.recordType r.key r.version = false) :
    l.Accepts r := by
  refine ⟨hvalid, by rw [howned, hl.tenantID_eq], ?_, hfresh⟩
  split
  · next hty =>
    have hnone : ¬ 1 ≤ (l.receiptVersions[r.key]?).getD 0 := by
      intro hle
      obtain ⟨p, hp, hid⟩ := (hl.receipt_versions r.key 1).2 ⟨le_refl _, hle⟩
      have hno := hfresh p hp
      rw [hty, hfirst, hid] at hno
      cases hno
    unfold nextVersion
    omega
  · exact hfirst

private theorem acceptsAll_firstVersions_from {t : String} {l : TenantLedger}
    {batch : List LedgerRecord} (hl : Built t l) (h : FirstVersions t (l.records ++ batch)) :
    l.AcceptsAll batch := by
  induction batch generalizing l with
  | nil => trivial
  | cons r rest ih =>
    have hmem : r ∈ l.records ++ r :: rest := by simp
    have hfresh : ∀ p ∈ l.records, p.hasIdentity r.recordType r.key r.version = false := by
      intro p hp
      have hd := h.distinct
      rw [List.pairwise_append] at hd
      exact hd.2.2 p hp r List.mem_cons_self
    have hacc : l.Accepts r :=
      accepts_first hl (h.valid r hmem) (h.owned r hmem) (h.first r hmem) hfresh
    refine ⟨hacc, ih (.append hl hacc) ?_⟩
    rw [push_records, List.append_assoc]
    exact h

theorem FirstVersions.acceptsAll {t : String} {batch : List LedgerRecord}
    (h : FirstVersions t batch) : ({ tenantID := t } : TenantLedger).AcceptsAll batch :=
  acceptsAll_firstVersions_from .empty h

theorem FirstVersions.built {t : String} {batch : List LedgerRecord} (h : FirstVersions t batch) :
    Built t (TenantLedger.new t batch) ∧ (TenantLedger.new t batch).records = batch := by
  have hbuilt := Built.empty.pushAll h.acceptsAll
  have hrecords : (({ tenantID := t } : TenantLedger).pushAll batch).records = batch := by
    simp
  have hnew := hbuilt.new_records
  rw [hrecords] at hnew
  rw [hnew]
  exact ⟨hbuilt, hrecords⟩

theorem receipts_of_firstVersions {t : String} {l : TenantLedger} (hl : Built t l)
    (h : ∀ r ∈ l.records, r.version = 1) (k : String) (rc : EventReceipt) :
    l.receipts[k]? = some rc ↔
      receiptRecord 1 rc ∈ l.records ∧ eventKey rc.tenantID rc.eventID = k := by
  rw [hl.receipts_iff]
  constructor
  · intro ⟨v, _, hmem, hk⟩
    have hv : v = 1 := h _ hmem
    subst hv
    exact ⟨hmem, hk⟩
  · intro ⟨hmem, hk⟩
    refine ⟨1, ?_, hmem, hk⟩
    have hone := (hl.receipt_versions k 1).1
      ⟨_, hmem, by rw [← hk]; exact receiptRecord_hasIdentity 1 rc⟩
    -- the indexed version is itself a committed version, hence 1
    cases hver : l.receiptVersions[k]? with
    | none =>
      rw [hver] at hone
      simp at hone
    | some v =>
      obtain ⟨p, hp, hid⟩ := (hl.receipt_versions k v).2 (by rw [hver] at hone ⊢; simp at hone ⊢; omega)
      rw [← (hasIdentity_iff.1 hid).2.2, h p hp]

/-! ## Section 3: Index dictionaries -/

namespace TenantLedger

theorem Built.segments_lookup {t : String} {l : TenantLedger} (hl : Built t l) (k : String) :
    l.segments[k]? = if l.segmentsOf k = [] then none else some (l.segmentsOf k) := by
  induction hl with
  | empty => simp [segmentsOf]
  | @append l r _ ha ih =>
    rcases ha.cases with ⟨rc, _, _, hr⟩ | ⟨s, _, _, hr⟩ | ⟨c, _, _, hr⟩
    · subst hr
      exact ih
    · subst hr
      unfold segmentsOf at ih ⊢
      rw [push_segmentRecord_segments, lookup_insert]
      split
      · simp
      · exact ih
    · subst hr
      exact ih

theorem Built.checkpoints_lookup {t : String} {l : TenantLedger} (hl : Built t l) (k : String) :
    l.checkpoints[k]? = if l.checkpointsOf k = [] then none else some (l.checkpointsOf k) := by
  induction hl with
  | empty => simp [checkpointsOf]
  | @append l r _ ha ih =>
    rcases ha.cases with ⟨rc, _, _, hr⟩ | ⟨s, _, _, hr⟩ | ⟨c, _, _, hr⟩
    · subst hr
      exact ih
    · subst hr
      exact ih
    · subst hr
      unfold checkpointsOf at ih ⊢
      rw [push_checkpointRecord_checkpoints, lookup_insert]
      split
      · simp
      · exact ih

theorem Built.segments_eq_iff {t t' : String} {l l' : TenantLedger} (hl : Built t l)
    (hl' : Built t' l') : l.segments = l'.segments ↔ ∀ k, l.segmentsOf k = l'.segmentsOf k := by
  constructor
  · intro h k
    unfold segmentsOf
    rw [h]
  · intro h
    apply ext_lookup
    intro k
    rw [hl.segments_lookup, hl'.segments_lookup, h]

theorem Built.checkpoints_eq_iff {t t' : String} {l l' : TenantLedger} (hl : Built t l)
    (hl' : Built t' l') :
    l.checkpoints = l'.checkpoints ↔ ∀ k, l.checkpointsOf k = l'.checkpointsOf k := by
  constructor
  · intro h k
    unfold checkpointsOf
    rw [h]
  · intro h
    apply ext_lookup
    intro k
    rw [hl.checkpoints_lookup, hl'.checkpoints_lookup, h]

end TenantLedger

/-! ## Section 4: Canonical snapshots -/

/-- The evidence of tenant `t` in a snapshot sits under the keys its own
    fields dictate, and no two entries claim one ledger identity. -/
structure CanonicalFor (data : Snapshot) (t : String) : Prop where
  receipts : ∀ k rc, data.receipts[k]? = some rc → receiptOwned t k rc = true →
    rc.tenantID = t ∧ rc.Recordable ∧ k = eventKey t rc.eventID
  segments : ∀ k vs s, data.segments[k]? = some vs → keyBelongsToTenant k t = true → s ∈ vs →
    s.tenantID = t ∧ s.Recordable ∧ k = streamKey t s.streamID
  segmentsOnce : ∀ k vs, data.segments[k]? = some vs → keyBelongsToTenant k t = true →
    vs.Pairwise (fun a b => a.firstSequence ≠ b.firstSequence)
  checkpoints : ∀ k vs c, data.checkpoints[k]? = some vs → keyBelongsToTenant k t = true → c ∈ vs →
    c.tenantID = t ∧ t ≠ "" ∧ c.id ≠ "" ∧ k = streamKey t c.streamID
  checkpointsOnce : ∀ k vs, data.checkpoints[k]? = some vs → keyBelongsToTenant k t = true →
    vs.Pairwise (fun a b => a.id ≠ b.id)
  checkpointsApart : ∀ k k' vs vs' c c', data.checkpoints[k]? = some vs →
    data.checkpoints[k']? = some vs' → keyBelongsToTenant k t = true →
    keyBelongsToTenant k' t = true → k ≠ k' → c ∈ vs → c' ∈ vs' → c.id ≠ c'.id

variable {data : Snapshot} {t : String}

theorem mem_splitReceiptRecords {r : LedgerRecord} :
    r ∈ splitReceiptRecords data t ↔
      ∃ k rc, data.receipts[k]? = some rc ∧ receiptOwned t k rc = true ∧
        r = { tenantID := t, recordType := .receipt, key := k, version := 1
              receipt := some rc } := by
  simp only [splitReceiptRecords, List.mem_filterMap, Option.ite_none_right_eq_some,
    Option.some.injEq, Prod.exists, mem_entries]
  constructor
  · intro ⟨k, rc, hk, hown, hr⟩
    exact ⟨k, rc, hk, hown, hr.symm⟩
  · intro ⟨k, rc, hk, hown, hr⟩
    exact ⟨k, rc, hk, hown, hr.symm⟩

theorem mem_splitSegmentRecords {r : LedgerRecord} :
    r ∈ splitSegmentRecords data t ↔
      ∃ k vs s, data.segments[k]? = some vs ∧ keyBelongsToTenant k t = true ∧ s ∈ vs ∧
        r = { tenantID := t, recordType := .segment, key := segmentLedgerKey s, version := 1
              segment := some s } := by
  simp only [splitSegmentRecords, List.mem_flatMap, List.mem_ite_nil_right, List.mem_map,
    Prod.exists, mem_entries]
  constructor
  · intro ⟨k, vs, hk, hb, s, hs, hr⟩
    exact ⟨k, vs, s, hk, hb, hs, hr.symm⟩
  · intro ⟨k, vs, s, hk, hb, hs, hr⟩
    exact ⟨k, vs, hk, hb, s, hs, hr.symm⟩

theorem mem_splitCheckpointRecords {r : LedgerRecord} :
    r ∈ splitCheckpointRecords data t ↔
      ∃ k vs c, data.checkpoints[k]? = some vs ∧ keyBelongsToTenant k t = true ∧ c ∈ vs ∧
        r = { tenantID := t, recordType := .checkpoint, key := c.id, version := 1
              checkpoint := some c } := by
  simp only [splitCheckpointRecords, List.mem_flatMap, List.mem_ite_nil_right, List.mem_map,
    Prod.exists, mem_entries]
  constructor
  · intro ⟨k, vs, hk, hb, c, hc, hr⟩
    exact ⟨k, vs, c, hk, hb, hc, hr.symm⟩
  · intro ⟨k, vs, c, hk, hb, hc, hr⟩
    exact ⟨k, vs, hk, hb, c, hc, hr.symm⟩

/-- The rebuilt records are exactly the first versions of what the snapshot
    shows. -/
theorem CanonicalFor.mem_splitRecords (h : CanonicalFor data t) (r : LedgerRecord) :
    r ∈ splitRecords data t ↔
      (∃ k rc, data.receipts[k]? = some rc ∧ receiptOwned t k rc = true ∧ r = receiptRecord 1 rc) ∨
      (∃ k vs s, data.segments[k]? = some vs ∧ keyBelongsToTenant k t = true ∧ s ∈ vs ∧
        r = segmentRecord 1 s) ∨
      (∃ k vs c, data.checkpoints[k]? = some vs ∧ keyBelongsToTenant k t = true ∧ c ∈ vs ∧
        r = checkpointRecord 1 c) := by
  unfold splitRecords
  rw [List.mem_append, List.mem_append, or_assoc, mem_splitReceiptRecords,
    mem_splitSegmentRecords, mem_splitCheckpointRecords]
  -- for canonical entries the literal record is the record of its payload
  have hreceipt : ∀ k rc, data.receipts[k]? = some rc → receiptOwned t k rc = true →
      receiptRecord 1 rc =
        { tenantID := t, recordType := .receipt, key := k, version := 1, receipt := some rc } := by
    intro k rc hk hown
    obtain ⟨ht, _, hkey⟩ := h.receipts k rc hk hown
    rw [receiptRecord, ht, hkey]
  have hsegment : ∀ k vs s, data.segments[k]? = some vs → keyBelongsToTenant k t = true → s ∈ vs →
      segmentRecord 1 s =
        { tenantID := t, recordType := .segment, key := segmentLedgerKey s, version := 1
          segment := some s } := by
    intro k vs s hk hb hs
    rw [segmentRecord, (h.segments k vs s hk hb hs).1]
  have hcheckpoint : ∀ k vs c, data.checkpoints[k]? = some vs → keyBelongsToTenant k t = true →
      c ∈ vs → checkpointRecord 1 c =
        { tenantID := t, recordType := .checkpoint, key := c.id, version := 1
          checkpoint := some c } := by
    intro k vs c hk hb hc
    obtain ⟨ht, _, hid, _⟩ := h.checkpoints k vs c hk hb hc
    rw [checkpointRecord, ht, checkpointKey, if_neg hid]
  refine or_congr ?_ (or_congr ?_ ?_)
  · constructor
    · rintro ⟨k, rc, hk, hown, hr⟩
      exact ⟨k, rc, hk, hown, by rw [hr, hreceipt k rc hk hown]⟩
    · rintro ⟨k, rc, hk, hown, hr⟩
      exact ⟨k, rc, hk, hown, by rw [hr, hreceipt k rc hk hown]⟩
  · constructor
    · rintro ⟨k, vs, s, hk, hb, hs, hr⟩
      exact ⟨k, vs, s, hk, hb, hs, by rw [hr, hsegment k vs s hk hb hs]⟩
    · rintro ⟨k, vs, s, hk, hb, hs, hr⟩
      exact ⟨k, vs, s, hk, hb, hs, by rw [hr, hsegment k vs s hk hb hs]⟩
  · constructor
    · rintro ⟨k, vs, c, hk, hb, hc, hr⟩
      exact ⟨k, vs, c, hk, hb, hc, by rw [hr, hcheckpoint k vs c hk hb hc]⟩
    · rintro ⟨k, vs, c, hk, hb, hc, hr⟩
      exact ⟨k, vs, c, hk, hb, hc, by rw [hr, hcheckpoint k vs c hk hb hc]⟩

theorem differentIdentity_of_type {a b : LedgerRecord} (h : a.recordType ≠ b.recordType) :
    DifferentIdentity a b := by
  unfold DifferentIdentity
  rw [Bool.eq_false_iff]
  intro hid
  exact h (hasIdentity_iff.1 hid).1

theorem differentIdentity_of_key {a b : LedgerRecord} (h : a.key ≠ b.key) :
    DifferentIdentity a b := by
  unfold DifferentIdentity
  rw [Bool.eq_false_iff]
  intro hid
  exact h (hasIdentity_iff.1 hid).2.1

private theorem splitReceiptRecords_distinct (data : Snapshot) (t : String) :
    (splitReceiptRecords data t).Pairwise DifferentIdentity := by
  refine (entries_distinct data.receipts).filterMap _ ?_
  intro a b hne x hx y hy
  simp only [Option.ite_none_right_eq_some, Option.some.injEq] at hx hy
  apply differentIdentity_of_key
  rw [← hx.2, ← hy.2]
  exact hne

private theorem splitSegmentRecords_distinct (h : CanonicalFor data t) :
    (splitSegmentRecords data t).Pairwise DifferentIdentity := by
  unfold splitSegmentRecords
  rw [List.pairwise_flatMap]
  constructor
  · intro ⟨k, vs⟩ hmem
    have hk := mem_entries.1 hmem
    by_cases hb : keyBelongsToTenant k t = true
    · simp only [hb, if_true, List.pairwise_map]
      refine (h.segmentsOnce k vs hk hb).imp_of_mem ?_
      intro a b ha hb' hne
      apply differentIdentity_of_key
      have hta := (h.segments k vs a hk hb ha).1
      have htb := (h.segments k vs b hk hb hb').1
      intro heq
      exact hne ((segmentLedgerKey_inj (hta.trans htb.symm)).1 heq).2
    · simp [hb]
  · refine (entries_distinct data.segments).imp_of_mem ?_
    intro ⟨k, vs⟩ ⟨k', vs'⟩ hmem hmem' hne x hx y hy
    have hk := mem_entries.1 hmem
    have hk' := mem_entries.1 hmem'
    simp only [List.mem_ite_nil_right, List.mem_map] at hx hy
    obtain ⟨hb, a, ha, rfl⟩ := hx
    obtain ⟨hb', b, hb2, rfl⟩ := hy
    obtain ⟨hta, _, hka⟩ := h.segments k vs a hk hb ha
    obtain ⟨htb, _, hkb⟩ := h.segments k' vs' b hk' hb' hb2
    apply differentIdentity_of_key
    intro heq
    have hstream := ((segmentLedgerKey_inj (hta.trans htb.symm)).1 heq).1
    exact hne (by simp only [hka, hkb, hstream])

private theorem splitCheckpointRecords_distinct (h : CanonicalFor data t) :
    (splitCheckpointRecords data t).Pairwise DifferentIdentity := by
  unfold splitCheckpointRecords
  rw [List.pairwise_flatMap]
  constructor
  · intro ⟨k, vs⟩ hmem
    have hk := mem_entries.1 hmem
    by_cases hb : keyBelongsToTenant k t = true
    · simp only [hb, if_true, List.pairwise_map]
      exact (h.checkpointsOnce k vs hk hb).imp (fun hne => differentIdentity_of_key hne)
    · simp [hb]
  · refine (entries_distinct data.checkpoints).imp_of_mem ?_
    intro ⟨k, vs⟩ ⟨k', vs'⟩ hmem hmem' hne x hx y hy
    have hk := mem_entries.1 hmem
    have hk' := mem_entries.1 hmem'
    simp only [List.mem_ite_nil_right, List.mem_map] at hx hy
    obtain ⟨hb, a, ha, rfl⟩ := hx
    obtain ⟨hb', b, hb2, rfl⟩ := hy
    exact differentIdentity_of_key (h.checkpointsApart k k' vs vs' a b hk hk' hb hb' hne ha hb2)

theorem CanonicalFor.firstVersions (h : CanonicalFor data t) :
    FirstVersions t (splitRecords data t) := by
  have hform : ∀ r ∈ splitRecords data t,
      validateLedgerRecord r = .ok () ∧ r.tenantID = t ∧ r.version = 1 := by
    intro r hr
    rcases (h.mem_splitRecords r).1 hr with ⟨k, rc, hk, hown, rfl⟩ | ⟨k, vs, s, hk, hb, hs, rfl⟩ |
      ⟨k, vs, c, hk, hb, hc, rfl⟩
    · obtain ⟨ht, hrec, _⟩ := h.receipts k rc hk hown
      exact ⟨validate_receiptRecord one_ne_zero hrec, ht, rfl⟩
    · obtain ⟨ht, hrec, _⟩ := h.segments k vs s hk hb hs
      exact ⟨validate_segmentRecord one_ne_zero hrec, ht, rfl⟩
    · obtain ⟨ht, hne, hid, _⟩ := h.checkpoints k vs c hk hb hc
      exact ⟨validate_checkpointRecord one_ne_zero ⟨by rw [ht]; exact hne, fun h0 => absurd h0 hid⟩,
        ht, rfl⟩
  refine ⟨fun r hr => (hform r hr).1, fun r hr => (hform r hr).2.1, fun r hr => (hform r hr).2.2, ?_⟩
  unfold splitRecords
  rw [List.pairwise_append, List.pairwise_append]
  refine ⟨⟨splitReceiptRecords_distinct data t, splitSegmentRecords_distinct h, ?_⟩,
    splitCheckpointRecords_distinct h, ?_⟩
  · intro a ha b hb
    obtain ⟨_, _, _, _, rfl⟩ := mem_splitReceiptRecords.1 ha
    obtain ⟨_, _, _, _, _, _, rfl⟩ := mem_splitSegmentRecords.1 hb
    exact differentIdentity_of_type (by simp)
  · intro a ha b hb
    obtain ⟨_, _, _, _, _, _, rfl⟩ := mem_splitCheckpointRecords.1 hb
    rcases List.mem_append.1 ha with ha | ha
    · obtain ⟨_, _, _, _, rfl⟩ := mem_splitReceiptRecords.1 ha
      exact differentIdentity_of_type (by simp)
    · obtain ⟨_, _, _, _, _, _, rfl⟩ := mem_splitSegmentRecords.1 ha
      exact differentIdentity_of_type (by simp)

/-! ## Section 5: The rebuilt ledger -/

/-- The receipts a snapshot shows of a tenant. -/
def ownedReceipts (data : Snapshot) (t : String) : Dict EventReceipt :=
  collect (fun k rc => if receiptOwned t k rc then some rc else none) data.receipts

/-- The segments a snapshot shows of a tenant on the stream `k`. -/
def ownedSegments (data : Snapshot) (t k : String) : List Segment :=
  if keyBelongsToTenant k t then (data.segments[k]?).getD [] else []

/-- The checkpoints a snapshot shows of a tenant on the stream `k`. -/
def ownedCheckpoints (data : Snapshot) (t k : String) : List Checkpoint :=
  if keyBelongsToTenant k t then (data.checkpoints[k]?).getD [] else []

theorem CanonicalFor.built (h : CanonicalFor data t) :
    Built t (splitTenantSnapshot data t).ledger ∧
      (splitTenantSnapshot data t).ledger.records = sortLedgerRecords (splitRecords data t) :=
  (h.firstVersions.perm (sortLedgerRecords_perm _)).built

theorem CanonicalFor.mem_records (h : CanonicalFor data t) (r : LedgerRecord) :
    r ∈ (splitTenantSnapshot data t).ledger.records ↔ r ∈ splitRecords data t := by
  rw [h.built.2]
  exact (sortLedgerRecords_perm _).mem_iff

theorem CanonicalFor.records_first (h : CanonicalFor data t) :
    ∀ r ∈ (splitTenantSnapshot data t).ledger.records, r.version = 1 := by
  intro r hr
  exact h.firstVersions.first r ((h.mem_records r).1 hr)

theorem CanonicalFor.receipts_eq (h : CanonicalFor data t) :
    (splitTenantSnapshot data t).ledger.receipts = ownedReceipts data t := by
  apply ext_lookup
  intro k
  apply Option.ext
  intro rc
  rw [receipts_of_firstVersions h.built.1 h.records_first, h.mem_records, h.mem_splitRecords,
    ownedReceipts, lookup_collect]
  simp only [Option.bind_eq_some_iff, Option.ite_none_right_eq_some, Option.some.injEq]
  constructor
  · rintro ⟨hmem, hkey⟩
    rcases hmem with ⟨k', rc', hk', hown, heq⟩ | ⟨_, _, s, _, _, _, heq⟩ | ⟨_, _, c, _, _, _, heq⟩
    · have hrc : rc = rc' := Option.some.inj (congrArg LedgerRecord.receipt heq)
      subst hrc
      obtain ⟨ht, _, hcan⟩ := h.receipts k' rc hk' hown
      rw [ht, ← hcan] at hkey
      subst hkey
      exact ⟨rc, hk', hown, rfl⟩
    · exact absurd (congrArg LedgerRecord.recordType heq) (by simp [receiptRecord, segmentRecord])
    · exact absurd (congrArg LedgerRecord.recordType heq)
        (by simp [receiptRecord, checkpointRecord])
  · rintro ⟨rc', hk', hown, hrc⟩
    subst hrc
    obtain ⟨ht, _, hcan⟩ := h.receipts k rc' hk' hown
    exact ⟨.inl ⟨k, rc', hk', hown, rfl⟩, by rw [ht, hcan]⟩

theorem splitSegmentRecords_on (h : CanonicalFor data t) (k : String) :
    (splitSegmentRecords data t).filterMap (segmentOn k) = ownedSegments data t k := by
  have hentry : ∀ p ∈ data.segments.toList,
      ((if keyBelongsToTenant p.1 t then
          p.2.map fun segment =>
            ({ tenantID := t, recordType := .segment, key := segmentLedgerKey segment
               version := 1, segment := some segment } : LedgerRecord)
        else []).filterMap (segmentOn k)) =
      if p.1 = k then (if keyBelongsToTenant k t then p.2 else []) else [] := by
    intro ⟨k', vs⟩ hmem
    have hk' := mem_entries.1 hmem
    by_cases hb : keyBelongsToTenant k' t = true
    · -- every segment of the entry lies on the entry's stream
      have hon : ∀ s ∈ vs, streamKey s.tenantID s.streamID = k' := by
        intro s hs
        obtain ⟨ht, _, hkey⟩ := h.segments k' vs s hk' hb hs
        rw [ht, hkey]
      simp only [hb, if_true, List.filterMap_map]
      by_cases hk : k' = k
      · subst hk
        simp only [hb, if_true]
        rw [List.filterMap_congr (g := some)]
        · simp
        · intro s hs
          simp [segmentOn, hon s hs]
      · rw [if_neg hk, List.filterMap_eq_nil_iff]
        intro s hs
        simp [segmentOn, hon s hs, hk]
    · by_cases hk : k' = k
      · subst hk
        simp [hb]
      · simp [hb, hk]
  unfold splitSegmentRecords
  rw [List.filterMap_flatMap, List.flatMap_congr hentry,
    flatMap_entry data.segments k (fun vs => if keyBelongsToTenant k t then vs else [])]
  unfold ownedSegments
  cases data.segments[k]? <;> simp

theorem splitCheckpointRecords_on (h : CanonicalFor data t) (k : String) :
    (splitCheckpointRecords data t).filterMap (checkpointOn k) = ownedCheckpoints data t k := by
  have hentry : ∀ p ∈ data.checkpoints.toList,
      ((if keyBelongsToTenant p.1 t then
          p.2.map fun checkpoint =>
            ({ tenantID := t, recordType := .checkpoint, key := checkpoint.id
               version := 1, checkpoint := some checkpoint } : LedgerRecord)
        else []).filterMap (checkpointOn k)) =
      if p.1 = k then (if keyBelongsToTenant k t then p.2 else []) else [] := by
    intro ⟨k', vs⟩ hmem
    have hk' := mem_entries.1 hmem
    by_cases hb : keyBelongsToTenant k' t = true
    · have hon : ∀ c ∈ vs, streamKey c.tenantID c.streamID = k' := by
        intro c hc
        obtain ⟨ht, _, _, hkey⟩ := h.checkpoints k' vs c hk' hb hc
        rw [ht, hkey]
      simp only [hb, if_true, List.filterMap_map]
      by_cases hk : k' = k
      · subst hk
        simp only [hb, if_true]
        rw [List.filterMap_congr (g := some)]
        · simp
        · intro c hc
          simp [checkpointOn, hon c hc]
      · rw [if_neg hk, List.filterMap_eq_nil_iff]
        intro c hc
        simp [checkpointOn, hon c hc, hk]
    · by_cases hk : k' = k
      · subst hk
        simp [hb]
      · simp [hb, hk]
  unfold splitCheckpointRecords
  rw [List.filterMap_flatMap, List.flatMap_congr hentry,
    flatMap_entry data.checkpoints k (fun vs => if keyBelongsToTenant k t then vs else [])]
  unfold ownedCheckpoints
  cases data.checkpoints[k]? <;> simp

theorem CanonicalFor.segmentsOf_perm (h : CanonicalFor data t) (k : String) :
    ((splitTenantSnapshot data t).ledger.segmentsOf k).Perm (ownedSegments data t k) := by
  have hother : ∀ records : List LedgerRecord, (∀ r ∈ records, r.segment = none) →
      records.filterMap (segmentOn k) = [] := by
    intro records hnone
    rw [List.filterMap_eq_nil_iff]
    intro r hr
    simp [segmentOn, hnone r hr]
  have hreceipts : (splitReceiptRecords data t).filterMap (segmentOn k) = [] := by
    apply hother
    intro r hr
    obtain ⟨_, _, _, _, rfl⟩ := mem_splitReceiptRecords.1 hr
    rfl
  have hcheckpoints : (splitCheckpointRecords data t).filterMap (segmentOn k) = [] := by
    apply hother
    intro r hr
    obtain ⟨_, _, _, _, _, _, rfl⟩ := mem_splitCheckpointRecords.1 hr
    rfl
  rw [h.built.1.segmentsOf_eq, h.built.2]
  refine ((sortLedgerRecords_perm _).filterMap _).trans ?_
  unfold splitRecords
  rw [List.filterMap_append, List.filterMap_append, hreceipts, hcheckpoints,
    splitSegmentRecords_on h]
  simp

theorem CanonicalFor.checkpointsOf_perm (h : CanonicalFor data t) (k : String) :
    ((splitTenantSnapshot data t).ledger.checkpointsOf k).Perm (ownedCheckpoints data t k) := by
  have hother : ∀ records : List LedgerRecord, (∀ r ∈ records, r.checkpoint = none) →
      records.filterMap (checkpointOn k) = [] := by
    intro records hnone
    rw [List.filterMap_eq_nil_iff]
    intro r hr
    simp [checkpointOn, hnone r hr]
  have hreceipts : (splitReceiptRecords data t).filterMap (checkpointOn k) = [] := by
    apply hother
    intro r hr
    obtain ⟨_, _, _, _, rfl⟩ := mem_splitReceiptRecords.1 hr
    rfl
  have hsegments : (splitSegmentRecords data t).filterMap (checkpointOn k) = [] := by
    apply hother
    intro r hr
    obtain ⟨_, _, _, _, _, _, rfl⟩ := mem_splitSegmentRecords.1 hr
    rfl
  rw [h.built.1.checkpointsOf_eq, h.built.2]
  refine ((sortLedgerRecords_perm _).filterMap _).trans ?_
  unfold splitRecords
  rw [List.filterMap_append, List.filterMap_append, hreceipts, hsegments,
    splitCheckpointRecords_on h]
  simp

theorem CanonicalFor.records_ordered (h : CanonicalFor data t) :
    (splitTenantSnapshot data t).ledger.records.Pairwise
      (fun a b => a.recordType = b.recordType → a.key < b.key) := by
  have hsorted := sortLedgerRecords_sorted (splitRecords data t)
  rw [← h.built.2] at hsorted
  refine (hsorted.and h.built.1.distinct).imp_of_mem ?_
  intro a b ha hb ⟨hle, hne⟩ hty
  have hkey : a.key ≠ b.key := by
    intro hk
    rw [Bool.eq_false_iff] at hne
    apply hne
    rw [hasIdentity_iff]
    exact ⟨hty, hk, by rw [h.records_first a ha, h.records_first b hb]⟩
  simp only [ledgerRecordLE, hty, hkey, ne_eq, not_true, not_false_eq_true, if_true, if_false,
    decide_eq_true_eq] at hle
  exact hle

theorem CanonicalFor.segmentsOf_ordered (h : CanonicalFor data t) (k : String) :
    ((splitTenantSnapshot data t).ledger.segmentsOf k).Pairwise
      (fun a b => segmentLedgerKey a < segmentLedgerKey b) := by
  have hshape : ∀ r ∈ (splitTenantSnapshot data t).ledger.records, ∀ s, segmentOn k r = some s →
      r.recordType = .segment ∧ r.key = segmentLedgerKey s := by
    intro r hr s hs
    have hseg : r.segment = some s := by
      unfold segmentOn at hs
      exact (Option.filter_eq_some_iff.1 hs).1
    obtain ⟨_, ⟨rc, heq, _⟩ | ⟨s', heq, _⟩ | ⟨c, heq, _⟩⟩ :=
      validate_cases (h.built.1.valid r hr).1
    · rw [heq] at hseg
      cases hseg
    · rw [heq] at hseg ⊢
      cases hseg
      exact ⟨rfl, rfl⟩
    · rw [heq] at hseg
      cases hseg
  rw [h.built.1.segmentsOf_eq, List.pairwise_filterMap]
  refine h.records_ordered.imp_of_mem ?_
  intro a b ha hb hlt x hx y hy
  obtain ⟨hta, hka⟩ := hshape a ha x hx
  obtain ⟨htb, hkb⟩ := hshape b hb y hy
  rw [← hka, ← hkb]
  exact hlt (hta.trans htb.symm)

theorem CanonicalFor.checkpointsOf_ordered (h : CanonicalFor data t) (k : String) :
    ((splitTenantSnapshot data t).ledger.checkpointsOf k).Pairwise
      (fun a b => checkpointKey a < checkpointKey b) := by
  have hshape : ∀ r ∈ (splitTenantSnapshot data t).ledger.records, ∀ c,
      checkpointOn k r = some c → r.recordType = .checkpoint ∧ r.key = checkpointKey c := by
    intro r hr c hc
    have hcp : r.checkpoint = some c := by
      unfold checkpointOn at hc
      exact (Option.filter_eq_some_iff.1 hc).1
    obtain ⟨_, ⟨rc, heq, _⟩ | ⟨s', heq, _⟩ | ⟨c', heq, _⟩⟩ :=
      validate_cases (h.built.1.valid r hr).1
    · rw [heq] at hcp
      cases hcp
    · rw [heq] at hcp
      cases hcp
    · rw [heq] at hcp ⊢
      cases hcp
      exact ⟨rfl, rfl⟩
  rw [h.built.1.checkpointsOf_eq, List.pairwise_filterMap]
  refine h.records_ordered.imp_of_mem ?_
  intro a b ha hb hlt x hx y hy
  obtain ⟨hta, hka⟩ := hshape a ha x hx
  obtain ⟨htb, hkb⟩ := hshape b hb y hy
  rw [← hka, ← hkb]
  exact hlt (hta.trans htb.symm)

theorem eq_of_resorted {α : Type} {key : α → String} {sorted listed : List α}
    (hp : sorted.Perm listed) (hs : sorted.Pairwise (fun a b => key a < key b)) :
    listed = sorted ↔ listed.Pairwise (fun a b => key a < key b) := by
  constructor
  · intro h
    rw [h]
    exact hs
  · intro h
    refine (hp.eq_of_pairwise ?_ hs h).symm
    intro a b _ _ hab hba
    exact absurd (lt_trans hab hba) (lt_irrefl _)

theorem CanonicalFor.segmentsOf_eq_iff (h : CanonicalFor data t) (k : String) :
    ownedSegments data t k = (splitTenantSnapshot data t).ledger.segmentsOf k ↔
      (ownedSegments data t k).Pairwise (fun a b => segmentLedgerKey a < segmentLedgerKey b) :=
  eq_of_resorted (h.segmentsOf_perm k) (h.segmentsOf_ordered k)

theorem CanonicalFor.checkpointsOf_eq_iff (h : CanonicalFor data t) (k : String) :
    ownedCheckpoints data t k = (splitTenantSnapshot data t).ledger.checkpointsOf k ↔
      (ownedCheckpoints data t k).Pairwise (fun a b => checkpointKey a < checkpointKey b) :=
  eq_of_resorted (h.checkpointsOf_perm k) (h.checkpointsOf_ordered k)

/-! ## Section 6: Tenants a snapshot names -/

/-- The snapshot mentions tenant `t`: in the control plane or by a key of its
    evidence. -/
def SnapshotNames (data : Snapshot) (t : String) : Prop :=
  t ≠ "" ∧ ((data.tenants[t]?).isSome ∨
    (∃ (k : String) (v : Event), data.events[k]? = some v ∧ keyBelongsToTenant k t = true) ∨
    (∃ (k : String) (v : EventReceipt), data.receipts[k]? = some v ∧
      keyBelongsToTenant k t = true) ∨
    (∃ (k : String) (v : StreamState), data.streams[k]? = some v ∧
      keyBelongsToTenant k t = true) ∨
    (∃ (k : String) (v : List Segment), data.segments[k]? = some v ∧
      keyBelongsToTenant k t = true) ∨
    (∃ (k : String) (v : List Checkpoint), data.checkpoints[k]? = some v ∧
      keyBelongsToTenant k t = true))

theorem lookup_addKeys {V : Type} (ids : Dict Unit) (m : Dict V) (t : String) :
    ((addKeys ids m)[t]?).isSome = true ↔ (ids[t]?).isSome = true ∨ (m[t]?).isSome = true := by
  have hstep : ∀ (acc : Dict Unit) (p : String × V),
      ((acc.insert p.1 ())[t]?).isSome = true ↔ (acc[t]?).isSome = true ∨ p.1 = t := by
    intro acc p
    rw [lookup_insert]
    by_cases hp : p.1 = t
    · simp [hp]
    · simp [hp]
  refine (isSome_foldl_marks hstep m.toList ids).trans (or_congr Iff.rfl ?_)
  rw [Option.isSome_iff_exists]
  constructor
  · intro ⟨p, hp, ht⟩
    subst ht
    exact ⟨p.2, mem_entries.1 hp⟩
  · intro ⟨v, hv⟩
    exact ⟨(t, v), mem_entries.2 hv, rfl⟩

theorem lookup_addOwners {V : Type} (ids : Dict Unit) (m : Dict V) (t : String) :
    ((addOwners ids m)[t]?).isSome = true ↔
      (ids[t]?).isSome = true ∨
        ∃ (k : String) (v : V), m[k]? = some v ∧ keyBelongsToTenant k t = true := by
  refine (isSome_foldl_marks (P := fun p : String × V => keyBelongsToTenant p.1 t = true)
    ?_ m.toList ids).trans (or_congr Iff.rfl ?_)
  · intro acc p
    cases hsplit : splitTenantKey p.1 with
    | none => simp [keyBelongsToTenant, hsplit]
    | some q =>
      obtain ⟨owner, rest⟩ := q
      simp only [lookup_insert, keyBelongsToTenant, hsplit, beq_iff_eq]
      by_cases ho : owner = t
      · simp [ho]
      · simp [ho]
  · constructor
    · intro ⟨p, hp, hb⟩
      exact ⟨p.1, p.2, mem_entries.1 hp, hb⟩
    · intro ⟨k, v, hk, hb⟩
      exact ⟨(k, v), mem_entries.2 hk, hb⟩

theorem tenantIDsFromSnapshot_iff (data : Snapshot) (t : String) :
    ((tenantIDsFromSnapshot data)[t]?).isSome = true ↔ SnapshotNames data t := by
  unfold tenantIDsFromSnapshot SnapshotNames
  rw [lookup_erase]
  by_cases ht : t = ""
  · simp [ht]
  · rw [if_neg (Ne.symm ht), lookup_addOwners, lookup_addOwners, lookup_addOwners,
      lookup_addOwners, lookup_addOwners, lookup_addKeys]
    simp only [lookup_empty, Option.isSome_none, Bool.false_eq_true, false_or, or_assoc, ht,
      ne_eq, not_false_eq_true, true_and]

theorem lookup_splitTenants (data : Snapshot) (t : String) (state : TenantState) :
    (splitTenants data)[t]? = some state ↔
      SnapshotNames data t ∧ state = splitTenantSnapshot data t := by
  unfold splitTenants
  rw [lookup_collect, ← tenantIDsFromSnapshot_iff, Option.isSome_iff_exists]
  simp only [Option.bind_eq_some_iff, Option.some.injEq]
  constructor
  · intro ⟨u, hu, heq⟩
    exact ⟨⟨u, hu⟩, heq.symm⟩
  · intro ⟨⟨u, hu⟩, heq⟩
    exact ⟨u, hu, heq.symm⟩

end AuditGovernance
