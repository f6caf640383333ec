import AuditGovernance.Framework.Transition
import AuditGovernance.Store.LedgerView

/-! # Indexes of the tenant ledger

    The in-memory representation of one tenant's ledger
    (`internal/store/ledger.go`) with everything `Store.Ledger` leaves out:
    the position hints of the committed records and the receipts a view has
    read through to its parent. Any number of views may be open on one
    ledger; each buffers its records until it is committed or discarded.
    The set `pendingRecordKey` is written by the source and read by nothing,
    and is left out.

    Whatever the views do, the ledger is the replay of some list of records,
    so every fact about its indexes is a fact about replays.
-/

namespace AuditGovernance

open FiniteMap TenantLedger Transition

/-! ## Section 1: The ledger with its position hints -/

/-- The committed index and, for each identity, the place of its record. -/
structure IndexedLedger extends TenantLedger where
  recordPositions : Dict Nat := ∅
deriving DecidableEq

namespace IndexedLedger

/-- The tail of `applyRecord`: retain a record whose payload has been indexed
    and note where it stands. -/
def retainAt (l : IndexedLedger) (indexed : TenantLedger) (r : LedgerRecord) : IndexedLedger :=
  { toTenantLedger := indexed.retain r
    recordPositions := l.recordPositions.insert r.identity ((indexed.retain r).records.length - 1) }

/-- A record without a tenant gets the ledger's. -/
def adopt (l : IndexedLedger) (record : LedgerRecord) : LedgerRecord :=
  if record.tenantID = "" then { record with tenantID := l.tenantID } else record

/-- `applyRecord`. -/
def applyRecord (l : IndexedLedger) (record : LedgerRecord) : IndexedLedger :=
  let r := l.adopt record
  if r.tenantID ≠ l.tenantID ∨ r.version = 0 then l
  else if l.hasCommittedRecord r.recordType r.key r.version then l
  else
    match r.recordType with
    | .receipt =>
      match r.receipt with
      | none => l
      | some receipt =>
        if r.version ≤ (l.receiptVersions[r.key]?).getD 0 then l
        else l.retainAt (l.indexReceipt r.key r.version receipt) r
    | .segment =>
      match r.segment with
      | none => l
      | some segment => l.retainAt (l.indexSegment segment) r
    | .checkpoint =>
      match r.checkpoint with
      | none => l
      | some checkpoint => l.retainAt (l.indexCheckpoint checkpoint) r

/-- `newTenantLedger`. -/
def new (tenantID : String) (records : List LedgerRecord) : IndexedLedger :=
  records.foldl applyRecord { tenantID := tenantID }

/-- `commitPending` on the ledger that the views share. -/
def commitPending (l : IndexedLedger) (records : List LedgerRecord) : IndexedLedger :=
  records.foldl (fun acc r =>
    if acc.hasCommittedRecord r.recordType r.key r.version then acc else acc.applyRecord r) l

/-- `localCommittedRecord`: the hint is used only when the record it points
    at is the one asked for; otherwise the whole list is scanned. -/
def localCommittedRecord (l : IndexedLedger) (recordType : LedgerRecordType) (key : String)
    (version : Nat) : Option LedgerRecord :=
  let scan := l.findCommittedRecord recordType key version
  match l.recordPositions[ledgerRecordIdentity recordType key version]? with
  | none => scan
  | some index =>
    match l.records[index]? with
    | none => scan
    | some r =>
      if r.tenantID = l.tenantID ∧ r.hasIdentity recordType key version = true then some r
      else scan

end IndexedLedger

namespace IndexedLedger

/-! ### Replays -/

/-- `applyRecord` keeps `r` as it is. -/
structure Keeps (l : IndexedLedger) (r : LedgerRecord) : Prop where
  owned : r.tenantID = l.tenantID
  version : r.version ≠ 0
  fresh : l.hasCommittedRecord r.recordType r.key r.version = false
  payload : match r.recordType with
    | .receipt => r.receipt.isSome ∧ (l.receiptVersions[r.key]?).getD 0 < r.version
    | .segment => r.segment.isSome
    | .checkpoint => r.checkpoint.isSome

/-- The ledger with one more record. -/
def keep (l : IndexedLedger) (r : LedgerRecord) : IndexedLedger :=
  { toTenantLedger := l.push r
    recordPositions := l.recordPositions.insert r.identity l.records.length }

theorem adopt_of_owned {l : IndexedLedger} {r : LedgerRecord} (h : r.tenantID = l.tenantID) :
    l.adopt r = r := by
  unfold adopt
  split_ifs with hempty
  · rw [← h]
  · rfl

theorem applyRecord_of_keeps {l : IndexedLedger} {r : LedgerRecord} (h : l.Keeps r) :
    l.applyRecord r = l.keep r := by
  have hpayload := h.payload
  unfold applyRecord
  simp only [adopt_of_owned h.owned]
  rw [if_neg (by simp [h.owned, h.version]), h.fresh, if_neg Bool.false_ne_true]
  unfold keep push
  cases htype : r.recordType with
  | receipt =>
    rw [htype] at hpayload
    obtain ⟨rc, hrc⟩ := Option.isSome_iff_exists.1 hpayload.1
    simp only [hrc]
    rw [if_neg (Nat.not_le.2 hpayload.2)]
    simp [retainAt, retain, indexReceipt]
  | segment =>
    rw [htype] at hpayload
    obtain ⟨segment, hsegment⟩ := Option.isSome_iff_exists.1 hpayload
    simp [hsegment, retainAt, retain, indexSegment]
  | checkpoint =>
    rw [htype] at hpayload
    obtain ⟨checkpoint, hcheckpoint⟩ := Option.isSome_iff_exists.1 hpayload
    simp [hcheckpoint, retainAt, retain, indexCheckpoint]

theorem applyRecord_cases (l : IndexedLedger) (record : LedgerRecord) :
    l.applyRecord record = l ∨
      (l.Keeps (l.adopt record) ∧ l.applyRecord record = l.keep (l.adopt record)) := by
  by_cases hkeeps : l.Keeps (l.adopt record)
  · refine .inr ⟨hkeeps, ?_⟩
    rw [← applyRecord_of_keeps hkeeps]
    unfold applyRecord
    simp only [adopt_of_owned hkeeps.owned]
  · left
    unfold applyRecord
    generalize l.adopt record = r at hkeeps
    simp only
    by_cases hown : r.tenantID ≠ l.tenantID ∨ r.version = 0
    · rw [if_pos hown]
    rw [if_neg hown]
    by_cases hcommitted : l.hasCommittedRecord r.recordType r.key r.version = true
    · rw [if_pos hcommitted]
    rw [if_neg hcommitted]
    rw [not_or, not_not] at hown
    have hfresh : l.hasCommittedRecord r.recordType r.key r.version = false :=
      Bool.eq_false_iff.2 hcommitted
    cases htype : r.recordType with
    | receipt =>
      cases hrc : r.receipt with
      | none => rfl
      | some rc =>
        simp only
        by_cases hle : r.version ≤ (l.receiptVersions[r.key]?).getD 0
        · rw [if_pos hle]
        · refine absurd ⟨hown.1, hown.2, hfresh, ?_⟩ hkeeps
          rw [htype, hrc]
          exact ⟨rfl, Nat.lt_of_not_le hle⟩
    | segment =>
      cases hsegment : r.segment with
      | none => rfl
      | some segment =>
        refine absurd ⟨hown.1, hown.2, hfresh, ?_⟩ hkeeps
        rw [htype, hsegment]
        rfl
    | checkpoint =>
      cases hcheckpoint : r.checkpoint with
      | none => rfl
      | some checkpoint =>
        refine absurd ⟨hown.1, hown.2, hfresh, ?_⟩ hkeeps
        rw [htype, hcheckpoint]
        rfl

/-- Ledgers of tenant `t` that a list of records can load. -/
inductive Replayed (t : String) : IndexedLedger → Prop where
  | empty : Replayed t { tenantID := t }
  | keep {l : IndexedLedger} {r : LedgerRecord} :
      Replayed t l → l.Keeps r → Replayed t (l.keep r)

theorem Replayed.applyRecord {t : String} {l : IndexedLedger} (h : Replayed t l)
    (record : LedgerRecord) : Replayed t (l.applyRecord record) := by
  rcases l.applyRecord_cases record with heq | ⟨hkeeps, heq⟩
  · rw [heq]
    exact h
  · rw [heq]
    exact .keep h hkeeps

theorem Replayed.foldl {t : String} {l : IndexedLedger} (h : Replayed t l)
    (records : List LedgerRecord) : Replayed t (records.foldl IndexedLedger.applyRecord l) := by
  induction records generalizing l with
  | nil => exact h
  | cons r rest ih => exact ih (h.applyRecord r)

theorem replayed_new (t : String) (records : List LedgerRecord) : Replayed t (new t records) :=
  Replayed.empty.foldl records

theorem commitPending_eq (l : IndexedLedger) (records : List LedgerRecord) :
    l.commitPending records = records.foldl applyRecord l := by
  unfold commitPending
  congr 1
  funext acc r
  split_ifs with hcommitted
  · unfold applyRecord adopt
    by_cases hempty : r.tenantID = ""
    · simp [hempty, hcommitted]
    · simp only [hempty, if_false, hcommitted, if_true, ite_self]
  · rfl

theorem Replayed.commitPending {t : String} {l : IndexedLedger} (h : Replayed t l)
    (records : List LedgerRecord) : Replayed t (l.commitPending records) := by
  rw [commitPending_eq]
  exact h.foldl records

variable {t : String} {l : IndexedLedger}

/-- **Rebuild.** Loading the committed records gives every index again. -/
theorem Replayed.new_records (h : Replayed t l) : new t l.records = l := by
  induction h with
  | empty => rfl
  | @keep l r hl hkeeps ih =>
    have hrecords : (l.keep r).records = l.records ++ [r] := push_records _ _
    rw [hrecords]
    unfold new at ih ⊢
    rw [List.foldl_append, ih]
    exact applyRecord_of_keeps hkeeps

theorem Replayed.tenantID_eq (h : Replayed t l) : l.tenantID = t := by
  induction h with
  | empty => rfl
  | keep hl hkeeps ih => exact (push_tenantID _ _).trans ih

theorem Replayed.owned (h : Replayed t l) : ∀ r ∈ l.records, r.tenantID = t := by
  induction h with
  | empty => intro r hr; cases hr
  | @keep l r hl hkeeps ih =>
    intro p hp
    rw [show (l.keep r).records = l.records ++ [r] from push_records _ _, List.mem_append,
      List.mem_singleton] at hp
    rcases hp with hp | rfl
    · exact ih p hp
    · exact hkeeps.owned.trans hl.tenantID_eq

theorem Replayed.hasCommittedRecord_iff (h : Replayed t l) (ty : LedgerRecordType) (k : String)
    (n : Nat) :
    l.hasCommittedRecord ty k n = true ↔ ∃ r ∈ l.records, r.hasIdentity ty k n = true := by
  induction h with
  | empty => simp [hasCommittedRecord]
  | @keep l r hl hkeeps ih =>
    have hstep : (l.keep r).hasCommittedRecord ty k n =
        (l.committedRecordKey.insert r.identity ()).contains (ledgerRecordIdentity ty k n) :=
      congrArg (fun m => Std.ExtTreeMap.contains m (ledgerRecordIdentity ty k n))
        (push_committedRecordKey l.toTenantLedger r)
    have hrecords : (l.keep r).records = l.records ++ [r] := push_records _ _
    unfold hasCommittedRecord at ih
    rw [hstep, hrecords]
    simp only [Std.ExtTreeMap.contains_insert, Bool.or_eq_true, ih, List.mem_append,
      List.mem_singleton, beq_iff_eq, Std.compare_eq_iff_eq, identity_eq_iff]
    constructor
    · intro hor
      rcases hor with hr | ⟨p, hp, hid⟩
      · exact ⟨r, .inr rfl, hr⟩
      · exact ⟨p, .inl hp, hid⟩
    · rintro ⟨p, hp | rfl, hid⟩
      · exact .inr ⟨p, hp, hid⟩
      · exact .inl hid

theorem Replayed.distinct (h : Replayed t l) :
    l.records.Pairwise (fun a b => a.hasIdentity b.recordType b.key b.version = false) := by
  induction h with
  | empty => exact List.Pairwise.nil
  | @keep l r hl hkeeps ih =>
    rw [show (l.keep r).records = l.records ++ [r] from push_records _ _, List.pairwise_append]
    refine ⟨ih, List.pairwise_singleton _ _, ?_⟩
    intro a ha b hb
    rw [List.mem_singleton] at hb
    subst hb
    rw [Bool.eq_false_iff]
    intro hid
    have hcommitted := (hl.hasCommittedRecord_iff _ _ _).2 ⟨a, ha, hid⟩
    rw [hkeeps.fresh] at hcommitted
    cases hcommitted

/-- What the receipt indexes hold for a key: nothing when no receipt of the
    key is committed, else the record with the highest version. -/
def LatestReceipt (l : IndexedLedger) (k : String) : Prop :=
  (l.receiptVersions[k]? = none ∧ l.receipts[k]? = none ∧
    ∀ p ∈ l.records, p.recordType = .receipt → p.key ≠ k) ∨
  ∃ r ∈ l.records, r.recordType = .receipt ∧ r.key = k ∧ r.receipt.isSome ∧
    l.receiptVersions[k]? = some r.version ∧ l.receipts[k]? = r.receipt ∧
    ∀ p ∈ l.records, p.recordType = .receipt → p.key = k → p.version ≤ r.version

theorem LatestReceipt.keep_other {r : LedgerRecord} {k : String} (h : l.LatestReceipt k)
    (hother : r.recordType = .receipt → r.key ≠ k)
    (hversions : (l.keep r).receiptVersions[k]? = l.receiptVersions[k]?)
    (hreceipts : (l.keep r).receipts[k]? = l.receipts[k]?) : (l.keep r).LatestReceipt k := by
  have hrecords : (l.keep r).records = l.records ++ [r] := push_records _ _
  unfold LatestReceipt
  rw [hversions, hreceipts, hrecords]
  simp only [List.mem_append, List.mem_singleton]
  rcases h with ⟨hv, hr, hnone⟩ | ⟨p, hp, hty, hk, hsome, hv, hr, hmax⟩
  · refine .inl ⟨hv, hr, ?_⟩
    rintro p (hp | rfl) hty
    · exact hnone p hp hty
    · exact hother hty
  · refine .inr ⟨p, .inl hp, hty, hk, hsome, hv, hr, ?_⟩
    rintro q (hq | rfl) hqty hqk
    · exact hmax q hq hqty hqk
    · exact absurd hqk (hother hqty)

theorem Replayed.latestReceipt (h : Replayed t l) (k : String) : l.LatestReceipt k := by
  induction h with
  | empty =>
    left
    refine ⟨by simp, by simp, ?_⟩
    intro p hp
    cases hp
  | @keep l r hl hkeeps ih =>
    have hrecords : (l.keep r).records = l.records ++ [r] := push_records _ _
    have hpayload := hkeeps.payload
    cases htype : r.recordType with
    | receipt =>
      rw [htype] at hpayload
      obtain ⟨rc, hrc⟩ := Option.isSome_iff_exists.1 hpayload.1
      have hversions : (l.keep r).receiptVersions = l.receiptVersions.insert r.key r.version := by
        simp [IndexedLedger.keep, push, htype, hrc, retain, indexReceipt]
      have hreceipts : (l.keep r).receipts = l.receipts.insert r.key rc := by
        simp [IndexedLedger.keep, push, htype, hrc, retain, indexReceipt]
      by_cases hk : r.key = k
      · -- the new record carries the highest version of its key
        right
        refine ⟨r, ?_, htype, hk, hpayload.1, ?_, ?_, ?_⟩
        · rw [hrecords]
          simp
        · rw [hversions, hk, lookup_insert_self]
        · rw [hreceipts, hk, lookup_insert_self, hrc]
        · intro p hp hty hpk
          rw [hrecords, List.mem_append, List.mem_singleton] at hp
          rcases hp with hp | rfl
          · rcases ih with ⟨-, -, hnone⟩ | ⟨q, -, -, -, -, hv, -, hmax⟩
            · exact absurd hpk (hnone p hp hty)
            · have hlt := hpayload.2
              rw [hk, hv] at hlt
              have hle := hmax p hp hty hpk
              simp only [Option.getD_some] at hlt
              omega
          · exact le_rfl
      · apply ih.keep_other (fun _ => hk)
        · rw [hversions, lookup_insert_ne _ _ hk]
        · rw [hreceipts, lookup_insert_ne _ _ hk]
    | segment =>
      rw [htype] at hpayload
      obtain ⟨segment, hsegment⟩ := Option.isSome_iff_exists.1 hpayload
      apply ih.keep_other (by simp [htype])
      · simp [IndexedLedger.keep, push, htype, hsegment, retain, indexSegment]
      · simp [IndexedLedger.keep, push, htype, hsegment, retain, indexSegment]
    | checkpoint =>
      rw [htype] at hpayload
      obtain ⟨checkpoint, hcheckpoint⟩ := Option.isSome_iff_exists.1 hpayload
      apply ih.keep_other (by simp [htype])
      · simp [IndexedLedger.keep, push, htype, hcheckpoint, retain, indexCheckpoint]
      · simp [IndexedLedger.keep, push, htype, hcheckpoint, retain, indexCheckpoint]

theorem valid_foldl {records : List LedgerRecord}
    (hl : ∀ r ∈ l.records, validateLedgerRecord r = .ok ())
    (hrecords : ∀ r ∈ records, validateLedgerRecord r = .ok ()) :
    ∀ r ∈ (records.foldl applyRecord l).records, validateLedgerRecord r = .ok () := by
  induction records generalizing l with
  | nil => exact hl
  | cons record rest ih =>
    apply ih _ (fun r hr => hrecords r (List.mem_cons_of_mem _ hr))
    rcases l.applyRecord_cases record with heq | ⟨-, heq⟩
    · rw [heq]
      exact hl
    · have hvalid := hrecords record List.mem_cons_self
      have hadopt : l.adopt record = record := if_neg (validate_tenantID_ne hvalid)
      intro r hr
      rw [heq, hadopt, show (l.keep record).records = l.records ++ [record] from push_records _ _,
        List.mem_append, List.mem_singleton] at hr
      rcases hr with hr | rfl
      · exact hl r hr
      · exact hvalid

theorem Replayed.receipt_key (h : Replayed t l)
    (hl : ∀ r ∈ l.records, validateLedgerRecord r = .ok ()) {k : String} {rc : EventReceipt}
    (hrc : l.receipts[k]? = some rc) : eventKey rc.tenantID rc.eventID = k := by
  rcases h.latestReceipt k with ⟨-, hnone, -⟩ | ⟨r, hr, hty, hk, -, -, hreceipt, -⟩
  · rw [hnone] at hrc
    cases hrc
  · rw [hreceipt] at hrc
    obtain ⟨-, ⟨rc', heq, -⟩ | ⟨s, heq, -⟩ | ⟨c, heq, -⟩⟩ := validate_cases (hl r hr)
    · rw [heq] at hrc hk
      cases hrc
      exact hk
    · rw [heq] at hty
      cases hty
    · rw [heq] at hty
      cases hty

theorem Replayed.localCommittedRecord_eq (h : Replayed t l) (ty : LedgerRecordType) (k : String)
    (n : Nat) :
    l.localCommittedRecord ty k n = l.records.find? (fun r => r.hasIdentity ty k n) := by
  have hscan : l.findCommittedRecord ty k n = l.records.find? (fun r => r.hasIdentity ty k n) :=
    rfl
  unfold localCommittedRecord
  simp only [hscan]
  split
  · rfl
  · split
    · rfl
    · rename_i index _ r hr
      split_ifs with hhit
      · -- the hint points at the only record with this identity
        have hmem : r ∈ l.records := List.mem_of_getElem? hr
        obtain ⟨rfl, rfl, rfl⟩ := hasIdentity_iff.1 hhit.2
        exact (find?_of_distinct h.distinct hmem).symm
      · rfl

end IndexedLedger

/-! ## Section 2: Views -/

/-- The buffer of one transaction and the receipts it has read through to the
    ledger. A view has no committed records of its own. -/
structure CachedView where
  receipts : Dict EventReceipt := ∅
  receiptVersions : Dict Nat := ∅
  idempotency : Dict String := ∅
  pending : List LedgerRecord := []
  pendingReceipts : Dict EventReceipt := ∅
deriving DecidableEq

namespace CachedView

/-- The view without what it has read: the buffer over the ledger. -/
def forget (v : CachedView) (l : IndexedLedger) : LedgerView :=
  { parent := l.toTenantLedger, pending := v.pending, pendingReceipts := v.pendingReceipts }

/-- `Receipt` on a view. A receipt found in the ledger is kept. -/
def receipt (v : CachedView) (l : IndexedLedger) (key : String) :
    Option EventReceipt × CachedView :=
  match v.receipts[key]? with
  | some found => (some found, v)
  | none =>
    match l.receipt key with
    | none => (none, v)
    | some found =>
      (some found,
        { v with
          receipts := v.receipts.insert key found
          receiptVersions := v.receiptVersions.insert key ((l.receiptVersions[key]?).getD 0) })

/-- `FindReceiptByIdempotencyKey` on a view. -/
def findReceiptByIdempotencyKey (v : CachedView) (l : IndexedLedger) (key : String) :
    Option EventReceipt × CachedView :=
  if key = "" then (none, v)
  else
    match v.idempotency[key]? with
    | some owner => (v.receipts[owner]?, v)
    | none =>
      match l.findReceiptByIdempotencyKey key with
      | none => (none, v)
      | some found =>
        let owner := eventKey found.tenantID found.eventID
        let v' : CachedView :=
          { v with
            receipts := v.receipts.insert owner found
            idempotency := v.idempotency.insert key owner
            receiptVersions :=
              v.receiptVersions.insert owner ((l.receiptVersions[owner]?).getD 0) }
        (v'.receipts[owner]?, v')

/-- `findRecord` on a view: its own buffer, then the ledger. -/
def findRecord (v : CachedView) (l : IndexedLedger) (recordType : LedgerRecordType)
    (key : String) (version : Nat) : Option LedgerRecord :=
  (v.pending.find? (fun r => r.hasIdentity recordType key version)).or
    (l.localCommittedRecord recordType key version)

/-- What the three write operations do with the record they have made: check
    it, and buffer it with `keep` unless its identity is taken. -/
def bufferWith (v : CachedView) (l : IndexedLedger) (r : LedgerRecord)
    (keep : CachedView → CachedView) : Except Err Unit × CachedView :=
  match validateLedgerRecord r with
  | .error e => (.error e, v)
  | .ok () =>
    match v.findRecord l r.recordType r.key r.version with
    | some existing =>
      if immutableLedgerRecordEqual existing r then (.ok (), v) else (.error (ledgerConflict r), v)
    | none => (.ok (), keep { v with pending := v.pending ++ [r] })

/-- Version that `SetReceipt` gives the next receipt of `key`. -/
def nextReceiptVersion (v : CachedView) (l : IndexedLedger) (key : String) : Nat :=
  match (v.forget l).pendingReceiptRecord key with
  | some previous => previous.version + 1
  | none => (v.receiptVersions[key]?).getD 0 + 1

/-- `SetReceipt` on a view that has just read the receipt of the key. -/
def bufferReceipt (v : CachedView) (l : IndexedLedger) (receipt : EventReceipt) :
    Except Err Unit × CachedView :=
  let key := eventKey l.tenantID receipt.eventID
  if v.pendingReceipts[key]? = some receipt then (.ok (), v)
  else if v.receipts[key]? = some receipt ∧ v.pendingReceipts[key]? = none then (.ok (), v)
  else
    v.bufferWith l
      { tenantID := l.tenantID, recordType := .receipt, key := key
        version := v.nextReceiptVersion l key, receipt := some receipt }
      (fun v' => { v' with pendingReceipts := v'.pendingReceipts.insert key receipt })

/-- `SetReceipt`. -/
def setReceipt (v : CachedView) (l : IndexedLedger) (value : EventReceipt) :
    Except Err Unit × CachedView :=
  let receipt := if value.tenantID = "" then { value with tenantID := l.tenantID } else value
  if receipt.tenantID ≠ l.tenantID then
    (.error (.plain ("receipt tenant " ++ receipt.tenantID.quote ++
      " does not belong to ledger tenant " ++ l.tenantID.quote)), v)
  else (v.receipt l (eventKey l.tenantID receipt.eventID)).2.bufferReceipt l receipt

/-- `AppendSegment`. -/
def appendSegment (v : CachedView) (l : IndexedLedger) (segment : Segment) :
    Except Err Unit × CachedView :=
  if segment.tenantID ≠ l.tenantID then
    (.error (.plain ("segment tenant " ++ segment.tenantID.quote ++
      " does not belong to ledger tenant " ++ l.tenantID.quote)), v)
  else
    v.bufferWith l
      { tenantID := l.tenantID, recordType := .segment, key := segmentLedgerKey segment
        version := 1, segment := some segment } id

/-- `AppendCheckpoint`. -/
def appendCheckpoint (v : CachedView) (l : IndexedLedger) (checkpoint : Checkpoint) :
    Except Err Unit × CachedView :=
  if checkpoint.tenantID ≠ l.tenantID then
    (.error (.plain ("checkpoint tenant " ++ checkpoint.tenantID.quote ++
      " does not belong to ledger tenant " ++ l.tenantID.quote)), v)
  else
    v.bufferWith l
      { tenantID := l.tenantID, recordType := .checkpoint, key := checkpointKey checkpoint
        version := 1, checkpoint := some checkpoint } id

/-! ### What the operations do to a view -/

variable {t : String} {l : IndexedLedger} {v : CachedView}

theorem findRecord_eq (h : l.Replayed t) (ty : LedgerRecordType) (k : String) (n : Nat) :
    v.findRecord l ty k n = (v.pending ++ l.records).find? (fun r => r.hasIdentity ty k n) := by
  unfold findRecord
  rw [h.localCommittedRecord_eq, List.find?_append]

/-- `v'` is `v` after an operation. -/
structure Moves (l : IndexedLedger) (v v' : CachedView) : Prop where
  /-- Nothing is buffered, or one well-formed record of the tenant whose
      identity was free. -/
  pending : v'.pending = v.pending ∨
    ∃ r : LedgerRecord, validateLedgerRecord r = .ok () ∧ r.tenantID = l.tenantID ∧
      v.findRecord l r.recordType r.key r.version = none ∧ v'.pending = v.pending ++ [r]
  /-- What is kept anew is a receipt of the ledger, under the key it was asked
      for or under its own. -/
  read : ∀ (k : String) rc, v'.receipts[k]? = some rc → v.receipts[k]? = some rc ∨
    ∃ owner : String, l.receipts[owner]? = some rc ∧
      (owner = k ∨ eventKey rc.tenantID rc.eventID = k)

theorem Moves.refl : Moves l v v := ⟨.inl rfl, fun _ _ h => .inl h⟩

theorem receipt_moves (key : String) : Moves l v (v.receipt l key).2 := by
  unfold receipt
  split
  · exact .refl
  · split
    · exact .refl
    · rename_i found hfound
      refine ⟨.inl rfl, ?_⟩
      intro k rc hk
      simp only [lookup_insert] at hk
      split_ifs at hk with heq
      · cases hk
        exact .inr ⟨key, hfound, .inl heq⟩
      · exact .inl hk

theorem findReceiptByIdempotencyKey_moves (key : String) :
    Moves l v (v.findReceiptByIdempotencyKey l key).2 := by
  unfold findReceiptByIdempotencyKey
  split_ifs with hempty
  · exact .refl
  · split
    · exact .refl
    · split
      · exact .refl
      · rename_i found hfound
        refine ⟨.inl rfl, ?_⟩
        intro k rc hk
        simp only [lookup_insert] at hk
        split_ifs at hk with heq
        · cases hk
          unfold TenantLedger.findReceiptByIdempotencyKey at hfound
          rw [if_neg hempty] at hfound
          split at hfound
          · cases hfound
          · exact .inr ⟨_, hfound, .inr heq⟩
        · exact .inl hk

theorem bufferWith_moves {r : LedgerRecord} {keep : CachedView → CachedView}
    (hown : r.tenantID = l.tenantID) (hpending : ∀ u, (keep u).pending = u.pending)
    (hreceipts : ∀ u, (keep u).receipts = u.receipts) :
    Moves l v (v.bufferWith l r keep).2 := by
  unfold bufferWith
  split
  · exact .refl
  · rename_i hvalid
    split
    · split_ifs
      · exact .refl
      · exact .refl
    · rename_i hfree
      refine ⟨.inr ⟨r, hvalid, hown, hfree, hpending _⟩, ?_⟩
      intro k rc hk
      rw [hreceipts] at hk
      exact .inl hk

theorem bufferReceipt_moves (rc : EventReceipt) : Moves l v (v.bufferReceipt l rc).2 := by
  unfold bufferReceipt
  simp only
  split_ifs
  · exact .refl
  · exact .refl
  · exact bufferWith_moves rfl (fun _ => rfl) (fun _ => rfl)

theorem receipt_pending (key : String) : (v.receipt l key).2.pending = v.pending := by
  unfold receipt
  split
  · rfl
  · split <;> rfl

theorem setReceipt_moves (rc : EventReceipt) : Moves l v (v.setReceipt l rc).2 := by
  unfold setReceipt
  simp only
  generalize (if rc.tenantID = "" then { rc with tenantID := l.tenantID } else rc) = receipt
  split_ifs
  · exact .refl
  · -- the read before the write changes what is kept, not what is buffered
    have hread := @receipt_moves l v (eventKey l.tenantID receipt.eventID)
    have hsame := @receipt_pending l v (eventKey l.tenantID receipt.eventID)
    generalize (v.receipt l (eventKey l.tenantID receipt.eventID)).2 = u at hread hsame
    have hwrite := @bufferReceipt_moves l u receipt
    refine ⟨?_, ?_⟩
    · have hpending := hwrite.pending
      unfold findRecord at hpending ⊢
      rwa [hsame] at hpending
    · intro k found hk
      rcases hwrite.read k found hk with hu | howner
      · exact hread.read k found hu
      · exact .inr howner

theorem appendSegment_moves (s : Segment) : Moves l v (v.appendSegment l s).2 := by
  unfold appendSegment
  split_ifs
  · exact .refl
  · exact bufferWith_moves rfl (fun _ => rfl) (fun _ => rfl)

theorem appendCheckpoint_moves (c : Checkpoint) : Moves l v (v.appendCheckpoint l c).2 := by
  unfold appendCheckpoint
  split_ifs
  · exact .refl
  · exact bufferWith_moves rfl (fun _ => rfl) (fun _ => rfl)

/-! ### Appending a record again -/

/-- The payload that the type of `r` selects is the same. -/
def SamePayload (e r : LedgerRecord) : Prop :=
  match r.recordType with
  | .receipt => e.receipt = r.receipt
  | .segment => e.segment = r.segment
  | .checkpoint => e.checkpoint = r.checkpoint

theorem immutableLedgerRecordEqual_iff {e r : LedgerRecord} (hown : e.tenantID = r.tenantID)
    (hid : e.hasIdentity r.recordType r.key r.version = true) :
    immutableLedgerRecordEqual e r = true ↔ SamePayload e r := by
  obtain ⟨hty, hk, hn⟩ := hasIdentity_iff.1 hid
  unfold immutableLedgerRecordEqual SamePayload
  simp only [hown, hty, hk, hn, decide_true, Bool.true_and]
  cases r.recordType <;> simp

/-- What buffering `r` has to do, by a scan of everything the view sees: a
    free identity is taken, the same payload is left alone, and a different
    one is a conflict that buffers nothing. -/
def Buffers (v : CachedView) (l : IndexedLedger) (r : LedgerRecord)
    (result : Except Err Unit × CachedView) : Prop :=
  match (v.pending ++ l.records).find?
      (fun p => p.hasIdentity r.recordType r.key r.version) with
  | none => result = (.ok (), { v with pending := v.pending ++ [r] })
  | some e =>
    (SamePayload e r → result = (.ok (), v)) ∧
    (¬ SamePayload e r → result = (.error (ledgerConflict r), v))

theorem buffers_bufferWith (h : l.Replayed t) (hp : ∀ r ∈ v.pending, r.tenantID = t)
    {r : LedgerRecord} (hown : r.tenantID = t) (hvalid : validateLedgerRecord r = .ok ()) :
    v.Buffers l r (v.bufferWith l r id) := by
  unfold Buffers bufferWith
  rw [hvalid, findRecord_eq h]
  cases hfind : (v.pending ++ l.records).find?
      (fun p => p.hasIdentity r.recordType r.key r.version) with
  | none => rfl
  | some e =>
    have howner : e.tenantID = t := by
      rcases List.mem_append.1 (List.mem_of_find?_eq_some hfind) with hmem | hmem
      · exact hp e hmem
      · exact h.owned e hmem
    have hid : e.hasIdentity r.recordType r.key r.version = true := by
      simpa using List.find?_some hfind
    have hequal := immutableLedgerRecordEqual_iff (howner.trans hown.symm) hid
    constructor
    · intro hsame
      exact if_pos (hequal.2 hsame)
    · intro hother
      exact if_neg (mt hequal.1 hother)

theorem appendSegment_buffers (h : l.Replayed t) (hp : ∀ r ∈ v.pending, r.tenantID = t)
    {s : Segment} (hown : s.tenantID = t)
    (hvalid : validateLedgerRecord (segmentRecord 1 s) = .ok ()) :
    v.Buffers l (segmentRecord 1 s) (v.appendSegment l s) := by
  have hsame : v.appendSegment l s = v.bufferWith l (segmentRecord 1 s) id := by
    unfold appendSegment
    rw [if_neg (by simp [hown, h.tenantID_eq])]
    simp only [segmentRecord, hown, h.tenantID_eq]
  rw [hsame]
  exact buffers_bufferWith h hp hown hvalid

theorem appendCheckpoint_buffers (h : l.Replayed t) (hp : ∀ r ∈ v.pending, r.tenantID = t)
    {c : Checkpoint} (hown : c.tenantID = t)
    (hvalid : validateLedgerRecord (checkpointRecord 1 c) = .ok ()) :
    v.Buffers l (checkpointRecord 1 c) (v.appendCheckpoint l c) := by
  have hsame : v.appendCheckpoint l c = v.bufferWith l (checkpointRecord 1 c) id := by
    unfold appendCheckpoint
    rw [if_neg (by simp [hown, h.tenantID_eq])]
    simp only [checkpointRecord, hown, h.tenantID_eq]
  rw [hsame]
  exact buffers_bufferWith h hp hown hvalid

/-! ### What a view has read -/

/-- The receipts a view has kept are those of the ledger. -/
def Current (v : CachedView) (l : IndexedLedger) : Prop :=
  ∀ (k : String) rc, v.receipts[k]? = some rc → l.receipts[k]? = some rc

theorem Current.moves (h : l.Replayed t) (hl : ∀ r ∈ l.records, validateLedgerRecord r = .ok ())
    {v' : CachedView} (hv : v.Current l) (hm : Moves l v v') : v'.Current l := by
  intro k rc hk
  rcases hm.read k rc hk with hold | ⟨owner, howner, heq | heq⟩
  · exact hv k rc hold
  · rw [← heq]
    exact howner
  · rw [← heq, h.receipt_key hl howner]
    exact howner

theorem Current.receipt_eq (hv : v.Current l) (key : String) :
    (v.receipt l key).1 = l.receipt key := by
  unfold CachedView.receipt
  split
  · rename_i found hfound
    exact (hv key found hfound).symm
  · split
    · rename_i hnone
      exact hnone.symm
    · rename_i found hfound
      exact hfound.symm

end CachedView

/-! ## Section 3: Runs of views -/

/-- One call on a view, or the end of a view. -/
inductive ViewCall where
  | openView (view : Nat)
  | receipt (view : Nat) (key : String)
  | findReceiptByIdempotencyKey (view : Nat) (key : String)
  | setReceipt (view : Nat) (receipt : EventReceipt)
  | appendSegment (view : Nat) (segment : Segment)
  | appendCheckpoint (view : Nat) (checkpoint : Checkpoint)
  /-- The records of the view go into the ledger and the view is gone. -/
  | commit (view : Nat)
  | discard (view : Nat)

/-- A ledger and the views that are open on it. -/
structure LedgerWorld where
  ledger : IndexedLedger
  views : Nat → Option CachedView

namespace LedgerWorld

def setView (w : LedgerWorld) (i : Nat) (v : Option CachedView) : LedgerWorld :=
  { w with views := Function.update w.views i v }

/-- An operation on an open view leaves the view it returns. -/
def call (w : LedgerWorld) (i : Nat) (f : CachedView → CachedView) : Option LedgerWorld :=
  (w.views i).map fun v => w.setView i (some (f v))

def step (w : LedgerWorld) : ViewCall → Option LedgerWorld
  | .openView i => if (w.views i).isSome then none else some (w.setView i (some {}))
  | .receipt i key => w.call i fun v => (v.receipt w.ledger key).2
  | .findReceiptByIdempotencyKey i key =>
    w.call i fun v => (v.findReceiptByIdempotencyKey w.ledger key).2
  | .setReceipt i receipt => w.call i fun v => (v.setReceipt w.ledger receipt).2
  | .appendSegment i segment => w.call i fun v => (v.appendSegment w.ledger segment).2
  | .appendCheckpoint i checkpoint => w.call i fun v => (v.appendCheckpoint w.ledger checkpoint).2
  | .commit i =>
    (w.views i).map fun v =>
      { w.setView i none with ledger := w.ledger.commitPending v.pending }
  | .discard i => (w.views i).map fun _ => w.setView i none

end LedgerWorld

/-- Views over the ledger of tenant `t` that was loaded from `records`. -/
def viewRuns (t : String) (records : List LedgerRecord) : System LedgerWorld ViewCall where
  init w := w = { ledger := IndexedLedger.new t records, views := fun _ => none }
  step := LedgerWorld.step

namespace LedgerWorld

theorem step_cases {w w' : LedgerWorld} {c : ViewCall} (h : w.step c = some w') :
    (∃ i, w' = w.setView i (some {})) ∨
    (∃ i v v', w.views i = some v ∧ CachedView.Moves w.ledger v v' ∧
      w' = w.setView i (some v')) ∨
    (∃ i v, c = .commit i ∧ w.views i = some v ∧
      w' = { w.setView i none with ledger := w.ledger.commitPending v.pending }) ∨
    (∃ i, w' = w.setView i none) := by
  have hcall : ∀ {i : Nat} {f : CachedView → CachedView}, w.call i f = some w' →
      (∀ v, CachedView.Moves w.ledger v (f v)) →
      ∃ i v v', w.views i = some v ∧ CachedView.Moves w.ledger v v' ∧
        w' = w.setView i (some v') := by
    intro i f hf hmoves
    obtain ⟨v, hv, rfl⟩ := Option.map_eq_some_iff.1 hf
    exact ⟨i, v, f v, hv, hmoves v, rfl⟩
  cases c with
  | openView i =>
    simp only [step] at h
    split_ifs at h
    exact .inl ⟨i, (Option.some.inj h).symm⟩
  | receipt i key => exact .inr (.inl (hcall h fun _ => CachedView.receipt_moves _))
  | findReceiptByIdempotencyKey i key =>
    exact .inr (.inl (hcall h fun _ => CachedView.findReceiptByIdempotencyKey_moves _))
  | setReceipt i rc => exact .inr (.inl (hcall h fun _ => CachedView.setReceipt_moves _))
  | appendSegment i s => exact .inr (.inl (hcall h fun _ => CachedView.appendSegment_moves _))
  | appendCheckpoint i c =>
    exact .inr (.inl (hcall h fun _ => CachedView.appendCheckpoint_moves _))
  | commit i =>
    obtain ⟨v, hv, rfl⟩ := Option.map_eq_some_iff.1 h
    exact .inr (.inr (.inl ⟨i, v, rfl, hv, rfl⟩))
  | discard i =>
    obtain ⟨v, -, rfl⟩ := Option.map_eq_some_iff.1 h
    exact .inr (.inr (.inr ⟨i, rfl⟩))

theorem setView_views {w : LedgerWorld} {i j : Nat} {u : Option CachedView} {v : CachedView}
    (h : (w.setView i u).views j = some v) : (j = i ∧ u = some v) ∨ w.views j = some v := by
  unfold setView at h
  simp only [Function.update_apply] at h
  split_ifs at h with hj
  · exact .inl ⟨hj, h⟩
  · exact .inr h

/-- The ledger is a replay and the views buffer well-formed records of the
    tenant. -/
structure Sound (t : String) (w : LedgerWorld) : Prop where
  ledger : w.ledger.Replayed t
  pending : ∀ i v, w.views i = some v →
    ∀ r ∈ v.pending, validateLedgerRecord r = .ok () ∧ r.tenantID = t

theorem Sound.step {t : String} {w w' : LedgerWorld} {c : ViewCall} (h : w.Sound t)
    (hstep : w.step c = some w') : w'.Sound t := by
  rcases step_cases hstep with ⟨i, rfl⟩ | ⟨i, v, v', hv, hmoves, rfl⟩ | ⟨i, v, -, -, rfl⟩ | ⟨i, rfl⟩
  · refine ⟨h.ledger, ?_⟩
    intro j u hu
    rcases setView_views hu with ⟨-, hnew⟩ | hold
    · cases hnew
      intro r hr
      cases hr
    · exact h.pending j u hold
  · refine ⟨h.ledger, ?_⟩
    intro j u hu
    rcases setView_views hu with ⟨-, hnew⟩ | hold
    · cases hnew
      rcases hmoves.pending with hsame | ⟨r, hvalid, hown, -, hnew⟩
      · rw [hsame]
        exact h.pending i v hv
      · intro p hp
        rw [hnew, List.mem_append, List.mem_singleton] at hp
        rcases hp with hp | rfl
        · exact h.pending i v hv p hp
        · exact ⟨hvalid, hown.trans h.ledger.tenantID_eq⟩
    · exact h.pending j u hold
  · refine ⟨h.ledger.commitPending _, ?_⟩
    intro j u hu
    rcases setView_views hu with ⟨-, hnew⟩ | hold
    · cases hnew
    · exact h.pending j u hold
  · refine ⟨h.ledger, ?_⟩
    intro j u hu
    rcases setView_views hu with ⟨-, hnew⟩ | hold
    · cases hnew
    · exact h.pending j u hold

theorem sound_of_reach {t : String} {records : List LedgerRecord}
    {guard : LedgerWorld → ViewCall → Prop} {w : LedgerWorld}
    (h : (viewRuns t records).Reach guard w) : w.Sound t := by
  apply System.Reach.invariant (P := Sound t) _ _ h
  · rintro s rfl
    refine ⟨IndexedLedger.replayed_new t records, ?_⟩
    intro i v hv
    cases hv
  · intro s c s' _ hs _ hstep
    exact hs.step hstep

/-- A view is committed when no other view is open: the store runs one
    transaction of a tenant at a time. -/
def commitAlone (w : LedgerWorld) (c : ViewCall) : Prop :=
  ∀ i, c = .commit i → ∀ j, j ≠ i → w.views j = none

/-- Without a commit beside it, a view keeps what it has read up to date and
    its buffer free of committed identities. -/
structure Private (w : LedgerWorld) : Prop where
  valid : ∀ r ∈ w.ledger.records, validateLedgerRecord r = .ok ()
  current : ∀ i v, w.views i = some v → v.Current w.ledger
  distinct : ∀ i v, w.views i = some v → (v.pending ++ w.ledger.records).Pairwise
    (fun a b => a.hasIdentity b.recordType b.key b.version = false)

theorem distinct_insert {pending committed : List LedgerRecord} {r : LedgerRecord}
    (h : (pending ++ committed).Pairwise
      (fun a b => a.hasIdentity b.recordType b.key b.version = false))
    (hfree : (pending ++ committed).find?
      (fun p => p.hasIdentity r.recordType r.key r.version) = none) :
    ((pending ++ [r]) ++ committed).Pairwise
      (fun a b => a.hasIdentity b.recordType b.key b.version = false) := by
  have hother : ∀ p ∈ pending ++ committed, p.hasIdentity r.recordType r.key r.version = false := by
    intro p hp
    have hp := List.find?_eq_none.1 hfree p hp
    simpa using hp
  rw [List.pairwise_append] at h
  rw [List.append_assoc, List.singleton_append, List.pairwise_append]
  refine ⟨h.1, ?_, ?_⟩
  · refine List.pairwise_cons.2 ⟨?_, h.2.1⟩
    intro p hp
    have hpr := hother p (List.mem_append_right _ hp)
    rw [Bool.eq_false_iff] at hpr ⊢
    intro hrp
    apply hpr
    rw [hasIdentity_iff] at hrp ⊢
    exact ⟨hrp.1.symm, hrp.2.1.symm, hrp.2.2.symm⟩
  · intro p hp q hq
    rcases List.mem_cons.1 hq with rfl | hq
    · exact hother p (List.mem_append_left _ hp)
    · exact h.2.2 p hp q hq

theorem Private.step {t : String} {w w' : LedgerWorld} {c : ViewCall} (hs : w.Sound t)
    (h : w.Private) (halone : commitAlone w c) (hstep : w.step c = some w') : w'.Private := by
  rcases step_cases hstep with
    ⟨i, rfl⟩ | ⟨i, v, v', hv, hmoves, rfl⟩ | ⟨i, v, hc, hv, rfl⟩ | ⟨i, rfl⟩
  · refine ⟨h.valid, ?_, ?_⟩
    · intro j u hu
      rcases setView_views hu with ⟨-, hnew⟩ | hold
      · cases hnew
        intro k rc hk
        simp at hk
      · exact h.current j u hold
    · intro j u hu
      rcases setView_views hu with ⟨-, hnew⟩ | hold
      · cases hnew
        exact hs.ledger.distinct
      · exact h.distinct j u hold
  · refine ⟨h.valid, ?_, ?_⟩
    · intro j u hu
      rcases setView_views hu with ⟨-, hnew⟩ | hold
      · cases hnew
        exact (h.current i v hv).moves hs.ledger h.valid hmoves
      · exact h.current j u hold
    · intro j u hu
      rcases setView_views hu with ⟨-, hnew⟩ | hold
      · cases hnew
        rcases hmoves.pending with hsame | ⟨r, -, -, hfree, hnew⟩
        · rw [hsame]
          exact h.distinct i v hv
        · rw [hnew]
          rw [CachedView.findRecord_eq hs.ledger] at hfree
          exact distinct_insert (h.distinct i v hv) hfree
      · exact h.distinct j u hold
  · -- no view is left open by a commit
    have hnone : ∀ j u, (w.setView i none).views j = some u → False := by
      intro j u hu
      rcases setView_views hu with ⟨-, hnew⟩ | hold
      · cases hnew
      · by_cases hj : j = i
        · subst hj
          simp [setView] at hu
        · rw [halone i hc j hj] at hold
          cases hold
    refine ⟨?_, fun j u hu => (hnone j u hu).elim, fun j u hu => (hnone j u hu).elim⟩
    rw [IndexedLedger.commitPending_eq]
    exact IndexedLedger.valid_foldl h.valid fun r hr => (hs.pending i v hv r hr).1
  · refine ⟨h.valid, ?_, ?_⟩
    · intro j u hu
      rcases setView_views hu with ⟨-, hnew⟩ | hold
      · cases hnew
      · exact h.current j u hold
    · intro j u hu
      rcases setView_views hu with ⟨-, hnew⟩ | hold
      · cases hnew
      · exact h.distinct j u hold

theorem private_of_reach {t : String} {records : List LedgerRecord}
    (hrecords : ∀ r ∈ records, validateLedgerRecord r = .ok ()) {w : LedgerWorld}
    (h : (viewRuns t records).Reach commitAlone w) : w.Private := by
  apply System.Reach.invariant (P := Private) _ _ h
  · rintro s rfl
    refine ⟨?_, ?_, ?_⟩
    · exact IndexedLedger.valid_foldl (fun r hr => by cases hr) hrecords
    · intro i v hv
      cases hv
    · intro i v hv
      cases hv
  · intro s c s' hreach hs hguard hstep
    exact hs.step (sound_of_reach hreach) hguard hstep

end LedgerWorld

/-! ## Section 4: The indexes agree with the records -/

end AuditGovernance
