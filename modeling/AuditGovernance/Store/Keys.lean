import AuditGovernance.Framework.Framing
import AuditGovernance.Domain.Types

/-! # Composite store keys

    Every dictionary of the store is keyed by texts joined with the unit
    separator `0x1F` (`internal/store/store.go`, `internal/store/ledger.go`).
    `splitTenantKey` attributes a key to its tenant; a key with no separator
    or with more than one belongs to nobody.
-/

namespace AuditGovernance

open Framing

/-- The unit separator. -/
def keySeparator : Char := '\x1f'

def sourceKey (tenantID sourceID : String) : String := join keySeparator tenantID sourceID

def eventKey (tenantID eventID : String) : String := join keySeparator tenantID eventID

def streamKey (tenantID streamID : String) : String := join keySeparator tenantID streamID

def schemaKey (tenantID schemaID : String) (version : Int) : String :=
  join keySeparator (join keySeparator tenantID schemaID) (Int.repr version)

/-- `strings.Cut` at the first separator, rejecting a second one. -/
def splitTenantKey (key : String) : Option (String × String) :=
  match key.toList.span (· ≠ keySeparator) with
  | (_, []) => none
  | (tenantID, _ :: rest) =>
    if keySeparator ∈ rest then none
    else some (String.ofList tenantID, String.ofList rest)

def keyBelongsToTenant (key tenantID : String) : Bool :=
  match splitTenantKey key with
  | some (owner, _) => owner == tenantID
  | none => false

/-! ## Ledger keys -/

def segmentLedgerKey (segment : Segment) : String :=
  join keySeparator (streamKey segment.tenantID segment.streamID) (Int.repr segment.firstSequence)

def checkpointLedgerKey (checkpoint : Checkpoint) : String :=
  join keySeparator (streamKey checkpoint.tenantID checkpoint.streamID)
    (Int.repr checkpoint.sequence)

/-- Key of a checkpoint record: its id, or its coordinates when it has none. -/
def checkpointKey (checkpoint : Checkpoint) : String :=
  if checkpoint.id = "" then checkpointLedgerKey checkpoint else checkpoint.id

/-- `ledgerRecordIdentity` of a record with these three identity fields. -/
def ledgerRecordIdentity (recordType : LedgerRecordType) (key : String) (version : Nat) : String :=
  join keySeparator (join keySeparator recordType.text key) (Nat.repr version)

/-! ## Framing facts -/

theorem free_separator_intRepr (n : Int) : Free keySeparator (Int.repr n) :=
  free_intRepr (by decide) (by decide) n

theorem free_separator_natRepr (n : Nat) : Free keySeparator (Nat.repr n) :=
  free_natRepr (by decide) n

@[simp] theorem eventKey_inj {t a b : String} : eventKey t a = eventKey t b ↔ a = b :=
  join_inj_same_left

@[simp] theorem streamKey_inj {t a b : String} : streamKey t a = streamKey t b ↔ a = b :=
  join_inj_same_left

theorem LedgerRecordType.text_inj {a b : LedgerRecordType} : a.text = b.text ↔ a = b := by
  cases a <;> cases b <;> simp [LedgerRecordType.text]

theorem ledgerRecordIdentity_inj {t t' : LedgerRecordType} {k k' : String} {v v' : Nat} :
    ledgerRecordIdentity t k v = ledgerRecordIdentity t' k' v' ↔ t = t' ∧ k = k' ∧ v = v' := by
  have hfree : ∀ u : LedgerRecordType, Free keySeparator u.text := by
    intro u
    cases u <;> decide
  unfold ledgerRecordIdentity
  rw [join_inj_right (free_separator_natRepr v) (free_separator_natRepr v'),
    join_inj_left (hfree t) (hfree t'), LedgerRecordType.text_inj, Nat.repr_inj, and_assoc]

theorem segmentLedgerKey_inj {a b : Segment} (ht : a.tenantID = b.tenantID) :
    segmentLedgerKey a = segmentLedgerKey b ↔
      a.streamID = b.streamID ∧ a.firstSequence = b.firstSequence := by
  unfold segmentLedgerKey
  rw [join_inj_right (free_separator_intRepr _) (free_separator_intRepr _), ht, streamKey_inj,
    Int.repr_inj]

theorem splitTenantKey_join {t r : String} (ht : Free keySeparator t) (hr : Free keySeparator r) :
    splitTenantKey (join keySeparator t r) = some (t, r) := by
  unfold splitTenantKey
  have hspan : (join keySeparator t r).toList.span (· ≠ keySeparator) =
      (t.toList, keySeparator :: r.toList) := by
    rw [List.span_eq_takeWhile_dropWhile, toList_join, takeWhile_free ht]
    congr 1
    rw [List.dropWhile_append_of_pos]
    · simp
    · intro x hx
      simp only [ne_eq, decide_not, Bool.not_eq_eq_eq_not, Bool.not_true, decide_eq_false_iff_not]
      rintro rfl
      exact ht hx
  rw [hspan]
  simp only [if_neg hr, String.ofList_toList]

theorem splitTenantKey_some {key t r : String} (h : splitTenantKey key = some (t, r)) :
    key = join keySeparator t r := by
  unfold splitTenantKey at h
  rw [List.span_eq_takeWhile_dropWhile] at h
  have hparts := List.takeWhile_append_dropWhile (p := (· ≠ keySeparator)) (l := key.toList)
  split at h
  · cases h
  next tenantID c rest hspan =>
  obtain ⟨htake, hdrop⟩ := Prod.mk.inj hspan
  split_ifs at h with hfree
  obtain ⟨rfl, rfl⟩ := Prod.mk.inj (Option.some.inj h)
  -- What stops the scan is the separator.
  have hc : c = keySeparator := by
    have hhead := List.head?_dropWhile_not (fun x => decide (x ≠ keySeparator)) key.toList
    rw [hdrop] at hhead
    simpa using hhead
  apply String.toList_injective
  rw [toList_join, ← hparts, htake, hdrop, hc, String.toList_ofList, String.toList_ofList]

theorem splitTenantKey_inj {key key' : String} {p : String × String}
    (h : splitTenantKey key = some p) (h' : splitTenantKey key' = some p) : key = key' :=
  (splitTenantKey_some h).trans (splitTenantKey_some h').symm

theorem keyBelongsToTenant_join {t r u : String} (ht : Free keySeparator t)
    (hr : Free keySeparator r) : keyBelongsToTenant (join keySeparator t r) u = (t == u) := by
  unfold keyBelongsToTenant
  rw [splitTenantKey_join ht hr]

/-- A key has at most one owner. -/
theorem keyBelongsToTenant_unique {k t u : String} (ht : keyBelongsToTenant k t = true)
    (hu : keyBelongsToTenant k u = true) : t = u := by
  unfold keyBelongsToTenant at ht hu
  cases hk : splitTenantKey k with
  | none => rw [hk] at ht; cases ht
  | some p =>
    rw [hk] at ht hu
    simp only [beq_iff_eq] at ht hu
    exact ht.symm.trans hu

end AuditGovernance
