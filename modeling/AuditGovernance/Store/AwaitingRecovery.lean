import AuditGovernance.Store.Rebuild
import AuditGovernance.Store.FileStore

/-! # Snapshot updates next to a tenant that awaits recovery

    A whole-snapshot update must not erase the journal of a commit whose
    ledger append was lost. `replaceFromSnapshot` keeps such a tenant as it
    is, provided splitting the closure's snapshot gives back exactly the
    evidence the tenant has. Splitting re-sorts segments and checkpoints by
    the text of their record key and drops bodies of archived events, so for
    a tenant the closure left alone the comparison succeeds exactly when its
    lists already are in that order and it holds no archived body.
-/

namespace AuditGovernance

open FiniteMap TenantLedger

/-! ## Section 1: Evidence of one tenant in a snapshot -/

def ownedEvents (data : Snapshot) (t : String) : Dict Event :=
  collect (fun k event => if eventOwned t k event then some event else none) data.events

def ownedStreams (data : Snapshot) (t : String) : Dict StreamState :=
  collect (fun k stream => if streamOwned t k stream then some stream else none) data.streams

/-- The closure left the evidence of tenant `t` alone. -/
structure UnchangedFor (t : String) (before after : Snapshot) : Prop where
  events : ownedEvents after t = ownedEvents before t
  streams : ownedStreams after t = ownedStreams before t
  receipts : ownedReceipts after t = ownedReceipts before t
  segments : ∀ k, ownedSegments after t k = ownedSegments before t k
  checkpoints : ∀ k, ownedCheckpoints after t k = ownedCheckpoints before t k

/-- Everything a tenant state holds is the tenant's own and sits under a key
    that splits back to the tenant. -/
structure TenantState.Owned (t : String) (state : TenantState) : Prop where
  built : Built t state.ledger
  events : ∀ (k : String) event, state.hot.events[k]? = some event →
    keyBelongsToTenant k t = true ∧ event.tenantID = t
  streams : ∀ (k : String) stream, state.hot.streams[k]? = some stream →
    keyBelongsToTenant k t = true ∧ stream.tenantID = t
  receipts : ∀ (k : String) receipt, state.ledger.receipts[k]? = some receipt →
    keyBelongsToTenant k t = true
  segments : ∀ (k : String) values, state.ledger.segments[k]? = some values →
    keyBelongsToTenant k t = true
  checkpoints : ∀ (k : String) values, state.ledger.checkpoints[k]? = some values →
    keyBelongsToTenant k t = true
  checkpointIDs : ∀ (k : String) values, state.ledger.checkpoints[k]? = some values →
    ∀ checkpoint ∈ values, checkpoint.id ≠ ""

theorem TenantState.Owned.checkpoint_id {t : String} {state : TenantState} (h : state.Owned t)
    {k : String} {c : Checkpoint} (hc : c ∈ state.ledger.checkpointsOf k) : c.id ≠ "" := by
  unfold checkpointsOf at hc
  cases hk : state.ledger.checkpoints[k]? with
  | none =>
    rw [hk] at hc
    cases hc
  | some values =>
    rw [hk] at hc
    exact h.checkpointIDs k values hk c hc

/-- A store in which every tenant state is the tenant's own. -/
def FileStore.Owned (s : FileStore) : Prop :=
  ∀ (t : String) state, s.tenant[t]? = some state → state.Owned t

/-! ## Section 2: What a materialized snapshot shows -/

section Materialize

variable {s : FileStore}

private theorem materialize_fold {V : Type} (g : Snapshot → Dict V) (f : TenantState → Dict V)
    (hstep : ∀ (result : Snapshot) (p : String × TenantState),
      g (FileStore.nameTenant (result.addTenant p.2.hot p.2.ledger) p.1) = overlay (g result) (f p.2))
    (hbase : g { toControl := s.control } = ∅) :
    g s.materialize = s.tenant.toList.foldl (fun acc p => overlay acc (f p.2)) ∅ := by
  unfold FileStore.materialize
  rw [← hbase]
  exact (List.foldl_hom g (fun result p => (hstep result p).symm)).symm

/-- A dictionary whose entries belong to their tenants shows, for a tenant
    that is open, exactly that tenant's entries. -/
private theorem lookup_materialize {V : Type} (g : Snapshot → Dict V) (f : TenantState → Dict V)
    (hstep : ∀ (result : Snapshot) (p : String × TenantState),
      g (FileStore.nameTenant (result.addTenant p.2.hot p.2.ledger) p.1) = overlay (g result) (f p.2))
    (hbase : g { toControl := s.control } = ∅)
    (howned : ∀ (t : String) state, s.tenant[t]? = some state → ∀ (k : String) v,
      (f state)[k]? = some v → keyBelongsToTenant k t = true)
    (k : String) (v : V) :
    (g s.materialize)[k]? = some v ↔
      ∃ (t : String) (state : TenantState), s.tenant[t]? = some state ∧ (f state)[k]? = some v := by
  rw [materialize_fold g f hstep hbase, lookup_foldl_overlay]
  · constructor
    · intro ⟨p, hp, hv⟩
      exact ⟨p.1, p.2, mem_entries.1 hp, hv⟩
    · intro ⟨t, state, ht, hv⟩
      exact ⟨(t, state), mem_entries.2 ht, hv⟩
  · simp
  · -- two tenants cannot both own the key
    intro ⟨a, sta⟩ ha ⟨b, stb⟩ hb v w hv hw
    have hta := mem_entries.1 ha
    have htb := mem_entries.1 hb
    have hab := keyBelongsToTenant_unique (howned a sta hta k v hv) (howned b stb htb k w hw)
    subst hab
    rw [htb] at hta
    cases hta
    rw [hv] at hw
    exact Option.some.inj hw

private theorem nameTenant_field {V : Type} (g : Snapshot → V)
    (hg : ∀ (result : Snapshot) (tenants : Dict Tenant),
      g { result with tenants := tenants } = g result)
    (result : Snapshot) (t : String) : g (FileStore.nameTenant result t) = g result := by
  unfold FileStore.nameTenant
  split
  · exact hg _ _
  · rfl

variable {t : String} {state : TenantState}

/-- Keeping the entries a tenant owns of a union of tenant dictionaries gives
    the tenant's dictionary back. -/
private theorem collect_owned {V : Type} {m : Dict V} {f : TenantState → Dict V}
    {owned : String → V → Bool}
    (hm : ∀ (k : String) v, m[k]? = some v ↔
      ∃ (u : String) (st : TenantState), s.tenant[u]? = some st ∧ (f st)[k]? = some v)
    (hown : ∀ (u : String) st, s.tenant[u]? = some st → ∀ (k : String) v, (f st)[k]? = some v →
      (owned k v = true ↔ u = t))
    (ht : s.tenant[t]? = some state) :
    collect (fun k v => if owned k v then some v else none) m = f state := by
  apply ext_lookup
  intro k
  apply Option.ext
  intro v
  rw [lookup_collect]
  simp only [Option.bind_eq_some_iff, Option.ite_none_right_eq_some, Option.some.injEq, hm]
  constructor
  · intro ⟨w, ⟨u, st, hu, hw⟩, hown', hwv⟩
    subst hwv
    have hut := (hown u st hu k w hw).1 hown'
    subst hut
    rw [ht] at hu
    cases hu
    exact hw
  · intro hv
    exact ⟨v, ⟨t, state, ht, hv⟩, (hown t state ht k v hv).2 rfl, rfl⟩

variable (hs : s.Owned) (ht : s.tenant[t]? = some state)
include hs

private theorem lookup_materialize_events (k : String) (event : Event) :
    s.materialize.events[k]? = some event ↔
      ∃ (t : String) (state : TenantState), s.tenant[t]? = some state ∧ state.hot.events[k]? = some event :=
  lookup_materialize Snapshot.events (·.hot.events)
    (fun _ _ => nameTenant_field Snapshot.events (fun _ _ => rfl) _ _) rfl
    (fun t state h k v hv => ((hs t state h).events k v hv).1) k event

private theorem lookup_materialize_streams (k : String) (stream : StreamState) :
    s.materialize.streams[k]? = some stream ↔
      ∃ (t : String) (state : TenantState), s.tenant[t]? = some state ∧ state.hot.streams[k]? = some stream :=
  lookup_materialize Snapshot.streams (·.hot.streams)
    (fun _ _ => nameTenant_field Snapshot.streams (fun _ _ => rfl) _ _) rfl
    (fun t state h k v hv => ((hs t state h).streams k v hv).1) k stream

private theorem lookup_materialize_receipts (k : String) (receipt : EventReceipt) :
    s.materialize.receipts[k]? = some receipt ↔
      ∃ (t : String) (state : TenantState), s.tenant[t]? = some state ∧ state.ledger.receipts[k]? = some receipt :=
  lookup_materialize Snapshot.receipts (·.ledger.receipts)
    (fun _ _ => nameTenant_field Snapshot.receipts (fun _ _ => rfl) _ _) rfl
    (fun t state h k v hv => (hs t state h).receipts k v hv) k receipt

private theorem lookup_materialize_segments (k : String) (values : List Segment) :
    s.materialize.segments[k]? = some values ↔
      ∃ (t : String) (state : TenantState), s.tenant[t]? = some state ∧ state.ledger.segments[k]? = some values :=
  lookup_materialize Snapshot.segments (·.ledger.segments)
    (fun _ _ => nameTenant_field Snapshot.segments (fun _ _ => rfl) _ _) rfl
    (fun t state h k v hv => (hs t state h).segments k v hv) k values

private theorem lookup_materialize_checkpoints (k : String) (values : List Checkpoint) :
    s.materialize.checkpoints[k]? = some values ↔
      ∃ (t : String) (state : TenantState), s.tenant[t]? = some state ∧ state.ledger.checkpoints[k]? = some values :=
  lookup_materialize Snapshot.checkpoints (·.ledger.checkpoints)
    (fun _ _ => nameTenant_field Snapshot.checkpoints (fun _ _ => rfl) _ _) rfl
    (fun t state h k v hv => (hs t state h).checkpoints k v hv) k values

include ht

theorem ownedEvents_materialize : ownedEvents s.materialize t = state.hot.events := by
  refine collect_owned (lookup_materialize_events hs) ?_ ht
  intro u st hu k event hk
  obtain ⟨hb, hid⟩ := (hs u st hu).events k event hk
  simp only [eventOwned, Bool.or_eq_true, decide_eq_true_eq, hid]
  constructor
  · intro hor
    rcases hor with h | h
    · exact h
    · exact keyBelongsToTenant_unique hb h
  · intro h
    exact .inl h

theorem ownedStreams_materialize : ownedStreams s.materialize t = state.hot.streams := by
  refine collect_owned (lookup_materialize_streams hs) ?_ ht
  intro u st hu k stream hk
  obtain ⟨hb, hid⟩ := (hs u st hu).streams k stream hk
  simp only [streamOwned, Bool.or_eq_true, decide_eq_true_eq, hid]
  constructor
  · intro hor
    rcases hor with h | h
    · exact h
    · exact keyBelongsToTenant_unique hb h
  · intro h
    exact .inl h

theorem ownedReceipts_materialize : ownedReceipts s.materialize t = state.ledger.receipts := by
  refine collect_owned (lookup_materialize_receipts hs) ?_ ht
  intro u st hu k receipt hk
  have hb := (hs u st hu).receipts k receipt hk
  obtain ⟨v, _, hmem, _⟩ := ((hs u st hu).built.receipts_iff k receipt).1 hk
  have hid : receipt.tenantID = u := ((hs u st hu).built.valid _ hmem).2
  simp only [receiptOwned, Bool.or_eq_true, decide_eq_true_eq, hid]
  constructor
  · intro hor
    rcases hor with h | h
    · exact h
    · exact keyBelongsToTenant_unique hb h
  · intro h
    exact .inl h

theorem ownedSegments_materialize (k : String) :
    ownedSegments s.materialize t k = state.ledger.segmentsOf k := by
  unfold ownedSegments segmentsOf
  by_cases hb : keyBelongsToTenant k t = true
  · -- the key belongs to `t`, so only `t` can have contributed the entry
    rw [if_pos hb]
    congr 1
    apply Option.ext
    intro values
    rw [lookup_materialize_segments hs]
    constructor
    · intro ⟨u, st, hu, hk⟩
      have hut := keyBelongsToTenant_unique ((hs u st hu).segments k values hk) hb
      subst hut
      rw [ht] at hu
      cases hu
      exact hk
    · intro hk
      exact ⟨t, state, ht, hk⟩
  · rw [if_neg hb]
    cases hk : state.ledger.segments[k]? with
    | none => rfl
    | some values => exact absurd ((hs t state ht).segments k values hk) hb

theorem ownedCheckpoints_materialize (k : String) :
    ownedCheckpoints s.materialize t k = state.ledger.checkpointsOf k := by
  unfold ownedCheckpoints checkpointsOf
  by_cases hb : keyBelongsToTenant k t = true
  · rw [if_pos hb]
    congr 1
    apply Option.ext
    intro values
    rw [lookup_materialize_checkpoints hs]
    constructor
    · intro ⟨u, st, hu, hk⟩
      have hut := keyBelongsToTenant_unique ((hs u st hu).checkpoints k values hk) hb
      subst hut
      rw [ht] at hu
      cases hu
      exact hk
    · intro hk
      exact ⟨t, state, ht, hk⟩
  · rw [if_neg hb]
    cases hk : state.ledger.checkpoints[k]? with
    | none => rfl
    | some values => exact absurd ((hs t state ht).checkpoints k values hk) hb

end Materialize

/-! ## Section 3: The comparison for an untouched tenant -/

/-- Splitting a snapshot gives this tenant back as it is: segments and
    checkpoints are listed in the textual order of their record keys, and no
    body is held for an archived receipt. -/
structure TenantState.InRecordOrder (state : TenantState) : Prop where
  segments : ∀ k, (state.ledger.segmentsOf k).Pairwise
    (fun a b => segmentLedgerKey a < segmentLedgerKey b)
  checkpoints : ∀ k, (state.ledger.checkpointsOf k).Pairwise
    (fun a b => checkpointKey a < checkpointKey b)
  bodies : ∀ (k : String) event receipt, state.hot.events[k]? = some event →
    state.ledger.receipts[k]? = some receipt → receipt.status ≠ .archived

section Untouched

variable {s : FileStore} {t : String} {state : TenantState} {after : Snapshot}
variable (hs : s.Owned) (ht : s.tenant[t]? = some state)
  (hun : UnchangedFor t s.materialize after)
include hs ht hun

theorem UnchangedFor.receipt_lookup {k : String} (hb : keyBelongsToTenant k t = true) :
    after.receipts[k]? = state.ledger.receipts[k]? := by
  rw [← ownedReceipts_materialize hs ht, ← hun.receipts, ownedReceipts, lookup_collect]
  cases after.receipts[k]? with
  | none => rfl
  | some rc => simp [receiptOwned, hb]

theorem UnchangedFor.canonical : CanonicalFor after t := by
  have hst := hs t state ht
  have hreceipts : ownedReceipts after t = state.ledger.receipts :=
    hun.receipts.trans (ownedReceipts_materialize hs ht)
  have hsegments : ∀ k vs, after.segments[k]? = some vs → keyBelongsToTenant k t = true →
      vs = state.ledger.segmentsOf k := by
    intro k vs hk hb
    have h := (hun.segments k).trans (ownedSegments_materialize hs ht k)
    simpa [ownedSegments, hb, hk] using h
  have hcheckpoints : ∀ k vs, after.checkpoints[k]? = some vs → keyBelongsToTenant k t = true →
      vs = state.ledger.checkpointsOf k := by
    intro k vs hk hb
    have h := (hun.checkpoints k).trans (ownedCheckpoints_materialize hs ht k)
    simpa [ownedCheckpoints, hb, hk] using h
  refine ⟨?_, ?_, ?_, ?_, ?_, ?_⟩
  · intro k rc hk hown
    have h : (ownedReceipts after t)[k]? = some rc := by
      rw [ownedReceipts, lookup_collect, hk]
      simp [hown]
    rw [hreceipts] at h
    exact hst.built.receipt_facts h
  · intro k vs v hk hb hv
    rw [hsegments k vs hk hb] at hv
    exact hst.built.segment_facts hv
  · intro k vs hk hb
    rw [hsegments k vs hk hb]
    refine (hst.built.segments_once k).imp_of_mem ?_
    intro a b ha hb' hne hfirst
    obtain ⟨hta, _, hka⟩ := hst.built.segment_facts ha
    obtain ⟨htb, _, hkb⟩ := hst.built.segment_facts hb'
    have hstream : a.streamID = b.streamID := streamKey_inj.1 (hka.symm.trans hkb)
    exact hne ((segmentLedgerKey_inj (hta.trans htb.symm)).2 ⟨hstream, hfirst⟩)
  · intro k vs c hk hb hc
    rw [hcheckpoints k vs hk hb] at hc
    obtain ⟨htc, hrec, hkey⟩ := hst.built.checkpoint_facts hc
    exact ⟨htc, by rw [← htc]; exact hrec.1, hst.checkpoint_id hc, hkey⟩
  · intro k vs hk hb
    rw [hcheckpoints k vs hk hb]
    refine (hst.built.checkpoints_once k).imp_of_mem ?_
    intro a b ha hb' hne hid
    apply hne
    unfold checkpointKey
    rw [if_neg (hst.checkpoint_id ha), if_neg (hst.checkpoint_id hb'), hid]
  · intro k k' vs vs' c c' hk hk' hb hb' hne hc hc' hid
    rw [hcheckpoints k vs hk hb] at hc
    rw [hcheckpoints k' vs' hk' hb'] at hc'
    have hkey : checkpointKey c = checkpointKey c' := by
      unfold checkpointKey
      rw [if_neg (hst.checkpoint_id hc), if_neg (hst.checkpoint_id hc'), hid]
    have hcc := hst.built.checkpoint_eq_of_key (hst.built.mem_checkpointsOf.1 hc).1
      (hst.built.mem_checkpointsOf.1 hc').1 hkey
    subst hcc
    exact hne ((hst.built.mem_checkpointsOf.1 hc).2.symm.trans (hst.built.mem_checkpointsOf.1 hc').2)

theorem UnchangedFor.splitEvents_iff :
    state.hot.events = splitEvents after t ↔
      ∀ (k : String) event receipt, state.hot.events[k]? = some event →
        state.ledger.receipts[k]? = some receipt → receipt.status ≠ .archived := by
  have hst := hs t state ht
  have howned : ownedEvents after t = state.hot.events :=
    hun.events.trans (ownedEvents_materialize hs ht)
  -- an owned event survives the split when its receipt is not archived
  have hlookup : ∀ (k : String) event, state.hot.events[k]? = some event →
      ((splitEvents after t)[k]? = some event ↔
        ∀ receipt, state.ledger.receipts[k]? = some receipt → receipt.status ≠ .archived) := by
    intro k event hk
    have hb := (hst.events k event hk).1
    have hrc := hun.receipt_lookup hs ht hb
    rw [← howned, ownedEvents, lookup_collect] at hk
    obtain ⟨e, he, hown⟩ := Option.bind_eq_some_iff.1 hk
    simp only [Option.ite_none_right_eq_some, Option.some.injEq] at hown
    obtain ⟨hown, rfl⟩ := hown
    rw [splitEvents, lookup_collect, he, hrc]
    cases state.ledger.receipts[k]? with
    | none => simp [hown]
    | some receipt => simp [hown]
  constructor
  · intro heq k event receipt hk hreceipt
    have hk' := hk
    rw [heq] at hk'
    exact (hlookup k event hk).1 hk' receipt hreceipt
  · intro h
    apply ext_lookup
    intro k
    apply Option.ext
    intro event
    constructor
    · intro hk
      exact (hlookup k event hk).2 (fun receipt hreceipt => h k event receipt hk hreceipt)
    · intro hk
      -- a split event is an owned event
      rw [splitEvents, lookup_collect] at hk
      obtain ⟨e, he, hkeep⟩ := Option.bind_eq_some_iff.1 hk
      simp only [Option.ite_none_right_eq_some, Option.some.injEq, Bool.and_eq_true] at hkeep
      obtain ⟨⟨hown, _⟩, rfl⟩ := hkeep
      rw [← howned, ownedEvents, lookup_collect, he]
      simp [hown]

/-- For a tenant the closure left alone the comparison of
    `replaceFromSnapshot` succeeds exactly in record order. -/
theorem UnchangedFor.sameEvidence_iff :
    FileStore.sameEvidence state (splitTenantSnapshot after t) = true ↔ state.InRecordOrder := by
  have hst := hs t state ht
  have hcan := hun.canonical hs ht
  have hstreams : state.hot.streams = splitStreams after t :=
    (hun.streams.trans (ownedStreams_materialize hs ht)).symm
  have hreceipts : state.ledger.receipts = (splitTenantSnapshot after t).ledger.receipts := by
    rw [hcan.receipts_eq, hun.receipts, ownedReceipts_materialize hs ht]
  have hsegments : state.ledger.segments = (splitTenantSnapshot after t).ledger.segments ↔
      ∀ k, (state.ledger.segmentsOf k).Pairwise
        (fun a b => segmentLedgerKey a < segmentLedgerKey b) := by
    rw [hst.built.segments_eq_iff hcan.built.1]
    refine forall_congr' (fun k => ?_)
    rw [← ownedSegments_materialize hs ht, ← hun.segments]
    exact hcan.segmentsOf_eq_iff k
  have hcheckpoints : state.ledger.checkpoints = (splitTenantSnapshot after t).ledger.checkpoints ↔
      ∀ k, (state.ledger.checkpointsOf k).Pairwise
        (fun a b => checkpointKey a < checkpointKey b) := by
    rw [hst.built.checkpoints_eq_iff hcan.built.1]
    refine forall_congr' (fun k => ?_)
    rw [← ownedCheckpoints_materialize hs ht, ← hun.checkpoints]
    exact hcan.checkpointsOf_eq_iff k
  have hevents := hun.splitEvents_iff hs ht
  simp only [FileStore.sameEvidence, Bool.and_eq_true, decide_eq_true_eq]
  constructor
  · intro ⟨⟨⟨⟨he, _⟩, _⟩, hseg⟩, hcp⟩
    exact ⟨hsegments.1 hseg, hcheckpoints.1 hcp, hevents.1 he⟩
  · intro h
    exact ⟨⟨⟨⟨hevents.2 h.bodies, hstreams⟩, hreceipts⟩, hsegments.2 h.segments⟩,
      hcheckpoints.2 h.checkpoints⟩

end Untouched

/-! ## Section 4: The update -/

namespace FileStore

/-- Tenant `t` has a journal. -/
def Awaits (s : FileStore) (t : String) (state : TenantState) : Prop :=
  s.tenant[t]? = some state ∧ state.pending ≠ []

theorem awaiting_iff {s : FileStore} {t : String} {state : TenantState} :
    s.awaiting[t]? = some state ↔ s.Awaits t state := by
  unfold awaiting Awaits
  rw [lookup_collect]
  simp only [Option.bind_eq_some_iff, Option.ite_none_right_eq_some, Option.some.injEq]
  constructor
  · intro ⟨st, hst, hp, heq⟩
    subst heq
    exact ⟨hst, hp⟩
  · intro ⟨hst, hp⟩
    exact ⟨state, hst, hp, rfl⟩

/-- `replaceFromSnapshot` accepts a snapshot exactly when it splits back into
    the evidence of every tenant with a journal. -/
theorem replaceFromSnapshot_ok_iff (s : FileStore) (data : Snapshot) :
    (s.replaceFromSnapshot data).2 = .ok () ↔
      ∀ t state, s.Awaits t state → SnapshotNames data t ∧
        sameEvidence state (splitTenantSnapshot data t) = true := by
  have hcheck : s.awaiting.toList.all
      (fun p => ((splitTenants data)[p.1]?).any (sameEvidence p.2)) = true ↔
      ∀ t state, s.Awaits t state → SnapshotNames data t ∧
        sameEvidence state (splitTenantSnapshot data t) = true := by
    rw [List.all_eq_true]
    constructor
    · intro h t state ha
      have hany := h (t, state) (mem_entries.2 (awaiting_iff.2 ha))
      simp only at hany
      cases hnext : (splitTenants data)[t]? with
      | none =>
        rw [hnext] at hany
        cases hany
      | some next =>
        rw [hnext] at hany
        obtain ⟨hname, heq⟩ := (lookup_splitTenants data t next).1 hnext
        subst heq
        exact ⟨hname, hany⟩
    · intro h p hp
      have ha := awaiting_iff.1 (mem_entries.1 (show (p.1, p.2) ∈ s.awaiting.toList from hp))
      obtain ⟨hname, hsame⟩ := h p.1 p.2 ha
      rw [(lookup_splitTenants data p.1 _).2 ⟨hname, rfl⟩]
      exact hsame
  rw [← hcheck]
  unfold replaceFromSnapshot
  simp only
  split
  · next h => simp [h]
  · next h => simp [h]

theorem replaceFromSnapshot_keeps {s : FileStore} {data : Snapshot}
    (hok : (s.replaceFromSnapshot data).2 = .ok ()) {t : String} {state : TenantState}
    (ha : s.Awaits t state) :
    (s.replaceFromSnapshot data).1.tenant[t]? = some state ∧
      (s.replaceFromSnapshot data).1.disk.hot[t]? = s.disk.hot[t]? ∧
      (s.replaceFromSnapshot data).1.disk.ledger[t]? = s.disk.ledger[t]? := by
  have hkept := awaiting_iff.2 ha
  unfold replaceFromSnapshot at hok ⊢
  simp only at hok ⊢
  split at hok
  · next h =>
    rw [if_pos h]
    refine ⟨?_, ?_, ?_⟩
    · rw [lookup_overlay, hkept]
      rfl
    · simp only [persistPrepared, lookup_overlay, lookup_collect, hkept]
      simp
    · simp only [persistPrepared, lookup_overlay, lookup_collect, hkept]
      simp
  · cases hok

theorem replaceFromSnapshot_rewrites {s : FileStore} {data : Snapshot}
    (hok : (s.replaceFromSnapshot data).2 = .ok ()) {t : String}
    (hfree : ∀ state, ¬ s.Awaits t state) :
    (s.replaceFromSnapshot data).1.tenant[t]? = (splitTenants data)[t]? ∧
      (s.replaceFromSnapshot data).1.disk.hot[t]? =
        (((splitTenants data)[t]?).map
          (fun state => (⟨state.version, state.hot, state.pending⟩ : HotFile))).or s.disk.hot[t]? ∧
      (s.replaceFromSnapshot data).1.disk.ledger[t]? =
        (((splitTenants data)[t]?).map (·.ledger.records)).or s.disk.ledger[t]? := by
  have hnone : s.awaiting[t]? = none := by
    cases ha : s.awaiting[t]? with
    | none => rfl
    | some state => exact absurd (awaiting_iff.1 ha) (hfree state)
  unfold replaceFromSnapshot at hok ⊢
  simp only at hok ⊢
  split at hok
  · next h =>
    rw [if_pos h]
    refine ⟨?_, ?_, ?_⟩
    · rw [lookup_overlay, hnone]
      rfl
    · simp only [persistPrepared, lookup_overlay, lookup_collect, hnone]
      cases (splitTenants data)[t]? <;> simp
    · simp only [persistPrepared, lookup_overlay, lookup_collect, hnone]
      cases (splitTenants data)[t]? <;> simp
  · cases hok

/-- A refused snapshot is refused with `ErrTenantCommitPending` and changes
    nothing. -/
theorem replaceFromSnapshot_refused {s : FileStore} {data : Snapshot}
    (h : (s.replaceFromSnapshot data).2 ≠ .ok ()) :
    s.replaceFromSnapshot data = (s, .error .tenantCommitPending) := by
  unfold replaceFromSnapshot at h ⊢
  simp only at h ⊢
  split
  · next hall => simp [hall] at h
  · rfl

/-- **Snapshot updates around tenants that await recovery.** Let a closure
    leave the evidence of every tenant with a journal alone. The update then
    succeeds and keeps each of those tenants exactly when each one is still
    named by the snapshot and already is in record order; otherwise it is
    refused with `ErrTenantCommitPending`. -/
theorem update_keeps_awaiting_iff (s : FileStore) (hs : s.Owned)
    (fn : Snapshot → Except Err Snapshot) (after : Snapshot) (hfn : fn s.materialize = .ok after)
    (hun : ∀ t state, s.Awaits t state → UnchangedFor t s.materialize after) :
    ((s.update fn).2 = .ok () ∧ (s.update fn).2 ≠ .error .tenantCommitPending ∧
      ∀ t state, s.Awaits t state →
        (s.update fn).1.tenant[t]? = some state ∧
        (s.update fn).1.disk.hot[t]? = s.disk.hot[t]? ∧
        (s.update fn).1.disk.ledger[t]? = s.disk.ledger[t]?) ↔
      ∀ t state, s.Awaits t state → SnapshotNames after t ∧ state.InRecordOrder := by
  have hupdate : s.update fn = s.replaceFromSnapshot after := by
    unfold update
    rw [hfn]
  rw [hupdate]
  have hok : (s.replaceFromSnapshot after).2 = .ok () ↔
      ∀ t state, s.Awaits t state → SnapshotNames after t ∧ state.InRecordOrder := by
    rw [replaceFromSnapshot_ok_iff]
    constructor
    · intro h t state ha
      obtain ⟨hname, hsame⟩ := h t state ha
      exact ⟨hname, ((hun t state ha).sameEvidence_iff hs ha.1).1 hsame⟩
    · intro h t state ha
      obtain ⟨hname, horder⟩ := h t state ha
      exact ⟨hname, ((hun t state ha).sameEvidence_iff hs ha.1).2 horder⟩
  rw [← hok]
  constructor
  · intro h
    exact h.1
  · intro h
    refine ⟨h, by rw [h]; simp, ?_⟩
    intro t state ha
    exact replaceFromSnapshot_keeps h ha

/-- A store whose tenant `t` journaled the first receipt of its stream. -/
def oneJournal : FileStore :=
  let body : Event := { eventID := "e", tenantID := "t" }
  let receipt : EventReceipt := { eventID := "e", tenantID := "t", status := .ledgered }
  { tenant := (∅ : Dict TenantState).insert "t"
      { hot := { events := (∅ : Dict Event).insert (eventKey "t" "e") body }
        ledger := { tenantID := "t" }, version := 2, pending := [receiptRecord 1 receipt] } }

/-- The update that changes nothing succeeds next to a tenant in record
    order. -/
theorem update_keeps_awaiting_oneJournal :
    ∃ state, oneJournal.Awaits "t" state ∧ (oneJournal.update .ok).2 = .ok () ∧
      (oneJournal.update .ok).1.tenant["t"]? = some state := by
  have hentry : ∀ (t : String) state, oneJournal.tenant[t]? = some state →
      t = "t" ∧ state = oneJournal.stateOf "t" :=
    forall_entries (by decide)
  have howned : oneJournal.Owned := by
    intro t state ht
    obtain ⟨rfl, rfl⟩ := hentry t state ht
    exact ⟨.empty, forall_entries (by decide), forall_entries (by decide),
      forall_entries (by decide), forall_entries (by decide), forall_entries (by decide),
      forall_entries (by decide)⟩
  have hawaits : oneJournal.Awaits "t" (oneJournal.stateOf "t") := ⟨by decide, by decide⟩
  have horder : ∀ t state, oneJournal.Awaits t state →
      SnapshotNames oneJournal.materialize t ∧ state.InRecordOrder := by
    intro t state ha
    obtain ⟨rfl, rfl⟩ := hentry t state ha.1
    refine ⟨⟨by decide, .inl (by decide)⟩, ?_, ?_, ?_⟩
    · intro k
      rw [show (oneJournal.stateOf "t").ledger.segmentsOf k = [] from rfl]
      exact List.Pairwise.nil
    · intro k
      rw [show (oneJournal.stateOf "t").ledger.checkpointsOf k = [] from rfl]
      exact List.Pairwise.nil
    · intro k event receipt _ hreceipt
      rw [show (oneJournal.stateOf "t").ledger.receipts = ∅ from rfl] at hreceipt
      simp at hreceipt
  obtain ⟨hok, _, hkeep⟩ := (update_keeps_awaiting_iff oneJournal howned .ok _ rfl
    (fun _ _ _ => ⟨rfl, rfl, rfl, fun _ => rfl, fun _ => rfl⟩)).2 horder
  exact ⟨_, hawaits, hok, (hkeep _ _ hawaits).1⟩

/-- A transaction that appends the three segments of a stream sealed after 8,
    9 and 10 events. -/
def sealTo10 (view : TenantView) : Except Err (TenantView × Unit) :=
  let segment (first last : Int) : Segment :=
    { tenantID := "t", streamID := "s", firstSequence := first, lastSequence := last }
  match view.ledger.appendSegment (segment 1 8) with
  | .error e => .error e
  | .ok l1 =>
    match l1.appendSegment (segment 9 9) with
    | .error e => .error e
    | .ok l2 =>
      match l2.appendSegment (segment 10 10) with
      | .error e => .error e
      | .ok l3 => .ok ({ view with ledger := l3 }, ())

/-- A transaction that ingests one event. -/
def ingest11 (view : TenantView) : Except Err (TenantView × Unit) :=
  let body : Event := { eventID := "e11", tenantID := "t", streamID := "s", sequence := 11 }
  match view.ledger.setReceipt
      { eventID := "e11", tenantID := "t", status := .ledgered, streamID := "s"
        sequence := 11 } with
  | .error e => .error e
  | .ok l => .ok ({ view with
      ledger := l
      hot := { view.hot with events := view.hot.events.insert (eventKey "t" "e11") body } }, ())

/-- The store after the segments were sealed and the append of the eleventh
    event's receipt failed. -/
def journalAfter10 : FileStore :=
  let sealed := (FileStore.updateTenant {} noFaults "t" .coldFirst sealTo10).1
  (sealed.updateTenant { ledger := true } "t" .hotFirst ingest11).1

/-- Ten sealed events and a lost append: an update that changes nothing is
    refused, because `"10"` sorts before `"9"`. -/
theorem update_refused_after_ten_events :
    unresolvedTenantCommit (journalAfter10.stateOf "t") = .ok true ∧
      journalAfter10.update .ok = (journalAfter10, .error .tenantCommitPending) := by
  decide +kernel

end FileStore

end AuditGovernance
