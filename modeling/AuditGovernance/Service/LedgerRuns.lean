import AuditGovernance.Framework.Transition
import AuditGovernance.Service.Environment
import AuditGovernance.Service.Operations

/-! # Ledger runs

    The service as a transition system: any number of ingests, seals, archive
    passes, receipt transitions and control-plane updates on one store, in any
    order and without store faults. In every reachable state each stream is a
    hash chain whose segments tile everything that is not pending.
-/

namespace AuditGovernance

open FiniteMap HashChain Transition

/-! ## Section 1: The system -/

/-- A store with the events committed to it so far, per tenant. The log is
    bookkeeping of the run: no operation reads it. -/
structure LedgerState where
  store : V2Store
  log : String → List Event

inductive LedgerOp where
  | control (fn : Control → Except Err Control)
  | ingest (call : IngestCall)
  | sealPending (tenantID : String) (now : Time) (checkpointIDs : String → String)
  | archive (tenantID : String) (now : Time) (putSegment : Segment → Except ArchiveError Unit)
      (putEvent : Event → Except ArchiveError Unit)
  | transition (tenantID eventID : String) (status : Status) (evict : Bool) (now : Time)

/-- One operation; every operation is enabled, and a failed one leaves what it
    leaves. -/
def LedgerState.next (env : Env) (s : LedgerState) : LedgerOp → LedgerState
  | .control fn => { s with store := (s.store.updateControl fn).1 }
  | .ingest call =>
    { store := (s.store.ingestTenant env call).1
      log := V2Store.logged s.log call.tenantID (s.store.ingestTenant env call).2 }
  | .sealPending tenantID now ids => { s with store := (s.store.sealPendingTenant env tenantID now ids).1 }
  | .archive tenantID now putSegment putEvent =>
    { s with store := (s.store.archivePendingTenant tenantID now putSegment putEvent).1 }
  | .transition tenantID eventID status evict now =>
    { s with store := (s.store.transitionTenantReceipt tenantID eventID status evict now).1 }

/-- Runs from an empty store of either kind. -/
def ledgerSystem (env : Env) : System LedgerState LedgerOp where
  init := fun s => s.store.Empty ∧ s.log = fun _ => []
  step := fun s op => some (s.next env op)

theorem LedgerState.next_ledgers {env : Env} {s : LedgerState}
    (h : s.store.Ledgers env s.log) (op : LedgerOp) :
    (s.next env op).store.Ledgers env (s.next env op).log := by
  cases op with
  | control fn => exact h.updateControl fn
  | ingest call => exact h.ingestTenant call
  | sealPending tenantID now ids => exact h.sealPendingTenant tenantID now ids
  | archive tenantID now putSegment putEvent =>
    exact h.archivePendingTenant tenantID now putSegment putEvent
  | transition tenantID eventID status evict now =>
    exact h.transitionTenantReceipt tenantID eventID status evict now

theorem ledgers_of_reachable {env : Env} {s : LedgerState}
    (h : (ledgerSystem env).Reachable s) : s.store.Ledgers env s.log := by
  apply h.invariant
  · intro s hinit
    rw [hinit.2]
    exact V2Store.Ledgers.empty hinit.1
  · intro s op s' _ hs _ hstep
    cases hstep
    exact LedgerState.next_ledgers hs op

/-- Running operations from a reachable state. -/
def LedgerState.run (env : Env) (s : LedgerState) (ops : List LedgerOp) : LedgerState :=
  ops.foldl (fun s op => s.next env op) s

theorem reachable_run {env : Env} {s : LedgerState} (h : (ledgerSystem env).Reachable s)
    (ops : List LedgerOp) : (ledgerSystem env).Reachable (s.run env ops) := by
  induction ops generalizing s with
  | nil => exact h
  | cons op rest ih => exact ih (.step h trivial rfl)

/-! ## Section 2: What a stream looks like -/

/-- The hash of sequence `n`, empty before the first. -/
def hashAt (events : List Event) (n : Nat) : String :=
  if n = 0 then "" else ((events[n - 1]?).map Event.hash).getD ""

/-- The stored head of a stream; one that was never written starts at
    sequence one. -/
def streamHead (hot : HotDoc) (t S : String) : StreamState :=
  (hot.streams[streamKey t S]?).getD { tenantID := t, streamID := S, nextSequence := 1 }

/-- The segments follow each other from sequence `next` up to `last`. -/
def SegmentsCover (next : Int) : List Segment → Int → Prop
  | [], last => next = last + 1
  | s :: rest, last =>
    s.firstSequence = next ∧ s.firstSequence ≤ s.lastSequence ∧
      SegmentsCover (s.lastSequence + 1) rest last

/-- What a segment says about the events it covers. -/
structure Segment.Seals (env : Env) (s : Segment) (events : List Event) : Prop where
  eventCount : s.eventCount = s.lastSequence - s.firstSequence + 1
  merkleRoot : s.merkleRoot = env.merkleRoot
    (((events.map Event.hash).drop (s.firstSequence - 1).toNat).take s.eventCount.toNat)
  lastHash : s.lastHash = hashAt events s.lastSequence.toNat
  firstPrevHash : s.firstPrevHash = hashAt events (s.firstSequence - 1).toNat

/-- A stream of committed events with its head, receipts and segments. -/
structure StreamInvariant (env : Env) (t S : String) (events : List Event) (hot : HotDoc)
    (ledger : TenantLedger) : Prop where
  nextSequence : (streamHead hot t S).nextSequence = events.length + 1
  sequences : ∀ i (hi : i < events.length), (events[i]).sequence = i + 1
  prevHashes : ∀ i (hi : i < events.length), (events[i]).prevHash = hashAt events i
  hashes : ∀ e ∈ events, env.eventHash e = .ok e.hash
  headHash : (streamHead hot t S).headHash = hashAt events events.length
  receipts : ∀ n : Nat, 1 ≤ n → n ≤ events.length →
    ∃! key : String, ∃ rc, ledger.receipts[key]? = some rc ∧ rc.streamID = S ∧ rc.sequence = n
  receiptOf : ∀ (key : String) rc, ledger.receipts[key]? = some rc → rc.streamID = S →
    ∃ e ∈ events, key = eventKey t e.eventID ∧ rc.eventID = e.eventID ∧
      rc.sequence = e.sequence ∧ rc.hash = e.hash
  bodies : ∀ (key : String) e, hot.events[key]? = some e → e.streamID = S → e ∈ events
  pendingLength : (streamHead hot t S).pendingHashes.length ≤ events.length
  pendingHashes : (streamHead hot t S).pendingHashes =
    (events.drop (events.length - (streamHead hot t S).pendingHashes.length)).map Event.hash
  pendingEvents : (streamHead hot t S).pendingEvents =
    (events.drop (events.length - (streamHead hot t S).pendingHashes.length)).map
      (fun e => eventKey t e.eventID)
  pendingPrevHash : (streamHead hot t S).pendingPrevHash =
    if (streamHead hot t S).pendingHashes = [] then ""
    else hashAt events (events.length - (streamHead hot t S).pendingHashes.length)
  cover : SegmentsCover 1 (ledger.segmentsOf (streamKey t S))
    (events.length - (streamHead hot t S).pendingHashes.length)
  seals : ∀ s ∈ ledger.segmentsOf (streamKey t S), s.Seals env events

/-! ## Section 3: Reachable streams -/

section Stream

variable {env : Env} {t S : String} {events : List Event}

theorem hashAt_eq_endHash {n : Nat} (hn : n ≤ events.length) :
    hashAt events n = endHash chainLinks "" (events.take n) := by
  cases n with
  | zero => rfl
  | succ n =>
    have hlt : n < events.length := hn
    rw [List.take_succ_eq_append_getElem hlt, endHash_snoc]
    simp [hashAt, hlt, chainLinks]

theorem segmentsCover_of_tiled {n : Int} {p : String} {segments : List Segment}
    {sealed : List Event}
    (h : Tiled chainLinks (Segment.Describes env t S) n p segments sealed) :
    SegmentsCover n segments (n + sealed.length - 1) := by
  induction segments generalizing n p sealed with
  | nil =>
    have hnil : sealed = [] := h
    subst hnil
    simp [SegmentsCover]
  | cons s rest ih =>
    obtain ⟨block, tail, rfl, hne, hd, htail⟩ := h
    have hpos : 0 < block.length := List.length_pos_of_ne_nil hne
    have hcover := ih htail
    refine ⟨hd.firstSequence, ?_, ?_⟩
    · rw [hd.firstSequence, hd.lastSequence]
      omega
    · have hlast : s.lastSequence + 1 = n + block.length := by
        rw [hd.lastSequence]
        omega
      have hend : n + ((block ++ tail).length : Int) - 1 =
          n + block.length + (tail.length : Int) - 1 := by
        rw [List.length_append]
        push_cast
        omega
      rw [hlast, hend]
      exact hcover

theorem Segment.Describes.seals {s : Segment} {left block right : List Event} (hne : block ≠ [])
    (h : s.Describes env t S (1 + left.length) (endHash chainLinks "" left) block) :
    s.Seals env (left ++ block ++ right) := by
  have hpos : 0 < block.length := List.length_pos_of_ne_nil hne
  have hfirst : (s.firstSequence - 1).toNat = left.length := by
    rw [h.firstSequence]
    omega
  have hlast : s.lastSequence.toNat = (left ++ block).length := by
    rw [h.lastSequence, List.length_append]
    omega
  have hcount : s.eventCount.toNat = block.length := by
    rw [h.eventCount]
    rfl
  refine ⟨?_, ?_, ?_, ?_⟩
  · rw [h.eventCount, h.lastSequence, h.firstSequence]
    omega
  · rw [h.merkleRoot, hfirst, hcount]
    congr 1
    simp [List.map_append, List.append_assoc]
  · rw [h.lastHash, hlast, hashAt_eq_endHash (by simp), List.take_left, endHash_append]
  · rw [h.firstPrevHash, hfirst, hashAt_eq_endHash (by simp), List.append_assoc,
      List.take_left]

theorem streamHead_absent {hot : HotDoc} (h : hot.streams[streamKey t S]? = none) :
    streamHead hot t S = { tenantID := t, streamID := S, nextSequence := 1 } := by
  simp [streamHead, h]

theorem Evidence.streamChain {log : List Event} {hot : HotDoc} {receipts : Dict EventReceipt}
    {segments : String → List Segment} (h : Evidence env t log hot receipts segments) :
    StreamChain env t S (onStream log S) (streamHead hot t S) (segments (streamKey t S)) := by
  have hchain := h.streams S
  cases hst : hot.streams[streamKey t S]? with
  | none =>
    rw [hst] at hchain
    obtain ⟨hevents, hsegs⟩ := hchain
    rw [hevents, hsegs, streamHead_absent hst]
    exact ⟨trivial, [], [], rfl, ⟨rfl, rfl, rfl, rfl, rfl, rfl, rfl⟩, rfl⟩
  | some st =>
    rw [hst] at hchain
    simpa [streamHead, hst, OptionalChain] using hchain

theorem Evidence.receipt_onStream {log : List Event} {hot : HotDoc} {receipts : Dict EventReceipt}
    {segments : String → List Segment} (h : Evidence env t log hot receipts segments) {key : String}
    {rc : EventReceipt} (hk : receipts[key]? = some rc) (hS : rc.streamID = S) :
    ∃ e ∈ onStream log S, key = eventKey t e.eventID ∧ rc.Acknowledges t e := by
  obtain ⟨e, he, hkey, hack⟩ := h.receipt_event hk
  exact ⟨e, mem_onStream.2 ⟨he, hack.streamID.symm.trans hS⟩, hkey, hack⟩

theorem TenantEvidence.streamInvariant {log : List Event} {hot : HotDoc} {ledger : TenantLedger}
    (h : TenantEvidence env t log hot ledger) (S : String) :
    StreamInvariant env t S (onStream log S) hot ledger := by
  have hev := h.evidence
  have hchain := hev.streamChain (S := S)
  have hlinked := hchain.linked
  obtain ⟨done, pend, hparts, hheads, htiled⟩ := hchain.parts
  have hpending : (streamHead hot t S).pendingHashes.length = pend.length := by
    rw [hheads.pendingHashes, List.length_map]
  have hlen : (onStream log S).length = done.length + pend.length := by
    rw [hparts, List.length_append]
  have hdone : (onStream log S).length - (streamHead hot t S).pendingHashes.length =
      done.length := by omega
  have hdrop : (onStream log S).drop done.length = pend := by rw [hparts, List.drop_left]
  have htake : (onStream log S).take done.length = done := by rw [hparts, List.take_left]
  refine
    { nextSequence := ?_, sequences := ?_, prevHashes := ?_, hashes := ?_, headHash := ?_
      receipts := ?_, receiptOf := ?_, bodies := ?_, pendingLength := ?_, pendingHashes := ?_
      pendingEvents := ?_, pendingPrevHash := ?_, cover := ?_, seals := ?_ }
  · rw [hheads.nextSequence, ← hparts]
    omega
  · intro i hi
    have hseq := hlinked.seq_getElem hi
    simp only [chainLinks] at hseq
    omega
  · intro i hi
    rw [hashAt_eq_endHash (le_of_lt hi)]
    exact hlinked.prev_getElem hi
  · intro e he
    exact hev.hashed e (mem_onStream.1 he).1
  · rw [hheads.headHash, ← hparts, hashAt_eq_endHash le_rfl, List.take_length]
  · -- the receipt of the event with that number, and no other
    intro n hn hle
    have hlt : n - 1 < (onStream log S).length := by omega
    have hmem := List.getElem_mem hlt
    have hseq := hlinked.seq_getElem hlt
    obtain ⟨rc, hrc, hack⟩ := hev.receipted _ (mem_onStream.1 hmem).1
    have hnum : rc.sequence = n := by
      rw [hack.sequence]
      simp only [chainLinks] at hseq
      omega
    refine ⟨_, ⟨rc, hrc, hack.streamID.trans (mem_onStream.1 hmem).2, hnum⟩, ?_⟩
    rintro key ⟨rc', hrc', hS', hnum'⟩
    obtain ⟨e, he, rfl, hack'⟩ := hev.receipt_onStream hrc' hS'
    have hsame : e = (onStream log S)[n - 1] := by
      refine hlinked.seq_inj he hmem ?_
      show e.sequence = ((onStream log S)[n - 1]).sequence
      rw [← hack'.sequence, ← hack.sequence, hnum, hnum']
    rw [hsame]
  · intro key rc hrc hS
    obtain ⟨e, he, hkey, hack⟩ := hev.receipt_onStream hrc hS
    exact ⟨e, he, hkey, hack.eventID, hack.sequence, hack.hash⟩
  · intro key e he hS
    exact mem_onStream.2 ⟨(hev.bodies key e he).1, hS⟩
  · omega
  · rw [hdone, hdrop]
    exact hheads.pendingHashes
  · rw [hdone, hdrop]
    exact hheads.pendingEvents
  · rw [hdone, hashAt_eq_endHash (by omega), htake, hheads.pendingPrevHash, hheads.pendingHashes]
    simp
  · have hcover := segmentsCover_of_tiled htiled
    have hend : ((onStream log S).length : Int) - (streamHead hot t S).pendingHashes.length =
        1 + (done.length : Int) - 1 := by omega
    rw [hend]
    exact hcover
  · intro s hs
    obtain ⟨left, block, right, hsplit, hne, hd⟩ := htiled.mem hs
    rw [hparts, hsplit, List.append_assoc]
    exact hd.seals hne

end Stream

/-- **Hash chain and segments.** In every reachable state, the events committed
    to a stream, its head, its receipts and its segments agree. -/
theorem streamInvariant_of_reachable (env : Env) {s : LedgerState}
    (h : (ledgerSystem env).Reachable s) (t S : String) :
    StreamInvariant env t S (onStream (s.log t) S) (s.store.hotOf t) (s.store.ledgerOf t) :=
  ((ledgers_of_reachable h).2 t).streamInvariant S

/-! ### A run of the system -/

/-- An event of the source `billing` of tenant `acme`, as `Ingest` prepares
    it. -/
def invoiceEvent (id : String) : Event :=
  { eventID := id, tenantID := "acme", sourceSystem := "billing", eventType := "invoice.paid"
    schemaID := "invoice", schemaVersion := 1, occurredAt := 63900000000000000000
    receivedAt := 63900000001000000000, actor := { id := "clerk" }, action := "pay"
    outcome := "success", payloadRef := "invoice-1", sourceDigest := "digest-" ++ id
    dataClassification := "internal", retentionClass := "standard", idempotencyKey := id }

def invoiceCall (id : String) : IngestCall :=
  { tenantHint := "acme", clientID := "billing", tenantID := "acme", event := invoiceEvent id
    inputDigest := "digest-" ++ id, checkpointID := "checkpoint-" ++ id
    archivedEvent := fun _ => .error (.notFound "")
    publicationConfirmed := fun _ => .ok false }

def billingSource : SourceSystem := { id := "billing", tenantID := "acme", active := true }

def registerBilling (control : Control) : Except Err Control :=
  .ok { control with sources := control.sources.insert (sourceKey "acme" "billing") billingSource }

/-- Two invoices on an empty file store, sealed together. -/
def invoiceRun : LedgerState :=
  LedgerState.run (developmentDeployment 2).env { store := .file {}, log := fun _ => [] }
    [.control registerBilling, .ingest (invoiceCall "e1"), .ingest (invoiceCall "e2")]

theorem streamInvariant_invoiceRun :
    (onStream (invoiceRun.log "acme") "acme:source:billing").length = 2 ∧
      ((invoiceRun.store.ledgerOf "acme").segmentsOf
        (streamKey "acme" "acme:source:billing")).length = 1 ∧
      StreamInvariant (developmentDeployment 2).env "acme" "acme:source:billing"
        (onStream (invoiceRun.log "acme") "acme:source:billing") (invoiceRun.store.hotOf "acme")
        (invoiceRun.store.ledgerOf "acme") := by
  have hempty : (ledgerSystem (developmentDeployment 2).env).Reachable
      { store := .file {}, log := fun _ => [] } := .init ⟨rfl, rfl⟩
  exact ⟨by decide +kernel, by decide +kernel,
    streamInvariant_of_reachable _ (reachable_run hempty _) _ _⟩

end AuditGovernance
