import AuditGovernance.Framework.HashChain
import AuditGovernance.Service.Workers

/-! # The evidence invariant

    One predicate ties together what a tenant stores in four places: the hot
    bodies, the stream heads, the latest receipts and the sealed segments. All
    four describe one list, the events committed so far in commit order. The
    events of a stream form a hash chain, and its segments tile the part of
    the chain that is no longer pending.

    The four update rules (`append`, `seal`, `acknowledge`, `evict`) are what
    every transaction of the service is made of.
-/

namespace AuditGovernance

open FiniteMap HashChain

/-! ## Section 1: Chains of events -/

/-- How committed events are linked. -/
def chainLinks : Links Event := ⟨Event.sequence, Event.prevHash, Event.hash⟩

/-- The committed events of one stream, in order. -/
def onStream (log : List Event) (streamID : String) : List Event :=
  log.filter (fun e => e.streamID = streamID)

theorem mem_onStream {log : List Event} {S : String} {e : Event} :
    e ∈ onStream log S ↔ e ∈ log ∧ e.streamID = S := by
  simp [onStream]

@[simp] theorem onStream_snoc_self (log : List Event) (e : Event) :
    onStream (log ++ [e]) e.streamID = onStream log e.streamID ++ [e] := by
  simp [onStream]

theorem onStream_snoc_ne {S : String} (log : List Event) {e : Event} (h : e.streamID ≠ S) :
    onStream (log ++ [e]) S = onStream log S := by
  simp [onStream, h]

/-- The receipt is about this event. -/
structure EventReceipt.Acknowledges (rc : EventReceipt) (t : String) (e : Event) : Prop where
  tenantID : rc.tenantID = t
  eventID : rc.eventID = e.eventID
  idempotencyKey : rc.idempotencyKey = e.idempotencyKey
  streamID : rc.streamID = e.streamID
  sequence : rc.sequence = e.sequence
  hash : rc.hash = e.hash

/-- The segment seals this block, which starts at number `n` after hash `p`. -/
structure Segment.Describes (env : Env) (t S : String) (s : Segment) (n : Int) (p : String)
    (block : List Event) : Prop where
  tenantID : s.tenantID = t
  streamID : s.streamID = S
  firstSequence : s.firstSequence = n
  lastSequence : s.lastSequence = n + block.length - 1
  firstPrevHash : s.firstPrevHash = p
  lastHash : s.lastHash = endHash chainLinks p block
  eventCount : s.eventCount = block.length
  merkleRoot : s.merkleRoot = env.merkleRoot (block.map Event.hash)

/-- The head of a stream whose chain is `done ++ pend`: `done` is sealed and
    `pend` is pending. -/
structure StreamState.Heads (t S : String) (st : StreamState) (done pend : List Event) :
    Prop where
  tenantID : st.tenantID = t
  streamID : st.streamID = S
  nextSequence : st.nextSequence = 1 + (done ++ pend).length
  headHash : st.headHash = endHash chainLinks "" (done ++ pend)
  pendingHashes : st.pendingHashes = pend.map Event.hash
  pendingEvents : st.pendingEvents = pend.map (fun e => eventKey t e.eventID)
  pendingPrevHash : st.pendingPrevHash = if pend = [] then "" else endHash chainLinks "" done

/-- A stream with its chain and its segments. -/
structure StreamChain (env : Env) (t S : String) (chain : List Event) (st : StreamState)
    (segments : List Segment) : Prop where
  linked : Linked chainLinks 1 "" chain
  parts : ∃ done pend, chain = done ++ pend ∧ st.Heads t S done pend ∧
    Tiled chainLinks (Segment.Describes env t S) 1 "" segments done

/-- A stream that may not exist yet. -/
def OptionalChain (env : Env) (t S : String) (chain : List Event) (segments : List Segment) :
    Option StreamState → Prop
  | none => chain = [] ∧ segments = []
  | some st => StreamChain env t S chain st segments

/-! ## Section 2: The invariant -/

/-- What a tenant stores describes the committed events `log`. -/
structure Evidence (env : Env) (t : String) (log : List Event) (hot : HotDoc)
    (receipts : Dict EventReceipt) (segments : String → List Segment) : Prop where
  distinct : (log.map Event.eventID).Nodup
  hashed : ∀ e ∈ log, env.eventHash e = .ok e.hash
  placed : ∀ e ∈ log, e.streamID ≠ ""
  receipted : ∀ e ∈ log, ∃ rc, receipts[eventKey t e.eventID]? = some rc ∧ rc.Acknowledges t e
  known : ∀ (k : String) rc, receipts[k]? = some rc → ∃ e ∈ log, k = eventKey t e.eventID
  bodies : ∀ (k : String) e, hot.events[k]? = some e → e ∈ log ∧ k = eventKey t e.eventID
  owned : ∀ (k : String) st, hot.streams[k]? = some st →
    st.tenantID = t ∧ st.streamID ≠ "" ∧ k = streamKey t st.streamID
  streams : ∀ S : String, OptionalChain env t S (onStream log S) (segments (streamKey t S))
    hot.streams[streamKey t S]?

section Rules

variable {env : Env} {t : String} {log : List Event} {hot : HotDoc}
  {receipts : Dict EventReceipt} {segments : String → List Segment}

theorem Evidence.empty (env : Env) (t : String) : Evidence env t [] {} ∅ (fun _ => []) := by
  refine ⟨by simp, by simp, by simp, by simp, ?_, ?_, ?_, ?_⟩
  · intro k rc hk
    simp at hk
  · intro k e hk
    simp at hk
  · intro k st hk
    simp at hk
  · intro S
    simp [OptionalChain, onStream]

theorem Evidence.eq_of_eventID (h : Evidence env t log hot receipts segments) {a b : Event}
    (ha : a ∈ log) (hb : b ∈ log) (hid : a.eventID = b.eventID) : a = b :=
  List.inj_on_of_nodup_map h.distinct ha hb hid

theorem Evidence.receipt_event (h : Evidence env t log hot receipts segments) {k : String}
    {rc : EventReceipt} (hk : receipts[k]? = some rc) :
    ∃ e ∈ log, k = eventKey t e.eventID ∧ rc.Acknowledges t e := by
  obtain ⟨e, he, rfl⟩ := h.known k rc hk
  obtain ⟨rc', hrc', hack⟩ := h.receipted e he
  have heq : rc = rc' := by simpa using hk.symm.trans hrc'
  exact ⟨e, he, rfl, heq ▸ hack⟩

theorem Evidence.not_mem_of_receipt (h : Evidence env t log hot receipts segments) {id : String}
    (hk : receipts[eventKey t id]? = none) : id ∉ log.map Event.eventID := by
  intro hmem
  obtain ⟨e, he, rfl⟩ := List.mem_map.1 hmem
  obtain ⟨rc, hrc, -⟩ := h.receipted e he
  rw [hk] at hrc
  cases hrc

/-! ### Rule 1: another version of a receipt -/

theorem Evidence.acknowledge (h : Evidence env t log hot receipts segments) {e : Event}
    (he : e ∈ log) {rc : EventReceipt} (hack : rc.Acknowledges t e) :
    Evidence env t log hot (receipts.insert (eventKey t e.eventID) rc) segments := by
  refine ⟨h.distinct, h.hashed, h.placed, ?_, ?_, h.bodies, h.owned, h.streams⟩
  · intro e' he'
    rw [lookup_insert]
    by_cases hid : eventKey t e.eventID = eventKey t e'.eventID
    · have heq := h.eq_of_eventID he he' (eventKey_inj.1 hid)
      subst heq
      exact ⟨rc, if_pos rfl, hack⟩
    · rw [if_neg hid]
      exact h.receipted e' he'
  · intro k rc' hk
    rw [lookup_insert] at hk
    by_cases hkey : eventKey t e.eventID = k
    · exact ⟨e, he, hkey.symm⟩
    · rw [if_neg hkey] at hk
      exact h.known k rc' hk

/-! ### Rule 2: dropping a hot body -/

theorem Evidence.evict (h : Evidence env t log hot receipts segments) (key : String) :
    Evidence env t log { hot with events := hot.events.erase key } receipts segments := by
  refine ⟨h.distinct, h.hashed, h.placed, h.receipted, h.known, ?_, h.owned, h.streams⟩
  intro k e hk
  simp only [lookup_erase] at hk
  by_cases hkey : key = k
  · rw [if_pos hkey] at hk
    cases hk
  · rw [if_neg hkey] at hk
    exact h.bodies k e hk

/-! ### Rule 3: one more event -/

theorem StreamState.Heads.extend {S : String} {st : StreamState} {done pend : List Event}
    (h : st.Heads t S done pend) {e : Event} (hprev : e.prevHash = st.headHash) :
    (st.extend e (eventKey t e.eventID)).Heads t S done (pend ++ [e]) := by
  refine ⟨h.tenantID, h.streamID, ?_, ?_, ?_, ?_, ?_⟩
  · simp only [StreamState.extend, h.nextSequence, List.length_append, List.length_singleton]
    omega
  · rw [← List.append_assoc, endHash_snoc]
    rfl
  · simp [StreamState.extend, h.pendingHashes]
  · simp [StreamState.extend, h.pendingEvents]
  · simp only [StreamState.extend, h.pendingHashes, h.pendingPrevHash]
    cases pend with
    | nil =>
      -- the event opens a new pending run: the hash before it is the old head
      rw [h.headHash, List.append_nil] at hprev
      simp [hprev]
    | cons a rest => simp

theorem StreamChain.extend {S : String} {chain : List Event} {st : StreamState}
    {segs : List Segment} (h : StreamChain env t S chain st segs) {e : Event}
    (hseq : e.sequence = st.nextSequence) (hprev : e.prevHash = st.headHash) :
    StreamChain env t S (chain ++ [e]) (st.extend e (eventKey t e.eventID)) segs := by
  obtain ⟨done, pend, rfl, hheads, htiled⟩ := h.parts
  refine ⟨h.linked.snoc ?_ ?_, done, pend ++ [e], by simp, hheads.extend hprev, htiled⟩
  · exact hseq.trans hheads.nextSequence
  · exact hprev.trans hheads.headHash

theorem Evidence.ingestStream (h : Evidence env t log hot receipts segments) (S : String) :
    StreamChain env t S (onStream log S) (ingestStream hot t S) (segments (streamKey t S)) := by
  have hstream := h.streams S
  unfold AuditGovernance.ingestStream
  cases hst : hot.streams[streamKey t S]? with
  | none =>
    rw [hst] at hstream
    obtain ⟨hchain, hsegs⟩ := hstream
    rw [hchain, hsegs]
    refine ⟨trivial, [], [], rfl, ?_, rfl⟩
    exact ⟨rfl, rfl, rfl, rfl, rfl, rfl, rfl⟩
  | some st =>
    rw [hst] at hstream
    have hne := (h.owned _ st hst).2.1
    simpa [hne, OptionalChain] using hstream

theorem Evidence.append (h : Evidence env t log hot receipts segments) {e : Event}
    (hnew : e.eventID ∉ log.map Event.eventID) (hstream : e.streamID ≠ "")
    (hhash : env.eventHash e = .ok e.hash)
    (hseq : e.sequence = (AuditGovernance.ingestStream hot t e.streamID).nextSequence)
    (hprev : e.prevHash = (AuditGovernance.ingestStream hot t e.streamID).headHash)
    {rc : EventReceipt} (hack : rc.Acknowledges t e) :
    Evidence env t (log ++ [e])
      { streams := hot.streams.insert (streamKey t e.streamID)
          ((AuditGovernance.ingestStream hot t e.streamID).extend e (eventKey t e.eventID))
        events := hot.events.insert (eventKey t e.eventID) e }
      (receipts.insert (eventKey t e.eventID) rc) segments := by
  have hkey : ∀ e' ∈ log, eventKey t e.eventID ≠ eventKey t e'.eventID := by
    intro e' he' heq
    exact hnew (List.mem_map.2 ⟨e', he', (eventKey_inj.1 heq).symm⟩)
  have hchain := (h.ingestStream e.streamID).extend hseq hprev
  refine ⟨?_, ?_, ?_, ?_, ?_, ?_, ?_, ?_⟩
  · rw [List.map_append, List.nodup_append]
    refine ⟨h.distinct, by simp, ?_⟩
    intro a ha b hb heq
    simp only [List.map_cons, List.map_nil, List.mem_singleton] at hb
    exact hnew (hb ▸ heq ▸ ha)
  · intro e' he'
    rcases List.mem_append.1 he' with he' | he'
    · exact h.hashed e' he'
    · rw [List.mem_singleton.1 he']
      exact hhash
  · intro e' he'
    rcases List.mem_append.1 he' with he' | he'
    · exact h.placed e' he'
    · rw [List.mem_singleton.1 he']
      exact hstream
  · intro e' he'
    rcases List.mem_append.1 he' with he' | he'
    · rw [lookup_insert_ne _ _ (hkey e' he')]
      exact h.receipted e' he'
    · rw [List.mem_singleton.1 he', lookup_insert_self]
      exact ⟨rc, rfl, hack⟩
  · intro k rc' hk
    rw [lookup_insert] at hk
    by_cases hk' : eventKey t e.eventID = k
    · exact ⟨e, by simp, hk'.symm⟩
    · rw [if_neg hk'] at hk
      obtain ⟨e', he', rfl⟩ := h.known k rc' hk
      exact ⟨e', by simp [he'], rfl⟩
  · intro k e' hk
    simp only [lookup_insert] at hk
    by_cases hk' : eventKey t e.eventID = k
    · rw [if_pos hk'] at hk
      cases hk
      exact ⟨by simp, hk'.symm⟩
    · rw [if_neg hk'] at hk
      obtain ⟨he', rfl⟩ := h.bodies k e' hk
      exact ⟨by simp [he'], rfl⟩
  · intro k st hk
    simp only [lookup_insert] at hk
    by_cases hk' : streamKey t e.streamID = k
    · rw [if_pos hk'] at hk
      cases hk
      obtain ⟨done, pend, -, hheads, -⟩ := hchain.parts
      rw [hheads.tenantID, hheads.streamID]
      exact ⟨rfl, hstream, hk'.symm⟩
    · rw [if_neg hk'] at hk
      exact h.owned k st hk
  · intro S
    by_cases hS : e.streamID = S
    · subst hS
      rw [onStream_snoc_self]
      simpa [OptionalChain] using hchain
    · rw [onStream_snoc_ne log hS]
      simp only [lookup_insert, streamKey_inj, if_neg hS]
      exact h.streams S

/-! ### Rule 4: sealing a stream -/

theorem StreamState.Heads.sealSegment {S : String} {st : StreamState} {done pend : List Event}
    (h : st.Heads t S done pend) (hne : pend ≠ []) {now : Time} {id : String} {segment : Segment}
    {checkpoint : Checkpoint} (hs : env.sealSegment st now id = .ok (segment, checkpoint)) :
    segment.Describes env t S (1 + done.length) (endHash chainLinks "" done) pend := by
  unfold Env.sealSegment at hs
  simp only at hs
  split at hs
  · cases hs
  · cases hs
    have hlen : (st.pendingHashes.length : Int) = pend.length := by simp [h.pendingHashes]
    refine ⟨h.tenantID, h.streamID, ?_, ?_, ?_, ?_, hlen, ?_⟩
    · show st.nextSequence - st.pendingHashes.length = 1 + done.length
      rw [h.nextSequence, hlen, List.length_append]
      omega
    · show st.nextSequence - 1 = 1 + done.length + pend.length - 1
      rw [h.nextSequence, List.length_append]
      omega
    · show st.pendingPrevHash = endHash chainLinks "" done
      rw [h.pendingPrevHash, if_neg hne]
    · show st.headHash = endHash chainLinks (endHash chainLinks "" done) pend
      rw [h.headHash, endHash_append]
    · show env.merkleRoot st.pendingHashes = env.merkleRoot (pend.map Event.hash)
      rw [h.pendingHashes]

theorem StreamState.Heads.cleared {S : String} {st : StreamState} {done pend : List Event}
    (h : st.Heads t S done pend) : st.cleared.Heads t S (done ++ pend) [] := by
  refine ⟨h.tenantID, h.streamID, ?_, ?_, rfl, rfl, rfl⟩
  · rw [List.append_nil]
    exact h.nextSequence
  · rw [List.append_nil]
    exact h.headHash

theorem Evidence.seal (h : Evidence env t log hot receipts segments) {key : String}
    {st : StreamState} (hst : hot.streams[key]? = some st) (hne : st.pendingHashes ≠ [])
    {now : Time} {id : String} {segment : Segment} {checkpoint : Checkpoint}
    (hs : env.sealSegment st now id = .ok (segment, checkpoint)) :
    Evidence env t log { hot with streams := hot.streams.insert key st.cleared } receipts
      (fun k => if k = key then segments k ++ [segment] else segments k) := by
  obtain ⟨hten, hid, rfl⟩ := h.owned key st hst
  refine ⟨h.distinct, h.hashed, h.placed, h.receipted, h.known, h.bodies, ?_, ?_⟩
  · intro k st' hk
    simp only [lookup_insert] at hk
    by_cases hk' : streamKey t st.streamID = k
    · rw [if_pos hk'] at hk
      cases hk
      exact ⟨hten, hid, hk'.symm⟩
    · rw [if_neg hk'] at hk
      exact h.owned k st' hk
  · intro S
    have hstream := h.streams S
    by_cases hS : st.streamID = S
    · subst hS
      rw [hst] at hstream
      obtain ⟨done, pend, hchain, hheads, htiled⟩ := hstream.parts
      have hpend : pend ≠ [] := by
        intro hnil
        rw [hheads.pendingHashes, hnil] at hne
        exact hne rfl
      simp only [lookup_insert_self, if_true]
      refine ⟨hstream.linked, done ++ pend, [], by simpa using hchain, hheads.cleared, ?_⟩
      exact htiled.snoc hpend (hheads.sealSegment hpend hs)
    · simp only [lookup_insert, streamKey_inj, if_neg hS, if_neg (Ne.symm hS)]
      exact hstream

end Rules

end AuditGovernance
