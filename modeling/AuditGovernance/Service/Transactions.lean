import AuditGovernance.Service.Evidence

/-! # The service's transactions

    Every tenant transaction of the service as a `TenantClosure`, and for each
    of them the same two facts: it only writes through the ledger's write
    operations, and it keeps the evidence invariant. An ingest extends the
    committed log by the event it placed; the others leave the log alone.
-/

namespace AuditGovernance

open FiniteMap HashChain LedgerView TenantLedger

/-! ## Section 1: Views with evidence -/

/-- The evidence invariant of a committed tenant. -/
structure TenantEvidence (env : Env) (t : String) (log : List Event) (hot : HotDoc)
    (ledger : TenantLedger) : Prop where
  built : Built t ledger
  evidence : Evidence env t log hot ledger.receipts ledger.segmentsOf

theorem TenantEvidence.empty (env : Env) (t : String) :
    TenantEvidence env t [] {} { tenantID := t } := by
  refine ⟨.empty, ?_⟩
  have hnone : TenantLedger.segmentsOf { tenantID := t } = fun _ => [] := by
    funext k
    simp [TenantLedger.segmentsOf]
  rw [hnone]
  exact Evidence.empty env t

/-- The evidence invariant inside a transaction: it holds of what the commit
    would leave behind. -/
structure ViewEvidence (env : Env) (t : String) (log : List Event) (view : TenantView) :
    Prop where
  buffered : view.ledger.Buffered
  tenant : view.ledger.parent.tenantID = t
  evidence : Evidence env t log view.hot view.ledger.future.receipts view.ledger.future.segmentsOf

section Views

variable {env : Env} {t : String} {log : List Event}

/-- A transaction starts from the committed tenant. -/
theorem TenantEvidence.view {hot : HotDoc} {ledger : TenantLedger}
    (h : TenantEvidence env t log hot ledger) (global : Control) :
    ViewEvidence env t log { hot := hot, ledger := { parent := ledger }, global := global } :=
  ⟨Buffered.start h.built, h.built.tenantID_eq, h.evidence⟩

theorem ViewEvidence.committed {view : TenantView} (h : ViewEvidence env t log view) :
    TenantEvidence env t log view.hot view.ledger.future :=
  ⟨h.tenant ▸ h.buffered.future_built, h.evidence⟩

theorem ViewEvidence.withGlobal {view : TenantView} (h : ViewEvidence env t log view)
    (global : Control) : ViewEvidence env t log { view with global := global } :=
  ⟨h.buffered, h.tenant, h.evidence⟩

theorem ViewEvidence.setReceipt {view : TenantView} (h : ViewEvidence env t log view) {e : Event}
    (he : e ∈ log) {rc : EventReceipt} (hack : rc.Acknowledges t e) {ledger : LedgerView}
    (hs : view.ledger.setReceipt rc = .ok ledger) :
    ViewEvidence env t log { view with ledger := ledger } ∧
      ledger.parent = view.ledger.parent := by
  have hown : rc.tenantID = view.ledger.parent.tenantID := hack.tenantID.trans h.tenant.symm
  obtain ⟨hbuf, hpar, hrec, hseg, -⟩ := h.buffered.setReceipt_future hown hs
  refine ⟨⟨hbuf, hpar ▸ h.tenant, ?_⟩, hpar⟩
  have hsegs : ledger.future.segmentsOf = view.ledger.future.segmentsOf := by
    funext k
    simp only [TenantLedger.segmentsOf, hseg]
  show Evidence env t log view.hot ledger.future.receipts ledger.future.segmentsOf
  rw [hrec, hsegs, hack.tenantID, hack.eventID]
  exact h.evidence.acknowledge he hack

theorem ViewEvidence.evict {view : TenantView} (h : ViewEvidence env t log view) (key : String) :
    ViewEvidence env t log
      { view with hot := { view.hot with events := view.hot.events.erase key } } :=
  ⟨h.buffered, h.tenant, h.evidence.evict key⟩

end Views

/-! ## Section 2: Sealing -/

section Sealing

variable {env : Env} {t : String} {log : List Event}

/-- `sealInto` in terms of its three writes. -/
theorem Env.sealInto_ok {view view' : TenantView} {key : String} {st : StreamState} {now : Time}
    {id : String} {segment : Segment}
    (hs : env.sealInto view key st now id = .ok (view', segment)) :
    ∃ checkpoint ledger ledger', env.sealSegment st now id = .ok (segment, checkpoint) ∧
      view.ledger.appendSegment segment = .ok ledger ∧
      ledger.appendCheckpoint checkpoint = .ok ledger' ∧
      view' = { view with
        ledger := ledger', hot := { view.hot with
          streams := view.hot.streams.insert key st.cleared } } := by
  unfold Env.sealInto at hs
  split at hs
  · cases hs
  next seg checkpoint hseal =>
  split at hs
  · cases hs
  next ledger hseg =>
  split at hs
  · cases hs
  next ledger' hcp =>
  cases hs
  exact ⟨checkpoint, ledger, ledger', hseal, hseg, hcp, rfl⟩

theorem Env.sealInto_wrote {view view' : TenantView} {key : String} {st : StreamState} {now : Time}
    {id : String} {segment : Segment}
    (hs : env.sealInto view key st now id = .ok (view', segment)) :
    Wrote view.ledger view'.ledger := by
  obtain ⟨checkpoint, ledger, ledger', -, hseg, hcp, rfl⟩ := Env.sealInto_ok hs
  exact .checkpoint (.segment (.refl _) hseg) hcp

theorem Evidence.firstSequence_lt {hot : HotDoc} {receipts : Dict EventReceipt}
    {segments : String → List Segment} (h : Evidence env t log hot receipts segments)
    {key : String} {st : StreamState} (hst : hot.streams[key]? = some st) {s : Segment}
    (hs : s ∈ segments key) :
    s.firstSequence < st.nextSequence - st.pendingHashes.length := by
  obtain ⟨-, -, rfl⟩ := h.owned key st hst
  have hstream := h.streams st.streamID
  rw [hst] at hstream
  obtain ⟨done, pend, -, hheads, htiled⟩ := hstream.parts
  obtain ⟨left, block, right, rfl, hblock, hdesc⟩ := htiled.mem hs
  have hpos : 0 < block.length := List.length_pos_iff.2 hblock
  rw [hdesc.firstSequence, hheads.nextSequence, hheads.pendingHashes, List.length_map]
  simp only [List.length_append]
  omega

theorem ViewEvidence.sealInto {view view' : TenantView} (h : ViewEvidence env t log view)
    {key : String} {st : StreamState} (hst : view.hot.streams[key]? = some st)
    (hne : st.pendingHashes ≠ []) {now : Time} {id : String} {segment : Segment}
    (hs : env.sealInto view key st now id = .ok (view', segment)) :
    ViewEvidence env t log view' := by
  obtain ⟨checkpoint, ledger, ledger', hseal, hseg, hcp, rfl⟩ := Env.sealInto_ok hs
  obtain ⟨hten, -, hkey⟩ := h.evidence.owned key st hst
  have hfields : segment.tenantID = t ∧ segment.streamID = st.streamID ∧
      segment.firstSequence = st.nextSequence - st.pendingHashes.length := by
    unfold Env.sealSegment at hseal
    simp only at hseal
    split at hseal
    · cases hseal
    · cases hseal
      exact ⟨hten, rfl, rfl⟩
  obtain ⟨hsten, hsid, hfirst⟩ := hfields
  have hskey : streamKey segment.tenantID segment.streamID = key := by rw [hsten, hsid, hkey]
  -- the segment is new: every committed one starts before the pending events
  have hnew : segmentRecord 1 segment ∉ view.ledger.future.records := by
    intro hmem
    have hin : segment ∈ view.ledger.future.segmentsOf key :=
      h.buffered.future_built.mem_segmentsOf.2 ⟨hmem, hskey⟩
    have hlt := h.evidence.firstSequence_lt hst hin
    omega
  obtain ⟨hbuf, hpar, hrec, hsegs⟩ := h.buffered.appendSegment_future hseg hnew
  obtain ⟨hbuf', hpar', hrec', hsegs'⟩ := hbuf.appendCheckpoint_future hcp
  refine ⟨hbuf', hpar' ▸ hpar ▸ h.tenant, ?_⟩
  have hfinal : ledger'.future.segmentsOf =
      fun k => if k = key then view.ledger.future.segmentsOf k ++ [segment]
        else view.ledger.future.segmentsOf k := by
    funext k
    have hk := hsegs k
    rw [hskey] at hk
    rw [← hk]
    simp only [TenantLedger.segmentsOf, hsegs']
  show Evidence env t log _ ledger'.future.receipts ledger'.future.segmentsOf
  rw [hrec', hrec, hfinal]
  exact h.evidence.seal hst hne hseal

theorem mem_pendingStreams {hot : HotDoc} {key : String} :
    key ∈ pendingStreams hot t ↔
      ∃ st, hot.streams[key]? = some st ∧ st.tenantID = t ∧ st.pendingHashes ≠ [] := by
  unfold pendingStreams
  rw [List.mem_filterMap]
  constructor
  · intro ⟨p, hp, hkey⟩
    simp only [Option.ite_none_right_eq_some, Option.some.injEq] at hkey
    obtain ⟨hpend, rfl⟩ := hkey
    exact ⟨p.2, mem_entries.1 hp, hpend⟩
  · intro ⟨st, hst, hpend⟩
    exact ⟨(key, st), mem_entries.2 hst, by simp [hpend]⟩

theorem pendingStreams_nodup (hot : HotDoc) (t : String) : (pendingStreams hot t).Nodup := by
  unfold pendingStreams
  rw [List.Nodup, List.pairwise_filterMap]
  refine (entries_distinct hot.streams).imp ?_
  intro a b hab x hx y hy
  simp only [Option.ite_none_right_eq_some, Option.some.injEq] at hx hy
  rw [← hx.2, ← hy.2]
  exact hab

theorem Env.sealStreams_wrote {now : Time} {ids : String → String} {keys : List String}
    {view view' : TenantView} (hs : env.sealStreams now ids keys view = .ok view') :
    Wrote view.ledger view'.ledger := by
  induction keys generalizing view with
  | nil =>
    cases hs
    exact .refl _
  | cons key rest ih =>
    rw [Env.sealStreams] at hs
    split at hs
    · cases hs
    · next view1 segment hseal => exact (Env.sealInto_wrote hseal).trans (ih hs)

theorem ViewEvidence.sealStreams {now : Time} {ids : String → String} {keys : List String}
    {view view' : TenantView} (h : ViewEvidence env t log view) (hnodup : keys.Nodup)
    (hpend : ∀ key ∈ keys, ∃ st, view.hot.streams[key]? = some st ∧ st.pendingHashes ≠ [])
    (hs : env.sealStreams now ids keys view = .ok view') : ViewEvidence env t log view' := by
  induction keys generalizing view with
  | nil =>
    cases hs
    exact h
  | cons key rest ih =>
    rw [Env.sealStreams] at hs
    obtain ⟨st, hst, hne⟩ := hpend key List.mem_cons_self
    rw [hst, Option.getD_some] at hs
    split at hs
    · cases hs
    · next view1 segment hseal =>
      have hnext := h.sealInto hst hne hseal
      obtain ⟨_, _, _, -, -, -, rfl⟩ := Env.sealInto_ok hseal
      obtain ⟨hnot, hrest⟩ := List.nodup_cons.1 hnodup
      refine ih hnext hrest ?_ hs
      intro other hother
      have hkey : key ≠ other := fun heq => hnot (heq ▸ hother)
      simp only [lookup_insert_ne _ _ hkey]
      exact hpend other (List.mem_cons_of_mem _ hother)

theorem ViewEvidence.sealBody {now : Time} {ids : String → String} {view view' : TenantView}
    (h : ViewEvidence env t log view) (hs : env.sealBody t now ids view = .ok view') :
    ViewEvidence env t log view' := by
  apply h.sealStreams (pendingStreams_nodup view.hot t) ?_ hs
  intro key hkey
  obtain ⟨st, hst, -, hne⟩ := mem_pendingStreams.1 hkey
  exact ⟨st, hst, hne⟩

end Sealing

/-- `sealPendingTenant`'s transaction. -/
def Env.sealClosure (env : Env) (tenantID : String) (now : Time) (ids : String → String) :
    TenantClosure Unit where
  run view := (env.sealBody tenantID now ids view).map (fun view' => (view', ()))
  lawful view view' out hrun := by
    cases hs : env.sealBody tenantID now ids view with
    | error err => rw [hs] at hrun; cases hrun
    | ok next =>
      rw [hs] at hrun
      cases hrun
      exact Env.sealStreams_wrote hs

/-! ## Section 3: Receipt transitions -/

section Transitions

variable {env : Env} {t : String} {log : List Event}

theorem EventReceipt.Acknowledges.moved {rc : EventReceipt} {e : Event} (h : rc.Acknowledges t e)
    (status : Status) (evict : Bool) (now : Time) :
    (rc.moved status evict now).Acknowledges t e :=
  ⟨h.tenantID, h.eventID, h.idempotencyKey, h.streamID, h.sequence, h.hash⟩

theorem EventReceipt.Acknowledges.deadLettered {rc : EventReceipt} {e : Event}
    (h : rc.Acknowledges t e) (dead : DeadLetter) : (rc.deadLettered dead).Acknowledges t e :=
  ⟨h.tenantID, h.eventID, h.idempotencyKey, h.streamID, h.sequence, h.hash⟩

theorem transitionBody_ok {eventID : String} {status : Status} {evict : Bool} {now : Time}
    {view view' : TenantView} {out : EventReceipt}
    (hs : transitionBody t eventID status evict now view = .ok (view', out)) :
    ∃ receipt ledger, transitionSource view (eventKey t eventID) = .ok receipt ∧
      view.ledger.setReceipt (receipt.moved status evict now) = .ok ledger ∧
      out = receipt.moved status evict now ∧
      view' = { view with
        ledger := ledger
        hot := { view.hot with
          events := if evict then view.hot.events.erase (eventKey t eventID)
            else view.hot.events } } := by
  unfold transitionBody at hs
  simp only at hs
  split at hs
  · cases hs
  next receipt hsource =>
  cases hset : view.ledger.setReceipt (receipt.moved status evict now) with
  | error err => rw [hset] at hs; cases hs
  | ok ledger =>
    rw [hset] at hs
    cases hs
    exact ⟨receipt, ledger, hsource, hset, rfl, rfl⟩

theorem TenantEvidence.transitionSource {hot : HotDoc} {ledger : TenantLedger}
    (h : TenantEvidence env t log hot ledger) {global : Control} {key : String}
    {receipt : EventReceipt}
    (hs : transitionSource { hot := hot, ledger := { parent := ledger }, global := global } key =
      .ok receipt) : ledger.receipts[key]? = some receipt := by
  unfold AuditGovernance.transitionSource TenantLedger.receipt at hs
  split at hs
  · next rc hrc =>
    cases hs
    exact hrc
  · next hnone =>
    simp only at hs hnone
    split at hs
    · cases hs
    · next e he =>
      obtain ⟨hmem, rfl⟩ := h.evidence.bodies key e he
      obtain ⟨rc, hrc, -⟩ := h.evidence.receipted e hmem
      rw [hnone] at hrc
      cases hrc

theorem TenantEvidence.transitionBody {hot : HotDoc} {ledger : TenantLedger}
    (h : TenantEvidence env t log hot ledger) {global : Control} {eventID : String}
    {status : Status} {evict : Bool} {now : Time} {view' : TenantView} {out : EventReceipt}
    (hs : transitionBody t eventID status evict now
      { hot := hot, ledger := { parent := ledger }, global := global } = .ok (view', out)) :
    ViewEvidence env t log view' := by
  obtain ⟨receipt, ledger', hsource, hset, -, rfl⟩ := transitionBody_ok hs
  obtain ⟨e, he, -, hack⟩ := h.evidence.receipt_event (h.transitionSource hsource)
  have hnext := ((h.view global).setReceipt he (hack.moved status evict now) hset).1
  cases evict with
  | false => exact hnext
  | true => exact hnext.evict (eventKey t eventID)

end Transitions

/-- `transitionTenantReceipt`'s transaction. -/
def transitionClosure (tenantID eventID : String) (status : Status) (evict : Bool) (now : Time) :
    TenantClosure EventReceipt where
  run := transitionBody tenantID eventID status evict now
  lawful view view' out hrun := by
    obtain ⟨receipt, ledger, -, hset, -, rfl⟩ := transitionBody_ok hrun
    exact .receipt (.refl _) hset

/-! ## Section 4: Archiving -/

section Archiving

variable {env : Env} {t : String} {log : List Event}

/-- The receipts a transaction reads acknowledge committed events. -/
def Acknowledged (t : String) (log : List Event) (ledger : TenantLedger) : Prop :=
  ∀ (k : String) rc, ledger.receipts[k]? = some rc →
    ∃ e ∈ log, k = eventKey t e.eventID ∧ rc.Acknowledges t e

theorem TenantEvidence.acknowledged {hot : HotDoc} {ledger : TenantLedger}
    (h : TenantEvidence env t log hot ledger) : Acknowledged t log ledger :=
  fun _ _ hk => h.evidence.receipt_event hk

theorem evictArchived_ledger (keys : List String) (view : TenantView) :
    (evictArchived keys view).ledger = view.ledger := by
  unfold evictArchived
  induction keys generalizing view with
  | nil => rfl
  | cons key rest ih =>
    rw [List.foldl_cons, ih]
    split <;> rfl

theorem ViewEvidence.evictArchived {view : TenantView} (h : ViewEvidence env t log view)
    (keys : List String) : ViewEvidence env t log (evictArchived keys view) := by
  unfold AuditGovernance.evictArchived
  induction keys generalizing view with
  | nil => exact h
  | cons key rest ih =>
    rw [List.foldl_cons]
    split
    · exact ih (h.evict key)
    · exact ih h

theorem markArchived_wrote {now : Time} {events : List Event} {view view' : TenantView}
    (hs : markArchived t now events view = .ok view') : Wrote view.ledger view'.ledger := by
  induction events generalizing view with
  | nil =>
    cases hs
    exact .refl _
  | cons event rest ih =>
    rw [markArchived] at hs
    simp only at hs
    split at hs
    · cases hs
    split at hs
    · cases hs
    · next hset => exact (Wrote.receipt (.refl _) hset).trans (ih hs)

theorem ViewEvidence.markArchived {now : Time} {events : List Event} {view view' : TenantView}
    (h : ViewEvidence env t log view) (hack : Acknowledged t log view.ledger.parent)
    (hs : markArchived t now events view = .ok view') :
    ViewEvidence env t log view' ∧ view'.ledger.parent = view.ledger.parent := by
  induction events generalizing view with
  | nil =>
    cases hs
    exact ⟨h, rfl⟩
  | cons event rest ih =>
    rw [AuditGovernance.markArchived] at hs
    simp only at hs
    split at hs
    · cases hs
    next receipt hreceipt =>
    split at hs
    · cases hs
    next ledger hset =>
    obtain ⟨e, he, -, hrc⟩ := hack _ receipt hreceipt
    obtain ⟨hnext, hpar⟩ := h.setReceipt he (hrc.moved .archived true now) hset
    obtain ⟨hfinal, hpar'⟩ := ih (hnext.evict (eventKey t event.eventID)) (hpar ▸ hack) hs
    exact ⟨hfinal, hpar'.trans hpar⟩

theorem markDead_wrote {letters : List (String × DeadLetter)} {view view' : TenantView}
    (hs : markDead letters view = .ok view') : Wrote view.ledger view'.ledger := by
  induction letters generalizing view with
  | nil =>
    cases hs
    exact .refl _
  | cons letter rest ih =>
    obtain ⟨key, dead⟩ := letter
    rw [markDead] at hs
    split at hs
    · have hrest := ih hs
      exact hrest
    split at hs
    · cases hs
    · next hset => exact (Wrote.receipt (.refl _) hset).trans (ih hs)

theorem ViewEvidence.markDead {letters : List (String × DeadLetter)} {view view' : TenantView}
    (h : ViewEvidence env t log view) (hack : Acknowledged t log view.ledger.parent)
    (hs : markDead letters view = .ok view') : ViewEvidence env t log view' := by
  induction letters generalizing view with
  | nil =>
    cases hs
    exact h
  | cons letter rest ih =>
    obtain ⟨key, dead⟩ := letter
    rw [AuditGovernance.markDead] at hs
    split at hs
    · exact ih (h.withGlobal (view.global.addDeadLetter key dead)) hack hs
    next receipt hreceipt =>
    split at hs
    · cases hs
    next ledger hset =>
    obtain ⟨e, he, -, hrc⟩ := hack _ receipt hreceipt
    obtain ⟨hnext, hpar⟩ := h.setReceipt he (hrc.deadLettered dead) hset
    exact ih (hnext.withGlobal (view.global.addDeadLetter key dead)) (hpar ▸ hack) hs

theorem archiveBody_ok {now : Time} {evictedKeys : List String} {archived : List Event}
    {dead : Dict DeadLetter} {view view' : TenantView}
    (hs : archiveBody t now evictedKeys archived dead view = .ok view') :
    ∃ marked last, markArchived t now archived (evictArchived evictedKeys view) = .ok marked ∧
      markDead dead.toList marked = .ok last ∧
      view' = { last with global := { last.global with
        archiveConflictFailures := last.global.archiveConflictFailures.insert t 0 } } := by
  unfold archiveBody at hs
  split at hs
  · cases hs
  next marked hmark =>
  cases hdead : markDead dead.toList marked with
  | error err => rw [hdead] at hs; cases hs
  | ok last =>
    rw [hdead] at hs
    cases hs
    exact ⟨marked, last, hmark, hdead, rfl⟩

theorem TenantEvidence.archiveBody {hot : HotDoc} {ledger : TenantLedger}
    (h : TenantEvidence env t log hot ledger) {global : Control} {now : Time}
    {evictedKeys : List String} {archived : List Event} {dead : Dict DeadLetter}
    {view' : TenantView}
    (hs : archiveBody t now evictedKeys archived dead
      { hot := hot, ledger := { parent := ledger }, global := global } = .ok view') :
    ViewEvidence env t log view' := by
  obtain ⟨marked, last, hmark, hdead, rfl⟩ := archiveBody_ok hs
  have hstart := (h.view global).evictArchived evictedKeys
  have hack : Acknowledged t log (AuditGovernance.evictArchived evictedKeys
      { hot := hot, ledger := { parent := ledger }, global := global }).ledger.parent := by
    rw [evictArchived_ledger]
    exact h.acknowledged
  obtain ⟨hmarked, hpar⟩ := hstart.markArchived hack hmark
  exact (hmarked.markDead (hpar ▸ hack) hdead).withGlobal _

end Archiving

/-- `archivePendingTenant`'s transaction. -/
def archiveClosure (tenantID : String) (now : Time) (evictedKeys : List String)
    (archived : List Event) (deadLetters : Dict DeadLetter) : TenantClosure Unit where
  run view := (archiveBody tenantID now evictedKeys archived deadLetters view).map
    (fun view' => (view', ()))
  lawful view view' out hrun := by
    cases hs : archiveBody tenantID now evictedKeys archived deadLetters view with
    | error err => rw [hs] at hrun; cases hrun
    | ok next =>
      rw [hs] at hrun
      cases hrun
      obtain ⟨marked, last, hmark, hdead, rfl⟩ := archiveBody_ok hs
      have hwrote := markArchived_wrote hmark
      rw [evictArchived_ledger] at hwrote
      have hletters : Wrote marked.ledger last.ledger := markDead_wrote hdead
      exact hwrote.trans hletters

/-! ## Section 5: Ingest -/

section Ingest

variable {env : Env} {t : String} {log : List Event}

theorem Event.stream_ne_empty (e : Event) : e.stream ≠ "" := by
  have happ : ∀ a b c : String, b ≠ "" → a ++ b ++ c ≠ "" := by
    intro a b c hb hc
    apply hb
    have hlist := congrArg String.toList hc
    simp only [String.toList_append, String.toList_empty, List.append_eq_nil_iff] at hlist
    exact String.toList_eq_nil_iff.1 hlist.1.2
  unfold Event.stream
  split
  · assumption
  split
  · have h := happ (e.tenantID ++ ":aggregate:" ++ e.aggregateType) ":" e.aggregateID (by decide)
    exact h
  split
  · exact happ _ _ _ (by decide)
  · exact happ _ _ _ (by decide)

theorem Env.eventHash_withHash (env : Env) (e : Event) (hash : String) :
    env.eventHash { e with hash := hash } = env.eventHash e := rfl

theorem Env.placeEvent_ok {stream : StreamState} {event placed : Event}
    (h : env.placeEvent stream event = .ok placed) :
    placed.eventID = event.eventID ∧ placed.idempotencyKey = event.idempotencyKey ∧
      placed.streamID = event.stream ∧ placed.sequence = stream.nextSequence ∧
      placed.prevHash = stream.headHash ∧ env.eventHash placed = .ok placed.hash := by
  unfold Env.placeEvent at h
  simp only at h
  cases hh : env.eventHash { event with
      streamID := event.stream, sequence := stream.nextSequence
      prevHash := stream.headHash } with
  | error err => rw [hh] at h; cases h
  | ok hash =>
    rw [hh] at h
    cases h
    exact ⟨rfl, rfl, rfl, rfl, rfl, (env.eventHash_withHash _ hash).trans hh⟩

theorem ledgeredReceipt_acknowledges (t : String) (e : Event) :
    (ledgeredReceipt t e).Acknowledges t e := ⟨rfl, rfl, rfl, rfl, rfl, rfl⟩

@[simp] theorem Env.ensureLedgeredIntent_hot (view : TenantView) (e : Event) (key : String) :
    (env.ensureLedgeredIntent view e key).hot = view.hot := by
  unfold Env.ensureLedgeredIntent
  split <;> rfl

@[simp] theorem Env.ensureLedgeredIntent_ledger (view : TenantView) (e : Event) (key : String) :
    (env.ensureLedgeredIntent view e key).ledger = view.ledger := by
  unfold Env.ensureLedgeredIntent
  split <;> rfl

/-- `recordEvent` in terms of its write. -/
theorem Env.recordEvent_ok {view view' : TenantView} {stream : StreamState} {e : Event}
    (hs : env.recordEvent view t stream e = .ok view') :
    ∃ ledger, view.ledger.setReceipt (ledgeredReceipt t e) = .ok ledger ∧
      view'.ledger = ledger ∧
      view'.hot =
        { streams := view.hot.streams.insert (streamKey t e.streamID) stream
          events := view.hot.events.insert (eventKey t e.eventID) e } := by
  unfold Env.recordEvent at hs
  simp only [Env.ensureLedgeredIntent_ledger] at hs
  cases hset : view.ledger.setReceipt (ledgeredReceipt t e) with
  | error err => rw [hset] at hs; cases hs
  | ok ledger =>
    rw [hset] at hs
    cases hs
    exact ⟨ledger, rfl, rfl, by simp⟩

theorem ViewEvidence.recordEvent {view view' : TenantView} (h : ViewEvidence env t log view)
    {e : Event} (hnew : view.ledger.future.receipts[eventKey t e.eventID]? = none)
    (hstream : e.streamID ≠ "") (hhash : env.eventHash e = .ok e.hash)
    (hseq : e.sequence = (ingestStream view.hot t e.streamID).nextSequence)
    (hprev : e.prevHash = (ingestStream view.hot t e.streamID).headHash)
    (hs : env.recordEvent view t
      ((ingestStream view.hot t e.streamID).extend e (eventKey t e.eventID)) e = .ok view') :
    ViewEvidence env t (log ++ [e]) view' := by
  obtain ⟨ledger, hset, rfl, hhot⟩ := Env.recordEvent_ok hs
  have hack := ledgeredReceipt_acknowledges t e
  obtain ⟨hbuf, hpar, hrec, hseg, -⟩ := h.buffered.setReceipt_future
    (hack.tenantID.trans h.tenant.symm) hset
  have hsegs : view'.ledger.future.segmentsOf = view.ledger.future.segmentsOf := by
    funext k
    simp only [TenantLedger.segmentsOf, hseg]
  refine ⟨hbuf, hpar ▸ h.tenant, ?_⟩
  rw [hhot, hrec, hsegs]
  exact h.evidence.append (h.evidence.not_mem_of_receipt hnew) hstream hhash hseq hprev hack

/-- The new-event branch of the body, step by step. -/
theorem Env.ingestNew_ok {call : IngestCall} {view view' : TenantView} {state : IngestState}
    (hs : env.ingestNew call view = .ok (view', state)) :
    ∃ event recorded,
      env.placeEvent (ingestStream view.hot call.tenantID call.event.stream) call.event =
        .ok event ∧
      env.recordEvent view call.tenantID
        ((ingestStream view.hot call.tenantID call.event.stream).extend event
          (eventKey call.tenantID event.eventID)) event = .ok recorded ∧
      state.event = event ∧ state.receipt = ledgeredReceipt call.tenantID event ∧
      (view' = recorded ∨ ∃ segment,
        env.sealInto recorded (streamKey call.tenantID event.streamID)
          ((ingestStream view.hot call.tenantID call.event.stream).extend event
            (eventKey call.tenantID event.eventID))
          call.event.receivedAt call.checkpointID = .ok (view', segment)) := by
  unfold Env.ingestNew at hs
  simp only at hs
  split at hs
  · cases hs
  split at hs
  · cases hs
  next event hplace =>
  split at hs
  · cases hs
  next recorded hrecord =>
  split at hs
  · cases hs
    exact ⟨event, _, hplace, hrecord, rfl, rfl, .inl rfl⟩
  split at hs
  · cases hs
  next view1 segment hseal =>
  cases hs
  exact ⟨event, recorded, hplace, hrecord, rfl, rfl, .inr ⟨segment, hseal⟩⟩

theorem ViewEvidence.ingestNew {call : IngestCall} {view view' : TenantView}
    {state : IngestState} (h : ViewEvidence env call.tenantID log view)
    (hnew : view.ledger.future.receipts[eventKey call.tenantID call.event.eventID]? = none)
    (hs : env.ingestNew call view = .ok (view', state)) :
    ViewEvidence env call.tenantID (log ++ [state.event]) view' := by
  obtain ⟨event, recorded, hplace, hrecord, rfl, -, hend⟩ := Env.ingestNew_ok hs
  obtain ⟨hid, -, hstream, hseq, hprev, hhash⟩ := Env.placeEvent_ok hplace
  have hne : state.event.streamID ≠ "" := by
    rw [hstream]
    exact Event.stream_ne_empty _
  rw [← hstream] at hseq hprev hrecord
  have hrecorded := h.recordEvent (by rw [hid]; exact hnew) hne hhash hseq hprev hrecord
  rcases hend with rfl | ⟨segment, hseal⟩
  · exact hrecorded
  · -- the commit also seals: the stream it seals is the one just extended
    rw [← hstream] at hseal
    obtain ⟨-, -, -, hhot⟩ := Env.recordEvent_ok hrecord
    apply hrecorded.sealInto ?_ ?_ hseal
    · rw [hhot]
      exact lookup_insert_self _ _ _
    · simp [StreamState.extend]

theorem Env.repairLedgeredIntent_ok {call : IngestCall} {view view' : TenantView}
    {receipt : EventReceipt} {key : String} {repaired : Bool}
    (hs : env.repairLedgeredIntent view call receipt key = .ok (view', repaired)) :
    view'.hot = view.hot ∧ view'.ledger = view.ledger := by
  unfold Env.repairLedgeredIntent at hs
  split at hs
  · cases hs
    exact ⟨rfl, rfl⟩
  split at hs
  · cases hs
    exact ⟨rfl, rfl⟩
  split at hs
  · cases hs
  · cases hs
    exact ⟨rfl, rfl⟩
  split at hs
  · cases hs
    exact ⟨rfl, rfl⟩
  split at hs
  · cases hs
  · cases hs
    exact ⟨by simp, by simp⟩

theorem Env.compareExisting_duplicate {view : TenantView} {digest : String}
    {stored receipt : EventReceipt} {existing : Event}
    (h : env.compareExisting view digest stored existing = .duplicate receipt) :
    receipt = { stored with duplicate := true } := by
  unfold Env.compareExisting at h
  split at h
  · cases h
  split at h
  · cases h
    rfl
  simp only at h
  split at h <;> cases h

theorem Env.compareExisting_ne_absent {view : TenantView} {digest : String}
    {stored : EventReceipt} {existing : Event} :
    env.compareExisting view digest stored existing ≠ .absent := by
  unfold Env.compareExisting
  split
  · simp
  split
  · simp
  simp only
  split <;> simp

theorem Env.checkExisting_absent {view : TenantView} {call : IngestCall} :
    env.checkExistingTenantIngest view call = .absent ↔
      view.hot.events[eventKey call.tenantID call.event.eventID]? = none ∧
      view.ledger.parent.receipts[eventKey call.tenantID call.event.eventID]? = none := by
  unfold Env.checkExistingTenantIngest TenantLedger.receipt
  simp only
  split
  · next hhot hrec => simp [hhot, hrec]
  · next stored hhot hrec =>
    simp only [hhot, hrec, reduceCtorEq, and_false, iff_false]
    split
    · simp
    split
    · simp
    · exact Env.compareExisting_ne_absent
  · next e hhot hrec => simp [hhot]
  · next e stored hhot hrec =>
    simp only [hhot, reduceCtorEq, false_and, iff_false]
    exact Env.compareExisting_ne_absent

theorem Env.checkExisting_duplicate {view : TenantView} {call : IngestCall}
    {receipt : EventReceipt}
    (h : env.checkExistingTenantIngest view call = .duplicate receipt) :
    ∃ stored, view.ledger.parent.receipts[eventKey call.tenantID call.event.eventID]? =
      some stored ∧ receipt = { stored with duplicate := true } := by
  unfold Env.checkExistingTenantIngest TenantLedger.receipt at h
  simp only at h
  split at h
  · cases h
  · next stored hhot hrec =>
    split at h
    · cases h
    split at h
    · cases h
    · exact ⟨stored, hrec, Env.compareExisting_duplicate h⟩
  · cases h
  · next e stored hhot hrec => exact ⟨stored, hrec, Env.compareExisting_duplicate h⟩

/-- A successful body either answers a duplicate without touching the tenant's
    evidence, or commits a new event. -/
theorem Env.ingestBody_ok {call : IngestCall} {view view' : TenantView} {state : IngestState}
    (hs : env.ingestBody call view = .ok (view', state)) :
    (∃ stored, view.ledger.parent.receipts[eventKey call.tenantID call.event.eventID]? =
        some stored ∧ state.receipt = { stored with duplicate := true } ∧
        view'.hot = view.hot ∧ view'.ledger = view.ledger) ∨
    (view.hot.events[eventKey call.tenantID call.event.eventID]? = none ∧
      view.ledger.parent.receipts[eventKey call.tenantID call.event.eventID]? = none ∧
      env.ingestNew call view = .ok (view', state)) := by
  unfold Env.ingestBody at hs
  simp only at hs
  split at hs
  · cases hs
  split at hs
  · cases hs
  · next receipt hdup =>
    split at hs
    · cases hs
    · next view1 repaired hrepair =>
      cases hs
      obtain ⟨stored, hrec, hreceipt⟩ := Env.checkExisting_duplicate hdup
      exact .inl ⟨stored, hrec, hreceipt, Env.repairLedgeredIntent_ok hrepair⟩
  · next habsent =>
    split at hs
    · cases hs
    · obtain ⟨hhot, hrec⟩ := Env.checkExisting_absent.1 habsent
      exact .inr ⟨hhot, hrec, hs⟩

theorem TenantEvidence.ingestBody {call : IngestCall} {hot : HotDoc} {ledger : TenantLedger}
    (h : TenantEvidence env call.tenantID log hot ledger) {global : Control}
    {view' : TenantView} {state : IngestState}
    (hs : env.ingestBody call { hot := hot, ledger := { parent := ledger }, global := global } =
      .ok (view', state)) :
    (state.receipt.duplicate = true ∧ view'.hot = hot ∧ view'.ledger = { parent := ledger }) ∨
    (state.receipt.duplicate = false ∧
      ViewEvidence env call.tenantID (log ++ [state.event]) view') := by
  rcases Env.ingestBody_ok hs with ⟨stored, -, hreceipt, hhot, hledger⟩ | ⟨-, hnone, hnew⟩
  · exact .inl ⟨by rw [hreceipt], hhot, hledger⟩
  · refine .inr ⟨?_, (h.view global).ingestNew hnone hnew⟩
    obtain ⟨event, recorded, -, -, -, hreceipt, -⟩ := Env.ingestNew_ok hnew
    rw [hreceipt]
    rfl

theorem Env.ingestNew_wrote {call : IngestCall} {view view' : TenantView} {state : IngestState}
    (hs : env.ingestNew call view = .ok (view', state)) : Wrote view.ledger view'.ledger := by
  obtain ⟨event, recorded, -, hrecord, -, -, hend⟩ := Env.ingestNew_ok hs
  obtain ⟨ledger, hset, rfl, -⟩ := Env.recordEvent_ok hrecord
  have hwrote : Wrote view.ledger recorded.ledger := .receipt (.refl _) hset
  rcases hend with rfl | ⟨segment, hseal⟩
  · exact hwrote
  · exact hwrote.trans (Env.sealInto_wrote hseal)

theorem Env.ingestNew_length {call : IngestCall} {view view' : TenantView} {state : IngestState}
    (hb : view.ledger.Buffered) (ht : view.ledger.parent.tenantID = call.tenantID)
    (hs : env.ingestNew call view = .ok (view', state)) :
    view'.ledger.pending.length ≤ view.ledger.pending.length + 3 := by
  obtain ⟨event, recorded, -, hrecord, -, -, hend⟩ := Env.ingestNew_ok hs
  obtain ⟨ledger, hset, rfl, -⟩ := Env.recordEvent_ok hrecord
  have hown : (ledgeredReceipt call.tenantID event).tenantID =
      view.ledger.parent.tenantID := ht.symm
  have hone := hb.setReceipt_length hown hset
  rcases hend with rfl | ⟨segment, hseal⟩
  · omega
  · obtain ⟨checkpoint, ledger, ledger', -, hseg, hcp, rfl⟩ := Env.sealInto_ok hseal
    have hbuf := (hb.setReceipt_future hown hset).1
    have htwo := hbuf.appendSegment_length hseg
    have hbuf' := (hbuf.appendSegment_cases hseg).1
    have hthree := hbuf'.appendCheckpoint_length hcp
    show ledger'.pending.length ≤ view.ledger.pending.length + 3
    omega

theorem Env.ingestBody_admitted {call : IngestCall} {view view' : TenantView}
    {state : IngestState} (hs : env.ingestBody call view = .ok (view', state)) :
    resolveIngestTenantFromData view.global call.tenantHint call.clientID
      call.event.sourceSystem = .ok call.tenantID := by
  unfold Env.ingestBody at hs
  simp only at hs
  split at hs
  · cases hs
  · next hres => simpa using hres

theorem resolveIngestTenantFromData_empty (tenantHint clientID sourceID tenantID : String) :
    resolveIngestTenantFromData {} tenantHint clientID sourceID ≠ .ok tenantID := by
  unfold resolveIngestTenantFromData
  split
  · simp [sourceAccessAllowed]
  · have hnil : (({} : Control).sources.toList.map Prod.snd) = [] := by simp
    rw [hnil]
    simp [resolveFromSources]

end Ingest

/-- `ingestTenantOnce`'s transaction. -/
def Env.ingestClosure (env : Env) (call : IngestCall) : TenantClosure IngestState where
  run view := (env.ingestBody call view).mapError Prod.fst
  lawful view view' state hrun := by
    cases hs : env.ingestBody call view with
    | error err => rw [hs] at hrun; cases hrun
    | ok out =>
      rw [hs] at hrun
      cases hrun
      rcases Env.ingestBody_ok hs with ⟨-, -, -, -, hledger⟩ | ⟨-, -, hnew⟩
      · rw [hledger]
        exact .refl _
      · exact Env.ingestNew_wrote hnew

end AuditGovernance
