import AuditGovernance.Service.Transactions
import AuditGovernance.Service.Recovery
import AuditGovernance.Store.TenantStore

/-! # Service operations

    The operations of the service that change a tenant's evidence, on either
    store and without store faults: `ingestTenant`, `sealPendingTenant`,
    `archivePendingTenant` and `transitionTenantReceipt`.
-/

namespace AuditGovernance

open FiniteMap TenantLedger LedgerView

namespace V2Store

/-! ## Section 1: Operations -/

/-- `RecoverHotTenantCommit`. PostgreSQL commits hot-first transactions
    atomically and keeps no journal. -/
def recoverHotTenantCommit (env : Env) (s : V2Store) (tenantID : String) :
    V2Store × Except Err Nat :=
  match s with
  | .file s =>
    let (s', recovered, result) := env.recoverHotTenantCommit s noFaults tenantID
    (.file s', result.map (fun _ => recovered))
  | .postgres db => (.postgres db, (requireTenantScope tenantID).map (fun _ => 0))

/-- `ingestTenantOnce`, up to the receipt it reports beside an error. -/
def ingestTenantOnce (env : Env) (s : V2Store) (call : IngestCall) :
    V2Store × Except Err IngestState :=
  s.updateTenant call.tenantID .hotFirst (env.ingestClosure call)

/-- `ingestTenant`: recover an unresolved journal once and try again. -/
def ingestTenant (env : Env) (s : V2Store) (call : IngestCall) :
    V2Store × Except Err IngestState :=
  match s.ingestTenantOnce env call with
  | (s1, .ok state) => (s1, .ok state)
  | (s1, .error e) =>
    if e.isTenantCommitPending then
      match s1.recoverHotTenantCommit env call.tenantID with
      | (s2, .error e') => (s2, .error e')
      | (s2, .ok _) => s2.ingestTenantOnce env call
    else (s1, .error e)

/-- `sealPendingTenant`. -/
def sealPendingTenant (env : Env) (s : V2Store) (tenantID : String) (now : Time)
    (checkpointIDs : String → String) : V2Store × Except Err Unit :=
  s.updateTenant tenantID .coldFirst (env.sealClosure tenantID now checkpointIDs)

/-- `transitionTenantReceipt`. -/
def transitionTenantReceipt (s : V2Store) (tenantID eventID : String) (status : Status)
    (evict : Bool) (now : Time) : V2Store × Except Err EventReceipt :=
  s.updateTenant tenantID (if evict then .coldFirst else .hotFirst)
    (transitionClosure tenantID eventID status evict now)

/-- The archive writes of a pass: what was archived and what is dead. -/
def archiveBatch (tenantID : String) (now : Time) (putSegment : Segment → Except ArchiveError Unit)
    (putEvent : Event → Except ArchiveError Unit) (batch : ArchiveTenantBatch) :
    Except Err (List Event × Dict DeadLetter) :=
  match archiveSegments tenantID now putSegment batch.segments batch.deadLetters with
  | .error err => .error err
  | .ok dead => archiveEvents tenantID now putEvent batch.events dead

/-- `archivePendingTenant` with the given outcomes of the archive writes. -/
def archivePendingTenant (s : V2Store) (tenantID : String) (now : Time)
    (putSegment : Segment → Except ArchiveError Unit)
    (putEvent : Event → Except ArchiveError Unit) : V2Store × Except Err Nat :=
  match collectArchiveTenantBatch (s.viewOf tenantID) tenantID with
  | .error err => (s, .error err)
  | .ok batch =>
    match archiveBatch tenantID now putSegment putEvent batch with
    | .error err => (s, .error err)
    | .ok (archived, dead) =>
      if archived = [] ∧ dead = ∅ ∧ batch.evictedKeys = [] then (s, .ok 0)
      else
        (s.updateTenant tenantID .coldFirst
          (archiveClosure tenantID now batch.evictedKeys archived dead)).map id
          (Except.map (fun _ => archived.length))

/-! ## Section 2: Effect on the evidence -/

/-- Every tenant's evidence describes its log. -/
def Ledgers (env : Env) (s : V2Store) (log : String → List Event) : Prop :=
  s.Sound ∧ ∀ t, TenantEvidence env t (log t) (s.hotOf t) (s.ledgerOf t)

section Effects

variable {env : Env} {s : V2Store} {log : String → List Event}

theorem Ledgers.empty (h : s.Empty) : s.Ledgers env (fun _ => []) := by
  refine ⟨Sound.empty h, ?_⟩
  intro t
  cases s with
  | file s =>
    cases h
    have hstate : ({} : FileStore).stateOf t = emptyTenantState t := by simp [FileStore.stateOf]
    show TenantEvidence env t [] (({} : FileStore).stateOf t).hot
      (({} : FileStore).stateOf t).ledger
    rw [hstate]
    exact TenantEvidence.empty env t
  | postgres db =>
    cases h
    have hhot : (({} : Postgres).loadTenantHot t).1 = {} := by simp [Postgres.loadTenantHot]
    show TenantEvidence env t [] (({} : Postgres).loadTenantHot t).1 _
    rw [hhot]
    exact TenantEvidence.empty env t

theorem Ledgers.kept {s' : V2Store} (h : s.Ledgers env log) (hk : s.Kept s') :
    s'.Ledgers env log := by
  refine ⟨hk.sound, fun t => ?_⟩
  rw [hk.hot, hk.ledger]
  exact h.2 t

theorem Ledgers.committed {s' : V2Store} {t : String} {view : TenantView} {log' : List Event}
    (h : s.Ledgers env log) (hc : s.Committed s' t view) (hv : ViewEvidence env t log' view) :
    s'.Ledgers env (Function.update log t log') := by
  refine ⟨hc.sound, fun u => ?_⟩
  by_cases hu : t = u
  · subst hu
    rw [Function.update_self, hc.hot, hc.ledger]
    exact hv.committed
  · rw [Function.update_of_ne (Ne.symm hu), hc.otherHot u hu, hc.otherLedger u hu]
    exact h.2 u

theorem Ledgers.updateTenant {α : Type} (h : s.Ledgers env log) {t : String} (order : CommitOrder)
    (fn : TenantClosure α)
    (hfn : ∀ view out, fn.run (s.viewOf t) = .ok (view, out) → ViewEvidence env t (log t) view) :
    (s.updateTenant t order fn).1.Ledgers env log := by
  cases hrun : fn.run (s.viewOf t) with
  | error e => exact h.kept (h.1.updateTenant_failed order fn hrun).1
  | ok p =>
    obtain ⟨view, out⟩ := p
    rcases h.1.updateTenant_ok order fn hrun with ⟨hc, -⟩ | ⟨hk, -⟩
    · have hnext := h.committed hc (hfn view out hrun)
      rwa [Function.update_eq_self] at hnext
    · exact h.kept hk

theorem Ledgers.sealPendingTenant (h : s.Ledgers env log) (t : String) (now : Time)
    (ids : String → String) : (s.sealPendingTenant env t now ids).1.Ledgers env log := by
  apply h.updateTenant
  intro view out hrun
  cases hs : env.sealBody t now ids (s.viewOf t) with
  | error err => simp [Env.sealClosure, hs, Except.map] at hrun
  | ok next =>
    simp only [Env.sealClosure, hs, Except.map, Except.ok.injEq, Prod.mk.injEq] at hrun
    obtain ⟨rfl, -⟩ := hrun
    exact ((h.2 t).view s.control).sealBody hs

theorem Ledgers.transitionTenantReceipt (h : s.Ledgers env log) (t eventID : String)
    (status : Status) (evict : Bool) (now : Time) :
    (s.transitionTenantReceipt t eventID status evict now).1.Ledgers env log := by
  apply h.updateTenant
  intro view out hrun
  exact (h.2 t).transitionBody hrun

theorem Ledgers.archivePendingTenant (h : s.Ledgers env log) (t : String) (now : Time)
    (putSegment : Segment → Except ArchiveError Unit)
    (putEvent : Event → Except ArchiveError Unit) :
    (s.archivePendingTenant t now putSegment putEvent).1.Ledgers env log := by
  unfold V2Store.archivePendingTenant
  split
  · exact h
  split
  · exact h
  next batch _ _ archived dead _ =>
  split
  · exact h
  · refine h.updateTenant .coldFirst (archiveClosure t now batch.evictedKeys archived dead) ?_
    intro view out hrun
    cases hs : archiveBody t now batch.evictedKeys archived dead (s.viewOf t) with
    | error err => simp [archiveClosure, hs, Except.map] at hrun
    | ok next =>
      simp only [archiveClosure, hs, Except.map, Except.ok.injEq, Prod.mk.injEq] at hrun
      obtain ⟨rfl, -⟩ := hrun
      exact (h.2 t).archiveBody hs

/-- The log after an ingest with this result. -/
def logged (log : String → List Event) (t : String) :
    Except Err IngestState → String → List Event
  | .ok state =>
    if state.receipt.duplicate then log else Function.update log t (log t ++ [state.event])
  | .error _ => log

theorem Ledgers.ingestTenantOnce (h : s.Ledgers env log) (call : IngestCall) :
    (s.ingestTenantOnce env call).1.Ledgers env
        (logged log call.tenantID (s.ingestTenantOnce env call).2) ∧
      ∀ e, (s.ingestTenantOnce env call).2 = .error e →
        s.Kept (s.ingestTenantOnce env call).1 := by
  unfold V2Store.ingestTenantOnce
  cases hbody : env.ingestBody call (s.viewOf call.tenantID) with
  | error err =>
    have hrun : (env.ingestClosure call).run (s.viewOf call.tenantID) = .error err.1 := by
      simp [Env.ingestClosure, hbody, Except.mapError]
    obtain ⟨hk, hres⟩ := h.1.updateTenant_failed .hotFirst (env.ingestClosure call) hrun
    rw [hres]
    exact ⟨h.kept hk, fun _ _ => hk⟩
  | ok p =>
    obtain ⟨view, state⟩ := p
    have hrun : (env.ingestClosure call).run (s.viewOf call.tenantID) = .ok (view, state) := by
      simp [Env.ingestClosure, hbody, Except.mapError]
    have hcontrol : s.HasControl := by
      have hres := Env.ingestBody_admitted hbody
      cases s with
      | file s => trivial
      | postgres db =>
        cases hc : db.control with
        | some row => simp [HasControl, hc]
        | none =>
          have hempty : ((V2Store.postgres db).viewOf call.tenantID).global = {} := by
            simp [V2Store.viewOf, V2Store.control, Postgres.loadControl, hc]
          rw [hempty] at hres
          exact absurd hres (resolveIngestTenantFromData_empty _ _ _ _)
    have hsmall : view.ledger.pending.length ≤ 3 := by
      rcases Env.ingestBody_ok hbody with ⟨-, -, -, -, hledger⟩ | ⟨-, -, hnew⟩
      · rw [hledger]
        simp [V2Store.viewOf]
      · have hstart := (h.2 call.tenantID).view s.control
        simpa [V2Store.viewOf] using Env.ingestNew_length hstart.buffered hstart.tenant hnew
    rcases h.1.updateTenant_ok .hotFirst (env.ingestClosure call) hrun with
      ⟨hc, hok⟩ | ⟨-, -, hbig, -⟩
    · rw [hok (.inr hcontrol)]
      refine ⟨?_, fun e he => by cases he⟩
      rcases (h.2 call.tenantID).ingestBody hbody with ⟨hdup, hhot, hledger⟩ | ⟨hdup, hview⟩
      · -- a duplicate: the committed view is the one the body started from
        simp only [logged, hdup, if_true]
        have hview : ViewEvidence env call.tenantID (log call.tenantID) view := by
          refine ⟨?_, ?_, ?_⟩
          · rw [hledger]
            exact ((h.2 call.tenantID).view s.control).buffered
          · rw [hledger]
            exact ((h.2 call.tenantID).view s.control).tenant
          · rw [hledger, hhot]
            exact ((h.2 call.tenantID).view s.control).evidence
        have hnext := h.committed hc hview
        rwa [Function.update_eq_self] at hnext
      · simp only [logged, hdup, Bool.false_eq_true, if_false]
        exact h.committed hc hview
    · unfold maxTenantCommitRecords at hbig
      omega

theorem Sound.recoverHotTenantCommit (h : s.Sound) (env : Env) (t : String) :
    (s.recoverHotTenantCommit env t).1 = s := by
  cases s with
  | postgres db => rfl
  | file s =>
    have hsame : (env.recoverHotTenantCommit s noFaults t).1 = s := by
      unfold Env.recoverHotTenantCommit
      split
      · rfl
      have hread : ∀ c, s.readPendingTenantCommit t = .ok c → c.records = [] := by
        intro c hc
        unfold FileStore.readPendingTenantCommit at hc
        split at hc
        · cases hc
        split at hc
        · cases hc
          rfl
        next state hstate =>
        have hpend : state.pending = [] := by
          have hp := h.2 t
          simpa [FileStore.stateOf, hstate] using hp
        simp only [unresolvedTenantCommit, hpend] at hc
        cases hc
        rfl
      split
      · rfl
      · next c hc => rw [if_pos (hread c hc)]
    simp only [V2Store.recoverHotTenantCommit, hsame]

theorem Ledgers.ingestTenant (h : s.Ledgers env log) (call : IngestCall) :
    (s.ingestTenant env call).1.Ledgers env
      (logged log call.tenantID (s.ingestTenant env call).2) := by
  obtain ⟨hfirst, hkept⟩ := h.ingestTenantOnce call
  unfold V2Store.ingestTenant
  cases hres : s.ingestTenantOnce env call with
  | mk s1 result =>
    rw [hres] at hfirst hkept
    cases result with
    | ok state => exact hfirst
    | error e =>
      have hk : s.Kept s1 := hkept e rfl
      simp only
      split
      · have hsame := hk.sound.recoverHotTenantCommit env call.tenantID
        cases hrec : s1.recoverHotTenantCommit env call.tenantID with
        | mk s2 result' =>
          rw [hrec] at hsame
          have hs2 : s2 = s1 := hsame
          subst hs2
          cases result' with
          | error e' => exact h.kept hk
          | ok n => exact ((h.kept hk).ingestTenantOnce call).1
      · exact hfirst

theorem Ledgers.updateControl (h : s.Ledgers env log) (fn : Control → Except Err Control) :
    (s.updateControl fn).1.Ledgers env log := by
  cases s with
  | file s =>
    obtain ⟨hcoh, hten⟩ := h.1.1.updateControl false fn
    have hstate : ∀ t, (s.updateControl false fn).1.stateOf t = s.stateOf t := by
      intro t
      unfold FileStore.stateOf
      rw [hten]
    refine ⟨⟨hcoh, fun t => ?_⟩, fun t => ?_⟩
    · show ((s.updateControl false fn).1.stateOf t).pending = []
      rw [hstate]
      exact h.1.2 t
    · show TenantEvidence env t (log t) ((s.updateControl false fn).1.stateOf t).hot
        ((s.updateControl false fn).1.stateOf t).ledger
      rw [hstate]
      exact h.2 t
  | postgres db =>
    obtain ⟨hten, hled, hver⟩ := Postgres.updateControl_frame h.1 fn snapshotConflictRetries
    refine ⟨Postgres.Sound.of_rows h.1 hled hver, fun t => ?_⟩
    have hev := h.2 t
    simp only [hotOf, ledgerOf, Postgres.loadTenantHot, Postgres.tenantLedger,
      Postgres.ledgerRecords, V2Store.updateControl, Prod.map_fst] at hev ⊢
    rw [hten, hled]
    exact hev

end Effects

end V2Store

end AuditGovernance
