import AuditGovernance.Store.Coherence
import AuditGovernance.Store.PostgresCommit

/-! # One interface over both stores

    The tenant transactions of the service run unchanged on the file-backed
    and on the PostgreSQL store. `V2Store` is either of them, and the results
    below say what a transaction without faults does to what a tenant's
    readers see, whichever store it runs on.
-/

namespace AuditGovernance

open FiniteMap TenantLedger LedgerView

/-- A hot/cold store. -/
inductive V2Store where
  | file (s : FileStore)
  | postgres (db : Postgres)

namespace V2Store

def hotOf : V2Store → String → HotDoc
  | .file s, t => (s.stateOf t).hot
  | .postgres db, t => (db.loadTenantHot t).1

def ledgerOf : V2Store → String → TenantLedger
  | .file s, t => (s.stateOf t).ledger
  | .postgres db, t => db.tenantLedger t

def control : V2Store → Control
  | .file s => s.control
  | .postgres db => db.loadControl.1

/-- The view a transaction or a read of tenant `t` starts from. -/
def viewOf (s : V2Store) (t : String) : TenantView :=
  { hot := s.hotOf t, ledger := { parent := s.ledgerOf t }, global := s.control }

/-- `UpdateTenant` without faults. -/
def updateTenant {α : Type} (s : V2Store) (t : String) (order : CommitOrder)
    (fn : TenantClosure α) : V2Store × Except Err α :=
  match s with
  | .file s => (s.updateTenant noFaults t order fn.run).map .file id
  | .postgres db => (db.updateTenant t order fn.run snapshotConflictRetries).map .postgres id

/-- `UpdateControl` without faults. -/
def updateControl (s : V2Store) (fn : Control → Except Err Control) : V2Store × Except Err Unit :=
  match s with
  | .file s => (s.updateControl false fn).map .file id
  | .postgres db => (db.updateControl fn snapshotConflictRetries).map .postgres id

/-- Stores that operations without faults can have produced. -/
def Sound : V2Store → Prop
  | .file s => s.Coherent ∧ ∀ t, (s.stateOf t).pending = []
  | .postgres db => db.Sound

/-- A store without tenants. -/
def Empty : V2Store → Prop
  | .file s => s = {}
  | .postgres db => db = {}

theorem Sound.empty {s : V2Store} (h : s.Empty) : s.Sound := by
  cases s with
  | file s =>
    cases h
    refine ⟨FileStore.Coherent.empty, ?_⟩
    intro t
    simp [FileStore.stateOf, emptyTenantState]
  | postgres db =>
    cases h
    exact Postgres.Sound.empty

/-! ## Section 1: What a transaction leaves behind -/

/-- Nothing a reader sees has changed. -/
structure Kept (s s' : V2Store) : Prop where
  sound : s'.Sound
  hot : ∀ u, s'.hotOf u = s.hotOf u
  ledger : ∀ u, s'.ledgerOf u = s.ledgerOf u
  control : s'.control = s.control

/-- The control plane after a commit that leaves `after` in its view: the
    file store writes the document, PostgreSQL merges it into the row. -/
def mergedControl : V2Store → Control → Control
  | .file _, after => after
  | .postgres db, after => ((db.mergeControl after).getD ({}, 0)).1

/-- The transaction of tenant `t` that ended in `view` has been committed. -/
structure Committed (s s' : V2Store) (t : String) (view : TenantView) : Prop where
  sound : s'.Sound
  hot : s'.hotOf t = view.hot
  ledger : s'.ledgerOf t = view.ledger.future
  otherHot : ∀ u, t ≠ u → s'.hotOf u = s.hotOf u
  otherLedger : ∀ u, t ≠ u → s'.ledgerOf u = s.ledgerOf u
  control : s'.control = s.mergedControl view.global

/-- A store that can take a control-plane change. -/
def HasControl : V2Store → Prop
  | .file _ => True
  | .postgres db => db.control.isSome

section Transaction

variable {α : Type} {s : V2Store} {t : String}

private theorem file_forget {s : FileStore}
    (h : s.Coherent ∧ ∀ t, (s.stateOf t).pending = []) (t : String) :
    Kept (.file s) (.file (s.put t { s.stateOf t with pending := [] } none [])) := by
  have hstate : ∀ u, (s.put t { s.stateOf t with pending := [] } none []).stateOf u =
      s.stateOf u := by
    intro u
    by_cases hu : t = u
    · subst hu
      rw [FileStore.stateOf_put_self, ← h.2 t]
    · exact FileStore.stateOf_put_ne _ _ _ _ _ hu
  have hr : s.Resolved t := by
    intro r hr
    rw [h.2 t] at hr
    cases hr
  refine ⟨⟨(h.1.forget hr).coherent, fun u => ?_⟩, fun u => ?_, fun u => ?_, rfl⟩
  · rw [hstate]
    exact h.2 u
  · show ((s.put t _ none []).stateOf u).hot = (s.stateOf u).hot
    rw [hstate]
  · show ((s.put t _ none []).stateOf u).ledger = (s.stateOf u).ledger
    rw [hstate]

theorem Kept.refl (h : s.Sound) : s.Kept s := ⟨h, fun _ => rfl, fun _ => rfl, rfl⟩

private theorem file_resolved {s : FileStore}
    (h : s.Coherent ∧ ∀ t, (s.stateOf t).pending = []) (t : String) : s.Resolved t := by
  intro r hr
  rw [h.2 t] at hr
  cases hr

/-- **A transaction whose body fails** changes nothing. -/
theorem Sound.updateTenant_failed (h : s.Sound) (order : CommitOrder) (fn : TenantClosure α)
    {e : Err} (hfn : fn.run (s.viewOf t) = .error e) :
    s.Kept (s.updateTenant t order fn).1 ∧ (s.updateTenant t order fn).2 = .error e := by
  cases s with
  | file s =>
    have heq := FileStore.updateTenant_failed (h.1 t).built (h.1 t).journal noFaults
      (file_resolved h t) order hfn
    simp only [updateTenant, heq, Prod.map]
    exact ⟨file_forget h t, rfl⟩
  | postgres db =>
    have heq : db.updateTenant t order fn.run snapshotConflictRetries = (db, .error e) :=
      Postgres.updateTenant_failed hfn _
    simp only [updateTenant, heq, Prod.map]
    exact ⟨Kept.refl h, rfl⟩

private theorem file_committed {s : FileStore}
    (h : s.Coherent ∧ ∀ t, (s.stateOf t).pending = []) {order : CommitOrder}
    (fn : TenantClosure α) {view : TenantView} {file : HotFile} {result : Except Err α}
    {s' : FileStore} {out : α}
    (heq : s.updateTenant noFaults t order fn.run = (s', result))
    (hput : (s', result) = FileStore.finishCommit
      (s.put t { hot := view.hot, ledger := view.ledger.future
                 version := (s.stateOf t).version + 1, pending := [] } (some file)
        view.ledger.pending) false s.control view.global out) :
    Committed (.file s) (.file s') t view ∧ result = .ok out := by
  have heffect := h.1.updateTenant noFaults t order fn
  rw [heq] at heffect
  have hstate : ∀ u, s'.stateOf u =
      (s.put t { hot := view.hot, ledger := view.ledger.future
                 version := (s.stateOf t).version + 1, pending := [] } (some file)
        view.ledger.pending).stateOf u := by
    intro u
    unfold FileStore.finishCommit at hput
    split at hput
    · cases hput
      rfl
    · cases hput
      rfl
  have hcontrol : s'.control = view.global ∧ result = .ok out := by
    unfold FileStore.finishCommit at hput
    split at hput
    · next hsame =>
      cases hput
      exact ⟨hsame.symm, rfl⟩
    · cases hput
      exact ⟨rfl, rfl⟩
  have hself := hstate t
  rw [FileStore.stateOf_put_self] at hself
  refine ⟨⟨⟨heffect.coherent, ?_⟩, ?_, ?_, ?_, ?_, hcontrol.1⟩, hcontrol.2⟩
  · intro u
    by_cases hu : t = u
    · subst hu
      rw [hself]
    · rw [hstate, FileStore.stateOf_put_ne _ _ _ _ _ hu]
      exact h.2 u
  · show (s'.stateOf t).hot = view.hot
    rw [hself]
  · show (s'.stateOf t).ledger = view.ledger.future
    rw [hself]
  · intro u hu
    show (s'.stateOf u).hot = (s.stateOf u).hot
    rw [heffect.frame u hu]
  · intro u hu
    show (s'.stateOf u).ledger = (s.stateOf u).ledger
    rw [heffect.frame u hu]

/-- **A transaction whose body succeeds** is committed. The one exception is a
    hot-first commit of more records than a journal may hold. -/
theorem Sound.updateTenant_ok (h : s.Sound) (order : CommitOrder) (fn : TenantClosure α)
    {view : TenantView} {out : α} (hfn : fn.run (s.viewOf t) = .ok (view, out)) :
    (s.Committed (s.updateTenant t order fn).1 t view ∧
      (view.global = s.control ∨ s.HasControl → (s.updateTenant t order fn).2 = .ok out)) ∨
    (s.Kept (s.updateTenant t order fn).1 ∧ order = .hotFirst ∧
      maxTenantCommitRecords < view.ledger.pending.length ∧
      ∃ e, (s.updateTenant t order fn).2 = .error e) := by
  cases s with
  | file s =>
    have hfn' : fn.run (s.viewOf t) = .ok (view, out) := hfn
    cases order with
    | coldFirst =>
      have heq := FileStore.updateTenant_coldFirst (h.1 t).built (h.1 t).journal noFaults
        (file_resolved h t) fn hfn'
      rw [if_neg (by simp [noFaults]), if_neg (by simp [noFaults])] at heq
      have hrun : s.updateTenant noFaults t .coldFirst fn.run =
        ((s.updateTenant noFaults t .coldFirst fn.run).1, _) := rfl
      obtain ⟨hcommit, hresult⟩ := file_committed h fn hrun heq
      exact .inl ⟨hcommit, fun _ => hresult⟩
    | hotFirst =>
      have heq := FileStore.updateTenant_hotFirst (h.1 t).built (h.1 t).journal noFaults
        (file_resolved h t) fn hfn'
      simp only at heq
      split at heq
      · next hbudget =>
        refine .inr ⟨?_, rfl, hbudget.2, ?_⟩
        · simp only [updateTenant, heq, Prod.map]
          exact file_forget h t
        · simp only [updateTenant, heq, Prod.map]
          exact ⟨_, rfl⟩
      · rw [if_neg (by simp [noFaults]), if_neg (by simp [noFaults])] at heq
        have hrun : s.updateTenant noFaults t .hotFirst fn.run =
          ((s.updateTenant noFaults t .hotFirst fn.run).1, _) := rfl
        obtain ⟨hcommit, hresult⟩ := file_committed h fn hrun heq
        exact .inl ⟨hcommit, fun _ => hresult⟩
  | postgres db =>
    have hfn' : fn.run (db.viewOf t) = .ok (view, out) := hfn
    obtain ⟨result, heq, hok⟩ := Postgres.Sound.updateTenant_committed h order fn hfn'
      snapshotConflictRetries
    simp only [updateTenant, heq, Prod.map]
    obtain ⟨hhot, hledger⟩ := Postgres.Sound.commitRows_self h fn hfn'
      (db.mergeControl view.global)
    refine .inl ⟨⟨Postgres.Sound.commitRows h fn hfn', hhot, hledger, ?_, ?_, rfl⟩, hok⟩
    · intro u hu
      exact congrArg Prod.fst (Postgres.Sound.commitRows_ne h fn hfn' _ hu).1
    · intro u hu
      exact (Postgres.Sound.commitRows_ne h fn hfn' _ hu).2

end Transaction

end V2Store

end AuditGovernance
