import AuditGovernance.Store.FileCommit
import AuditGovernance.Store.Rebuild

/-! # Memory and files agree on the ledger

    `Coherent s` says that the open store's ledgers are those of its files and
    that every journal, in memory or in a hot file, is whole: still to be
    appended, or committed. Tenant transactions keep this under every pattern
    of write faults, recovery and control updates keep it, and reopening the
    directory gives back the same ledgers.
-/

namespace AuditGovernance

open FiniteMap TenantLedger

namespace FileStore

/-- Memory and files of tenant `t` agree on its ledger. -/
structure LedgerCoherent (s : FileStore) (t : String) : Prop where
  built : Built t (s.stateOf t).ledger
  file : s.ledgerFile t = (s.stateOf t).ledger.records
  journal : JournalOk (s.stateOf t).ledger (s.stateOf t).pending
  /-- The hot file carries the journal of the open store, or one that has been
      committed since. -/
  hotFile : ∀ file, s.disk.hot[t]? = some file →
    file.pendingLedger = (s.stateOf t).pending ∨
      (file.pendingLedger.length ≤ maxTenantCommitRecords ∧
        ∀ r ∈ file.pendingLedger, r ∈ (s.stateOf t).ledger.records)

def Coherent (s : FileStore) : Prop := ∀ t, s.LedgerCoherent t

theorem Coherent.empty : Coherent {} := by
  intro t
  have hstate : ({} : FileStore).stateOf t = emptyTenantState t := by
    simp [stateOf]
  refine ⟨?_, ?_, ?_, ?_⟩
  · rw [hstate]
    exact .empty
  · rw [hstate]
    simp [ledgerFile, emptyTenantState]
  · rw [hstate]
    exact .nil _
  · intro file hfile
    simp at hfile

theorem LedgerCoherent.hotFile_journal {s : FileStore} {t : String} (h : s.LedgerCoherent t)
    {file : HotFile} (hf : s.disk.hot[t]? = some file) :
    JournalOk (s.stateOf t).ledger file.pendingLedger := by
  rcases h.hotFile file hf with heq | ⟨hsmall, hcom⟩
  · rw [heq]
    exact h.journal
  · exact ⟨hsmall, .inr hcom⟩

theorem LedgerCoherent.hotFile_committed {s : FileStore} {t : String} (h : s.LedgerCoherent t)
    (hr : s.Resolved t) {file : HotFile} (hf : s.disk.hot[t]? = some file) :
    file.pendingLedger.length ≤ maxTenantCommitRecords ∧
      ∀ r ∈ file.pendingLedger, r ∈ (s.stateOf t).ledger.records := by
  rcases h.hotFile file hf with heq | hcom
  · rw [heq]
    exact ⟨h.journal.small, hr⟩
  · exact hcom

/-! ## Section 1: Writing one tenant -/

theorem LedgerCoherent.put_ne {s : FileStore} {t u : String} (h : s.LedgerCoherent u)
    (hne : t ≠ u) (state : TenantState) (file : Option HotFile) (appended : List LedgerRecord) :
    (s.put t state file appended).LedgerCoherent u := by
  obtain ⟨hb, hf, hj, hh⟩ := h
  refine ⟨?_, ?_, ?_, ?_⟩
  · rw [stateOf_put_ne _ _ _ _ _ hne]
    exact hb
  · rw [stateOf_put_ne _ _ _ _ _ hne, ledgerFile_put_ne _ _ _ _ _ hne]
    exact hf
  · rw [stateOf_put_ne _ _ _ _ _ hne]
    exact hj
  · rw [stateOf_put_ne _ _ _ _ _ hne, hot_put_ne _ _ _ _ _ hne]
    exact hh

/-- What an operation on tenant `t` does to the ledgers: the store stays
    coherent, the tenant's ledger is extended, and no other tenant is touched. -/
structure TenantEffect (s s' : FileStore) (t : String) : Prop where
  coherent : s'.Coherent
  extended : ∃ batch, (s'.stateOf t).ledger.records = (s.stateOf t).ledger.records ++ batch
  frame : ∀ u, t ≠ u → s'.stateOf u = s.stateOf u

/-- Writing a tenant state whose ledger is what the ledger file then holds. -/
theorem Coherent.put {s : FileStore} (h : s.Coherent) {t : String} {state : TenantState}
    {file : Option HotFile} {appended : List LedgerRecord} (hb : Built t state.ledger)
    (hrecords : state.ledger.records = (s.stateOf t).ledger.records ++ appended)
    (hj : JournalOk state.ledger state.pending)
    (hfile : ∀ f, file.or s.disk.hot[t]? = some f → f.pendingLedger = state.pending ∨
      (f.pendingLedger.length ≤ maxTenantCommitRecords ∧
        ∀ r ∈ f.pendingLedger, r ∈ state.ledger.records)) :
    s.TenantEffect (s.put t state file appended) t := by
  refine ⟨?_, ⟨appended, by rw [stateOf_put_self, hrecords]⟩, ?_⟩
  · intro u
    by_cases hne : t = u
    · subst hne
      refine ⟨by rw [stateOf_put_self]; exact hb, ?_, by rw [stateOf_put_self]; exact hj, ?_⟩
      · rw [stateOf_put_self, ledgerFile_put_self, (h t).file, hrecords]
      · rw [stateOf_put_self, hot_put_self]
        exact hfile
    · exact (h u).put_ne hne state file appended
  · intro u hne
    exact stateOf_put_ne _ _ _ _ _ hne

/-- Forgetting a resolved journal. -/
theorem Coherent.forget {s : FileStore} (h : s.Coherent) {t : String} (hr : s.Resolved t) :
    s.TenantEffect (s.put t { s.stateOf t with pending := [] } none []) t := by
  refine h.put (h t).built (by simp) (.nil _) ?_
  intro f hf
  exact .inr ((h t).hotFile_committed hr hf)

theorem Coherent.setControl {s : FileStore} (h : s.Coherent) (c : Control) :
    (s.setControl c).Coherent := by
  intro t
  exact ⟨(h t).built, (h t).file, (h t).journal, (h t).hotFile⟩

theorem TenantEffect.finishCommit {α : Type} {s s' : FileStore} {t : String}
    (h : s.TenantEffect s' t) (fail : Bool) (before after : Control) (out : α) :
    s.TenantEffect (s'.finishCommit fail before after out).1 t := by
  unfold FileStore.finishCommit
  split
  · exact h
  · split
    · exact h
    · exact ⟨h.coherent.setControl after, h.extended, h.frame⟩

theorem journalOf_cases (state : TenantState) (hot : HotDoc) (batch : List LedgerRecord) :
    journalOf state hot batch = [] ∨ journalOf state hot batch = batch := by
  unfold journalOf
  split
  · exact .inr rfl
  · exact .inl rfl

/-! ## Section 2: Tenant transactions -/

section Transaction

variable {α : Type} {s : FileStore} (h : s.Coherent) (faults : WriteFaults) {t : String}
  (hr : s.Resolved t) (fn : TenantClosure α) {view : TenantView} {out : α}
  (hfn : fn.run (s.viewOf t) = .ok (view, out))
include h hr hfn

omit hr in
private theorem coherent_written {journal : List LedgerRecord}
    (hjournal : journal = [] ∨ journal = view.ledger.pending)
    (hsmall : journal.length ≤ maxTenantCommitRecords) :
    s.TenantEffect
      (s.put t
        { hot := view.hot, ledger := view.ledger.future
          version := (s.stateOf t).version + 1, pending := [] }
        (some ⟨(s.stateOf t).version + 1, view.hot, journal⟩) view.ledger.pending) t := by
  obtain ⟨hacc, hfut, hbuilt, hcom⟩ := TenantClosure_batch (h t).built fn hfn
  refine h.put hbuilt (by rw [hfut, pushAll_records]) (.nil _) ?_
  intro f hf
  simp only [Option.some_or, Option.some.injEq] at hf
  subst hf
  refine .inr ⟨hsmall, ?_⟩
  rcases hjournal with rfl | rfl
  · simp
  · exact hcom

theorem Coherent.updateTenant_coldFirst :
    s.TenantEffect (s.updateTenant faults t .coldFirst fn.run).1 t := by
  obtain ⟨hacc, hfut, hbuilt, hcom⟩ := TenantClosure_batch (h t).built fn hfn
  have hrecords : view.ledger.future.records =
      (s.stateOf t).ledger.records ++ view.ledger.pending := by
    rw [hfut, pushAll_records]
  rw [FileStore.updateTenant_coldFirst (h t).built (h t).journal faults hr fn hfn]
  split
  · exact h.forget hr
  split
  · -- the ledger is ahead of the hot file, whose journal was already committed
    dsimp only
    apply h.put
    · exact hbuilt
    · exact hrecords
    · exact .nil _
    · intro f hf
      obtain ⟨hsmall, hold⟩ := (h t).hotFile_committed hr hf
      refine .inr ⟨hsmall, ?_⟩
      intro r hmem
      rw [hrecords]
      exact List.mem_append_left _ (hold r hmem)
  · exact (coherent_written h fn hfn (.inl rfl) (Nat.zero_le _)).finishCommit _ _ _ _

theorem Coherent.updateTenant_hotFirst :
    s.TenantEffect (s.updateTenant faults t .hotFirst fn.run).1 t := by
  obtain ⟨hacc, -, -, -⟩ := TenantClosure_batch (h t).built fn hfn
  rw [FileStore.updateTenant_hotFirst (h t).built (h t).journal faults hr fn hfn]
  have hcases := journalOf_cases (s.stateOf t) view.hot view.ledger.pending
  simp only
  generalize journalOf (s.stateOf t) view.hot view.ledger.pending = journal at hcases ⊢
  by_cases hbudget : journal ≠ [] ∧ view.ledger.pending.length > maxTenantCommitRecords
  · rw [if_pos hbudget]
    exact h.forget hr
  rw [if_neg hbudget]
  have hsmall : journal.length ≤ maxTenantCommitRecords := by
    by_cases hempty : journal = []
    · rw [hempty]
      exact Nat.zero_le _
    · have hbatch : journal = view.ledger.pending := hcases.resolve_left hempty
      rw [hbatch]
      by_contra hlen
      exact hbudget ⟨hempty, by omega⟩
  split
  · exact h.forget hr
  split
  · -- the journal is in the hot file and its records are still to be appended
    dsimp only
    apply h.put
    · exact (h t).built
    · simp
    · refine ⟨hsmall, .inl ?_⟩
      rcases hcases with hnil | hbatch
      · rw [hnil]
        trivial
      · rw [hbatch]
        exact hacc
    · intro f hf
      simp only [Option.some_or, Option.some.injEq] at hf
      subst hf
      exact .inl rfl
  · exact (coherent_written h fn hfn hcases hsmall).finishCommit _ _ _ _

end Transaction

/-- **Tenant transactions** extend their tenant's ledger and touch no other,
    whatever writes fail. -/
theorem Coherent.updateTenant {α : Type} {s : FileStore} (h : s.Coherent) (faults : WriteFaults)
    (t : String) (order : CommitOrder) (fn : TenantClosure α) :
    s.TenantEffect (s.updateTenant faults t order fn.run).1 t := by
  by_cases hr : s.Resolved t
  · cases hfn : fn.run (s.viewOf t) with
    | error e =>
      rw [updateTenant_failed (h t).built (h t).journal faults hr order hfn]
      exact h.forget hr
    | ok p =>
      obtain ⟨view, out⟩ := p
      cases order with
      | coldFirst => exact h.updateTenant_coldFirst faults hr fn hfn
      | hotFirst => exact h.updateTenant_hotFirst faults hr fn hfn
  · rw [updateTenant_pending (h t).built (h t).journal faults hr]
    dsimp only
    apply h.put
    · exact (h t).built
    · simp
    · exact (h t).journal
    · exact (h t).hotFile

/-! ## Section 3: Recovery and control updates -/

/-- **Recovery** extends its tenant's ledger and touches no other. -/
theorem Coherent.commitPending {s : FileStore} (h : s.Coherent) (faults : WriteFaults)
    (c : TenantCommitCandidate) :
    s.TenantEffect (s.commitPendingTenantCommit faults c).1 c.tenantID := by
  have hsame : s.TenantEffect s c.tenantID := ⟨h, ⟨[], by simp⟩, fun _ _ => rfl⟩
  by_cases hmatch : s.tenant[c.tenantID]? = some (s.stateOf c.tenantID) ∧
      (s.stateOf c.tenantID).pending ≠ [] ∧
      validKeyComponent "tenant_id" c.tenantID = .ok () ∧
      c.version = (s.stateOf c.tenantID).version ∧
      c.records = (s.stateOf c.tenantID).pending
  · obtain ⟨hmem, hne, hkey, hversion, hrecords⟩ := hmatch
    obtain ⟨hl, hfile, hj, hhot⟩ := h c.tenantID
    rw [commitPendingTenantCommit_eq hl hj hmem hne faults rfl hkey hversion hrecords]
    have hbuilt := hl.pushAll (missing_accepted hj)
    have hmissing := @mem_pushAll_missing (s.stateOf c.tenantID).ledger
      (s.stateOf c.tenantID).pending
    simp only
    split
    · exact hsame
    split
    · -- the journal stays in memory and in the hot file, committed
      dsimp only
      apply h.put
      · exact hbuilt
      · rw [pushAll_records]
      · exact ⟨hj.small, .inr hmissing⟩
      · intro f hf
        rcases hhot f hf with heq | ⟨hsmall, hcom⟩
        · exact .inl heq
        · refine .inr ⟨hsmall, ?_⟩
          intro r hr
          rw [pushAll_records]
          exact List.mem_append_left _ (hcom r hr)
    · dsimp only
      apply h.put
      · exact hbuilt
      · rw [pushAll_records]
      · exact .nil _
      · intro f hf
        simp only [Option.some_or, Option.some.injEq] at hf
        subst hf
        exact .inl rfl
  · rw [commitPendingTenantCommit_unmatched faults hmatch]
    exact hsame

theorem Coherent.updateControl {s : FileStore} (h : s.Coherent) (fail : Bool)
    (fn : Control → Except Err Control) :
    (s.updateControl fail fn).1.Coherent ∧ (s.updateControl fail fn).1.tenant = s.tenant := by
  unfold FileStore.updateControl writeControlFile
  cases fn s.control with
  | error e => exact ⟨h, rfl⟩
  | ok control =>
    cases fail with
    | true => exact ⟨h, rfl⟩
    | false => exact ⟨h.setControl control, rfl⟩

end FileStore

/-! ## Section 4: Reopening the directory -/

theorem Disk.loadTenants_lookup {d : Disk} {ids : List String} {m : Dict TenantState}
    (h : d.loadTenants ids = .ok m) (t : String) :
    (t ∈ ids → ∃ state, d.loadTenantState t = .ok state ∧ m[t]? = some state) ∧
      (t ∉ ids → m[t]? = none) := by
  induction ids generalizing m with
  | nil =>
    cases h
    simp
  | cons u rest ih =>
    unfold Disk.loadTenants at h
    cases hu : d.loadTenantState u with
    | error e =>
      rw [hu] at h
      cases h
    | ok state =>
      rw [hu] at h
      cases hrest : d.loadTenants rest with
      | error e =>
        rw [hrest] at h
        cases h
      | ok m' =>
        rw [hrest] at h
        simp only [Except.map, Except.ok.injEq] at h
        subst h
        obtain ⟨hin, hout⟩ := ih hrest
        rw [lookup_insert]
        by_cases hut : u = t
        · subst hut
          simp [hu]
        · simpa [hut, Ne.symm hut] using And.intro hin hout

theorem Disk.tenantIDs_of_files {d : Disk} {t : String} (ht : t ≠ "")
    (h : (d.hot[t]?).isSome = true ∨ ∃ r rest, d.ledger[t]? = some (r :: rest) ∧ r.tenantID = t) :
    t ∈ d.tenantIDs.toList.map Prod.fst := by
  have hids : (d.tenantIDs[t]?).isSome = true := by
    unfold Disk.tenantIDs
    simp only
    rw [lookup_overlay, lookup_erase, if_neg (Ne.symm ht), Option.isSome_or, Bool.or_eq_true]
    left
    refine (isSome_foldl_marks
      (P := fun p : String × List LedgerRecord => ∃ r, p.2.head? = some r ∧ r.tenantID = t)
      ?_ _ _).2 ?_
    · intro acc p
      cases hhead : p.2.head? with
      | none => simp
      | some r =>
        simp only [lookup_insert, Option.some.injEq, exists_eq_left']
        by_cases hr : r.tenantID = t
        · simp [hr]
        · simp [hr]
    · rcases h with hhot | ⟨r, rest, hl, hr⟩
      · left
        rw [lookup_addKeys]
        exact .inr hhot
      · exact .inr ⟨(t, r :: rest), mem_entries.2 hl, r, rfl, hr⟩
  obtain ⟨u, hu⟩ := Option.isSome_iff_exists.1 hids
  exact List.mem_map.2 ⟨(t, u), mem_entries.2 hu, rfl⟩

namespace FileStore

/-- The state a tenant is reloaded with: its hot file, its ledger, and the
    journal of the hot file unless that has been committed. -/
def reloaded (s : FileStore) (t : String) : TenantState :=
  match s.disk.hot[t]? with
  | none => { ledger := (s.stateOf t).ledger }
  | some file =>
    { hot := file.hot, ledger := (s.stateOf t).ledger, version := file.version
      pending := missing (s.stateOf t).ledger file.pendingLedger }

theorem LedgerCoherent.loadTenantState {s : FileStore} {t : String} (h : s.LedgerCoherent t) :
    s.disk.loadTenantState t = .ok (s.reloaded t) := by
  have hread : s.disk.readLedgerFile t = .ok (s.stateOf t).ledger.records := by
    have hfile := h.file
    unfold ledgerFile at hfile
    unfold Disk.readLedgerFile
    rw [hfile]
    simp only [checkRecords_ok h.built.valid]
    rfl
  unfold Disk.loadTenantState reloaded
  rw [hread]
  simp only [h.built.new_records]
  cases hf : s.disk.hot[t]? with
  | none => rfl
  | some file =>
    have hj := h.hotFile_journal hf
    have hun : unresolvedTenantCommit
        { hot := file.hot, ledger := (s.stateOf t).ledger, version := file.version
          pending := file.pendingLedger } = _ := unresolvedTenantCommit_eq h.built hj
    simp only [hj.validate h.built, hun, Except.map, decide_eq_true_eq]
    unfold missing
    by_cases hcom : ∀ r ∈ file.pendingLedger, r ∈ (s.stateOf t).ledger.records
    · rw [if_pos hcom, if_neg (fun hc => hc.2 hcom)]
    · have hne : file.pendingLedger ≠ [] := by
        intro hnil
        apply hcom
        simp [hnil]
      rw [if_neg hcom, if_pos ⟨hne, hcom⟩]

theorem LedgerCoherent.unlisted {s : FileStore} {t : String} (h : s.LedgerCoherent t)
    (hout : t ∉ s.disk.tenantIDs.toList.map Prod.fst) :
    (s.stateOf t).ledger = { tenantID := t } ∧
      ∀ file, s.disk.hot[t]? = some file → file.pendingLedger = [] := by
  have hempty : (s.stateOf t).ledger.records = [] := by
    cases hr : (s.stateOf t).ledger.records with
    | nil => rfl
    | cons r rest =>
      exfalso
      obtain ⟨hv, ht⟩ := h.built.valid r (by simp [hr])
      have hfile : s.disk.ledger[t]? = some (r :: rest) := by
        have hfile := h.file
        unfold ledgerFile at hfile
        rw [hr] at hfile
        cases hl : s.disk.ledger[t]? with
        | none => simp [hl] at hfile
        | some records => simpa [hl] using hfile
      have hname : t ≠ "" := ht ▸ validate_tenantID_ne hv
      exact hout (Disk.tenantIDs_of_files hname (.inr ⟨r, rest, hfile, ht⟩))
  refine ⟨?_, ?_⟩
  · rw [← h.built.new_records, hempty]
    rfl
  · intro file hf
    by_contra hne
    obtain ⟨r, rest, hp⟩ := List.exists_cons_of_ne_nil hne
    obtain ⟨hv, ht⟩ := (h.hotFile_journal hf).records_valid h.built r (by simp [hp])
    have hname : t ≠ "" := ht ▸ validate_tenantID_ne hv
    exact hout (Disk.tenantIDs_of_files hname (.inl (by simp [hf])))

theorem LedgerCoherent.reload {s s' : FileStore} {t : String} (h : s.LedgerCoherent t)
    (hdisk : s'.disk = s.disk) (hstate : s'.stateOf t = s.reloaded t) : s'.LedgerCoherent t := by
  have hledger : (s'.stateOf t).ledger = (s.stateOf t).ledger := by
    rw [hstate]
    unfold reloaded
    split
    · rfl
    · rfl
  have hsmall : ∀ journal : List LedgerRecord, journal.length ≤ maxTenantCommitRecords →
      (missing (s.stateOf t).ledger journal).length ≤ maxTenantCommitRecords := by
    intro journal hj
    unfold missing
    split
    · exact Nat.zero_le _
    · exact hj
  refine ⟨?_, ?_, ?_, ?_⟩
  · rw [hledger]
    exact h.built
  · rw [hledger, ← h.file, ledgerFile, ledgerFile, hdisk]
  · rw [hledger, hstate]
    unfold reloaded
    cases hf : s.disk.hot[t]? with
    | none => exact .nil _
    | some file =>
      have hj := h.hotFile_journal hf
      exact ⟨hsmall _ hj.small, .inl (missing_accepted hj)⟩
  · intro file hf
    rw [hdisk] at hf
    have hj := h.hotFile_journal hf
    rw [hledger, hstate, reloaded, hf]
    simp only [missing]
    split
    · next hcom => exact .inr ⟨hj.small, hcom⟩
    · exact .inl rfl

/-- **Reopening** gives back the ledgers of the files. -/
theorem Coherent.reopen {s s' : FileStore} (h : s.Coherent) (ho : s.disk.openStore = .ok s') :
    s'.Coherent ∧ ∀ t, (s'.stateOf t).ledger = (s.stateOf t).ledger := by
  unfold Disk.openStore at ho
  split at ho
  · cases hload : s.disk.loadTenants (s.disk.tenantIDs.toList.map Prod.fst) with
    | error e =>
      rw [hload] at ho
      cases ho
    | ok m =>
      rw [hload] at ho
      simp only [Except.map, Except.ok.injEq] at ho
      subst ho
      refine forall_and.1 ?_
      intro t
      obtain ⟨hin, hout⟩ := Disk.loadTenants_lookup hload t
      by_cases hmem : t ∈ s.disk.tenantIDs.toList.map Prod.fst
      · obtain ⟨state, hstate, hlookup⟩ := hin hmem
        rw [(h t).loadTenantState] at hstate
        cases hstate
        have hreload : stateOf ⟨s.disk, s.disk.control, m⟩ t = s.reloaded t := by
          simp [stateOf, hlookup]
        refine ⟨(h t).reload rfl hreload, ?_⟩
        rw [hreload]
        unfold reloaded
        split
        · rfl
        · rfl
      · obtain ⟨hempty, hjournal⟩ := (h t).unlisted hmem
        have hstate : stateOf ⟨s.disk, s.disk.control, m⟩ t = emptyTenantState t := by
          simp [stateOf, hout hmem]
        refine ⟨⟨?_, ?_, ?_, ?_⟩, ?_⟩
        · rw [hstate]
          exact .empty
        · rw [hstate]
          show s.ledgerFile t = _
          rw [(h t).file, hempty]
          rfl
        · rw [hstate]
          exact .nil _
        · intro file hf
          rw [hstate]
          exact .inl (hjournal file hf)
        · rw [hstate, hempty]
          rfl
  · cases ho

end FileStore

end AuditGovernance
