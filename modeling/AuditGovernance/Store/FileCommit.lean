import AuditGovernance.Store.FileStore

/-! # What a tenant commit can do

    Exact equations for the file store's tenant transactions under write
    faults, in both commit orders, and for the recovery of a journal: the
    operation stops at one of a few points, and everything it changed until
    then is one tenant's state, its two files and possibly the control file.
    Every later argument about the file store starts from these equations.
-/

namespace AuditGovernance

open FiniteMap TenantLedger

/-! ## Section 1: Journals -/

/-- A journal the store can hold: its records are still to be appended, or
    all of them are committed. -/
structure JournalOk (l : TenantLedger) (journal : List LedgerRecord) : Prop where
  small : journal.length ≤ maxTenantCommitRecords
  whole : l.AcceptsAll journal ∨ ∀ r ∈ journal, r ∈ l.records

theorem JournalOk.nil (l : TenantLedger) : JournalOk l [] :=
  ⟨Nat.zero_le _, .inl trivial⟩

theorem checkRecords_ok {mismatch : LedgerRecord → Err} {t : String} {records : List LedgerRecord}
    (h : ∀ r ∈ records, validateLedgerRecord r = .ok () ∧ r.tenantID = t) :
    checkRecords mismatch t records = .ok () := by
  induction records with
  | nil => rfl
  | cons r rest ih =>
    obtain ⟨hv, ht⟩ := h r List.mem_cons_self
    unfold checkRecords
    rw [if_neg (by simp [ht]), hv]
    exact ih (fun p hp => h p (List.mem_cons_of_mem _ hp))

theorem JournalOk.records_valid {t : String} {l : TenantLedger} {journal : List LedgerRecord}
    (hl : Built t l) (h : JournalOk l journal) :
    ∀ r ∈ journal, validateLedgerRecord r = .ok () ∧ r.tenantID = t := by
  intro r hr
  rcases h.whole with hacc | hcom
  · obtain ⟨hv, ht⟩ := acceptsAll_valid hacc r hr
    exact ⟨hv, ht.trans hl.tenantID_eq⟩
  · exact hl.valid r (hcom r hr)

theorem JournalOk.validate {t : String} {l : TenantLedger} {journal : List LedgerRecord}
    (hl : Built t l) (h : JournalOk l journal) :
    validateTenantCommitRecords t journal = .ok () := by
  unfold validateTenantCommitRecords
  rw [if_neg (by have := h.small; omega)]
  exact checkRecords_ok (h.records_valid hl)

theorem unresolvedTenantCommit_eq {t : String} {state : TenantState} (hl : Built t state.ledger)
    (h : JournalOk state.ledger state.pending) :
    unresolvedTenantCommit state =
      .ok (decide (state.pending ≠ [] ∧ ¬ ∀ r ∈ state.pending, r ∈ state.ledger.records)) := by
  have hvalid := h.records_valid hl
  have hcheck := h.validate hl
  unfold unresolvedTenantCommit
  cases hp : state.pending with
  | nil => simp
  | cons first rest =>
    rw [hp] at hvalid hcheck h
    simp only
    rw [(hvalid first List.mem_cons_self).2, hcheck]
    by_cases hcom : ∀ r ∈ first :: rest, r ∈ state.ledger.records
    · rw [hl.recordsToAppend_committed hcom]
      have hdec : ¬ (first :: rest ≠ [] ∧ ¬ ∀ r ∈ first :: rest, r ∈ state.ledger.records) :=
        fun hc => hc.2 hcom
      rw [decide_eq_false hdec]
      rfl
    · rcases h.whole with hacc | hall
      · rw [hl.recordsToAppend_fresh hacc]
        have hdec : first :: rest ≠ [] ∧ ¬ ∀ r ∈ first :: rest, r ∈ state.ledger.records :=
          ⟨List.cons_ne_nil _ _, hcom⟩
        rw [decide_eq_true hdec]
        rfl
      · exact absurd hall hcom

/-! ## Section 2: One tenant's part of the store -/

namespace FileStore

/-- Replace one tenant's state, write its hot file if there is one to write,
    and append to its ledger file. -/
def put (s : FileStore) (t : String) (state : TenantState) (hotFile : Option HotFile)
    (appended : List LedgerRecord) : FileStore :=
  { s with
    tenant := s.tenant.insert t state
    disk := { s.disk with
      hot := match hotFile with
        | none => s.disk.hot
        | some file => s.disk.hot.insert t file
      ledger := if appended = [] then s.disk.ledger
        else s.disk.ledger.insert t ((s.disk.ledger[t]?).getD [] ++ appended) } }

/-- The ledger file of a tenant. -/
def ledgerFile (s : FileStore) (t : String) : List LedgerRecord := (s.disk.ledger[t]?).getD []

section Put

variable (s : FileStore) (t : String) (state : TenantState) (hotFile : Option HotFile)
  (appended : List LedgerRecord)

@[simp] theorem stateOf_put_self : (s.put t state hotFile appended).stateOf t = state := by
  simp [put, stateOf]

theorem stateOf_put_ne {u : String} (h : t ≠ u) :
    (s.put t state hotFile appended).stateOf u = s.stateOf u := by
  simp [put, stateOf, lookup_insert_ne _ _ h]

@[simp] theorem ledgerFile_put_self :
    (s.put t state hotFile appended).ledgerFile t = s.ledgerFile t ++ appended := by
  unfold ledgerFile put
  by_cases h : appended = []
  · simp [h]
  · simp [h]

theorem ledgerFile_put_ne {u : String} (h : t ≠ u) :
    (s.put t state hotFile appended).ledgerFile u = s.ledgerFile u := by
  unfold ledgerFile put
  by_cases ha : appended = []
  · simp [ha]
  · simp [ha, lookup_insert_ne _ _ h]

@[simp] theorem hot_put_self :
    (s.put t state hotFile appended).disk.hot[t]? = hotFile.or s.disk.hot[t]? := by
  cases hotFile <;> simp [put]

theorem hot_put_ne {u : String} (h : t ≠ u) :
    (s.put t state hotFile appended).disk.hot[u]? = s.disk.hot[u]? := by
  cases hotFile <;> simp [put, lookup_insert_ne _ _ h]

@[simp] theorem put_put (state' : TenantState) (hotFile' : Option HotFile) :
    (s.put t state hotFile []).put t state' hotFile' appended =
      s.put t state' (hotFile'.or hotFile) appended := by
  cases hotFile <;> cases hotFile' <;> simp [put]

@[simp] theorem put_put_nil (state' : TenantState) (hotFile' : Option HotFile) :
    (s.put t state hotFile appended).put t state' hotFile' [] =
      s.put t state' (hotFile'.or hotFile) appended := by
  cases hotFile <;> cases hotFile' <;> simp [put]

end Put

theorem setTenant_eq_put (s : FileStore) (t : String) (state : TenantState) :
    s.setTenant t state = s.put t state none [] := by
  simp [setTenant, put]

theorem appendLedger_eq {s : FileStore} {t : String} (hl : Built t (s.stateOf t).ledger)
    {batch : List LedgerRecord} (ha : (s.stateOf t).ledger.AcceptsAll batch)
    (hmem : s.tenant[t]? = some (s.stateOf t)) (fail : Bool) :
    s.appendLedger fail t batch =
      if batch ≠ [] ∧ fail then .error (writeError "tenant ledger file")
      else .ok (s.put t { s.stateOf t with ledger := (s.stateOf t).ledger.pushAll batch } none
        batch) := by
  cases batch with
  | nil =>
    -- nothing happens, which is also what writing the same state back does
    simp only [appendLedger, ne_eq, not_true, false_and, if_false, pushAll_nil]
    congr 1
    simp [put, insert_lookup_self hmem]
  | cons r rest =>
    simp only [appendLedger, hl.recordsToAppend_fresh ha, hl.commitPending_eq ha,
      appendLedgerFile]
    cases fail with
    | true => simp [Except.map]
    | false => simp [Except.map, setTenant, put]

/-! ## Section 3: The two commit orders -/

section Orders

variable {s : FileStore} {t : String} (hl : Built t (s.stateOf t).ledger)
  (hmem : s.tenant[t]? = some (s.stateOf t)) {batch : List LedgerRecord}
  (ha : (s.stateOf t).ledger.AcceptsAll batch) (faults : WriteFaults) (hot : HotDoc)
include hl hmem ha

theorem commitColdFirst_eq :
    s.commitColdFirst faults t hot batch =
      if batch ≠ [] ∧ faults.ledger then (s, .error (writeError "tenant ledger file"))
      else if faults.hot then
        (s.put t { s.stateOf t with ledger := (s.stateOf t).ledger.pushAll batch } none batch,
          .error (writeError "tenant hot file"))
      else
        (s.put t
          { s.stateOf t with
            ledger := (s.stateOf t).ledger.pushAll batch
            hot := hot
            version := (s.stateOf t).version + 1 }
          (some ⟨(s.stateOf t).version + 1, hot, []⟩) batch, .ok ()) := by
  unfold commitColdFirst
  rw [appendLedger_eq hl ha hmem]
  by_cases hf : batch ≠ [] ∧ faults.ledger = true
  · rw [if_pos hf, if_pos hf]
  · rw [if_neg hf, if_neg hf]
    simp only [stateOf_put_self, saveTenantHot]
    by_cases hh : faults.hot = true
    · simp only [hh, if_true]
    · simp only [hh, if_false, Bool.false_eq_true, Prod.mk.injEq, and_true]
      by_cases hb : batch = []
      · simp [setTenant, put, hb]
      · simp [setTenant, put, hb]

omit hmem in
theorem commitHotFirst_eq :
    s.commitHotFirst faults t hot batch =
      if journalOf (s.stateOf t) hot batch ≠ [] ∧ batch.length > maxTenantCommitRecords then
        (s, .error (.invalid "tenant commit record budget exceeded"))
      else if faults.hot then (s, .error (writeError "tenant hot file"))
      else if batch ≠ [] ∧ faults.ledger then
        (s.put t
          { s.stateOf t with
            hot := hot
            version := (s.stateOf t).version + 1
            pending := journalOf (s.stateOf t) hot batch }
          (some ⟨(s.stateOf t).version + 1, hot, journalOf (s.stateOf t) hot batch⟩) [],
          .error (writeError "tenant ledger file"))
      else
        (s.put t
          { ledger := (s.stateOf t).ledger.pushAll batch
            hot := hot
            version := (s.stateOf t).version + 1
            pending := [] }
          (some ⟨(s.stateOf t).version + 1, hot, journalOf (s.stateOf t) hot batch⟩) batch,
          .ok ()) := by
  have hvalid : ∀ r ∈ batch, validateLedgerRecord r = .ok () ∧ r.tenantID = t := by
    intro r hr
    obtain ⟨hv, ho⟩ := acceptsAll_valid ha r hr
    exact ⟨hv, ho.trans hl.tenantID_eq⟩
  have hcheck : (if journalOf (s.stateOf t) hot batch = [] then (.ok () : Except Err Unit)
      else validateTenantCommitRecords t batch) =
      if journalOf (s.stateOf t) hot batch ≠ [] ∧ batch.length > maxTenantCommitRecords then
        .error (.invalid "tenant commit record budget exceeded")
      else .ok () := by
    by_cases hj : journalOf (s.stateOf t) hot batch = []
    · simp [hj]
    · by_cases hlen : batch.length > maxTenantCommitRecords
      · simp [hj, hlen, validateTenantCommitRecords]
      · simp [hj, hlen, validateTenantCommitRecords, checkRecords_ok hvalid]
  unfold commitHotFirst
  simp only [hcheck]
  by_cases hbudget : journalOf (s.stateOf t) hot batch ≠ [] ∧
      batch.length > maxTenantCommitRecords
  · rw [if_pos hbudget, if_pos hbudget]
  · rw [if_neg hbudget, if_neg hbudget]
    by_cases hh : faults.hot = true
    · simp only [saveTenantHot, hh, if_true]
    · -- after the hot write the ledger of the tenant is still the old one
      have hsaved : ∀ s1 : FileStore,
          s.saveTenantHot faults.hot t hot ((s.stateOf t).version + 1)
            (journalOf (s.stateOf t) hot batch) = .ok s1 →
          s1.setTenant t
            { s.stateOf t with
              hot := hot
              version := (s.stateOf t).version + 1
              pending := journalOf (s.stateOf t) hot batch } =
          s.put t
            { s.stateOf t with
              hot := hot
              version := (s.stateOf t).version + 1
              pending := journalOf (s.stateOf t) hot batch }
            (some ⟨(s.stateOf t).version + 1, hot, journalOf (s.stateOf t) hot batch⟩) [] := by
        intro s1 h1
        simp only [saveTenantHot, hh, if_false, Bool.false_eq_true, Except.ok.injEq] at h1
        subst h1
        simp [setTenant, put]
      cases h1 : s.saveTenantHot faults.hot t hot ((s.stateOf t).version + 1)
          (journalOf (s.stateOf t) hot batch) with
      | error e => simp [saveTenantHot, hh] at h1
      | ok s1 =>
        simp only [hsaved s1 h1]
        rw [if_neg hh, appendLedger_eq (by simpa using hl) (by simpa using ha)
          (by simp [put, stateOf])]
        by_cases hf : batch ≠ [] ∧ faults.ledger = true
        · rw [if_pos hf, if_pos hf]
        · rw [if_neg hf, if_neg hf]
          simp [setTenant_eq_put]

end Orders

/-! ## Section 4: The whole transaction -/

/-- Replace the control document, in memory and on disk. -/
def setControl (s : FileStore) (control : Control) : FileStore :=
  { s with disk := { s.disk with control := control }, control := control }

@[simp] theorem stateOf_setControl (s : FileStore) (c : Control) (t : String) :
    (s.setControl c).stateOf t = s.stateOf t := rfl

/-- The control write that ends a commit. -/
def finishCommit {α : Type} (s : FileStore) (fail : Bool) (before after : Control) (out : α) :
    FileStore × Except Err α :=
  if after = before then (s, .ok out)
  else if fail then (s, .error (writeError "state file"))
  else (s.setControl after, .ok out)

/-- The view a transaction of tenant `t` starts from. -/
def viewOf (s : FileStore) (t : String) : TenantView :=
  { hot := (s.stateOf t).hot, ledger := { parent := (s.stateOf t).ledger }, global := s.control }

/-- The tenant has no journal, or one whose records are all committed. -/
def Resolved (s : FileStore) (t : String) : Prop :=
  ∀ r ∈ (s.stateOf t).pending, r ∈ (s.stateOf t).ledger.records

section Transaction

variable {α : Type} {s : FileStore} {t : String} (hl : Built t (s.stateOf t).ledger)
  (hj : JournalOk (s.stateOf t).ledger (s.stateOf t).pending) (faults : WriteFaults)
include hl hj

theorem updateTenant_pending (hr : ¬ s.Resolved t) (order : CommitOrder)
    (fn : TenantView → Except Err (TenantView × α)) :
    s.updateTenant faults t order fn =
      (s.put t (s.stateOf t) none [], .error .tenantCommitPending) := by
  have hne : (s.stateOf t).pending ≠ [] := by
    intro h
    apply hr
    intro r hmem
    rw [h] at hmem
    cases hmem
  have hun : unresolvedTenantCommit (s.stateOf t) = .ok true := by
    rw [unresolvedTenantCommit_eq hl hj, decide_eq_true]
    exact ⟨hne, hr⟩
  unfold updateTenant
  simp only [hun, setTenant_eq_put]

private theorem unresolved_false (hr : s.Resolved t) :
    unresolvedTenantCommit (s.stateOf t) = .ok false := by
  rw [unresolvedTenantCommit_eq hl hj, decide_eq_false]
  intro hc
  exact hc.2 hr

theorem updateTenant_failed (hr : s.Resolved t) (order : CommitOrder)
    {fn : TenantView → Except Err (TenantView × α)} {e : Err} (hfn : fn (s.viewOf t) = .error e) :
    s.updateTenant faults t order fn =
      (s.put t { s.stateOf t with pending := [] } none [], .error e) := by
  unfold viewOf at hfn
  unfold updateTenant
  simp only [unresolved_false hl hj hr, hfn, setTenant_eq_put]

omit hj in
/-- What a transaction body hands over: a batch the ledger accepts. -/
theorem TenantClosure_batch (fn : TenantClosure α) {view : TenantView} {out : α}
    (hfn : fn.run (s.viewOf t) = .ok (view, out)) :
    (s.stateOf t).ledger.AcceptsAll view.ledger.pending ∧
      view.ledger.future = (s.stateOf t).ledger.pushAll view.ledger.pending ∧
      Built t view.ledger.future ∧
      ∀ r ∈ view.ledger.pending, r ∈ view.ledger.future.records := by
  have hw := fn.lawful _ _ _ hfn
  obtain ⟨hbuf, hpar⟩ := hw.buffered (.start hl)
  have hacc := hbuf.accepts
  rw [hpar] at hacc
  have hfut : view.ledger.future = (s.stateOf t).ledger.pushAll view.ledger.pending := by
    rw [LedgerView.future, hpar]
    rfl
  refine ⟨hacc, hfut, ?_, ?_⟩
  · rw [hfut]
    exact hl.pushAll hacc
  · intro r hr
    rw [hfut, pushAll_records]
    exact List.mem_append_right _ hr

omit hl hj in
theorem commitTenant_written {order : CommitOrder} {hot : HotDoc} {batch : List LedgerRecord}
    {global : Control} {base : FileStore} {state : TenantState} {file : Option HotFile}
    (hl' : Built t state.ledger) (hc : ∀ r ∈ batch, r ∈ state.ledger.records)
    (h : base.commitFiles faults t order hot batch = (s.put t state file batch, .ok ())) :
    base.commitTenant faults t order hot batch global =
      finishCommit (s.put t state file batch) faults.control base.control global () := by
  have hindex : ∀ s' : FileStore, s'.stateOf t = state → s'.tenant[t]? = some state →
      s'.setTenant t { s'.stateOf t with ledger := (s'.stateOf t).ledger.commitPending batch } =
        s' := by
    intro s' hst hmem
    rw [hst, hl'.commitPending_committed hc]
    simp [setTenant, insert_lookup_self hmem]
  have hput : (s.put t state file batch).tenant[t]? = some state := by simp [put]
  unfold commitTenant
  simp only [h, finishCommit, writeControlFile]
  by_cases hg : global = base.control
  · simp only [hg, if_true, hindex _ (stateOf_put_self ..) hput]
  · simp only [hg, if_false]
    by_cases hf : faults.control = true
    · simp only [hf, if_true]
    · simp only [hf, if_false, Bool.false_eq_true]
      have hset := hindex ((s.put t state file batch).setControl global)
        (by rw [stateOf_setControl, stateOf_put_self]) hput
      unfold setControl at hset ⊢
      rw [hset]

omit hl hj in
theorem commitTenant_stopped {order : CommitOrder} {hot : HotDoc} {batch : List LedgerRecord}
    {global : Control} {base s' : FileStore} {e : Err}
    (h : base.commitFiles faults t order hot batch = (s', .error e)) :
    base.commitTenant faults t order hot batch global = (s', .error e) := by
  unfold commitTenant
  simp only [h]

theorem updateTenant_committed (hr : s.Resolved t) (order : CommitOrder)
    {fn : TenantView → Except Err (TenantView × α)} {view : TenantView} {out : α}
    (hfn : fn (s.viewOf t) = .ok (view, out)) :
    s.updateTenant faults t order fn =
      Prod.map id (Except.map (fun _ => out))
        ((s.put t { s.stateOf t with pending := [] } none []).commitTenant faults t order
          view.hot view.ledger.pending view.global) := by
  unfold viewOf at hfn
  unfold updateTenant
  simp only [unresolved_false hl hj hr, hfn, setTenant_eq_put]
  rfl

omit hl hj in
private theorem finishCommit_out (fail : Bool) (before after : Control) (out : α) :
    Prod.map id (Except.map (fun _ => out)) (s.finishCommit fail before after ()) =
      s.finishCommit fail before after out := by
  unfold finishCommit
  by_cases hg : after = before
  · simp [hg, Except.map]
  · by_cases hf : fail = true
    · simp [hg, hf, Except.map]
    · simp [hg, hf, Except.map]

/-- **Cold-first transactions.** -/
theorem updateTenant_coldFirst (hr : s.Resolved t) (fn : TenantClosure α) {view : TenantView}
    {out : α} (hfn : fn.run (s.viewOf t) = .ok (view, out)) :
    s.updateTenant faults t .coldFirst fn.run =
      if view.ledger.pending ≠ [] ∧ faults.ledger then
        (s.put t { s.stateOf t with pending := [] } none [],
          .error (writeError "tenant ledger file"))
      else if faults.hot then
        (s.put t { s.stateOf t with pending := [], ledger := view.ledger.future } none
          view.ledger.pending, .error (writeError "tenant hot file"))
      else
        finishCommit
          (s.put t
            { hot := view.hot, ledger := view.ledger.future
              version := (s.stateOf t).version + 1, pending := [] }
            (some ⟨(s.stateOf t).version + 1, view.hot, []⟩) view.ledger.pending)
          faults.control s.control view.global out := by
  obtain ⟨hacc, hfut, hbuilt, hcom⟩ := TenantClosure_batch hl fn hfn
  rw [updateTenant_committed hl hj faults hr .coldFirst hfn]
  have hcommit : (s.put t { s.stateOf t with pending := [] } none []).commitFiles faults t
      .coldFirst view.hot view.ledger.pending = _ :=
    commitColdFirst_eq (by simpa using hl) (by simp [put, stateOf]) (by simpa using hacc) faults
      view.hot
  simp only [stateOf_put_self, put_put, Option.or_none, ← hfut] at hcommit
  by_cases hf : view.ledger.pending ≠ [] ∧ faults.ledger = true
  · rw [if_pos hf] at hcommit ⊢
    rw [commitTenant_stopped faults hcommit]
    rfl
  · rw [if_neg hf] at hcommit ⊢
    by_cases hh : faults.hot = true
    · rw [if_pos hh] at hcommit ⊢
      rw [commitTenant_stopped faults hcommit]
      rfl
    · rw [if_neg hh] at hcommit ⊢
      rw [commitTenant_written faults hbuilt hcom hcommit]
      exact finishCommit_out _ _ _ out

/-- **Hot-first transactions.** -/
theorem updateTenant_hotFirst (hr : s.Resolved t) (fn : TenantClosure α) {view : TenantView}
    {out : α} (hfn : fn.run (s.viewOf t) = .ok (view, out)) :
    s.updateTenant faults t .hotFirst fn.run =
      let journal := journalOf (s.stateOf t) view.hot view.ledger.pending
      if journal ≠ [] ∧ view.ledger.pending.length > maxTenantCommitRecords then
        (s.put t { s.stateOf t with pending := [] } none [],
          .error (.invalid "tenant commit record budget exceeded"))
      else if faults.hot then
        (s.put t { s.stateOf t with pending := [] } none [], .error (writeError "tenant hot file"))
      else if view.ledger.pending ≠ [] ∧ faults.ledger then
        (s.put t
          { s.stateOf t with
            hot := view.hot, version := (s.stateOf t).version + 1, pending := journal }
          (some ⟨(s.stateOf t).version + 1, view.hot, journal⟩) [],
          .error (writeError "tenant ledger file"))
      else
        finishCommit
          (s.put t
            { hot := view.hot, ledger := view.ledger.future
              version := (s.stateOf t).version + 1, pending := [] }
            (some ⟨(s.stateOf t).version + 1, view.hot, journal⟩) view.ledger.pending)
          faults.control s.control view.global out := by
  obtain ⟨hacc, hfut, hbuilt, hcom⟩ := TenantClosure_batch hl fn hfn
  rw [updateTenant_committed hl hj faults hr .hotFirst hfn]
  have hcommit : (s.put t { s.stateOf t with pending := [] } none []).commitFiles faults t
      .hotFirst view.hot view.ledger.pending = _ :=
    commitHotFirst_eq (by simpa using hl) (by simpa using hacc) faults view.hot
  have hjournal : journalOf { s.stateOf t with pending := [] } view.hot view.ledger.pending =
      journalOf (s.stateOf t) view.hot view.ledger.pending := rfl
  simp only [stateOf_put_self, put_put, Option.or_none, ← hfut, hjournal] at hcommit
  simp only
  generalize journalOf (s.stateOf t) view.hot view.ledger.pending = journal at hcommit ⊢
  by_cases hb : journal ≠ [] ∧ view.ledger.pending.length > maxTenantCommitRecords
  · rw [if_pos hb] at hcommit ⊢
    rw [commitTenant_stopped faults hcommit]
    rfl
  · rw [if_neg hb] at hcommit ⊢
    by_cases hh : faults.hot = true
    · rw [if_pos hh] at hcommit ⊢
      rw [commitTenant_stopped faults hcommit]
      rfl
    · rw [if_neg hh] at hcommit ⊢
      by_cases hf : view.ledger.pending ≠ [] ∧ faults.ledger = true
      · rw [if_pos hf] at hcommit ⊢
        rw [commitTenant_stopped faults hcommit]
        rfl
      · rw [if_neg hf] at hcommit ⊢
        rw [commitTenant_written faults hbuilt hcom hcommit]
        exact finishCommit_out _ _ _ out

end Transaction

/-! ## Section 5: Recovery -/

/-- The records of a journal that recovery still has to append. -/
def missing (l : TenantLedger) (journal : List LedgerRecord) : List LedgerRecord :=
  if ∀ r ∈ journal, r ∈ l.records then [] else journal

section Recovery

variable {t : String} {l : TenantLedger} {journal : List LedgerRecord} (hl : Built t l)
  (hj : JournalOk l journal)

include hj in
theorem missing_accepted : l.AcceptsAll (missing l journal) := by
  unfold missing
  split
  · trivial
  · next hcom => exact hj.whole.resolve_right hcom

include hl hj

theorem recordsToAppend_missing : l.recordsToAppend journal = .ok (missing l journal) := by
  unfold missing
  split
  · next hcom => exact hl.recordsToAppend_committed hcom
  · next hcom => exact hl.recordsToAppend_fresh (hj.whole.resolve_right hcom)

theorem commitPending_missing : l.commitPending journal = l.pushAll (missing l journal) := by
  unfold missing
  split
  · next hcom => exact hl.commitPending_committed hcom
  · next hcom => exact hl.commitPending_eq (hj.whole.resolve_right hcom)

omit hl hj in
theorem mem_pushAll_missing : ∀ r ∈ journal, r ∈ (l.pushAll (missing l journal)).records := by
  intro r hr
  rw [pushAll_records]
  unfold missing
  split
  · next hcom => exact List.mem_append_left _ (hcom r hr)
  · exact List.mem_append_right _ hr

end Recovery

section Recovery

variable {s : FileStore} {t : String} (hl : Built t (s.stateOf t).ledger)
  (hj : JournalOk (s.stateOf t).ledger (s.stateOf t).pending)
  (hmem : s.tenant[t]? = some (s.stateOf t)) (hne : (s.stateOf t).pending ≠ [])
include hl hj hne

theorem appendLedger_journal (fail : Bool) :
    s.appendLedger fail t (s.stateOf t).pending =
      if missing (s.stateOf t).ledger (s.stateOf t).pending ≠ [] ∧ fail then
        .error (writeError "tenant ledger file")
      else
        .ok (s.put t
          { s.stateOf t with
            ledger := (s.stateOf t).ledger.pushAll
              (missing (s.stateOf t).ledger (s.stateOf t).pending) }
          none (missing (s.stateOf t).ledger (s.stateOf t).pending)) := by
  have hto := recordsToAppend_missing hl hj
  have hcommit := commitPending_missing hl hj
  obtain ⟨first, rest, hp⟩ := List.exists_cons_of_ne_nil hne
  generalize hm : missing (s.stateOf t).ledger (s.stateOf t).pending = m at hto hcommit ⊢
  rw [hp] at hto hcommit ⊢
  simp only [appendLedger, hto, hcommit]
  cases m with
  | nil => simp [setTenant, put]
  | cons r rest' =>
    cases fail with
    | true => simp [appendLedgerFile, Except.map]
    | false => simp [appendLedgerFile, Except.map, setTenant, put]

include hmem

/-- **Recovery of a matching candidate.** -/
theorem commitPendingTenantCommit_eq (faults : WriteFaults) {c : TenantCommitCandidate}
    (ht : c.tenantID = t) (hkey : validKeyComponent "tenant_id" t = .ok ())
    (hversion : c.version = (s.stateOf t).version) (hrecords : c.records = (s.stateOf t).pending) :
    s.commitPendingTenantCommit faults c =
      let batch := missing (s.stateOf t).ledger (s.stateOf t).pending
      if batch ≠ [] ∧ faults.ledger then (s, 0, .error (writeError "tenant ledger file"))
      else if faults.hot then
        (s.put t { s.stateOf t with ledger := (s.stateOf t).ledger.pushAll batch } none batch,
          batch.length, .error (writeError "tenant hot file"))
      else
        (s.put t
          { s.stateOf t with
            ledger := (s.stateOf t).ledger.pushAll batch
            version := (s.stateOf t).version + 1
            pending := [] }
          (some ⟨(s.stateOf t).version + 1, (s.stateOf t).hot, []⟩) batch,
          batch.length, .ok ()) := by
  subst ht
  have happend := appendLedger_journal hl hj hne faults.ledger
  have hcheck : validateTenantCommitRecords c.tenantID c.records = .ok () := by
    rw [hrecords]
    exact hj.validate hl
  have hmatch : ¬ ((s.stateOf c.tenantID).version ≠ c.version ∨
      (s.stateOf c.tenantID).pending ≠ c.records) := by
    rw [hversion, hrecords]
    simp
  unfold commitPendingTenantCommit
  simp only [hkey, hcheck, hmem, if_neg hne, if_neg hmatch, recordsToAppend_missing hl hj, happend]
  by_cases hf : missing (s.stateOf c.tenantID).ledger (s.stateOf c.tenantID).pending ≠ [] ∧
      faults.ledger = true
  · rw [if_pos hf, if_pos hf]
  · rw [if_neg hf, if_neg hf]
    simp only [stateOf_put_self, saveTenantHot]
    by_cases hh : faults.hot = true
    · simp only [hh, if_true]
    · simp only [hh, if_false, Bool.false_eq_true]
      simp [setTenant, put]

end Recovery

theorem commitPendingTenantCommit_unmatched {s : FileStore} (faults : WriteFaults)
    {c : TenantCommitCandidate}
    (h : ¬ (s.tenant[c.tenantID]? = some (s.stateOf c.tenantID) ∧
      (s.stateOf c.tenantID).pending ≠ [] ∧
      validKeyComponent "tenant_id" c.tenantID = .ok () ∧
      c.version = (s.stateOf c.tenantID).version ∧
      c.records = (s.stateOf c.tenantID).pending)) :
    (s.commitPendingTenantCommit faults c).1 = s := by
  unfold commitPendingTenantCommit
  cases hkey : validKeyComponent "tenant_id" c.tenantID with
  | error e => rfl
  | ok _ =>
    cases hcheck : validateTenantCommitRecords c.tenantID c.records with
    | error e => rfl
    | ok _ =>
      cases hmem : s.tenant[c.tenantID]? with
      | none => rfl
      | some state =>
        have hstate : s.stateOf c.tenantID = state := by simp [stateOf, hmem]
        simp only
        by_cases hne : state.pending = []
        · rw [if_pos hne]
        by_cases hmatch : state.version ≠ c.version ∨ state.pending ≠ c.records
        · rw [if_neg hne, if_pos hmatch]
        · exfalso
          apply h
          rw [hstate]
          simp only [not_or, ne_eq, not_not] at hmatch
          exact ⟨hmem, hne, hkey, hmatch.1.symm, hmatch.2.symm⟩

end FileStore

end AuditGovernance
