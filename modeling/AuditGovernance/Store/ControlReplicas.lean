import AuditGovernance.Framework.Transition
import AuditGovernance.Store.Postgres

/-! # Control-plane calls of several replicas

    Any number of replicas run `UpdateControl`, `Update` and `UpdateChecked`
    against one PostgreSQL store, with closures that change control-plane
    fields only. The calls interleave at statement boundaries.

    `Update` and `UpdateChecked` run their closure on a materialized snapshot
    before they enter the load-and-save loop of `UpdateControl`, so the
    version check protects the wrong read: a commit between the two reads is
    erased. Calls are linearizable in the runs where the document loaded by
    the loop is the document that was materialized.
-/

namespace AuditGovernance

open FiniteMap Transition

/-! ## Section 1: Calls -/

/-- A closure of `Update` or `UpdateChecked` that leaves tenant evidence
    alone. -/
structure ControlOnlyFn where
  run : Snapshot → Except Err (Bool × Snapshot)
  controlOnly : ∀ data mutated working, run data = .ok (mutated, working) →
    tenantDataEqual data working = true

/-- A control-plane call with its closure. -/
inductive ControlCall where
  /-- `UpdateControl`. -/
  | control (fn : Control → Except Err Control)
  /-- `UpdateChecked`; `Update` is the case that always reports a mutation. -/
  | snapshot (fn : ControlOnlyFn)

/-- The call run alone on document `d`, over the tenant tables of `db`: the
    document it leaves, or `none` when its closure fails. -/
def ControlCall.result (db : Postgres) (d : Control) : ControlCall → Option Control
  | .control fn => (fn d).toOption
  | .snapshot fn =>
    match fn.run (db.materializeWith d) with
    | .error _ => none
    | .ok (false, _) => some d
    | .ok (true, working) => some (controlSnapshot working)

/-- Calls run one after another. -/
def runSequential (db : Postgres) (d : Control) : List ControlCall → Option Control
  | [] => some d
  | call :: rest => (call.result db d).bind (fun d' => runSequential db d' rest)

/-! ## Section 2: Interleaved execution -/

/-- Where a replica stands inside a call. `seen` is the document a snapshot
    closure was computed from. -/
inductive Phase where
  | idle
  /-- A snapshot call that has not read anything yet. -/
  | started (fn : ControlOnlyFn)
  /-- Inside `updateControl`, before the load of attempt `attempt`. -/
  | writing (call : ControlCall) (seen : Option Control) (fn : Control → Except Err Control)
      (attempt : Nat)
  /-- Closure run on a load with this version; `next` is about to be saved. -/
  | loaded (call : ControlCall) (seen : Option Control) (fn : Control → Except Err Control)
      (attempt : Nat) (next : Control) (version : Nat)

structure ReplicaState where
  db : Postgres
  phase : Nat → Phase
  /-- Calls that returned nil, in the order they returned. -/
  succeeded : List ControlCall

inductive ReplicaAction where
  /-- Replica `i` enters a call. -/
  | start (i : Nat) (call : ControlCall)
  /-- Replica `i` materializes the store and runs its snapshot closure. -/
  | materialize (i : Nat)
  /-- Replica `i` loads the control row and runs the loop's closure. -/
  | load (i : Nat)
  /-- Replica `i` saves under the version it loaded. -/
  | save (i : Nat)
  /-- Replica `i` gives up before its next statement. -/
  | abandon (i : Nat)

namespace ReplicaState

def setPhase (s : ReplicaState) (i : Nat) (p : Phase) : ReplicaState :=
  { s with phase := Function.update s.phase i p }

/-- The control document. -/
def doc (s : ReplicaState) : Control := s.db.loadControl.1

/-- Return nil from `call`. -/
def succeed (s : ReplicaState) (i : Nat) (call : ControlCall) : ReplicaState :=
  { s.setPhase i .idle with succeeded := s.succeeded ++ [call] }

def step (s : ReplicaState) : ReplicaAction → Option ReplicaState
  | .start i call =>
    match s.phase i, call with
    | .idle, .control fn => some (s.setPhase i (.writing call none fn 0))
    | .idle, .snapshot fn => some (s.setPhase i (.started fn))
    | _, _ => none
  | .materialize i =>
    match s.phase i with
    | .started fn =>
      match fn.run s.db.materialize with
      | .error _ => some (s.setPhase i .idle)
      | .ok (false, _) => some (s.succeed i (.snapshot fn))
      | .ok (true, working) =>
        if tenantDataEqual s.db.materialize working then
          some (s.setPhase i (.writing (.snapshot fn) (some s.doc)
            (fun _ => .ok (controlSnapshot working)) 0))
        else none  -- `replaceSnapshot`: never taken by a control-only closure
    | _ => none
  | .load i =>
    match s.phase i with
    | .writing call seen fn attempt =>
      match fn s.doc with
      | .error _ => some (s.setPhase i .idle)
      | .ok next => some (s.setPhase i (.loaded call seen fn attempt next s.db.loadControl.2))
    | _ => none
  | .save i =>
    match s.phase i with
    | .loaded call seen fn attempt next version =>
      match s.db.saveControl next version with
      | .ok db' => some { s.succeed i call with db := db' }
      | .error e =>
        if e.isSnapshotConflict ∧ attempt < snapshotConflictRetries then
          some (s.setPhase i (.writing call seen fn (attempt + 1)))
        else some (s.setPhase i .idle)
    | _ => none
  | .abandon i => some (s.setPhase i .idle)

end ReplicaState

/-- All replicas idle over a given database. -/
def controlReplicas (db : Postgres) : System ReplicaState ReplicaAction where
  init := fun s => s = { db := db, phase := fun _ => .idle, succeeded := [] }
  step := ReplicaState.step

/-- **The condition.** When an `Update` or `UpdateChecked` call loads the
    control row after its closure ran, the document is still the one the
    closure was run on. -/
def ReplicaState.loadsWhatItSaw (s : ReplicaState) : ReplicaAction → Prop
  | .load i =>
    match s.phase i with
    | .writing _ (some seen) _ _ => s.doc = seen
    | _ => True
  | _ => True

instance (s : ReplicaState) : (a : ReplicaAction) → Decidable (s.loadsWhatItSaw a)
  | .load i =>
    match h : s.phase i with
    | .writing _ (some seen) _ _ =>
      decidable_of_iff (s.doc = seen) (by simp only [ReplicaState.loadsWhatItSaw, h])
    | .writing _ none _ _ => isTrue (by simp only [ReplicaState.loadsWhatItSaw, h])
    | .idle => isTrue (by simp only [ReplicaState.loadsWhatItSaw, h])
    | .started _ => isTrue (by simp only [ReplicaState.loadsWhatItSaw, h])
    | .loaded .. => isTrue (by simp only [ReplicaState.loadsWhatItSaw, h])
  | .start .. => isTrue trivial
  | .materialize _ => isTrue trivial
  | .save _ => isTrue trivial
  | .abandon _ => isTrue trivial

/-! ## Section 3: The invariant -/

/-- What the loop's closure has to do with the call it belongs to. -/
def FnOf (db : Postgres) (call : ControlCall) (seen : Option Control)
    (fn : Control → Except Err Control) : Prop :=
  match call, seen with
  | .control g, none => fn = g
  | .snapshot g, some base => ∃ working, g.run (db.materializeWith base) = .ok (true, working) ∧
      fn = fun _ => .ok (controlSnapshot working)
  | _, _ => False

/-- What a phase promises about the current row. -/
def PhaseInv (s : ReplicaState) : Phase → Prop
  | .idle => True
  | .started _ => True
  | .writing call seen fn _ => FnOf s.db call seen fn
  | .loaded call seen fn _ next version =>
    FnOf s.db call seen fn ∧ version ≤ s.db.loadControl.2 ∧
      -- as long as the version stands, saving `next` is running the call now
      (version = s.db.loadControl.2 → call.result s.db s.doc = some next)

/-- The tenant tables of two databases agree. -/
def SameTables (a b : Postgres) : Prop := a.tenants = b.tenants ∧ a.ledger = b.ledger

theorem SameTables.materializeWith {a b : Postgres} (h : SameTables a b) (c : Control) :
    a.materializeWith c = b.materializeWith c := by
  obtain ⟨ht, hl⟩ := h
  unfold Postgres.materializeWith Postgres.tenantIDs Postgres.loadTenantHot Postgres.tenantLedger
    Postgres.ledgerRecords
  rw [ht, hl]

theorem SameTables.result {a b : Postgres} (h : SameTables a b) (d : Control)
    (call : ControlCall) : call.result a d = call.result b d := by
  cases call with
  | control fn => rfl
  | snapshot fn => simp only [ControlCall.result, h.materializeWith]

theorem SameTables.fnOf {a b : Postgres} (h : SameTables a b) {call : ControlCall}
    {seen : Option Control} {fn : Control → Except Err Control} (hf : FnOf a call seen fn) :
    FnOf b call seen fn := by
  unfold FnOf at hf ⊢
  cases call with
  | control g => cases seen <;> exact hf
  | snapshot g =>
    cases seen with
    | none => exact hf
    | some base =>
      simp only at hf ⊢
      rw [← h.materializeWith]
      exact hf

/-- A successful save kept the tables, installed the document and raised the
    version it was given, which was the current one. -/
theorem saveControl_ok {db db' : Postgres} {next : Control} {version : Nat}
    (h : db.saveControl next version = .ok db') :
    SameTables db db' ∧ db'.loadControl.1 = next ∧ version = db.loadControl.2 ∧
      db'.loadControl.2 = version + 1 := by
  unfold Postgres.saveControl at h
  split at h
  · next hv =>
    unfold Postgres.saveInitialControl at h
    split at h
    · cases h
    next hrow =>
    split at h
    · cases h
    cases h
    have hnone : db.control = none := by simpa using hrow
    refine ⟨⟨rfl, rfl⟩, rfl, ?_, ?_⟩
    · unfold Postgres.loadControl
      rw [hnone]
      exact hv
    · rw [hv]
      rfl
  · cases hc : db.control with
    | none => rw [hc] at h; cases h
    | some row =>
      obtain ⟨current, v⟩ := row
      rw [hc] at h
      simp only at h
      split at h
      · next hv =>
        cases h
        refine ⟨⟨rfl, rfl⟩, rfl, ?_, ?_⟩
        · unfold Postgres.loadControl
          rw [hc]
          exact hv.symm
        · rw [← hv]
          rfl
      · cases h

/-- The invariant of guarded runs from `db0`. -/
structure ReplicaInv (db0 : Postgres) (s : ReplicaState) : Prop where
  tables : SameTables db0 s.db
  linear : runSequential db0 db0.loadControl.1 s.succeeded = some s.doc
  phases : ∀ i, PhaseInv s (s.phase i)

theorem runSequential_snoc (db : Postgres) (d : Control) (calls : List ControlCall)
    (call : ControlCall) :
    runSequential db d (calls ++ [call]) =
      (runSequential db d calls).bind (fun d' => call.result db d') := by
  induction calls generalizing d with
  | nil => simp [runSequential]
  | cons c rest ih =>
    simp only [List.cons_append, runSequential, Option.bind_assoc]
    congr 1
    funext d'
    exact ih d'

theorem ReplicaInv.setPhase {db0 : Postgres} {s : ReplicaState} (h : ReplicaInv db0 s) (i : Nat)
    {p : Phase} (hp : PhaseInv s p) : ReplicaInv db0 (s.setPhase i p) := by
  refine ⟨h.tables, h.linear, ?_⟩
  intro j
  by_cases hij : j = i
  · subst hij
    show PhaseInv _ (Function.update s.phase j p j)
    rw [Function.update_self]
    cases p <;> exact hp
  · show PhaseInv _ (Function.update s.phase i p j)
    rw [Function.update_of_ne hij]
    have hj := h.phases j
    cases hph : s.phase j <;> rw [hph] at hj <;> exact hj

theorem PhaseInv.after_save {s : ReplicaState} {db' : Postgres} {next : Control} {version : Nat}
    (hsave : s.db.saveControl next version = .ok db') {p : Phase} (h : PhaseInv s p)
    (s' : ReplicaState) (hdb : s'.db = db') : PhaseInv s' p := by
  obtain ⟨htab, -, hver, hver'⟩ := saveControl_ok hsave
  subst hdb
  cases p with
  | idle => trivial
  | started fn => trivial
  | writing call seen fn attempt => exact htab.fnOf h
  | loaded call seen fn attempt nxt v =>
    obtain ⟨hf, hle, -⟩ := h
    refine ⟨htab.fnOf hf, by omega, ?_⟩
    intro heq
    omega

theorem ReplicaInv.linear_snoc {db0 : Postgres} {s : ReplicaState} (h : ReplicaInv db0 s)
    {call : ControlCall} {d : Control} (hr : call.result s.db s.doc = some d) :
    runSequential db0 db0.loadControl.1 (s.succeeded ++ [call]) = some d := by
  rw [runSequential_snoc, h.linear, Option.bind_some, h.tables.result]
  exact hr

theorem ReplicaInv.step {db0 : Postgres} {s s' : ReplicaState} {a : ReplicaAction}
    (h : ReplicaInv db0 s) (hg : s.loadsWhatItSaw a) (hs : s.step a = some s') :
    ReplicaInv db0 s' := by
  cases a with
  | start i call =>
    cases call with
    | control fn =>
      simp only [ReplicaState.step] at hs
      split at hs
      · next hcall =>
        cases hs
        cases hcall
        exact h.setPhase i rfl
      · next hcall => cases hcall
      · cases hs
    | snapshot fn =>
      simp only [ReplicaState.step] at hs
      split at hs
      · next hcall => cases hcall
      · cases hs
        exact h.setPhase i trivial
      · cases hs
  | materialize i =>
    simp only [ReplicaState.step] at hs
    split at hs
    · next fn hph =>
      split at hs
      · cases hs
        exact h.setPhase i trivial
      · next working hrun =>
        cases hs
        -- an unmutated call is a no-op on the document it was run on
        have hres : (ControlCall.snapshot fn).result s.db s.doc = some s.doc := by
          simp only [ControlCall.result]
          have hrun' : fn.run (s.db.materializeWith s.doc) = .ok (false, working) := hrun
          rw [hrun']
        have hinv := h.setPhase i (p := .idle) trivial
        refine ⟨hinv.tables, h.linear_snoc hres, ?_⟩
        intro j
        have hj := hinv.phases j
        cases hpj : (s.setPhase i .idle).phase j <;> rw [hpj] at hj <;>
          show PhaseInv _ ((s.setPhase i .idle).phase j) <;> rw [hpj] <;> exact hj
      · next working hrun =>
        split at hs
        · cases hs
          exact h.setPhase i ⟨working, hrun, rfl⟩
        · cases hs
    · cases hs
  | load i =>
    simp only [ReplicaState.step] at hs
    split at hs
    · next call seen fn attempt hph =>
      have hfn : FnOf s.db call seen fn := by
        have hi := h.phases i
        rw [hph] at hi
        exact hi
      split at hs
      · cases hs
        exact h.setPhase i trivial
      · next nxt hnext =>
        cases hs
        refine h.setPhase i ⟨hfn, le_refl _, ?_⟩
        intro _
        simp only [ReplicaState.loadsWhatItSaw, hph] at hg
        cases call with
        | control g =>
          cases seen with
          | none =>
            have hfg : fn = g := hfn
            simp only [ControlCall.result, ← hfg, hnext]
            rfl
          | some base => exact hfn.elim
        | snapshot g =>
          cases seen with
          | none => exact hfn.elim
          | some base =>
            -- the guard: the document loaded is the document materialized
            obtain ⟨working, hrun, hconst⟩ := hfn
            simp only at hg
            rw [hconst] at hnext
            cases hnext
            simp only [ControlCall.result, hg, hrun]
    · cases hs
  | save i =>
    simp only [ReplicaState.step] at hs
    split at hs
    · next call seen fn attempt nxt version hph =>
      have hi := h.phases i
      rw [hph] at hi
      obtain ⟨hfn, hle, hres⟩ := hi
      split at hs
      · next db' hsave =>
        cases hs
        obtain ⟨htab, hdoc, hver, hver'⟩ := saveControl_ok hsave
        have hdoc' : db'.loadControl.1 = nxt := hdoc
        refine ⟨⟨h.tables.1.trans htab.1, h.tables.2.trans htab.2⟩, ?_, ?_⟩
        · show runSequential db0 db0.loadControl.1 (s.succeeded ++ [call]) =
            some (db'.loadControl.1)
          rw [hdoc']
          exact h.linear_snoc (hres hver)
        · intro j
          have hj := (h.setPhase i (p := .idle) trivial).phases j
          exact PhaseInv.after_save (s := s.setPhase i .idle) hsave hj _ rfl
      · split at hs
        · cases hs
          exact h.setPhase i hfn
        · cases hs
          exact h.setPhase i trivial
    · cases hs
  | abandon i =>
    cases hs
    exact h.setPhase i trivial

theorem replicaInv_reach {db0 : Postgres} {s : ReplicaState}
    (h : (controlReplicas db0).Reach ReplicaState.loadsWhatItSaw s) : ReplicaInv db0 s := by
  refine System.Reach.invariant ?_ ?_ h
  · intro s0 hinit
    subst hinit
    exact ⟨⟨rfl, rfl⟩, rfl, fun _ => trivial⟩
  · intro s1 a s2 _ hinv hg hstep
    exact hinv.step hg hstep

/-! ## Section 4: Linearizability -/

/-- No call of the list changes entry `k` of dictionary `f`. -/
def Untouched (db : Postgres) (f : MapField) (k : String) : Control → List ControlCall → Prop
  | _, [] => True
  | d, call :: rest => ∀ d', call.result db d = some d' →
      (d'.map f)[k]? = (d.map f)[k]? ∧ Untouched db f k d' rest

theorem Untouched.entry_eq {db : Postgres} {f : MapField} {k : String} {d d' : Control}
    {calls : List ControlCall} (h : Untouched db f k d calls)
    (hrun : runSequential db d calls = some d') : (d'.map f)[k]? = (d.map f)[k]? := by
  induction calls generalizing d with
  | nil =>
    cases hrun
    rfl
  | cons call rest ih =>
    simp only [runSequential, Option.bind_eq_some_iff] at hrun
    obtain ⟨d1, hd1, hrest⟩ := hrun
    obtain ⟨hentry, hun⟩ := h d1 hd1
    rw [ih hun hrest, hentry]

theorem runSequential_append {db : Postgres} {d d' : Control} {pre post : List ControlCall}
    (h : runSequential db d (pre ++ post) = some d') :
    ∃ mid, runSequential db d pre = some mid ∧ runSequential db mid post = some d' := by
  induction pre generalizing d with
  | nil => exact ⟨d, rfl, h⟩
  | cons call rest ih =>
    simp only [List.cons_append, runSequential, Option.bind_eq_some_iff] at h ⊢
    obtain ⟨d1, hd1, hrest⟩ := h
    obtain ⟨mid, hmid, hpost⟩ := ih hrest
    exact ⟨mid, ⟨d1, hd1, hmid⟩, hpost⟩

/-- **Linearizability of control-plane calls.** In every run in which each
    `Update` or `UpdateChecked` call loads the document its closure was run
    on, the control document is what the successful calls produce when run
    one after another in the order they returned; and an entry that was there
    after some of them is still there if the later ones do not touch it. -/
theorem controlReplicas_linearizable (db : Postgres) {s : ReplicaState}
    (h : (controlReplicas db).Reach ReplicaState.loadsWhatItSaw s) :
    runSequential db db.loadControl.1 s.succeeded = some s.doc ∧
    ∀ pre post, s.succeeded = pre ++ post →
      ∃ mid, runSequential db db.loadControl.1 pre = some mid ∧
        ∀ (f : MapField) (k : String), Untouched db f k mid post →
          (s.doc.map f)[k]? = (mid.map f)[k]? := by
  have hinv := replicaInv_reach h
  refine ⟨hinv.linear, ?_⟩
  intro pre post hsplit
  have hlin := hinv.linear
  rw [hsplit] at hlin
  obtain ⟨mid, hmid, hpost⟩ := runSequential_append hlin
  exact ⟨mid, hmid, fun f k hun => hun.entry_eq hpost⟩

/-! ### Two replicas -/

/-- An `Update` that places a legal hold. -/
def placeHold : ControlOnlyFn where
  run := fun data => .ok (true, { data with
    legalHolds := data.legalHolds.insert "h1" { id := "h1", tenantID := "t" } })
  controlOnly := by
    intro data mutated working hrun
    cases hrun
    simp [tenantDataEqual]

/-- An `UpdateControl` that creates an export job. -/
def createExport (c : Control) : Except Err Control :=
  .ok { c with exports := c.exports.insert "x1" { id := "x1", tenantID := "t" } }

/-- A store whose control row holds the empty document. -/
def emptyRow : Postgres := { control := some ({}, 1) }

def idleReplicas : ReplicaState := { db := emptyRow, phase := fun _ => .idle, succeeded := [] }

/-- Replica 1 creates the export before replica 0 starts. -/
def oneAfterTheOther : List ReplicaAction :=
  [.start 1 (.control createExport), .load 1, .save 1,
   .start 0 (.snapshot placeHold), .materialize 0, .load 0, .save 0]

/-- Replica 1 creates the export after replica 0 materialized the store. -/
def exportInBetween : List ReplicaAction :=
  [.start 0 (.snapshot placeHold), .materialize 0,
   .start 1 (.control createExport), .load 1, .save 1, .load 0, .save 0]

/-- The run without the overlap meets the condition and keeps both changes. -/
theorem controlReplicas_linearizable_oneAfterTheOther :
    ∃ s, (controlReplicas emptyRow).Reach ReplicaState.loadsWhatItSaw s ∧
      s.succeeded = [.control createExport, .snapshot placeHold] ∧
      runSequential emptyRow emptyRow.loadControl.1 s.succeeded = some s.doc := by
  obtain ⟨s, hs⟩ : ∃ s, (controlReplicas emptyRow).exec idleReplicas oneAfterTheOther = some s :=
    ⟨_, rfl⟩
  have hreach : (controlReplicas emptyRow).Reach ReplicaState.loadsWhatItSaw s := by
    exact System.Reach.exec (.init rfl) (by decide) hs
  have hsucc : s.succeeded = [.control createExport, .snapshot placeHold] := by
    have hmap := congrArg (Option.map ReplicaState.succeeded) hs
    exact (Option.some.inj hmap).symm
  exact ⟨s, hreach, hsucc, (controlReplicas_linearizable emptyRow hreach).1⟩

private theorem eq_of_perm_pair {α : Type} {l : List α} {a b : α} (h : l.Perm [a, b]) :
    l = [a, b] ∨ l = [b, a] := by
  match l, h.length_eq with
  | [x, y], _ =>
    have hx : x ∈ [a, b] := h.subset List.mem_cons_self
    rcases List.mem_cons.1 hx with hxa | hxb
    · subst hxa
      left
      rw [List.perm_cons, List.perm_singleton] at h
      rw [h]
    · rw [List.mem_singleton] at hxb
      subst hxb
      right
      have hswap := h.trans (List.Perm.swap _ _ _)
      rw [List.perm_cons, List.perm_singleton] at hswap
      rw [hswap]

/-- **Lost update.** After the overlapping run both calls have returned nil,
    and the control document is not the result of running their closures in
    any order: the export job is gone. -/
theorem controlReplicas_lose_export :
    ∃ s, (controlReplicas emptyRow).Reachable s ∧
      s.succeeded = [.control createExport, .snapshot placeHold] ∧
      ∀ order, order.Perm s.succeeded →
        runSequential emptyRow emptyRow.loadControl.1 order ≠ some s.doc := by
  obtain ⟨s, hs⟩ : ∃ s, (controlReplicas emptyRow).exec idleReplicas exportInBetween = some s :=
    ⟨_, rfl⟩
  have hsucc : s.succeeded = [.control createExport, .snapshot placeHold] := by
    have hmap := congrArg (Option.map ReplicaState.succeeded) hs
    exact (Option.some.inj hmap).symm
  have hdoc : s.doc.exports["x1"]? = none := by
    have hmap := congrArg (Option.map (fun s => s.doc.exports["x1"]?)) hs
    exact (Option.some.inj hmap).symm.trans (by decide)
  refine ⟨s, System.Reachable.exec (.init rfl) hs, hsucc, ?_⟩
  intro order hperm hrun
  rw [hsucc] at hperm
  have hkept : ((runSequential emptyRow emptyRow.loadControl.1 order).bind
      (fun d => d.exports["x1"]?)).isSome := by
    rcases eq_of_perm_pair hperm with horder | horder
    · subst horder
      decide
    · subst horder
      decide
  rw [hrun, Option.bind_some, hdoc] at hkept
  cases hkept

end AuditGovernance
