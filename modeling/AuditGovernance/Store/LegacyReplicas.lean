import AuditGovernance.Framework.Transition
import AuditGovernance.Store.Postgres

/-! # Whole-document updates of several replicas

    The single-row PostgreSQL backend (`internal/store/postgres.go`) under
    `Store.Update`. One row holds the document and its version; `Save` creates
    the row when the replica has never seen one, and then replaces the
    document only under the version the replica remembers.

    Each step below is one SQL statement of one replica. The row keeps the
    encoded document: `Codec` is what encoding and decoding do. Not covered:
    statements whose outcome is unknown to the caller, and a row deleted
    behind the store's back.
-/

namespace AuditGovernance.Legacy

open Transition

/-! ## Section 1: Documents and calls -/

/-- Encoding and decoding of the document; the row starts as `'{}'`. -/
structure Codec (Text : Type) where
  /-- `cloneSnapshot` and `json.Marshal`. -/
  encode : Snapshot → Except Err Text
  /-- `decodeSnapshot` into a new snapshot, and `normalize`. -/
  decode : Text → Except Err Snapshot
  /-- The document `'{}'`. -/
  empty : Text
  decode_empty : decode empty = .ok {}

/-- The closure of an `Update` call. -/
abbrev Closure := Snapshot → Except Err Snapshot

/-- How a call ends. -/
inductive Outcome where
  | success
  /-- `LoadForUpdate`, the closure or the encoding failed. -/
  | failed (err : Err)
  /-- `ErrSnapshotConflict` after the last retry. -/
  | conflict
  /-- The context ended before the next statement. -/
  | abandoned
deriving DecidableEq

variable {Text : Type}

/-- The call run alone on an encoded document. -/
def Codec.apply (c : Codec Text) (text : Text) (fn : Closure) : Except Err Text := do
  let data ← c.decode text
  let next ← fn data
  c.encode next

/-- Calls run one after another. -/
def Codec.applyAll (c : Codec Text) (text : Text) : List Closure → Except Err Text
  | [] => .ok text
  | fn :: rest =>
    match c.apply text fn with
    | .error err => .error err
    | .ok next => c.applyAll next rest

/-! ## Section 2: Interleaved execution -/

/-- Where a replica stands inside `updateLocked`. -/
inductive Phase (Text : Type) where
  | idle
  /-- Before `LoadForUpdate` of this attempt. -/
  | loading (fn : Closure) (attempt : Nat)
  /-- Inside `Save`, with the encoded document. -/
  | saving (fn : Closure) (attempt : Nat) (next : Text)

/-- One process with its `postgresBackend`. -/
structure Replica (Text : Type) where
  lastVersion : Nat := 0
  phase : Phase Text := .idle

structure State (Text : Type) where
  /-- The row `id = 1`, once there is one. -/
  row : Option (Text × Nat)
  replica : Nat → Replica Text
  /-- Calls that returned, in the order they returned. -/
  returns : List (Closure × Outcome) := []

inductive Action where
  /-- Replica `i` enters `Update`. -/
  | start (i : Nat) (fn : Closure)
  /-- `SELECT snapshot, version`, then the closure and the encoding. -/
  | load (i : Nat)
  /-- The next statement of `Save`: the insert or the checked update. -/
  | save (i : Nat)
  /-- The call of replica `i` gives up before its next statement. -/
  | abandon (i : Nat)
  /-- Replica `i` is replaced by a new process. -/
  | restart (i : Nat)

namespace State

/-- The stored document; no row stands for the empty one. -/
def document (c : Codec Text) (s : State Text) : Text := (s.row.map Prod.fst).getD c.empty

def version (s : State Text) : Nat := (s.row.map Prod.snd).getD 0

/-- The closures of the calls that returned nil. -/
def succeeded (s : State Text) : List Closure :=
  (s.returns.filter (fun r => r.2 = .success)).map Prod.fst

def setReplica (s : State Text) (i : Nat) (r : Replica Text) : State Text :=
  { s with replica := Function.update s.replica i r }

/-- Replica `i` leaves its call. -/
def finish (s : State Text) (i : Nat) (lastVersion : Nat) (fn : Closure) (outcome : Outcome) :
    State Text :=
  { s.setReplica i { lastVersion := lastVersion } with returns := s.returns ++ [(fn, outcome)] }

/-- `ErrSnapshotConflict` from `Save`: another attempt, or the end. -/
def conflicted (s : State Text) (i : Nat) (fn : Closure) (attempt : Nat) : State Text :=
  let r := s.replica i
  if attempt < snapshotConflictRetries then
    s.setReplica i { r with phase := .loading fn (attempt + 1) }
  else s.finish i r.lastVersion fn .conflict

/-- `LoadForUpdate`: without a row the remembered version stays. -/
def loadForUpdate (c : Codec Text) (s : State Text) (i : Nat) : Except Err Snapshot × Nat :=
  match s.row with
  | none => (.ok {}, (s.replica i).lastVersion)
  | some (text, version) =>
    match c.decode text with
    | .error err => (.error err, (s.replica i).lastVersion)
    | .ok data => (.ok data, version)

/-- One attempt up to `Save`. -/
def load (c : Codec Text) (s : State Text) (i : Nat) (fn : Closure) (attempt : Nat) : State Text :=
  let (loaded, version) := s.loadForUpdate c i
  match loaded.bind (fun data => (fn data).bind c.encode) with
  | .error err => s.finish i version fn (.failed err)
  | .ok next => s.setReplica i { lastVersion := version, phase := .saving fn attempt next }

/-- One statement of `Save`. -/
def save (c : Codec Text) (s : State Text) (i : Nat) (fn : Closure) (attempt : Nat) (next : Text) :
    State Text :=
  let r := s.replica i
  match s.row with
  | none =>
    if r.lastVersion = 0 then
      -- `INSERT … ON CONFLICT DO NOTHING` created the row; the update follows
      { s.setReplica i { r with lastVersion := 1 } with row := some (c.empty, 1) }
    else s.conflicted i fn attempt
  | some (_, version) =>
    if r.lastVersion = 0 then s.conflicted i fn attempt
    else if version = r.lastVersion then
      { s.finish i (r.lastVersion + 1) fn .success with row := some (next, version + 1) }
    else s.conflicted i fn attempt

def step (c : Codec Text) (s : State Text) : Action → Option (State Text)
  | .start i fn =>
    match (s.replica i).phase with
    | .idle => some (s.setReplica i { s.replica i with phase := .loading fn 0 })
    | _ => none
  | .load i =>
    match (s.replica i).phase with
    | .loading fn attempt => some (s.load c i fn attempt)
    | _ => none
  | .save i =>
    match (s.replica i).phase with
    | .saving fn attempt next => some (s.save c i fn attempt next)
    | _ => none
  | .abandon i =>
    match (s.replica i).phase with
    | .idle => none
    | .loading fn _ => some (s.finish i (s.replica i).lastVersion fn .abandoned)
    | .saving fn _ _ => some (s.finish i (s.replica i).lastVersion fn .abandoned)
  | .restart i => some (s.setReplica i {})

end State

/-- Fresh replicas over a database with or without the row. -/
def replicas (c : Codec Text) (row : Option (Text × Nat)) : System (State Text) Action where
  init := fun s => s = { row := row, replica := fun _ => {} }
  step := State.step c

/-! ## Section 3: The invariant -/

section Invariant

variable {c : Codec Text} {s s' : State Text} {i : Nat}

/-- The document a database starts with. -/
def initialDocument (c : Codec Text) (row : Option (Text × Nat)) : Text :=
  (row.map Prod.fst).getD c.empty

/-- What a replica promises: a version that is not ahead of the row, and, as
    long as its version stands, a document to save that is its call run on the
    stored one. -/
structure Promise (c : Codec Text) (s : State Text) (r : Replica Text) : Prop where
  version : r.lastVersion ≤ s.version
  result : ∀ fn attempt next, r.phase = .saving fn attempt next → r.lastVersion = s.version →
    c.apply (s.document c) fn = .ok next

/-- A replica outside `Save` promises its version only. -/
theorem Promise.of_version {r : Replica Text} (hversion : r.lastVersion ≤ s.version)
    (hphase : ∀ fn attempt next, r.phase ≠ .saving fn attempt next) : Promise c s r where
  version := hversion
  result := fun fn attempt next hp _ => absurd hp (hphase fn attempt next)

theorem Promise.of_row {r : Replica Text} (h : Promise c s r) (hrow : s'.row = s.row) :
    Promise c s' r := by
  have hversion : s'.version = s.version := by rw [State.version, State.version, hrow]
  have hdocument : s'.document c = s.document c := by
    rw [State.document, State.document, hrow]
  exact ⟨hversion ▸ h.version, by rw [hversion, hdocument]; exact h.result⟩

structure Inv (c : Codec Text) (row : Option (Text × Nat)) (s : State Text) : Prop where
  linear : c.applyAll (initialDocument c row) s.succeeded = .ok (s.document c)
  promises : ∀ i, Promise c s (s.replica i)

theorem applyAll_snoc {text mid next : Text} {calls : List Closure} {fn : Closure}
    (hcalls : c.applyAll text calls = .ok mid) (hfn : c.apply mid fn = .ok next) :
    c.applyAll text (calls ++ [fn]) = .ok next := by
  induction calls generalizing text with
  | nil =>
    cases hcalls
    simp [Codec.applyAll, hfn]
  | cons g rest ih =>
    simp only [List.cons_append, Codec.applyAll] at hcalls ⊢
    split at hcalls
    · cases hcalls
    · next mid' hg => exact ih hcalls

theorem succeeded_finish (lastVersion : Nat) (fn : Closure) (outcome : Outcome) :
    (s.finish i lastVersion fn outcome).succeeded =
      s.succeeded ++ if outcome = .success then [fn] else [] := by
  simp only [State.succeeded, State.finish, List.filter_append, List.map_append]
  split <;> simp_all

variable {row : Option (Text × Nat)}

/-- Only replica `i` has changed, and it keeps its promise. -/
theorem Inv.setReplica (h : Inv c row s) {r : Replica Text} (hr : Promise c s r) :
    Inv c row (s.setReplica i r) := by
  refine ⟨h.linear, ?_⟩
  intro j
  have hj : Promise c s ((s.setReplica i r).replica j) := by
    show Promise c s (Function.update s.replica i r j)
    by_cases hij : j = i
    · subst hij
      rw [Function.update_self]
      exact hr
    · rw [Function.update_of_ne hij]
      exact h.promises j
  exact hj.of_row rfl

theorem Inv.finish (h : Inv c row s) {lastVersion : Nat} (hversion : lastVersion ≤ s.version)
    {fn : Closure} {outcome : Outcome} (hfail : outcome ≠ .success) :
    Inv c row (s.finish i lastVersion fn outcome) := by
  have hidle : Promise c s { lastVersion := lastVersion } :=
    .of_version hversion (fun _ _ _ hp => by cases hp)
  have hset := h.setReplica (i := i) hidle
  refine ⟨?_, fun j => (hset.promises j).of_row rfl⟩
  rw [succeeded_finish, if_neg hfail, List.append_nil]
  exact h.linear

theorem Inv.conflicted (h : Inv c row s) {fn : Closure} {attempt : Nat} :
    Inv c row (s.conflicted i fn attempt) := by
  have hversion := (h.promises i).version
  unfold State.conflicted
  dsimp only
  split
  · exact h.setReplica (.of_version hversion (fun _ _ _ hp => by cases hp))
  · exact h.finish hversion (by decide)

/-- Whether there is a row or not, `LoadForUpdate` returns the stored
    document. -/
theorem loadForUpdate_spec (h : Inv c row s) :
    (s.loadForUpdate c i).1 = c.decode (s.document c) ∧
      (s.loadForUpdate c i).2 ≤ s.version := by
  have hversion := (h.promises i).version
  unfold State.loadForUpdate State.document
  cases hrow : s.row with
  | none => exact ⟨c.decode_empty.symm, hversion⟩
  | some pair =>
    obtain ⟨text, version⟩ := pair
    have hcurrent : s.version = version := by simp [State.version, hrow]
    dsimp only [Option.map_some, Option.getD_some]
    cases hdecode : c.decode text with
    | error err => exact ⟨rfl, hversion⟩
    | ok data => exact ⟨rfl, hcurrent.ge⟩

theorem Inv.load (h : Inv c row s) {fn : Closure} {attempt : Nat} :
    Inv c row (s.load c i fn attempt) := by
  obtain ⟨hloaded, hversion⟩ := loadForUpdate_spec (i := i) h
  unfold State.load
  dsimp only
  split
  · exact h.finish hversion (by simp)
  · next next hnext =>
    refine h.setReplica ⟨hversion, ?_⟩
    intro fn' attempt' next' hphase _
    cases hphase
    rw [hloaded] at hnext
    exact hnext

theorem Inv.insertRow (h : Inv c row s) (hnone : s.row = none) (hzero : (s.replica i).lastVersion = 0) :
    Inv c row { s.setReplica i { s.replica i with lastVersion := 1 } with
      row := some (c.empty, 1) } := by
  have hversion : s.version = 0 := by simp [State.version, hnone]
  have hdocument : s.document c = c.empty := by simp [State.document, hnone]
  refine ⟨?_, ?_⟩
  · have hlinear := h.linear
    rw [hdocument] at hlinear
    exact hlinear
  · intro j
    by_cases hij : j = i
    · subst hij
      show Promise c _ (Function.update s.replica j _ j)
      rw [Function.update_self]
      refine ⟨le_refl _, ?_⟩
      intro fn attempt next hphase _
      have hold := (h.promises j).result fn attempt next hphase (by rw [hzero, hversion])
      rw [hdocument] at hold
      exact hold
    · show Promise c _ (Function.update s.replica i _ j)
      rw [Function.update_of_ne hij]
      have hj := (h.promises j).version
      refine ⟨?_, ?_⟩
      · show (s.replica j).lastVersion ≤ 1
        omega
      · intro fn attempt next _ hcurrent
        have hone : (s.replica j).lastVersion = 1 := hcurrent
        omega

theorem Inv.updateRow (h : Inv c row s) {text next : Text} {version : Nat} {fn : Closure}
    {attempt : Nat} (hrow : s.row = some (text, version))
    (hphase : (s.replica i).phase = .saving fn attempt next)
    (hcurrent : version = (s.replica i).lastVersion) :
    Inv c row { s.finish i ((s.replica i).lastVersion + 1) fn .success with
      row := some (next, version + 1) } := by
  have hversion : s.version = version := by simp [State.version, hrow]
  have happly := (h.promises i).result fn attempt next hphase (by rw [hversion, hcurrent])
  refine ⟨?_, ?_⟩
  · have hcalls := applyAll_snoc h.linear happly
    have hsucceeded := succeeded_finish (s := s) (i := i) ((s.replica i).lastVersion + 1) fn .success
    rw [if_pos rfl] at hsucceeded
    rw [← hsucceeded] at hcalls
    exact hcalls
  · intro j
    by_cases hij : j = i
    · subst hij
      show Promise c _ (Function.update s.replica j _ j)
      rw [Function.update_self]
      refine .of_version ?_ (fun _ _ _ hp => by cases hp)
      show (s.replica j).lastVersion + 1 ≤ version + 1
      omega
    · show Promise c _ (Function.update s.replica i _ j)
      rw [Function.update_of_ne hij]
      have hj := (h.promises j).version
      refine ⟨?_, ?_⟩
      · show (s.replica j).lastVersion ≤ version + 1
        omega
      · intro fn' attempt' next' _ hnew
        have hahead : (s.replica j).lastVersion = version + 1 := hnew
        omega

theorem Inv.save (h : Inv c row s) {fn : Closure} {attempt : Nat} {next : Text}
    (hphase : (s.replica i).phase = .saving fn attempt next) :
    Inv c row (s.save c i fn attempt next) := by
  unfold State.save
  dsimp only
  split
  · next hnone =>
    split
    · next hzero => exact h.insertRow hnone hzero
    · exact h.conflicted
  · next text version hrow =>
    split
    · exact h.conflicted
    · split
      · next hcurrent => exact h.updateRow hrow hphase hcurrent
      · exact h.conflicted

theorem Inv.step (h : Inv c row s) {a : Action} (hs : s.step c a = some s') : Inv c row s' := by
  cases a with
  | start i fn =>
    simp only [State.step] at hs
    split at hs
    · cases hs
      exact h.setReplica (.of_version (h.promises i).version (fun _ _ _ hp => by cases hp))
    · cases hs
  | load i =>
    simp only [State.step] at hs
    split at hs
    · cases hs
      exact h.load
    · cases hs
  | save i =>
    simp only [State.step] at hs
    split at hs
    · next fn attempt next hphase =>
      cases hs
      exact h.save hphase
    · cases hs
  | abandon i =>
    simp only [State.step] at hs
    split at hs
    · cases hs
    · cases hs
      exact h.finish (h.promises i).version (by decide)
    · cases hs
      exact h.finish (h.promises i).version (by decide)
  | restart i =>
    cases hs
    exact h.setReplica (.of_version (Nat.zero_le _) (fun _ _ _ hp => by cases hp))

end Invariant

/-! ## Section 4: Linearizability -/

/-- **Whole-document updates are linearizable.** In every reachable state the
    stored document is what the calls that returned nil produce when they are
    run one after another, in the order they returned, from the document the
    database started with; every other call has left no trace. -/
theorem updates_linearizable (c : Codec Text) (row : Option (Text × Nat)) {s : State Text}
    (h : (replicas c row).Reachable s) :
    c.applyAll (initialDocument c row) s.succeeded = .ok (s.document c) := by
  have hinv : Inv c row s := by
    refine System.Reach.invariant ?_ ?_ h
    · intro s0 hinit
      cases hinit
      exact ⟨rfl, fun i => .of_version (Nat.zero_le _) (fun _ _ _ hp => by cases hp)⟩
    · intro s1 a s2 _ hinv _ hstep
      exact hinv.step hstep
  exact hinv.linear

/-! ### Two initializers -/

/-- Documents kept as they are. -/
def plainCodec : Codec Snapshot where
  encode := .ok
  decode := .ok
  empty := {}
  decode_empty := rfl

/-- An `Update` that registers a tenant. -/
def registerTenant (id : String) : Closure := fun data =>
  .ok { data with tenants := data.tenants.insert id { id := id } }

/-- Both replicas find no row. Replica 0 creates it; replica 1 fails to, loads
    the new row before replica 0 has filled it, loses to replica 0's update and
    succeeds on its third attempt. -/
def racingInitializers : List Action :=
  [.start 0 (registerTenant "a"), .start 1 (registerTenant "b"), .load 0, .load 1,
   .save 0, .save 1, .load 1, .save 0, .save 1, .load 1, .save 1]

theorem racing_initializers_keep_both :
    ∃ s, (replicas plainCodec none).Reachable s ∧
      s.succeeded = [registerTenant "a", registerTenant "b"] ∧
      plainCodec.applyAll {} s.succeeded = .ok (s.document plainCodec) := by
  obtain ⟨s, hs⟩ : ∃ s, (replicas plainCodec none).exec
      { row := none, replica := fun _ => {} } racingInitializers = some s := ⟨_, rfl⟩
  have hreach : (replicas plainCodec none).Reachable s := System.Reachable.exec (.init rfl) hs
  have hsucceeded : s.succeeded = [registerTenant "a", registerTenant "b"] := by
    have hmap := congrArg (Option.map State.succeeded) hs
    exact (Option.some.inj hmap).symm
  exact ⟨s, hreach, hsucceeded, updates_linearizable plainCodec none hreach⟩

end AuditGovernance.Legacy
