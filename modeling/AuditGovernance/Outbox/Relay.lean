import AuditGovernance.Domain.InMemory
import AuditGovernance.Framework.Transition
import AuditGovernance.Service.Retention

/-! # Outbox relays

    Business transactions write rows into `audit_outbox`; relay instances list
    the rows that are due, deliver them and record the outcome
    (`internal/outbox/relay.go`, `postgres.go`, `identity.go`). Every SQL
    statement is one step, and the steps of several instances interleave. An
    instance writes the attempts it listed plus one, however long its delivery
    took; the statement asks only that the row is still pending.

    `history` records refused deliveries and corruption reports. Logs and the
    bytes of rows are left out.
-/

namespace AuditGovernance

namespace Outbox

/-! ## Section 1: Rows -/

inductive RowStatus where
  | pending
  | delivered
  | failed
deriving DecidableEq

/-- A `timestamptz` column as the driver hands it over. -/
inductive ColumnTime where
  | null
  | finite (t : Time)
  /-- `infinity` and `-infinity`, which no layout reads. -/
  | text (raw : String)
deriving DecidableEq

/-- A row of `audit_outbox`. -/
structure Row where
  id : Int
  eventID : Option String := none
  tenantID : Option String := none
  idempotencyKey : Option String := none
  payload : Json := .null
  occurredAt : ColumnTime := .null
  status : RowStatus := .pending
  attempts : Nat := 0
  nextAttemptAt : Time := 0
  lastError : Option String := none
  createdAt : Time := 0
  deliveredAt : Option Time := none
  deliveredEventID : Option String := none
  apiStatus : Option Status := none
deriving DecidableEq

structure Record where
  id : Int
  event : Event
  status : RowStatus
  attempts : Nat
  nextAttemptAt : Time
  lastError : String
  createdAt : Time
deriving DecidableEq

structure CorruptRecord where
  id : Int
  attempts : Nat
  err : String
deriving DecidableEq

/-! ## Section 2: Listing -/

/-- `decodeEvent`, of a stored payload. -/
def decodeEvent (payload : Json) : Option Event :=
  Json.readStruct (Event.readFields InMemory.instantOf) payload

def stringValue : Option String → String
  | none => "<null>"
  | some text => text.quote

def timeValue (t : Time) : String := if t = 0 then "<empty>" else (Timestamp.format t).quote

def rowOccurredValue : ColumnTime → String
  | .null => "<empty>"
  | .finite t => timeValue t
  | .text raw => raw.quote

def identityField (name row payload : String) : String :=
  name ++ " row=" ++ row ++ " payload=" ++ payload

/-- A text column that is empty or disagrees with the payload. -/
def textMismatch (name : String) (row : Option String) (payload : String) : List String :=
  if row = none ∨ row = some "" ∨ payload = "" ∨ row ≠ some payload then
    [identityField name (stringValue row) payload.quote]
  else []

/-- `identityMismatch`. -/
def identityMismatch (row : Row) (event : Event) : Option String :=
  let fields := textMismatch "event_id" row.eventID event.eventID ++
    textMismatch "tenant_id" row.tenantID event.tenantID ++
    textMismatch "idempotency_key" row.idempotencyKey event.idempotencyKey ++
    (if row.occurredAt ≠ .finite event.occurredAt ∨ event.occurredAt = 0 then
      [identityField "occurred_at" (rowOccurredValue row.occurredAt) (timeValue event.occurredAt)]
    else [])
  if fields = [] then none
  else some ("outbox identity mismatch id=" ++ toString row.id ++ ": " ++ "; ".intercalate fields)

/-- What is made of one scanned row. The text of a decoding error is that of
    `encoding/json`. -/
def scan (decodeError : Json → String) (row : Row) : Except CorruptRecord Record :=
  match decodeEvent row.payload with
  | none => .error
      { id := row.id, attempts := row.attempts
        err := "decode outbox payload id=" ++ toString row.id ++ ": " ++ decodeError row.payload }
  | some event =>
    match identityMismatch row event with
    | some err => .error { id := row.id, attempts := row.attempts, err := err }
    | none => .ok
        { id := row.id, event := event, status := row.status, attempts := row.attempts
          nextAttemptAt := row.nextAttemptAt, lastError := row.lastError.getD ""
          createdAt := row.createdAt }

/-- The order of `ORDER BY next_attempt_at, id`. -/
def dueBefore (a b : Row) : Prop :=
  (a.nextAttemptAt : Int) < b.nextAttemptAt ∨ (a.nextAttemptAt = b.nextAttemptAt ∧ a.id ≤ b.id)

instance (a b : Row) : Decidable (dueBefore a b) := inferInstanceAs (Decidable (_ ∨ _))

/-- The rows `listPendingQuery` selects. -/
def due (table : List Row) (now : Time) (limit : Nat) : List Row :=
  ((table.filter fun row => row.status = .pending ∧ (row.nextAttemptAt : Int) ≤ now).insertionSort
    dueBefore).take limit

/-- `ListPending`. -/
def listPending (decodeError : Json → String) (table : List Row) (now : Time) (limit : Nat) :
    List Record × List CorruptRecord :=
  let scanned := (due table now limit).map (scan decodeError)
  (scanned.filterMap fun r => r.toOption,
    scanned.filterMap fun | .error c => some c | .ok _ => none)

/-! ## Section 3: Outcomes -/

/-- `Update`: the columns one delivery attempt sets. -/
structure Update where
  status : RowStatus
  attempts : Nat
  nextAttemptAt : Time
  lastError : String := ""
  deliveredAt : Time := 0
  deliveredEventID : String := ""
  apiStatus : Status := .unset

def nullableString (value : String) : Option String := if value = "" then none else some value

def nullableTime (value : Time) : Option Time := if value = 0 then none else some value

/-- The row after `updateQuery` has matched it. -/
def Update.set (patch : Update) (row : Row) : Row :=
  { row with
    status := patch.status, attempts := patch.attempts, nextAttemptAt := patch.nextAttemptAt
    lastError := nullableString patch.lastError, deliveredAt := nullableTime patch.deliveredAt
    deliveredEventID := nullableString patch.deliveredEventID
    apiStatus := if patch.apiStatus = .unset then none else some patch.apiStatus }

/-- `Update`: a statement on the row with this id, if it is still pending. -/
def update (table : List Row) (id : Int) (patch : Update) : List Row :=
  table.map fun row => if row.id = id ∧ row.status = .pending then patch.set row else row

/-- How a delivery ends: accepted, with a receipt if the transport has one, or
    refused; `permanent` is that of a `DeliveryError`. -/
inductive Outcome where
  | accepted (receipt : Option EventReceipt)
  | refused (permanent : Bool) (text : String)

structure Relay where
  batchSize : Int := 0
  maxAttempts : Int := 0
  baseBackoff : Int := 0
  maxBackoff : Int := 0

namespace Relay

def batchLimit (r : Relay) : Nat := if r.batchSize ≤ 0 then 100 else r.batchSize.toNat

/-- `maxAttempts()`. -/
def attemptLimit (r : Relay) : Nat := if r.maxAttempts ≤ 0 then 8 else r.maxAttempts.toNat

def firstWait (r : Relay) : Int := if r.baseBackoff ≤ 0 then nanosPerSecond else r.baseBackoff

def longestWait (r : Relay) : Int :=
  if r.maxBackoff ≤ 0 then 5 * 60 * nanosPerSecond else r.maxBackoff

/-- The loop of `backoff`, with the doublings left. -/
def doubled (r : Relay) : Nat → Int → Int
  | 0, wait => wait
  | n + 1, wait =>
    if wait < r.longestWait then
      let next := wrapInt64 (wait * 2)
      if r.longestWait < next then r.longestWait else doubled r n next
    else wait

/-- `backoff`. -/
def backoff (r : Relay) (attempt : Nat) : Int := r.doubled (attempt - 1) r.firstWait

/-- What `quarantine` writes. -/
def quarantine (corrupt : CorruptRecord) (now : Time) : Update :=
  { status := .failed, attempts := corrupt.attempts + 1, nextAttemptAt := now
    lastError := corrupt.err }

/-- What `succeed` writes. -/
def succeed (record : Record) (receipt : Option EventReceipt) (now : Time) : Update :=
  { status := .delivered, attempts := record.attempts + 1, nextAttemptAt := now
    deliveredAt := now
    deliveredEventID := (receipt.map EventReceipt.eventID).getD ""
    apiStatus := (receipt.map EventReceipt.status).getD .unset }

/-- What `fail` writes. -/
def fail (r : Relay) (record : Record) (permanent : Bool) (text : String) (now : Time) : Update :=
  let attempts := record.attempts + 1
  if permanent ∨ r.attemptLimit ≤ attempts then
    { status := .failed, attempts := attempts, nextAttemptAt := now, lastError := text }
  else
    { status := .pending, attempts := attempts
      nextAttemptAt := addDuration now (r.backoff attempts), lastError := text }

def settle (r : Relay) (record : Record) (now : Time) : Outcome → Update
  | .accepted receipt => succeed record receipt now
  | .refused permanent text => r.fail record permanent text now

end Relay

/-! ## Section 4: Instances -/

/-- Where an instance is in `RunOnce`. -/
inductive Stage where
  | idle
  | working (corrupt : List CorruptRecord) (records : List Record)
  /-- A delivery has ended, its outcome is not written yet. -/
  | answered (record : Record) (outcome : Outcome) (rest : List Record)

/-- What is remembered about a row. -/
inductive Happening where
  | reported (id : Int)
  | refused (id : Int) (permanent : Bool)
deriving DecidableEq

structure State (ι : Type) where
  table : List Row
  stages : ι → Stage
  history : List Happening

inductive Action (ι : Type) where
  /-- A business transaction commits a row. -/
  | insert (row : Row)
  /-- `ListPending`, at the time of the database. -/
  | list (i : ι) (now : Time)
  /-- `quarantine` of the next corrupt row; `applied` says whether the statement
      went through. -/
  | quarantine (i : ι) (now : Time) (applied : Bool)
  /-- `Deliver` of the next record returns. -/
  | deliver (i : ι) (outcome : Outcome)
  /-- `succeed` or `fail`. -/
  | update (i : ι) (now : Time) (applied : Bool)
  /-- `RunOnce` returns, or the process ends. -/
  | leave (i : ι)

section System

variable {ι : Type} [DecidableEq ι] (relays : ι → Relay) (decodeError : Json → String)

def State.set (s : State ι) (i : ι) (stage : Stage) : State ι :=
  { s with stages := Function.update s.stages i stage }

/-- What the outcome of a delivery adds to the history. -/
def Outcome.happening (id : Int) : Outcome → List Happening
  | .accepted _ => []
  | .refused permanent _ => [.refused id permanent]

def step (s : State ι) : Action ι → Option (State ι)
  | .insert row =>
    if (∀ r ∈ s.table, r.id ≠ row.id) ∧ row.status = .pending ∧ row.attempts = 0 then
      some { s with table := s.table ++ [row] }
    else none
  | .list i now =>
    match s.stages i with
    | .idle =>
      let listed := listPending decodeError s.table now (relays i).batchLimit
      some { s.set i (.working listed.2 listed.1) with
        history := s.history ++ listed.2.map fun c => .reported c.id }
    | _ => none
  | .quarantine i now applied =>
    match s.stages i with
    | .working (corrupt :: rest) records =>
      some { s.set i (.working rest records) with
        table := if applied then update s.table corrupt.id (Relay.quarantine corrupt now)
          else s.table }
    | _ => none
  | .deliver i outcome =>
    match s.stages i with
    | .working [] (record :: rest) =>
      some { s.set i (.answered record outcome rest) with
        history := s.history ++ outcome.happening record.id }
    | _ => none
  | .update i now applied =>
    match s.stages i with
    | .answered record outcome rest =>
      some { s.set i (.working [] rest) with
        table := if applied then update s.table record.id ((relays i).settle record now outcome)
          else s.table }
    | _ => none
  | .leave i => some (s.set i .idle)

/-- Relays over an empty table. -/
def relaying : Transition.System (State ι) (Action ι) where
  init s := s.table = [] ∧ (∀ i, s.stages i = .idle) ∧ s.history = []
  step := step relays decodeError

end System

/-! ## Section 5: What one step does to the table -/

/-- The refused deliveries of a row. -/
def refusals (history : List Happening) (id : Int) : Nat :=
  history.countP fun h => h = .refused id true ∨ h = .refused id false

/-- The statement a step executes: the row, the attempts the instance listed, and
    the columns it sets. -/
structure Write where
  id : Int
  listed : Nat
  patch : Update

section Writes

variable {ι : Type} (relays : ι → Relay)

def writeOf (s : State ι) : Action ι → Option Write
  | .quarantine i now true =>
    match s.stages i with
    | .working (corrupt :: _) _ => some ⟨corrupt.id, corrupt.attempts, Relay.quarantine corrupt now⟩
    | _ => none
  | .update i now true =>
    match s.stages i with
    | .answered record outcome _ =>
      some ⟨record.id, record.attempts, (relays i).settle record now outcome⟩
    | _ => none
  | _ => none

/-- No writer is more than one recorded retry behind: a pending row it writes to
    has at most one attempt more than the instance listed. -/
def UpToDate (s : State ι) (a : Action ι) : Prop :=
  ∀ w, writeOf relays s a = some w →
    ∀ row ∈ s.table, row.id = w.id → row.status = .pending → row.attempts ≤ w.listed + 1

theorem writeOf_attempts {s : State ι} {a : Action ι} {w : Write}
    (h : writeOf relays s a = some w) : w.patch.attempts = w.listed + 1 := by
  unfold writeOf at h
  split at h
  · split at h
    · cases h
      rfl
    · cases h
  · split at h
    · rename_i record outcome _ _
      cases h
      rcases outcome with receipt | ⟨permanent, text⟩
      · rfl
      · show ((relays _).fail record permanent text _).attempts = record.attempts + 1
        unfold Relay.fail
        dsimp only
        split <;> rfl
    · cases h
  · cases h

end Writes

section Steps

variable {ι : Type} [DecidableEq ι] {relays : ι → Relay} {decodeError : Json → String}

/-- The rows a step adds. -/
def Action.added : Action ι → List Row
  | .insert row => [row]
  | _ => []

/-- What a step does to the table: it executes its statement, or adds its rows. -/
theorem step_table {s s' : State ι} {a : Action ι} (h : step relays decodeError s a = some s') :
    s'.table = match writeOf relays s a with
      | some w => update s.table w.id w.patch
      | none => s.table ++ a.added := by
  rcases a with newRow | ⟨i, now⟩ | ⟨i, now, applied⟩ | ⟨i, outcome⟩ | ⟨i, now, applied⟩ | i
  · simp only [step] at h
    split at h
    · cases h
      rfl
    · cases h
  · simp only [step] at h
    split at h
    · cases h
      exact (List.append_nil _).symm
    · cases h
  · simp only [step] at h
    split at h
    · rename_i corrupt rest records hstage
      cases h
      cases applied with
      | false => exact (List.append_nil _).symm
      | true => simp [writeOf, hstage]
    · cases h
  · simp only [step] at h
    split at h
    · cases h
      exact (List.append_nil _).symm
    · cases h
  · simp only [step] at h
    split at h
    · rename_i record outcome rest hstage
      cases h
      cases applied with
      | false => exact (List.append_nil _).symm
      | true => simp [writeOf, hstage]
    · cases h
  · cases h
    exact (List.append_nil _).symm

theorem added_attempts {s s' : State ι} {a : Action ι} (h : step relays decodeError s a = some s')
    {row : Row} (hrow : row ∈ a.added) : row.attempts = 0 := by
  rcases a with newRow | _ | _ | _ | _ | _
  · simp only [step] at h
    split at h
    · rename_i hnew
      rw [List.mem_singleton.1 hrow]
      exact hnew.2.2
    · cases h
  all_goals cases hrow

/-- The row a step makes of a row of the table. -/
def rowAfter (relays : ι → Relay) (s : State ι) (a : Action ι) (row : Row) : Row :=
  match writeOf relays s a with
  | some w => if row.id = w.id ∧ row.status = .pending then w.patch.set row else row
  | none => row

theorem step_rows {s s' : State ι} {a : Action ι} (h : step relays decodeError s a = some s')
    {k : Nat} {row : Row} (hrow : s.table[k]? = some row) :
    s'.table[k]? = some (rowAfter relays s a row) := by
  have hk : k < s.table.length := (List.getElem?_eq_some_iff.1 hrow).1
  rw [step_table h]
  unfold rowAfter
  split
  · simp [update, hrow]
  · rw [List.getElem?_append_left hk, hrow]

theorem step_rows_back {s s' : State ι} {a : Action ι} (h : step relays decodeError s a = some s')
    {row' : Row} (hrow' : row' ∈ s'.table) :
    row'.attempts = 0 ∨ ∃ row ∈ s.table, row' = rowAfter relays s a row := by
  rw [step_table h] at hrow'
  unfold rowAfter
  split at hrow'
  · obtain ⟨row, hrow, rfl⟩ := List.mem_map.1 hrow'
    exact .inr ⟨row, hrow, rfl⟩
  · rcases List.mem_append.1 hrow' with hold | hnew
    · exact .inr ⟨row', hold, rfl⟩
    · exact .inl (added_attempts h hnew)

end Steps

/-! ## Section 6: Attempts are backed by refusals -/

theorem refusals_append (history more : List Happening) (id : Int) :
    refusals (history ++ more) id = refusals history id + refusals more id :=
  List.countP_append

theorem refusals_refused (id : Int) (permanent : Bool) (text : String) :
    refusals ((Outcome.refused permanent text).happening id) id = 1 := by
  cases permanent <;> simp [refusals, Outcome.happening]

/-- What an instance holds is in the history. -/
def Covers (history : List Happening) : Stage → Prop
  | .idle => True
  | .working corrupt records =>
    (∀ c ∈ corrupt, .reported c.id ∈ history) ∧
      ∀ r ∈ records, r.attempts ≤ refusals history r.id
  | .answered record outcome rest =>
    (∀ permanent text, outcome = .refused permanent text →
      .refused record.id permanent ∈ history ∧ record.attempts + 1 ≤ refusals history record.id) ∧
      ∀ r ∈ rest, r.attempts ≤ refusals history r.id

/-- The attempts of a pending row are at most its refused deliveries. -/
structure Accounted {ι : Type} (s : State ι) : Prop where
  rows : ∀ row ∈ s.table, row.status = .pending → row.attempts ≤ refusals s.history row.id
  stages : ∀ i, Covers s.history (s.stages i)

theorem Covers.more {history : List Happening} {stage : Stage} (h : Covers history stage)
    (more : List Happening) : Covers (history ++ more) stage := by
  have hle : ∀ id, refusals history id ≤ refusals (history ++ more) id := by
    intro id
    rw [refusals_append]
    omega
  rcases stage with _ | ⟨corrupt, records⟩ | ⟨record, outcome, rest⟩
  · trivial
  · exact ⟨fun c hc => List.mem_append_left _ (h.1 c hc),
      fun r hr => (h.2 r hr).trans (hle r.id)⟩
  · refine ⟨fun permanent text heq => ?_, fun r hr => (h.2 r hr).trans (hle r.id)⟩
    obtain ⟨hmem, hcount⟩ := h.1 permanent text heq
    exact ⟨List.mem_append_left _ hmem, hcount.trans (hle record.id)⟩

theorem covers_set {ι : Type} [DecidableEq ι] {s : State ι} {history : List Happening} {i : ι}
    {stage : Stage} (hold : ∀ j, Covers history (s.stages j)) (hnew : Covers history stage)
    (j : ι) : Covers history ((s.set i stage).stages j) := by
  show Covers history (Function.update s.stages i stage j)
  by_cases hj : j = i
  · subst hj
    rwa [Function.update_self]
  · rw [Function.update_of_ne hj]
    exact hold j

theorem mem_listPending {decodeError : Json → String} {table : List Row} {now : Time} {limit : Nat}
    {r : Record} (h : r ∈ (listPending decodeError table now limit).1) :
    ∃ row ∈ table, row.status = .pending ∧ r.id = row.id ∧ r.attempts = row.attempts := by
  simp only [listPending, List.mem_filterMap, List.mem_map] at h
  obtain ⟨scanned, ⟨row, hrow, rfl⟩, hscan⟩ := h
  have hmem : row ∈ table.filter fun row =>
      row.status = .pending ∧ (row.nextAttemptAt : Int) ≤ now :=
    (List.perm_insertionSort _ _).mem_iff.1 (List.mem_of_mem_take hrow)
  rw [List.mem_filter, decide_eq_true_eq] at hmem
  refine ⟨row, hmem.1, hmem.2.1, ?_⟩
  unfold scan at hscan
  split at hscan
  · cases hscan
  · split at hscan
    · cases hscan
    · cases hscan
      exact ⟨rfl, rfl⟩

/-- Why a relay may give a row up. -/
def Cause (relay : Relay) (history : List Happening) (id : Int) : Prop :=
  .refused id true ∈ history ∨ .reported id ∈ history ∨ relay.attemptLimit ≤ refusals history id

def Action.actor {ι : Type} : Action ι → Option ι
  | .insert _ => none
  | .list i _ | .quarantine i _ _ | .deliver i _ | .update i _ _ | .leave i => some i

theorem writeOf_accounted {ι : Type} {relays : ι → Relay} {s : State ι} {a : Action ι} {w : Write}
    (hs : Accounted s) (h : writeOf relays s a = some w) :
    (w.patch.status = .pending → w.patch.attempts ≤ refusals s.history w.id) ∧
      (w.patch.status = .failed →
        ∃ i, a.actor = some i ∧ Cause (relays i) s.history w.id) := by
  unfold writeOf at h
  split at h
  · rename_i i now
    split at h
    · rename_i corrupt rest records hstage
      cases h
      have hcovers := hs.stages i
      rw [hstage] at hcovers
      refine ⟨fun hpending => (by cases hpending), fun _ => ⟨i, rfl, .inr (.inl ?_)⟩⟩
      exact hcovers.1 corrupt List.mem_cons_self
    · cases h
  · rename_i i now
    split at h
    · rename_i record outcome rest hstage
      cases h
      have hcovers := hs.stages i
      rw [hstage] at hcovers
      rcases outcome with receipt | ⟨permanent, text⟩
      · exact ⟨fun hpending => (by cases hpending), fun hfailed => (by cases hfailed)⟩
      · obtain ⟨hmem, hcount⟩ := hcovers.1 permanent text rfl
        show (((relays i).fail record permanent text now).status = .pending →
            ((relays i).fail record permanent text now).attempts ≤ refusals s.history record.id) ∧
          (((relays i).fail record permanent text now).status = .failed →
            ∃ j, some i = some j ∧ Cause (relays j) s.history record.id)
        unfold Relay.fail
        dsimp only
        split
        · rename_i hgive
          refine ⟨fun hpending => (by cases hpending), fun _ => ⟨i, rfl, ?_⟩⟩
          rcases hgive with hpermanent | hlimit
          · rw [hpermanent] at hmem
            exact .inl hmem
          · exact .inr (.inr (hlimit.trans hcount))
        · exact ⟨fun _ => hcount, fun hfailed => (by cases hfailed)⟩
    · cases h
  · cases h

/-! ## Section 7: Whole runs -/

section Runs

variable {ι : Type} [DecidableEq ι] {relays : ι → Relay} {decodeError : Json → String}

theorem step_stages {s s' : State ι} {a : Action ι} (hs : Accounted s)
    (h : step relays decodeError s a = some s') :
    (∃ more, s'.history = s.history ++ more) ∧ ∀ i, Covers s'.history (s'.stages i) := by
  rcases a with newRow | ⟨i, now⟩ | ⟨i, now, applied⟩ | ⟨i, outcome⟩ | ⟨i, now, applied⟩ | i
  · simp only [step] at h
    split at h
    · cases h
      exact ⟨⟨[], (List.append_nil _).symm⟩, hs.stages⟩
    · cases h
  · simp only [step] at h
    split at h
    · cases h
      refine ⟨⟨_, rfl⟩, covers_set (fun j => (hs.stages j).more _) ⟨fun c hc => ?_, fun r hr => ?_⟩⟩
      · exact List.mem_append_right _ (List.mem_map_of_mem hc)
      · obtain ⟨row, hrow, hpending, hid, hattempts⟩ := mem_listPending hr
        have hbacked := hs.rows row hrow hpending
        rw [hid, hattempts, refusals_append]
        omega
    · cases h
  · simp only [step] at h
    split at h
    · rename_i corrupt rest records hstage
      cases h
      have hcovers := hs.stages i
      rw [hstage] at hcovers
      refine ⟨⟨[], (List.append_nil _).symm⟩, covers_set hs.stages ⟨fun c hc => ?_, hcovers.2⟩⟩
      exact hcovers.1 c (List.mem_cons_of_mem _ hc)
    · cases h
  · simp only [step] at h
    split at h
    · rename_i record rest hstage
      cases h
      have hcovers := hs.stages i
      rw [hstage] at hcovers
      refine ⟨⟨_, rfl⟩, covers_set (fun j => (hs.stages j).more _) ⟨?_, fun r hr => ?_⟩⟩
      · rintro permanent text rfl
        have hlisted := hcovers.2 record List.mem_cons_self
        refine ⟨List.mem_append_right _ List.mem_cons_self, ?_⟩
        rw [refusals_append, refusals_refused]
        omega
      · have hlisted := hcovers.2 r (List.mem_cons_of_mem _ hr)
        rw [refusals_append]
        omega
    · cases h
  · simp only [step] at h
    split at h
    · rename_i record outcome rest hstage
      cases h
      have hcovers := hs.stages i
      rw [hstage] at hcovers
      exact ⟨⟨[], (List.append_nil _).symm⟩,
        covers_set hs.stages ⟨fun c hc => (by cases hc), hcovers.2⟩⟩
    · cases h
  · cases h
    exact ⟨⟨[], (List.append_nil _).symm⟩, covers_set hs.stages trivial⟩

theorem Accounted.step {s s' : State ι} {a : Action ι} (hs : Accounted s)
    (h : step relays decodeError s a = some s') : Accounted s' := by
  obtain ⟨⟨more, hmore⟩, hstages⟩ := step_stages hs h
  refine ⟨fun row' hrow' hpending => ?_, hstages⟩
  rw [hmore, refusals_append]
  rcases step_rows_back h hrow' with hzero | ⟨row, hrow, hupdate⟩
  · omega
  · unfold rowAfter at hupdate
    split at hupdate
    · rename_i w hwrite
      split at hupdate
      · rename_i hmatch
        subst hupdate
        have hbacked := (writeOf_accounted hs hwrite).1 hpending
        rw [← hmatch.1] at hbacked
        exact hbacked.trans (Nat.le_add_right _ _)
      · subst hupdate
        have hbacked := hs.rows row' hrow hpending
        omega
    · subst hupdate
      have hbacked := hs.rows row' hrow hpending
      omega

theorem reachable_accounted {s : State ι} (h : (relaying relays decodeError).Reachable s) :
    Accounted s := by
  refine Transition.System.Reach.invariant (P := Accounted) ?_ ?_ h
  · rintro s ⟨htable, hstages, -⟩
    refine ⟨fun row hrow => ?_, fun i => ?_⟩
    · rw [htable] at hrow
      cases hrow
    · rw [hstages i]
      trivial
  · intro s a s' _ hs _ hstep
    exact hs.step hstep

/-- What the bookkeeping of retries promises of one step. -/
def Bookkeeping (relays : ι → Relay) (s : State ι) (a : Action ι) (s' : State ι) : Prop :=
  ∀ (k : Nat) (row : Row), s.table[k]? = some row → ∃ row', s'.table[k]? = some row' ∧
    row.attempts ≤ row'.attempts ∧ (row.status ≠ .pending → row' = row) ∧
    (row.status ≠ .failed → row'.status = .failed →
      ∃ i, a.actor = some i ∧ Cause (relays i) s.history row.id)

/-- In every run, a step keeps the bookkeeping of retries exactly when its writer
    is not more than one recorded retry behind. -/
theorem retry_bookkeeping_iff {s s' : State ι} {a : Action ι}
    (hreach : (relaying relays decodeError).Reachable s)
    (hstep : (relaying relays decodeError).step s a = some s') :
    Bookkeeping relays s a s' ↔ UpToDate relays s a := by
  have hs := reachable_accounted hreach
  constructor
  · intro hkeeps w hwrite row hrow hid hpending
    obtain ⟨k, hk, hget⟩ := List.getElem_of_mem hrow
    have hrow' := List.getElem?_eq_some_iff.2 ⟨hk, hget⟩
    obtain ⟨row', hafter, hle, -, -⟩ := hkeeps k row hrow'
    rw [step_rows hstep hrow', rowAfter, hwrite] at hafter
    simp only [hid, hpending, and_self, if_true, Option.some.injEq] at hafter
    subst hafter
    exact hle.trans (writeOf_attempts relays hwrite).le
  · intro hcurrent k row hrow
    refine ⟨_, step_rows hstep hrow, ?_⟩
    unfold rowAfter
    split
    · rename_i w hwrite
      split
      · -- The statement matches the row, which is pending.
        rename_i hmatch
        refine ⟨?_, fun hsettled => absurd hmatch.2 hsettled, fun _ hfailed => ?_⟩
        · have hle := hcurrent w hwrite row (List.mem_of_getElem? hrow) hmatch.1 hmatch.2
          exact hle.trans (writeOf_attempts relays hwrite).ge
        · rw [hmatch.1]
          exact (writeOf_accounted hs hwrite).2 hfailed
      · exact ⟨le_refl _, fun _ => rfl, fun hne heq => absurd heq hne⟩
    · exact ⟨le_refl _, fun _ => rfl, fun hne heq => absurd heq hne⟩

end Runs

/-! ## Section 8: An overtaken instance -/

/-- A row as a business transaction writes it. -/
def orderRow : Row :=
  { id := 1, eventID := some "evt-1", tenantID := some "acme", idempotencyKey := some "key-1"
    payload := .obj [("event_id", .str "evt-1"), ("tenant_id", .str "acme"),
      ("occurred_at", .str "2024-01-01T00:00:00Z"), ("idempotency_key", .str "key-1")]
    occurredAt := .finite 63839664000000000000 }

/-- One instance, refused by an unavailable service. -/
def refusedRound (i : Bool) (now : Time) : List (Action Bool) :=
  [.list i now, .deliver i (.refused false "unavailable"), .update i now true, .leave i]

/-- Two instances of default configuration over an empty table. -/
def twoRelays : Transition.System (State Bool) (Action Bool) :=
  relaying (fun _ => {}) (fun _ => "")

def emptyOutbox : State Bool := { table := [], stages := fun _ => .idle, history := [] }

/-- The first instance lists the row and waits for its delivery, while the second
    has two rounds. -/
def overtaking : List (Action Bool) :=
  [.insert orderRow, .list false 1] ++ refusedRound true 1 ++ refusedRound true 5000000000 ++
    [.deliver false (.refused false "timeout")]

theorem emptyOutbox_reachable : twoRelays.Reachable emptyOutbox :=
  .init ⟨rfl, fun _ => rfl, rfl⟩

theorem first_round_keeps_books : ∃ s s', twoRelays.Reachable s ∧
    twoRelays.step s (.update true 1 true) = some s' ∧
    Bookkeeping (fun _ => {}) s (.update true 1 true) s' := by
  have hrows : (twoRelays.exec emptyOutbox
      [.insert orderRow, .list true 1, .deliver true (.refused false "timeout")]).map State.table =
        some [orderRow] := rfl
  have hstep : ((twoRelays.exec emptyOutbox
      [.insert orderRow, .list true 1, .deliver true (.refused false "timeout")]).bind fun s =>
        twoRelays.step s (.update true 1 true)).isSome = true := rfl
  obtain ⟨s, hs, htable⟩ := Option.map_eq_some_iff.1 hrows
  rw [hs, Option.bind_some] at hstep
  obtain ⟨s', hs'⟩ := Option.isSome_iff_exists.1 hstep
  have hreach := Transition.System.Reachable.exec emptyOutbox_reachable hs
  refine ⟨s, s', hreach, hs', (retry_bookkeeping_iff hreach hs').2 ?_⟩
  intro w _ row hrow _ _
  rw [htable, List.mem_singleton] at hrow
  rw [hrow]
  exact Nat.zero_le _

/-- The late update of the first instance takes the attempts from two to one. -/
theorem late_update_lowers_attempts : ∃ s s', twoRelays.Reachable s ∧
    twoRelays.step s (.update false 6000000000 true) = some s' ∧
    (s.table.map Row.attempts, s'.table.map Row.attempts) = ([2], [1]) := by
  have hbefore : (twoRelays.exec emptyOutbox overtaking).map (fun s => s.table.map Row.attempts) =
      some [2] := rfl
  have hafter : ((twoRelays.exec emptyOutbox overtaking).bind fun s =>
      twoRelays.step s (.update false 6000000000 true)).map (fun s => s.table.map Row.attempts) =
        some [1] := rfl
  obtain ⟨s, hs, htwo⟩ := Option.map_eq_some_iff.1 hbefore
  rw [hs, Option.bind_some] at hafter
  obtain ⟨s', hs', hone⟩ := Option.map_eq_some_iff.1 hafter
  exact ⟨s, s', Transition.System.Reachable.exec emptyOutbox_reachable hs, hs',
    Prod.ext htwo hone⟩

end Outbox

end AuditGovernance
