import AuditGovernance.Framework.Transition
import AuditGovernance.Kafka.Replay

/-! # The topic consumer

    `Consumer.Run` (`internal/kafka/kafka.go`) as a machine that makes one
    call at a time: fetch, ingest, publish a failure, commit, wait. What the
    call answers is the label of the step, so a run of the machine is any
    pattern of answers, and cancellation is an answer of the calls that can
    see it. The calls made so far are the trace.

    - Message values are an arbitrary type with the four readers the consumer
      applies to them.
    - Counters and log lines are left out.
-/

namespace AuditGovernance.Consumer

open Transition Replay

/-! ## Section 1: Messages and their reading -/

/-- How a message is read. -/
structure Input (V : Type) where
  /-- The topic has a contract schema (`inputSchema != ""`). -/
  contract : Bool
  /-- `validateSingleJSONValue`: the text of its error. -/
  validateSingleJSONValue : V → Option String
  /-- `ValidateEventMessage` on key and value: the event read so far, and the
      text of the error. -/
  validateEventMessage : String → V → Event × Option String
  /-- `decodeLegacyEvent`. -/
  decodeLegacyEvent : V → Except String Event
  /-- `eventIDFromValue`. -/
  eventIDFromValue : V → String

/-- What `Run` makes of a fetched message. -/
inductive Reading where
  | unparsable (cause : String)
  /-- A complete value that violates the contract. -/
  | invalid (event : Event) (cause : String)
  | event (event : Event)

variable {V : Type}

/-- The decoding part of `Run`. -/
def Input.read (input : Input V) (m : Message V) : Reading :=
  if input.contract then
    match input.validateSingleJSONValue m.value with
    | some cause => .unparsable cause
    | none =>
      match input.validateEventMessage m.key m.value with
      | (event, some cause) => .invalid event cause
      | (event, none) => .event event
  else
    match input.decodeLegacyEvent m.value with
    | .error cause => .unparsable cause
    | .ok event => .event event

/-- The event id that a failure record about the message would carry: of an
    unparsable value the one that can be probed, or else the key. -/
def Input.deadLetterID (input : Input V) (m : Message V) : String :=
  match input.read m with
  | .unparsable _ =>
    let id := input.eventIDFromValue m.value
    if id ≠ "" then id else m.key
  | .invalid event _ => event.eventID
  | .event event => event.eventID

/-- An error of the ingest function, as far as the consumer looks at it. -/
structure IngestError where
  /-- `outbox.DeliveryError`: its `Permanent` flag and status code. -/
  delivery : Option (Bool × Nat) := none
  /-- `errors.Is(err, domain.ErrOccurredAtOutOfRange)`. -/
  occurredAtOutOfRange : Bool := false
  /-- `errors.Is(err, projection.ErrNotLedgered)`. -/
  notLedgered : Bool := false
  /-- `errors.Is(err, projection.ErrTenantUnscoped)`. -/
  tenantUnscoped : Bool := false
  text : String := ""

/-- The error ends the attempts at once. -/
def IngestError.permanent (err : IngestError) : Bool :=
  err.delivery.any (fun d => d.1) || err.occurredAtOutOfRange || err.notLedgered ||
    err.tenantUnscoped

/-- A transient delivery error with status 401. -/
def IngestError.unauthorized (err : IngestError) : Bool :=
  err.delivery.any (fun d => !d.1 && d.2 = 401)

structure Config where
  maxAttempts : Int := 0
  /-- A failure publisher is attached. -/
  dlq : Bool := false
  tenant : String := ""

def defaultMaxAttempts : Nat := 8

/-- `attemptCap`. -/
def Config.attemptCap (c : Config) : Nat :=
  if c.maxAttempts ≤ 0 then defaultMaxAttempts else c.maxAttempts.toNat

/-- The tenant gate of `consume`. -/
def Config.foreign (c : Config) (event : Event) : Bool :=
  c.tenant ≠ "" ∧ event.tenantID ≠ "" ∧ event.tenantID ≠ c.tenant

/-! ## Section 2: The machine -/

/-- The call the consumer makes next. -/
inductive Phase (V : Type) where
  | fetching
  | ingesting (m : Message V) (event : Event)
  /-- `select` between cancellation and the end of the backoff. -/
  | waiting (m : Message V) (event : Event)
  | publishing (m : Message V) (failure : Failure)
  | committing (m : Message V)
  | stopped (err : String)

/-- `publishFailure`: without a publisher there is nothing to call. -/
def publishFailure (c : Config) (m : Message V) (failure : Failure) : Phase V :=
  if c.dlq then .publishing m failure else .committing m

/-- `deadLetter`. -/
def deadLetter (c : Config) (m : Message V) (event : Event) (code cause : String) : Phase V :=
  let failure : Failure := ⟨event.eventID, code, cause, event.tenantID⟩
  if failure.eventID = "" then .committing m else publishFailure c m failure

/-- `deadLetterUnparsable`. -/
def deadLetterUnparsable (input : Input V) (c : Config) (m : Message V) (cause : String) :
    Phase V :=
  let id := input.eventIDFromValue m.value
  let failure : Failure := ⟨if id ≠ "" then id else m.key, "unparsable_message", cause, ""⟩
  if failure.eventID = "" then .committing m else publishFailure c m failure

/-- `consume` up to its first call. -/
def consume (c : Config) (m : Message V) (event : Event) : Phase V :=
  if c.foreign event then .committing m else .ingesting m event

/-- `Run` after a fetch. -/
def accept (input : Input V) (c : Config) (m : Message V) : Phase V :=
  match input.read m with
  | .unparsable cause => deadLetterUnparsable input c m cause
  | .invalid event cause => deadLetter c m event errorCodePermanentError cause
  | .event event => consume c m event

/-- `consume` after a failed ingest, with the attempts counted so far
    including this one, if it counts. -/
def afterFailure (c : Config) (m : Message V) (event : Event) (err : IngestError)
    (attempts : Nat) : Phase V :=
  if err.permanent then deadLetter c m event errorCodePermanentError err.text
  else if attempts ≥ c.attemptCap then
    if err.unauthorized then deadLetter c m event errorCodeUnauthorized err.text
    else deadLetter c m event "attempts_exhausted" err.text
  else .waiting m event

/-- A call that was made, with what came of it. -/
inductive Call (V : Type) where
  | fetch (m : Message V)
  /-- `none` is success. -/
  | ingest (m : Message V) (event : Event) (result : Option IngestError)
  | publish (m : Message V) (failure : Failure) (ok : Bool)
  | commit (m : Message V) (ok : Bool)

/-- The answer to the next call. -/
inductive Answer (V : Type) where
  | fetched (m : Message V)
  | ingested
  | ingestFailed (err : IngestError)
  | published
  | committed
  | waited
  /-- Any other error of the call, cancellation included. -/
  | failed (err : String)

structure State (V : Type) where
  phase : Phase V := .fetching
  /-- Transient failures per partition and offset. -/
  attempts : Nat × Nat → Nat := fun _ => 0
  trace : List (Call V) := []

/-- The key of the attempt counter. -/
def messageKey (m : Message V) : Nat × Nat := (m.id.partition, m.id.offset)

/-- Leave `consume`: its deferred delete drops the counter of the message. -/
def State.release (s : State V) (m : Message V) : Nat × Nat → Nat :=
  Function.update s.attempts (messageKey m) 0

def step (input : Input V) (c : Config) (s : State V) (answer : Answer V) : Option (State V) :=
  match s.phase, answer with
  | .fetching, .fetched m =>
    some { s with phase := accept input c m, trace := s.trace ++ [.fetch m] }
  | .fetching, .failed err => some { s with phase := .stopped err }
  | .ingesting m event, .ingested =>
    some { s with phase := .committing m, trace := s.trace ++ [.ingest m event none] }
  | .ingesting m event, .ingestFailed err =>
    -- permanent errors return before the counter is touched
    let attempts := if err.permanent then s.attempts
      else Function.update s.attempts (messageKey m) (s.attempts (messageKey m) + 1)
    some { phase := afterFailure c m event err (attempts (messageKey m))
           attempts := attempts
           trace := s.trace ++ [.ingest m event (some err)] }
  | .waiting m event, .waited => some { s with phase := .ingesting m event }
  | .waiting m _, .failed err =>
    some { s with phase := .stopped err, attempts := s.release m }
  | .publishing m failure, .published =>
    some { s with phase := .committing m, trace := s.trace ++ [.publish m failure true] }
  | .publishing m failure, .failed err =>
    some { phase := .stopped err, attempts := s.release m
           trace := s.trace ++ [.publish m failure false] }
  | .committing m, .committed =>
    some { phase := .fetching, attempts := s.release m, trace := s.trace ++ [.commit m true] }
  | .committing m, .failed err =>
    some { phase := .stopped err, attempts := s.release m, trace := s.trace ++ [.commit m false] }
  | _, _ => none

/-- `Run` on a new consumer. -/
def consumer (input : Input V) (c : Config) : System (State V) (Answer V) where
  init := fun s => s = {}
  step := step input c

/-! ## Section 3: What a trace has to look like -/

/-- One call further: a fetch opens a message, any other call belongs to the
    open one. -/
def extend (open_ : Option (Message V × List (Call V))) (call : Call V) :
    Option (Message V × List (Call V)) :=
  match call with
  | .fetch m => some (m, [])
  | other => open_.map (fun p => (p.1, p.2 ++ [other]))

/-- The message fetched last, with the calls made since. -/
def current (trace : List (Call V)) : Option (Message V × List (Call V)) :=
  trace.foldl extend none

/-- The ingest calls among some calls. -/
def ingests (calls : List (Call V)) : Nat :=
  calls.countP (fun call => match call with | .ingest .. => true | _ => false)

/-- The attempts to ingest a message have ended without success: there was
    nothing to ingest, or the last call failed permanently or at the cap. -/
def AttemptsEnded (input : Input V) (c : Config) (m : Message V) (calls : List (Call V)) : Prop :=
  match input.read m with
  | .unparsable _ => True
  | .invalid _ _ => True
  | .event event => ∃ earlier err, calls = earlier ++ [.ingest m event (some err)] ∧
      (err.permanent = true ∨ c.attemptCap ≤ ingests calls)

/-- The states in which a message may be committed, after the calls made for
    it. -/
inductive Settled (input : Input V) (c : Config) (m : Message V) (calls : List (Call V)) : Prop where
  /-- Its event was ingested. -/
  | ingested (event : Event) (hread : input.read m = .event event)
      (hcall : Call.ingest m event none ∈ calls)
  /-- It belongs to a tenant this consumer does not serve. -/
  | foreign (event : Event) (hread : input.read m = .event event) (hforeign : c.foreign event = true)
  /-- Its attempts ended, and a failure record about it was published. -/
  | published (failure : Failure) (earlier : List (Call V)) (hended : AttemptsEnded input c m earlier)
      (hid : failure.eventID = input.deadLetterID m) (hdlq : c.dlq = true)
      (hcall : calls = earlier ++ [.publish m failure true])
  /-- Its attempts ended, and no publisher is attached. -/
  | unpublished (hended : AttemptsEnded input c m calls) (hdlq : c.dlq = false)
  /-- Its attempts ended, and it has no event id to publish. -/
  | anonymous (hended : AttemptsEnded input c m calls) (hid : input.deadLetterID m = "")

/-- The call is a publication that failed. -/
def Call.isFailedPublish : Call V → Bool
  | .publish _ _ false => true
  | _ => false

def Call.isCommit : Call V → Bool
  | .commit .. => true
  | _ => false

/-- The message in hand, the calls made for it so far, none of them a
    commit. -/
def Holds (trace : List (Call V)) (m : Message V) (calls : List (Call V)) : Prop :=
  current trace = some (m, calls) ∧ ∀ call ∈ calls, call.isCommit = false

/-- What may be called after a trace: a fetch when the message before it is
    committed, and otherwise a call for the message in hand, as long as that
    has not been committed. -/
def Allowed (input : Input V) (c : Config) (trace : List (Call V)) : Call V → Prop
  | .fetch _ => ∀ m calls, current trace = some (m, calls) → Call.commit m true ∈ calls
  | .ingest m event _ => ∃ calls, Holds trace m calls ∧ input.read m = .event event ∧
      ingests calls < c.attemptCap
  | .publish m failure _ => ∃ calls, Holds trace m calls ∧
      failure.eventID = input.deadLetterID m ∧ c.dlq = true
  | .commit m _ => ∃ calls, Holds trace m calls ∧ Settled input c m calls

/-- Every call was allowed after the calls before it, and none followed a
    failed publication. -/
structure Proper (input : Input V) (c : Config) (trace : List (Call V)) : Prop where
  allowed : ∀ before call after, trace = before ++ call :: after → Allowed input c before call
  stops : ∀ before call after, trace = before ++ call :: after → call.isFailedPublish = true →
    after = []

theorem current_snoc (trace : List (Call V)) (call : Call V) :
    current (trace ++ [call]) = extend (current trace) call := by
  rw [current, current, List.foldl_append]
  rfl

theorem Holds.snoc {trace calls : List (Call V)} {m : Message V} (h : Holds trace m calls)
    {call : Call V} (hopen : call.isCommit = false)
    (hextend : extend (some (m, calls)) call = some (m, calls ++ [call])) :
    Holds (trace ++ [call]) m (calls ++ [call]) := by
  refine ⟨by rw [current_snoc, h.1, hextend], ?_⟩
  intro other hother
  rcases List.mem_append.1 hother with hother | hother
  · exact h.2 other hother
  · rw [List.mem_singleton] at hother
    rw [hother]
    exact hopen

theorem ingests_snoc (calls : List (Call V)) (call : Call V) :
    ingests (calls ++ [call]) =
      ingests calls + (match call with | .ingest .. => 1 | _ => 0) := by
  rw [ingests, ingests, List.countP_append]
  cases call <;> rfl

variable {input : Input V} {c : Config} {s s' : State V}

theorem Proper.nil : Proper input c [] := by
  constructor
  · intro before call after h
    simp at h
  · intro before call after h
    simp at h

theorem snoc_split {α : Type} {items before after : List α} {last x : α}
    (h : items ++ [last] = before ++ x :: after) :
    (after = [] ∧ before = items ∧ x = last) ∨
      ∃ rest, after = rest ++ [last] ∧ items = before ++ x :: rest := by
  rcases List.eq_nil_or_concat' after with rfl | ⟨rest, y, rfl⟩
  · obtain ⟨hitems, hlast⟩ := List.append_inj' h rfl
    exact .inl ⟨rfl, hitems.symm, (List.cons.inj hlast).1.symm⟩
  · have hcons : before ++ x :: (rest ++ [y]) = (before ++ x :: rest) ++ [y] := by simp
    rw [hcons] at h
    obtain ⟨hitems, hlast⟩ := List.append_inj' h rfl
    rw [(List.cons.inj hlast).1]
    exact .inr ⟨rest, rfl, hitems⟩

theorem Proper.snoc {trace : List (Call V)} {call : Call V} (h : Proper input c trace)
    (hopen : ∀ other ∈ trace, other.isFailedPublish = false) (hcall : Allowed input c trace call) :
    Proper input c (trace ++ [call]) := by
  constructor
  · intro before other after heq
    rcases snoc_split heq with ⟨-, rfl, rfl⟩ | ⟨rest, -, hold⟩
    · exact hcall
    · exact h.allowed before other rest hold
  · intro before other after heq hfailed
    rcases snoc_split heq with ⟨hlast, -, -⟩ | ⟨rest, -, hold⟩
    · exact hlast
    · have hmem : other ∈ trace := by
        rw [hold]
        simp
      rw [hopen other hmem] at hfailed
      cases hfailed

/-! ## Section 4: The invariant -/

/-- The failed attempts that a message in `consume` has behind it. -/
structure Attempting (input : Input V) (c : Config) (s : State V) (m : Message V) (event : Event)
    (calls : List (Call V)) : Prop where
  held : Holds s.trace m calls
  reading : input.read m = .event event
  counted : ingests calls = s.attempts (messageKey m)
  capped : ingests calls < c.attemptCap

/-- What the consumer knows before its next call. -/
def Knows (input : Input V) (c : Config) (s : State V) : Phase V → Prop
  | .fetching => ∀ m calls, current s.trace = some (m, calls) → Call.commit m true ∈ calls
  | .ingesting m event => ∃ calls, Attempting input c s m event calls
  | .waiting m event => ∃ calls, Attempting input c s m event calls
  | .publishing m failure => ∃ calls, Holds s.trace m calls ∧
      failure.eventID = input.deadLetterID m ∧ c.dlq = true ∧ AttemptsEnded input c m calls
  | .committing m => ∃ calls, Holds s.trace m calls ∧ Settled input c m calls
  | .stopped _ => True

/-- The message that is in hand. -/
def Phase.message? : Phase V → Option (Message V)
  | .fetching => none
  | .ingesting m _ => some m
  | .waiting m _ => some m
  | .publishing m _ => some m
  | .committing m => some m
  | .stopped _ => none

structure Inv (input : Input V) (c : Config) (s : State V) : Prop where
  proper : Proper input c s.trace
  /-- A failed publication has stopped the run. -/
  publishes : (∀ err, s.phase ≠ .stopped err) → ∀ call ∈ s.trace, call.isFailedPublish = false
  knows : Knows input c s s.phase
  /-- Only the message in hand has a counter. -/
  counters : ∀ key, (∀ m, s.phase.message? = some m → messageKey m ≠ key) → s.attempts key = 0

theorem Config.attemptCap_pos (c : Config) : 0 < c.attemptCap := by
  unfold Config.attemptCap
  split
  · decide
  · omega

section Phases

variable {m : Message V} {event : Event} {calls : List (Call V)}

theorem knows_publishFailure (hheld : Holds s.trace m calls)
    (hended : AttemptsEnded input c m calls) {failure : Failure}
    (hid : failure.eventID = input.deadLetterID m) :
    Knows input c s (publishFailure c m failure) := by
  unfold publishFailure
  by_cases hdlq : c.dlq = true
  · rw [if_pos hdlq]
    exact ⟨calls, hheld, hid, hdlq, hended⟩
  · rw [if_neg hdlq]
    exact ⟨calls, hheld, .unpublished hended (by simpa using hdlq)⟩

theorem knows_deadLetter (hheld : Holds s.trace m calls)
    (hended : AttemptsEnded input c m calls) (hid : event.eventID = input.deadLetterID m)
    (code cause : String) : Knows input c s (deadLetter c m event code cause) := by
  unfold deadLetter
  dsimp only
  split
  · next hempty => exact ⟨calls, hheld, .anonymous hended (hid ▸ hempty)⟩
  · exact knows_publishFailure hheld hended hid

theorem knows_deadLetterUnparsable (hheld : Holds s.trace m calls) {cause : String}
    (hread : input.read m = .unparsable cause) :
    Knows input c s (deadLetterUnparsable input c m cause) := by
  have hended : AttemptsEnded input c m calls := by
    unfold AttemptsEnded
    rw [hread]
    trivial
  have hid : input.deadLetterID m =
      if input.eventIDFromValue m.value ≠ "" then input.eventIDFromValue m.value else m.key := by
    unfold Input.deadLetterID
    rw [hread]
  unfold deadLetterUnparsable
  dsimp only
  rw [← hid]
  by_cases hempty : input.deadLetterID m = ""
  · rw [if_pos hempty]
    exact ⟨calls, hheld, .anonymous hended hempty⟩
  · rw [if_neg hempty]
    exact knows_publishFailure hheld hended rfl

theorem knows_accept (hheld : Holds s.trace m [])
    (hcounter : s.attempts (messageKey m) = 0) : Knows input c s (accept input c m) := by
  unfold accept
  cases hread : input.read m with
  | unparsable cause => exact knows_deadLetterUnparsable hheld hread
  | invalid event cause =>
    have hended : AttemptsEnded input c m [] := by
      unfold AttemptsEnded
      rw [hread]
      trivial
    have hid : event.eventID = input.deadLetterID m := by
      unfold Input.deadLetterID
      rw [hread]
    exact knows_deadLetter hheld hended hid _ _
  | event event =>
    dsimp only
    unfold consume
    split
    · next hforeign => exact ⟨[], hheld, .foreign event hread hforeign⟩
    · exact ⟨[], hheld, hread, hcounter.symm, c.attemptCap_pos⟩

theorem knows_afterFailure {err : IngestError} {attempts : Nat}
    (hheld : Holds s.trace m (calls ++ [.ingest m event (some err)]))
    (hread : input.read m = .event event) (hattempts : s.attempts (messageKey m) = attempts)
    (hcounted : err.permanent = false → ingests calls + 1 = attempts) :
    Knows input c s (afterFailure c m event err attempts) := by
  have hcalls : ingests (calls ++ [.ingest m event (some err)]) = ingests calls + 1 :=
    ingests_snoc _ _
  have hid : event.eventID = input.deadLetterID m := by
    unfold Input.deadLetterID
    rw [hread]
  have hend : err.permanent = true ∨ c.attemptCap ≤ ingests calls + 1 →
      AttemptsEnded input c m (calls ++ [.ingest m event (some err)]) := by
    intro hlast
    unfold AttemptsEnded
    rw [hread]
    refine ⟨calls, err, rfl, ?_⟩
    rw [hcalls]
    exact hlast
  unfold afterFailure
  by_cases hpermanent : err.permanent = true
  · rw [if_pos hpermanent]
    exact knows_deadLetter hheld (hend (.inl hpermanent)) hid _ _
  · rw [if_neg hpermanent]
    have hcounted := hcounted (by simpa using hpermanent)
    split
    · next hcap =>
      have hended := hend (.inr (by omega))
      split
      · exact knows_deadLetter hheld hended hid _ _
      · exact knows_deadLetter hheld hended hid _ _
    · next hcap =>
      refine ⟨_, hheld, hread, ?_, ?_⟩
      · omega
      · omega

theorem deadLetter_message (code cause : String) :
    (deadLetter c m event code cause).message? = some m := by
  unfold deadLetter publishFailure
  dsimp only
  split_ifs <;> rfl

theorem afterFailure_message {err : IngestError} {attempts : Nat} :
    (afterFailure c m event err attempts).message? = some m := by
  unfold afterFailure
  split_ifs
  · exact deadLetter_message _ _
  · exact deadLetter_message _ _
  · exact deadLetter_message _ _
  · rfl

end Phases

theorem release_counters {m : Message V} (h : Inv input c s) (hphase : s.phase.message? = some m)
    (key : Nat × Nat) : s.release m key = 0 := by
  unfold State.release
  by_cases hkey : key = messageKey m
  · rw [hkey, Function.update_self]
  · rw [Function.update_of_ne hkey]
    apply h.counters key
    intro m' hm'
    rw [hphase] at hm'
    cases hm'
    exact fun heq => hkey heq.symm

/-- One call more in a run that has not stopped. -/
theorem Inv.proper_snoc (h : Inv input c s) (hrunning : ∀ err, s.phase ≠ .stopped err)
    {call : Call V} (hcall : Allowed input c s.trace call) :
    Proper input c (s.trace ++ [call]) :=
  h.proper.snoc (h.publishes hrunning) hcall

theorem Inv.publishes_snoc (h : Inv input c s) (hrunning : ∀ err, s.phase ≠ .stopped err)
    {call : Call V} (hcall : call.isFailedPublish = false) :
    ∀ other ∈ s.trace ++ [call], other.isFailedPublish = false := by
  intro other hother
  rcases List.mem_append.1 hother with hother | hother
  · exact h.publishes hrunning other hother
  · rw [List.mem_singleton] at hother
    rw [hother]
    exact hcall

theorem Inv.fetched (h : Inv input c s) (hphase : s.phase = .fetching) (m : Message V) :
    Inv input c { s with phase := accept input c m, trace := s.trace ++ [.fetch m] } := by
  have hrunning : ∀ err, s.phase ≠ .stopped err := by simp [hphase]
  have hknows := h.knows
  rw [hphase] at hknows
  have hcounters : ∀ key, s.attempts key = 0 := by
    intro key
    apply h.counters key
    intro m' hm'
    rw [hphase] at hm'
    cases hm'
  refine ⟨h.proper_snoc hrunning hknows, fun _ => h.publishes_snoc hrunning rfl, ?_, ?_⟩
  · exact knows_accept ⟨current_snoc s.trace (.fetch m), by simp⟩ (hcounters _)
  · intro key _
    exact hcounters key

theorem Inv.ingested (h : Inv input c s) {m : Message V} {event : Event}
    (hphase : s.phase = .ingesting m event) :
    Inv input c { s with phase := .committing m, trace := s.trace ++ [.ingest m event none] } := by
  have hrunning : ∀ err, s.phase ≠ .stopped err := by simp [hphase]
  have hknows := h.knows
  rw [hphase] at hknows
  obtain ⟨calls, hheld, hread, hcounted, hcapped⟩ := hknows
  have hheld' : Holds (s.trace ++ [.ingest m event none]) m (calls ++ [.ingest m event none]) :=
    hheld.snoc rfl rfl
  refine ⟨h.proper_snoc hrunning ⟨calls, hheld, hread, hcapped⟩,
    fun _ => h.publishes_snoc hrunning rfl, ?_, ?_⟩
  · exact ⟨_, hheld', .ingested event hread (by simp)⟩
  · intro key hkey
    apply h.counters key
    rw [hphase]
    exact hkey

theorem Inv.ingestFailed (h : Inv input c s) {m : Message V} {event : Event}
    (hphase : s.phase = .ingesting m event) (err : IngestError) {attempts : Nat × Nat → Nat}
    (hattempts : attempts = if err.permanent then s.attempts
      else Function.update s.attempts (messageKey m) (s.attempts (messageKey m) + 1)) :
    Inv input c
      { phase := afterFailure c m event err (attempts (messageKey m)), attempts := attempts
        trace := s.trace ++ [.ingest m event (some err)] } := by
  have hrunning : ∀ err, s.phase ≠ .stopped err := by simp [hphase]
  have hknows := h.knows
  rw [hphase] at hknows
  obtain ⟨calls, hheld, hread, hcounted, hcapped⟩ := hknows
  have hheld' : Holds (s.trace ++ [.ingest m event (some err)]) m (calls ++ [.ingest m event (some err)]) :=
    hheld.snoc rfl rfl
  have hcount : err.permanent = false → ingests calls + 1 = attempts (messageKey m) := by
    intro htransient
    rw [hattempts, if_neg (by simp [htransient]), Function.update_self, hcounted]
  refine ⟨h.proper_snoc hrunning ⟨calls, hheld, hread, hcapped⟩,
    fun _ => h.publishes_snoc hrunning rfl, knows_afterFailure hheld' hread rfl hcount, ?_⟩
  · intro key hkey
    have hother := hkey m afterFailure_message
    have hold : s.attempts key = 0 := by
      apply h.counters key
      rw [hphase]
      intro m' hm'
      cases hm'
      exact hother
    show attempts key = 0
    rw [hattempts]
    split
    · exact hold
    · rw [Function.update_of_ne (fun heq => hother heq.symm), hold]

theorem Inv.published (h : Inv input c s) {m : Message V} {failure : Failure}
    (hphase : s.phase = .publishing m failure) :
    Inv input c
      { s with phase := .committing m, trace := s.trace ++ [.publish m failure true] } := by
  have hrunning : ∀ err, s.phase ≠ .stopped err := by simp [hphase]
  have hknows := h.knows
  rw [hphase] at hknows
  obtain ⟨calls, hheld, hid, hdlq, hended⟩ := hknows
  have hheld' : Holds (s.trace ++ [.publish m failure true]) m (calls ++ [.publish m failure true]) :=
    hheld.snoc rfl rfl
  refine ⟨h.proper_snoc hrunning ⟨calls, hheld, hid, hdlq⟩,
    fun _ => h.publishes_snoc hrunning rfl, ?_, ?_⟩
  · exact ⟨_, hheld', .published failure calls hended hid hdlq rfl⟩
  · intro key hkey
    apply h.counters key
    rw [hphase]
    exact hkey

theorem Inv.publishFailed (h : Inv input c s) {m : Message V} {failure : Failure}
    (hphase : s.phase = .publishing m failure) (err : String) :
    Inv input c { phase := .stopped err, attempts := s.release m
                  trace := s.trace ++ [.publish m failure false] } := by
  have hrunning : ∀ err, s.phase ≠ .stopped err := by simp [hphase]
  have hknows := h.knows
  rw [hphase] at hknows
  obtain ⟨calls, hheld, hid, hdlq, -⟩ := hknows
  refine ⟨h.proper_snoc hrunning ⟨calls, hheld, hid, hdlq⟩, fun hnot => absurd rfl (hnot err),
    trivial, ?_⟩
  intro key _
  exact release_counters h (by rw [hphase]; rfl) key

theorem Inv.committed (h : Inv input c s) {m : Message V} (hphase : s.phase = .committing m)
    (ok : Bool) {phase : Phase V}
    (hnext : (ok = true ∧ phase = .fetching) ∨ ∃ err, phase = .stopped err) :
    Inv input c { phase := phase, attempts := s.release m
                  trace := s.trace ++ [.commit m ok] } := by
  have hrunning : ∀ err, s.phase ≠ .stopped err := by simp [hphase]
  have hknows := h.knows
  rw [hphase] at hknows
  obtain ⟨calls, hheld, hsettled⟩ := hknows
  refine ⟨h.proper_snoc hrunning ⟨calls, hheld, hsettled⟩,
    fun _ => h.publishes_snoc hrunning rfl, ?_, ?_⟩
  · rcases hnext with ⟨rfl, rfl⟩ | ⟨err, rfl⟩
    · intro m' calls' hheld'
      have hnow : current (s.trace ++ [.commit m true]) =
          some (m, calls ++ [.commit m true]) := by
        rw [current_snoc, hheld.1]
        rfl
      have heq := Option.some.inj (hnow.symm.trans hheld')
      obtain ⟨rfl, rfl⟩ := Prod.mk.inj heq
      simp
    · trivial
  · intro key _
    exact release_counters h (by rw [hphase]; rfl) key

theorem Inv.waited (h : Inv input c s) {m : Message V} {event : Event}
    (hphase : s.phase = .waiting m event) : Inv input c { s with phase := .ingesting m event } := by
  have hrunning : ∀ err, s.phase ≠ .stopped err := by simp [hphase]
  have hknows := h.knows
  rw [hphase] at hknows
  obtain ⟨calls, hattempting⟩ := hknows
  refine ⟨h.proper, fun _ => h.publishes hrunning, ⟨calls, ?_⟩, ?_⟩
  · exact ⟨hattempting.held, hattempting.reading, hattempting.counted, hattempting.capped⟩
  · intro key hkey
    apply h.counters key
    rw [hphase]
    exact hkey

theorem Inv.stopped (h : Inv input c s) (err : String) {attempts : Nat × Nat → Nat}
    (hattempts : ∀ key, attempts key = 0) :
    Inv input c { s with phase := .stopped err, attempts := attempts } :=
  ⟨h.proper, fun hnot => absurd rfl (hnot err), trivial, fun key _ => hattempts key⟩

theorem Inv.step {answer : Answer V} (h : Inv input c s)
    (hs : Consumer.step input c s answer = some s') : Inv input c s' := by
  unfold Consumer.step at hs
  split at hs
  · next hphase => cases hs; exact h.fetched hphase _
  · next hphase =>
    cases hs
    apply h.stopped
    intro key
    apply h.counters key
    intro m hm
    rw [hphase] at hm
    cases hm
  · next hphase => cases hs; exact h.ingested hphase
  · next hphase => cases hs; exact h.ingestFailed hphase _ rfl
  · next hphase => cases hs; exact h.waited hphase
  · next m event err hphase =>
    cases hs
    exact h.stopped err (release_counters h (by rw [hphase]; rfl))
  · next hphase => cases hs; exact h.published hphase
  · next hphase => cases hs; exact h.publishFailed hphase _
  · next hphase => cases hs; exact h.committed hphase true (.inl ⟨rfl, rfl⟩)
  · next hphase => cases hs; exact h.committed hphase false (.inr ⟨_, rfl⟩)
  · cases hs

theorem inv_reachable (h : (consumer input c).Reachable s) : Inv input c s := by
  refine System.Reach.invariant ?_ ?_ h
  · intro s0 hinit
    cases hinit
    refine ⟨.nil, ?_, ?_, fun _ _ => rfl⟩
    · intro _ call hcall
      cases hcall
    · intro m calls hheld
      cases hheld
  · intro s1 a s2 _ hinv _ hstep
    exact hinv.step hstep

/-! ## Section 5: Committed offsets -/

/-- The messages fetched, in their order. -/
def fetched (trace : List (Call V)) : List (Message V) :=
  trace.filterMap (fun call => match call with | .fetch m => some m | _ => none)

/-- The messages of a partition that were committed, in their order. -/
def commitsOn (partition : Nat) (trace : List (Call V)) : List (Message V) :=
  trace.filterMap (fun call => match call with
    | .commit m _ => if m.id.partition = partition then some m else none
    | _ => none)

/-- The offset of the group on a partition: just after the message committed
    last. A commit whose answer was an error may have moved it as well. -/
def committedOffset (partition : Nat) (trace : List (Call V)) : Option Nat :=
  (commitsOn partition trace).getLast?.map (fun m => m.id.offset + 1)

/-- At some point of the run the message was in hand and settled. -/
def SettledIn (input : Input V) (c : Config) (trace : List (Call V)) (m : Message V) : Prop :=
  ∃ before after calls, trace = before ++ after ∧ current before = some (m, calls) ∧
    Settled input c m calls

/-- The reader hands out the records of each partition one after another. -/
structure FetchesInOrder (log : Nat → List (Message V)) (trace : List (Call V)) : Prop where
  offsets : ∀ p, (log p).Pairwise (fun a b => a.id.offset < b.id.offset)
  fetches : ∀ p, (fetched trace).filter (fun m => m.id.partition = p) <+: log p

theorem extend_some {held : Option (Message V × List (Call V))} {call : Call V} {m : Message V}
    {calls : List (Call V)} (h : extend held call = some (m, calls)) :
    (call = .fetch m ∧ calls = []) ∨
      ∃ earlier, held = some (m, earlier) ∧ calls = earlier ++ [call] := by
  have hother : held.map (fun p => (p.1, p.2 ++ [call])) = some (m, calls) →
      ∃ earlier, held = some (m, earlier) ∧ calls = earlier ++ [call] := by
    intro hmap
    obtain ⟨⟨m', earlier⟩, hheld, heq⟩ := Option.map_eq_some_iff.1 hmap
    obtain ⟨rfl, rfl⟩ := Prod.mk.inj heq
    exact ⟨earlier, hheld, rfl⟩
  cases call with
  | fetch m' =>
    cases h
    exact .inl ⟨rfl, rfl⟩
  | ingest m' event result => exact .inr (hother h)
  | publish m' failure ok => exact .inr (hother h)
  | commit m' ok => exact .inr (hother h)

theorem fetched_append (a b : List (Call V)) : fetched (a ++ b) = fetched a ++ fetched b :=
  List.filterMap_append

theorem current_some {trace calls : List (Call V)} {m : Message V}
    (h : current trace = some (m, calls)) : m ∈ fetched trace ∧ ∀ call ∈ calls, call ∈ trace := by
  induction trace using List.reverseRecOn generalizing calls with
  | nil => cases h
  | append_singleton rest last ih =>
    rw [current_snoc] at h
    rw [fetched_append]
    rcases extend_some h with ⟨rfl, rfl⟩ | ⟨earlier, hheld, rfl⟩
    · exact ⟨List.mem_append_right _ List.mem_cons_self, fun call hcall => by cases hcall⟩
    · obtain ⟨hm, hcalls⟩ := ih hheld
      refine ⟨List.mem_append_left _ hm, ?_⟩
      intro call hcall
      rcases List.mem_append.1 hcall with hcall | hcall
      · exact List.mem_append_left _ (hcalls call hcall)
      · exact List.mem_append_right _ hcall

theorem SettledIn.append {trace : List (Call V)} {m : Message V} (h : SettledIn input c trace m)
    (more : List (Call V)) : SettledIn input c (trace ++ more) m := by
  obtain ⟨before, after, calls, rfl, hheld, hsettled⟩ := h
  exact ⟨before, after ++ more, calls, by simp, hheld, hsettled⟩

theorem Proper.settled_of_commit {trace : List (Call V)} (h : Proper input c trace)
    {m : Message V} {ok : Bool} (hcommit : Call.commit m ok ∈ trace) :
    SettledIn input c trace m := by
  obtain ⟨before, after, heq⟩ := List.append_of_mem hcommit
  obtain ⟨calls, hheld, hsettled⟩ := h.allowed before _ after heq
  exact ⟨before, _, calls, heq, hheld.1, hsettled⟩

theorem Proper.left {before after : List (Call V)} (h : Proper input c (before ++ after)) :
    Proper input c before := by
  constructor
  · rintro b call a rfl
    exact h.allowed b call (a ++ after) (by simp)
  · rintro b call a rfl hfailed
    have hnil := h.stops b call (a ++ after) (by simp) hfailed
    exact (List.append_eq_nil_iff.1 hnil).1

theorem Proper.settled_or_current {trace : List (Call V)} (h : Proper input c trace)
    {m : Message V} (hm : m ∈ fetched trace) :
    SettledIn input c trace m ∨ ∃ calls, current trace = some (m, calls) := by
  induction trace using List.reverseRecOn with
  | nil => cases hm
  | append_singleton rest last ih =>
    have hlast := h.allowed rest last [] rfl
    have hrest : Proper input c rest := h.left
    rw [fetched_append, List.mem_append] at hm
    rcases hm with hm | hm
    · rcases ih hrest hm with hsettled | ⟨calls, hheld⟩
      · exact .inl (hsettled.append _)
      · -- the next fetch waits for the commit, any other call keeps the message
        cases last with
        | fetch m' =>
          have hcommit := (current_some hheld).2 _ (hlast m calls hheld)
          exact .inl ((hrest.settled_of_commit hcommit).append _)
        | ingest m' event result => exact .inr ⟨_, by rw [current_snoc, hheld]; rfl⟩
        | publish m' failure ok => exact .inr ⟨_, by rw [current_snoc, hheld]; rfl⟩
        | commit m' ok => exact .inr ⟨_, by rw [current_snoc, hheld]; rfl⟩
    · right
      cases last with
      | fetch m' =>
        have heq : m = m' := by simpa [fetched] using hm
        subst heq
        exact ⟨[], current_snoc rest _⟩
      | ingest m' event result => cases hm
      | publish m' failure ok => cases hm
      | commit m' ok => cases hm

theorem Proper.settled_below {trace : List (Call V)} (h : Proper input c trace)
    {log : Nat → List (Message V)} (horder : FetchesInOrder log trace) {p offset : Nat}
    (hcommitted : committedOffset p trace = some offset) {m : Message V} (hm : m ∈ log p)
    (hbelow : m.id.offset < offset) : SettledIn input c trace m := by
  obtain ⟨last, hlast, rfl⟩ := Option.map_eq_some_iff.1 hcommitted
  obtain ⟨call, hcall, hmatch⟩ := List.mem_filterMap.1 (List.mem_of_getLast? hlast)
  obtain ⟨ok, rfl, hpartition⟩ : ∃ ok, call = .commit last ok ∧ last.id.partition = p := by
    cases call with
    | commit m' ok =>
      simp only [Option.ite_none_right_eq_some, Option.some.injEq] at hmatch
      obtain ⟨hpartition, rfl⟩ := hmatch
      exact ⟨ok, rfl, hpartition⟩
    | fetch m' => cases hmatch
    | ingest m' event result => cases hmatch
    | publish m' failure ok => cases hmatch
  obtain ⟨before, after, heq⟩ := List.append_of_mem hcall
  obtain ⟨calls, hheld, -⟩ := h.allowed before _ after heq
  -- what was fetched of the partition before the commit opens its log
  have hopening : (fetched before).filter (fun m => m.id.partition = p) <+: log p := by
    refine List.IsPrefix.trans ?_ (horder.fetches p)
    rw [heq, fetched_append, List.filter_append]
    exact List.prefix_append _ _
  obtain ⟨rest, hrest⟩ := hopening
  have hfetched : last ∈ (fetched before).filter (fun m => m.id.partition = p) :=
    List.mem_filter.2 ⟨(current_some hheld.1).1, by simpa using hpartition⟩
  have hsorted := horder.offsets p
  rw [← hrest, List.pairwise_append] at hsorted
  rw [← hrest, List.mem_append] at hm
  rcases hm with hm | hm
  · rw [heq] at h ⊢
    rcases h.left.settled_or_current (List.mem_filter.1 hm).1 with hsettled | ⟨calls', hcurrent⟩
    · exact hsettled.append _
    · have hsame := Option.some.inj (hheld.1.symm.trans hcurrent)
      obtain ⟨rfl, -⟩ := Prod.mk.inj hsame
      exact h.settled_of_commit (List.mem_append_right _ List.mem_cons_self)
  · have hlater := hsorted.2.2 last hfetched m hm
    omega

/-- **Ingestion is at-least-once.** In every run, whatever the calls answer,
    each call of the consumer was allowed after the calls before it: it
    concerns the message fetched last, a commit comes only after that message
    is settled, ingest calls stay below the cap, and nothing follows a failed
    publication. Hence the committed offset of a partition never passes a
    message that is not settled. -/
theorem consumer_at_least_once (input : Input V) (c : Config) {s : State V}
    (h : (consumer input c).Reachable s) :
    Proper input c s.trace ∧
      ∀ log, FetchesInOrder log s.trace → ∀ p offset, committedOffset p s.trace = some offset →
        ∀ m ∈ log p, m.id.offset < offset → SettledIn input c s.trace m := by
  have hproper := (inv_reachable h).proper
  refine ⟨hproper, ?_⟩
  intro log horder p offset hcommitted m hm hbelow
  exact hproper.settled_below horder hcommitted hm hbelow

/-! ### A transient failure, then success -/

/-- A topic without a contract whose values are the event ids. -/
def plainInput : Input String where
  contract := false
  validateSingleJSONValue := fun _ => none
  validateEventMessage := fun _ value => ({ eventID := value }, none)
  decodeLegacyEvent := fun value => .ok { eventID := value }
  eventIDFromValue := fun value => value

def plainMessage (offset : Nat) (id : String) : Message String :=
  { id := { topic := "accepted", partition := 0, offset := offset }, key := id, value := id }

/-- The first message is ingested at its second attempt; the second one fails
    permanently, and its failure record cannot be published. -/
def twoMessages : List (Answer String) :=
  [.fetched (plainMessage 5 "e1"), .ingestFailed {}, .waited, .ingested, .committed,
   .fetched (plainMessage 6 "e2"), .ingestFailed { delivery := some (true, 422) },
   .failed "broker down"]

theorem twoMessages_at_least_once :
    ∃ s, (consumer plainInput { dlq := true }).Reachable s ∧
      committedOffset 0 s.trace = some 6 ∧
      SettledIn plainInput { dlq := true } s.trace (plainMessage 5 "e1") := by
  obtain ⟨s, hs⟩ : ∃ s, (consumer plainInput { dlq := true }).exec {} twoMessages = some s :=
    ⟨_, rfl⟩
  have hreach : (consumer plainInput { dlq := true }).Reachable s :=
    System.Reachable.exec (.init rfl) hs
  have htrace := congrArg (Option.map State.trace) hs
  have hcommitted : committedOffset 0 s.trace = some 6 := by
    rw [← Option.some.inj htrace]
    rfl
  have hfetched : fetched s.trace = [plainMessage 5 "e1", plainMessage 6 "e2"] := by
    rw [← Option.some.inj htrace]
    rfl
  have horder : FetchesInOrder
      (fun p => if p = 0 then [plainMessage 5 "e1", plainMessage 6 "e2"] else []) s.trace := by
    constructor
    · intro p
      by_cases hp : p = 0
      · simp [hp, plainMessage]
      · simp [hp]
    · intro p
      rw [hfetched]
      by_cases hp : p = 0
      · subst hp
        exact List.prefix_refl _
      · simp [plainMessage, hp, Ne.symm hp]
  exact ⟨s, hreach, hcommitted, (consumer_at_least_once plainInput { dlq := true } hreach).2
    _ horder 0 6 hcommitted (plainMessage 5 "e1") (by simp) (by decide)⟩

end AuditGovernance.Consumer
