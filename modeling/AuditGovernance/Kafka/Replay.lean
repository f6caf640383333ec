import AuditGovernance.Domain.JsonLines

/-! # Dead-letter replay

    One round of the replayer (`internal/kafka/replay.go`, `replay_scan.go`,
    `replay_tenant.go`, `replay_failure.go`): drain the dead-letter topic,
    recover the originals from the accepted topic, redeliver them, and commit
    the dead-letter offsets below the first record that is still pending.

    - Message values are an arbitrary type with the three decoders the code
      applies to them; `jsonCodec` is the one for JSON texts.
    - The mark file is a list of marks.
    - What the broker, the file system and the redelivery answer is an input of
      the round, call by call, and a call may also crash the process.
    - Log lines are left out.
-/

namespace AuditGovernance

namespace Replay

/-! ## Section 1: Messages -/

inductive FailureReason where
  | invalidJSON
  | missingField
  | invalidType
  | emptyEventID
  | trailingData
  | multipleValues
deriving DecidableEq, Repr

/-- What a dead-letter record says. -/
structure Failure where
  eventID : String
  errorCode : String
  errorMessage : String
  tenantID : String
deriving DecidableEq, Repr

def errorCodePermanentError : String := "permanent_error"

def errorCodeUnauthorized : String := "unauthorized"

/-- The identity fields of an accepted event. -/
structure CanonicalReplayEvent where
  eventID : String := ""
  tenantID : String := ""
deriving DecidableEq, Repr

/-- A physical record. -/
structure RecordID where
  topic : String
  partition : Nat
  offset : Nat
deriving DecidableEq, Repr

structure Message (V : Type) where
  id : RecordID
  key : String
  value : V

/-- How message values are read. -/
structure Codec (V : Type) where
  decodeStrictFailure : V → Except FailureReason Failure
  decodeCanonicalReplayEvent : V → Option CanonicalReplayEvent
  eventIDFromValue : V → String
  size : V → Nat
  /-- A valid failure names an event. -/
  eventID_nonempty : ∀ {v failure}, decodeStrictFailure v = .ok failure → failure.eventID ≠ ""

/-- The event id a message is about. -/
def Codec.payloadID {V : Type} (codec : Codec V) (v : V) : String :=
  match codec.decodeCanonicalReplayEvent v with
  | some event => event.eventID
  | none => codec.eventIDFromValue v

/-! ### JSON texts -/

/-- The first value of a text and what follows it. -/
def decodeFirst (text : String) : Option (Json × List Char) :=
  Json.parseValue (2 * text.toList.length) text.toList

/-- A member that must be a string. -/
def strictFailureString : Json → Option String
  | .str text => some text
  | _ => none

/-- `decodeStrictFailure` on the members of the object. -/
def failureOfMembers (members : List (String × Json)) : Except FailureReason Failure :=
  match members.lookup "event_id", members.lookup "error_code", members.lookup "error_message" with
  | some eventID, some errorCode, some errorMessage =>
    match strictFailureString eventID, strictFailureString errorCode,
        strictFailureString errorMessage with
    | some eventID, some errorCode, some errorMessage =>
      if eventID = "" then .error .emptyEventID
      else
        match members.lookup "tenant_id" with
        | none => .ok ⟨eventID, errorCode, errorMessage, ""⟩
        | some tenantID =>
          match strictFailureString tenantID with
          | none => .error .invalidType
          | some tenantID => .ok ⟨eventID, errorCode, errorMessage, tenantID⟩
    | _, _, _ => .error .invalidType
  | _, _, _ => .error .missingField

def decodeStrictFailure (text : String) : Except FailureReason Failure :=
  match decodeFirst text with
  | none => .error .invalidJSON
  | some (first, rest) =>
    if Json.skipSpace rest = [] then
      match first.normalize with
      | .obj members => failureOfMembers members
      | _ => .error .invalidType
    else
      match decodeFirst (String.ofList rest) with
      | none => .error .trailingData
      | some _ => .error .multipleValues

theorem failureOfMembers_nonempty {members : List (String × Json)} {failure : Failure}
    (h : failureOfMembers members = .ok failure) : failure.eventID ≠ "" := by
  unfold failureOfMembers at h
  split at h
  · split at h
    · split_ifs at h with hempty
      split at h
      · cases h
        exact hempty
      · split at h
        · cases h
        · cases h
          exact hempty
    · cases h
  · cases h

theorem decodeStrictFailure_nonempty {text : String} {failure : Failure}
    (h : decodeStrictFailure text = .ok failure) : failure.eventID ≠ "" := by
  unfold decodeStrictFailure at h
  split at h
  · cases h
  · split_ifs at h
    · split at h
      · exact failureOfMembers_nonempty h
      · cases h
    · split at h <;> cases h

def decodeCanonicalReplayEvent (text : String) : Option CanonicalReplayEvent :=
  match Json.parse text with
  | some .null => some {}
  | some (.obj fields) => do
    let eventID ← structText "event_id" fields
    let tenantID ← structText "tenant_id" fields
    some ⟨eventID, tenantID⟩
  | _ => none

def eventIDFromValue (text : String) : String :=
  match Json.parse text with
  | some (.obj fields) => (structText "event_id" fields).getD ""
  | _ => ""

/-- Values that are JSON texts. -/
def jsonCodec : Codec String where
  decodeStrictFailure := decodeStrictFailure
  decodeCanonicalReplayEvent := decodeCanonicalReplayEvent
  eventIDFromValue := eventIDFromValue
  size := String.utf8ByteSize
  eventID_nonempty := decodeStrictFailure_nonempty

/-! ## Section 2: Marks -/

/-- One line of the mark file. -/
inductive Mark where
  | unscoped (eventID : String)
  | tenantScoped (tenantID eventID : String)
deriving DecidableEq, Repr

def Mark.eventID : Mark → String
  | .unscoped eventID => eventID
  | .tenantScoped _ eventID => eventID

/-- The marks an instance knows (`ReplayState`). -/
structure State where
  replayed : List String
  scopedMarks : List (String × String)
  legacyMarks : List String
  legacyTenantScope : String
deriving DecidableEq, Repr

namespace State

/-- `marked`: the compatibility view by event id. -/
def marked (s : State) (eventID : String) : Bool := eventID ∈ s.replayed

/-- `Marked`: a mark of this tenant, or an unscoped one under the configured
    scope. -/
def markedTenant (s : State) (tenantID eventID : String) : Bool :=
  tenantID ≠ "" ∧ eventID ≠ "" ∧
    ((tenantID, eventID) ∈ s.scopedMarks ∨
      (s.legacyTenantScope ≠ "" ∧ s.legacyTenantScope = tenantID ∧ eventID ∈ s.legacyMarks))

/-- The maps after a mark has been persisted. -/
def add (s : State) : Mark → State
  | .unscoped eventID =>
    { s with replayed := eventID :: s.replayed, legacyMarks := eventID :: s.legacyMarks }
  | .tenantScoped tenantID eventID =>
    { s with
      replayed := eventID :: s.replayed
      scopedMarks := (tenantID, eventID) :: s.scopedMarks }

/-- `LoadReplayState`. -/
def load (legacyTenantScope : String) (file : List Mark) : State :=
  file.foldl add ⟨[], [], [], legacyTenantScope⟩

end State

/-! ## Section 3: Collecting dead letters -/

/-- A collected record. -/
structure DlqRecord where
  id : RecordID
  malformed : Bool := false
  eventID : String := ""
  claimedTenantID : String := ""
  errorCode : String := ""
  wanted : Bool := false
  authBlocked : Bool := false
deriving DecidableEq, Repr

def maxMalformedRecordsPerRound : Nat := 1024

def maxMalformedRecordBytes : Nat := 256 * 1024

def maxMalformedBytesPerRound : Nat := 1024 * 1024

def maxDLQRecordsPerRound : Nat := 4096

section Collect

variable {V : Type} (codec : Codec V)

def malformedPayloadBytes (m : Message V) : Nat := m.key.utf8ByteSize + codec.size m.value

def malformedCollectionExceeded (count bytes : Nat) (m : Message V) : Bool :=
  count > maxMalformedRecordsPerRound ∨ malformedPayloadBytes codec m > maxMalformedRecordBytes ∨
    bytes > maxMalformedBytesPerRound

/-- The record of a fetched message. -/
def recordOf (failureWanted : String → Bool) (replayAuthBlocked : Bool) (m : Message V) :
    DlqRecord :=
  match codec.decodeStrictFailure m.value with
  | .error _ => { id := m.id, malformed := true }
  | .ok failure =>
    let wanted := failureWanted failure.eventID
    { id := m.id, eventID := failure.eventID, claimedTenantID := failure.tenantID
      errorCode := failure.errorCode, wanted := wanted
      authBlocked := failure.errorCode = errorCodeUnauthorized ∧ wanted ∧ !replayAuthBlocked }

/-- `collectFailures`: the records up to a limit or to the end of the fetches,
    and whether it was the latter. The record that exceeds the malformed budget
    is kept. -/
def collectFailures (failureWanted : String → Bool) (replayAuthBlocked : Bool)
    (collected count bytes : Nat) : List (Message V) → List DlqRecord × Bool
  | [] => ([], true)
  | m :: rest =>
    let record := recordOf codec failureWanted replayAuthBlocked m
    let count := if record.malformed then count + 1 else count
    let bytes := if record.malformed then bytes + malformedPayloadBytes codec m else bytes
    if record.malformed ∧ malformedCollectionExceeded codec count bytes m then ([record], false)
    else if collected + 1 ≥ maxDLQRecordsPerRound then ([record], false)
    else
      let more := collectFailures failureWanted replayAuthBlocked (collected + 1) count bytes rest
      (record :: more.1, more.2)

end Collect

/-- `wantedEvents`: the records to replay, in order. The maps of `wantedSet`
    are views of this list. -/
def wantedEvents (collected : List DlqRecord) : List DlqRecord :=
  collected.filter (fun record => !record.malformed && record.wanted && !record.authBlocked)

/-- `byEventID`. -/
def byEventID (wanted : List DlqRecord) (eventID : String) : List RecordID :=
  (wanted.filter (fun record => record.eventID = eventID)).map DlqRecord.id

def oneShot (record : DlqRecord) : Bool := record.errorCode = errorCodePermanentError

/-! ## Section 4: Calls to the outside -/

/-- What a call did. A failed or crashed one may have taken effect. -/
inductive CallOutcome where
  | succeeded
  | failed (applied : Bool)
  | crashed (applied : Bool)
deriving DecidableEq, Repr

/-- What `errors.As` and `errors.Is` find in a redelivery error. -/
structure DeliveryFailure where
  permanent : Bool := false
  tenantMismatch : Bool := false
  tenantScopeBlocked : Bool := false
  /-- A timeout or a cancellation. -/
  uncertain : Bool := false
deriving DecidableEq, Repr

inductive RepublishOutcome where
  | delivered
  | rejected (err : DeliveryFailure)
  | crashed
deriving DecidableEq, Repr

/-- How the fetches of dead letters ended. -/
inductive FetchEnd where
  | drained
  | failed
deriving DecidableEq, Repr

/-- How the scan of the accepted topic ended: a whole window without a message,
    the limit of the scan, a transport error, or the caller's context. -/
inductive ScanEnd where
  | quiet
  | deadline
  | failed
  | cancelled
deriving DecidableEq, Repr

/-- What one round gets to see. -/
structure Round (V : Type) where
  replayAuthBlocked : Bool
  closesDLQ : Bool
  fetches : List (Message V)
  fetchEnd : FetchEnd
  closesAccepted : Bool
  accepted : List (Message V)
  scanEnd : ScanEnd
  /-- The context is done when the scan returns. -/
  cancelled : Bool
  /-- A redelivery function is configured. -/
  delivers : Bool
  republish : Nat → RepublishOutcome
  mark : Nat → CallOutcome
  commit : Nat → CallOutcome
  /-- The order Go ranges over a map in. -/
  mapOrder : String → String → Bool

/-- How a part of the round ended. -/
inductive Flow where
  | next
  | failed
  | crashed
deriving DecidableEq, Repr

/-- What a scan leaves a trace of. -/
inductive ScanEvent (V : Type) where
  /-- The record's original was handed to redelivery. -/
  | republished (record : RecordID) (tenantID eventID : String) (value : V)
  /-- The original was declared gone. -/
  | unresolvable (record : RecordID) (eventID : String)
  /-- A mark was persisted. -/
  | marked (mark : Mark)

/-- Counters of `ReplayerMetrics`. -/
structure Metrics where
  replayed : Nat := 0
  permanent : Nat := 0
  unresolvable : Nat := 0
  unparsableMarks : Nat := 0
  republishFail : Nat := 0
  tenantScopeMismatches : Nat := 0
  tenantScopePending : Nat := 0
deriving DecidableEq, Repr

/-- A scan in progress. -/
structure Session (V : Type) where
  state : State
  file : List Mark
  /-- Marks read at the start, and marks whose call returned without error. -/
  acknowledged : List Mark
  resolved : List RecordID := []
  found : List String := []
  replayed : Nat := 0
  scopePending : Nat := 0
  metrics : Metrics
  marks : Nat := 0
  republishes : Nat := 0
  events : List (ScanEvent V) := []

section Scan

variable {V : Type} (codec : Codec V) (round : Round V) (wanted : List DlqRecord)

/-- `Mark` and `MarkTenant`: the file first, the maps only after success. -/
def Session.persist (s : Session V) (mark : Mark) : Session V × Flow :=
  let called := { s with marks := s.marks + 1 }
  let written := { called with file := s.file ++ [mark] }
  match round.mark s.marks with
  | .succeeded =>
    ({ written with
        state := s.state.add mark
        acknowledged := s.acknowledged ++ [mark]
        events := s.events ++ [ScanEvent.marked mark] }, .next)
  | .failed applied => (if applied then written else called, .failed)
  | .crashed applied => (if applied then written else called, .crashed)

/-- `MarkTenant` refuses an incomplete identity. -/
def Session.markTenant (s : Session V) (tenantID eventID : String) : Session V × Flow :=
  if tenantID = "" ∨ eventID = "" then (s, .failed)
  else s.persist round (.tenantScoped tenantID eventID)

/-- Redeliver one accepted message. -/
def Session.deliver (s : Session V) (record : RecordID) (tenantID eventID : String) (value : V) :
    Session V × RepublishOutcome :=
  ({ s with
      republishes := s.republishes + 1
      events := s.events ++ [ScanEvent.republished record tenantID eventID value] },
    round.republish s.republishes)

def Session.resolve (s : Session V) (ids : List RecordID) : Session V :=
  { s with resolved := s.resolved ++ ids }

def Session.count (s : Session V) (f : Metrics → Metrics) : Session V :=
  { s with metrics := f s.metrics }

/-! ### The accepted topic by event id -/

/-- `legacyEventOneShot`. -/
def legacyEventOneShot (eventID : String) : Bool :=
  wanted.any (fun record => record.eventID = eventID ∧ oneShot record)

/-- Mark an event id, and on success resolve its records and count. -/
def Session.closeLegacy (s : Session V) (eventID : String) (f : Metrics → Metrics)
    (counted : Nat) : Session V × Flow :=
  match s.persist round (.unscoped eventID) with
  | (s, .next) =>
    ({ (s.resolve (byEventID wanted eventID)).count f with replayed := s.replayed + counted }, .next)
  | (s, flow) => (s, flow)

/-- The wanted event id a message is matched with: the payload's, or the key if
    the payload has none. -/
def legacyMatch (s : Session V) (m : Message V) : Option String :=
  let payloadID := codec.eventIDFromValue m.value
  if payloadID ≠ "" ∧ byEventID wanted payloadID ≠ [] ∧ s.state.marked payloadID = false then
    some payloadID
  else if payloadID = "" ∧ byEventID wanted m.key ≠ [] ∧ s.state.marked m.key = false then
    some m.key
  else none

/-- One message of `scanAcceptedLegacy`. -/
def Session.legacyMessage (s : Session V) (m : Message V) : Session V × Flow :=
  match legacyMatch codec wanted s m with
  | none => (s, .next)
  | some eventID =>
    let s := { s with found := eventID :: s.found }
    if codec.eventIDFromValue m.value = "" then
      s.closeLegacy round wanted eventID
        (fun n => { n with unparsableMarks := n.unparsableMarks + 1 }) 1
    else
      match s.deliver round m.id "" eventID m.value with
      | (s, .crashed) => (s, .crashed)
      | (s, .rejected err) =>
        let s := s.count (fun n => { n with republishFail := n.republishFail + 1 })
        -- a permanent_error record has one attempt; others close on a rejection only
        if legacyEventOneShot wanted eventID then
          s.closeLegacy round wanted eventID (fun n => { n with permanent := n.permanent + 1 }) 0
        else if err.permanent then
          s.closeLegacy round wanted eventID (fun n => { n with permanent := n.permanent + 1 }) 1
        else (s, .next)
      | (s, .delivered) =>
        s.closeLegacy round wanted eventID (fun n => { n with replayed := n.replayed + 1 }) 1

def Session.legacyMessages (s : Session V) : List (Message V) → Session V × Flow
  | [] => (s, .next)
  | m :: rest =>
    match s.legacyMessage codec round wanted m with
    | (s, .next) => s.legacyMessages rest
    | (s, flow) => (s, flow)

/-- `legacyEventResolved`. -/
def legacyEventResolved (s : Session V) (eventID : String) : Bool :=
  byEventID wanted eventID ≠ [] ∧ ∀ id ∈ byEventID wanted eventID, id ∈ s.resolved

/-- The originals that a drained scan did not find. -/
def Session.legacyLosses (s : Session V) : List String → Session V × Flow
  | [] => (s, .next)
  | eventID :: rest =>
    if eventID ∈ s.found ∨ legacyEventResolved wanted s eventID then s.legacyLosses rest
    else
      match s.closeLegacy round wanted eventID
          (fun n => { n with unresolvable := n.unresolvable + 1 }) 1 with
      | (s, .next) => s.legacyLosses rest
      | (s, flow) => (s, flow)

/-- The event ids of the wanted set, as Go ranges over them. -/
def wantedEventIDs : List String :=
  (wanted.map DlqRecord.eventID).dedup.mergeSort round.mapOrder

/-- `scanAcceptedLegacy`. -/
def Session.scanAcceptedLegacy (s : Session V) : Session V × Flow :=
  match s.legacyMessages codec round wanted round.accepted with
  | (s, .next) =>
    match round.scanEnd with
    | .quiet => s.legacyLosses round wanted (wantedEventIDs round wanted)
    | .deadline | .cancelled => (s, .next)
    | .failed => (s, .failed)
  | (s, flow) => (s, flow)

/-! ### The accepted topic by tenant and event id -/

structure Candidate (V : Type) where
  tenantID : String
  eventID : String
  value : V

def candidatesOf (candidates : List (Candidate V)) (eventID : String) : List (Candidate V) :=
  candidates.filter (fun c => c.eventID = eventID)

/-- Two tenants are enough to prove an ambiguity. -/
def addTenantCandidate (candidates : List (Candidate V)) (c : Candidate V) : List (Candidate V) :=
  let items := candidatesOf candidates c.eventID
  if items.any (fun existing => existing.tenantID = c.tenantID) then candidates
  else if items.length < 2 then candidates ++ [c]
  else candidates

/-- One message of `collectTenantCandidates`. -/
def collectTenantMessage (acc : List (Candidate V) × List String) (m : Message V) :
    List (Candidate V) × List String :=
  let found := if byEventID wanted m.key ≠ [] then m.key :: acc.2 else acc.2
  match codec.decodeCanonicalReplayEvent m.value with
  | none =>
    let id := codec.eventIDFromValue m.value
    (acc.1, if byEventID wanted id ≠ [] then id :: found else found)
  | some event =>
    if event.eventID = "" ∨ byEventID wanted event.eventID = [] then (acc.1, found)
    else if event.tenantID = "" then (acc.1, event.eventID :: found)
    else (addTenantCandidate acc.1 ⟨event.tenantID, event.eventID, m.value⟩, event.eventID :: found)

def collectTenantCandidates : List (Candidate V) × List String :=
  round.accepted.foldl (collectTenantMessage codec wanted) ([], [])

/-- The candidate a record may be replayed from. -/
def tenantCandidateForRecord (state : State) (candidates : List (Candidate V))
    (record : DlqRecord) : Option (Candidate V) :=
  match candidatesOf candidates record.eventID with
  | [c] =>
    if record.claimedTenantID = "" ∨ record.claimedTenantID = c.tenantID then some c
    else if (byEventID wanted record.eventID).length = 1 then
      if state.markedTenant c.tenantID c.eventID then none else some c
    else none
  | _ => none

def isTenantScopeFailure (err : DeliveryFailure) : Bool :=
  err.tenantMismatch ∨ err.tenantScopeBlocked

/-- `closeTenantDeliveryFailure`. -/
def Session.closeTenantDeliveryFailure (s : Session V) (record : DlqRecord) (c : Candidate V)
    (err : DeliveryFailure) : Session V × Flow :=
  if err.uncertain then (s, .next)
  else if !oneShot record ∧ !err.permanent then (s, .next)
  else
    match s.markTenant round c.tenantID c.eventID with
    | (s, .next) =>
      let s := (s.resolve [record.id]).count (fun n => { n with permanent := n.permanent + 1 })
      ({ s with replayed := s.replayed + if oneShot record then 0 else 1 }, .next)
    | (s, flow) => (s, flow)

/-- A record without an accepted candidate. -/
def Session.withoutCandidate (s : Session V) (found : List String) (record : DlqRecord) :
    Session V × Flow :=
  if record.eventID ∈ found then ({ s with scopePending := s.scopePending + 1 }, .next)
  else if s.state.marked record.eventID then (s.resolve [record.id], .next)
  else
    let s := { s with events := s.events ++ [ScanEvent.unresolvable record.id record.eventID] }
    match s.persist round (.unscoped record.eventID) with
    | (s, .next) =>
      let s := (s.resolve [record.id]).count
        (fun n => { n with unresolvable := n.unresolvable + 1 })
      ({ s with replayed := s.replayed + 1 }, .next)
    | (s, flow) => (s, flow)

/-- A record with a candidate that may be used. -/
def Session.withCandidate (s : Session V) (record : DlqRecord) (c : Candidate V) :
    Session V × Flow :=
  if s.state.markedTenant c.tenantID c.eventID then (s.resolve [record.id], .next)
  else if !round.delivers then ({ s with scopePending := s.scopePending + 1 }, .next)
  else
    match s.deliver round record.id c.tenantID c.eventID c.value with
    | (s, .crashed) => (s, .crashed)
    | (s, .rejected err) =>
      let s := s.count (fun n => { n with republishFail := n.republishFail + 1 })
      if isTenantScopeFailure err then
        let s := s.count (fun n => { n with tenantScopeMismatches := n.tenantScopeMismatches + 1 })
        ({ s with scopePending := s.scopePending + 1 }, .next)
      else s.closeTenantDeliveryFailure round record c err
    | (s, .delivered) =>
      match s.markTenant round c.tenantID c.eventID with
      | (s, .next) =>
        let s := (s.resolve [record.id]).count (fun n => { n with replayed := n.replayed + 1 })
        ({ s with replayed := s.replayed + 1 }, .next)
      | (s, flow) => (s, flow)

/-- One record of `resolveTenantCandidates`, after a drained scan. -/
def Session.tenantRecord (s : Session V) (candidates : List (Candidate V)) (found : List String)
    (record : DlqRecord) : Session V × Flow :=
  if candidatesOf candidates record.eventID = [] then s.withoutCandidate round found record
  else
    match tenantCandidateForRecord wanted s.state candidates record with
    | none => ({ s with scopePending := s.scopePending + 1 }, .next)
    | some c => s.withCandidate round record c

def Session.tenantRecords (s : Session V) (candidates : List (Candidate V)) (found : List String) :
    List DlqRecord → Session V × Flow
  | [] => (s, .next)
  | record :: rest =>
    match s.tenantRecord round wanted candidates found record with
    | (s, .next) => s.tenantRecords candidates found rest
    | (s, flow) => (s, flow)

/-- `scanAcceptedTenantAware`: nothing is delivered unless the scan drained. -/
def Session.scanAcceptedTenantAware (s : Session V) : Session V × Flow :=
  match round.scanEnd with
  | .quiet =>
    let scanned := collectTenantCandidates codec round wanted
    match s.tenantRecords round wanted scanned.1 scanned.2 wanted with
    | (s, .next) => (s.count (fun n => { n with tenantScopePending := s.scopePending }), .next)
    | (s, flow) => (s, flow)
  | .deadline => (s, .next)
  | .failed => (s, .failed)
  | .cancelled => (s.count (fun n => { n with tenantScopePending := wanted.length }), .next)

end Scan

/-! ## Section 5: Committing -/

/-- The record must stay. -/
def pendingRecord (resolved : List RecordID) (record : DlqRecord) : Bool :=
  !record.malformed && (record.authBlocked || (record.wanted && !(record.id ∈ resolved)))

def samePartition (a b : RecordID) : Bool := a.topic = b.topic ∧ a.partition = b.partition

/-- The lowest offset of a pending record in the partition. -/
def firstPending (collected : List DlqRecord) (resolved : List RecordID) (id : RecordID) :
    Option Nat :=
  ((collected.filter (fun r => pendingRecord resolved r && samePartition r.id id)).map
    (fun r => r.id.offset)).min?

/-- The record may be committed: it is not pending, and no pending record comes
    before it in its partition. -/
def mayCommit (collected : List DlqRecord) (resolved : List RecordID) (record : DlqRecord) :
    Bool :=
  (match firstPending collected resolved record.id with
    | some offset => record.id.offset < offset
    | none => true) && !pendingRecord resolved record

/-- Committed offsets by topic and partition. -/
abbrev Offsets := String → Nat → Nat

/-- `CommitMessages`: the group keeps the largest offset. -/
def Offsets.advance (offsets : Offsets) (id : RecordID) : Offsets := fun topic partition =>
  if topic = id.topic ∧ partition = id.partition then
    max (offsets topic partition) (id.offset + 1)
  else offsets topic partition

/-- `commitResolved`: one call for each record that may be committed. -/
def commitRecords (commit : Nat → CallOutcome) (calls : Nat) (offsets : Offsets) :
    List RecordID → Offsets × Flow
  | [] => (offsets, .next)
  | id :: rest =>
    match commit calls with
    | .succeeded => commitRecords commit (calls + 1) (offsets.advance id) rest
    | .failed applied => (if applied then offsets.advance id else offsets, .failed)
    | .crashed applied => (if applied then offsets.advance id else offsets, .crashed)

def commitResolved (commit : Nat → CallOutcome) (offsets : Offsets) (collected : List DlqRecord)
    (resolved : List RecordID) : Offsets × Flow :=
  commitRecords commit 0 offsets
    ((collected.filter (mayCommit collected resolved)).map DlqRecord.id)

/-! ## Section 6: Rounds -/

/-- A replayer with its surroundings. The last four fields are history. -/
structure World where
  offsets : Offsets
  file : List Mark
  state : State
  metrics : Metrics
  /-- Records that reached the commit of some round. -/
  collected : List RecordID
  /-- Records that the last round to see them held back for authentication. -/
  blocked : List RecordID
  /-- Records counted as resolved. -/
  resolved : List RecordID
  /-- Marks the process has read, and marks whose call returned nil. -/
  acknowledged : List Mark

/-- A new process: the maps come from the file, the counters start over. -/
def World.restart (w : World) : World :=
  { w with
    state := State.load w.state.legacyTenantScope w.file
    metrics := {}
    acknowledged := w.file }

section RunOnce

variable {V : Type} (codec : Codec V) (tenantAware : Bool)

/-- `failureWanted`. -/
def failureWanted (s : State) (eventID : String) : Bool := tenantAware || !s.marked eventID

/-- The records of a round and whether the fetches ended it. -/
def World.collect (w : World) (round : Round V) : List DlqRecord × Bool :=
  collectFailures codec (failureWanted tenantAware w.state) round.replayAuthBlocked 0 0 0
    round.fetches

/-- A scan begins. -/
def World.session (w : World) : Session V :=
  { state := w.state, file := w.file, acknowledged := w.acknowledged, metrics := w.metrics }

/-- The scan of a round. -/
def World.scan (w : World) (round : Round V) (wanted : List DlqRecord) : Session V × Flow :=
  if tenantAware then w.session.scanAcceptedTenantAware codec round wanted
  else w.session.scanAcceptedLegacy codec round wanted

/-- Commit what the round decided. -/
def World.commit (w : World) (round : Round V) (collected : List DlqRecord)
    (resolved : List RecordID) : World :=
  let ids := collected.map DlqRecord.id
  let w := { w with
    collected := w.collected ++ ids
    blocked := w.blocked.filter (fun id => !(id ∈ ids)) ++
      (collected.filter DlqRecord.authBlocked).map DlqRecord.id
    resolved := w.resolved ++ resolved }
  match commitResolved round.commit w.offsets collected resolved with
  | (offsets, .crashed) => { w with offsets := offsets }.restart
  | (offsets, _) => { w with offsets := offsets }

/-- What a scan changed. -/
def World.scanned (w : World) (s : Session V) : World :=
  { w with state := s.state, file := s.file, metrics := s.metrics, acknowledged := s.acknowledged }

/-- The gauge is per round. -/
def World.begin (w : World) : World :=
  { w with metrics := { w.metrics with tenantScopePending := 0 } }

/-- `RunOnce`. -/
def World.runOnce (w : World) (round : Round V) : World :=
  let w := w.begin
  if !round.closesDLQ then w
  else
    let (collected, ended) := w.collect codec tenantAware round
    if ended ∧ round.fetchEnd = .failed then w
    else
      let wanted := wantedEvents collected
      if wanted = [] then w.commit round collected []
      else if !round.closesAccepted then w
      else
        match w.scan codec tenantAware round wanted with
        | (s, .crashed) => (w.scanned s).restart
        | (s, .failed) =>
          if round.cancelled then (w.scanned s).commit round collected s.resolved
          else w.scanned s
        | (s, .next) => (w.scanned s).commit round collected s.resolved

/-- The round gets as far as the scan. -/
def World.scans (w : World) (round : Round V) : Bool :=
  round.closesDLQ && !((w.begin.collect codec tenantAware round).2 ∧ round.fetchEnd = .failed) &&
    !(wantedEvents (w.begin.collect codec tenantAware round).1).isEmpty && round.closesAccepted

/-- The scan of the round, if it gets there. -/
def World.attempt (w : World) (round : Round V) : Session V :=
  if w.scans codec tenantAware round then
    (w.begin.scan codec tenantAware round
      (wantedEvents (w.begin.collect codec tenantAware round).1)).1
  else w.begin.session

/-- What the round's scan leaves a trace of. -/
def World.events (w : World) (round : Round V) : List (ScanEvent V) :=
  (w.attempt codec tenantAware round).events

end RunOnce

end Replay

end AuditGovernance
