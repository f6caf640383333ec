import AuditGovernance.Service.Environment
import AuditGovernance.Service.Recovery

/-! # Admission

    What `Ingest` does with an event before it is committed
    (`internal/service/service.go`, `internal/service/ingest_validation.go`,
    `internal/domain/models.go`): basic validation, tenant resolution, quota,
    content digest, schema validation and field protection.
-/

namespace AuditGovernance

open FiniteMap

/-! ## Section 1: Checks in sequence -/

/-- The first failing check decides. -/
def checkAll : List (Except Err Unit) → Except Err Unit
  | [] => .ok ()
  | .error err :: _ => .error err
  | .ok () :: rest => checkAll rest

theorem checkAll_ok {checks : List (Except Err Unit)} :
    checkAll checks = .ok () ↔ ∀ c ∈ checks, c = .ok () := by
  induction checks with
  | nil => simp [checkAll]
  | cons c rest ih =>
    cases c with
    | error err => simp [checkAll]
    | ok u => simp [checkAll, ih]

/-- `strings.TrimSpace(text) == ""`. -/
def isBlank (text : String) : Bool := text.toList.all isSpace

/-- A named check: fail with this error unless the condition holds. -/
def require (condition : Bool) (err : Err) : Except Err Unit :=
  if condition then .ok () else .error err

theorem require_ok {condition : Bool} {err : Err} : require condition err = .ok () ↔
    condition = true := by
  unfold require
  split <;> simp_all

/-! ## Section 2: Basic validation -/

/-- The texts every event must carry, with their names. -/
def Event.requiredTexts (e : Event) : List (String × String) :=
  [("event_id", e.eventID), ("source_system", e.sourceSystem), ("event_type", e.eventType),
    ("schema_id", e.schemaID), ("action", e.action), ("outcome", e.outcome),
    ("data_classification", e.dataClassification), ("retention_class", e.retentionClass),
    ("idempotency_key", e.idempotencyKey)]

def minOccurredAt : Time := Timestamp.daysBeforeYear 1900 * 86400 * 1000000000

def maxOccurredAt : Time := Timestamp.daysBeforeYear 2300 * 86400 * 1000000000 - 1000000

/-- Occurrences inside the ledger horizon have a year of four digits. -/
theorem hasYear_of_horizon {t : Int} (hlow : minOccurredAt ≤ t) (hhigh : t ≤ maxOccurredAt) :
    Timestamp.HasYear t := by
  have hlow' : Timestamp.daysBeforeYear 1900 * 86400 * 1000000000 ≤ t := hlow
  have hhigh' : t ≤ Timestamp.daysBeforeYear 2300 * 86400 * 1000000000 - 1000000 := hhigh
  unfold Timestamp.daysBeforeYear at hlow' hhigh'
  unfold Timestamp.HasYear Timestamp.daysBeforeYear
  omega

/-- `ValidateBasic`. The source checks the required texts in no fixed order, so
    which of several missing ones is reported is not fixed either; here it is
    the first listed. A nil payload is told apart from an empty one. -/
def Event.validateBasic (e : Event) (payloadNil : Bool) : Except Err Unit :=
  checkAll (e.requiredTexts.map (fun p => require (!isBlank p.2) (.invalid (p.1 ++ " is required"))) ++
    [validKeyComponent "event id" e.eventID, validKeyComponent "source system" e.sourceSystem,
      validArchiveComponentLength "event id" e.eventID,
      validArchiveComponentLength "source system" e.sourceSystem,
      if e.aggregateType = "" then .ok () else validStreamComponent "aggregate type" e.aggregateType,
      if e.aggregateID = "" then .ok () else validStreamComponent "aggregate id" e.aggregateID,
      if e.operationID = "" then .ok () else validKeyComponent "operation id" e.operationID,
      if e.operationID = "" then .ok ()
      else validArchiveComponentLength "operation id" e.operationID,
      require (0 < e.schemaVersion) (.invalid "schema_version must be positive"),
      require (e.occurredAt ≠ 0) (.invalid "occurred_at is required"),
      require (minOccurredAt ≤ e.occurredAt ∧ e.occurredAt ≤ maxOccurredAt)
        (.invalid ("occurred_at out of range: occurred_at " ++ Timestamp.format e.occurredAt ++
          " is outside the ledger horizon [1900-01-01T00:00:00Z, 2299-12-31T23:59:59Z]")),
      require (e.actor.id ≠ "") (.invalid "actor.id is required"),
      require (!payloadNil || e.payloadRef ≠ "") (.invalid "payload or payload_ref is required")])

/-! ## Section 3: Forbidden fields -/

/-- `unicode.ToLower`, as far as it ends in ASCII. -/
def lowerChar (c : Char) : Char :=
  if c.toNat = 0x212A then 'k' else if c.toNat = 0x130 then 'i' else c.toLower

def forbiddenWords : List String :=
  ["password", "token", "private_key", "device_credential", "card_number", "secret"]

/-- The key, in lower case and with underscores, contains a forbidden word. -/
def sensitiveKey (key : String) : Bool :=
  let lower := key.toList.map (fun c => lowerChar (if c = '-' then '_' else c))
  forbiddenWords.any (fun word => word.toList <:+: lower)

mutual

/-- `rejectSensitive`, with the path of the value scanned. -/
def rejectSensitive (path : String) : Json → Except Err Unit
  | .arr items => rejectSensitiveItems path 0 items
  | .obj fields => rejectSensitiveFields path fields
  | .null | .bool _ | .num _ | .str _ => .ok ()

def rejectSensitiveItems (path : String) (index : Nat) : List Json → Except Err Unit
  | [] => .ok ()
  | x :: rest =>
    match rejectSensitive (path ++ Nat.repr index ++ ".") x with
    | .error err => .error err
    | .ok () => rejectSensitiveItems path (index + 1) rest

def rejectSensitiveFields (path : String) : List (String × Json) → Except Err Unit
  | [] => .ok ()
  | (key, x) :: rest =>
    if sensitiveKey key then .error (.invalid ("sensitive field " ++ path ++ key ++ " is forbidden"))
    else
      match rejectSensitive (path ++ key ++ ".") x with
      | .error err => .error err
      | .ok () => rejectSensitiveFields path rest

end

/-- The key lies in the namespace of the stored search digests. -/
def reservedKey (key : String) : Bool :=
  Env.searchDigestSuffix.toList.isSuffixOf key.toList

/-- `rejectReservedSearchDigestNamespace`. -/
def rejectReservedSearchDigestNamespace (payload : Dict Json) : Except Err Unit :=
  match payload.toList.find? (fun p => reservedKey p.1) with
  | none => .ok ()
  | some p => .error (.invalid ("payload key " ++ p.1.quote ++
      " collides with the reserved search_digest namespace"))

/-! ## Section 4: Schema validation -/

/-- `hasField`. -/
def hasField (e : Event) (field : String) : Bool :=
  if field = "event_id" then e.eventID ≠ ""
  else if field = "source_system" then e.sourceSystem ≠ ""
  else if field = "event_type" then e.eventType ≠ ""
  else if field = "operation_id" then e.operationID ≠ ""
  else if field = "aggregate_id" then e.aggregateID ≠ ""
  else if field = "actor.id" then e.actor.id ≠ ""
  else (e.payload[field]?).isSome

/-- The changed fields as a JSON object. -/
def Event.changes (e : Event) : Json :=
  .obj (e.changedFields.toList.map (fun p => (p.1, p.2.toJson)))

/-- The size of the canonical payload in bytes; a nil payload is `null`. -/
def payloadBytes (e : Event) (payloadNil : Bool) : Except Err Nat :=
  if payloadNil then .ok 4
  else (Json.obj e.payload.toList).canonicalJSON.map String.utf8ByteSize

/-- The schema an event is validated against: `validateEvent` up to its read of
    the control plane. -/
def schemaFor (control : Control) (tenantID clientID : String) (e : Event) :
    Except Err EventSchema :=
  if !sourceAccessAllowed control tenantID e.sourceSystem clientID then .error sourceAccessError
  else
    match control.schemas[schemaKey tenantID e.schemaID e.schemaVersion]? with
    | none => .error (.schemaNotFound "")
    | some schema => if schema.active then .ok schema else .error (.schemaNotFound "")

/-- The size check of `validateEvent`, over the canonical payload. -/
def Deployment.checkPayloadSize (d : Deployment) (e : Event) (payloadNil : Bool) :
    Except Err Unit :=
  match payloadBytes e payloadNil with
  | .error err => .error err
  | .ok size => require (size ≤ d.maxEventBytes)
      (.invalid ("payload exceeds " ++ Nat.repr d.maxEventBytes ++ " bytes"))

/-- `validateEvent` after its read of the control plane. Changed fields that do
    not survive decoding into binary64 are not scanned. -/
def Deployment.validateAgainst (d : Deployment) (schema : EventSchema) (e : Event)
    (payloadNil : Bool) : Except Err Unit :=
  checkAll
    [require (schema.eventType = e.eventType) (.invalid "event_type does not match schema"),
      require (schema.classification = "" ∨ e.dataClassification = schema.classification)
        (.invalid "data_classification does not match schema"),
      rejectSensitive "" (.obj e.payload.toList),
      rejectReservedSearchDigestNamespace e.payload,
      if (Json.rewriteNumbers Json.float64Text e.changes).isOk then rejectSensitive "" e.changes
      else .ok (),
      d.checkPayloadSize e payloadNil,
      checkAll (schema.requiredFields.map (fun field => require (hasField e field)
        (.invalid ("schema field " ++ field ++ " is required")))),
      if schema.allowedFields = [] then .ok ()
      else checkAll (e.payload.toList.map (fun p => require (p.1 ∈ schema.allowedFields)
        (.invalid ("payload field " ++ p.1 ++ " is not in schema"))))]

/-! ## Section 5: The calls of `Ingest` -/

/-- One call of `Ingest` with what it draws from its process: the clock, the
    quota window's answer, random nonces and ids, and what it reads outside
    the store. -/
structure IngestRequest where
  tenantHint : String
  clientID : String
  event : Event
  /-- The caller passed no payload at all. -/
  payloadNil : Bool
  waitFor : String
  now : Time
  quotaAllows : Bool
  nonce : Nat → Nat
  checkpointID : String
  archivedEvent : EventReceipt → Except Err Event
  publicationConfirmed : EventReceipt → Except Err Bool
  /-- A nil payload has no entries. -/
  nil_empty : payloadNil = true → event.payload = ∅

/-- The texts `wait_for` may have. -/
def waitForValues : List String := ["", "accepted", "ledgered", "indexed", "archived"]

/-- `checkTenantAndQuota`. -/
def checkTenantAndQuota (control : Control) (tenantID : String) (quotaAllows : Bool) :
    Except Err Unit :=
  match control.tenants[tenantID]? with
  | none => .error (.notFound "")
  | some tenant =>
    if !tenant.active then .error (.notFound "")
    else if tenant.eventsPerSecond ≤ 0 then .ok ()
    else require quotaAllows (.quotaExceeded "")

/-- What `Ingest` hands to the commit. -/
structure Admitted where
  tenantID : String
  event : Event
  inputDigest : String

/-- The event as the server stamps it, before its digest is known. -/
def Deployment.stamp (d : Deployment) (r : IngestRequest) (tenantID : String) : Event :=
  { r.event with
    streamID := "", tenantID := tenantID, receivedAt := r.now, serverVersion := d.serverVersion
    sourceDigest := "" }

/-- The tenant of a call, from the control plane alone. -/
def IngestRequest.resolveTenant (r : IngestRequest) (control : Control) : Except Err String :=
  match checkAll
    [require (r.waitFor ∈ waitForValues) (.invalid "unsupported wait_for value"),
      r.event.validateBasic r.payloadNil,
      if r.tenantHint = "" then .ok () else requireTenantScope r.tenantHint] with
  | .error err => .error err
  | .ok () =>
    match resolveIngestTenantFromData control r.tenantHint r.clientID r.event.sourceSystem with
    | .error err => .error err
    | .ok tenantID =>
      (checkAll
        [requireTenantScope tenantID,
          require (r.event.tenantID = "" ∨ r.event.tenantID = tenantID)
            (.tenantMismatch ("envelope tenant_id " ++ r.event.tenantID.quote ++
              " does not match the tenant resolved from the authenticated client (" ++
              tenantID.quote ++ ")")),
          checkTenantAndQuota control tenantID r.quotaAllows]).map (fun _ => tenantID)

/-- `Ingest` up to the protection of sensitive fields: the event with its
    content digest, and its schema. -/
def Deployment.accept (d : Deployment) (control : Control) (r : IngestRequest) :
    Except Err (Event × EventSchema) :=
  match r.resolveTenant control with
  | .error err => .error err
  | .ok tenantID =>
    let stamped := d.stamp r tenantID
    match d.env.eventContentDigest stamped with
    | .error err => .error err
    | .ok digest =>
      let event := { stamped with sourceDigest := digest }
      match schemaFor control tenantID r.clientID event with
      | .error err => .error err
      | .ok schema =>
        match d.validateAgainst schema event r.payloadNil with
        | .error err => .error err
        | .ok () => .ok (event, schema)

/-- `Ingest` up to its commit. -/
def Deployment.admission (d : Deployment) (control : Control) (r : IngestRequest) :
    Except Err Admitted :=
  match d.accept control r with
  | .error err => .error err
  | .ok (event, schema) =>
    (d.env.protectSensitiveFields event schema r.nonce).map fun protected_ =>
      { tenantID := event.tenantID, event := protected_, inputDigest := event.sourceDigest }

/-! ## Section 6: What acceptance gives -/

/-- Everything `Ingest` has established about an event it accepts. -/
structure Accepted (d : Deployment) (control : Control) (r : IngestRequest) (e : Event)
    (schema : EventSchema) : Prop where
  basic : r.event.validateBasic r.payloadNil = .ok ()
  waitFor : r.waitFor ∈ waitForValues
  tenant : resolveIngestTenantFromData control r.tenantHint r.clientID r.event.sourceSystem =
    .ok e.tenantID
  scope : requireTenantScope e.tenantID = .ok ()
  digest : d.env.eventContentDigest (d.stamp r e.tenantID) = .ok e.sourceDigest
  stamped : e = { d.stamp r e.tenantID with sourceDigest := e.sourceDigest }
  found : schemaFor control e.tenantID r.clientID e = .ok schema
  valid : d.validateAgainst schema e r.payloadNil = .ok ()

theorem Deployment.accept_ok {d : Deployment} {control : Control} {r : IngestRequest} {e : Event}
    {schema : EventSchema} (h : d.accept control r = .ok (e, schema)) :
    Accepted d control r e schema := by
  unfold Deployment.accept at h
  split at h
  · cases h
  next tenantID htenant =>
  simp only at h
  split at h
  · cases h
  next digest hdigest =>
  split at h
  · cases h
  next schema' hschema =>
  split at h
  · cases h
  next hvalid =>
  cases h
  unfold IngestRequest.resolveTenant at htenant
  split at htenant
  · cases htenant
  next hbasic =>
  split at htenant
  · cases htenant
  next resolved hresolved =>
  have hchecks := checkAll_ok.1 hbasic
  cases hscope : checkAll
      [requireTenantScope resolved,
        require (r.event.tenantID = "" ∨ r.event.tenantID = resolved)
          (.tenantMismatch ("envelope tenant_id " ++ r.event.tenantID.quote ++
            " does not match the tenant resolved from the authenticated client (" ++
            resolved.quote ++ ")")),
        checkTenantAndQuota control resolved r.quotaAllows] with
  | error err => rw [hscope] at htenant; cases htenant
  | ok u =>
    rw [hscope] at htenant
    cases htenant
    have hwait := hchecks _ List.mem_cons_self
    exact
      { basic := hchecks _ (by simp), waitFor := by simpa using require_ok.1 hwait
        tenant := hresolved, scope := checkAll_ok.1 hscope _ List.mem_cons_self
        digest := hdigest, stamped := rfl, found := hschema, valid := hvalid }

end AuditGovernance
