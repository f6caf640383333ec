import AuditGovernance.Service.Admission

/-! # Schema registration

    `RegisterSchema` (`internal/service/service.go`) with the resource caps of
    `internal/domain/limits.go`. A registered version is never replaced, which
    is what later reconstruction of stored events rests on.
-/

namespace AuditGovernance

open FiniteMap

/-! ## Section 1: Caps -/

def maxEnvelopeFieldBytes : Nat := 8 * 1024

def maxSchemaFields : Nat := 256

/-- `CheckString`. -/
def checkString (name value : String) : Except Err Unit :=
  require (value.utf8ByteSize ≤ maxEnvelopeFieldBytes)
    (.invalid ("envelope size cap exceeded: " ++ name ++ " is " ++ Nat.repr value.utf8ByteSize ++
      " bytes, max " ++ Nat.repr maxEnvelopeFieldBytes))

/-- `CheckCount`. -/
def checkCount (name : String) (n max : Nat) : Except Err Unit :=
  require (n ≤ max)
    (.invalid ("envelope size cap exceeded: " ++ name ++ " count " ++ Nat.repr n ++ ", max " ++
      Nat.repr max))

/-- `checkFieldListCaps`: entries are checked in order. -/
def checkFieldListCaps (name : String) (entries : List String) : Except Err Unit :=
  checkAll ((entries.insertionSort (fun a b => a ≤ b)).map (checkString (name ++ "[]")))

/-- `ValidateSchemaCaps`. -/
def validateSchemaCaps (schema : EventSchema) : Except Err Unit :=
  checkAll ([("required_fields", schema.requiredFields), ("allowed_fields", schema.allowedFields),
    ("encrypted_fields", schema.encryptedFields),
    ("searchable_fields", schema.searchableFields)].flatMap (fun p =>
      [checkCount p.1 p.2.length maxSchemaFields, checkFieldListCaps p.1 p.2]))

/-! ## Section 2: Registration -/

/-- The checks of `RegisterSchema` before it touches the store. -/
def validateSchema (schema : EventSchema) : Except Err Unit :=
  checkAll
    [requireTenantScope schema.tenantID,
      require (schema.schemaID ≠ "" ∧ 0 < schema.version ∧ schema.eventType ≠ "")
        (.invalid "schema_id, version and event_type are required"),
      validKeyComponent "schema id" schema.schemaID,
      validateSchemaCaps schema]

/-- The schemas of one `(tenant, schema id)` pair. -/
def schemaVersions (control : Control) (schema : EventSchema) : List EventSchema :=
  (control.schemas.toList.map Prod.snd).filter
    (fun c => c.tenantID = schema.tenantID ∧ c.schemaID = schema.schemaID)

/-- The newest version below the one registered. -/
def previousVersion (control : Control) (schema : EventSchema) : Option EventSchema :=
  ((schemaVersions control schema).filter (fun c => c.version < schema.version)).foldl
    (fun previous c =>
      match previous with
      | none => some c
      | some p => if p.version < c.version then some c else some p) none

/-- A new version may not drop fields of the previous one. -/
def checkEvolution (schema previous : EventSchema) : Except Err Unit :=
  checkAll (previous.requiredFields.map (fun field => require (field ∈ schema.requiredFields)
      (.invalid ("schema version removes required field " ++ field))) ++
    if previous.allowedFields = [] ∨ schema.allowedFields = [] then []
    else previous.allowedFields.map (fun field => require (field ∈ schema.allowedFields)
      (.invalid ("schema version removes allowed field " ++ field))))

/-- `appendAdminAction`: a positive cap keeps the newest entries. -/
def Control.appendAdminAction (control : Control) (cap : Nat) (action : AdminAction) : Control :=
  let actions := control.adminActions ++ [action]
  { control with adminActions := if 0 < cap then actions.drop (actions.length - cap) else actions }

/-- `RegisterSchema`, as the update of the control plane it makes. -/
def registerSchema (cap : Nat) (now : Time) (actor actionID : String) (schema : EventSchema)
    (control : Control) : Except Err Control :=
  match validateSchema schema with
  | .error err => .error err
  | .ok () =>
    let stored := { schema with
      createdAt := if schema.createdAt = 0 then now else schema.createdAt, active := true }
    let key := schemaKey schema.tenantID schema.schemaID schema.version
    let newest := (schemaVersions control schema).foldl (fun n c => max n c.version) 0
    match checkAll
      [require (control.tenants[schema.tenantID]?).isSome (.notFound "tenant does not exist"),
        require (newest ≤ schema.version)
          (.invalid ("schema version " ++ Int.repr schema.version ++
            " is lower than the highest registered version " ++ Int.repr newest ++
            " for schema " ++ schema.schemaID ++ "; version rollback is not allowed")),
        require (control.schemas[key]?).isNone (.conflict "schema already exists"),
        match previousVersion control schema with
        | none => .ok ()
        | some previous => checkEvolution schema previous] with
    | .error err => .error err
    | .ok () =>
      .ok (({ control with schemas := control.schemas.insert key stored }).appendAdminAction cap
        { id := actionID, tenantID := schema.tenantID, actor := actor, action := "schema.created"
          targetType := "event_schema", targetID := schema.schemaID
          detail := "version " ++ Int.repr schema.version, createdAt := now })

/-! ## Section 3: A small control plane -/

/-- What a successful call returned. -/
def okValue {α : Type} [Inhabited α] : Except Err α → α
  | .ok a => a
  | .error _ => default

theorem eq_ok_okValue {α : Type} [Inhabited α] {x : Except Err α} (h : x.isOk = true) :
    x = .ok (okValue x) := by
  cases x with
  | error err => simp [Except.isOk, Except.toBool] at h
  | ok a => rfl

/-- Tenant `acme` with the source `notes`. -/
def acmeControl : Control :=
  let tenant : Tenant := { id := "acme", active := true }
  let source : SourceSystem := { id := "notes", tenantID := "acme", active := true }
  { tenants := (∅ : Dict Tenant).insert "acme" tenant
    sources := (∅ : Dict SourceSystem).insert (sourceKey "acme" "notes") source }

def noteSchema (encrypted searchable : List String) : EventSchema :=
  { tenantID := "acme", schemaID := "note", version := 1, eventType := "note.written"
    encryptedFields := encrypted, searchableFields := searchable }

/-- The control plane once the schema of notes is registered. -/
def noteControl (encrypted searchable : List String) : Control :=
  okValue (registerSchema 0 63900000000000000000 "admin" "action-1"
    (noteSchema encrypted searchable) acmeControl)

def noteEvent (payload : Dict Json) : Event :=
  { eventID := "e1", sourceSystem := "notes", eventType := "note.written", schemaID := "note"
    schemaVersion := 1, occurredAt := 63900000000000000000, actor := { id := "clerk" }
    action := "write", outcome := "success", payload := payload
    dataClassification := "internal", retentionClass := "standard", idempotencyKey := "e1" }

/-- A call that brings a note with this payload. -/
def noteRequest (payload : Dict Json) : IngestRequest where
  tenantHint := "acme"
  clientID := "notes"
  event := noteEvent payload
  payloadNil := false
  waitFor := ""
  now := 63900000001000000000
  quotaAllows := true
  nonce := fun n => n
  checkpointID := "checkpoint-1"
  archivedEvent := fun _ => .error (.notFound "")
  publicationConfirmed := fun _ => .ok false
  nil_empty := by simp

/-- The note as accepted, with its schema. -/
def acceptedNote (encrypted searchable : List String) (payload : Dict Json) :
    Event × EventSchema :=
  okValue ((developmentDeployment 2).accept (noteControl encrypted searchable)
    (noteRequest payload))

end AuditGovernance
