import AuditGovernance.Domain.EventJson
import AuditGovernance.Domain.ZonedTime
import AuditGovernance.Service.Environment
import AuditGovernance.Service.Admission

/-! # Projected evidence

    The rows `insertConfirmed` writes for the query projection
    (`internal/projection/confirmed.go`). A row carries the coordinates of an
    event and its canonical envelope without search digests. What the database
    reads out of an envelope by field name is what the event held:
    `extract_envelope` and the lemmas after it.
-/

namespace AuditGovernance

open FiniteMap Json

/-! ## Section 1: Removing search digests -/

namespace Json

mutual

/-- `stripSearchDigestKeys`. -/
def stripSearchDigestKeys : Json → Json
  | .null => .null
  | .bool b => .bool b
  | .num literal => .num literal
  | .str text => .str text
  | .arr items => .arr (stripItems items)
  | .obj fields => .obj (stripFields fields)

def stripItems : List Json → List Json
  | [] => []
  | x :: rest => stripSearchDigestKeys x :: stripItems rest

def stripFields : List (String × Json) → List (String × Json)
  | [] => []
  | (k, x) :: rest =>
    if k.endsWith Env.searchDigestSuffix then stripFields rest
    else (k, stripSearchDigestKeys x) :: stripFields rest

end

end Json

/-- `StripSearchDigests`. The copy is made by encoding and decoding, which
    leaves objects in normal form (`Json.decode_marshal`). -/
def stripSearchDigests (payload : Dict Json) : Except Err (Dict Json) :=
  (Json.obj payload.toList).marshal.map fun _ =>
    collect (fun key v =>
      if key.endsWith Env.searchDigestSuffix then none
      else some v.normalize.stripSearchDigestKeys) payload

/-- The two sides of a change are stripped as one object. -/
def FieldChange.stripped (c : FieldChange) : Except Err FieldChange :=
  (stripSearchDigests (((∅ : Dict Json).insert "before" c.before).insert "after" c.after)).map
    fun values =>
      { before := (values["before"]?).getD .null, after := (values["after"]?).getD .null }

/-- A changed field of the envelope. -/
def projectedChange (key : String) (c : FieldChange) : Except Err (Option FieldChange) :=
  if key.endsWith Env.searchDigestSuffix then .ok none else c.stripped.map some

/-- The protected copy of `projectionEnvelope`. `CloneEvent` copies every value
    a decoded event can hold. -/
def Event.projected (e : Event) : Except Err Event :=
  match stripSearchDigests e.payload with
  | .error err => .error err
  | .ok payload =>
    (checkAll (e.changedFields.toList.map (fun p => (projectedChange p.1 p.2).map fun _ => ()))).map
      fun _ => { e with
        payload := payload
        changedFields := collect (fun key c => (projectedChange key c).toOption.join)
          e.changedFields }

/-- `projectionEnvelope`: the text and its digest. -/
def projectionEnvelope (hash : String → String) (e : Event) : Except Err (String × String) :=
  match e.projected with
  | .error err => .error err
  | .ok copied => copied.canonicalJSON.map fun encoded => (encoded, hash encoded)

/-! ## Section 2: Rows -/

/-- A row of `audit_projection_events`, without `projected_at`. The occurrence
    is in milliseconds. -/
structure ProjectionRow where
  tenantID : String := ""
  streamID : String := ""
  sequence : Nat := 0
  eventID : String := ""
  eventHash : String := ""
  prevHash : String := ""
  occurredAt : Int := 0
  envelopeDigest : String := ""
  envelope : String := ""
deriving DecidableEq, Inhabited

/-- `time.Parse(time.RFC3339Nano, text)`, up to the zone. -/
def parseRFC3339 (text : String) : Option Time := (Timestamp.parseIn text).map Prod.fst

/-- `parseDateTime64BestEffort(text, 3, 'UTC')`: milliseconds, rounded down. The
    database fails the statement for a text that is no time. -/
def parseDateTime64 (text : String) : Int := ((parseRFC3339 text).getD 0) / 1000000

def errNotLedgered : Err := .plain "projection: event lacks ledger-assigned chain state"

/-- `insertConfirmed`: the row it inserts. -/
def insertConfirmed (hash : String → String) (e : Event) : Except Err ProjectionRow :=
  if e.sequence ≤ 0 then .error errNotLedgered
  else
    match projectionEnvelope hash e with
    | .error err => .error (.wrap "encode projection envelope: " err)
    | .ok (envelope, digest) =>
      .ok
        { tenantID := e.tenantID, streamID := e.streamID, sequence := e.sequence.toNat
          eventID := e.eventID, eventHash := e.hash, prevHash := e.prevHash
          occurredAt := parseDateTime64 (Timestamp.format e.occurredAt)
          envelopeDigest := digest, envelope := envelope }

theorem parseRFC3339_format {t : Int} (h : Timestamp.HasYear t) :
    parseRFC3339 (Timestamp.format t) = some t := by
  rw [parseRFC3339, Timestamp.parseIn_format h, Option.map_some]

theorem parseDateTime64_format {t : Int} (h : Timestamp.HasYear t) :
    parseDateTime64 (Timestamp.format t) = t / 1000000 := by
  rw [parseDateTime64, parseRFC3339_format h, Option.getD_some]

/-- What a row says about its event. -/
structure RowOf (e : Event) (row : ProjectionRow) : Prop where
  positive : 0 < e.sequence
  tenantID : row.tenantID = e.tenantID
  streamID : row.streamID = e.streamID
  sequence : (row.sequence : Int) = e.sequence
  eventID : row.eventID = e.eventID
  eventHash : row.eventHash = e.hash
  envelope : ∃ payload changed,
    { e with payload := payload, changedFields := changed }.canonicalJSON = .ok row.envelope

theorem Event.projected_ok {e copied : Event} (h : e.projected = .ok copied) :
    ∃ payload changed, copied = { e with payload := payload, changedFields := changed } := by
  unfold Event.projected at h
  split at h
  · cases h
  next payload _ =>
  cases hc : checkAll (e.changedFields.toList.map
      (fun p => (projectedChange p.1 p.2).map fun _ => ())) with
  | error err => rw [hc] at h; cases h
  | ok _ =>
    rw [hc] at h
    exact ⟨payload, _, (Except.ok.inj h).symm⟩

theorem insertConfirmed_ok {hash : String → String} {e : Event} {row : ProjectionRow}
    (h : insertConfirmed hash e = .ok row) : RowOf e row := by
  unfold insertConfirmed at h
  by_cases hseq : e.sequence ≤ 0
  · rw [if_pos hseq] at h
    cases h
  rw [if_neg hseq] at h
  unfold projectionEnvelope at h
  cases hcopy : e.projected with
  | error err => rw [hcopy] at h; cases h
  | ok copied =>
    obtain ⟨payload, changed, rfl⟩ := Event.projected_ok hcopy
    rw [hcopy] at h
    dsimp only at h
    cases htext : ({ e with payload := payload, changedFields := changed } : Event).canonicalJSON with
    | error err => rw [htext] at h; cases h
    | ok text =>
      rw [htext] at h
      cases h
      refine ⟨by omega, rfl, rfl, ?_, rfl, rfl, payload, changed, htext⟩
      dsimp only
      omega

/-! ## Section 3: Reading an envelope -/

/-- The value at a path of field names. -/
def Json.at_ : List String → Json → Option Json
  | [], v => some v
  | name :: path, .obj fields => (fields.lookup name).bind (Json.at_ path)
  | _ :: _, _ => none

/-- A text, or `""` for anything else. -/
def Json.textOf : Option Json → String
  | some (.str text) => text
  | _ => ""

/-- `JSONExtractString(document, path...)`. -/
def jsonExtractString (path : List String) (document : Json) : String :=
  Json.textOf (document.at_ path)

/-- `JSONExtractArrayRaw(document, name)`: the elements. -/
def jsonExtractArrayRaw (name : String) (document : Json) : List Json :=
  match document.at_ [name] with
  | some (.arr items) => items
  | _ => []

/-- The document of an envelope. -/
def envelopeDocument (envelope : String) : Json := (Json.decode envelope).getD .null

theorem textOf_normalize (o : Option Json) :
    Json.textOf (o.map Json.normalize) = Json.textOf o := by
  rcases o with _ | v
  · rfl
  · cases v <;> rfl

theorem textOf_str (text : String) : Json.textOf (some (.str text)) = text := rfl

theorem textOf_textField (text : String) : Json.textOf (textField text) = text := by
  unfold textField
  by_cases h : text = ""
  · rw [if_pos h, h]
    rfl
  · rw [if_neg h]
    rfl

theorem at_normalize {fields : List (String × Json)} (h : (fields.map Prod.fst).Nodup)
    (name : String) (path : List String) :
    (Json.obj fields).normalize.at_ (name :: path) =
      ((fields.lookup name).map Json.normalize).bind (Json.at_ path) := by
  rw [Json.normalize, Json.at_, lookup_normalizeFields h]

theorem extract_text {fields : List (String × Json)} (h : (fields.map Prod.fst).Nodup)
    (name : String) :
    jsonExtractString [name] (Json.obj fields).normalize = Json.textOf (fields.lookup name) := by
  have hat : ∀ o : Option Json, o.bind (Json.at_ []) = o := by
    intro o
    cases o <;> rfl
  rw [jsonExtractString, at_normalize h, hat, textOf_normalize]

/-- The texts a query can ask for, under their JSON names. -/
def Event.filterTexts (e : Event) : List (String × String) :=
  [("event_type", e.eventType), ("source_system", e.sourceSystem),
    ("operation_id", e.operationID), ("causation_id", e.causationID),
    ("correlation_id", e.correlationID), ("aggregate_type", e.aggregateType),
    ("aggregate_id", e.aggregateID), ("trace_id", e.traceID), ("outcome", e.outcome)]

/-- What can be read of an event from a document. -/
structure Event.ReadFrom (e : Event) (document : Json) : Prop where
  texts : ∀ p ∈ e.filterTexts, jsonExtractString [p.1] document = p.2
  actor : jsonExtractString ["actor", "id"] document = e.actor.id
  targets : (jsonExtractArrayRaw "targets" document).map (jsonExtractString ["id"]) =
    e.targets.map Target.id
  occurred : jsonExtractString ["occurred_at"] document = Timestamp.format e.occurredAt

theorem Event.lookup_filterTexts (e : Event) :
    ∀ p ∈ e.filterTexts, Json.textOf (e.jsonFields.lookup p.1) = p.2 := by
  unfold Event.filterTexts Event.jsonFields
  simp [List.lookup_append, lookup_field, lookup_optText, lookup_optList, lookup_optInt,
    lookup_optMap, textOf_textField, textOf_str]

theorem Actor.extract_id (a : Actor) : jsonExtractString ["id"] a.toJson.normalize = a.id := by
  have hkeys := ((((keysAmong_field "id" (.str a.id)).append (keysAmong_optText "type" a.type)).append
    (keysAmong_optText "name" a.name)).append (keysAmong_optText "department" a.department)).append
    (keysAmong_optList "roles" (a.roles.map .str))
  rw [Actor.toJson, extract_text (List.Nodup.sublist hkeys (by decide))]
  simp [List.lookup_append, lookup_field, Json.textOf]

theorem Target.extract_id (t : Target) : jsonExtractString ["id"] t.toJson.normalize = t.id := by
  have hkeys := ((keysAmong_field "type" (.str t.type)).append
    (keysAmong_field "id" (.str t.id))).append (keysAmong_optText "name" t.name)
  rw [Target.toJson, extract_text (List.Nodup.sublist hkeys (by decide))]
  simp [List.lookup_append, lookup_field, Json.textOf]

theorem Event.lookup_actor (e : Event) : e.jsonFields.lookup "actor" = some e.actor.toJson := by
  unfold Event.jsonFields
  simp [List.lookup_append, lookup_field, lookup_optText]

theorem Event.lookup_targets (e : Event) :
    e.jsonFields.lookup "targets" = listField (e.targets.map Target.toJson) := by
  unfold Event.jsonFields
  simp [List.lookup_append, lookup_field, lookup_optText, lookup_optList, lookup_optInt,
    lookup_optMap]

theorem extract_listField {fields : List (String × Json)} (h : (fields.map Prod.fst).Nodup)
    {name : String} {items : List Json} (hlookup : fields.lookup name = listField items) :
    jsonExtractArrayRaw name (Json.obj fields).normalize = items.map Json.normalize := by
  rw [jsonExtractArrayRaw, at_normalize h, hlookup, listField]
  by_cases hitems : items = []
  · rw [if_pos hitems, hitems]
    rfl
  · rw [if_neg hitems]
    show normalizeItems items = items.map Json.normalize
    exact normalizeItems_eq_map items

theorem Event.readFrom_toJson (e : Event) : e.ReadFrom e.toJson.normalize where
  texts := by
    intro p hp
    rw [Event.toJson, extract_text e.nodup_keys]
    exact e.lookup_filterTexts p hp
  actor := by
    rw [jsonExtractString, Event.toJson, at_normalize e.nodup_keys, e.lookup_actor]
    exact e.actor.extract_id
  targets := by
    rw [Event.toJson, extract_listField e.nodup_keys e.lookup_targets, List.map_map, List.map_map]
    apply List.map_congr_left
    intro t _
    exact t.extract_id
  occurred := by
    rw [Event.toJson, extract_text e.nodup_keys, e.lookup_times.1]
    rfl

theorem RowOf.readFrom {e : Event} {row : ProjectionRow} (h : RowOf e row) :
    e.ReadFrom (envelopeDocument row.envelope) := by
  obtain ⟨payload, changed, htext⟩ := h.envelope
  obtain ⟨w, hvalid, htoText, hw⟩ := Event.canonicalJSON_ok htext
  have hdocument : envelopeDocument row.envelope = w := by
    rw [envelopeDocument, htoText, Json.decode, Json.parse_toText hvalid, Option.map_some,
      Option.getD_some, hw, Json.normalize_normalize]
  rw [hdocument, hw]
  have hread := Event.readFrom_toJson
    (({ e with payload := payload, changedFields := changed } : Event).mapNumbers
      (rewritten writeNumber))
  exact ⟨hread.texts, hread.actor, hread.targets, hread.occurred⟩

end AuditGovernance
