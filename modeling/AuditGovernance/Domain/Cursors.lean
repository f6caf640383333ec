import AuditGovernance.Framework.Base64
import AuditGovernance.Domain.EventJson

/-! # Cursors

    The opaque positions of event queries and timelines
    (`internal/domain/canonical.go`): canonical JSON in base64. A cursor is
    read back from its text exactly, unless reading refuses it: a time must have
    a year of four digits, and a timeline cursor must name a scope and an event,
    carry a time other than the zero time on an operation timeline, and an
    aggregate version that is not negative on an aggregate timeline.
-/

namespace AuditGovernance

open Json

/-! ## Section 1: Canonical texts -/

/-- `CanonicalJSON` of a value without number literals: its integers are written
    by `strconv.FormatInt`. -/
def canonicalText (v : Json) : String := v.normalize.toText

theorem Json.valid_int (n : Int) : (int n).valid = true := by
  show validNumber (Int.repr n) = true
  rw [validNumber, parse_intRepr]
  rfl

theorem Json.valid_normalize_obj {fields : List (String × Json)}
    (h : ∀ p ∈ fields, (Json.normalize p.2).valid = true) :
    (Json.normalize (.obj fields)).valid = true := by
  rw [Json.normalize, valid, validFields_iff]
  intro p hp
  obtain ⟨q, hq, rfl⟩ := mem_normalizeFields hp
  exact h q hq

theorem decode_canonicalText {v : Json} (h : v.normalize.valid = true) :
    Json.decode (canonicalText v) = some v.normalize := by
  rw [Json.decode, canonicalText, parse_toText h, Option.map_some, normalize_normalize]

/-- The value in a base64 text, if it holds one. -/
def decodeOpaque (text : String) : Option Json := (Base64.decode text).bind Json.decode

theorem decodeOpaque_encode {v : Json} (h : v.normalize.valid = true) :
    decodeOpaque (Base64.encode (canonicalText v)) = some v.normalize := by
  rw [decodeOpaque, Base64.decode_encode, Option.bind_some, decode_canonicalText h]

theorem encode_canonicalText_ne_empty {v : Json} (h : v.normalize.valid = true) :
    Base64.encode (canonicalText v) ≠ "" := by
  apply Base64.encode_ne_empty
  intro hempty
  have hdecode := decode_canonicalText h
  rw [hempty] at hdecode
  cases hdecode

/-! ## Section 2: Query cursors -/

/-- `Cursor`. -/
structure Cursor where
  occurredAt : Time := 0
  sequence : Int := 0
  eventID : String := ""
  legacy : Bool := false
deriving DecidableEq

/-- The tuple that a cursor is written as. -/
def Cursor.toJson (c : Cursor) : Json :=
  if c.legacy then .arr [int c.sequence, .str c.eventID]
  else .arr [time c.occurredAt, int c.sequence, .str c.eventID]

/-- `EncodeCursor`. -/
def encodeCursor (c : Cursor) : String := Base64.encode (canonicalText c.toJson)

/-- `DecodeCursor`. -/
def decodeCursor (text : String) : Except Err Cursor :=
  match (decodeOpaque text).bind (fun v => readList some (some v)) with
  | none => .error (.invalid "invalid cursor")
  | some [sequence, event] =>
    match readInt (some sequence) with
    | none => .error (.invalid "invalid cursor sequence")
    | some sequence =>
      match readText (some event) with
      | none => .error (.invalid "invalid cursor event")
      | some eventID => .ok { sequence := sequence, eventID := eventID, legacy := true }
  | some [occurred, sequence, event] =>
    match readTime Timestamp.parse (some occurred) with
    | none => .error (.invalid "invalid cursor occurred_at")
    | some occurredAt =>
      match readInt (some sequence) with
      | none => .error (.invalid "invalid cursor sequence")
      | some sequence =>
        match readText (some event) with
        | none => .error (.invalid "invalid cursor event")
        | some eventID =>
          .ok { occurredAt := occurredAt, sequence := sequence, eventID := eventID }
  | some _ => .error (.invalid "invalid cursor")

theorem Cursor.toJson_valid (c : Cursor) : c.toJson.normalize.valid = true := by
  have hsequence : (int c.sequence).normalize.valid = true := valid_int c.sequence
  unfold Cursor.toJson
  split_ifs
  · simp [Json.normalize, normalizeItems, valid, validItems, hsequence]
  · simp [Json.normalize, normalizeItems, valid, validItems, hsequence, time]

/-- **Query cursors are read back.** -/
theorem decodeCursor_encodeCursor {c : Cursor} (hlegacy : c.legacy = false)
    (hyear : Timestamp.HasYear c.occurredAt) : decodeCursor (encodeCursor c) = .ok c := by
  have hopaque := decodeOpaque_encode c.toJson_valid
  have hitems : c.toJson.normalize = .arr [time c.occurredAt, int c.sequence, .str c.eventID] := by
    rw [Cursor.toJson, hlegacy]
    rfl
  have htime : readTime Timestamp.parse (some (time c.occurredAt)) = some c.occurredAt := by
    rw [time, readTime]
    exact Timestamp.parse_format hyear
  have hint : readInt (some (int c.sequence)) = some c.sequence := parseInt_repr c.sequence
  have hlist : (decodeOpaque (encodeCursor c)).bind (fun v => readList some (some v)) =
      some [time c.occurredAt, int c.sequence, .str c.eventID] := by
    rw [encodeCursor, hopaque, hitems]
    rfl
  unfold decodeCursor
  simp only [hlist, htime, hint, readText]
  obtain ⟨occurredAt, sequence, eventID, legacy⟩ := c
  cases hlegacy
  rfl

theorem encodeCursor_ne_empty (c : Cursor) : encodeCursor c ≠ "" :=
  encode_canonicalText_ne_empty c.toJson_valid

/-! ## Section 3: Timeline cursors -/

/-- The two timelines. -/
inductive TimelineKind where
  | operation
  | aggregate
deriving DecidableEq, Repr

def TimelineKind.text : TimelineKind → String
  | .operation => "operation"
  | .aggregate => "aggregate"

def timelineCursorVersion : Int := 1

/-- `TimelineCursor`. The kind is a text, as any text can be read into it. -/
structure TimelineCursor where
  version : Int := 0
  kind : String := ""
  scope : String := ""
  occurredAt : Time := 0
  aggregateVersion : Int := 0
  sequence : Int := 0
  eventID : String := ""
deriving DecidableEq, Inhabited

/-- The fields with their JSON names. A time is a struct, so `omitempty` never
    leaves it out. -/
def TimelineCursor.jsonFields (c : TimelineCursor) : List (String × Json) :=
  field "v" (int c.version) ++ field "kind" (.str c.kind) ++ field "scope" (.str c.scope) ++
    field "occurred_at" (time c.occurredAt) ++ optInt "aggregate_version" c.aggregateVersion ++
    optInt "sequence" c.sequence ++ field "event_id" (.str c.eventID)

def TimelineCursor.readFields (fields : List (String × Json)) : Option TimelineCursor := do
  let version ← readInt (fields.lookup "v")
  let kind ← readText (fields.lookup "kind")
  let scope ← readText (fields.lookup "scope")
  let occurredAt ← readTime Timestamp.parse (fields.lookup "occurred_at")
  let aggregateVersion ← readInt (fields.lookup "aggregate_version")
  let sequence ← readInt (fields.lookup "sequence")
  let eventID ← readText (fields.lookup "event_id")
  some { version, kind, scope, occurredAt, aggregateVersion, sequence, eventID }

/-- `EncodeTimelineCursor`. -/
def encodeTimelineCursor (c : TimelineCursor) : String :=
  Base64.encode (canonicalText
    (.obj { c with version := timelineCursorVersion : TimelineCursor }.jsonFields))

/-- The checks of `DecodeTimelineCursor` on what was read. -/
def TimelineCursor.check (c : TimelineCursor) : Except Err TimelineCursor :=
  if c.version ≠ timelineCursorVersion ∨
      (c.kind ≠ TimelineKind.operation.text ∧ c.kind ≠ TimelineKind.aggregate.text) ∨
      c.scope = "" ∨ c.eventID = "" then
    .error (.invalid "invalid timeline cursor")
  else if c.kind = TimelineKind.operation.text ∧ c.occurredAt = 0 then
    .error (.invalid "invalid operation timeline cursor")
  else if c.kind = TimelineKind.aggregate.text ∧ c.aggregateVersion < 0 then
    .error (.invalid "invalid aggregate timeline cursor")
  else .ok c

/-- `DecodeTimelineCursor`. -/
def decodeTimelineCursor (text : String) : Except Err TimelineCursor :=
  match (decodeOpaque text).bind (readStruct TimelineCursor.readFields) with
  | none => .error (.invalid "invalid timeline cursor")
  | some c => c.check

theorem TimelineCursor.keysAmong (c : TimelineCursor) :
    KeysAmong (["v"] ++ ["kind"] ++ ["scope"] ++ ["occurred_at"] ++ ["aggregate_version"] ++
      ["sequence"] ++ ["event_id"]) c.jsonFields :=
  ((((((keysAmong_field _ _).append (keysAmong_field _ _)).append (keysAmong_field _ _)).append
    (keysAmong_field _ _)).append (keysAmong_optInt _ _)).append (keysAmong_optInt _ _)).append
    (keysAmong_field _ _)

theorem TimelineCursor.valid_jsonFields (c : TimelineCursor) :
    (Json.normalize (.obj c.jsonFields)).valid = true := by
  apply valid_normalize_obj
  have hint : ∀ n : Int, (int n).normalize.valid = true := valid_int
  have hopt : ∀ (name : String) (n : Int), ∀ p ∈ optInt name n, p.2.normalize.valid = true := by
    intro name n p hp
    unfold optInt at hp
    split_ifs at hp
    · cases hp
    · rw [List.mem_singleton.1 hp]
      exact hint n
  intro p hp
  simp only [TimelineCursor.jsonFields, List.mem_append, field, List.mem_singleton] at hp
  rcases hp with (((((rfl | rfl) | rfl) | rfl) | hp) | hp) | rfl
  · exact hint c.version
  · rfl
  · rfl
  · rfl
  · exact hopt _ _ p hp
  · exact hopt _ _ p hp
  · rfl

theorem TimelineCursor.read_jsonFields {c : TimelineCursor}
    (hyear : Timestamp.HasYear c.occurredAt) :
    readStruct TimelineCursor.readFields (Json.normalize (.obj c.jsonFields)) = some c := by
  have hnodup := List.Nodup.sublist c.keysAmong (by decide)
  rw [Json.normalize, readStruct, TimelineCursor.readFields]
  simp only [lookup_normalizeFields hnodup]
  unfold TimelineCursor.jsonFields
  simp [List.lookup_append, lookup_field, lookup_optInt, readText_str, readInt_int,
    readInt_intField, readTime_time (Timestamp.parse_format hyear)]

/-- **Timeline cursors are read back and checked.** -/
theorem decodeTimelineCursor_encode {c : TimelineCursor}
    (hyear : Timestamp.HasYear c.occurredAt) :
    decodeTimelineCursor (encodeTimelineCursor c) =
      { c with version := timelineCursorVersion : TimelineCursor }.check := by
  have hread := @TimelineCursor.read_jsonFields
    { c with version := timelineCursorVersion } hyear
  rw [decodeTimelineCursor, encodeTimelineCursor,
    decodeOpaque_encode (TimelineCursor.valid_jsonFields _), Option.bind_some, hread]

theorem encodeTimelineCursor_ne_empty (c : TimelineCursor) : encodeTimelineCursor c ≠ "" :=
  encode_canonicalText_ne_empty (TimelineCursor.valid_jsonFields _)

end AuditGovernance
