import AuditGovernance.Framework.Decimal
import AuditGovernance.Domain.JsonText
import AuditGovernance.Domain.Timestamp

/-! # Canonical JSON

    `internal/domain/canonical.go`: the deterministic text of a value that
    digests are taken of. Object keys are sorted and numbers are brought into
    one decimal form with exact arithmetic. Beside it stand the plain encoder
    and decoder of `encoding/json` for map-backed values.
-/

namespace AuditGovernance

open FiniteMap

namespace Json

/-! ## Section 1: Objects as maps -/

/-- Add a field to fields in key order, unless its key is there already. -/
def insertField (k : String) (v : Json) : List (String × Json) → List (String × Json)
  | [] => [(k, v)]
  | (l, w) :: rest =>
    if k < l then (k, v) :: (l, w) :: rest
    else if k = l then (l, w) :: rest
    else (l, w) :: insertField k v rest

mutual

/-- The value with every object as a Go map holds it: in key order, the last
    of several equal keys. -/
def normalize : Json → Json
  | .null => .null
  | .bool b => .bool b
  | .num literal => .num literal
  | .str text => .str text
  | .arr items => .arr (normalizeItems items)
  | .obj fields => .obj (normalizeFields fields)

def normalizeItems : List Json → List Json
  | [] => []
  | x :: rest => normalize x :: normalizeItems rest

def normalizeFields : List (String × Json) → List (String × Json)
  | [] => []
  | (k, x) :: rest => insertField k (normalize x) (normalizeFields rest)

end

/-- Fields in strict key order. -/
def FieldsSorted (fields : List (String × Json)) : Prop :=
  fields.Pairwise (fun p q => p.1 < q.1)

theorem mem_insertField {k : String} {v : Json} {fields : List (String × Json)}
    {p : String × Json} (h : p ∈ insertField k v fields) : p = (k, v) ∨ p ∈ fields := by
  induction fields with
  | nil => exact .inl (by simpa [insertField] using h)
  | cons q rest ih =>
    obtain ⟨l, w⟩ := q
    simp only [insertField] at h
    split_ifs at h with hlt heq
    · rcases List.mem_cons.1 h with rfl | h
      · exact .inl rfl
      · exact .inr h
    · exact .inr h
    · rcases List.mem_cons.1 h with rfl | h
      · exact .inr (by simp)
      · rcases ih h with rfl | h
        · exact .inl rfl
        · exact .inr (by simp [h])

theorem FieldsSorted.insertField {fields : List (String × Json)} (h : FieldsSorted fields)
    (k : String) (v : Json) : FieldsSorted (Json.insertField k v fields) := by
  induction fields with
  | nil => simp [Json.insertField, FieldsSorted]
  | cons q rest ih =>
    obtain ⟨l, w⟩ := q
    obtain ⟨hhead, hrest⟩ := List.pairwise_cons.1 h
    simp only [Json.insertField]
    split_ifs with hlt heq
    · refine List.pairwise_cons.2 ⟨?_, h⟩
      intro p hp
      rcases List.mem_cons.1 hp with rfl | hp
      · exact hlt
      · exact lt_trans hlt (hhead p hp)
    · exact h
    · refine List.pairwise_cons.2 ⟨?_, ih hrest⟩
      intro p hp
      rcases mem_insertField hp with rfl | hp
      · exact lt_of_le_of_ne (not_lt.1 hlt) (Ne.symm heq)
      · exact hhead p hp

theorem normalizeItems_eq_map (items : List Json) : normalizeItems items = items.map normalize := by
  induction items with
  | nil => rfl
  | cons x rest ih => simp [normalizeItems, ih]

theorem fieldsSorted_normalizeFields (fields : List (String × Json)) :
    FieldsSorted (normalizeFields fields) := by
  induction fields with
  | nil => exact List.Pairwise.nil
  | cons p rest ih => exact ih.insertField p.1 (normalize p.2)

theorem mem_normalizeFields {fields : List (String × Json)} {p : String × Json}
    (h : p ∈ normalizeFields fields) : ∃ q ∈ fields, p = (q.1, normalize q.2) := by
  induction fields with
  | nil => cases h
  | cons q rest ih =>
    rcases mem_insertField h with rfl | h
    · exact ⟨q, by simp, rfl⟩
    · obtain ⟨r, hr, rfl⟩ := ih h
      exact ⟨r, by simp [hr], rfl⟩

theorem normalizeFields_of_sorted {fields : List (String × Json)} (h : FieldsSorted fields)
    (hfix : ∀ p ∈ fields, normalize p.2 = p.2) : normalizeFields fields = fields := by
  induction fields with
  | nil => rfl
  | cons p rest ih =>
    obtain ⟨k, x⟩ := p
    obtain ⟨hhead, hrest⟩ := List.pairwise_cons.1 h
    have hx : normalize x = x := hfix (k, x) (by simp)
    rw [normalizeFields, hx, ih hrest (fun q hq => hfix q (by simp [hq]))]
    cases rest with
    | nil => rfl
    | cons q more =>
      have hlt : k < q.1 := hhead q (by simp)
      simp [insertField, hlt]

@[simp] theorem normalize_normalize (v : Json) : normalize (normalize v) = normalize v := by
  induction v using induct with
  | null => rfl
  | bool b => rfl
  | num literal => rfl
  | str text => rfl
  | arr items ih =>
    simp only [normalize, normalizeItems_eq_map, List.map_map]
    congr 1
    exact List.map_congr_left ih
  | obj fields ih =>
    simp only [normalize]
    congr 1
    apply normalizeFields_of_sorted (fieldsSorted_normalizeFields fields)
    intro p hp
    obtain ⟨q, hq, rfl⟩ := mem_normalizeFields hp
    exact ih q hq

theorem normalizeFields_map (fields : List (String × Json)) :
    normalizeFields (fields.map (fun p => (p.1, normalize p.2))) = normalizeFields fields := by
  induction fields with
  | nil => rfl
  | cons p rest ih => simp [normalizeFields, ih]

theorem normalize_obj_congr {fields fields' : List (String × Json)}
    (h : fields.map (fun p => (p.1, normalize p.2)) = fields'.map (fun p => (p.1, normalize p.2))) :
    normalize (.obj fields) = normalize (.obj fields') := by
  simp only [normalize]
  rw [← normalizeFields_map fields, h, normalizeFields_map]

theorem keysSorted_entries {V : Type} (m : Dict V) :
    m.toList.Pairwise (fun p q => p.1 < q.1) := by
  refine (Std.ExtTreeMap.ordered_keys_toList (t := m)).imp ?_
  intro p q hpq
  exact compare_lt_iff_lt.1 hpq

theorem fieldsSorted_entries (m : Dict Json) : FieldsSorted m.toList := keysSorted_entries m

theorem normalizeFields_of_keysSorted {fields : List (String × Json)} (h : FieldsSorted fields) :
    normalizeFields fields = fields.map (fun p => (p.1, normalize p.2)) := by
  rw [← normalizeFields_map]
  apply normalizeFields_of_sorted
  · exact List.pairwise_map.2 h
  · intro p hp
    obtain ⟨q, -, rfl⟩ := List.mem_map.1 hp
    exact normalize_normalize q.2

/-! ## Section 2: Plain encoding -/

/-- `json.Marshal` of a decoded value. -/
def marshal (v : Json) : Except Err String :=
  if v.normalize.valid then .ok v.normalize.toText
  else .error (.plain "json: invalid number literal")

/-- `json.Unmarshal` into an interface value, with `UseNumber`. -/
def decode (text : String) : Option Json := (parse text).map normalize

theorem decode_marshal {v : Json} {text : String} (h : v.marshal = .ok text) :
    decode text = some v.normalize := by
  unfold marshal at h
  split_ifs at h with hv
  cases h
  simp [decode, parse_toText hv]

/-! ## Section 3: Canonical numbers -/

def maxCanonicalNumberDigits : Nat := 2 ^ 20

def maxCanonicalExponent : Nat := 4096

/-- `parseDecimalExponent` of an exponent text that `parseJSONNumber` split
    off. -/
def parseDecimalExponent (exponent : List Char) : Except Err Int :=
  let (sign, digits) := readSign exponent
  let value := Decimal.value digits
  if value > maxCanonicalExponent then .error (.plain "exponent is outside the supported range")
  else .ok (if sign = ['-'] then -value else value)

/-- The digits do not fit the canonical size limit. -/
def exceedsMagnitude (digits : List Char) (scale : Int) : Bool :=
  if scale ≤ 0 then (digits.length : Int) - scale > maxCanonicalNumberDigits
  else scale > maxCanonicalNumberDigits ∨ digits.length + scale > maxCanonicalNumberDigits + 1

/-- All digits of a literal. -/
def NumberParts.all (parts : NumberParts) : List Char := parts.integer ++ parts.fraction

/-- The digits of a literal without leading and trailing zeros. -/
def NumberParts.digits (parts : NumberParts) : List Char := Decimal.significant parts.all

/-- How many of these digits stand behind the point. -/
def NumberParts.scale (parts : NumberParts) (exponent : Int) : Int :=
  parts.fraction.length - exponent - Decimal.trailing parts.all

/-- `writeNumber`. -/
def writeNumber (literal : String) : Except Err String :=
  match parseJSONNumber literal.toList with
  | none => .error (.plain ("invalid number literal " ++ literal.quote))
  | some parts =>
    match parseDecimalExponent parts.exponent with
    | .error err => .error (.wrap ("number " ++ literal.quote) err)
    | .ok exponent =>
      if parts.integer.length + parts.fraction.length > maxCanonicalNumberDigits + 1 then
        .error (.plain ("number " ++ literal.quote ++ " exceeds canonical magnitude limit"))
      else if parts.digits = [] then .ok "0"
      else if exceedsMagnitude parts.digits (parts.scale exponent) then
        .error (.plain ("number " ++ literal.quote ++ " exceeds canonical magnitude limit"))
      else .ok (String.ofList (Decimal.fixed parts.negative parts.digits (parts.scale exponent)))

example : writeNumber "-12.50e1" = .ok "-125" := by decide +kernel

/-! ## Section 4: Canonical values -/

mutual

/-- The value with every number literal rewritten. -/
def rewriteNumbers (rewrite : String → Except Err String) : Json → Except Err Json
  | .null => .ok .null
  | .bool b => .ok (.bool b)
  | .num literal => (rewrite literal).map .num
  | .str text => .ok (.str text)
  | .arr items => (rewriteItems rewrite items).map .arr
  | .obj fields => (rewriteFields rewrite fields).map .obj

def rewriteItems (rewrite : String → Except Err String) : List Json → Except Err (List Json)
  | [] => .ok []
  | x :: rest =>
    match rewriteNumbers rewrite x with
    | .error err => .error err
    | .ok y => (rewriteItems rewrite rest).map (fun ys => y :: ys)

def rewriteFields (rewrite : String → Except Err String) :
    List (String × Json) → Except Err (List (String × Json))
  | [] => .ok []
  | (k, x) :: rest =>
    match rewriteNumbers rewrite x with
    | .error err => .error err
    | .ok y => (rewriteFields rewrite rest).map (fun ys => (k, y) :: ys)

end

theorem rewriteItems_ok {rewrite : String → Except Err String} {items items' : List Json}
    (h : rewriteItems rewrite items = .ok items') :
    List.Forall₂ (fun x y => rewriteNumbers rewrite x = .ok y) items items' := by
  induction items generalizing items' with
  | nil =>
    cases h
    exact .nil
  | cons x rest ih =>
    rw [rewriteItems] at h
    split at h
    · cases h
    next y hy =>
    cases hrest : rewriteItems rewrite rest with
    | error err => rw [hrest] at h; cases h
    | ok ys =>
      rw [hrest] at h
      cases h
      exact .cons hy (ih hrest)

theorem rewriteFields_ok {rewrite : String → Except Err String}
    {fields fields' : List (String × Json)} (h : rewriteFields rewrite fields = .ok fields') :
    List.Forall₂ (fun p q => q.1 = p.1 ∧ rewriteNumbers rewrite p.2 = .ok q.2) fields fields' := by
  induction fields generalizing fields' with
  | nil =>
    cases h
    exact .nil
  | cons p rest ih =>
    obtain ⟨k, x⟩ := p
    rw [rewriteFields] at h
    split at h
    · cases h
    next y hy =>
    cases hrest : rewriteFields rewrite rest with
    | error err => rw [hrest] at h; cases h
    | ok ys =>
      rw [hrest] at h
      cases h
      exact .cons ⟨rfl, hy⟩ (ih hrest)

theorem valid_of_rewriteNumbers {rewrite : String → Except Err String}
    (hr : ∀ literal text, rewrite literal = .ok text → validNumber literal = true) (v : Json) :
    ∀ w, rewriteNumbers rewrite v = .ok w → v.valid = true := by
  induction v using induct with
  | null => simp [valid]
  | bool b => simp [valid]
  | num literal =>
    intro w h
    rw [rewriteNumbers] at h
    cases htext : rewrite literal with
    | error err => rw [htext] at h; cases h
    | ok text => exact hr literal text htext
  | str text => simp [valid]
  | arr items ih =>
    intro w h
    rw [rewriteNumbers] at h
    cases hitems : rewriteItems rewrite items with
    | error err => rw [hitems] at h; cases h
    | ok items' =>
      have hall := rewriteItems_ok hitems
      rw [valid, validItems_iff]
      intro x hx
      obtain ⟨i, hi, rfl⟩ := List.getElem_of_mem hx
      have hlen := hall.length_eq
      exact ih _ hx _ (hall.get hi (hlen ▸ hi))
  | obj fields ih =>
    intro w h
    rw [rewriteNumbers] at h
    cases hfields : rewriteFields rewrite fields with
    | error err => rw [hfields] at h; cases h
    | ok fields' =>
      have hall := rewriteFields_ok hfields
      rw [valid, validFields_iff]
      intro p hp
      obtain ⟨i, hi, rfl⟩ := List.getElem_of_mem hp
      have hlen := hall.length_eq
      exact ih _ hp _ (hall.get hi (hlen ▸ hi)).2

theorem validNumber_of_writeNumber {literal text : String} (h : writeNumber literal = .ok text) :
    validNumber literal = true := by
  unfold writeNumber at h
  unfold validNumber
  split at h
  · cases h
  · next parts hparts => rw [hparts]; rfl

/-- `CanonicalJSON` of a value. -/
def canonicalJSON (v : Json) : Except Err String :=
  (rewriteNumbers writeNumber v.normalize).map toText

/-- The encoding before numbers were kept exact (`legacyCanonicalJSON` of a
    struct): every literal goes through binary64. -/
def legacyCanonicalJSON (float64Text : String → Except Err String) (v : Json) :
    Except Err String :=
  (rewriteNumbers float64Text v.normalize).map toText

/-- An object field, unless it is left out. -/
def field (name : String) (value : Json) : List (String × Json) := [(name, value)]

/-- A string field with `omitempty`. -/
def optText (name text : String) : List (String × Json) :=
  if text = "" then [] else [(name, .str text)]

/-- An integer. -/
def int (n : Int) : Json := .num (Int.repr n)

/-- An integer field with `omitempty`. -/
def optInt (name : String) (n : Int) : List (String × Json) :=
  if n = 0 then [] else [(name, int n)]

/-- An interface field with `omitempty`: left out when nil. -/
def optValue (name : String) (v : Json) : List (String × Json) :=
  if v = .null then [] else [(name, v)]

/-- A list field with `omitempty`. -/
def optList (name : String) (items : List Json) : List (String × Json) :=
  if items = [] then [] else [(name, .arr items)]

/-- A map field with `omitempty`. -/
def optMap (name : String) (fields : List (String × Json)) : List (String × Json) :=
  if fields = [] then [] else [(name, .obj fields)]

/-- A time. -/
def time (t : Time) : Json := .str (Timestamp.format t)

end Json

/-! ## Section 5: Events as values -/

open Json

def Actor.toJson (a : Actor) : Json :=
  .obj (field "id" (.str a.id) ++ optText "type" a.type ++ optText "name" a.name ++
    optText "department" a.department ++ optList "roles" (a.roles.map .str))

def Target.toJson (t : Target) : Json :=
  .obj (field "type" (.str t.type) ++ field "id" (.str t.id) ++ optText "name" t.name)

def FieldChange.toJson (c : FieldChange) : Json :=
  .obj (optValue "before" c.before ++ optValue "after" c.after)

/-- The fields of an event with their JSON names, in declaration order. -/
def Event.jsonFields (e : Event) : List (String × Json) :=
  field "event_id" (.str e.eventID) ++ field "tenant_id" (.str e.tenantID) ++
    field "source_system" (.str e.sourceSystem) ++ field "event_type" (.str e.eventType) ++
    field "schema_id" (.str e.schemaID) ++ field "schema_version" (int e.schemaVersion) ++
    field "occurred_at" (time e.occurredAt) ++ field "received_at" (time e.receivedAt) ++
    optText "operation_id" e.operationID ++ optText "causation_id" e.causationID ++
    optText "correlation_id" e.correlationID ++ optText "trace_id" e.traceID ++
    optText "span_id" e.spanID ++ field "actor" e.actor.toJson ++
    optList "targets" (e.targets.map Target.toJson) ++
    optText "aggregate_type" e.aggregateType ++ optText "aggregate_id" e.aggregateID ++
    optInt "aggregate_version" e.aggregateVersion ++
    optText "workflow_instance_id" e.workflowInstanceID ++
    optText "execution_run_id" e.executionRunID ++ field "action" (.str e.action) ++
    field "outcome" (.str e.outcome) ++ optText "reason" e.reason ++
    optMap "changed_fields" (e.changedFields.toList.map (fun p => (p.1, p.2.toJson))) ++
    optMap "payload" e.payload.toList ++ optText "payload_ref" e.payloadRef ++
    optText "source_digest" e.sourceDigest ++
    field "data_classification" (.str e.dataClassification) ++
    field "retention_class" (.str e.retentionClass) ++
    field "idempotency_key" (.str e.idempotencyKey) ++ optText "stream_id" e.streamID ++
    optInt "sequence" e.sequence ++ optText "prev_hash" e.prevHash ++ optText "hash" e.hash ++
    optText "server_version" e.serverVersion

def Event.toJson (e : Event) : Json := .obj e.jsonFields

/-- The years of the times fit `time.Time.MarshalJSON`. -/
def Event.TimesMarshal (e : Event) : Prop :=
  Timestamp.HasYear e.occurredAt ∧ Timestamp.HasYear e.receivedAt

instance (e : Event) : Decidable e.TimesMarshal := inferInstanceAs (Decidable (_ ∧ _))

/-- `json.Marshal` of an event, up to the text. -/
def Event.marshalJSON (e : Event) : Except Err Json :=
  if e.TimesMarshal then .ok e.toJson
  else .error (.plain ("json: error calling MarshalJSON for type time.Time: " ++
    "Time.MarshalJSON: year outside of range [0,9999]"))

/-- `CanonicalJSON` of an event: the struct is written field by field, so every
    time has a text. -/
def Event.canonicalJSON (e : Event) : Except Err String := e.toJson.canonicalJSON

/-- The encoding before numbers were kept exact, of an event: the struct went
    through `json.Marshal`. -/
def Event.legacyCanonicalJSON (float64Text : String → Except Err String) (e : Event) :
    Except Err String :=
  e.marshalJSON.bind (Json.legacyCanonicalJSON float64Text)

theorem Event.marshalJSON_ok {e : Event} {v : Json} :
    e.marshalJSON = .ok v ↔ e.TimesMarshal ∧ e.toJson = v := by
  unfold Event.marshalJSON
  by_cases h : e.TimesMarshal
  · simp [h]
  · simp [h]

/-- Payloads with the same normal values. -/
def SamePayload (payload payload' : Dict Json) : Prop :=
  ∀ k : String, (payload[k]?).map Json.normalize = (payload'[k]?).map Json.normalize

theorem SamePayload.entries {payload payload' : Dict Json} (h : SamePayload payload payload') :
    payload.toList.map (fun p => (p.1, Json.normalize p.2)) =
      payload'.toList.map (fun p => (p.1, Json.normalize p.2)) := by
  have hmap : payload.map (fun _ v => Json.normalize v) = payload'.map (fun _ v => Json.normalize v) := by
    apply ext_lookup
    intro k
    rw [Std.ExtTreeMap.getElem?_map, Std.ExtTreeMap.getElem?_map]
    exact h k
  have hlist := congrArg Std.ExtTreeMap.toList hmap
  rwa [Std.ExtTreeMap.toList_map, Std.ExtTreeMap.toList_map] at hlist

theorem Event.toJson_normalize_congr {e : Event} {payload payload' : Dict Json}
    (h : SamePayload payload payload') :
    ({ e with payload := payload } : Event).toJson.normalize =
      ({ e with payload := payload' } : Event).toJson.normalize := by
  have hentries := h.entries
  have hopt : (optMap "payload" payload.toList).map (fun p => (p.1, Json.normalize p.2)) =
      (optMap "payload" payload'.toList).map (fun p => (p.1, Json.normalize p.2)) := by
    have hobj := normalize_obj_congr hentries
    have hnil : payload.toList = [] ↔ payload'.toList = [] := by
      have hlen := congrArg List.length hentries
      simp only [List.length_map] at hlen
      rw [← List.length_eq_zero_iff, ← List.length_eq_zero_iff, hlen]
    unfold optMap
    by_cases hp : payload.toList = []
    · rw [if_pos hp, if_pos (hnil.1 hp)]
    · rw [if_neg hp, if_neg (fun hq => hp (hnil.2 hq))]
      simp [hobj]
  rw [Event.toJson, Event.toJson]
  apply normalize_obj_congr
  unfold Event.jsonFields
  simp only [List.map_append, hopt]

theorem Event.canonicalJSON_congr {e : Event} {payload payload' : Dict Json}
    (h : SamePayload payload payload') :
    ({ e with payload := payload } : Event).canonicalJSON =
      ({ e with payload := payload' } : Event).canonicalJSON := by
  unfold Event.canonicalJSON Json.canonicalJSON
  rw [Event.toJson_normalize_congr h]

end AuditGovernance
