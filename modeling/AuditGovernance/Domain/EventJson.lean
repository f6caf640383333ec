import AuditGovernance.Domain.Numbers

/-! # Events and their JSON

    Which parts of an event's JSON can hold arbitrary numbers: the payload and
    the changed fields. All others are texts, times and integers, so replacing
    number literals in the JSON of an event gives the JSON of an event
    (`Event.toJson_mapNumbers`).
-/

namespace AuditGovernance

open FiniteMap Json

/-! ## Section 1: Numbers inside events -/

def FieldChange.mapNumbers (f : String → String) (c : FieldChange) : FieldChange :=
  { before := c.before.mapNumbers f, after := c.after.mapNumbers f }

/-- The event with the numbers of its payload and its changed fields
    replaced. -/
def Event.mapNumbers (f : String → String) (e : Event) : Event :=
  { e with
    payload := e.payload.map (fun _ v => v.mapNumbers f)
    changedFields := e.changedFields.map (fun _ c => c.mapNumbers f) }

namespace Json

variable (f : String → String)

theorem mapFields_append (a b : List (String × Json)) :
    mapFields f (a ++ b) = mapFields f a ++ mapFields f b := by
  simp only [mapFields_eq_map, List.map_append]

theorem mapFields_field (name : String) (v : Json) :
    mapFields f (field name v) = field name (mapNumbers f v) := rfl

theorem mapFields_optText (name text : String) :
    mapFields f (optText name text) = optText name text := by
  unfold optText
  split_ifs <;> rfl

theorem mapFields_optInt (name : String) {n : Int} (h : n ≠ 0 → f (Int.repr n) = Int.repr n) :
    mapFields f (optInt name n) = optInt name n := by
  unfold optInt
  split_ifs with hn
  · rfl
  · simp [mapFields, mapNumbers, int, h hn]

theorem mapNumbers_eq_null {v : Json} : mapNumbers f v = .null ↔ v = .null := by
  cases v <;> simp [mapNumbers]

theorem mapFields_optValue (name : String) (v : Json) :
    mapFields f (optValue name v) = optValue name (mapNumbers f v) := by
  unfold optValue
  simp only [mapNumbers_eq_null]
  split_ifs <;> rfl

theorem mapFields_optList (name : String) (items : List Json) :
    mapFields f (optList name items) = optList name (items.map (mapNumbers f)) := by
  unfold optList
  simp only [List.map_eq_nil_iff]
  split_ifs
  · rfl
  · simp [mapFields, mapNumbers, mapItems_eq_map]

theorem mapFields_optMap (name : String) (fields : List (String × Json)) :
    mapFields f (optMap name fields) =
      optMap name (fields.map (fun p => (p.1, mapNumbers f p.2))) := by
  unfold optMap
  simp only [List.map_eq_nil_iff]
  split_ifs
  · rfl
  · simp [mapFields, mapNumbers, mapFields_eq_map]

end Json

theorem Actor.toJson_mapNumbers (f : String → String) (a : Actor) :
    a.toJson.mapNumbers f = a.toJson := by
  simp [Actor.toJson, Json.mapNumbers, mapFields_append, mapFields_field, mapFields_optText,
    mapFields_optList, List.map_map, Function.comp_def]

theorem Target.toJson_mapNumbers (f : String → String) (t : Target) :
    t.toJson.mapNumbers f = t.toJson := by
  simp [Target.toJson, Json.mapNumbers, mapFields_append, mapFields_field, mapFields_optText]

theorem FieldChange.toJson_mapNumbers (f : String → String) (c : FieldChange) :
    c.toJson.mapNumbers f = (c.mapNumbers f).toJson := by
  simp [FieldChange.toJson, FieldChange.mapNumbers, Json.mapNumbers, mapFields_append,
    mapFields_optValue]

/-- The integers of an event are left alone. -/
structure Event.FixesIntegers (f : String → String) (e : Event) : Prop where
  schemaVersion : f (Int.repr e.schemaVersion) = Int.repr e.schemaVersion
  aggregateVersion : e.aggregateVersion ≠ 0 →
    f (Int.repr e.aggregateVersion) = Int.repr e.aggregateVersion
  sequence : e.sequence ≠ 0 → f (Int.repr e.sequence) = Int.repr e.sequence

theorem Event.toJson_mapNumbers {f : String → String} {e : Event} (h : e.FixesIntegers f) :
    e.toJson.mapNumbers f = (e.mapNumbers f).toJson := by
  have htime : ∀ t : Time, (time t).mapNumbers f = time t := fun _ => rfl
  have htext : ∀ text : String, (Json.str text).mapNumbers f = .str text := fun _ => rfl
  have hschema : (int e.schemaVersion).mapNumbers f = int e.schemaVersion := by
    rw [int, Json.mapNumbers, h.schemaVersion]
  have htargets : (e.targets.map Target.toJson).map (Json.mapNumbers f) =
      e.targets.map Target.toJson := by
    rw [List.map_map]
    exact List.map_congr_left (fun t _ => Target.toJson_mapNumbers f t)
  have hchanges : (e.changedFields.toList.map (fun p => (p.1, p.2.toJson))).map
      (fun p => (p.1, p.2.mapNumbers f)) =
      (e.changedFields.map (fun _ c => c.mapNumbers f)).toList.map (fun p => (p.1, p.2.toJson)) := by
    rw [Std.ExtTreeMap.toList_map, List.map_map, List.map_map]
    apply List.map_congr_left
    intro p _
    simp only [Function.comp_apply, FieldChange.toJson_mapNumbers]
  have hpayload : e.payload.toList.map (fun p => (p.1, p.2.mapNumbers f)) =
      (e.payload.map (fun _ v => v.mapNumbers f)).toList := by
    rw [Std.ExtTreeMap.toList_map]
  unfold Event.toJson Event.jsonFields Event.mapNumbers
  rw [Json.mapNumbers]
  simp only [mapFields_append, mapFields_field, mapFields_optText, mapFields_optList,
    mapFields_optMap, mapFields_optInt f _ h.aggregateVersion, mapFields_optInt f _ h.sequence,
    htime, htext, hschema, htargets, hchanges, hpayload, Actor.toJson_mapNumbers]

/-! ## Section 2: Looking up fields -/

namespace Json

theorem lookup_cons_ite (k l : String) (w : Json) (rest : List (String × Json)) :
    ((l, w) :: rest).lookup k = if k = l then some w else rest.lookup k := by
  by_cases h : k = l
  · simp [h]
  · have hbeq : (k == l) = false := by simpa using h
    rw [List.lookup_cons, hbeq, if_neg h]

theorem lookup_eq_none {fields : List (String × Json)} {k : String}
    (h : ∀ p ∈ fields, p.1 ≠ k) : fields.lookup k = none := by
  rw [List.lookup_eq_none_iff]
  intro p hp
  simpa using (h p hp).symm

theorem lookup_insertField {fields : List (String × Json)} (hs : FieldsSorted fields)
    (k l : String) (v : Json) :
    (insertField l v fields).lookup k =
      if k = l then some ((fields.lookup k).getD v) else fields.lookup k := by
  induction fields with
  | nil => exact lookup_cons_ite k l v []
  | cons p rest ih =>
    obtain ⟨m, w⟩ := p
    obtain ⟨hhead, hrest⟩ := List.pairwise_cons.1 hs
    simp only [insertField]
    by_cases hlt : l < m
    · -- a new first key: nothing behind it equals it
      have hnone : ((m, w) :: rest).lookup l = none := by
        apply lookup_eq_none
        intro q hq
        rcases List.mem_cons.1 hq with rfl | hq
        · exact hlt.ne'
        · exact (lt_trans hlt (hhead q hq)).ne'
      rw [if_pos hlt, lookup_cons_ite]
      by_cases hk : k = l
      · rw [if_pos hk, if_pos hk, hk, hnone]
        rfl
      · rw [if_neg hk, if_neg hk]
    by_cases heq : l = m
    · subst heq
      rw [if_neg hlt, if_pos rfl, lookup_cons_ite]
      by_cases hk : k = l
      · rw [if_pos hk, if_pos hk]
        rfl
      · rw [if_neg hk, if_neg hk]
    · rw [if_neg hlt, if_neg heq, lookup_cons_ite, lookup_cons_ite, ih hrest]
      by_cases hm : k = m
      · have hk : k ≠ l := fun hk => heq (hk.symm.trans hm)
        rw [if_pos hm, if_pos hm, if_neg hk]
      · rw [if_neg hm, if_neg hm]

/-- Sorting keeps every field of an object without repeated keys. -/
theorem lookup_normalizeFields {fields : List (String × Json)}
    (h : (fields.map Prod.fst).Nodup) (k : String) :
    (normalizeFields fields).lookup k = (fields.lookup k).map Json.normalize := by
  induction fields with
  | nil => rfl
  | cons p rest ih =>
    obtain ⟨l, v⟩ := p
    rw [List.map_cons, List.nodup_cons] at h
    rw [normalizeFields, lookup_insertField (fieldsSorted_normalizeFields rest), ih h.2]
    by_cases hk : k = l
    · subst hk
      have hnone : rest.lookup k = none :=
        lookup_eq_none (fun q hq heq => h.1 (List.mem_map.2 ⟨q, hq, heq⟩))
      rw [if_pos rfl, hnone, lookup_cons_ite, if_pos rfl]
      rfl
    · rw [if_neg hk, lookup_cons_ite, if_neg hk]

theorem lookup_mem {fields : List (String × Json)} {k : String} {v : Json}
    (h : fields.lookup k = some v) : (k, v) ∈ fields := by
  induction fields with
  | nil => cases h
  | cons p rest ih =>
    obtain ⟨l, w⟩ := p
    rw [lookup_cons_ite] at h
    split_ifs at h with hk
    · cases h
      rw [hk]
      exact List.mem_cons_self
    · exact List.mem_cons_of_mem _ (ih h)

/-- A part of an object whose keys are among these names. -/
def KeysAmong (names : List String) (fields : List (String × Json)) : Prop :=
  (fields.map Prod.fst).Sublist names

theorem KeysAmong.append {names names' : List String} {fields fields' : List (String × Json)}
    (h : KeysAmong names fields) (h' : KeysAmong names' fields') :
    KeysAmong (names ++ names') (fields ++ fields') := by
  unfold KeysAmong
  rw [List.map_append]
  exact List.Sublist.append h h'

theorem keysAmong_field (name : String) (v : Json) : KeysAmong [name] (field name v) :=
  List.Sublist.refl _

theorem keysAmong_optText (name text : String) : KeysAmong [name] (optText name text) := by
  unfold KeysAmong optText
  split_ifs <;> simp

theorem keysAmong_optInt (name : String) (n : Int) : KeysAmong [name] (optInt name n) := by
  unfold KeysAmong optInt
  split_ifs <;> simp

theorem keysAmong_optValue (name : String) (v : Json) : KeysAmong [name] (optValue name v) := by
  unfold KeysAmong optValue
  split_ifs <;> simp

theorem keysAmong_optList (name : String) (items : List Json) :
    KeysAmong [name] (optList name items) := by
  unfold KeysAmong optList
  split_ifs <;> simp

theorem keysAmong_optMap (name : String) (fields : List (String × Json)) :
    KeysAmong [name] (optMap name fields) := by
  unfold KeysAmong optMap
  split_ifs <;> simp

theorem lookup_field (name : String) (v : Json) (k : String) :
    (field name v).lookup k = if k = name then some v else none :=
  lookup_cons_ite k name v []

/-- What an optional text leaves in an object. -/
def textField (text : String) : Option Json := if text = "" then none else some (.str text)

def intField (n : Int) : Option Json := if n = 0 then none else some (int n)

def valueField (v : Json) : Option Json := if v = .null then none else some v

def listField (items : List Json) : Option Json := if items = [] then none else some (.arr items)

def mapField (fields : List (String × Json)) : Option Json :=
  if fields = [] then none else some (.obj fields)

theorem lookup_optText (name text k : String) :
    (optText name text).lookup k = if k = name then textField text else none := by
  unfold optText textField
  split_ifs with ht hk hk <;> simp [hk]

theorem lookup_optInt (name : String) (n : Int) (k : String) :
    (optInt name n).lookup k = if k = name then intField n else none := by
  unfold optInt intField
  split_ifs with hn hk hk <;> simp [hk]

theorem lookup_optValue (name : String) (v : Json) (k : String) :
    (optValue name v).lookup k = if k = name then valueField v else none := by
  unfold optValue valueField
  split_ifs with hv hk hk <;> simp [hk]

theorem lookup_optList (name : String) (items : List Json) (k : String) :
    (optList name items).lookup k = if k = name then listField items else none := by
  unfold optList listField
  split_ifs with hi hk hk <;> simp [hk]

theorem lookup_optMap (name : String) (fields : List (String × Json)) (k : String) :
    (optMap name fields).lookup k = if k = name then mapField fields else none := by
  unfold optMap mapField
  split_ifs with hf hk hk <;> simp [hk]

end Json

/-- The JSON names of the fields of an event. -/
def Event.fieldNames : List String :=
  ["event_id", "tenant_id", "source_system", "event_type", "schema_id", "schema_version",
    "occurred_at", "received_at", "operation_id", "causation_id", "correlation_id", "trace_id",
    "span_id", "actor", "targets", "aggregate_type", "aggregate_id", "aggregate_version",
    "workflow_instance_id", "execution_run_id", "action", "outcome", "reason", "changed_fields",
    "payload", "payload_ref", "source_digest", "data_classification", "retention_class",
    "idempotency_key", "stream_id", "sequence", "prev_hash", "hash", "server_version"]

theorem Event.keysAmong (e : Event) : KeysAmong Event.fieldNames e.jsonFields := by
  obtain ⟨names, hkeys, rfl⟩ :
      ∃ names, KeysAmong names e.jsonFields ∧ Event.fieldNames = names := by
    unfold Event.jsonFields
    apply Exists.intro
    apply And.intro
    · -- the names are collected part by part
      with_reducible
        repeat' first
          | apply KeysAmong.append
          | exact keysAmong_field _ _
          | exact keysAmong_optText _ _
          | exact keysAmong_optInt _ _
          | exact keysAmong_optList _ _
          | exact keysAmong_optMap _ _
    · rfl
  exact hkeys

/-- No field name is written twice. -/
theorem Event.nodup_keys (e : Event) : (e.jsonFields.map Prod.fst).Nodup :=
  List.Nodup.sublist e.keysAmong (by decide)

theorem Event.lookup_normalize {e : Event} {k : String} {v : Json}
    (h : e.jsonFields.lookup k = some v) :
    (normalizeFields e.jsonFields).lookup k = some v.normalize := by
  rw [lookup_normalizeFields e.nodup_keys, h, Option.map_some]

theorem Event.numbers_of_lookup {e : Event} {k : String} {n : Int}
    (h : e.jsonFields.lookup k = some (int n)) : Int.repr n ∈ e.toJson.normalize.numbers := by
  have hmem := lookup_mem (Event.lookup_normalize h)
  rw [Event.toJson, Json.normalize, numbers, mem_numbersOfFields]
  exact ⟨_, hmem, by simp [int, Json.normalize, numbers]⟩

theorem Event.lookup_schemaVersion (e : Event) :
    e.jsonFields.lookup "schema_version" = some (int e.schemaVersion) := by
  unfold Event.jsonFields
  simp [List.lookup_append, lookup_field]

theorem Event.lookup_aggregateVersion {e : Event} (h : e.aggregateVersion ≠ 0) :
    e.jsonFields.lookup "aggregate_version" = some (int e.aggregateVersion) := by
  unfold Event.jsonFields
  simp [List.lookup_append, lookup_field, lookup_optText, lookup_optInt,
    lookup_optList, intField, h]

theorem Event.lookup_sequence {e : Event} (h : e.sequence ≠ 0) :
    e.jsonFields.lookup "sequence" = some (int e.sequence) := by
  unfold Event.jsonFields
  simp [List.lookup_append, lookup_field, lookup_optText, lookup_optInt,
    lookup_optList, lookup_optMap, intField, h]

/-- The integers of an event are among its number literals. -/
theorem Event.fixesIntegers {e : Event} {f : String → String}
    (h : ∀ n : Int, Int.repr n ∈ e.toJson.normalize.numbers → f (Int.repr n) = Int.repr n) :
    e.FixesIntegers f where
  schemaVersion := h _ (Event.numbers_of_lookup e.lookup_schemaVersion)
  aggregateVersion := fun hne => h _ (Event.numbers_of_lookup (Event.lookup_aggregateVersion hne))
  sequence := fun hne => h _ (Event.numbers_of_lookup (Event.lookup_sequence hne))

/-! ## Section 3: Decoding

    `json.Unmarshal` into the types of `internal/domain/models.go`. A missing
    field and `null` leave the zero value; anything of the wrong kind is an
    error. Integers are unbounded here. -/

namespace Json

def readText : Option Json → Option String
  | none | some .null => some ""
  | some (.str text) => some text
  | _ => none

/-- `strconv.ParseInt` of a number literal. -/
def parseInt (literal : String) : Option Int :=
  match parseJSONNumber literal.toList with
  | some ⟨negative, integer, [], []⟩ =>
    some (if negative then -(Decimal.value integer : Int) else Decimal.value integer)
  | _ => none

def readInt : Option Json → Option Int
  | none | some .null => some 0
  | some (.num literal) => parseInt literal
  | _ => none

/-- A time by a reader of its text. -/
def readTime (instant : String → Option Time) : Option Json → Option Time
  | none | some .null => some 0
  | some (.str text) => instant text
  | _ => none

/-- An interface value takes whatever is there. -/
def readValue : Option Json → Json
  | none => .null
  | some v => v

section Containers

variable {α : Type} (read : Json → Option α)

def readList : Option Json → Option (List α)
  | none | some .null => some []
  | some (.arr items) => items.mapM read
  | _ => none

def readMap : Option Json → Option (Dict α)
  | none | some .null => some ∅
  | some (.obj fields) =>
    (fields.mapM (fun p => (read p.2).map (fun v => (p.1, v)))).map
      (collectList (fun _ v => some v))
  | _ => none

/-- A struct reads its fields; `null` leaves it as it is. -/
def readStruct [Inhabited α] (read : List (String × Json) → Option α) : Json → Option α
  | .null => some default
  | .obj fields => read fields
  | _ => none

end Containers

end Json

def Actor.readFields (fields : List (String × Json)) : Option Actor := do
  let id ← readText (fields.lookup "id")
  let type ← readText (fields.lookup "type")
  let name ← readText (fields.lookup "name")
  let department ← readText (fields.lookup "department")
  let roles ← readList (fun v => readText (some v)) (fields.lookup "roles")
  some { id := id, type := type, name := name, department := department, roles := roles }

def Target.readFields (fields : List (String × Json)) : Option Target := do
  let type ← readText (fields.lookup "type")
  let id ← readText (fields.lookup "id")
  let name ← readText (fields.lookup "name")
  some { type := type, id := id, name := name }

def FieldChange.readFields (fields : List (String × Json)) : Option FieldChange :=
  some { before := readValue (fields.lookup "before"), after := readValue (fields.lookup "after") }

def Event.readFields (instant : String → Option Time) (fields : List (String × Json)) :
    Option Event := do
  let eventID ← readText (fields.lookup "event_id")
  let tenantID ← readText (fields.lookup "tenant_id")
  let sourceSystem ← readText (fields.lookup "source_system")
  let eventType ← readText (fields.lookup "event_type")
  let schemaID ← readText (fields.lookup "schema_id")
  let schemaVersion ← readInt (fields.lookup "schema_version")
  let occurredAt ← readTime instant (fields.lookup "occurred_at")
  let receivedAt ← readTime instant (fields.lookup "received_at")
  let operationID ← readText (fields.lookup "operation_id")
  let causationID ← readText (fields.lookup "causation_id")
  let correlationID ← readText (fields.lookup "correlation_id")
  let traceID ← readText (fields.lookup "trace_id")
  let spanID ← readText (fields.lookup "span_id")
  let actor ← readStruct Actor.readFields (readValue (fields.lookup "actor"))
  let targets ← readList (readStruct Target.readFields) (fields.lookup "targets")
  let aggregateType ← readText (fields.lookup "aggregate_type")
  let aggregateID ← readText (fields.lookup "aggregate_id")
  let aggregateVersion ← readInt (fields.lookup "aggregate_version")
  let workflowInstanceID ← readText (fields.lookup "workflow_instance_id")
  let executionRunID ← readText (fields.lookup "execution_run_id")
  let action ← readText (fields.lookup "action")
  let outcome ← readText (fields.lookup "outcome")
  let reason ← readText (fields.lookup "reason")
  let changedFields ← readMap (readStruct FieldChange.readFields) (fields.lookup "changed_fields")
  let payload ← readMap some (fields.lookup "payload")
  let payloadRef ← readText (fields.lookup "payload_ref")
  let sourceDigest ← readText (fields.lookup "source_digest")
  let dataClassification ← readText (fields.lookup "data_classification")
  let retentionClass ← readText (fields.lookup "retention_class")
  let idempotencyKey ← readText (fields.lookup "idempotency_key")
  let streamID ← readText (fields.lookup "stream_id")
  let sequence ← readInt (fields.lookup "sequence")
  let prevHash ← readText (fields.lookup "prev_hash")
  let hash ← readText (fields.lookup "hash")
  let serverVersion ← readText (fields.lookup "server_version")
  some
    { eventID, tenantID, sourceSystem, eventType, schemaID, schemaVersion, occurredAt, receivedAt
      operationID, causationID, correlationID, traceID, spanID, actor, targets, aggregateType
      aggregateID, aggregateVersion, workflowInstanceID, executionRunID, action, outcome, reason
      changedFields, payload, payloadRef, sourceDigest, dataClassification, retentionClass
      idempotencyKey, streamID, sequence, prevHash, hash, serverVersion }

/-- An event from its JSON text. -/
def Event.decode (text : String) : Option Event :=
  (Json.decode text).bind (readStruct (Event.readFields Timestamp.parse))

/-! ### Events are read back -/

namespace Json

theorem readText_textField (text : String) :
    readText ((textField text).map Json.normalize) = some text := by
  unfold textField
  split_ifs with h
  · rw [h]
    rfl
  · rfl

theorem readText_str (text : String) : readText (some (str text).normalize) = some text := rfl

theorem parseInt_repr (n : Int) : parseInt (Int.repr n) = some n := by
  have hvalue : Decimal.value (Nat.toDigits 10 n.natAbs) = n.natAbs :=
    Nat.ofDigitChars_toDigits (by decide) (by decide)
  rw [parseInt, parse_intRepr]
  simp only [hvalue, decide_eq_true_eq]
  congr 1
  split_ifs <;> omega

theorem readInt_int (n : Int) : readInt (some (Json.normalize (int n))) = some n := parseInt_repr n

theorem readInt_intField (n : Int) : readInt ((intField n).map Json.normalize) = some n := by
  unfold intField
  split_ifs with h
  · rw [h]
    rfl
  · exact readInt_int n

theorem readTime_time {instant : String → Option Time} {t : Time}
    (h : instant (Timestamp.format t) = some t) :
    readTime instant (some (Json.normalize (time t))) = some t := h

theorem readValue_valueField (v : Json) :
    readValue ((valueField v).map Json.normalize) = v.normalize := by
  unfold valueField
  split_ifs with h
  · rw [h]
    rfl
  · rfl

section Containers

variable {α β : Type} {read : Json → Option α}

theorem mapM_some {f : β → Json} {g : β → α} (l : List β)
    (h : ∀ x ∈ l, read (f x) = some (g x)) : (l.map f).mapM read = some (l.map g) := by
  induction l with
  | nil => rfl
  | cons x rest ih =>
    rw [List.map_cons, List.mapM_cons, h x (by simp), ih (fun y hy => h y (by simp [hy]))]
    rfl

theorem readList_listField (read : Json → Option α) (f : β → Json) (g : β → α) (l : List β)
    (h : ∀ x ∈ l, read (f x).normalize = some (g x)) :
    readList read ((listField (l.map f)).map Json.normalize) = some (l.map g) := by
  unfold listField
  split_ifs with hnil
  · rw [List.map_eq_nil_iff.1 hnil]
    rfl
  · have hitems : Json.normalize (.arr (l.map f)) =
        .arr (l.map (fun x => (f x).normalize)) := by
      rw [Json.normalize, normalizeItems_eq_map, List.map_map]
      rfl
    rw [Option.map_some, hitems]
    exact mapM_some l h

/-- Reading the entries of a map gives the map with its values read. -/
theorem readMap_mapField (read : Json → Option α) (f : β → Json) (g : β → α) (m : Dict β)
    (h : ∀ (k : String) v, m[k]? = some v → read (f v).normalize = some (g v)) :
    readMap read ((mapField (m.toList.map (fun p => (p.1, f p.2)))).map Json.normalize) =
      some (m.map (fun _ v => g v)) := by
  have hread : (m.toList.map (fun p => (p.1, (f p.2).normalize))).mapM
      (fun p => (read p.2).map (fun v => (p.1, v))) =
      some (m.toList.map (fun p => (p.1, g p.2))) := by
    have hall : ∀ p ∈ m.toList, read (f p.2).normalize = some (g p.2) :=
      fun p hp => h p.1 p.2 (mem_entries.1 hp)
    generalize m.toList = entries at hall
    induction entries with
    | nil => rfl
    | cons p rest ih =>
      rw [List.map_cons, List.mapM_cons, hall p (by simp), ih (fun q hq => hall q (by simp [hq]))]
      rfl
  have hcollect : collectList (fun _ v => some v) (m.toList.map (fun p => (p.1, g p.2))) =
      m.map (fun _ v => g v) := by
    have hdistinct : (m.toList.map (fun p => (p.1, g p.2))).Pairwise
        (fun a b => a.1 ≠ b.1) := List.pairwise_map.2 (entries_distinct m)
    apply ext_lookup
    intro k
    apply Option.ext
    intro w
    rw [lookup_collectList _ hdistinct, Std.ExtTreeMap.getElem?_map, Option.map_eq_some_iff]
    constructor
    · rintro ⟨v, hv, hw⟩
      cases hw
      obtain ⟨q, hq, heq⟩ := List.mem_map.1 hv
      cases heq
      exact ⟨q.2, mem_entries.1 hq, rfl⟩
    · rintro ⟨v, hv, rfl⟩
      exact ⟨g v, List.mem_map.2 ⟨(k, v), mem_entries.2 hv, rfl⟩, rfl⟩
  unfold mapField
  split_ifs with hnil
  · have hempty : m.toList = [] := List.map_eq_nil_iff.1 hnil
    rw [← hcollect, hempty]
    rfl
  · have hsorted : FieldsSorted (m.toList.map (fun p => (p.1, f p.2))) :=
      List.pairwise_map.2 (keysSorted_entries m)
    rw [Option.map_some, Json.normalize, normalizeFields_of_keysSorted hsorted, List.map_map]
    simp only [readMap, Function.comp_def, hread, Option.map_some, hcollect]

end Containers

end Json

theorem Actor.read_toJson (a : Actor) :
    readStruct Actor.readFields a.toJson.normalize = some a := by
  have hkeys : KeysAmong (["id"] ++ ["type"] ++ ["name"] ++ ["department"] ++ ["roles"])
      (field "id" (.str a.id) ++ optText "type" a.type ++ optText "name" a.name ++
        optText "department" a.department ++ optList "roles" (a.roles.map .str)) :=
    ((((keysAmong_field _ _).append (keysAmong_optText _ _)).append (keysAmong_optText _ _)).append
      (keysAmong_optText _ _)).append (keysAmong_optList _ _)
  have hnodup := List.Nodup.sublist hkeys (by decide)
  have hroles : readList (fun v => readText (some v))
      ((listField (a.roles.map .str)).map Json.normalize) = some a.roles := by
    have hlist := readList_listField (fun v => readText (some v)) Json.str (fun role => role)
      a.roles (fun _ _ => rfl)
    rwa [List.map_id'] at hlist
  rw [Actor.toJson, Json.normalize, readStruct, Actor.readFields]
  simp only [lookup_normalizeFields hnodup]
  simp [List.lookup_append, lookup_field, lookup_optText, lookup_optList, readText_textField,
    hroles]
  rfl

theorem Target.read_toJson (t : Target) :
    readStruct Target.readFields t.toJson.normalize = some t := by
  have hkeys : KeysAmong (["type"] ++ ["id"] ++ ["name"])
      (field "type" (.str t.type) ++ field "id" (.str t.id) ++ optText "name" t.name) :=
    ((keysAmong_field _ _).append (keysAmong_field _ _)).append (keysAmong_optText _ _)
  have hnodup := List.Nodup.sublist hkeys (by decide)
  rw [Target.toJson, Json.normalize, readStruct, Target.readFields]
  simp only [lookup_normalizeFields hnodup]
  simp [List.lookup_append, lookup_field, lookup_optText, readText_textField]
  rfl

/-- The change with its values in normal form. -/
def FieldChange.normalized (c : FieldChange) : FieldChange :=
  { before := c.before.normalize, after := c.after.normalize }

theorem FieldChange.read_toJson (c : FieldChange) :
    readStruct FieldChange.readFields c.toJson.normalize = some c.normalized := by
  have hkeys : KeysAmong (["before"] ++ ["after"])
      (optValue "before" c.before ++ optValue "after" c.after) :=
    (keysAmong_optValue _ _).append (keysAmong_optValue _ _)
  have hnodup := List.Nodup.sublist hkeys (by decide)
  rw [FieldChange.toJson, Json.normalize, readStruct, FieldChange.readFields]
  simp only [lookup_normalizeFields hnodup]
  simp [List.lookup_append, lookup_optValue, readValue_valueField, FieldChange.normalized]

/-- The event with its payload and its changed fields in normal form. -/
def Event.normalized (e : Event) : Event :=
  { e with
    payload := e.payload.map (fun _ v => v.normalize)
    changedFields := e.changedFields.map (fun _ c => c.normalized) }

theorem Event.read_toJson {instant : String → Option Time} {e : Event}
    (ho : instant (Timestamp.format e.occurredAt) = some e.occurredAt)
    (hr : instant (Timestamp.format e.receivedAt) = some e.receivedAt) :
    readStruct (Event.readFields instant) e.toJson.normalize = some e.normalized := by
  have htargets : readList (readStruct Target.readFields)
      ((listField (e.targets.map Target.toJson)).map Json.normalize) = some e.targets := by
    have hlist := readList_listField (readStruct Target.readFields) Target.toJson (fun t => t)
      e.targets (fun t _ => t.read_toJson)
    rwa [List.map_id'] at hlist
  have hchanges := readMap_mapField (readStruct FieldChange.readFields) FieldChange.toJson
    FieldChange.normalized e.changedFields (fun _ c _ => c.read_toJson)
  have hpayload := readMap_mapField some (fun v => v) Json.normalize e.payload (fun _ _ _ => rfl)
  have hactor : readStruct Actor.readFields (readValue (some e.actor.toJson.normalize))
      = some e.actor := e.actor.read_toJson
  have hentries : e.payload.toList.map (fun p => (p.1, p.2)) = e.payload.toList := List.map_id' _
  rw [hentries] at hpayload
  rw [Event.toJson, Json.normalize, readStruct, Event.readFields]
  simp only [lookup_normalizeFields e.nodup_keys]
  unfold Event.jsonFields
  simp [List.lookup_append, lookup_field, lookup_optText, lookup_optList, lookup_optInt,
    lookup_optMap, readText_textField, readInt_int, readInt_intField, readTime_time ho,
    readTime_time hr, htargets, hchanges, hpayload, readText_str, hactor]
  rfl

theorem Event.lookup_times (e : Event) :
    e.jsonFields.lookup "occurred_at" = some (time e.occurredAt) ∧
      e.jsonFields.lookup "received_at" = some (time e.receivedAt) := by
  unfold Event.jsonFields
  constructor
  · simp [List.lookup_append, lookup_field]
  · simp [List.lookup_append, lookup_field]

/-- What canonical JSON does to an event: numbers in their canonical spelling,
    objects in normal form. -/
def Event.canonical (e : Event) : Event := (e.mapNumbers (rewritten writeNumber)).normalized

theorem Event.canonicalJSON_ok {e : Event} {text : String} (h : e.canonicalJSON = .ok text) :
    ∃ w : Json, w.valid = true ∧ text = w.toText ∧
      w = (e.mapNumbers (rewritten writeNumber)).toJson.normalize := by
  unfold Event.canonicalJSON Json.canonicalJSON at h
  cases hw : rewriteNumbers writeNumber e.toJson.normalize with
  | error err => rw [hw] at h; cases h
  | ok w =>
    rw [hw] at h
    have htext : w.toText = text := Except.ok.inj h
    have hvalid := valid_of_writeNumber hw
    have hfixes : e.FixesIntegers (rewritten writeNumber) := by
      apply Event.fixesIntegers
      intro n hn
      exact writeNumber_int (rewriteNumbers_ok _ _ hw _ hn)
    refine ⟨w, hvalid, htext.symm, ?_⟩
    rw [rewriteNumbers_eq_map hw, mapNumbers_normalize, Event.toJson_mapNumbers hfixes]

end AuditGovernance
