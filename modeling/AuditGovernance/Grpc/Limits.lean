import AuditGovernance.Domain.CanonicalValue
import AuditGovernance.Framework.Ranging
import AuditGovernance.Service.Schemas

/-! # Size limits on gRPC and on HTTP

    The gRPC server checks an envelope before it converts it
    (`internal/grpcapi/limits.go`, `server.go`); HTTP checks the decoded event
    (`ValidateEventCaps`, `internal/domain/limits.go`).

    gRPC checks the names of all changed fields and then all values; HTTP goes
    field by field in the order of names, and they word a value with an
    unsupported number differently. They accept the same, and they say the
    same exactly when the first limit that is broken is the same size in both
    orders (`size_limits_agree_iff`).
-/

namespace AuditGovernance

namespace Grpc

open FiniteMap

/-! ## Section 1: Envelopes -/

/-- `ChangedField` of the protobuf schema. -/
structure ChangedField where
  field : String := ""
  beforeJSON : String := ""
  afterJSON : String := ""
deriving DecidableEq

/-- `EventEnvelope` of the protobuf schema. Actors and targets have the fields of
    the domain types. -/
structure EventEnvelope where
  eventID : String := ""
  sourceSystem : String := ""
  eventType : String := ""
  schemaID : String := ""
  schemaVersion : Int := 0
  /-- Seconds since 1970 and nanoseconds. -/
  occurredAt : Option (Int × Int) := none
  operationID : String := ""
  causationID : String := ""
  correlationID : String := ""
  traceID : String := ""
  spanID : String := ""
  actor : Option Actor := none
  targets : List Target := []
  aggregateType : String := ""
  aggregateID : String := ""
  aggregateVersion : Int := 0
  workflowInstanceID : String := ""
  executionRunID : String := ""
  action : String := ""
  outcome : String := ""
  reason : String := ""
  changedFields : List ChangedField := []
  payloadJSON : String := ""
  payloadRef : String := ""
  dataClassification : String := ""
  retentionClass : String := ""
  idempotencyKey : String := ""

def maxActorRoles : Nat := 64

def maxTargetsPerEvent : Nat := 64

def maxChangedFields : Nat := 256

/-! ## Section 2: The checks of gRPC -/

/-- Texts with their names, checked in order. -/
def checkStrings (fields : List (String × String)) : List (Except Err Unit) :=
  fields.map fun f => checkString f.1 f.2

def actorStrings (actor : Actor) : List (String × String) :=
  [("actor.id", actor.id), ("actor.type", actor.type), ("actor.name", actor.name),
    ("actor.department", actor.department)] ++ actor.roles.map fun role => ("actor.roles[]", role)

def targetStrings (target : Target) : List (String × String) :=
  [("target.type", target.type), ("target.id", target.id), ("target.name", target.name)]

/-- The texts of an envelope, in the order they are checked in. -/
def envelopeStrings (input : EventEnvelope) : List (String × String) :=
  [("event_id", input.eventID), ("source_system", input.sourceSystem),
    ("event_type", input.eventType), ("schema_id", input.schemaID),
    ("operation_id", input.operationID), ("causation_id", input.causationID),
    ("correlation_id", input.correlationID), ("trace_id", input.traceID),
    ("span_id", input.spanID), ("aggregate_type", input.aggregateType),
    ("aggregate_id", input.aggregateID), ("action", input.action), ("outcome", input.outcome),
    ("reason", input.reason), ("payload_ref", input.payloadRef),
    ("data_classification", input.dataClassification), ("retention_class", input.retentionClass),
    ("idempotency_key", input.idempotencyKey),
    ("workflow_instance_id", input.workflowInstanceID), ("execution_run_id", input.executionRunID)]

/-- What `validateEnvelopeCaps` checks before the names of changed fields. -/
def envelopeHead (input : EventEnvelope) : List (Except Err Unit) :=
  checkStrings (envelopeStrings input) ++
    (match input.actor with
      | none => []
      | some actor => checkStrings (actorStrings actor) ++
          [checkCount "actor.roles" actor.roles.length maxActorRoles]) ++
    [checkCount "targets" input.targets.length maxTargetsPerEvent] ++
    checkStrings (input.targets.flatMap targetStrings) ++
    [checkCount "changed_fields" input.changedFields.length maxChangedFields]

/-- `validateEnvelopeCaps`. -/
def validateEnvelopeCaps (input : EventEnvelope) : Except Err Unit :=
  checkAll (envelopeHead input ++
    input.changedFields.map fun c => checkString "changed_fields[].field" c.field)

/-- `strings.TrimPrefix`. -/
def withoutStart (start text : String) : String :=
  match text.toList.dropPrefix? start.toList with
  | some rest => String.ofList rest
  | none => text

/-- `checkCanonicalJSON`. -/
def checkCanonicalJSON (name value : String) : Except Err Unit :=
  if value = "" then .ok ()
  else
    let invalidName := withoutStart "changed_fields[]." name
    match Json.decode value with
    | none => .error (.invalid ("invalid " ++ invalidName))
    | some decoded =>
      match decoded.canonicalJSON with
      | .error _ => .error (.invalid ("invalid " ++ invalidName))
      | .ok canonical => checkString name canonical

/-- `validateChangedFieldCaps`. -/
def validateChangedFieldCaps (input : EventEnvelope) : Except Err Unit :=
  checkAll (input.changedFields.flatMap fun c =>
    [checkCanonicalJSON "changed_fields[].before_json" c.beforeJSON,
      checkCanonicalJSON "changed_fields[].after_json" c.afterJSON])

/-- The limit checks of gRPC, one after the other. -/
def grpcCaps (input : EventEnvelope) : Except Err Unit :=
  checkAll [validateEnvelopeCaps input, validateChangedFieldCaps input]

/-! ## Section 3: The checks of HTTP -/

/-- The texts of an event, in the order they are checked in. -/
def eventStrings (event : Event) : List (String × String) :=
  [("event_id", event.eventID), ("source_system", event.sourceSystem),
    ("event_type", event.eventType), ("schema_id", event.schemaID),
    ("operation_id", event.operationID), ("causation_id", event.causationID),
    ("correlation_id", event.correlationID), ("trace_id", event.traceID),
    ("span_id", event.spanID), ("aggregate_type", event.aggregateType),
    ("aggregate_id", event.aggregateID), ("action", event.action), ("outcome", event.outcome),
    ("reason", event.reason), ("payload_ref", event.payloadRef),
    ("data_classification", event.dataClassification), ("retention_class", event.retentionClass),
    ("idempotency_key", event.idempotencyKey),
    ("workflow_instance_id", event.workflowInstanceID), ("execution_run_id", event.executionRunID)]

/-- What `ValidateEventCaps` checks before the changed fields. -/
def eventHead (event : Event) : List (Except Err Unit) :=
  checkStrings (eventStrings event) ++
    (checkStrings (actorStrings event.actor) ++
      [checkCount "actor.roles" event.actor.roles.length maxActorRoles]) ++
    [checkCount "targets" event.targets.length maxTargetsPerEvent] ++
    checkStrings (event.targets.flatMap targetStrings) ++
    [checkCount "changed_fields" event.changedFields.toList.length maxChangedFields]

/-- The check of a value before or after a change; nil is skipped. -/
def checkValue (name : String) (value : Json) : List (Except Err Unit) :=
  if value = .null then []
  else
    [match value.canonicalJSON with
      | .error _ => .error (.invalid (name ++ " is invalid"))
      | .ok encoded => checkString name encoded]

/-- One changed field. -/
def checkChange (field : String) (change : FieldChange) : List (Except Err Unit) :=
  checkString "changed_fields[].field" field ::
    (checkValue "changed_fields[].before_json" change.before ++
      checkValue "changed_fields[].after_json" change.after)

/-- `ValidateEventCaps`. Dictionaries list their keys in order, which is the order
    the keys are sorted into. -/
def validateEventCaps (event : Event) : Except Err Unit :=
  checkAll (eventHead event ++
    event.changedFields.toList.flatMap fun entry => checkChange entry.1 entry.2)

/-! ## Section 4: Conversion -/

/-- `CheckValid` and `AsTime` of a protobuf timestamp. -/
def asTime (at_ : Int × Int) : Option Time :=
  if -62135596800 ≤ at_.1 ∧ at_.1 ≤ 253402300799 ∧ 0 ≤ at_.2 ∧ at_.2 ≤ 999999999 then
    some ((at_.1 + 62135596800) * 1000000000 + at_.2)
  else none

/-- A JSON text of a changed field; an empty one is no value. -/
def decodeValue (text : String) (err : Err) : Except Err Json :=
  if text = "" then .ok .null
  else
    match Json.decode text with
    | none => .error err
    | some value => .ok value

def decodeChange (c : ChangedField) : Except Err FieldChange := do
  let before ← decodeValue c.beforeJSON (.invalid "invalid before_json")
  let after ← decodeValue c.afterJSON (.invalid "invalid after_json")
  return { before := before, after := after }

/-- The loop over the changed fields. -/
def decodeChanges : List ChangedField → Dict FieldChange → Except Err (Dict FieldChange)
  | [], changes => .ok changes
  | c :: rest, changes =>
    match decodeChange c with
    | .error err => .error err
    | .ok change => decodeChanges rest (changes.insert c.field change)

/-- `payload_json`, an object or null. -/
def decodePayload (text : String) : Except Err (Dict Json) :=
  if text = "" then .ok ∅
  else
    match Json.decode text with
    | some .null => .ok ∅
    | some (.obj fields) =>
      .ok (fields.foldl (fun payload field => payload.insert field.1 field.2) ∅)
    | _ => .error (.invalid "payload_json is invalid")

/-- `fromProto` after the limit checks. -/
def fromProto (input : EventEnvelope) : Except Err Event :=
  match input.occurredAt.bind asTime with
  | none => .error (.invalid "occurred_at is invalid")
  | some occurredAt =>
    match input.actor with
    | none => .error (.invalid "actor is required")
    | some actor =>
      match decodePayload input.payloadJSON with
      | .error err => .error err
      | .ok payload =>
        (decodeChanges input.changedFields ∅).map fun changes =>
          { eventID := input.eventID, sourceSystem := input.sourceSystem
            eventType := input.eventType, schemaID := input.schemaID
            schemaVersion := input.schemaVersion, occurredAt := occurredAt
            operationID := input.operationID, causationID := input.causationID
            correlationID := input.correlationID, traceID := input.traceID
            spanID := input.spanID, actor := actor, targets := input.targets
            aggregateType := input.aggregateType, aggregateID := input.aggregateID
            aggregateVersion := input.aggregateVersion
            workflowInstanceID := input.workflowInstanceID
            executionRunID := input.executionRunID, action := input.action
            outcome := input.outcome, reason := input.reason, changedFields := changes
            payload := payload, payloadRef := input.payloadRef
            dataClassification := input.dataClassification
            retentionClass := input.retentionClass, idempotencyKey := input.idempotencyKey }

/-! ## Section 5: Limits an envelope breaks -/

/-- What of a changed field has a limit. -/
inductive Item where
  | field
  | before
  | after
deriving DecidableEq

def Item.key : Item → String
  | .field => "field"
  | .before => "before_json"
  | .after => "after_json"

/-- The name both transports give an item. -/
def Item.name (item : Item) : String := "changed_fields[]." ++ item.key

/-- A broken limit of a changed field: the text is too long, or the value has a
    number that has no canonical form. -/
inductive Overstep where
  | size (item : Item) (bytes : Nat)
  | number (item : Item)
deriving DecidableEq

def Item.ofText (item : Item) (text : String) : List Overstep :=
  if maxEnvelopeFieldBytes < text.utf8ByteSize then [.size item text.utf8ByteSize] else []

/-- The limits a JSON text breaks. -/
def Item.ofJSON (item : Item) (text : String) : List Overstep :=
  if text = "" then []
  else
    match Json.decode text with
    | none => []
    | some value =>
      match value.canonicalJSON with
      | .error _ => [.number item]
      | .ok canonical => item.ofText canonical

def ChangedField.ofName (c : ChangedField) : List Overstep := Item.field.ofText c.field

def ChangedField.ofValues (c : ChangedField) : List Overstep :=
  Item.before.ofJSON c.beforeJSON ++ Item.after.ofJSON c.afterJSON

/-- The broken limits of changed fields as they come: names, then values. -/
def inWireOrder (input : EventEnvelope) : List Overstep :=
  input.changedFields.flatMap ChangedField.ofName ++
    input.changedFields.flatMap ChangedField.ofValues

def byName (changes : List ChangedField) : List ChangedField :=
  changes.insertionSort fun a b => a.field ≤ b.field

/-- The broken limits of changed fields in the order of names. -/
def inNameOrder (input : EventEnvelope) : List Overstep :=
  (byName input.changedFields).flatMap fun c => c.ofName ++ c.ofValues

/-- A limit of anything before the changed fields, or on their number, is broken. -/
def LargeHead (input : EventEnvelope) : Prop :=
  (∃ f ∈ envelopeStrings input ++ input.actor.toList.flatMap actorStrings ++
      input.targets.flatMap targetStrings, maxEnvelopeFieldBytes < f.2.utf8ByteSize) ∨
    (∃ actor ∈ input.actor, maxActorRoles < actor.roles.length) ∨
    maxTargetsPerEvent < input.targets.length ∨ maxChangedFields < input.changedFields.length

/-- Both orders meet the same broken limit first, and it is a size. -/
def SameFirstOverstep (input : EventEnvelope) : Prop :=
  LargeHead input ∨
    ((inWireOrder input).head? = (inNameOrder input).head? ∧
      ∀ item, (inWireOrder input).head? ≠ some (.number item))

/-- How gRPC words a broken limit. -/
def Overstep.onGRPC : Overstep → Err
  | .size item bytes => .invalid ("envelope size cap exceeded: " ++ item.name ++ " is " ++
      Nat.repr bytes ++ " bytes, max " ++ Nat.repr maxEnvelopeFieldBytes)
  | .number item => .invalid ("invalid " ++ item.key)

/-- How HTTP words a broken limit. -/
def Overstep.onHTTP : Overstep → Err
  | .size item bytes => Overstep.onGRPC (.size item bytes)
  | .number item => .invalid (item.name ++ " is invalid")

theorem natRepr_inj {n m : Nat} (h : Nat.repr n = Nat.repr m) : n = m := by
  have h' := congrArg String.toNat? h
  simpa using h'

theorem onGRPC_size_inj {item item' : Item} {n m : Nat}
    (h : Overstep.onGRPC (.size item n) = Overstep.onGRPC (.size item' m)) :
    item = item' ∧ n = m := by
  simp only [Overstep.onGRPC, Err.invalid.injEq, String.ext_iff, String.toList_append,
    List.append_assoc, List.append_cancel_left_eq, Item.name] at h
  -- The first letters of the three keys differ.
  have hitem : item = item' := by
    cases item <;> cases item' <;> first | rfl | (exfalso; revert h; simp [Item.key])
  subst hitem
  simp only [List.append_cancel_left_eq] at h
  refine ⟨rfl, natRepr_inj (String.ext_iff.2 ?_)⟩
  rwa [List.append_cancel_right_eq] at h

theorem onGRPC_eq_onHTTP {a b : Overstep} :
    a.onGRPC = b.onHTTP ↔ a = b ∧ ∀ item, a ≠ .number item := by
  constructor
  · intro h
    rcases a with ⟨item, n⟩ | item <;> rcases b with ⟨item', m⟩ | item'
    · obtain ⟨rfl, rfl⟩ := onGRPC_size_inj h
      simp
    · exfalso
      revert h
      simp [Overstep.onGRPC, Overstep.onHTTP, Item.name, String.ext_iff]
    · exfalso
      revert h
      simp [Overstep.onGRPC, Overstep.onHTTP, String.ext_iff]
    · exfalso
      revert h
      simp [Overstep.onGRPC, Overstep.onHTTP, Item.name, String.ext_iff]
  · rintro ⟨rfl, hsize⟩
    rcases a with ⟨item, n⟩ | item
    · rfl
    · exact absurd rfl (hsize item)

/-! ## Section 6: What a sequence of checks reports -/

def errorOf : Except Err Unit → Option Err
  | .ok () => none
  | .error err => some err

/-- The errors of the checks that fail, in order. -/
def refusals (checks : List (Except Err Unit)) : List Err := checks.filterMap errorOf

@[simp] theorem refusals_append (a b : List (Except Err Unit)) :
    refusals (a ++ b) = refusals a ++ refusals b :=
  List.filterMap_append

theorem refusals_flatMap {α : Type} (l : List α) (f : α → List (Except Err Unit)) :
    refusals (l.flatMap f) = l.flatMap fun a => refusals (f a) := by
  induction l with
  | nil => rfl
  | cons a rest ih => simp [ih]

theorem errorOf_checkAll (checks : List (Except Err Unit)) :
    errorOf (checkAll checks) = (refusals checks).head? := by
  induction checks with
  | nil => rfl
  | cons check rest ih =>
    rcases check with err | ⟨⟩
    · rfl
    · exact ih

theorem errorOf_none {r : Except Err Unit} : errorOf r = none ↔ r = .ok () := by
  rcases r with err | ⟨⟩ <;> simp [errorOf]

theorem errorOf_some {r : Except Err Unit} {err : Err} : errorOf r = some err ↔ r = .error err := by
  rcases r with e | ⟨⟩ <;> simp [errorOf]

theorem checkAll_two (a b : List (Except Err Unit)) :
    checkAll [checkAll a, checkAll b] = checkAll (a ++ b) := by
  induction a with
  | nil =>
    rcases h : checkAll b with err | ⟨⟩ <;> simp [checkAll, h]
  | cons check rest ih =>
    rcases check with err | ⟨⟩
    · rfl
    · exact ih

theorem refusals_checkString (item : Item) (text : String) :
    refusals [checkString item.name text] = (item.ofText text).map Overstep.onGRPC := by
  by_cases hsize : text.utf8ByteSize ≤ maxEnvelopeFieldBytes
  · have hno : ¬ maxEnvelopeFieldBytes < text.utf8ByteSize := by omega
    simp [refusals, checkString, require, Item.ofText, errorOf, hsize, hno]
  · have hlarge : maxEnvelopeFieldBytes < text.utf8ByteSize := by omega
    simp [refusals, checkString, require, Item.ofText, errorOf, hsize, hlarge, Overstep.onGRPC]

theorem ofText_onHTTP (item : Item) (text : String) :
    (item.ofText text).map Overstep.onHTTP = (item.ofText text).map Overstep.onGRPC := by
  unfold Item.ofText
  split <;> rfl

theorem withoutStart_name {item : Item} (h : item ≠ .field) :
    withoutStart "changed_fields[]." item.name = item.key := by
  rcases item with _ | _ | _
  · exact absurd rfl h
  · decide
  · decide

/-- A JSON text is decoded where the envelope is converted. -/
def Decodes (text : String) : Prop := text = "" ∨ (Json.decode text).isSome

theorem refusals_checkCanonicalJSON {item : Item} (hitem : item ≠ .field) {text : String}
    (hdec : Decodes text) :
    refusals [checkCanonicalJSON item.name text] = (item.ofJSON text).map Overstep.onGRPC := by
  by_cases hempty : text = ""
  · subst hempty
    simp [checkCanonicalJSON, Item.ofJSON, refusals, errorOf]
  · obtain ⟨value, hvalue⟩ := Option.isSome_iff_exists.1 (hdec.resolve_left hempty)
    unfold checkCanonicalJSON Item.ofJSON
    simp only [if_neg hempty, hvalue, withoutStart_name hitem]
    rcases hcanon : value.canonicalJSON with err | canonical
    · rfl
    · exact refusals_checkString item canonical

/-- The value a JSON text stands for. -/
def valueOf (text : String) : Json := if text = "" then .null else (Json.decode text).getD .null

theorem ofText_null (item : Item) : item.ofText "null" = [] := by
  unfold Item.ofText
  rw [if_neg (by decide)]

theorem refusals_checkValue {item : Item} {text : String} (hdec : Decodes text) :
    refusals (checkValue item.name (valueOf text)) = (item.ofJSON text).map Overstep.onHTTP := by
  by_cases hempty : text = ""
  · subst hempty
    rfl
  · obtain ⟨value, hvalue⟩ := Option.isSome_iff_exists.1 (hdec.resolve_left hempty)
    unfold checkValue Item.ofJSON valueOf
    simp only [if_neg hempty, hvalue, Option.getD_some]
    split
    · -- nil is skipped; its canonical text is below the limit.
      rename_i hnull
      have hcanon : Json.canonicalJSON .null = .ok "null" := rfl
      simp [hnull, hcanon, ofText_null, refusals]
    · rcases hcanon : value.canonicalJSON with err | canonical
      · rfl
      · exact (refusals_checkString item canonical).trans (ofText_onHTTP item canonical).symm

/-! ## Section 7: The converted event -/

theorem decodeValue_ok {text : String} {err : Err} {value : Json}
    (h : decodeValue text err = .ok value) : Decodes text ∧ value = valueOf text := by
  unfold decodeValue at h
  unfold Decodes valueOf
  split at h
  · rename_i hempty
    rw [if_pos hempty]
    exact ⟨.inl hempty, (Except.ok.inj h).symm⟩
  · rename_i hempty
    rw [if_neg hempty]
    cases hdec : Json.decode text with
    | none =>
      rw [hdec] at h
      cases h
    | some decoded =>
      rw [hdec] at h
      exact ⟨.inr rfl, (Except.ok.inj h).symm⟩

/-- A changed field whose values decode. -/
def ChangedField.Valid (c : ChangedField) : Prop := Decodes c.beforeJSON ∧ Decodes c.afterJSON

def ChangedField.change (c : ChangedField) : FieldChange :=
  { before := valueOf c.beforeJSON, after := valueOf c.afterJSON }

theorem decodeChange_ok {c : ChangedField} {change : FieldChange}
    (h : decodeChange c = .ok change) : c.Valid ∧ change = c.change := by
  obtain ⟨before, hbefore, h⟩ := bind_ok h
  obtain ⟨after, hafter, h⟩ := bind_ok h
  obtain ⟨hvalid, rfl⟩ := decodeValue_ok hbefore
  obtain ⟨hvalid', rfl⟩ := decodeValue_ok hafter
  exact ⟨⟨hvalid, hvalid'⟩, (Except.ok.inj h).symm⟩

theorem decodeChanges_ok {changes : List ChangedField} {m n : Dict FieldChange}
    (h : decodeChanges changes m = .ok n) :
    (∀ c ∈ changes, c.Valid) ∧ n = fill ChangedField.field ChangedField.change changes m := by
  induction changes generalizing m with
  | nil => exact ⟨by simp, (Except.ok.inj h).symm⟩
  | cons c rest ih =>
    unfold decodeChanges at h
    cases hc : decodeChange c with
    | error err =>
      rw [hc] at h
      cases h
    | ok change =>
      rw [hc] at h
      obtain ⟨hvalid, rfl⟩ := decodeChange_ok hc
      obtain ⟨hrest, rfl⟩ := ih h
      exact ⟨List.forall_mem_cons.2 ⟨hvalid, hrest⟩, rfl⟩

theorem fromProto_facts {input : EventEnvelope} {event : Event} (h : fromProto input = .ok event) :
    input.actor = some event.actor ∧ event.targets = input.targets ∧
      eventStrings event = envelopeStrings input ∧ (∀ c ∈ input.changedFields, c.Valid) ∧
      event.changedFields = fill ChangedField.field ChangedField.change input.changedFields ∅ := by
  unfold fromProto at h
  split at h
  · cases h
  · split at h
    · cases h
    · rename_i actor hactor
      split at h
      · cases h
      · obtain ⟨changes, hchanges, rfl⟩ := map_ok h
        obtain ⟨hvalid, rfl⟩ := decodeChanges_ok hchanges
        exact ⟨hactor, rfl, rfl, hvalid, rfl⟩

theorem byName_perm (changes : List ChangedField) : (byName changes).Perm changes :=
  List.perm_insertionSort _ _

theorem byName_sorted (changes : List ChangedField) :
    (byName changes).Pairwise fun a b => a.field ≤ b.field := by
  have htotal : Std.Total fun a b : ChangedField => a.field ≤ b.field :=
    ⟨fun a b => le_total a.field b.field⟩
  have htrans : IsTrans ChangedField fun a b => a.field ≤ b.field :=
    ⟨fun a b c hab hbc => le_trans hab hbc⟩
  exact List.pairwise_insertionSort _ _

theorem entries_eq_byName {changes : List ChangedField}
    (hdistinct : (changes.map ChangedField.field).Nodup) :
    (fill ChangedField.field ChangedField.change changes ∅).toList =
      (byName changes).map fun c => (c.field, c.change) := by
  have hperm := (fill_entries_perm ChangedField.field ChangedField.change hdistinct).trans
    ((byName_perm changes).symm.map fun c => (c.field, c.change))
  refine @List.Perm.eq_of_pairwise _ (fun a b => a.1 ≤ b.1) _ _ ?_ ?_ ?_ hperm
  · -- Two entries of one dictionary under the same name are one.
    intro a b ha hb hab hba
    have hkey : a.1 = b.1 := le_antisymm hab hba
    have ha' := mem_entries.1 ha
    have hb' := mem_entries.1 (hperm.mem_iff.2 hb)
    rw [hkey, hb'] at ha'
    exact Prod.ext hkey (Option.some.inj ha').symm
  · exact (Json.keysSorted_entries _).imp fun h => le_of_lt h
  · exact List.pairwise_map.2 (byName_sorted changes)

/-! ## Section 8: Where the transports agree -/

/-- The changed fields as gRPC checks them. -/
def grpcChecks (input : EventEnvelope) : List (Except Err Unit) :=
  (input.changedFields.map fun c => checkString "changed_fields[].field" c.field) ++
    input.changedFields.flatMap fun c =>
      [checkCanonicalJSON "changed_fields[].before_json" c.beforeJSON,
        checkCanonicalJSON "changed_fields[].after_json" c.afterJSON]

theorem grpcCaps_eq (input : EventEnvelope) :
    grpcCaps input = checkAll (envelopeHead input ++ grpcChecks input) := by
  unfold grpcCaps validateEnvelopeCaps validateChangedFieldCaps grpcChecks
  rw [checkAll_two, List.append_assoc]

theorem refusals_grpcChecks {input : EventEnvelope} (hvalid : ∀ c ∈ input.changedFields, c.Valid) :
    refusals (grpcChecks input) = (inWireOrder input).map Overstep.onGRPC := by
  unfold grpcChecks inWireOrder
  rw [refusals_append, List.map_append, List.map_eq_flatMap, refusals_flatMap, refusals_flatMap,
    List.map_flatMap, List.map_flatMap]
  congr 1
  · exact List.flatMap_congr fun c _ => refusals_checkString .field c.field
  · refine List.flatMap_congr fun c hc => ?_
    obtain ⟨hbefore, hafter⟩ := hvalid c hc
    rw [ChangedField.ofValues, List.map_append,
      ← @refusals_checkCanonicalJSON .before (by decide) _ hbefore,
      ← @refusals_checkCanonicalJSON .after (by decide) _ hafter, ← refusals_append]
    rfl

theorem refusals_checkChange {c : ChangedField} (hvalid : c.Valid) :
    refusals (checkChange c.field c.change) = (c.ofName ++ c.ofValues).map Overstep.onHTTP := by
  have hsplit : checkChange c.field c.change = [checkString Item.field.name c.field] ++
      (checkValue Item.before.name (valueOf c.beforeJSON) ++
        checkValue Item.after.name (valueOf c.afterJSON)) := rfl
  rw [hsplit, refusals_append, refusals_append, refusals_checkString, refusals_checkValue hvalid.1,
    refusals_checkValue hvalid.2, ChangedField.ofName, ChangedField.ofValues, List.map_append,
    List.map_append, ofText_onHTTP]

theorem refusals_httpChecks {input : EventEnvelope} (hvalid : ∀ c ∈ input.changedFields, c.Valid) :
    refusals (((byName input.changedFields).map fun c => (c.field, c.change)).flatMap
        fun entry => checkChange entry.1 entry.2) = (inNameOrder input).map Overstep.onHTTP := by
  unfold inNameOrder
  rw [refusals_flatMap, List.flatMap_map, List.map_flatMap]
  refine List.flatMap_congr fun c hc => ?_
  exact refusals_checkChange (hvalid c ((byName_perm _).mem_iff.1 hc))

theorem orders_perm (input : EventEnvelope) : (inWireOrder input).Perm (inNameOrder input) := by
  have hsplit : ((byName input.changedFields).flatMap fun c => c.ofName ++ c.ofValues).Perm
      ((byName input.changedFields).flatMap ChangedField.ofName ++
        (byName input.changedFields).flatMap ChangedField.ofValues) :=
    (List.flatMap_append_perm _ _ _).symm
  have hperm := byName_perm input.changedFields
  exact ((hperm.flatMap_right _).append (hperm.flatMap_right _)).symm.trans hsplit.symm

theorem checkStrings_pass (fields : List (String × String)) :
    (∀ c ∈ checkStrings fields, c = .ok ()) ↔
      ∀ f ∈ fields, ¬ maxEnvelopeFieldBytes < f.2.utf8ByteSize := by
  unfold checkStrings
  rw [List.forall_mem_map]
  simp only [checkString, require_ok, decide_eq_true_eq, not_lt]

theorem checkCount_pass (name : String) (n max : Nat) :
    checkCount name n max = .ok () ↔ ¬ max < n := by
  simp [checkCount, require_ok]

theorem envelopeHead_pass (input : EventEnvelope) :
    (∀ c ∈ envelopeHead input, c = .ok ()) ↔ ¬ LargeHead input := by
  unfold envelopeHead LargeHead
  simp only [not_or, not_exists, not_and, List.forall_mem_append, List.forall_mem_singleton,
    checkStrings_pass, checkCount_pass]
  rcases input.actor with _ | actor
  · simp [and_assoc, and_left_comm]
  · simp only [List.forall_mem_append, List.forall_mem_singleton, checkStrings_pass,
      checkCount_pass, Option.toList_some, List.flatMap_singleton, Option.mem_def,
      Option.some.injEq, forall_eq']
    tauto

theorem eventHead_eq {input : EventEnvelope} {event : Event} (h : fromProto input = .ok event)
    (hdistinct : (input.changedFields.map ChangedField.field).Nodup) :
    eventHead event = envelopeHead input := by
  obtain ⟨hactor, htargets, hstrings, -, hchanges⟩ := fromProto_facts h
  have hcount : event.changedFields.toList.length = input.changedFields.length := by
    rw [hchanges, entries_eq_byName hdistinct, List.length_map, (byName_perm _).length_eq]
  unfold eventHead envelopeHead
  rw [hactor, htargets, hstrings, hcount]

theorem errorOf_caps {input : EventEnvelope} {event : Event} (h : fromProto input = .ok event)
    (hdistinct : (input.changedFields.map ChangedField.field).Nodup) (hhead : ¬ LargeHead input) :
    errorOf (grpcCaps input) = (inWireOrder input).head?.map Overstep.onGRPC ∧
      errorOf (validateEventCaps event) = (inNameOrder input).head?.map Overstep.onHTTP := by
  obtain ⟨-, -, -, hvalid, hchanges⟩ := fromProto_facts h
  have hnone : refusals (envelopeHead input) = [] := by
    have hpass := checkAll_ok.2 ((envelopeHead_pass input).2 hhead)
    rw [← List.head?_eq_none_iff, ← errorOf_checkAll]
    exact errorOf_none.2 hpass
  constructor
  · rw [grpcCaps_eq, errorOf_checkAll, refusals_append, hnone, refusals_grpcChecks hvalid]
    simp
  · unfold validateEventCaps
    rw [errorOf_checkAll, refusals_append, eventHead_eq h hdistinct, hnone, hchanges,
      entries_eq_byName hdistinct, refusals_httpChecks hvalid]
    simp

theorem caps_eq_of_largeHead {input : EventEnvelope} {event : Event}
    (h : fromProto input = .ok event)
    (hdistinct : (input.changedFields.map ChangedField.field).Nodup) (hhead : LargeHead input) :
    ∃ err, grpcCaps input = .error err ∧ validateEventCaps event = .error err := by
  have hsome : refusals (envelopeHead input) ≠ [] := by
    intro hnil
    refine (envelopeHead_pass input).1 (checkAll_ok.1 (errorOf_none.1 ?_)) hhead
    rw [errorOf_checkAll, hnil]
    rfl
  obtain ⟨err, rest, hcons⟩ := List.exists_cons_of_ne_nil hsome
  refine ⟨err, errorOf_some.1 ?_, errorOf_some.1 ?_⟩
  · rw [grpcCaps_eq, errorOf_checkAll, refusals_append, hcons]
    rfl
  · unfold validateEventCaps
    rw [errorOf_checkAll, refusals_append, eventHead_eq h hdistinct, hcons]
    rfl

/-- The size limits of gRPC and HTTP accept the same envelopes. They report the
    same text for every one they reject exactly when both meet the same broken
    limit first, and it is a size. -/
theorem size_limits_agree_iff {input : EventEnvelope} {event : Event}
    (h : fromProto input = .ok event)
    (hdistinct : (input.changedFields.map ChangedField.field).Nodup) :
    (grpcCaps input = .ok () ↔ validateEventCaps event = .ok ()) ∧
      ((∀ err err', grpcCaps input = .error err → validateEventCaps event = .error err' →
          err = err') ↔ SameFirstOverstep input) := by
  by_cases hhead : LargeHead input
  · obtain ⟨err, hgrpc, hhttp⟩ := caps_eq_of_largeHead h hdistinct hhead
    rw [hgrpc, hhttp]
    refine ⟨by simp, fun _ => .inl hhead, fun _ e e' he he' => ?_⟩
    exact (Except.error.inj he).symm.trans (Except.error.inj he')
  · obtain ⟨hgrpc, hhttp⟩ := errorOf_caps h hdistinct hhead
    have hlength := (orders_perm input).length_eq
    simp only [← errorOf_none, ← errorOf_some, hgrpc, hhttp, SameFirstOverstep, hhead, false_or]
    -- Both orders are empty, or each has a first broken limit.
    rcases hwire : inWireOrder input with _ | ⟨a, as⟩ <;>
      rcases hname : inNameOrder input with _ | ⟨b, bs⟩
    · simp
    · rw [hwire, hname] at hlength
      cases hlength
    · rw [hwire, hname] at hlength
      cases hlength
    · refine ⟨by simp, ?_⟩
      simp only [List.head?_cons, Option.map_some, Option.some.injEq, ne_eq]
      rw [← onGRPC_eq_onHTTP]
      exact ⟨fun hsame => hsame _ _ rfl rfl, fun heq e e' he he' => he.symm.trans (heq.trans he')⟩

/-- An edit of one field of a record. -/
def editEnvelope (beforeJSON afterJSON : String) : EventEnvelope :=
  { eventID := "evt-1", sourceSystem := "crm", occurredAt := some (1700000000, 0)
    actor := some { id := "user-1" }
    changedFields := [{ field := "limit", beforeJSON := beforeJSON, afterJSON := afterJSON }] }

theorem plain_edit_agrees : ∃ event, fromProto (editEnvelope "1" "2.50") = .ok event ∧
    (grpcCaps (editEnvelope "1" "2.50") = .ok () ↔ validateEventCaps event = .ok ()) ∧
      ((∀ err err', grpcCaps (editEnvelope "1" "2.50") = .error err →
          validateEventCaps event = .error err' → err = err') ↔
        SameFirstOverstep (editEnvelope "1" "2.50")) := by
  have hok : fromProto (editEnvelope "1" "2.50") =
      .ok (okValue (fromProto (editEnvelope "1" "2.50"))) := eq_ok_okValue (by decide)
  exact ⟨_, hok, size_limits_agree_iff hok (by decide)⟩

/-- A number with a very large exponent is valid JSON without a canonical form:
    the transports word the refusal differently. -/
theorem large_exponent_texts : ∃ event, fromProto (editEnvelope "1e5000" "2") = .ok event ∧
    grpcCaps (editEnvelope "1e5000" "2") = .error (.invalid "invalid before_json") ∧
      validateEventCaps event = .error (.invalid "changed_fields[].before_json is invalid") := by
  refine ⟨_, eq_ok_okValue (by decide), by decide, by decide⟩

end Grpc

end AuditGovernance
