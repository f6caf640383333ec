import AuditGovernance.Domain.ZonedTime
import AuditGovernance.Domain.EventNumbers

/-! # Events in memory

    What a Go `domain.Event` holds beyond the record of its values:

    - `OccurredAt` has a zone. `encoding/json` writes its offset, canonical
      JSON writes UTC.
    - `Before` and `After` of a changed field are interfaces. A nil interface
      is left out by `omitempty`; an interface that holds a nil map or slice
      is not empty and is written as `null`. Inside a payload both are `null`.

    Everything else is what `encoding/json` decodes with `UseNumber`; the
    handlers that call `Ingest` decode events that way. `ReceivedAt` comes
    from `Service.Now` and is in UTC.
-/

namespace AuditGovernance

open FiniteMap Json

/-! ## Section 1: The three encodings -/

inductive Side where
  | before
  | after
deriving DecidableEq

structure InMemory where
  event : Event
  zone : Timestamp.Zone := Timestamp.utc
  /-- The sides of changed fields whose interface holds a nil collection. -/
  typedNil : List (String × Side) := []
deriving DecidableEq

namespace InMemory

/-- One side of a changed field under `omitempty`. -/
def side (m : InMemory) (name : String) (at_ : String × Side) (v : Json) : List (String × Json) :=
  if v = .null ∧ at_ ∉ m.typedNil then [] else [(name, v)]

def changeJson (m : InMemory) (key : String) (c : FieldChange) : Json :=
  .obj (m.side "before" (key, .before) c.before ++ m.side "after" (key, .after) c.after)

def changesJson (m : InMemory) : Json :=
  .obj (m.event.changedFields.toList.map (fun p => (p.1, m.changeJson p.1 p.2)))

/-- Give a field of an object another value, if it is there. -/
def setField (name : String) (v : Json) (fields : List (String × Json)) : List (String × Json) :=
  fields.map (fun p => if p.1 = name then (p.1, v) else p)

/-- The value `CanonicalJSON` writes. -/
def canonicalValue (m : InMemory) : Json :=
  .obj (setField "changed_fields" m.changesJson m.event.jsonFields)

/-- `CanonicalJSON` of the event. -/
def canonicalJSON (m : InMemory) : Except Err String := m.canonicalValue.canonicalJSON

/-- The value `json.Marshal` writes. -/
def toJson (m : InMemory) : Json :=
  .obj (setField "occurred_at" (.str (Timestamp.formatIn m.zone m.event.occurredAt))
    (setField "changed_fields" m.changesJson m.event.jsonFields))

/-- The years fit `time.Time.MarshalJSON`; the year of a zoned time is its
    local one. -/
def TimesMarshal (m : InMemory) : Prop :=
  Timestamp.HasYear (m.event.occurredAt + m.zone.nanos) ∧ Timestamp.HasYear m.event.receivedAt

instance (m : InMemory) : Decidable m.TimesMarshal := inferInstanceAs (Decidable (_ ∧ _))

/-- The instant of a time. -/
def instantOf (text : String) : Option Time := (Timestamp.parseIn text).map Prod.fst

/-- The zone of the decoded `OccurredAt`. -/
def zoneOf : Json → Timestamp.Zone
  | .obj fields =>
    match fields.lookup "occurred_at" with
    | some (.str text) => ((Timestamp.parseIn text).map Prod.snd).getD Timestamp.utc
    | _ => Timestamp.utc
  | _ => Timestamp.utc

/-- A decoded event. `null` decodes to a nil interface. -/
def read (v : Json) : Option InMemory :=
  (readStruct (Event.readFields instantOf) v).map (fun event => { event := event, zone := zoneOf v })

/-- The events of a store document, as `json.Marshal` writes them. -/
def encodeDocument (document : Dict InMemory) : Except Err String :=
  if ∀ p ∈ document.toList, p.2.TimesMarshal then
    Json.marshal (.obj [("events", .obj (document.toList.map (fun p => (p.1, p.2.toJson))))])
  else .error (.plain ("json: error calling MarshalJSON for type time.Time: " ++
    "Time.MarshalJSON: year outside of range [0,9999]"))

/-- `decodeSnapshot`, as far as it reads events. -/
def decodeDocument (text : String) : Option (Dict InMemory) :=
  match Json.decode text with
  | some .null => some ∅
  | some (.obj fields) => readMap read (fields.lookup "events")
  | _ => none

/-- A document is written and read again. -/
def reload (document : Dict InMemory) : Option (Dict InMemory) :=
  match encodeDocument document with
  | .ok text => decodeDocument text
  | .error _ => none

/-- The document after `n` reloads. -/
def reloads (document : Dict InMemory) : Nat → Option (Dict InMemory)
  | 0 => some document
  | n + 1 => (reloads document n).bind reload

/-- No side of a changed field is a nil collection. -/
def Untyped (m : InMemory) : Prop :=
  ∀ (key : String) (c : FieldChange), m.event.changedFields[key]? = some c →
    (c.before = .null → (key, Side.before) ∉ m.typedNil) ∧
      (c.after = .null → (key, Side.after) ∉ m.typedNil)

/-- What a reload makes of an event. -/
def reloaded (m : InMemory) : InMemory := { event := m.event.normalized, zone := m.zone }

/-! ## Section 2: Fields that are set -/

theorem setField_keys (name : String) (v : Json) (fields : List (String × Json)) :
    (setField name v fields).map Prod.fst = fields.map Prod.fst := by
  rw [setField, List.map_map]
  apply List.map_congr_left
  intro p _
  rw [Function.comp_apply]
  split
  · rfl
  · rfl

theorem lookup_setField (name : String) (v : Json) (fields : List (String × Json)) (k : String) :
    (setField name v fields).lookup k =
      if k = name then (fields.lookup k).map (fun _ => v) else fields.lookup k := by
  induction fields with
  | nil => simp [setField]
  | cons p rest ih =>
    obtain ⟨l, w⟩ := p
    rw [setField, List.map_cons, ← setField]
    dsimp only
    by_cases hl : l = name
    · rw [if_pos hl, lookup_cons_ite, lookup_cons_ite, ih]
      by_cases hk : k = l
      · rw [if_pos hk, if_pos (hk.trans hl), if_pos hk]
        rfl
      · rw [if_neg hk, if_neg hk]
    · rw [if_neg hl, lookup_cons_ite, lookup_cons_ite, ih]
      by_cases hk : k = l
      · rw [if_pos hk, if_neg (fun h => hl (hk.symm.trans h)), if_pos hk]
      · rw [if_neg hk, if_neg hk]

theorem setField_self {name : String} {v : Json} {fields : List (String × Json)}
    (h : ∀ p ∈ fields, p.1 = name → p.2 = v) : setField name v fields = fields := by
  rw [setField]
  refine (List.map_congr_left ?_).trans (List.map_id fields)
  intro p hp
  by_cases hname : p.1 = name
  · rw [if_pos hname, ← h p hp hname]
    rfl
  · rw [if_neg hname]
    rfl

theorem nodup_set (m : InMemory) (v : Json) :
    ((setField "changed_fields" v m.event.jsonFields).map Prod.fst).Nodup := by
  rw [setField_keys]
  exact m.event.nodup_keys

/-! ## Section 3: Events are read back -/

theorem readFields_congr {instant instant' : String → Option Time}
    {fields fields' : List (String × Json)}
    (h : ∀ k, k ≠ "occurred_at" → k ≠ "received_at" → k ≠ "changed_fields" →
      fields.lookup k = fields'.lookup k)
    (ho : readTime instant (fields.lookup "occurred_at") =
      readTime instant' (fields'.lookup "occurred_at"))
    (hr : readTime instant (fields.lookup "received_at") =
      readTime instant' (fields'.lookup "received_at"))
    (hc : readMap (readStruct FieldChange.readFields) (fields.lookup "changed_fields") =
      readMap (readStruct FieldChange.readFields) (fields'.lookup "changed_fields")) :
    Event.readFields instant fields = Event.readFields instant' fields' := by
  unfold Event.readFields
  simp (disch := decide) only [h, ho, hr, hc]

theorem lookup_side (m : InMemory) (name : String) (at_ : String × Side) (v : Json) (k : String) :
    (m.side name at_ v).lookup k =
      if k = name then (if v = .null ∧ at_ ∉ m.typedNil then none else some v) else none := by
  rw [side]
  split
  · simp
  · rw [lookup_cons_ite]
    rfl

theorem nodup_change (m : InMemory) (key : String) (c : FieldChange) :
    ((m.side "before" (key, .before) c.before ++ m.side "after" (key, .after) c.after).map
      Prod.fst).Nodup := by
  unfold side
  split_ifs <;> simp

theorem read_changeJson (m : InMemory) (key : String) (c : FieldChange) :
    readStruct FieldChange.readFields (m.changeJson key c).normalize = some c.normalized := by
  rw [changeJson, Json.normalize, readStruct, FieldChange.readFields]
  simp only [lookup_normalizeFields (m.nodup_change key c), List.lookup_append, lookup_side]
  have hvalue : ∀ (v : Json) (at_ : String × Side),
      readValue ((if v = .null ∧ at_ ∉ m.typedNil then none else some v).map Json.normalize) =
        v.normalize := by
    intro v at_
    split
    · next hnull =>
      rw [hnull.1]
      rfl
    · rfl
  have hbefore := hvalue c.before (key, .before)
  have hafter := hvalue c.after (key, .after)
  simp [hbefore, hafter, FieldChange.normalized]

theorem read_changesJson (m : InMemory) (hne : m.event.changedFields.toList ≠ []) :
    readMap (readStruct FieldChange.readFields) (some m.changesJson.normalize) =
      some (m.event.changedFields.map (fun _ c => c.normalized)) := by
  -- the encoding of a change depends on its key, so the key is kept beside it
  have hread := readMap_mapField (readStruct FieldChange.readFields)
    (fun p : String × FieldChange => m.changeJson p.1 p.2) (fun p => p.2.normalized)
    (m.event.changedFields.map (fun k c => (k, c))) (fun _ p _ => m.read_changeJson p.1 p.2)
  have hlist : (m.event.changedFields.map (fun k c => (k, c))).toList.map
      (fun p => (p.1, m.changeJson p.2.1 p.2.2)) =
        m.event.changedFields.toList.map (fun p => (p.1, m.changeJson p.1 p.2)) := by
    rw [Std.ExtTreeMap.toList_map, List.map_map]
    rfl
  rw [hlist, mapField, if_neg (by simpa using hne), Option.map_some] at hread
  rw [changesJson, hread]
  congr 1
  apply ext_lookup
  intro k
  rw [Std.ExtTreeMap.getElem?_map, Std.ExtTreeMap.getElem?_map, Std.ExtTreeMap.getElem?_map,
    Option.map_map]
  rfl

theorem lookup_changedFields (e : Event) : e.jsonFields.lookup "changed_fields" =
    mapField (e.changedFields.toList.map (fun p => (p.1, p.2.toJson))) := by
  unfold Event.jsonFields
  simp [List.lookup_append, lookup_field, lookup_optText, lookup_optList, lookup_optInt,
    lookup_optMap]

theorem readMap_of_changes (e : Event) :
    readMap (readStruct FieldChange.readFields)
        ((e.jsonFields.lookup "changed_fields").map Json.normalize) =
      some (e.changedFields.map (fun _ c => c.normalized)) := by
  rw [lookup_changedFields]
  exact readMap_mapField (readStruct FieldChange.readFields) FieldChange.toJson
    FieldChange.normalized e.changedFields (fun _ c _ => c.read_toJson)

theorem read_toJson {m : InMemory} (ht : m.TimesMarshal) :
    read m.toJson.normalize = some m.reloaded := by
  have hkeys : ((setField "occurred_at" (.str (Timestamp.formatIn m.zone m.event.occurredAt))
      (setField "changed_fields" m.changesJson m.event.jsonFields)).map Prod.fst).Nodup := by
    rw [setField_keys]
    exact m.nodup_set _
  have hoccurred := m.event.lookup_times.1
  have hreceived := m.event.lookup_times.2
  have hutc : ∀ t : Time, readTime (fun text => some (Function.invFun Timestamp.format text))
      (some (Json.normalize (time t))) = some t :=
    fun t => congrArg some (Function.leftInverse_invFun Timestamp.format_injective t)
  -- any reader of texts in UTC reads the event without zone and nil collections
  have hplain := @Event.read_toJson (fun text => some (Function.invFun Timestamp.format text))
    m.event (hutc _) (hutc _)
  have hevent : readStruct (Event.readFields instantOf) m.toJson.normalize =
      some m.event.normalized := by
    rw [← hplain, toJson, Event.toJson, Json.normalize, Json.normalize, readStruct, readStruct]
    apply readFields_congr
    · intro k hko hkr hkc
      rw [lookup_normalizeFields hkeys, lookup_normalizeFields m.event.nodup_keys, lookup_setField,
        if_neg hko, lookup_setField, if_neg hkc]
    · rw [lookup_normalizeFields hkeys, lookup_normalizeFields m.event.nodup_keys, lookup_setField,
        if_pos rfl, lookup_setField, if_neg (by decide), hoccurred]
      simp only [Option.map_some, hutc]
      rw [Json.normalize, readTime, instantOf, Timestamp.parseIn_formatIn ht.1]
      rfl
    · rw [lookup_normalizeFields hkeys, lookup_normalizeFields m.event.nodup_keys, lookup_setField,
        if_neg (by decide), lookup_setField, if_neg (by decide), hreceived]
      simp only [Option.map_some, hutc]
      rw [time, Json.normalize, readTime, instantOf, Timestamp.parseIn_format ht.2]
      rfl
    · rw [lookup_normalizeFields hkeys, lookup_normalizeFields m.event.nodup_keys, lookup_setField,
        if_neg (by decide), lookup_setField, if_pos rfl,
        readMap_of_changes m.event, lookup_changedFields]
      by_cases hne : m.event.changedFields.toList = []
      · have hempty : m.event.changedFields = ∅ := Std.ExtTreeMap.toList_eq_nil_iff.1 hne
        rw [hempty]
        rfl
      · rw [mapField, if_neg (by simpa using hne), Option.map_some, Option.map_some,
          m.read_changesJson hne]
  have hzone : zoneOf m.toJson.normalize = m.zone := by
    rw [toJson, Json.normalize, zoneOf, lookup_normalizeFields hkeys, lookup_setField, if_pos rfl,
      lookup_setField, if_neg (by decide), hoccurred]
    simp only [Option.map_some, Json.normalize, Timestamp.parseIn_formatIn ht.1, Option.getD_some]
  rw [read, hevent, Option.map_some, hzone]
  rfl

/-! ## Section 4: Numbers -/

theorem exists_setField {name literal : String} {v : Json} {fields : List (String × Json)}
    (h : ∀ p ∈ fields, p.1 = name →
      (literal ∈ v.normalize.numbers ↔ literal ∈ p.2.normalize.numbers)) :
    (∃ p ∈ setField name v fields, literal ∈ p.2.normalize.numbers) ↔
      ∃ p ∈ fields, literal ∈ p.2.normalize.numbers := by
  constructor
  · rintro ⟨p, hp, hl⟩
    obtain ⟨q, hq, rfl⟩ := List.mem_map.1 hp
    refine ⟨q, hq, ?_⟩
    by_cases hname : q.1 = name
    · rw [if_pos hname] at hl
      exact (h q hq hname).1 hl
    · rwa [if_neg hname] at hl
  · rintro ⟨q, hq, hl⟩
    refine ⟨_, List.mem_map.2 ⟨q, hq, rfl⟩, ?_⟩
    by_cases hname : q.1 = name
    · rw [if_pos hname]
      exact (h q hq hname).2 hl
    · rwa [if_neg hname]

theorem exists_side {m : InMemory} {name literal : String} {at_ : String × Side} {v : Json} :
    (∃ p ∈ m.side name at_ v, literal ∈ p.2.normalize.numbers) ↔
      literal ∈ v.normalize.numbers := by
  rw [side]
  split
  · next h => simp [h.1, Json.normalize, numbers]
  · simp

theorem mem_numbers_changesJson {m : InMemory} {literal : String} :
    literal ∈ m.changesJson.normalize.numbers ↔
      literal ∈ (Json.obj (m.event.changedFields.toList.map
        (fun p => (p.1, p.2.toJson)))).normalize.numbers := by
  have hchange : ∀ (key : String) (c : FieldChange),
      literal ∈ (m.changeJson key c).normalize.numbers ↔ literal ∈ c.toJson.normalize.numbers := by
    intro key c
    rw [changeJson, mem_numbers_obj (m.nodup_change key c), FieldChange.mem_numbers]
    simp only [List.mem_append, or_and_right, exists_or, exists_side]
  rw [changesJson, mem_numbers_entries m.event.changedFields m.changeJson,
    mem_numbers_entries m.event.changedFields (fun _ c => c.toJson)]
  simp only [hchange]

theorem exists_set_changes {m : InMemory} {literal : String} :
    (∃ p ∈ setField "changed_fields" m.changesJson m.event.jsonFields,
      literal ∈ p.2.normalize.numbers) ↔ literal ∈ m.event.toJson.normalize.numbers := by
  rw [Event.toJson, mem_numbers_obj m.event.nodup_keys]
  apply exists_setField
  intro p hp hname
  have hlookup := lookup_of_mem m.event.nodup_keys hp
  rw [hname, lookup_changedFields, mapField] at hlookup
  split at hlookup
  · cases hlookup
  · rw [← Option.some.inj hlookup]
    exact mem_numbers_changesJson

theorem mem_numbers_canonicalValue {m : InMemory} {literal : String} :
    literal ∈ m.canonicalValue.normalize.numbers ↔ literal ∈ m.event.toJson.normalize.numbers := by
  rw [canonicalValue, mem_numbers_obj (m.nodup_set _), exists_set_changes]

theorem mem_numbers_toJson {m : InMemory} {literal : String} :
    literal ∈ m.toJson.normalize.numbers ↔ literal ∈ m.event.toJson.normalize.numbers := by
  rw [toJson, mem_numbers_obj (by rw [setField_keys]; exact m.nodup_set _), exists_setField,
    exists_set_changes]
  intro p hp hname
  have hlookup := lookup_of_mem (m.nodup_set _) hp
  rw [hname, lookup_setField, if_neg (by decide), m.event.lookup_times.1] at hlookup
  rw [← Option.some.inj hlookup]
  simp [time, Json.normalize, numbers]

end InMemory

/-! ## Section 5: Reloaded documents -/

theorem Json.normalize_eq_null {v : Json} : v.normalize = .null ↔ v = .null := by
  cases v <;> simp [Json.normalize]

theorem FieldChange.toJson_normalized (c : FieldChange) :
    c.normalized.toJson.normalize = c.toJson.normalize := by
  have hvalue : ∀ (name : String) (v : Json),
      (optValue name v.normalize).map (fun p => (p.1, p.2.normalize)) =
        (optValue name v).map (fun p => (p.1, p.2.normalize)) := by
    intro name v
    unfold optValue
    by_cases hnull : v = .null
    · rw [if_pos hnull, if_pos (normalize_eq_null.2 hnull)]
    · rw [if_neg hnull, if_neg (fun h => hnull (normalize_eq_null.1 h))]
      simp
  rw [FieldChange.toJson, FieldChange.toJson]
  apply normalize_obj_congr
  rw [List.map_append, List.map_append]
  exact congrArg₂ _ (hvalue _ c.before) (hvalue _ c.after)

theorem Json.optMap_congr {α : Type} (name : String) (m : Dict α) (f g : α → Json)
    (h : ∀ v, (f v).normalize = (g v).normalize) :
    (optMap name (m.toList.map (fun p => (p.1, f p.2)))).map (fun p => (p.1, p.2.normalize)) =
      (optMap name (m.toList.map (fun p => (p.1, g p.2)))).map (fun p => (p.1, p.2.normalize)) := by
  have hobj : (Json.obj (m.toList.map (fun p => (p.1, f p.2)))).normalize =
      (Json.obj (m.toList.map (fun p => (p.1, g p.2)))).normalize := by
    apply normalize_obj_congr
    rw [List.map_map, List.map_map]
    apply List.map_congr_left
    intro p _
    simp [h p.2]
  unfold optMap
  by_cases hnil : m.toList = []
  · simp [hnil]
  · rw [if_neg (by simpa using hnil), if_neg (by simpa using hnil)]
    simp [hobj]

/-- Nothing is told apart by normal forms. -/
theorem Event.toJson_normalized (e : Event) : e.normalized.toJson.normalize = e.toJson.normalize := by
  have hchanged := optMap_congr "changed_fields" e.changedFields (fun c => c.normalized.toJson)
    FieldChange.toJson FieldChange.toJson_normalized
  have hpayload := optMap_congr "payload" e.payload (fun v => v.normalize) (fun v => v)
    normalize_normalize
  have hentries : e.payload.toList.map (fun p => (p.1, p.2)) = e.payload.toList := List.map_id' _
  rw [hentries] at hpayload
  rw [Event.toJson, Event.toJson]
  apply normalize_obj_congr
  unfold Event.jsonFields
  simp only [Event.normalized, List.map_append, Std.ExtTreeMap.toList_map, List.map_map,
    Function.comp_def, hchanged, hpayload]

theorem Event.normalized_normalized (e : Event) : e.normalized.normalized = e.normalized := by
  have hchange : ∀ c : FieldChange, c.normalized.normalized = c.normalized := by
    intro c
    simp [FieldChange.normalized]
  unfold Event.normalized
  simp only [Event.mk.injEq, true_and, and_true]
  constructor
  · apply ext_lookup
    intro k
    rw [Std.ExtTreeMap.getElem?_map, Std.ExtTreeMap.getElem?_map, Option.map_map]
    simp [Function.comp_def, hchange]
  · apply ext_lookup
    intro k
    rw [Std.ExtTreeMap.getElem?_map, Std.ExtTreeMap.getElem?_map, Option.map_map]
    simp [Function.comp_def]

namespace InMemory

theorem encodeDocument_succeeds {document : Dict InMemory} :
    (∃ text, encodeDocument document = .ok text) ↔
      ∀ (key : String) (m : InMemory), document[key]? = some m → m.TimesMarshal ∧
        ∀ literal ∈ m.event.toJson.normalize.numbers, validNumber literal = true := by
  have hnumbers : ∀ literal, literal ∈ (Json.obj [("events",
      .obj (document.toList.map (fun p => (p.1, p.2.toJson))))]).normalize.numbers ↔
      ∃ (key : String) (m : InMemory), document[key]? = some m ∧
        literal ∈ m.event.toJson.normalize.numbers := by
    intro literal
    rw [mem_numbers_obj (by simp)]
    simp only [List.mem_singleton, exists_eq_left,
      mem_numbers_entries document (fun _ m => m.toJson), mem_numbers_toJson]
  rw [encodeDocument]
  constructor
  · rintro ⟨text, h⟩ key m hm
    split at h
    · next htimes =>
      refine ⟨htimes (key, m) (mem_entries.2 hm), ?_⟩
      intro literal hl
      rw [Json.marshal] at h
      split at h
      · next hvalid =>
        exact numbers_of_valid _ hvalid literal ((hnumbers literal).2 ⟨key, m, hm, hl⟩)
      · cases h
    · cases h
  · intro h
    have hvalid := valid_of_numbers (Json.obj [("events",
      .obj (document.toList.map (fun p => (p.1, p.2.toJson))))]).normalize (by
        intro literal hl
        obtain ⟨key, m, hm, hl⟩ := (hnumbers literal).1 hl
        exact (h key m hm).2 literal hl)
    have htimes : ∀ p ∈ document.toList, p.2.TimesMarshal :=
      fun p hp => (h p.1 p.2 (mem_entries.1 hp)).1
    rw [if_pos htimes, Json.marshal, if_pos hvalid]
    exact ⟨_, rfl⟩

theorem decode_encodeDocument {document : Dict InMemory} {text : String}
    (h : encodeDocument document = .ok text) :
    decodeDocument text = some (document.map (fun _ m => m.reloaded)) := by
  rw [encodeDocument] at h
  split at h
  · next htimes =>
    have hread := readMap_mapField read InMemory.toJson reloaded document
      (fun key m hm => read_toJson (htimes (key, m) (mem_entries.2 hm)))
    rw [decodeDocument, Json.decode_marshal h, Json.normalize]
    dsimp only
    rw [lookup_normalizeFields (by simp), lookup_cons_ite, if_pos rfl, Option.map_some]
    rw [mapField] at hread
    split at hread
    · next hnil =>
      have hempty : document = ∅ := Std.ExtTreeMap.toList_eq_nil_iff.1 (by simpa using hnil)
      rw [hempty]
      rfl
    · exact hread
  · cases h

theorem reloaded_reloaded (m : InMemory) : m.reloaded.reloaded = m.reloaded := by
  rw [reloaded, reloaded, Event.normalized_normalized]

/-- **Reloading settles at once**: whatever number of times a document is
    written and read, its events are in normal form afterwards. -/
theorem reloads_succ {document : Dict InMemory} {text : String}
    (h : encodeDocument document = .ok text) (n : Nat) :
    reloads document (n + 1) = some (document.map (fun _ m => m.reloaded)) := by
  induction n with
  | zero => rw [reloads, reloads, Option.bind_some, reload, h, ← decode_encodeDocument h]
  | succ n ih =>
    have hfacts := encodeDocument_succeeds.1 ⟨text, h⟩
    obtain ⟨text', h'⟩ : ∃ text', encodeDocument (document.map (fun _ m => m.reloaded)) =
        .ok text' := by
      rw [encodeDocument_succeeds]
      intro key m' hm'
      rw [Std.ExtTreeMap.getElem?_map] at hm'
      obtain ⟨m, hm, rfl⟩ := Option.map_eq_some_iff.1 hm'
      obtain ⟨htimes, hnumbers⟩ := hfacts key m hm
      refine ⟨htimes, ?_⟩
      rw [reloaded, Event.toJson_normalized]
      exact hnumbers
    rw [reloads, ih, Option.bind_some, reload, h']
    dsimp only
    rw [decode_encodeDocument h']
    congr 1
    apply ext_lookup
    intro k
    rw [Std.ExtTreeMap.getElem?_map, Std.ExtTreeMap.getElem?_map, Option.map_map]
    simp [Function.comp_def, reloaded_reloaded]

/-! ## Section 6: Canonical texts -/

theorem canonicalJSON_succeeds {m : InMemory} : (∃ text, m.canonicalJSON = .ok text) ↔
    ∀ literal ∈ m.event.toJson.normalize.numbers, ∃ text, writeNumber literal = .ok text := by
  rw [canonicalJSON, Json.canonicalJSON_succeeds]
  simp only [mem_numbers_canonicalValue]

theorem Untyped.canonicalValue {m : InMemory} (h : m.Untyped) :
    m.canonicalValue = m.event.toJson := by
  have hside : ∀ (name key : String) (side_ : Side) (v : Json),
      (v = .null → (key, side_) ∉ m.typedNil) → m.side name (key, side_) v = optValue name v := by
    intro name key side_ v hv
    rw [side, optValue]
    by_cases hnull : v = .null
    · rw [if_pos ⟨hnull, hv hnull⟩, if_pos hnull]
    · rw [if_neg (fun hc => hnull hc.1), if_neg hnull]
  have hchanges : m.changesJson =
      .obj (m.event.changedFields.toList.map (fun p => (p.1, p.2.toJson))) := by
    rw [changesJson]
    congr 1
    apply List.map_congr_left
    intro p hp
    obtain ⟨hbefore, hafter⟩ := h p.1 p.2 (mem_entries.1 hp)
    rw [changeJson, hside _ _ _ _ hbefore, hside _ _ _ _ hafter, FieldChange.toJson]
  rw [InMemory.canonicalValue, Event.toJson, setField_self]
  intro p hp hname
  have hlookup := lookup_of_mem m.event.nodup_keys hp
  rw [hname, lookup_changedFields, mapField] at hlookup
  split at hlookup
  · cases hlookup
  · rw [hchanges, Option.some.inj hlookup]

theorem Untyped.canonicalJSON {m : InMemory} (h : m.Untyped) :
    m.canonicalJSON = m.event.canonicalJSON := by
  rw [InMemory.canonicalJSON, h.canonicalValue, Event.canonicalJSON]

theorem Untyped.toJson_utc {m : InMemory} (h : m.Untyped) (hzone : m.zone = Timestamp.utc) :
    m.toJson = m.event.toJson := by
  rw [← h.canonicalValue, toJson, InMemory.canonicalValue, setField_self]
  intro p hp hname
  have hlookup := lookup_of_mem (m.nodup_set _) hp
  rw [hname, lookup_setField, if_neg (by decide), m.event.lookup_times.1] at hlookup
  rw [← Option.some.inj hlookup, hzone, Timestamp.formatIn_utc, time]

theorem untyped_of_nil {m : InMemory} (h : m.typedNil = []) : m.Untyped := by
  intro key c _
  rw [h]
  exact ⟨fun _ => List.not_mem_nil, fun _ => List.not_mem_nil⟩

theorem Untyped.reload_canonicalJSON {m : InMemory} (h : m.Untyped) :
    m.reloaded.canonicalJSON = m.canonicalJSON := by
  have hreloaded : m.reloaded.Untyped := untyped_of_nil rfl
  rw [h.canonicalJSON, hreloaded.canonicalJSON, reloaded, Event.canonicalJSON, Event.canonicalJSON,
    Json.canonicalJSON, Json.canonicalJSON, Event.toJson_normalized]

theorem denote_changeJson (m : InMemory) (key : String) (c : FieldChange) :
    (m.changeJson key c).denote = .obj (fun name =>
      if name = "before" then
        if c.before = .null ∧ (key, Side.before) ∉ m.typedNil then none else some c.before.denote
      else if name = "after" then
        if c.after = .null ∧ (key, Side.after) ∉ m.typedNil then none else some c.after.denote
      else none) := by
  rw [changeJson, Json.denote]
  congr 1
  funext name
  rw [denote_obj, lookup_normalizeFields (m.nodup_change key c), List.lookup_append, lookup_side,
    lookup_side]
  have hdenote : ∀ v : Json, (some v.normalize).map Json.denote = some v.denote :=
    fun v => congrArg some v.denote_normalize
  by_cases hb : name = "before"
  · have ha : ¬ name = "after" := by
      rw [hb]
      decide
    rw [if_pos hb, if_pos hb, if_neg ha, Option.or_none]
    split
    · rfl
    · exact hdenote c.before
  · rw [if_neg hb, if_neg hb, Option.none_or]
    by_cases ha : name = "after"
    · rw [if_pos ha, if_pos ha]
      split
      · rfl
      · exact hdenote c.after
    · rw [if_neg ha, if_neg ha]
      rfl

theorem denote_canonicalValue {m : InMemory} {key : String} {c : FieldChange}
    (hc : m.event.changedFields[key]? = some c) :
    ∃ (fields changes : String → Option Value), m.canonicalValue.denote = .obj fields ∧
      fields "changed_fields" = some (.obj changes) ∧
      changes key = some (m.changeJson key c).denote := by
  have hmem := mem_entries.2 hc
  have hne : m.event.changedFields.toList ≠ [] := List.ne_nil_of_mem hmem
  have hnodup : ((m.event.changedFields.toList.map (fun p => (p.1, m.changeJson p.1 p.2))).map
      Prod.fst).Nodup := by
    rw [List.map_map]
    exact List.pairwise_map.2 (entries_distinct _)
  refine ⟨_, Json.denoteFields (m.event.changedFields.toList.map
    (fun p => (p.1, m.changeJson p.1 p.2))), rfl, ?_, ?_⟩
  · rw [denote_obj, lookup_normalizeFields (m.nodup_set _), lookup_setField, if_pos rfl,
      lookup_changedFields, mapField, if_neg (by simpa using hne)]
    simp only [Option.map_some, denote_normalize]
    rw [changesJson, Json.denote]
  · rw [denote_obj, lookup_normalizeFields hnodup,
      lookup_of_mem hnodup (List.mem_map.2 ⟨(key, c), hmem, rfl⟩)]
    simp only [Option.map_some, denote_normalize]

/-- **A reload that keeps the canonical text** has had no nil collection to
    lose. -/
theorem untyped_of_reload {m : InMemory} {text : String} (h : m.canonicalJSON = .ok text)
    (hreload : m.reloaded.canonicalJSON = .ok text) : m.Untyped := by
  have hdenote := (Json.canonicalJSON_eq_iff h hreload).1 rfl
  intro key c hc
  have hc' : m.reloaded.event.changedFields[key]? = some c.normalized := by
    rw [reloaded, Event.normalized, Std.ExtTreeMap.getElem?_map, hc]
    rfl
  obtain ⟨fields, changes, hfields, hchanges, hchange⟩ := denote_canonicalValue hc
  obtain ⟨fields', changes', hfields', hchanges', hchange'⟩ := denote_canonicalValue hc'
  rw [hfields, hfields'] at hdenote
  rw [Value.obj.inj hdenote, hchanges'] at hchanges
  rw [← Value.obj.inj (Option.some.inj hchanges), hchange'] at hchange
  have hsame := Option.some.inj hchange
  rw [denote_changeJson, denote_changeJson] at hsame
  have hsides := Value.obj.inj hsame
  constructor
  · intro hnull htyped
    have hbefore := congrFun hsides "before"
    simp [hnull, htyped, reloaded, FieldChange.normalized, Json.normalize] at hbefore
  · intro hnull htyped
    have hafter := congrFun hsides "after"
    simp [hnull, htyped, reloaded, FieldChange.normalized, Json.normalize] at hafter

/-- The event that is read from a canonical text. -/
def archived (m : InMemory) : InMemory := { event := m.event.canonical }

theorem Untyped.read_canonicalJSON {m : InMemory} (h : m.Untyped) {text : String}
    (htext : m.canonicalJSON = .ok text) (ht : m.event.TimesMarshal) :
    (Json.decode text).bind read = some m.archived := by
  rw [h.canonicalJSON] at htext
  obtain ⟨w, hvalid, rfl, hw⟩ := Event.canonicalJSON_ok htext
  let rewritten_ : InMemory := { event := m.event.mapNumbers (rewritten writeNumber) }
  have huntyped : rewritten_.Untyped := untyped_of_nil rfl
  have htimes : rewritten_.TimesMarshal := by
    refine ⟨?_, ht.2⟩
    have hzero : rewritten_.event.occurredAt + rewritten_.zone.nanos = m.event.occurredAt :=
      Int.add_zero _
    rw [hzero]
    exact ht.1
  have hread := read_toJson htimes
  rw [huntyped.toJson_utc rfl] at hread
  rw [Json.decode, Json.parse_toText hvalid, hw, Option.map_some, Option.bind_some,
    Json.normalize_normalize, hread]
  rfl

end InMemory

theorem Event.canonicalJSON_canonical {e : Event} {text : String}
    (h : e.canonicalJSON = .ok text) : e.canonical.canonicalJSON = .ok text := by
  rw [Event.canonicalJSON, Json.canonicalJSON] at h
  cases hw : rewriteNumbers writeNumber e.toJson.normalize with
  | error err => rw [hw] at h; cases h
  | ok w =>
    rw [hw] at h
    have hfixes : e.FixesIntegers (rewritten writeNumber) := by
      apply Event.fixesIntegers
      intro n hn
      exact writeNumber_int (rewriteNumbers_ok _ _ hw _ hn)
    have hcanonical : e.canonical.toJson.normalize = w := by
      rw [Event.canonical, Event.toJson_normalized, rewriteNumbers_eq_map hw, mapNumbers_normalize,
        Event.toJson_mapNumbers hfixes]
    rw [Event.canonicalJSON, Json.canonicalJSON, hcanonical, rewriteNumbers_writeNumber_idem hw]
    exact h

end AuditGovernance
