import AuditGovernance.Outbox.Relay
import AuditGovernance.Service.Persistence

/-! # Writing into the outbox

    `Insert` (`internal/outbox/sdk.go`) writes an event into a business
    transaction. Both unique indexes of `audit_outbox` fold into one outcome
    without a row, classified by the equality of `jsonb` and, where that
    fails, by content digests. Outcomes of statements other than success are
    left out, and the transaction is one that can read.

    A side of a changed field that is a nil map or slice is written as `null`
    and decoded as a nil interface, which the digest leaves out. Where no event
    has such a side, the two tests give one equivalence (`insert_outcome`).
-/

namespace AuditGovernance

open FiniteMap Json

namespace Outbox

/-! ## Section 1: Events of callers -/

/-- An event as a caller of `Insert` has it. -/
structure CallerEvent where
  memory : InMemory
  receivedZone : Timestamp.Zone := Timestamp.utc
  payloadNil : Bool := false

namespace CallerEvent

/-- What `json.Marshal` writes. -/
def document (e : CallerEvent) : Json :=
  .obj (InMemory.setField "received_at"
      (.str (Timestamp.formatIn e.receivedZone e.memory.event.receivedAt))
    (InMemory.setField "occurred_at"
        (.str (Timestamp.formatIn e.memory.zone e.memory.event.occurredAt))
      (InMemory.setField "changed_fields" e.memory.changesJson e.memory.event.jsonFields)))

/-- The years fit `time.Time.MarshalJSON`. -/
def TimesMarshal (e : CallerEvent) : Prop :=
  Timestamp.HasYear (e.memory.event.occurredAt + e.memory.zone.nanos) ∧
    Timestamp.HasYear (e.memory.event.receivedAt + e.receivedZone.nanos)

instance (e : CallerEvent) : Decidable e.TimesMarshal := inferInstanceAs (Decidable (_ ∧ _))

/-- `json.Marshal`. -/
def marshal (e : CallerEvent) : Except Err String :=
  if e.TimesMarshal then e.document.marshal
  else .error (.plain ("json: error calling MarshalJSON for type time.Time: " ++
    "Time.MarshalJSON: year outside of range [0,9999]"))

/-- `normalizePostgresTimestamp`: UTC, whole microseconds. -/
def normalizePostgresTimestamp (t : Time) : Time := (t : Int) - (t : Int) % 1000

/-- `storedEvent`. -/
def stored (e : CallerEvent) : CallerEvent :=
  { e with memory := { e.memory with
    zone := Timestamp.utc
    event := { e.memory.event with
      occurredAt := normalizePostgresTimestamp e.memory.event.occurredAt } } }

/-- `EventContentDigest` of what is stored. -/
def contentDigest (d : Deployment) (e : CallerEvent) : Except Err String :=
  e.stored.memory.contentDigest d

def maxEventBytes : Nat := 256 * 1024

/-- The encoding of an event that is small enough. -/
def encode (e : CallerEvent) : Except Err String :=
  match e.marshal with
  | .error err => .error err
  | .ok encoded =>
    if maxEventBytes < encoded.utf8ByteSize then
      .error (.invalid ("payload exceeds " ++ Nat.repr maxEventBytes ++ " bytes"))
    else .ok encoded

/-- What `Insert` asks of an event before any statement. -/
def validate (e : CallerEvent) : Except Err Unit :=
  checkAll
    [require (e.memory.event.tenantID ≠ "") (.invalid "tenant_id is required for outbox"),
      e.memory.event.validateBasic e.payloadNil, e.encode.map fun _ => (),
      e.stored.encode.map fun _ => ()]

end CallerEvent

/-! ## Section 2: The database -/

/-- PostgreSQL as far as `jsonb` goes: how a number is printed again, and when two
    documents are equal. -/
structure Database where
  numeric : String → String
  jsonbEq : Json → Json → Bool
  /-- Numbers are exact. -/
  numeric_value : ∀ literal, literalValue (numeric literal) = literalValue literal
  numeric_int : ∀ n : Int, numeric (Int.repr n) = Int.repr n
  /-- A number that has a canonical form is printed so that it still has one. -/
  numeric_fits : ∀ literal text, writeNumber literal = .ok text →
    ∃ text', writeNumber (numeric literal) = .ok text'
  /-- Equality of values. -/
  jsonbEq_iff : ∀ v w, jsonbEq v w = true ↔ v.denote = w.denote

/-- A document that went through a `jsonb` column. -/
def Database.jsonb (db : Database) (v : Json) : Json := (v.mapNumbers db.numeric).normalize

/-- The row the statement inserts. -/
def newRow (db : Database) (id : Int) (now : Time) (e : CallerEvent) : Row :=
  { id := id, eventID := some e.stored.memory.event.eventID
    tenantID := some e.stored.memory.event.tenantID
    idempotencyKey := some e.stored.memory.event.idempotencyKey
    payload := db.jsonb e.stored.document
    occurredAt := .finite e.stored.memory.event.occurredAt
    nextAttemptAt := now, createdAt := now }

/-- The unique indexes of `audit_outbox`. -/
def clashes (row row' : Row) : Prop :=
  row.eventID = row'.eventID ∨
    (row.tenantID = row'.tenantID ∧ row.idempotencyKey = row'.idempotencyKey)

instance (row row' : Row) : Decidable (clashes row row') := inferInstanceAs (Decidable (_ ∨ _))

/-! ## Section 3: Classification -/

def unclassifiableMessage : String := "unable to classify outbox insert outcome"

/-- `duplicateOutcome`. -/
def duplicateOutcome (status : RowStatus) : Except Err Unit :=
  if status = .failed then .error (.conflict "event already dead-lettered") else .ok ()

/-- `classifyContentConflict`, on the payload of the row found. -/
def classifyContentConflict (d : Deployment) (row : Row) (e : CallerEvent) : Except Err Unit :=
  match InMemory.read row.payload with
  | none => .error (.wrap "insert audit outbox: classify payload" (.plain "decode"))
  | some storedEvent =>
    match e.contentDigest d with
    | .error err => .error (.wrap "insert audit outbox: classify digest" err)
    | .ok candidateDigest =>
      match storedEvent.contentDigest d with
      | .error err => .error (.wrap "insert audit outbox: classify digest" err)
      | .ok storedDigest =>
        if candidateDigest ≠ storedDigest then
          .error (.conflict "event_id already exists with different canonical content")
        else duplicateOutcome row.status

/-- `classifyZeroRows`. -/
def classifyZeroRows (d : Deployment) (db : Database) (table : List Row) (e : CallerEvent) :
    Except Err Unit :=
  match table.find? fun row => row.eventID = some e.stored.memory.event.eventID with
  | some row =>
    if db.jsonbEq row.payload (db.jsonb e.stored.document) then duplicateOutcome row.status
    else classifyContentConflict d row e
  | none =>
    if table.any fun row => row.tenantID = some e.stored.memory.event.tenantID ∧
        row.idempotencyKey = some e.stored.memory.event.idempotencyKey then
      .error (.conflict "idempotency_key is already associated with another event")
    else .error (.conflict unclassifiableMessage)

/-- `Insert`: the table after it, and what it returns. -/
def insert (d : Deployment) (db : Database) (table : List Row) (id : Int) (now : Time)
    (e : CallerEvent) : List Row × Except Err Unit :=
  match e.validate with
  | .error err => (table, .error err)
  | .ok () =>
    if ∃ row ∈ table, clashes row (newRow db id now e) then (table, classifyZeroRows d db table e)
    else (table ++ [newRow db id now e], .ok ())

/-! ## Section 4: Rows are read back -/

theorem mapFields_setField (f : String → String) (name text : String)
    (fields : List (String × Json)) :
    Json.mapFields f (InMemory.setField name (.str text) fields) =
      InMemory.setField name (.str text) (Json.mapFields f fields) := by
  rw [mapFields_eq_map, mapFields_eq_map, InMemory.setField, InMemory.setField, List.map_map,
    List.map_map]
  refine List.map_congr_left fun p _ => ?_
  simp only [Function.comp_apply]
  split <;> rfl

namespace CallerEvent

/-- No changed field has a nil map or slice for a side. -/
def Plain (e : CallerEvent) : Prop := e.memory.Untyped

/-- Every number has a canonical form. -/
def Fits (e : CallerEvent) : Prop :=
  ∀ literal ∈ e.memory.event.toJson.normalize.numbers, ∃ text, writeNumber literal = .ok text

theorem Plain.stored {e : CallerEvent} (h : e.Plain) : e.stored.memory.Untyped := h

theorem Plain.document {e : CallerEvent} (h : e.Plain) :
    e.stored.document = .obj (InMemory.setField "received_at"
      (.str (Timestamp.formatIn e.receivedZone e.memory.event.receivedAt))
        e.stored.memory.event.jsonFields) := by
  have hplain := h.stored.toJson_utc rfl
  unfold InMemory.toJson Event.toJson at hplain
  unfold CallerEvent.document
  rw [Json.obj.inj hplain]
  rfl

theorem numbers_stored (e : CallerEvent) (literal : String) :
    literal ∈ e.stored.memory.event.toJson.normalize.numbers ↔
      literal ∈ e.memory.event.toJson.normalize.numbers := by
  rw [Event.mem_numbers, Event.mem_numbers]
  exact Iff.rfl

theorem mem_numbers_document {e : CallerEvent} (h : e.Plain) {literal : String} :
    literal ∈ e.stored.document.normalize.numbers ↔
      literal ∈ e.memory.event.toJson.normalize.numbers := by
  rw [← numbers_stored, h.document, mem_numbers_obj, InMemory.exists_setField, Event.toJson,
    mem_numbers_obj e.stored.memory.event.nodup_keys]
  · intro p hp hname
    have htime : p.2 = time e.stored.memory.event.receivedAt := by
      have hlookup := lookup_of_mem e.stored.memory.event.nodup_keys hp
      rw [hname, e.stored.memory.event.lookup_times.2] at hlookup
      exact (Option.some.inj hlookup).symm
    rw [htime]
    simp [time, Json.normalize, numbers]
  · rw [InMemory.setField_keys]
    exact e.stored.memory.event.nodup_keys

theorem read_document {e : CallerEvent} (hplain : e.Plain)
    (hoccurred : Timestamp.HasYear e.stored.memory.event.occurredAt)
    (hreceived : Timestamp.HasYear (e.memory.event.receivedAt + e.receivedZone.nanos))
    {f : String → String} (hfixes : e.stored.memory.event.FixesIntegers f) :
    readStruct (Event.readFields InMemory.instantOf) (e.stored.document.mapNumbers f).normalize =
      some (e.stored.memory.event.mapNumbers f).normalized := by
  have hfields : Json.mapFields f e.stored.memory.event.jsonFields =
      (e.stored.memory.event.mapNumbers f).jsonFields := by
    have hmap := Event.toJson_mapNumbers hfixes
    unfold Event.toJson at hmap
    exact Json.obj.inj hmap
  have hkeys : ((InMemory.setField "received_at"
      (.str (Timestamp.formatIn e.receivedZone e.memory.event.receivedAt))
      (e.stored.memory.event.mapNumbers f).jsonFields).map Prod.fst).Nodup := by
    rw [InMemory.setField_keys]
    exact (e.stored.memory.event.mapNumbers f).nodup_keys
  have hutc : ∀ t : Time, readTime (fun text => some (Function.invFun Timestamp.format text))
      (some (Json.normalize (time t))) = some t :=
    fun t => congrArg some (Function.leftInverse_invFun Timestamp.format_injective t)
  -- any reader of texts in UTC reads the event without the zone
  have hread := @Event.read_toJson (fun text => some (Function.invFun Timestamp.format text))
    (e.stored.memory.event.mapNumbers f) (hutc _) (hutc _)
  have htimes := (e.stored.memory.event.mapNumbers f).lookup_times
  rw [← hread, hplain.document, Json.mapNumbers, mapFields_setField, hfields, Event.toJson,
    Json.normalize, Json.normalize, readStruct, readStruct]
  apply InMemory.readFields_congr
  · intro k _ hkr _
    rw [lookup_normalizeFields hkeys,
      lookup_normalizeFields (e.stored.memory.event.mapNumbers f).nodup_keys,
      InMemory.lookup_setField, if_neg hkr]
  · rw [lookup_normalizeFields hkeys,
      lookup_normalizeFields (e.stored.memory.event.mapNumbers f).nodup_keys,
      InMemory.lookup_setField, if_neg (by decide), htimes.1]
    simp only [Option.map_some, hutc]
    rw [time, Json.normalize, readTime, InMemory.instantOf]
    rw [show (e.stored.memory.event.mapNumbers f).occurredAt = e.stored.memory.event.occurredAt
      from rfl, Timestamp.parseIn_format hoccurred]
    rfl
  · rw [lookup_normalizeFields hkeys,
      lookup_normalizeFields (e.stored.memory.event.mapNumbers f).nodup_keys,
      InMemory.lookup_setField, if_pos rfl, htimes.2]
    simp only [Option.map_some, hutc]
    rw [Json.normalize, readTime, InMemory.instantOf, Timestamp.parseIn_formatIn hreceived]
    rfl
  · rw [lookup_normalizeFields hkeys,
      lookup_normalizeFields (e.stored.memory.event.mapNumbers f).nodup_keys,
      InMemory.lookup_setField, if_neg (by decide)]

end CallerEvent

/-! ## Section 5: One equivalence -/

theorem Equivalent.contentOf {a b : Event} (h : a.Equivalent b) :
    (Env.contentOf a).Equivalent (Env.contentOf b) where
  fields := congrArg Env.contentOf h.fields
  payload := h.payload
  changed := h.changed

theorem canonicalForm_eq {v w : Json}
    (hv : ∀ literal ∈ v.normalize.numbers, ∃ text, writeNumber literal = .ok text)
    (hw : ∀ literal ∈ w.normalize.numbers, ∃ text, writeNumber literal = .ok text)
    (h : v.denote = w.denote) :
    (v.mapNumbers (rewritten writeNumber)).normalize =
      (w.mapNumbers (rewritten writeNumber)).normalize := by
  have hform : ∀ u : Json,
      (∀ literal ∈ u.normalize.numbers, ∃ text, writeNumber literal = .ok text) →
        rewriteNumbers writeNumber u.normalize =
          .ok (u.mapNumbers (rewritten writeNumber)).normalize := by
    intro u hu
    rw [← mapNumbers_normalize]
    refine rewriteNumbers_of_forall _ fun literal hl => ?_
    obtain ⟨text, htext⟩ := hu literal hl
    simp [rewritten, htext]
  refine (canonical_rewriteNumbers (hform v hv)).unique (canonical_rewriteNumbers (hform w hw)) ?_
  rw [denote_canonicalForm, denote_canonicalForm, h]

namespace CallerEvent

variable {d : Deployment} {db : Database} {e e' : CallerEvent}

theorem Fits.fixes (h : e.Fits) :
    e.stored.memory.event.FixesIntegers (rewritten writeNumber) := by
  refine Event.fixesIntegers fun n hn => ?_
  obtain ⟨text, htext⟩ := h _ ((numbers_stored e _).1 hn)
  have hint := writeNumber_int htext
  simp [rewritten, htext, hint]

theorem fixes_numeric (db : Database) (e : Event) : e.FixesIntegers db.numeric :=
  ⟨db.numeric_int _, fun _ => db.numeric_int _, fun _ => db.numeric_int _⟩

theorem numbers_content {event : Event} {literal : String}
    (h : literal ∈ (Env.contentOf event).toJson.normalize.numbers) :
    literal ∈ event.toJson.normalize.numbers := by
  rw [Event.mem_numbers] at h ⊢
  rcases h with h | h | h | h | ⟨hne, -⟩
  · exact .inl h
  · exact .inr (.inl h)
  · exact .inr (.inr (.inl h))
  · exact .inr (.inr (.inr (.inl h)))
  · exact absurd rfl hne

theorem digest_congr {a b : InMemory} (ha : a.Untyped) (hb : b.Untyped)
    (hfits : ∀ literal ∈ a.event.toJson.normalize.numbers, ∃ text, writeNumber literal = .ok text)
    (hfits' : ∀ literal ∈ b.event.toJson.normalize.numbers, ∃ text, writeNumber literal = .ok text)
    (h : a.event.Equivalent b.event) :
    ∃ digest, a.contentDigest d = .ok digest ∧ b.contentDigest d = .ok digest := by
  have ha' : a.content.Untyped := ha
  have hb' : b.content.Untyped := hb
  obtain ⟨x, hx⟩ := (@Json.canonicalJSON_succeeds (Env.contentOf a.event).toJson).2
    fun literal hl => hfits literal (numbers_content hl)
  obtain ⟨y, hy⟩ := (@Json.canonicalJSON_succeeds (Env.contentOf b.event).toJson).2
    fun literal hl => hfits' literal (numbers_content hl)
  have hsame : x = y := (Event.canonicalJSON_eq_iff hx hy).2 (Equivalent.contentOf h)
  refine ⟨d.hash x, ?_, ?_⟩
  · rw [InMemory.contentDigest, ha'.canonicalJSON]
    show ((Env.contentOf a.event).canonicalJSON).map d.hash = .ok (d.hash x)
    rw [Event.canonicalJSON, hx]
    rfl
  · rw [InMemory.contentDigest, hb'.canonicalJSON, hsame]
    show ((Env.contentOf b.event).canonicalJSON).map d.hash = .ok (d.hash y)
    rw [Event.canonicalJSON, hy]
    rfl

/-- What an accepted event satisfies. -/
structure Accepted (e : CallerEvent) : Prop where
  occurred : Timestamp.HasYear e.stored.memory.event.occurredAt
  received : Timestamp.HasYear (e.memory.event.receivedAt + e.receivedZone.nanos)

theorem validate_ok (h : e.validate = .ok ()) : e.Accepted := by
  have hstored := checkAll_ok.1 h (e.stored.encode.map fun _ => ()) (by simp)
  obtain ⟨text, htext, -⟩ := map_ok hstored
  unfold encode at htext
  cases hmarshal : e.stored.marshal with
  | error err =>
    rw [hmarshal] at htext
    cases htext
  | ok encoded =>
    unfold marshal at hmarshal
    split_ifs at hmarshal with htimes
    obtain ⟨hoccurred, hreceived⟩ := htimes
    refine ⟨?_, hreceived⟩
    have hzero : e.stored.memory.event.occurredAt + e.stored.memory.zone.nanos =
        e.stored.memory.event.occurredAt := Int.add_zero _
    rwa [hzero] at hoccurred

theorem digest_decoded (hplain : e.Plain) (hfits : e.Fits) (h : e.Accepted) :
    ∃ m digest, InMemory.read (db.jsonb e.stored.document) = some m ∧
      m.contentDigest d = .ok digest ∧ e.contentDigest d = .ok digest := by
  have hread := read_document hplain h.occurred h.received
    (fixes_numeric db e.stored.memory.event)
  have hmapped : ∀ literal ∈ (e.stored.memory.event.mapNumbers db.numeric).normalized.toJson.normalize.numbers,
      ∃ text, writeNumber literal = .ok text := by
    intro literal hl
    rw [Event.toJson_normalized, ← Event.toJson_mapNumbers (fixes_numeric db _),
      ← mapNumbers_normalize, numbers_mapNumbers, List.mem_map] at hl
    obtain ⟨original, horiginal, rfl⟩ := hl
    obtain ⟨text, htext⟩ := hfits original ((numbers_stored e _).1 horiginal)
    exact db.numeric_fits original text htext
  have hsame := Event.equivalent_mapNumbers db.numeric_value e.stored.memory.event
  have hdecoded : InMemory.read (db.jsonb e.stored.document) =
      some { event := (e.stored.memory.event.mapNumbers db.numeric).normalized
             zone := InMemory.zoneOf (db.jsonb e.stored.document) } := by
    rw [InMemory.read, Database.jsonb, hread]
    rfl
  obtain ⟨digest, hdigest, hdigest'⟩ := @digest_congr d _ e.stored.memory
    (InMemory.untyped_of_nil (m := { event := _, zone := InMemory.zoneOf (db.jsonb e.stored.document) }) rfl)
    hplain.stored hmapped (fun literal hl => hfits literal ((numbers_stored e _).1 hl)) hsame
  exact ⟨_, digest, hdecoded, hdigest, hdigest'⟩

theorem denote_jsonb (db : Database) (v : Json) : (db.jsonb v).denote = v.denote :=
  (denote_normalize _).trans (denote_mapNumbers v fun literal _ => db.numeric_value literal)

theorem digest_of_jsonbEq (hplain : e.Plain) (hfits : e.Fits) (h : e.Accepted)
    (hplain' : e'.Plain) (hfits' : e'.Fits) (h' : e'.Accepted)
    (heq : db.jsonbEq (db.jsonb e.stored.document) (db.jsonb e'.stored.document) = true) :
    e.contentDigest d = e'.contentDigest d := by
  have hdenote : e.stored.document.denote = e'.stored.document.denote := by
    have hvalue := (db.jsonbEq_iff _ _).1 heq
    rwa [denote_jsonb, denote_jsonb] at hvalue
  have hform := canonicalForm_eq
    (fun literal hl => hfits literal ((mem_numbers_document hplain).1 hl))
    (fun literal hl => hfits' literal ((mem_numbers_document hplain').1 hl)) hdenote
  have hread := read_document hplain h.occurred h.received hfits.fixes
  rw [hform, read_document hplain' h'.occurred h'.received hfits'.fixes] at hread
  have hcanonical : e'.stored.memory.event.canonical = e.stored.memory.event.canonical :=
    Option.some.inj hread
  have hsame : e.stored.memory.event.Equivalent e'.stored.memory.event := by
    have hequiv := e.stored.memory.event.equivalent_canonical.symm
    rw [← hcanonical] at hequiv
    exact hequiv.trans e'.stored.memory.event.equivalent_canonical
  obtain ⟨digest, hdigest, hdigest'⟩ := @digest_congr d e.stored.memory e'.stored.memory
    hplain.stored hplain'.stored (fun literal hl => hfits literal ((numbers_stored e _).1 hl))
    (fun literal hl => hfits' literal ((numbers_stored e' _).1 hl)) hsame
  exact hdigest.trans hdigest'.symm

end CallerEvent

/-! ## Section 6: Tables written by `Insert` -/

/-- A row and the event it was written for. -/
structure Entry where
  row : Row
  event : CallerEvent

def rows (s : List Entry) : List Row := s.map Entry.row

inductive TableAction where
  | insert (id : Int) (now : Time) (e : CallerEvent)
  /-- A relay records the outcome of a delivery. -/
  | settle (id : Int) (patch : Update)

/-- A table to which callers and relays write. -/
def writing (d : Deployment) (db : Database) : Transition.System (List Entry) TableAction where
  init s := s = []
  step s
    | .insert id now e =>
      if (insert d db (rows s) id now e).1 = rows s then some s
      else some (s ++ [⟨newRow db id now e, e⟩])
    | .settle id patch => some (s.map fun entry =>
        { entry with row :=
            if entry.row.id = id ∧ entry.row.status = .pending then patch.set entry.row
            else entry.row })

/-- Inserts of events whose numbers have canonical forms, and no side of a changed
    field is a nil map or slice. -/
def plainInserts (_ : List Entry) : TableAction → Prop
  | .insert _ _ e => e.Fits ∧ e.Plain
  | .settle _ _ => True

/-- What `Insert` leaves in a row, whatever a relay writes later. -/
structure Written (db : Database) (entry : Entry) : Prop where
  eventID : entry.row.eventID = some entry.event.stored.memory.event.eventID
  payload : entry.row.payload = db.jsonb entry.event.stored.document
  accepted : entry.event.Accepted
  fits : entry.event.Fits
  plain : entry.event.Plain

structure TableInvariant (db : Database) (s : List Entry) : Prop where
  written : ∀ entry ∈ s, Written db entry
  unique : s.Pairwise fun a b => a.row.eventID ≠ b.row.eventID

theorem insert_ne {d : Deployment} {db : Database} {table : List Row} {id : Int} {now : Time}
    {e : CallerEvent} (h : (insert d db table id now e).1 ≠ table) :
    e.validate = .ok () ∧ ∀ row ∈ table, ¬ clashes row (newRow db id now e) := by
  unfold insert at h
  split at h
  · exact absurd rfl h
  · rename_i hvalid
    split_ifs at h with hclash
    · exact absurd rfl h
    · refine ⟨hvalid, fun row hrow hc => hclash ⟨row, hrow, hc⟩⟩

theorem writing_invariant {d : Deployment} {db : Database} {s : List Entry}
    (h : (writing d db).Reach plainInserts s) : TableInvariant db s := by
  refine Transition.System.Reach.invariant (P := TableInvariant db) ?_ ?_ h
  · rintro s rfl
    exact ⟨fun entry hentry => (by cases hentry), List.Pairwise.nil⟩
  · rintro s (⟨id, now, e⟩ | ⟨id, patch⟩) s' - hs hguard hstep
    · simp only [writing] at hstep
      split_ifs at hstep with hsame
      · cases hstep
        exact hs
      · cases hstep
        obtain ⟨hvalid, hfree⟩ := insert_ne hsame
        refine ⟨?_, ?_⟩
        · intro entry hentry
          rcases List.mem_append.1 hentry with hold | hnew
          · exact hs.written entry hold
          · rw [List.mem_singleton.1 hnew]
            exact ⟨rfl, rfl, CallerEvent.validate_ok hvalid, hguard.1, hguard.2⟩
        · refine List.pairwise_append.2 ⟨hs.unique, List.pairwise_singleton _ _, ?_⟩
          intro a ha b hb heq
          rw [List.mem_singleton.1 hb] at heq
          exact hfree a.row (List.mem_map_of_mem ha) (.inl heq)
    · -- A relay leaves the identity and the payload of rows.
      cases hstep
      have hkeeps : ∀ entry : Entry, (if entry.row.id = id ∧ entry.row.status = .pending then
          patch.set entry.row else entry.row).eventID = entry.row.eventID ∧
          (if entry.row.id = id ∧ entry.row.status = .pending then
            patch.set entry.row else entry.row).payload = entry.row.payload := by
        intro entry
        split <;> exact ⟨rfl, rfl⟩
      refine ⟨?_, ?_⟩
      · intro entry' hentry'
        obtain ⟨entry, hentry, rfl⟩ := List.mem_map.1 hentry'
        have hold := hs.written entry hentry
        exact ⟨(hkeeps entry).1.trans hold.eventID, (hkeeps entry).2.trans hold.payload,
          hold.accepted, hold.fits, hold.plain⟩
      · refine List.pairwise_map.2 (hs.unique.imp fun {a b} hne => ?_)
        rw [(hkeeps a).1, (hkeeps b).1]
        exact hne

/-! ## Section 7: What `Insert` returns -/

theorem duplicateOutcome_ok {status : RowStatus} :
    duplicateOutcome status = .ok () ↔ status ≠ .failed := by
  unfold duplicateOutcome
  split_ifs with h
  · simp [h]
  · simp [h]

/-- `Insert` reports nothing but conflicts here. -/
def Conflict (r : Except Err Unit) : Prop := r ≠ .ok () → ∃ detail, r = .error (.conflict detail)

theorem duplicateOutcome_conflict (status : RowStatus) : Conflict (duplicateOutcome status) := by
  intro hne
  unfold duplicateOutcome at hne ⊢
  split_ifs at hne ⊢ with h
  · exact ⟨_, rfl⟩
  · exact absurd rfl hne

section Outcome

variable {d : Deployment} {db : Database} {s : List Entry} {e : CallerEvent}

theorem classifyContentConflict_eq {row : Row} {m : InMemory} {stored candidate : String}
    (hread : InMemory.read row.payload = some m) (hstored : m.contentDigest d = .ok stored)
    (hcandidate : e.contentDigest d = .ok candidate) :
    classifyContentConflict d row e =
      if candidate = stored then duplicateOutcome row.status
      else .error (.conflict "event_id already exists with different canonical content") := by
  unfold classifyContentConflict
  rw [hread]
  simp only [hcandidate, hstored, ne_eq, ite_not]

theorem classify_row {entry : Entry} (hwritten : Written db entry) (hfits : e.Fits)
    (hplain : e.Plain) (haccepted : e.Accepted) :
    (if db.jsonbEq entry.row.payload (db.jsonb e.stored.document) then
        duplicateOutcome entry.row.status
      else classifyContentConflict d entry.row e) =
      if entry.event.contentDigest d = e.contentDigest d then duplicateOutcome entry.row.status
      else .error (.conflict "event_id already exists with different canonical content") := by
  obtain ⟨m, digest, hread, hdecoded, hrow⟩ := @CallerEvent.digest_decoded d db _
    hwritten.plain hwritten.fits hwritten.accepted
  obtain ⟨_, candidate, -, -, hcandidate⟩ := @CallerEvent.digest_decoded d db _
    hplain hfits haccepted
  rw [hwritten.payload]
  split_ifs with hjsonb hdigest hdigest
  · rfl
  · exact absurd (CallerEvent.digest_of_jsonbEq hwritten.plain hwritten.fits hwritten.accepted
      hplain hfits haccepted hjsonb) hdigest
  · rw [hrow, hcandidate, Except.ok.injEq] at hdigest
    rw [← hwritten.payload] at hread
    rw [classifyContentConflict_eq hread hdecoded hcandidate, if_pos hdigest.symm]
  · rw [hrow, hcandidate, Except.ok.injEq] at hdigest
    rw [← hwritten.payload] at hread
    rw [classifyContentConflict_eq hread hdecoded hcandidate, if_neg (Ne.symm hdigest)]

theorem find_row (hs : TableInvariant db s) {entry : Entry} (hentry : entry ∈ s) {eventID : String}
    (hid : entry.row.eventID = some eventID) :
    (rows s).find? (fun row => row.eventID = some eventID) = some entry.row := by
  have hfound : ((rows s).find? fun row => row.eventID = some eventID).isSome = true :=
    List.find?_isSome.2 ⟨entry.row, List.mem_map_of_mem hentry, decide_eq_true hid⟩
  obtain ⟨row, hrow⟩ := Option.isSome_iff_exists.1 hfound
  obtain ⟨other, hother, rfl⟩ := List.mem_map.1 (List.mem_of_find?_eq_some hrow)
  have hotherID : other.row.eventID = some eventID := by
    simpa using List.find?_some hrow
  rw [hrow]
  have hsymm : Std.Symm fun a b : Entry => a.row.eventID ≠ b.row.eventID := ⟨fun _ _ h => h.symm⟩
  by_cases heq : other = entry
  · rw [heq]
  · exact absurd (hotherID.trans hid.symm) (hs.unique.forall hother hentry heq)

theorem classifyZeroRows_found (hs : TableInvariant db s) (hfits : e.Fits) (hplain : e.Plain)
    (haccepted : e.Accepted) {entry : Entry} (hentry : entry ∈ s)
    (hid : entry.row.eventID = some e.stored.memory.event.eventID) :
    classifyZeroRows d db (rows s) e =
      if entry.event.contentDigest d = e.contentDigest d then duplicateOutcome entry.row.status
      else .error (.conflict "event_id already exists with different canonical content") := by
  unfold classifyZeroRows
  rw [find_row hs hentry hid]
  exact classify_row (hs.written entry hentry) hfits hplain haccepted

theorem classifyZeroRows_of_content {row : Row}
    (hid : row.eventID = some e.stored.memory.event.eventID) (hstatus : row.status ≠ .failed)
    (hcontent : classifyContentConflict d row e = .ok ()) :
    classifyZeroRows d db [row] e = .ok () := by
  have hfind : [row].find? (fun row => row.eventID = some e.stored.memory.event.eventID) =
      some row := List.find?_cons_of_pos (decide_eq_true hid)
  unfold classifyZeroRows
  rw [hfind]
  dsimp only
  split
  · exact duplicateOutcome_ok.2 hstatus
  · exact hcontent

theorem insert_absorbed {table : List Row} {row : Row} {id : Int} {now : Time}
    (hvalid : e.validate = .ok ()) (hrow : row ∈ table) (hclash : clashes row (newRow db id now e)) :
    insert d db table id now e = (table, classifyZeroRows d db table e) := by
  unfold insert
  rw [hvalid]
  dsimp only
  rw [if_pos ⟨row, hrow, hclash⟩]

theorem classifyZeroRows_absent
    (hnone : ∀ entry ∈ s, entry.row.eventID ≠ some e.stored.memory.event.eventID) :
    ∃ detail, classifyZeroRows d db (rows s) e = .error (.conflict detail) := by
  have hfind : (rows s).find? (fun row => row.eventID = some e.stored.memory.event.eventID) =
      none := by
    refine List.find?_eq_none.2 fun row hrow => ?_
    obtain ⟨entry, hentry, rfl⟩ := List.mem_map.1 hrow
    simpa using hnone entry hentry
  unfold classifyZeroRows
  rw [hfind]
  dsimp only
  split <;> exact ⟨_, rfl⟩

end Outcome

/-! ## Section 8: Nil collections -/

/-- A database that prints numbers in canonical form. -/
noncomputable def canonicalDatabase : Database where
  numeric := rewritten writeNumber
  jsonbEq v w := @decide (v.denote = w.denote) (Classical.propDecidable _)
  numeric_value := literalValue_rewritten
  numeric_int n := by
    unfold rewritten
    split
    · next text htext => exact writeNumber_int htext
    · rfl
  numeric_fits literal text h := by
    have hsame : rewritten writeNumber literal = text := by simp [rewritten, h]
    exact ⟨text, by rw [hsame, writeNumber_idem h]⟩
  jsonbEq_iff v w := by simp

/-- An order whose tags were changed from none. -/
def taggedOrder (receivedAt : Time) (typedNil : List (String × Side)) : CallerEvent :=
  { memory :=
      { event :=
          { eventID := "evt-1", tenantID := "acme", sourceSystem := "orders"
            eventType := "order.changed", schemaID := "order", schemaVersion := 1
            occurredAt := 63839664000000000123, receivedAt := receivedAt, actor := { id := "clerk" }
            action := "update", outcome := "success", dataClassification := "internal"
            retentionClass := "standard", idempotencyKey := "key-1"
            changedFields := (∅ : Dict FieldChange).insert "tags" { after := .str "vip" }
            payload := (∅ : Dict Json).insert "total" (.num "1.50") }
        typedNil := typedNil } }

theorem CallerEvent.encode_small {e : CallerEvent} (htimes : e.TimesMarshal)
    (hvalid : e.document.normalize.valid = true)
    (htext : (print e.document.normalize).all (fun c => c.toNat < 128) = true ∧
      (print e.document.normalize).length ≤ CallerEvent.maxEventBytes) :
    (e.encode.map fun _ => ()) = .ok () := by
  have hmarshal : e.marshal = .ok (String.ofList (print e.document.normalize)) := by
    rw [CallerEvent.marshal, if_pos htimes, Json.marshal, if_pos hvalid, toText]
  have hsize := @utf8ByteSize_of_ascii (String.ofList (print e.document.normalize))
    (by rw [String.toList_ofList]; exact fun c hc => by simpa using List.all_eq_true.1 htext.1 c hc)
  rw [String.toList_ofList] at hsize
  rw [CallerEvent.encode, hmarshal]
  dsimp only
  rw [hsize, if_neg (by have := htext.2; omega)]
  rfl

/-- Small enough to be written: both encodings of an event. -/
def CallerEvent.Short (e : CallerEvent) : Prop :=
  e.TimesMarshal ∧ e.document.normalize.valid = true ∧
    (print e.document.normalize).all (fun c => c.toNat < 128) = true ∧
      (print e.document.normalize).length ≤ CallerEvent.maxEventBytes

instance (e : CallerEvent) : Decidable e.Short := inferInstanceAs (Decidable (_ ∧ _ ∧ _ ∧ _))

theorem CallerEvent.validate_short {e : CallerEvent} (htenant : e.memory.event.tenantID ≠ "")
    (hbasic : e.memory.event.validateBasic e.payloadNil = .ok ()) (hshort : e.Short)
    (hstored : e.stored.Short) : e.validate = .ok () := by
  refine checkAll_ok.2 fun check hcheck => ?_
  simp only [List.mem_cons, List.not_mem_nil, or_false] at hcheck
  rcases hcheck with rfl | rfl | rfl | rfl
  · exact require_ok.2 (decide_eq_true htenant)
  · exact hbasic
  · exact encode_small hshort.1 hshort.2.1 hshort.2.2
  · exact encode_small hstored.1 hstored.2.1 hstored.2.2

theorem taggedOrder_fits (typedNil : List (String × Side)) : (taggedOrder 0 typedNil).Fits := by
  have hall : (taggedOrder 0 []).memory.event.toJson.normalize.numbers.all
      (fun literal => (writeNumber literal).isOk) = true := by decide +kernel
  intro literal hl
  have hok := List.all_eq_true.1 hall literal hl
  exact ⟨_, eq_ok_okValue hok⟩

theorem taggedOrder_plain : (taggedOrder 0 []).Plain := InMemory.untyped_of_nil rfl

theorem taggedOrder_valid : (taggedOrder 0 []).validate = .ok () :=
  CallerEvent.validate_short (by decide) (by decide +kernel) (by decide +kernel) (by decide +kernel)

theorem nilOrder_valid : (taggedOrder 0 [("tags", .before)]).validate = .ok () :=
  CallerEvent.validate_short (by decide) (by decide +kernel) (by decide +kernel) (by decide +kernel)

theorem insert_first (d : Deployment) (db : Database) (id : Int) (now : Time) {e : CallerEvent}
    (h : e.validate = .ok ()) : insert d db [] id now e = ([newRow db id now e], .ok ()) := by
  unfold insert
  rw [h]
  dsimp only
  rw [if_neg (fun ⟨row, hrow, _⟩ => List.not_mem_nil hrow)]
  rfl

end Outbox

end AuditGovernance
