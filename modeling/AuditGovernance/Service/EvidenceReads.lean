import AuditGovernance.Domain.EventJson
import AuditGovernance.Service.ArchiveKeys
import AuditGovernance.Service.QueryMatch

/-! # Authenticated reads

    Reads that return events take every candidate from its receipt: the event
    is hot or comes out of the archive, its schema, identity, content digest and
    hash are checked, and only then a query or a timeline selects it
    (`internal/service/query_evidence.go`, `console_evidence.go`,
    `timeline_evidence.go`, `export_checkpoint_hold.go`, `archive_fallback.go`).

    The store is one captured snapshot. The archive is what it has under each
    key, `none` if no archive is configured. Deadlines are left out.
-/

namespace AuditGovernance

open FiniteMap

/-! ## Section 1: One event -/

/-- The object under each key of a configured archive. -/
abbrev ArchiveReads := Option (String → Except Err String)

section OneEvent

variable (d : Deployment) (archive : ArchiveReads)

/-- `archivedEventContext`. -/
def Deployment.archivedEventContext (receipt : EventReceipt) : Except Err Event :=
  let context := "archived event " ++ receipt.eventID
  match archive with
  | none => .error (.plain (context ++ ": archive is not configured"))
  | some get =>
    match get (eventArchiveKey receipt.tenantID receipt.streamID receipt.sequence
        receipt.eventID) with
    | .error err => .error (.wrap context err)
    | .ok raw =>
      match Event.decode raw with
      | none => .error (.plain (context ++ ": decode"))
      | some event =>
        if event.eventID ≠ receipt.eventID ∨ event.tenantID ≠ receipt.tenantID ∨
            event.streamID ≠ receipt.streamID ∨ event.sequence ≠ receipt.sequence then
          .error (.plain (context ++ ": identity mismatch"))
        else
          match d.env.eventHash event with
          | .error err => .error (.wrap (context ++ ": hash derivation") err)
          | .ok hash =>
            if receipt.hash = "" ∨ hash ≠ receipt.hash then
              .error (.plain (context ++ ": hash does not match retained receipt"))
            else .ok event

/-- `queryEvidence`: a candidate before it is authenticated. -/
structure QueryEvidence where
  receipt : EventReceipt
  event : Option Event
  schemas : Dict EventSchema

/-- The body of a schema is the one its key names. -/
def EventSchema.Names (schema : EventSchema) (tenantID schemaID : String) (version : Int) : Prop :=
  schema.tenantID = tenantID ∧ schema.schemaID = schemaID ∧ schema.version = version

instance (schema : EventSchema) (tenantID schemaID : String) (version : Int) :
    Decidable (schema.Names tenantID schemaID version) := inferInstanceAs (Decidable (_ ∧ _ ∧ _))

/-- `resolveQueryEvidence` of an event that was found. -/
def Deployment.authenticate (candidate : QueryEvidence) (event : Event) : Except Err Event :=
  match candidate.schemas[schemaKey event.tenantID event.schemaID event.schemaVersion]? with
  | none => .error (.conflict "query evidence exact schema identity mismatch")
  | some schema =>
    if schema.Names event.tenantID event.schemaID event.schemaVersion then
      (d.env.validatePublicationEvent event candidate.receipt candidate.schemas).map fun _ => event
    else .error (.conflict "query evidence exact schema identity mismatch")

/-- `resolveQueryEvidence`. -/
def Deployment.resolveQueryEvidence (candidate : QueryEvidence) : Except Err Event :=
  match candidate.event with
  | some event => d.authenticate candidate event
  | none => (d.archivedEventContext archive candidate.receipt).bind (d.authenticate candidate)

/-- The candidate of a receipt: hot, or archived. -/
def Snapshot.candidate (data : Snapshot) (key : String) (receipt : EventReceipt) :
    Except Err QueryEvidence :=
  match data.events[key]? with
  | some event => .ok { receipt := receipt, event := some event, schemas := data.schemas }
  | none =>
    if receipt.status = .archived then
      .ok { receipt := receipt, event := none, schemas := data.schemas }
    else .error (.notFound "")

/-- `matchesExportHoldEvidence`. -/
def Deployment.matchesExportHoldEvidence (source : Event) (schema : EventSchema) (query : Query) :
    Except Err Bool :=
  if d.matches_ source { query with payloadField := "", payloadDigest := "" } ∅ = false then
    .ok false
  else if query.payloadField = "" then .ok true
  else
    match source.payload[query.payloadField]? with
    | none => .ok false
    | some value =>
      if query.payloadField ∉ schema.searchableFields then .ok false
      else
        (if isBoundSearchDigest query.payloadDigest then
          searchDigestBound d.mac value source.tenantID query.payloadField
        else searchDigest d.mac value).map fun derived => derived = query.payloadDigest

end OneEvent

/-! ## Section 2: Whole reads -/

/-- The receipts a read takes into account, by key. Dictionaries list their keys
    in order, so the keys come out sorted. -/
def selectKeys (keep : String → EventReceipt → Except Err Bool) :
    List (String × EventReceipt) → Except Err (List String)
  | [] => .ok []
  | (key, receipt) :: rest =>
    match keep key receipt with
    | .error err => .error err
    | .ok true => (selectKeys keep rest).map (fun keys => key :: keys)
    | .ok false => selectKeys keep rest

/-- One receipt in `referenceReceiptKeys`. No tenant stands for all. -/
def referenceReceipt (tenantID key : String) (receipt : EventReceipt) : Except Err Bool :=
  let keyTenant := (splitTenantKey key).map Prod.fst
  if tenantID ≠ "" ∧ receipt.tenantID ≠ tenantID ∧ keyTenant ≠ some tenantID then .ok false
  else if keyTenant ≠ some receipt.tenantID ∨ key ≠ eventKey receipt.tenantID receipt.eventID then
    .error (.conflict "reference query receipt identity mismatch")
  else .ok true

/-- `referenceReceiptKeys`. -/
def referenceReceiptKeys (data : Snapshot) (tenantID : String) : Except Err (List String) :=
  selectKeys (referenceReceipt tenantID) data.receipts.toList

/-- One receipt in the scan of `readTimelineEvidence`. -/
def timelineReceipt (tenantID key : String) (receipt : EventReceipt) : Except Err Bool :=
  if receipt.tenantID ≠ tenantID ∧ (splitTenantKey key).map Prod.fst ≠ some tenantID then .ok false
  else if receipt.tenantID ≠ tenantID ∨ key ≠ eventKey tenantID receipt.eventID then
    .error (.conflict "timeline receipt identity mismatch")
  else .ok true

/-- The loop over the keys: read, then keep what is selected. A positive
    `maxMatches` bounds how many. -/
def collectMatches (read : String → Except Err (Option Event)) (maxMatches : Nat) :
    List Event → List String → Except Err (List Event)
  | events, [] => .ok events
  | events, key :: rest =>
    match read key with
    | .error err => .error err
    | .ok none => collectMatches read maxMatches events rest
    | .ok (some event) =>
      if 0 < maxMatches ∧ maxMatches ≤ events.length then
        .error (.quotaExceeded "query result budget exceeded; narrow filters")
      else collectMatches read maxMatches (events ++ [event]) rest

section Reads

variable (d : Deployment) (archive : ArchiveReads) (data : Snapshot)

/-- The authenticated event of a key, with its receipt. -/
def Deployment.readKey (key : String) : Except Err (EventReceipt × Event) :=
  let receipt := data.receipts[key]?.getD default
  match data.candidate key receipt with
  | .error err => .error err
  | .ok candidate => (d.resolveQueryEvidence archive candidate).map fun event => (receipt, event)

/-- The schema a key of the catalogue has, or the zero schema. -/
def Snapshot.schemaOf (tenantID : String) (event : Event) : EventSchema :=
  data.schemas[schemaKey tenantID event.schemaID event.schemaVersion]?.getD default

/-- What the predicates of a query see of an event: a query for a payload value
    sees it with its fields decrypted. -/
def Deployment.querySource (query : Query) (event : Event) : Except Err Event :=
  if query.payloadField = "" then .ok event
  else d.env.reconstructEventForDigest event data.schemas

/-- One key of `authenticatedQueryEvents`: the event if the query selects it. -/
def Deployment.queryKey (query : Query) (key : String) : Except Err (Option Event) :=
  match d.readKey archive data key with
  | .error err => .error err
  | .ok (receipt, event) =>
    let schema := data.schemaOf receipt.tenantID event
    if schema.Names receipt.tenantID event.schemaID event.schemaVersion then
      match d.querySource data query event with
      | .error err => .error err
      | .ok source =>
        (d.matchesExportHoldEvidence source schema query).map fun selected =>
          if selected then some event else none
    else .error (.conflict "reference query schema identity mismatch")

/-- `authenticatedQueryEvents`. -/
def Deployment.authenticatedQueryEvents (tenantID : String) (query : Query) (maxMatches : Nat) :
    Except Err (List Event) :=
  match referenceReceiptKeys data tenantID with
  | .error err => .error err
  | .ok keys => collectMatches (d.queryKey archive data query) maxMatches [] keys

/-- One key of `readTimelineEvidence`. -/
def Deployment.timelineKey (tenantID : String) (predicate : Event → Bool) (key : String) :
    Except Err (Option Event) :=
  match d.readKey archive data key with
  | .error err => .error err
  | .ok (_, event) =>
    if (data.schemaOf tenantID event).Names tenantID event.schemaID event.schemaVersion then
      .ok (if predicate event then some event else none)
    else .error (.conflict "timeline schema identity mismatch")

/-- `readTimelineEvidence`. -/
def Deployment.readTimelineEvidence (tenantID : String) (predicate : Event → Bool) :
    Except Err (List Event) :=
  match selectKeys (timelineReceipt tenantID) data.receipts.toList with
  | .error err => .error err
  | .ok keys =>
    match collectMatches (d.timelineKey archive data tenantID predicate) 0 [] keys with
    | .error err => .error err
    | .ok events => if events = [] then .error (.notFound "") else .ok events

end Reads

/-! ## Section 3: What a read returns -/

theorem selectKeys_sublist {keep : String → EventReceipt → Except Err Bool}
    {entries : List (String × EventReceipt)} {keys : List String}
    (h : selectKeys keep entries = .ok keys) : keys.Sublist (entries.map Prod.fst) := by
  induction entries generalizing keys with
  | nil =>
    cases h
    exact List.Sublist.refl _
  | cons entry rest ih =>
    obtain ⟨key, receipt⟩ := entry
    rw [selectKeys] at h
    split at h
    · cases h
    · cases hrest : selectKeys keep rest with
      | error err => rw [hrest] at h; cases h
      | ok found =>
        rw [hrest] at h
        cases h
        exact (ih hrest).cons_cons key
    · exact (ih h).cons key

theorem mem_selectKeys {keep : String → EventReceipt → Except Err Bool}
    {entries : List (String × EventReceipt)} {keys : List String}
    (h : selectKeys keep entries = .ok keys) {key : String} (hkey : key ∈ keys) :
    ∃ receipt, (key, receipt) ∈ entries ∧ keep key receipt = .ok true := by
  induction entries generalizing keys with
  | nil =>
    cases h
    cases hkey
  | cons entry rest ih =>
    obtain ⟨head, receipt⟩ := entry
    rw [selectKeys] at h
    split at h
    · cases h
    · next hkeep =>
      cases hrest : selectKeys keep rest with
      | error err => rw [hrest] at h; cases h
      | ok found =>
        rw [hrest] at h
        cases h
        rcases List.mem_cons.1 hkey with rfl | hkey
        · exact ⟨receipt, List.mem_cons_self, hkeep⟩
        · obtain ⟨receipt', hmem, hkeep'⟩ := ih hrest hkey
          exact ⟨receipt', List.mem_cons_of_mem _ hmem, hkeep'⟩
    · obtain ⟨receipt', hmem, hkeep'⟩ := ih h hkey
      exact ⟨receipt', List.mem_cons_of_mem _ hmem, hkeep'⟩

theorem collectMatches_ok {read : String → Except Err (Option Event)} {maxMatches : Nat}
    {events result : List Event} {keys : List String}
    (h : collectMatches read maxMatches events keys = .ok result) :
    ∃ found taken, result = events ++ taken ∧ found.Sublist keys ∧
      List.Forall₂ (fun key event => read key = .ok (some event)) found taken := by
  induction keys generalizing events with
  | nil =>
    cases h
    exact ⟨[], [], (List.append_nil _).symm, List.Sublist.refl _, .nil⟩
  | cons key rest ih =>
    rw [collectMatches] at h
    split at h
    · cases h
    · obtain ⟨found, taken, hresult, hsub, hall⟩ := ih h
      exact ⟨found, taken, hresult, hsub.cons key, hall⟩
    · next event hread =>
      split_ifs at h
      obtain ⟨found, taken, hresult, hsub, hall⟩ := ih h
      refine ⟨key :: found, event :: taken, ?_, hsub.cons_cons key, .cons hread hall⟩
      rw [hresult, List.append_assoc]
      rfl

/-- An event that authenticates is the one its receipt names. -/
structure Event.Authentic (event : Event) (receipt : EventReceipt) : Prop where
  tenantID : event.tenantID = receipt.tenantID
  eventID : event.eventID = receipt.eventID
  named : event.eventID ≠ ""

theorem validatePublicationEvent_ok {env : Env} {event : Event} {receipt : EventReceipt}
    {schemas : Dict EventSchema} (h : env.validatePublicationEvent event receipt schemas = .ok ()) :
    event.Authentic receipt := by
  unfold Env.validatePublicationEvent at h
  split_ifs at h with hbad
  simp only [not_or, not_not] at hbad
  obtain ⟨-, hid, -, -, -, htenant, hevent, -⟩ := hbad
  exact ⟨htenant, hevent, hevent ▸ hid⟩

section Results

variable {d : Deployment} {archive : ArchiveReads} {data : Snapshot}

theorem authenticate_ok {candidate : QueryEvidence} {event result : Event}
    (h : d.authenticate candidate event = .ok result) :
    result = event ∧ event.Authentic candidate.receipt := by
  unfold Deployment.authenticate at h
  split at h
  · cases h
  split_ifs at h
  cases hvalid : d.env.validatePublicationEvent event candidate.receipt candidate.schemas with
  | error err => rw [hvalid] at h; cases h
  | ok _ =>
    rw [hvalid] at h
    cases h
    exact ⟨rfl, validatePublicationEvent_ok hvalid⟩

theorem resolveQueryEvidence_ok {candidate : QueryEvidence} {event : Event}
    (h : d.resolveQueryEvidence archive candidate = .ok event) :
    event.Authentic candidate.receipt := by
  unfold Deployment.resolveQueryEvidence at h
  split at h
  · obtain ⟨rfl, hauthentic⟩ := authenticate_ok h
    exact hauthentic
  · cases harchived : d.archivedEventContext archive candidate.receipt with
    | error err => rw [harchived] at h; cases h
    | ok archived =>
      rw [harchived] at h
      obtain ⟨rfl, hauthentic⟩ := authenticate_ok h
      exact hauthentic

theorem readKey_ok {key : String} {receipt : EventReceipt} {event : Event}
    (h : d.readKey archive data key = .ok (receipt, event)) :
    receipt = data.receipts[key]?.getD default ∧ event.Authentic receipt := by
  unfold Deployment.readKey at h
  dsimp only at h
  split at h
  · cases h
  next candidate hcandidate =>
  have hreceipt : candidate.receipt = data.receipts[key]?.getD default := by
    unfold Snapshot.candidate at hcandidate
    split at hcandidate
    · cases hcandidate
      rfl
    · split_ifs at hcandidate
      cases hcandidate
      rfl
  cases hresolved : d.resolveQueryEvidence archive candidate with
  | error err => rw [hresolved] at h; cases h
  | ok resolved =>
    rw [hresolved] at h
    cases h
    exact ⟨rfl, hreceipt ▸ resolveQueryEvidence_ok hresolved⟩

theorem queryKey_ok {query : Query} {key : String} {event : Event}
    (h : d.queryKey archive data query key = .ok (some event)) :
    event.Authentic (data.receipts[key]?.getD default) := by
  unfold Deployment.queryKey at h
  split at h
  · cases h
  next receipt found hread =>
  obtain ⟨rfl, hauthentic⟩ := readKey_ok hread
  dsimp only at h
  split_ifs at h with hnames
  split at h
  · cases h
  next source _ =>
  cases hselected : d.matchesExportHoldEvidence source _ query with
  | error err => rw [hselected] at h; cases h
  | ok selected =>
    rw [hselected] at h
    cases selected with
    | false => cases h
    | true =>
      cases h
      exact hauthentic

theorem timelineKey_ok {tenantID : String} {predicate : Event → Bool} {key : String}
    {event : Event} (h : d.timelineKey archive data tenantID predicate key = .ok (some event)) :
    event.Authentic (data.receipts[key]?.getD default) := by
  unfold Deployment.timelineKey at h
  split at h
  · cases h
  next receipt found hread =>
  obtain ⟨rfl, hauthentic⟩ := readKey_ok hread
  split_ifs at h
  · cases h
    exact hauthentic
  · cases h

theorem reads_distinct {keep : String → EventReceipt → Except Err Bool}
    {read : String → Except Err (Option Event)} {maxMatches : Nat} {keys : List String}
    {events : List Event} (hkeys : selectKeys keep data.receipts.toList = .ok keys)
    (hread : ∀ key event, read key = .ok (some event) →
      event.Authentic (data.receipts[key]?.getD default))
    (hkeep : ∀ key receipt, keep key receipt = .ok true →
      key = eventKey receipt.tenantID receipt.eventID)
    (h : collectMatches read maxMatches [] keys = .ok events) :
    (events.map (fun e => eventKey e.tenantID e.eventID)).Nodup ∧
      ∀ e ∈ events, e.eventID ≠ "" ∧ ∃ key receipt,
        keep key receipt = .ok true ∧ e.Authentic receipt := by
  obtain ⟨found, taken, hresult, hsub, hall⟩ := collectMatches_ok h
  rw [List.nil_append] at hresult
  subst hresult
  have hnodup : keys.Nodup :=
    (List.pairwise_map.2 (entries_distinct data.receipts)).sublist (selectKeys_sublist hkeys)
  -- Every key is that of the event read under it.
  have hreceipt : ∀ key ∈ keys, keep key (data.receipts[key]?.getD default) = .ok true := by
    intro key hkey
    obtain ⟨receipt, hmem, hkept⟩ := mem_selectKeys hkeys hkey
    rw [mem_entries.1 hmem]
    exact hkept
  have hmem : ∀ key ∈ found, key ∈ keys := fun key hkey => hsub.subset hkey
  have hfound : events.map (fun e => eventKey e.tenantID e.eventID) = found := by
    clear h hkeys hsub hnodup
    induction hall with
    | nil => rfl
    | @cons key event found taken hkey _ ih =>
      have hauthentic := hread key event hkey
      have hkept := hkeep _ _ (hreceipt key (hmem key List.mem_cons_self))
      rw [List.map_cons, ih (fun k hk => hmem k (List.mem_cons_of_mem _ hk)), hauthentic.tenantID,
        hauthentic.eventID, ← hkept]
  refine ⟨hfound ▸ hnodup.sublist hsub, ?_⟩
  intro e he
  obtain ⟨i, hi, rfl⟩ := List.getElem_of_mem he
  have hi' : i < found.length := hall.length_eq ▸ hi
  have hauthentic := hread _ _ (hall.get hi' hi)
  exact ⟨hauthentic.named, _, _, hreceipt _ (hmem _ (List.getElem_mem hi')), hauthentic⟩

theorem eventIDs_distinct {events : List Event} {tenantID : String}
    (hnodup : (events.map (fun e => eventKey e.tenantID e.eventID)).Nodup)
    (htenants : ∀ e ∈ events, e.tenantID = tenantID) :
    events.Pairwise (fun a b => a.eventID ≠ b.eventID) := by
  have hkeys : events.Pairwise (fun a b => eventKey a.tenantID a.eventID ≠
      eventKey b.tenantID b.eventID) := List.pairwise_map.1 hnodup
  apply hkeys.imp_of_mem
  intro a b ha hb hne hid
  apply hne
  rw [htenants a ha, htenants b hb, hid]

theorem readTimelineEvidence_all {tenantID : String} {predicate : Event → Bool}
    {keys : List String} {events : List Event} (hne : events ≠ [])
    (hkeys : selectKeys (timelineReceipt tenantID) data.receipts.toList = .ok keys)
    (hread : List.Forall₂ (fun key event =>
      (d.readKey archive data key).map Prod.snd = .ok event) keys events)
    (hnames : ∀ e ∈ events,
      (data.schemaOf tenantID e).Names tenantID e.schemaID e.schemaVersion)
    (htaken : ∀ e ∈ events, predicate e = true) :
    d.readTimelineEvidence archive data tenantID predicate = .ok events := by
  have hkey : ∀ key e, e ∈ events → (d.readKey archive data key).map Prod.snd = .ok e →
      d.timelineKey archive data tenantID predicate key = .ok (some e) := by
    intro key e he hpair
    unfold Deployment.timelineKey
    cases hresult : d.readKey archive data key with
    | error err => rw [hresult] at hpair; cases hpair
    | ok pair =>
      obtain ⟨receipt, found⟩ := pair
      rw [hresult] at hpair
      cases hpair
      simp only [if_pos (hnames found he), htaken found he, if_true]
  have hcollect : ∀ taken, collectMatches (d.timelineKey archive data tenantID predicate) 0 taken
      keys = .ok (taken ++ events) := by
    clear hkeys hne hnames htaken
    induction hread with
    | nil => exact fun taken => by rw [collectMatches, List.append_nil]
    | @cons key event keys events hfirst _ ih =>
      intro taken
      rw [collectMatches, hkey key event List.mem_cons_self hfirst]
      simp only [Nat.lt_irrefl, false_and, if_false]
      rw [ih fun key e he => hkey key e (List.mem_cons_of_mem _ he), List.append_assoc]
      rfl
  unfold Deployment.readTimelineEvidence
  rw [hkeys]
  simp only [hcollect, List.nil_append, if_neg hne]

end Results

end AuditGovernance
