import AuditGovernance.Framework.Paging
import AuditGovernance.Domain.Cursors
import AuditGovernance.Service.EvidenceReads
import AuditGovernance.Service.Schemas

/-! # Console pages

    `QueryConsoleEvents` (`internal/service/console_read.go`): one page of the
    events a query selects, newest first. The next page starts strictly behind
    the position of the last event in the order (occurred at, sequence, event
    id), so events of different tenants at one position can be lost
    (`console_paging_visits_once_iff`).

    The read is over one captured snapshot. The audit record of the read and
    the deadline are left out.
-/

namespace AuditGovernance

open FiniteMap Paging

/-! ## Section 1: The order of events -/

/-- `compareEvents`. -/
def compareEvents (a b : Event) : Bool :=
  if a.occurredAt = b.occurredAt then
    if a.sequence = b.sequence then a.eventID < b.eventID
    else a.sequence < b.sequence
  else a.occurredAt < b.occurredAt

/-- `sortEvents`. -/
def sortEvents (sort : SliceSort) (events : List Event) : List Event :=
  sort.run compareEvents events

/-- The place of an event in the chronological order. -/
def Event.position (e : Event) : Int ×ₗ (Int ×ₗ String) :=
  toLex (e.occurredAt, toLex (e.sequence, e.eventID))

theorem position_lt_iff {a b : Event} : a.position < b.position ↔
    a.occurredAt < b.occurredAt ∨ a.occurredAt = b.occurredAt ∧
      (a.sequence < b.sequence ∨ a.sequence = b.sequence ∧ a.eventID < b.eventID) := by
  unfold Event.position
  rw [Prod.Lex.toLex_lt_toLex, Prod.Lex.toLex_lt_toLex]

theorem compareEvents_eq : compareEvents = fun a b => decide (a.position < b.position) := by
  funext a b
  rw [Bool.eq_iff_iff, decide_eq_true_eq, position_lt_iff]
  unfold compareEvents
  split_ifs with hat hsequence
  · simp [hat, hsequence]
  · simp [hat, hsequence]
  · simp [hat]

theorem sortEvents_sorted (sort : SliceSort) (events : List Event) :
    (sortEvents sort events).Pairwise (fun a b => a.position ≤ b.position) := by
  unfold sortEvents
  rw [compareEvents_eq]
  exact sort.sorted Event.position events

theorem sortEvents_perm (sort : SliceSort) (events : List Event) :
    (sortEvents sort events).Perm events := sort.perm _ events

theorem Event.eventID_of_position {a b : Event} (h : a.position = b.position) :
    a.eventID = b.eventID := congrArg (fun p => (ofLex (ofLex p).2).2) h

/-! ## Section 2: The page function -/

/-- `QueryResult`. -/
structure QueryResult where
  items : List Event
  count : Nat
  nextCursor : String
deriving DecidableEq, Inhabited

/-- The result as a page: without a cursor it is the last one. -/
def QueryResult.page (result : QueryResult) : Page Event String :=
  ⟨result.items, if result.nextCursor = "" then none else some result.nextCursor⟩

/-- `requireOptionalTenantScope`. -/
def requireOptionalTenantScope (tenantID : String) : Except Err Unit :=
  if tenantID = "" then .ok () else validTenantID tenantID

def maxPageSize : Int := 1000

/-- `validateConsoleReadQuery`. -/
def validateConsoleReadQuery (query : Query) : Except Err Unit :=
  checkAll
    [require (query.from_ ≠ 0 ∧ query.to_ ≠ 0) (.invalid "from and to are required"),
      require (query.from_ < query.to_) (.invalid "from must be before to"),
      require ((query.payloadField = "") = (query.payloadDigest = ""))
        (.invalid "payload_field and payload_digest must be provided together"),
      require (0 < query.pageSize ∧ query.pageSize ≤ maxPageSize) (.invalid "invalid page size")]

/-- `eventBeforeCursor`. -/
def eventBeforeCursor (event : Event) (cursor : Cursor) : Bool :=
  if event.occurredAt ≠ cursor.occurredAt then event.occurredAt < cursor.occurredAt
  else event.sequence < cursor.sequence ∨
    (event.sequence = cursor.sequence ∧ event.eventID < cursor.eventID)

/-- `consoleEventsBeforeCursor`. -/
def consoleEventsBeforeCursor (events : List Event) (raw : String) : Except Err (List Event) :=
  match decodeCursor raw with
  | .error err => .error err
  | .ok cursor =>
    if cursor.legacy then .error (.invalid "stale cursor")
    else .ok (events.filter (fun event => eventBeforeCursor event cursor))

/-- The cursor of an event. -/
def Event.cursor (e : Event) : Cursor :=
  { occurredAt := e.occurredAt, sequence := e.sequence, eventID := e.eventID }

/-- `consoleEventPage`. -/
def consoleEventPage (events : List Event) (limit : Nat) : QueryResult :=
  let items := events.take limit
  { items := items
    count := events.length
    nextCursor :=
      if items.length < events.length then
        ((items.getLast?).map (fun last => encodeCursor last.cursor)).getD ""
      else "" }

section Console

variable (d : Deployment) (archive : ArchiveReads) (sort : SliceSort) (data : Snapshot)

/-- `consoleEvents`. -/
def Deployment.consoleEvents (tenantID : String) (query : Query) : Except Err (List Event) :=
  d.authenticatedQueryEvents archive data tenantID query 0

/-- `QueryConsoleEvents`. -/
def Deployment.queryConsoleEvents (tenantID : String) (query : Query) : Except Err QueryResult :=
  match requireOptionalTenantScope tenantID with
  | .error err => .error err
  | .ok () =>
    match validateConsoleReadQuery query with
    | .error err => .error err
    | .ok () =>
      match d.consoleEvents archive data tenantID query with
      | .error err => .error err
      | .ok events =>
        let newest := (sortEvents sort events).reverse
        (if query.cursor = "" then .ok newest
          else consoleEventsBeforeCursor newest query.cursor).map fun events =>
            consoleEventPage events query.pageSize.toNat

/-- The pages of a query, by cursor. -/
def Deployment.consolePage (tenantID : String) (query : Query) (cursor : String) :
    Except Err (Page Event String) :=
  (d.queryConsoleEvents archive sort data tenantID { query with cursor := cursor }).map
    QueryResult.page

end Console

/-! ## Section 3: Pages of a sorted list -/

/-- Newest first. -/
def Event.newness (e : Event) : (Int ×ₗ (Int ×ₗ String))ᵒᵈ := OrderDual.toDual e.position

theorem firstPage_of_result {result : QueryResult} {text : Event → String} {left : List Event}
    {n : Nat} (hn : 0 < n) (htext : ∀ e, text e ≠ "") (hitems : result.items = left.take n)
    (hnext : result.nextCursor =
      if left.length ≤ n then "" else (((left.take n).getLast?).map text).getD "") :
    result.page = firstPage n text left := by
  unfold QueryResult.page firstPage
  rw [hitems, hnext]
  by_cases hlong : left.length ≤ n
  · simp [hlong]
  · have hne : left.take n ≠ [] := by
      intro hnil
      have hlength : (left.take n).length = n := List.length_take_of_le (by omega)
      rw [hnil, List.length_nil] at hlength
      omega
    rw [List.getLast?_eq_some_getLast hne]
    simp [hlong, htext]

theorem consoleEventPage_page (left : List Event) {n : Nat} (hn : 0 < n) :
    (consoleEventPage left n).page = firstPage n (fun e => encodeCursor e.cursor) left := by
  apply firstPage_of_result hn (fun e => encodeCursor_ne_empty e.cursor) rfl
  show (if (left.take n).length < left.length then _ else _) = _
  have hlength : (left.take n).length < left.length ↔ ¬ left.length ≤ n := by
    rw [List.length_take]
    omega
  by_cases hlong : left.length ≤ n
  · rw [if_neg (by rw [hlength]; simpa using hlong), if_pos hlong]
  · rw [if_pos (hlength.2 hlong), if_neg hlong]

theorem eventBeforeCursor_eq (x e : Event) :
    eventBeforeCursor e x.cursor = decide (x.newness < e.newness) := by
  rw [Bool.eq_iff_iff, decide_eq_true_eq]
  show _ ↔ e.position < x.position
  rw [position_lt_iff]
  unfold eventBeforeCursor
  show (if e.occurredAt ≠ x.occurredAt then _ else _) = true ↔ _
  split_ifs with hat
  · simp [hat]
    rfl
  · have hat' : e.occurredAt = x.occurredAt := not_not.1 hat
    simp [hat']
    rfl

theorem consoleEventsBeforeCursor_cursor {x : Event} (hyear : Timestamp.HasYear x.occurredAt)
    (events : List Event) :
    consoleEventsBeforeCursor events (encodeCursor x.cursor) =
      .ok (behind Event.newness x.newness events) := by
  have hdecode : decodeCursor (encodeCursor x.cursor) = .ok x.cursor :=
    decodeCursor_encodeCursor rfl hyear
  unfold consoleEventsBeforeCursor
  rw [hdecode]
  show (if x.cursor.legacy = true then _ else _) = _
  rw [if_neg (by simp [Event.cursor])]
  unfold behind
  simp only [eventBeforeCursor_eq]

/-! ## Section 4: The walk -/

section Walk

variable {d : Deployment} {archive : ArchiveReads} {data : Snapshot} {tenantID : String}
  {query : Query} {events : List Event}

/-- What a query selects does not depend on the cursor. -/
theorem consoleEvents_cursor (cursor : String) :
    d.consoleEvents archive data tenantID { query with cursor := cursor } =
      d.consoleEvents archive data tenantID query := rfl

theorem queryConsoleEvents_eq (sort : SliceSort)
    (hscope : requireOptionalTenantScope tenantID = .ok ())
    (hvalid : validateConsoleReadQuery query = .ok ())
    (hread : d.consoleEvents archive data tenantID query = .ok events) (cursor : String) :
    d.queryConsoleEvents archive sort data tenantID { query with cursor := cursor } =
      (if cursor = "" then .ok (sortEvents sort events).reverse
        else consoleEventsBeforeCursor (sortEvents sort events).reverse cursor).map fun left =>
          consoleEventPage left query.pageSize.toNat := by
  have hvalid' : validateConsoleReadQuery { query with cursor := cursor } = .ok () := hvalid
  unfold Deployment.queryConsoleEvents
  rw [hscope]
  simp only [hvalid', consoleEvents_cursor, hread]

theorem validateConsoleReadQuery_pageSize (h : validateConsoleReadQuery query = .ok ()) :
    0 < query.pageSize := by
  have hsize := checkAll_ok.1 h
    (require (0 < query.pageSize ∧ query.pageSize ≤ maxPageSize) (.invalid "invalid page size"))
    (by simp)
  rw [require_ok, decide_eq_true_eq] at hsize
  exact hsize.1

theorem console_keyset (sort : SliceSort) (hscope : requireOptionalTenantScope tenantID = .ok ())
    (hvalid : validateConsoleReadQuery query = .ok ())
    (hread : d.consoleEvents archive data tenantID query = .ok events)
    (hyear : ∀ e ∈ events, Timestamp.HasYear e.occurredAt) :
    Keyset Event.newness (d.consolePage archive sort data tenantID query) "" query.pageSize.toNat
      (fun e => encodeCursor e.cursor) (fun _ => true) (sortEvents sort events).reverse := by
  have hsize := validateConsoleReadQuery_pageSize hvalid
  have hpositive : 0 < query.pageSize.toNat := by omega
  refine ⟨hpositive, ?_, ?_, ?_, ?_, fun _ _ _ _ _ h => h⟩
  · rw [List.pairwise_reverse]
    exact sortEvents_sorted sort events
  · unfold Deployment.consolePage
    rw [queryConsoleEvents_eq sort hscope hvalid hread, if_pos rfl]
    show Except.ok _ = _
    rw [consoleEventPage_page _ hpositive]
  · intro x hx _
    have hx' : x ∈ events := (sortEvents_perm sort events).mem_iff.1 (List.mem_reverse.1 hx)
    unfold Deployment.consolePage
    rw [queryConsoleEvents_eq sort hscope hvalid hread, if_neg (encodeCursor_ne_empty _),
      consoleEventsBeforeCursor_cursor (hyear x hx')]
    show Except.ok _ = _
    rw [consoleEventPage_page _ hpositive]
  · intro x _ hrefused
    cases hrefused

theorem consoleEvents_distinct (htenant : tenantID ≠ "")
    (hread : d.consoleEvents archive data tenantID query = .ok events) :
    events.Pairwise (fun a b => a.newness ≠ b.newness) := by
  unfold Deployment.consoleEvents Deployment.authenticatedQueryEvents referenceReceiptKeys at hread
  split at hread
  · cases hread
  next keys hkeys =>
  have hkeep : ∀ key receipt, referenceReceipt tenantID key receipt = .ok true →
      receipt.tenantID = tenantID ∧ key = eventKey receipt.tenantID receipt.eventID := by
    intro key receipt h
    unfold referenceReceipt at h
    dsimp only at h
    split at h
    · cases h
    next hother =>
    split at h
    · cases h
    next hbad =>
    rw [not_or, not_not, not_not] at hbad
    refine ⟨?_, hbad.2⟩
    -- A receipt of another tenant under a key of this one is a mismatch.
    by_contra hne
    apply hother
    refine ⟨htenant, hne, ?_⟩
    rw [hbad.1]
    exact fun h => hne (Option.some.inj h)
  obtain ⟨hnodup, hall⟩ := reads_distinct hkeys (fun _ _ => queryKey_ok)
    (fun key receipt h => (hkeep key receipt h).2) hread
  have htenants : ∀ e ∈ events, e.tenantID = tenantID := by
    intro e he
    obtain ⟨-, key, receipt, hkept, hauthentic⟩ := hall e he
    rw [hauthentic.tenantID, (hkeep key receipt hkept).1]
  apply (eventIDs_distinct hnodup htenants).imp
  intro a b hne heq
  exact hne (Event.eventID_of_position (OrderDual.toDual_inj.1 heq))

theorem console_walk_iff (sort : SliceSort) (hscope : requireOptionalTenantScope tenantID = .ok ())
    (hvalid : validateConsoleReadQuery query = .ok ())
    (hread : d.consoleEvents archive data tenantID query = .ok events)
    (hhorizon : ∀ e ∈ events, minOccurredAt ≤ e.occurredAt ∧ e.occurredAt ≤ maxOccurredAt) :
    VisitsOnce (d.consolePage archive sort data tenantID query) ""
        (fun a b => a.newness ≤ b.newness) events ↔
      Unsplit Event.newness query.pageSize.toNat events := by
  have hyear : ∀ e ∈ events, Timestamp.HasYear e.occurredAt :=
    fun e he => hasYear_of_horizon (hhorizon e he).1 (hhorizon e he).2
  have hkeyset := console_keyset sort hscope hvalid hread hyear
  have hperm : (sortEvents sort events).reverse.Perm events :=
    (List.reverse_perm _).trans (sortEvents_perm sort events)
  rw [hkeyset.visitsOnce_iff hperm]
  have haccepted : events.countP (fun _ => !true) < query.pageSize.toNat := by
    rw [List.countP_eq_zero.2 (fun _ _ h => by cases h)]
    exact hkeyset.positive
  exact ⟨fun h => h.1, fun h => ⟨h, .inr haccepted⟩⟩

end Walk

/-- **Console paging.** Following the cursors from the first page returns every
    selected event once, newest first, and ends, exactly if no page boundary
    separates selected events at one position. Over one tenant none does. -/
theorem console_paging_visits_once_iff (d : Deployment) (archive : ArchiveReads) (sort : SliceSort)
    (data : Snapshot) {tenantID : String} {query : Query} {events : List Event}
    (hscope : requireOptionalTenantScope tenantID = .ok ())
    (hvalid : validateConsoleReadQuery query = .ok ())
    (hread : d.consoleEvents archive data tenantID query = .ok events)
    (hhorizon : ∀ e ∈ events, minOccurredAt ≤ e.occurredAt ∧ e.occurredAt ≤ maxOccurredAt) :
    (VisitsOnce (d.consolePage archive sort data tenantID query) ""
        (fun a b => b.position ≤ a.position) events ↔
      Unsplit Event.newness query.pageSize.toNat events) ∧
    (tenantID ≠ "" → Unsplit Event.newness query.pageSize.toNat events) :=
  ⟨console_walk_iff sort hscope hvalid hread hhorizon,
    fun htenant => unsplit_of_distinct (consoleEvents_distinct htenant hread) _⟩

/-! ### Two tenants with a note at one position -/

/-- The note as the first event of its tenant's stream, with its digest and its
    hash. -/
def ledgeredNote (tenantID digest hash : String) : Event :=
  { noteEvent ∅ with
    tenantID := tenantID, sourceDigest := digest, streamID := tenantID ++ ":source:notes"
    sequence := 1, hash := hash }

/-- A store of ledgered events, each with the schema of notes of its tenant. -/
def storeOf (events : List Event) : Snapshot :=
  events.foldr (fun e data =>
    { data with
      schemas := data.schemas.insert (schemaKey e.tenantID "note" 1)
        { noteSchema [] [] with tenantID := e.tenantID }
      events := data.events.insert (eventKey e.tenantID e.eventID) e
      receipts := data.receipts.insert (eventKey e.tenantID e.eventID)
        (ledgeredReceipt e.tenantID e) }) {}

/-- Both tenants chose the event id `e1`. -/
def sharedNotes : List Event :=
  [ledgeredNote "acme" "ba920cbaa39765abcbc2d31c5b445e385569594780a5541ae6bbf1cf8b5b1c32"
      "214d97e4b56e9dd64699a167db084f7bcf06568950f6a4ebd7cf04ee40acb6a0",
    ledgeredNote "globex" "90aeaf899917e34605de69401c059e242d7b9a0a02b0cff5d690f1b6144a90c1"
      "d1c6388977cd578fc18efabce013960d5e5f14f9892568927334a34cee92fa82"]

def onePerPage : Query :=
  { from_ := 63900000000000000000, to_ := 63900000000000000001, pageSize := 1 }

theorem sharedNotes_selected :
    (developmentDeployment 2).consoleEvents none (storeOf sharedNotes) "" onePerPage =
      .ok sharedNotes := by
  decide +kernel

theorem sharedNotes_horizon :
    ∀ e ∈ sharedNotes, minOccurredAt ≤ e.occurredAt ∧ e.occurredAt ≤ maxOccurredAt := by
  decide

theorem shared_notes_walk :
    (VisitsOnce ((developmentDeployment 2).consolePage none SliceSort.merge (storeOf sharedNotes)
        "" onePerPage) "" (fun a b => b.position ≤ a.position) sharedNotes ↔
      Unsplit Event.newness onePerPage.pageSize.toNat sharedNotes) ∧
    (("" : String) ≠ "" → Unsplit Event.newness onePerPage.pageSize.toNat sharedNotes) :=
  console_paging_visits_once_iff (developmentDeployment 2) none SliceSort.merge
    (storeOf sharedNotes) rfl rfl sharedNotes_selected sharedNotes_horizon

/-- With one event per page the second note is lost, whichever comes first. -/
theorem shared_note_skipped :
    requireOptionalTenantScope "" = .ok () ∧ validateConsoleReadQuery onePerPage = .ok () ∧
    (developmentDeployment 2).consoleEvents none (storeOf sharedNotes) "" onePerPage =
      .ok sharedNotes ∧
    ∀ sort : SliceSort,
      ¬ VisitsOnce ((developmentDeployment 2).consolePage none sort (storeOf sharedNotes)
        "" onePerPage) "" (fun a b => b.position ≤ a.position) sharedNotes := by
  refine ⟨rfl, rfl, sharedNotes_selected, ?_⟩
  intro sort hvisits
  have hunsplit := (console_walk_iff sort rfl rfl sharedNotes_selected sharedNotes_horizon).1 hvisits
  -- Nothing is newer than the first note, and two notes are where it is.
  apply hunsplit (ledgeredNote "acme"
      "ba920cbaa39765abcbc2d31c5b445e385569594780a5541ae6bbf1cf8b5b1c32"
      "214d97e4b56e9dd64699a167db084f7bcf06568950f6a4ebd7cf04ee40acb6a0")
    List.mem_cons_self 1 (Nat.dvd_refl 1)
  decide +kernel

end AuditGovernance
