import AuditGovernance.Service.ConsolePages

/-! # Timeline pages

    `OperationTimelinePage` and `AggregateTimelinePage`
    (`internal/service/timeline.go`): the events of an operation in the
    chronological order, and those of an aggregate by version and event id.
    The cursor of a page carries the position of its last event and the scope
    of its timeline; reading it back refuses an empty scope and a negative
    version, which ingest admits (`timeline_paging_visits_once_iff`).

    The read is over one captured snapshot. The audit record of the read and
    the deadline are left out.
-/

namespace AuditGovernance

open FiniteMap Paging

/-! ## Section 1: The page function -/

def defaultPageSize : Nat := 100

/-- `timelinePageSize`. -/
def timelinePageSize (pageSize : Int) : Except Err Nat :=
  if pageSize ≤ 0 then .ok defaultPageSize
  else if pageSize > maxPageSize then .error (.invalid "page_size exceeds 1000")
  else .ok pageSize.toNat

/-- `afterTimelineCursor`. -/
def afterTimelineCursor (event : Event) (cursor : TimelineCursor) : Bool :=
  if cursor.kind = TimelineKind.aggregate.text then
    if event.aggregateVersion ≠ cursor.aggregateVersion then
      cursor.aggregateVersion < event.aggregateVersion
    else cursor.eventID < event.eventID
  else if event.occurredAt ≠ cursor.occurredAt then cursor.occurredAt < event.occurredAt
  else if event.sequence ≠ cursor.sequence then cursor.sequence < event.sequence
  else cursor.eventID < event.eventID

/-- `timelineCursorFor`. -/
def timelineCursorFor (kind : TimelineKind) (scope : String) (event : Event) : TimelineCursor :=
  { kind := kind.text, scope := scope, occurredAt := event.occurredAt
    aggregateVersion := event.aggregateVersion, sequence := event.sequence
    eventID := event.eventID }

/-- The page of `paginateTimeline` that starts with these events. -/
def timelinePage (kind : TimelineKind) (scope : String) (count n : Nat) (remaining : List Event) :
    QueryResult :=
  if remaining.length ≤ n then { items := remaining, count := count, nextCursor := "" }
  else
    { items := remaining.take n
      count := count
      nextCursor := (((remaining.take n).getLast?).map fun last =>
        encodeTimelineCursor (timelineCursorFor kind scope last)).getD "" }

/-- `paginateTimeline`. -/
def paginateTimeline (events : List Event) (kind : TimelineKind) (scope cursor : String)
    (pageSize : Int) : Except Err QueryResult :=
  match timelinePageSize pageSize with
  | .error err => .error err
  | .ok n =>
    if cursor = "" then .ok (timelinePage kind scope events.length n events)
    else
      match decodeTimelineCursor cursor with
      | .error err => .error err
      | .ok decoded =>
        if decoded.kind ≠ kind.text ∨ decoded.scope ≠ scope then
          .error (.invalid "cursor belongs to a different timeline")
        else
          .ok (timelinePage kind scope events.length n
            (events.dropWhile (fun event => !afterTimelineCursor event decoded)))

/-- The comparison that sorts an aggregate timeline. -/
def compareVersions (a b : Event) : Bool :=
  if a.aggregateVersion = b.aggregateVersion then a.eventID < b.eventID
  else a.aggregateVersion < b.aggregateVersion

section Timelines

variable (d : Deployment) (archive : ArchiveReads) (sort : SliceSort) (data : Snapshot)
  (tenantID : String)

/-- The evidence of an operation. -/
def Deployment.operationEvidence (operationID : String) : Except Err (List Event) :=
  d.readTimelineEvidence archive data tenantID (fun event => event.operationID = operationID)

/-- The evidence of an aggregate. -/
def Deployment.aggregateEvidence (aggregateType aggregateID : String) : Except Err (List Event) :=
  d.readTimelineEvidence archive data tenantID
    (fun event => event.aggregateType = aggregateType ∧ event.aggregateID = aggregateID)

/-- `OperationTimelinePage`. -/
def Deployment.operationTimelinePage (operationID : String) (pageSize : Int) (cursor : String) :
    Except Err QueryResult :=
  match requireTenantScope tenantID with
  | .error err => .error err
  | .ok () =>
    match d.operationEvidence archive data tenantID operationID with
    | .error err => .error err
    | .ok events =>
      paginateTimeline (sortEvents sort events) .operation operationID cursor pageSize

/-- The scope of an aggregate timeline. -/
def aggregateScope (aggregateType aggregateID : String) : String :=
  aggregateType ++ "\x1f" ++ aggregateID

/-- `AggregateTimelinePage`. -/
def Deployment.aggregateTimelinePage (aggregateType aggregateID : String) (pageSize : Int)
    (cursor : String) : Except Err QueryResult :=
  match requireTenantScope tenantID with
  | .error err => .error err
  | .ok () =>
    match d.aggregateEvidence archive data tenantID aggregateType aggregateID with
    | .error err => .error err
    | .ok events =>
      paginateTimeline (sort.run compareVersions events) .aggregate
        (aggregateScope aggregateType aggregateID) cursor pageSize

end Timelines

/-! ## Section 2: Timelines as keyset pages -/

/-- The place of an event in an aggregate timeline. -/
def Event.versionPosition (e : Event) : Int ×ₗ String := toLex (e.aggregateVersion, e.eventID)

theorem compareVersions_eq :
    compareVersions = fun a b => decide (a.versionPosition < b.versionPosition) := by
  funext a b
  rw [Bool.eq_iff_iff, decide_eq_true_eq]
  unfold Event.versionPosition compareVersions
  rw [Prod.Lex.toLex_lt_toLex]
  split_ifs with hversion
  · simp [hversion]
  · simp [hversion]

theorem afterTimelineCursor_aggregate (scope : String) (x e : Event) :
    afterTimelineCursor e (timelineCursorFor .aggregate scope x) =
      decide (x.versionPosition < e.versionPosition) := by
  have hkind : (timelineCursorFor .aggregate scope x).kind = TimelineKind.aggregate.text := rfl
  rw [Bool.eq_iff_iff, decide_eq_true_eq]
  unfold Event.versionPosition afterTimelineCursor
  rw [Prod.Lex.toLex_lt_toLex, if_pos hkind]
  show (if e.aggregateVersion ≠ x.aggregateVersion then _ else _) = true ↔ _
  split_ifs with hversion
  · simp [Ne.symm hversion]
    rfl
  · rw [not_not] at hversion
    simp [hversion]
    rfl

theorem afterTimelineCursor_operation (scope : String) (x e : Event) :
    afterTimelineCursor e (timelineCursorFor .operation scope x) =
      decide (x.position < e.position) := by
  have hkind : (timelineCursorFor .operation scope x).kind ≠ TimelineKind.aggregate.text := by
    show "operation" ≠ "aggregate"
    decide
  rw [Bool.eq_iff_iff, decide_eq_true_eq, position_lt_iff]
  unfold afterTimelineCursor
  rw [if_neg hkind]
  show (if e.occurredAt ≠ x.occurredAt then _ else
    if e.sequence ≠ x.sequence then _ else _) = true ↔ _
  split_ifs with hat hsequence
  · simp [Ne.symm hat]
    rfl
  · rw [not_not] at hat
    simp [hat, Ne.symm hsequence]
    rfl
  · rw [not_not] at hat hsequence
    simp [hat, hsequence]
    rfl

/-- The cursors that reading back accepts. -/
def timelineAccepts (kind : TimelineKind) (scope : String) (e : Event) : Bool :=
  scope ≠ "" ∧ (kind = .operation ∨ 0 ≤ e.aggregateVersion)

theorem decode_timelineCursorFor (kind : TimelineKind) (scope : String) {x : Event}
    (hyear : Timestamp.HasYear x.occurredAt) (hat : x.occurredAt ≠ 0) (hid : x.eventID ≠ "") :
    if timelineAccepts kind scope x then
      decodeTimelineCursor (encodeTimelineCursor (timelineCursorFor kind scope x)) =
        .ok { timelineCursorFor kind scope x with version := timelineCursorVersion }
    else
      ∃ err, decodeTimelineCursor (encodeTimelineCursor (timelineCursorFor kind scope x)) =
        .error err := by
  have hread := @decodeTimelineCursor_encode (timelineCursorFor kind scope x) hyear
  rw [hread]
  have htexts : TimelineKind.operation.text ≠ TimelineKind.aggregate.text := by decide
  unfold TimelineCursor.check timelineAccepts
  cases kind with
  | operation =>
    by_cases hscope : scope = ""
    · simp [timelineCursorFor, hscope]
    · simp [timelineCursorFor, hscope, hid, hat, htexts]
  | aggregate =>
    by_cases hscope : scope = ""
    · simp [timelineCursorFor, hscope]
    · by_cases hversion : x.aggregateVersion < 0
      · have hnot : ¬ 0 ≤ x.aggregateVersion := not_le.2 hversion
        simp [timelineCursorFor, hscope, hid, htexts.symm, hversion, hnot]
      · have hle : 0 ≤ x.aggregateVersion := not_lt.1 hversion
        simp [timelineCursorFor, hscope, hid, htexts.symm, hversion, hle]

theorem timelinePage_page (kind : TimelineKind) (scope : String) (count : Nat) {n : Nat}
    (hn : 0 < n) (left : List Event) :
    (timelinePage kind scope count n left).page =
      firstPage n (fun e => encodeTimelineCursor (timelineCursorFor kind scope e)) left := by
  apply firstPage_of_result hn (fun e => encodeTimelineCursor_ne_empty _)
  · unfold timelinePage
    split_ifs with hshort
    · exact (List.take_of_length_le hshort).symm
    · rfl
  · unfold timelinePage
    split_ifs with hshort
    · rfl
    · rfl

theorem timelinePageSize_pos {pageSize : Int} {n : Nat} (h : timelinePageSize pageSize = .ok n) :
    0 < n := by
  unfold timelinePageSize at h
  split_ifs at h with hdefault
  · cases h
    decide
  · cases h
    omega

/-- What the events of a timeline satisfy. -/
structure TimelineEvents (events : List Event) : Prop where
  horizon : ∀ e ∈ events, minOccurredAt ≤ e.occurredAt ∧ e.occurredAt ≤ maxOccurredAt
  named : ∀ e ∈ events, e.eventID ≠ ""
  distinct : events.Pairwise (fun a b => a.eventID ≠ b.eventID)

theorem timeline_keyset {κ : Type} [LinearOrder κ] {key : Event → κ} {kind : TimelineKind}
    (scope : String) {events sorted : List Event} {pageSize : Int} {n : Nat}
    (hevents : TimelineEvents events) (hperm : sorted.Perm events)
    (hsorted : sorted.Pairwise (fun a b => key a ≤ key b))
    (hafter : ∀ x e, afterTimelineCursor e (timelineCursorFor kind scope x) =
      decide (key x < key e))
    (hupward : ∀ x y, key x ≤ key y → kind = .operation ∨ x.aggregateVersion ≤ y.aggregateVersion)
    (hsize : timelinePageSize pageSize = .ok n) :
    Keyset key (fun cursor => (paginateTimeline sorted kind scope cursor pageSize).map
        QueryResult.page) "" n
      (fun e => encodeTimelineCursor (timelineCursorFor kind scope e))
      (timelineAccepts kind scope) sorted := by
  have hn := timelinePageSize_pos hsize
  have hcursor : ∀ x ∈ sorted, _ := fun x hx => by
    have hx' : x ∈ events := hperm.mem_iff.1 hx
    obtain ⟨hlow, hhigh⟩ := hevents.horizon x hx'
    have hpositive : (0 : Int) < minOccurredAt := by decide
    have hat : x.occurredAt ≠ 0 := ne_of_gt (lt_of_lt_of_le hpositive hlow)
    exact decode_timelineCursorFor kind scope (hasYear_of_horizon hlow hhigh) hat
      (hevents.named x hx')
  refine ⟨hn, hsorted, ?_, ?_, ?_, ?_⟩
  · show (paginateTimeline sorted kind scope "" pageSize).map _ = _
    unfold paginateTimeline
    rw [hsize]
    show Except.ok _ = _
    rw [timelinePage_page kind scope _ hn]
  · intro x hx haccepts
    have hdecode := hcursor x hx
    rw [if_pos haccepts] at hdecode
    show (paginateTimeline sorted kind scope _ pageSize).map _ = _
    unfold paginateTimeline
    rw [hsize]
    simp only [if_neg (encodeTimelineCursor_ne_empty _), hdecode]
    have hsame : ¬ ((timelineCursorFor kind scope x).kind ≠ kind.text ∨
        (timelineCursorFor kind scope x).scope ≠ scope) := by
      simp [timelineCursorFor]
    have hbehind : ∀ e, afterTimelineCursor e
        { timelineCursorFor kind scope x with version := timelineCursorVersion } =
          decide (key x < key e) := hafter x
    rw [if_neg hsame]
    simp only [hbehind, dropWhile_eq_behind hsorted]
    show Except.ok _ = _
    rw [timelinePage_page kind scope _ hn]
  · intro x hx hrefused page hpage
    have hdecode := hcursor x hx
    rw [if_neg (by simp [hrefused])] at hdecode
    obtain ⟨err, hdecode⟩ := hdecode
    change (paginateTimeline sorted kind scope _ pageSize).map _ = _ at hpage
    unfold paginateTimeline at hpage
    rw [hsize] at hpage
    simp only [if_neg (encodeTimelineCursor_ne_empty _), hdecode] at hpage
    cases hpage
  · intro x _ y _ hle haccepts
    unfold timelineAccepts at haccepts ⊢
    rw [decide_eq_true_eq] at haccepts ⊢
    refine ⟨haccepts.1, ?_⟩
    rcases hupward x y hle with hoperation | hversion
    · exact .inl hoperation
    · rcases haccepts.2 with hoperation | hx
      · exact .inl hoperation
      · exact .inr (hx.trans hversion)

/-! ## Section 3: The walks -/

section Walks

variable {d : Deployment} {archive : ArchiveReads} {data : Snapshot} {tenantID : String}
  {pageSize : Int} {n : Nat}

theorem readTimelineEvidence_events {predicate : Event → Bool} {events : List Event}
    (hread : d.readTimelineEvidence archive data tenantID predicate = .ok events)
    (hhorizon : ∀ e ∈ events, minOccurredAt ≤ e.occurredAt ∧ e.occurredAt ≤ maxOccurredAt) :
    TimelineEvents events := by
  unfold Deployment.readTimelineEvidence at hread
  split at hread
  · cases hread
  next keys hkeys =>
  split at hread
  · cases hread
  next found hfound =>
  have hsame : found = events := by
    split_ifs at hread
    exact Except.ok.inj hread
  subst hsame
  have hkeep : ∀ key receipt, timelineReceipt tenantID key receipt = .ok true →
      receipt.tenantID = tenantID ∧ key = eventKey tenantID receipt.eventID := by
    intro key receipt h
    unfold timelineReceipt at h
    split at h
    · cases h
    split at h
    · cases h
    next hbad =>
    rw [not_or, not_not, not_not] at hbad
    exact hbad
  have hnamed : ∀ key receipt, timelineReceipt tenantID key receipt = .ok true →
      key = eventKey receipt.tenantID receipt.eventID := by
    intro key receipt h
    rw [(hkeep key receipt h).1]
    exact (hkeep key receipt h).2
  obtain ⟨hnodup, hall⟩ := reads_distinct hkeys (fun _ _ => timelineKey_ok) hnamed hfound
  refine ⟨hhorizon, fun e he => (hall e he).1, ?_⟩
  have htenants : ∀ e ∈ found, e.tenantID = tenantID := by
    intro e he
    obtain ⟨-, key, receipt, hkept, hauthentic⟩ := hall e he
    rw [hauthentic.tenantID, (hkeep key receipt hkept).1]
  exact eventIDs_distinct hnodup htenants

theorem operation_walk_iff (sort : SliceSort) {operationID : String} {events : List Event}
    (hevents : TimelineEvents events) (hsize : timelinePageSize pageSize = .ok n) :
    VisitsOnce (fun cursor => (paginateTimeline (sortEvents sort events) .operation operationID
        cursor pageSize).map QueryResult.page) "" (fun a b => a.position ≤ b.position) events ↔
      operationID ≠ "" ∨ events.length ≤ n := by
  have hperm := sortEvents_perm sort events
  have hkeyset := timeline_keyset operationID hevents hperm
    (sortEvents_sorted sort events) (afterTimelineCursor_operation operationID)
    (fun _ _ _ => .inl rfl) hsize
  rw [hkeyset.visitsOnce_iff hperm]
  have hunsplit : Unsplit Event.position n events :=
    unsplit_of_distinct (hevents.distinct.imp fun hne heq => hne (Event.eventID_of_position heq)) n
  by_cases hscope : operationID = ""
  · -- Every cursor is refused.
    have hall : events.countP (fun e => !timelineAccepts .operation operationID e) =
        events.length := by
      rw [List.countP_eq_length]
      intro e _
      simp [timelineAccepts, hscope]
    rw [hall]
    simp only [hunsplit, hscope, true_and, ne_eq, not_true_eq_false, false_or]
    omega
  · have hnone : events.countP (fun e => !timelineAccepts .operation operationID e) = 0 := by
      rw [List.countP_eq_zero]
      intro e _
      simp [timelineAccepts, hscope]
    rw [hnone]
    have hn := hkeyset.positive
    simp [hunsplit, hscope, hn]

theorem aggregate_walk_iff (sort : SliceSort) {aggregateType aggregateID : String}
    {events : List Event} (hevents : TimelineEvents events)
    (hsize : timelinePageSize pageSize = .ok n) :
    VisitsOnce (fun cursor => (paginateTimeline (sort.run compareVersions events) .aggregate
        (aggregateScope aggregateType aggregateID) cursor pageSize).map QueryResult.page) ""
        (fun a b => a.versionPosition ≤ b.versionPosition) events ↔
      events.length ≤ n ∨ events.countP (fun e => e.aggregateVersion < 0) < n := by
  have hperm : (sort.run compareVersions events).Perm events := sort.perm _ events
  have hsorted : (sort.run compareVersions events).Pairwise
      (fun a b => a.versionPosition ≤ b.versionPosition) := by
    rw [compareVersions_eq]
    exact sort.sorted Event.versionPosition events
  have hupward : ∀ x y : Event, x.versionPosition ≤ y.versionPosition →
      TimelineKind.aggregate = .operation ∨ x.aggregateVersion ≤ y.aggregateVersion := by
    intro x y hle
    right
    rcases Prod.Lex.toLex_le_toLex.1 hle with hlt | ⟨heq, -⟩
    · exact hlt.le
    · exact heq.le
  have hkeyset := timeline_keyset (aggregateScope aggregateType aggregateID) hevents hperm hsorted
    (afterTimelineCursor_aggregate _) hupward hsize
  rw [hkeyset.visitsOnce_iff hperm]
  have hunsplit : Unsplit Event.versionPosition n events := by
    apply unsplit_of_distinct
    apply hevents.distinct.imp
    intro a b hne heq
    exact hne (congrArg (fun p => (ofLex p).2) heq)
  have hscope : aggregateScope aggregateType aggregateID ≠ "" := by
    intro hempty
    have hlength := congrArg String.length hempty
    simp [aggregateScope] at hlength
  have hrefused : events.countP
      (fun e => !timelineAccepts .aggregate (aggregateScope aggregateType aggregateID) e) =
      events.countP (fun e => e.aggregateVersion < 0) := by
    apply List.countP_congr
    intro e _
    simp [timelineAccepts, hscope]
  rw [hrefused]
  exact ⟨fun h => h.2, fun h => ⟨hunsplit, h⟩⟩

end Walks

/-- The pages of an operation timeline, by cursor. -/
def Deployment.operationPages (d : Deployment) (archive : ArchiveReads) (sort : SliceSort)
    (data : Snapshot) (tenantID operationID : String) (pageSize : Int) (cursor : String) :
    Except Err (Page Event String) :=
  (d.operationTimelinePage archive sort data tenantID operationID pageSize cursor).map
    QueryResult.page

/-- The pages of an aggregate timeline, by cursor. -/
def Deployment.aggregatePages (d : Deployment) (archive : ArchiveReads) (sort : SliceSort)
    (data : Snapshot) (tenantID aggregateType aggregateID : String) (pageSize : Int)
    (cursor : String) : Except Err (Page Event String) :=
  (d.aggregateTimelinePage archive sort data tenantID aggregateType aggregateID pageSize
    cursor).map QueryResult.page

section Pages

variable {d : Deployment} {archive : ArchiveReads} {data : Snapshot} {tenantID : String}
  {pageSize : Int} {n : Nat} {events : List Event}

theorem operationPages_iff (sort : SliceSort) (hscope : requireTenantScope tenantID = .ok ())
    (hsize : timelinePageSize pageSize = .ok n) {operationID : String}
    (hread : d.operationEvidence archive data tenantID operationID = .ok events)
    (hhorizon : ∀ e ∈ events, minOccurredAt ≤ e.occurredAt ∧ e.occurredAt ≤ maxOccurredAt) :
    VisitsOnce (d.operationPages archive sort data tenantID operationID pageSize) ""
        (fun a b => a.position ≤ b.position) events ↔
      operationID ≠ "" ∨ events.length ≤ n := by
  have hevents := readTimelineEvidence_events hread hhorizon
  rw [← operation_walk_iff sort hevents hsize]
  unfold Deployment.operationPages Deployment.operationTimelinePage
  rw [hscope]
  simp only [hread]

theorem aggregatePages_iff (sort : SliceSort) (hscope : requireTenantScope tenantID = .ok ())
    (hsize : timelinePageSize pageSize = .ok n) {aggregateType aggregateID : String}
    (hread : d.aggregateEvidence archive data tenantID aggregateType aggregateID = .ok events)
    (hhorizon : ∀ e ∈ events, minOccurredAt ≤ e.occurredAt ∧ e.occurredAt ≤ maxOccurredAt) :
    VisitsOnce (d.aggregatePages archive sort data tenantID aggregateType aggregateID pageSize) ""
        (fun a b => a.versionPosition ≤ b.versionPosition) events ↔
      events.length ≤ n ∨ events.countP (fun e => e.aggregateVersion < 0) < n := by
  have hevents := readTimelineEvidence_events hread hhorizon
  rw [← @aggregate_walk_iff _ _ sort aggregateType aggregateID _ hevents hsize]
  unfold Deployment.aggregatePages Deployment.aggregateTimelinePage
  rw [hscope]
  simp only [hread]

end Pages

/-- **Timeline paging.** Following the cursors from the first page returns every
    event of the timeline once, in timeline order, and ends without an error,
    exactly if the cursors it needs are accepted: one page is enough, or the
    operation has an id, or fewer events than a page holds have a negative
    aggregate version. -/
theorem timeline_paging_visits_once_iff (d : Deployment) (archive : ArchiveReads)
    (sort : SliceSort) (data : Snapshot) {tenantID : String} {pageSize : Int} {n : Nat}
    (hscope : requireTenantScope tenantID = .ok ())
    (hsize : timelinePageSize pageSize = .ok n) :
    (∀ (operationID : String) (events : List Event),
      d.operationEvidence archive data tenantID operationID = .ok events →
      (∀ e ∈ events, minOccurredAt ≤ e.occurredAt ∧ e.occurredAt ≤ maxOccurredAt) →
      (VisitsOnce (d.operationPages archive sort data tenantID operationID pageSize) ""
          (fun a b => a.position ≤ b.position) events ↔
        operationID ≠ "" ∨ events.length ≤ n)) ∧
    (∀ (aggregateType aggregateID : String) (events : List Event),
      d.aggregateEvidence archive data tenantID aggregateType aggregateID = .ok events →
      (∀ e ∈ events, minOccurredAt ≤ e.occurredAt ∧ e.occurredAt ≤ maxOccurredAt) →
      (VisitsOnce (d.aggregatePages archive sort data tenantID aggregateType aggregateID
          pageSize) "" (fun a b => a.versionPosition ≤ b.versionPosition) events ↔
        events.length ≤ n ∨ events.countP (fun e => e.aggregateVersion < 0) < n)) :=
  ⟨fun _ _ hread hhorizon => operationPages_iff sort hscope hsize hread hhorizon,
    fun _ _ _ hread hhorizon => aggregatePages_iff sort hscope hsize hread hhorizon⟩

/-! ### Two events before version zero -/

/-- A note on order 7 at version -1, outside any operation. -/
def versionedNote (eventID digest prevHash hash : String) (sequence : Int) : Event :=
  { noteEvent ∅ with
    tenantID := "acme", eventID := eventID, idempotencyKey := eventID, aggregateType := "order"
    aggregateID := "7", aggregateVersion := -1, sourceDigest := digest
    streamID := "acme:aggregate:order:7", sequence := sequence, prevHash := prevHash
    hash := hash }

def versionedNotes : List Event :=
  [versionedNote "e1" "86b291ce34dc629c4d059ce68cbc309619cd3476193e91b5c928661d9c8a6404" ""
      "d2433cc0e7cf9cab7f74b4ea947f49eec428299ec39e3a5820dee30ad24ebed5" 1,
    versionedNote "e2" "0dfbce3dc8eae5b43c32aea94a629e57df2eedf33adf6a4e21e288542b144784"
      "d2433cc0e7cf9cab7f74b4ea947f49eec428299ec39e3a5820dee30ad24ebed5"
      "7b15c35040b63b7e58846fb938f8731302bf0dfab12e58cd907aa97843addc2f" 2]

theorem versionedNotes_read :
    List.Forall₂ (fun key e => ((developmentDeployment 2).readKey none (storeOf versionedNotes)
      key).map Prod.snd = .ok e) [eventKey "acme" "e1", eventKey "acme" "e2"] versionedNotes := by
  decide +kernel

theorem versionedNotes_schema : ∀ e ∈ versionedNotes,
    ((storeOf versionedNotes).schemaOf "acme" e).Names "acme" e.schemaID e.schemaVersion := by
  decide +kernel

theorem versionedNotes_keys :
    selectKeys (timelineReceipt "acme") (storeOf versionedNotes).receipts.toList =
      .ok [eventKey "acme" "e1", eventKey "acme" "e2"] := by
  decide +kernel

theorem versionedNotes_evidence {predicate : Event → Bool}
    (h : ∀ e ∈ versionedNotes, predicate e = true) :
    (developmentDeployment 2).readTimelineEvidence none (storeOf versionedNotes) "acme" predicate =
      .ok versionedNotes :=
  readTimelineEvidence_all (List.cons_ne_nil _ _) versionedNotes_keys versionedNotes_read
    versionedNotes_schema h

theorem versionedNotes_horizon :
    ∀ e ∈ versionedNotes, minOccurredAt ≤ e.occurredAt ∧ e.occurredAt ≤ maxOccurredAt := by
  decide

theorem versionedNotes_operation :
    (developmentDeployment 2).operationEvidence none (storeOf versionedNotes) "acme" "" =
      .ok versionedNotes := versionedNotes_evidence (by decide)

theorem versionedNotes_aggregate :
    (developmentDeployment 2).aggregateEvidence none (storeOf versionedNotes) "acme" "order" "7" =
      .ok versionedNotes := versionedNotes_evidence (by decide)

/-- Two events fit one page of two. -/
theorem versioned_notes_walk :
    VisitsOnce ((developmentDeployment 2).aggregatePages none SliceSort.merge
      (storeOf versionedNotes) "acme" "order" "7" 2) ""
      (fun a b => a.versionPosition ≤ b.versionPosition) versionedNotes :=
  ((timeline_paging_visits_once_iff (developmentDeployment 2) none SliceSort.merge
    (storeOf versionedNotes) (by decide +kernel) rfl).2 "order" "7" versionedNotes
    versionedNotes_aggregate versionedNotes_horizon).2 (.inl (by decide))

/-- With one event per page neither walk gets beyond its first page. -/
theorem negative_version_cursor_refused :
    (developmentDeployment 2).aggregateEvidence none (storeOf versionedNotes) "acme" "order" "7" =
      .ok versionedNotes ∧
    (developmentDeployment 2).operationEvidence none (storeOf versionedNotes) "acme" "" =
      .ok versionedNotes ∧
    requireTenantScope "acme" = .ok () ∧ timelinePageSize 1 = .ok 1 ∧
    ∀ sort : SliceSort,
      ¬ VisitsOnce ((developmentDeployment 2).aggregatePages none sort (storeOf versionedNotes)
        "acme" "order" "7" 1) "" (fun a b => a.versionPosition ≤ b.versionPosition)
        versionedNotes ∧
      ¬ VisitsOnce ((developmentDeployment 2).operationPages none sort (storeOf versionedNotes)
        "acme" "" 1) "" (fun a b => a.position ≤ b.position) versionedNotes := by
  have hscope : requireTenantScope "acme" = .ok () := by decide +kernel
  refine ⟨versionedNotes_aggregate, versionedNotes_operation, hscope, rfl, ?_⟩
  intro sort
  constructor
  · rw [aggregatePages_iff sort hscope rfl versionedNotes_aggregate versionedNotes_horizon]
    decide
  · rw [operationPages_iff sort hscope rfl versionedNotes_operation versionedNotes_horizon]
    decide

end AuditGovernance
