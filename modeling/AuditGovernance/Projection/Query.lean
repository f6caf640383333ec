import AuditGovernance.Framework.Grouping
import AuditGovernance.Projection.Confirmed
import AuditGovernance.Service.Persistence
import AuditGovernance.Service.QueryMatch

/-! # Queries over the projection

    `SelectQueryReferences` builds an SQL statement (`projectionQuery`), runs it
    over the projected rows and rechecks the times
    (`internal/projection/query.go`). The ledger decides membership with
    `Service.matches`. Over rows that hold every ledgered event of a tenant the
    two select the same events (`selectQueryReferences_exact`), for every window
    with both bounds set: a bound that is the zero time counts as missing and
    the query is refused (`zero_from_refused`).

    The statement is modelled by its predicates and their evaluation on grouped
    rows. Which row `any` takes from a group is left open.
-/

namespace AuditGovernance

open FiniteMap Json Grouping

/-! ## Section 1: The statement -/

def errProjectionConflict : Err := .plain "projection: conflicting projected evidence"

def errTenantUnscoped : Err := .plain "projection: event tenant_id is empty or malformed"

/-- `projectionScope`. -/
def projectionScope (tenantID streamID : String) : Except Err Unit :=
  if tenantID = "" ∨ validTenantIDComponent "tenant_id" tenantID ≠ .ok () then
    .error errTenantUnscoped
  else if streamID ≠ "" then validKeyComponent "stream id" streamID
  else .ok ()

/-- A conjunct of the statement's `WHERE`. -/
inductive Predicate where
  | never
  | always
  /-- The occurrence is not before the bound, in milliseconds. -/
  | since (bound : String)
  /-- The occurrence is before the bound, in milliseconds. -/
  | before (bound : String)
  /-- A text of the envelope. -/
  | text (path : List String) (value : String)
  | stream (value : String)
  /-- One of the targets has the id. -/
  | target (value : String)
deriving DecidableEq

/-- `Truncate(time.Millisecond)`. -/
def truncateMillis (t : Time) : Time := t / 1000000 * 1000000

/-- The upper bound, rounded up. -/
def ceilMillis (t : Time) : Time :=
  if truncateMillis t < t then truncateMillis t + 1000000 else truncateMillis t

/-- The widened window. Bounds beyond the horizon of occurrences are left out:
    the database's parser saturates there. -/
def timePredicates (q : Query) : List Predicate :=
  if maxOccurredAt < q.from_ ∨ q.to_ ≤ minOccurredAt then [.never]
  else
    (if minOccurredAt ≤ q.from_ then [.since (Timestamp.format (truncateMillis q.from_))] else []) ++
      (if q.to_ ≤ maxOccurredAt then [.before (Timestamp.format (ceilMillis q.to_))] else [])

/-- The filters on texts of the envelope. -/
def Query.textFilters (q : Query) : List (String × String) :=
  [("event_type", q.eventType), ("source_system", q.sourceSystem),
    ("operation_id", q.operationID), ("causation_id", q.causationID),
    ("correlation_id", q.correlationID), ("aggregate_type", q.aggregateType),
    ("aggregate_id", q.aggregateID), ("trace_id", q.traceID), ("outcome", q.outcome)]

/-- A predicate for a filter that is set. -/
def whenSet (value : String) (p : Predicate) : List Predicate := if value ≠ "" then [p] else []

/-- The conjuncts of the statement. -/
def Query.predicates (q : Query) : List Predicate :=
  (if timePredicates q = [] then [.always] else timePredicates q) ++
    q.textFilters.flatMap (fun f => whenSet f.2 (.text [f.1] f.2)) ++
    whenSet q.streamID (.stream q.streamID) ++
    whenSet q.actorID (.text ["actor", "id"] q.actorID) ++
    whenSet q.targetID (.target q.targetID)

/-- `projectionQuery`. -/
def projectionQuery (tenantID : String) (q : Query) : Except Err (List Predicate) :=
  match projectionScope tenantID "" with
  | .error err => .error err
  | .ok () =>
    if q.from_ = 0 ∨ q.to_ = 0 ∨ ¬ q.from_ < q.to_ ∨ q.cursor ≠ "" then .error (.invalid "")
    else if q.payloadField ≠ "" ∨ q.payloadDigest ≠ "" then
      .error (.invalid "digest filter requires ledger query")
    else .ok q.predicates

/-! ## Section 2: Running it -/

/-- The columns taken with `any`. -/
inductive Column where
  | streamID
  | sequence
  | eventHash
  | envelope
deriving DecidableEq

/-- One row of the grouped subquery. -/
structure Candidate where
  eventID : String
  streamID : String
  sequence : Nat
  hash : String
  envelope : String
  variants : Nat
deriving DecidableEq

namespace Candidate

def document (c : Candidate) : Json := envelopeDocument c.envelope

/-- The occurrence as the envelope spells it. -/
def occurrence (c : Candidate) : String := jsonExtractString ["occurred_at"] c.document

def millis (c : Candidate) : Int := parseDateTime64 c.occurrence

/-- `ORDER BY variants DESC, <occurrence>, chosen_sequence, event_id`. -/
def precedes (a b : Candidate) : Prop :=
  b.variants < a.variants ∨ (a.variants = b.variants ∧
    (a.millis < b.millis ∨ (a.millis = b.millis ∧
      (a.sequence < b.sequence ∨ (a.sequence = b.sequence ∧ a.eventID ≤ b.eventID)))))

instance : DecidableRel precedes := fun _ _ => inferInstanceAs (Decidable (_ ∨ _))

end Candidate

/-- The value of a predicate. -/
def Predicate.holds (c : Candidate) : Predicate → Bool
  | .never => false
  | .always => true
  | .since bound => parseDateTime64 bound ≤ c.millis
  | .before bound => c.millis < parseDateTime64 bound
  | .text path value => jsonExtractString path c.document = value
  | .stream value => c.streamID = value
  | .target value =>
    (jsonExtractArrayRaw "targets" c.document).any (fun t => jsonExtractString ["id"] t = value)

/-- What `any` takes, column by column. -/
abbrev AnyRow := Column → Choice ProjectionRow

/-- A group as the subquery returns it. -/
def candidateOf (any : AnyRow) (g : String × List ProjectionRow) : Candidate where
  eventID := g.1
  streamID := ((any .streamID).pick g.2).streamID
  sequence := ((any .sequence).pick g.2).sequence
  hash := ((any .eventHash).pick g.2).eventHash
  envelope := ((any .envelope).pick g.2).envelope
  variants := uniqExact (fun r => (r.streamID, r.sequence, r.eventHash, r.envelopeDigest)) g.2

/-- The groups of a tenant's rows. -/
def candidates (any : AnyRow) (rows : List ProjectionRow) (tenantID : String) : List Candidate :=
  (groups ProjectionRow.eventID (rows.filter (fun r => r.tenantID = tenantID))).map (candidateOf any)

/-- The candidates that pass the `WHERE`, before the `LIMIT`. -/
def sqlCandidates (any : AnyRow) (rows : List ProjectionRow) (tenantID : String) (q : Query) :
    List Candidate :=
  (candidates any rows tenantID).filter
    (fun c => c.variants ≠ 1 ∨ ∀ p ∈ q.predicates, p.holds c = true)

def queryLimit : Nat := 10001

/-- `store.MaxQuerySnapshotEvents`. -/
def maxQuerySnapshotEvents : Nat := 10000

/-- One round of the loop over the returned rows. -/
def scanCandidate (q : Query) (scanned : Nat) (result : List EventReference) (c : Candidate) :
    Except Err (List EventReference) :=
  if c.variants ≠ 1 then .error errProjectionConflict
  else
    match parseRFC3339 c.occurrence with
    | none => .error errProjectionConflict
    | some occurredAt =>
      if maxQuerySnapshotEvents < scanned + 1 then
        .error (.quotaExceeded "query candidate budget exceeded; narrow filters")
      else if q.from_ ≤ occurredAt ∧ occurredAt < q.to_ then
        .ok (result ++ [{ occurredAt := occurredAt, eventID := c.eventID, streamID := c.streamID
                          sequence := c.sequence, hash := c.hash }])
      else .ok result

/-- The loop. -/
def scanCandidates (q : Query) : Nat → List EventReference → List Candidate →
    Except Err (List EventReference)
  | _, result, [] => .ok result
  | scanned, result, c :: rest =>
    (scanCandidate q scanned result c).bind fun result' => scanCandidates q (scanned + 1) result' rest

/-- `SelectQueryReferences`. -/
def selectQueryReferences (any : AnyRow) (rows : List ProjectionRow) (tenantID : String)
    (q : Query) : Except Err (List EventReference) :=
  match projectionQuery tenantID q with
  | .error err => .error err
  | .ok _ =>
    scanCandidates q 0 []
      (((sqlCandidates any rows tenantID q).insertionSort Candidate.precedes).take queryLimit)

/-! ## Section 3: Rows of ledgered events -/

/-- An event `Ingest` admitted for the tenant and placed in a stream. -/
def LedgeredEvent (d : Deployment) (tenantID : String) (e : Event) : Prop :=
  ∃ control r a stream, d.admission control r = .ok a ∧ a.tenantID = tenantID ∧
    d.env.placeEvent stream a.event = .ok e

/-- The ledgered events of a tenant, by event id. -/
structure TenantEvents (d : Deployment) (tenantID : String) where
  events : Dict Event
  ledgered : ∀ (id : String) (e : Event), events[id]? = some e →
    LedgeredEvent d tenantID e ∧ e.eventID = id

/-- The table holds a row of every event of the tenant, any number of times,
    and for the tenant nothing else. -/
structure Projects {d : Deployment} {tenantID : String} (t : TenantEvents d tenantID)
    (rows : List ProjectionRow) : Prop where
  complete : ∀ (id : String) (e : Event), t.events[id]? = some e →
    ∃ row ∈ rows, insertConfirmed d.hash e = .ok row
  sound : ∀ row ∈ rows, row.tenantID = tenantID →
    ∃ (id : String) (e : Event), t.events[id]? = some e ∧ insertConfirmed d.hash e = .ok row

/-- What the statement sees of an event. -/
structure Candidate.Of (e : Event) (c : Candidate) : Prop where
  eventID : c.eventID = e.eventID
  streamID : c.streamID = e.streamID
  sequence : (c.sequence : Int) = e.sequence
  hash : c.hash = e.hash
  variants : c.variants = 1
  readFrom : e.ReadFrom c.document

variable {d : Deployment} {tenantID : String}

theorem Env.placeEvent_eq {env : Env} {stream : StreamState} {event placed : Event}
    (h : env.placeEvent stream event = .ok placed) :
    ∃ hash, placed = { event with
      streamID := event.stream, sequence := stream.nextSequence, prevHash := stream.headHash
      hash := hash } := by
  unfold Env.placeEvent at h
  dsimp only at h
  cases hh : env.eventHash { event with
      streamID := event.stream, sequence := stream.nextSequence
      prevHash := stream.headHash } with
  | error err => rw [hh] at h; cases h
  | ok hash =>
    rw [hh] at h
    exact ⟨hash, (Except.ok.inj h).symm⟩

theorem LedgeredEvent.tenant {e : Event} (h : LedgeredEvent d tenantID e) :
    e.tenantID = tenantID := by
  obtain ⟨control, r, a, stream, hadmitted, rfl, hplace⟩ := h
  obtain ⟨digest, hevent, -⟩ := Deployment.admission_ok hadmitted
  obtain ⟨hash, rfl⟩ := Env.placeEvent_eq hplace
  show a.event.tenantID = a.tenantID
  rw [hevent]
  rfl

theorem LedgeredEvent.horizon {e : Event} (h : LedgeredEvent d tenantID e) :
    minOccurredAt ≤ e.occurredAt ∧ e.occurredAt ≤ maxOccurredAt := by
  obtain ⟨control, r, a, stream, hadmitted, rfl, hplace⟩ := h
  obtain ⟨digest, hevent, -, hhorizon⟩ := Deployment.admission_ok hadmitted
  obtain ⟨hash, rfl⟩ := Env.placeEvent_eq hplace
  show minOccurredAt ≤ a.event.occurredAt ∧ a.event.occurredAt ≤ maxOccurredAt
  rw [hevent]
  exact hhorizon

namespace Projects

variable {t : TenantEvents d tenantID} {rows : List ProjectionRow} {any : AnyRow}

theorem group_eq (h : Projects t rows) {g : String × List ProjectionRow}
    (hg : g ∈ groups ProjectionRow.eventID (rows.filter (fun r => r.tenantID = tenantID))) :
    ∃ e row, t.events[g.1]? = some e ∧ RowOf e row ∧ g.2 ≠ [] ∧ ∀ r ∈ g.2, r = row := by
  obtain ⟨⟨row, hrow, hid⟩, hmembers⟩ := mem_groups.1 hg
  -- the row of an id, for every row with that id
  have hrowOf : ∀ r ∈ rows.filter (fun r => r.tenantID = tenantID), r.eventID = g.1 →
      ∃ e, t.events[g.1]? = some e ∧ insertConfirmed d.hash e = .ok r := by
    intro r hr hrid
    obtain ⟨hmem, htenant⟩ := List.mem_filter.1 hr
    obtain ⟨id, e, he, hinsert⟩ := h.sound r hmem (of_decide_eq_true htenant)
    have heid : e.eventID = id := (t.ledgered id e he).2
    rw [← heid, ← (insertConfirmed_ok hinsert).eventID, hrid] at he
    exact ⟨e, he, hinsert⟩
  obtain ⟨e, he, hinsert⟩ := hrowOf row hrow hid
  refine ⟨e, row, he, insertConfirmed_ok hinsert, ?_, ?_⟩
  · rw [hmembers]
    exact List.ne_nil_of_mem (List.mem_filter.2 ⟨hrow, decide_eq_true hid⟩)
  · intro r hr
    rw [hmembers] at hr
    obtain ⟨hmem, hrid⟩ := List.mem_filter.1 hr
    obtain ⟨e', he', hinsert'⟩ := hrowOf r hmem (of_decide_eq_true hrid)
    obtain rfl := Option.some.inj (he.symm.trans he')
    exact Except.ok.inj (hinsert'.symm.trans hinsert)

theorem candidate_of (h : Projects t rows) {c : Candidate}
    (hc : c ∈ candidates any rows tenantID) : ∃ e, t.events[c.eventID]? = some e ∧ c.Of e := by
  obtain ⟨g, hg, rfl⟩ := List.mem_map.1 hc
  obtain ⟨e, row, he, hrow, hne, hall⟩ := h.group_eq hg
  have hpick : ∀ column, (any column).pick g.2 = row := fun column => (any column).pick_eq hne hall
  have hvariants : (candidateOf any g).variants = 1 := by
    refine uniqExact_eq_one hne (v := (row.streamID, row.sequence, row.eventHash,
      row.envelopeDigest)) ?_
    intro r hr
    rw [hall r hr]
  refine ⟨e, he, ((t.ledgered _ _ he).2).symm, ?_, ?_, ?_, hvariants, ?_⟩
  · show ((any .streamID).pick g.2).streamID = e.streamID
    rw [hpick, hrow.streamID]
  · show (((any .sequence).pick g.2).sequence : Int) = e.sequence
    rw [hpick, hrow.sequence]
  · show ((any .eventHash).pick g.2).eventHash = e.hash
    rw [hpick, hrow.eventHash]
  · show e.ReadFrom (envelopeDocument ((any .envelope).pick g.2).envelope)
    rw [hpick]
    exact hrow.readFrom

theorem exists_candidate (h : Projects t rows) (any : AnyRow) {id : String} {e : Event}
    (he : t.events[id]? = some e) :
    ∃ c ∈ candidates any rows tenantID, c.eventID = id := by
  obtain ⟨row, hmem, hinsert⟩ := h.complete id e he
  have hrow := insertConfirmed_ok hinsert
  obtain ⟨hledgered, hid⟩ := t.ledgered id e he
  have hfilter : row ∈ rows.filter (fun r => r.tenantID = tenantID) := by
    refine List.mem_filter.2 ⟨hmem, decide_eq_true ?_⟩
    rw [hrow.tenantID, hledgered.tenant]
  refine ⟨_, List.mem_map_of_mem (group_of_mem ProjectionRow.eventID hfilter), ?_⟩
  show row.eventID = id
  rw [hrow.eventID, hid]

theorem candidates_nodup (any : AnyRow) (rows : List ProjectionRow) (tenantID : String) :
    ((candidates any rows tenantID).map Candidate.eventID).Nodup := by
  have hids : (candidates any rows tenantID).map Candidate.eventID =
      (groups ProjectionRow.eventID (rows.filter (fun r => r.tenantID = tenantID))).map Prod.fst := by
    rw [candidates, List.map_map]
    rfl
  rw [hids]
  exact groups_nodup _ _

theorem sqlCandidates_length_le (any : AnyRow) (rows : List ProjectionRow) (tenantID : String)
    (q : Query) : (sqlCandidates any rows tenantID q).length ≤ rows.length := by
  calc (sqlCandidates any rows tenantID q).length
      ≤ (candidates any rows tenantID).length := List.length_filter_le _ _
    _ = (groups ProjectionRow.eventID (rows.filter (fun r => r.tenantID = tenantID))).length :=
        List.length_map _
    _ ≤ (rows.filter (fun r => r.tenantID = tenantID)).length := groups_length_le _ _
    _ ≤ rows.length := List.length_filter_le _ _

end Projects

/-! ## Section 4: The predicates and the filter -/

theorem truncateMillis_low {t : Int} (h : minOccurredAt ≤ t) :
    minOccurredAt ≤ truncateMillis t ∧ truncateMillis t ≤ t := by
  have hlow : Timestamp.daysBeforeYear 1900 * 86400 * 1000000000 ≤ t := h
  show Timestamp.daysBeforeYear 1900 * 86400 * 1000000000 ≤ t / 1000000 * 1000000 ∧
    t / 1000000 * 1000000 ≤ t
  unfold Timestamp.daysBeforeYear at *
  omega

theorem ceilMillis_le {t m : Int} (hm : m % 1000000 = 0) (h : t ≤ m) :
    t ≤ ceilMillis t ∧ ceilMillis t ≤ m ∧ ceilMillis t % 1000000 = 0 := by
  have hceil : ∀ c : Int, c = (if t / 1000000 * 1000000 < t then t / 1000000 * 1000000 + 1000000
      else t / 1000000 * 1000000) → t ≤ c ∧ c ≤ m ∧ c % 1000000 = 0 := by
    intro c hc
    split at hc <;> omega
  exact hceil _ rfl

theorem millis_lt_of_lt {x y : Int} (h : x < y) (hy : y % 1000000 = 0) :
    x / 1000000 < y / 1000000 := by
  omega

namespace Candidate

variable {e : Event} {c : Candidate} {q : Query}

theorem Of.parsed (h : c.Of e) (hyear : Timestamp.HasYear e.occurredAt) :
    parseRFC3339 c.occurrence = some e.occurredAt ∧ c.millis = (e.occurredAt : Int) / 1000000 := by
  have hoccurrence : c.occurrence = Timestamp.format e.occurredAt := h.readFrom.occurred
  rw [Candidate.millis, hoccurrence]
  exact ⟨parseRFC3339_format hyear, parseDateTime64_format hyear⟩

theorem Of.timePredicates_hold (h : c.Of e)
    (hhorizon : minOccurredAt ≤ e.occurredAt ∧ e.occurredAt ≤ maxOccurredAt)
    (hfrom : q.from_ ≤ e.occurredAt) (hto : e.occurredAt < q.to_) :
    ∀ p ∈ timePredicates q, p.holds c = true := by
  obtain ⟨hlow, hhigh⟩ := hhorizon
  obtain ⟨-, hmillis⟩ := h.parsed (hasYear_of_horizon hlow hhigh)
  have hinside : ¬ (maxOccurredAt < q.from_ ∨ q.to_ ≤ minOccurredAt) := by
    rintro (hbeyond | hbeyond)
    · exact absurd (lt_of_lt_of_le hbeyond (hfrom.trans hhigh)) (lt_irrefl _)
    · exact absurd (lt_of_le_of_lt hlow (lt_of_lt_of_le hto hbeyond)) (lt_irrefl _)
  intro p hp
  rw [timePredicates, if_neg hinside, List.mem_append] at hp
  rcases hp with hp | hp
  · -- the lower bound, rounded down
    by_cases hmin : minOccurredAt ≤ q.from_
    · rw [if_pos hmin, List.mem_singleton] at hp
      subst hp
      obtain ⟨hbelow, hle⟩ := truncateMillis_low hmin
      have hyear : Timestamp.HasYear (truncateMillis q.from_) :=
        hasYear_of_horizon hbelow (hle.trans (hfrom.trans hhigh))
      have hdiv : truncateMillis q.from_ / 1000000 ≤ (e.occurredAt : Int) / 1000000 :=
        Int.ediv_le_ediv (by decide) (hle.trans hfrom)
      rw [Predicate.holds, parseDateTime64_format hyear, hmillis]
      exact decide_eq_true hdiv
    · rw [if_neg hmin] at hp
      cases hp
  · -- the upper bound, rounded up
    by_cases hmax : q.to_ ≤ maxOccurredAt
    · rw [if_pos hmax, List.mem_singleton] at hp
      subst hp
      obtain ⟨habove, hle, hmod⟩ := ceilMillis_le (by decide) hmax
      have hyear : Timestamp.HasYear (ceilMillis q.to_) :=
        hasYear_of_horizon (hlow.trans (hto.le.trans habove)) hle
      have hdiv : (e.occurredAt : Int) / 1000000 < ceilMillis q.to_ / 1000000 :=
        millis_lt_of_lt (lt_of_lt_of_le hto habove) hmod
      rw [Predicate.holds, parseDateTime64_format hyear, hmillis]
      exact decide_eq_true hdiv
    · rw [if_neg hmax] at hp
      cases hp

theorem whenSet_holds {value : String} {p : Predicate} :
    (∀ p' ∈ whenSet value p, p'.holds c = true) ↔ (value ≠ "" → p.holds c = true) := by
  unfold whenSet
  by_cases hvalue : value = ""
  · simp [hvalue]
  · simp [hvalue]

theorem textMatches_iff {path : List String} {wanted actual : String}
    (h : jsonExtractString path c.document = actual) :
    (wanted ≠ "" → (Predicate.text path wanted).holds c = true) ↔
      textMatches wanted actual = true := by
  rw [Predicate.holds, h, textMatches]
  by_cases hwanted : wanted = ""
  · simp [hwanted]
  · simp [hwanted]

theorem textFilters_hold (h : c.Of e) :
    (∀ p ∈ q.textFilters.flatMap (fun f => whenSet f.2 (.text [f.1] f.2)), p.holds c = true) ↔
      textMatches q.eventType e.eventType = true ∧
      textMatches q.sourceSystem e.sourceSystem = true ∧
      textMatches q.operationID e.operationID = true ∧
      textMatches q.causationID e.causationID = true ∧
      textMatches q.correlationID e.correlationID = true ∧
      textMatches q.aggregateType e.aggregateType = true ∧
      textMatches q.aggregateID e.aggregateID = true ∧
      textMatches q.traceID e.traceID = true ∧ textMatches q.outcome e.outcome = true := by
  have htexts := h.readFrom.texts
  simp only [Event.filterTexts, List.forall_mem_cons] at htexts
  obtain ⟨h1, h2, h3, h4, h5, h6, h7, h8, h9, -⟩ := htexts
  simp only [Query.textFilters, List.flatMap_cons, List.flatMap_nil, List.append_nil,
    List.forall_mem_append, whenSet_holds, textMatches_iff h1, textMatches_iff h2,
    textMatches_iff h3, textMatches_iff h4, textMatches_iff h5, textMatches_iff h6,
    textMatches_iff h7, textMatches_iff h8, textMatches_iff h9]

theorem target_holds (h : c.Of e) (targetID : String) :
    (Predicate.target targetID).holds c = e.hasTarget targetID := by
  have hany : ∀ items : List Json, items.any (fun t => jsonExtractString ["id"] t = targetID) =
      (items.map (jsonExtractString ["id"])).any (fun id => id = targetID) := by
    intro items
    rw [List.any_map]
    rfl
  rw [Predicate.holds, hany, h.readFrom.targets, List.any_map, Event.hasTarget]
  rfl

/-- **One candidate.** It passes the statement and the exact window if and only
    if the ledger's filter selects its event. -/
theorem Of.selected_iff (h : c.Of e)
    (hhorizon : minOccurredAt ≤ e.occurredAt ∧ e.occurredAt ≤ maxOccurredAt)
    (hfield : q.payloadField = "") (d : Deployment) (schemas : Dict EventSchema) :
    ((∀ p ∈ q.predicates, p.holds c = true) ∧ q.from_ ≤ e.occurredAt ∧ e.occurredAt < q.to_) ↔
      d.matches_ e q schemas = true := by
  have htimes : q.from_ ≤ e.occurredAt ∧ e.occurredAt < q.to_ →
      ∀ p ∈ (if timePredicates q = [] then [.always] else timePredicates q), p.holds c = true := by
    rintro ⟨hfrom, hto⟩
    by_cases hempty : timePredicates q = []
    · rw [if_pos hempty]
      simp [Predicate.holds]
    · rw [if_neg hempty]
      exact h.timePredicates_hold hhorizon hfrom hto
  have hstream : (q.streamID ≠ "" → (Predicate.stream q.streamID).holds c = true) ↔
      textMatches q.streamID e.streamID = true := by
    rw [Predicate.holds, h.streamID, textMatches]
    by_cases hset : q.streamID = ""
    · simp [hset]
    · simp [hset]
  have htarget : (q.targetID ≠ "" → (Predicate.target q.targetID).holds c = true) ↔
      (q.targetID = "" ∨ e.hasTarget q.targetID = true) := by
    rw [target_holds h]
    exact imp_iff_not_or.trans (by rw [not_not])
  simp only [Query.predicates, List.forall_mem_append, whenSet_holds, textFilters_hold h, hstream,
    textMatches_iff h.readFrom.actor, htarget, Deployment.matches_, Bool.and_eq_true,
    Bool.or_eq_true, decide_eq_true_eq, hfield, true_or, and_true]
  constructor
  · rintro ⟨⟨⟨⟨⟨-, h1, h2, h3, h4, h5, h6, h7, h8, h9⟩, hs⟩, ha⟩, ht⟩, hwindow⟩
    exact ⟨⟨⟨⟨⟨⟨⟨⟨⟨⟨⟨⟨hwindow, h1⟩, h2⟩, ha⟩, ht⟩, h6⟩, h7⟩, h3⟩, h4⟩, h5⟩, h8⟩, h9⟩, hs⟩
  · rintro ⟨⟨⟨⟨⟨⟨⟨⟨⟨⟨⟨⟨hwindow, h1⟩, h2⟩, ha⟩, ht⟩, h6⟩, h7⟩, h3⟩, h4⟩, h5⟩, h8⟩, h9⟩, hs⟩
    exact ⟨⟨⟨⟨⟨htimes hwindow, h1, h2, h3, h4, h5, h6, h7, h8, h9⟩, hs⟩, ha⟩, ht⟩, hwindow⟩

end Candidate

/-! ## Section 5: The selection -/

/-- The reference of an event. -/
def Event.reference (e : Event) : EventReference where
  occurredAt := e.occurredAt
  eventID := e.eventID
  streamID := e.streamID
  sequence := e.sequence
  hash := e.hash

/-- The exact window. -/
def Query.covers (q : Query) (e : Event) : Prop := q.from_ ≤ e.occurredAt ∧ e.occurredAt < q.to_

instance (q : Query) (e : Event) : Decidable (q.covers e) := inferInstanceAs (Decidable (_ ∧ _))

theorem Candidate.Of.reference {e : Event} {c : Candidate} (h : c.Of e) :
    ({ occurredAt := e.occurredAt, eventID := c.eventID, streamID := c.streamID
       sequence := c.sequence, hash := c.hash } : EventReference) = e.reference := by
  rw [h.eventID, h.streamID, h.sequence, h.hash]
  rfl

theorem scanCandidate_ok {q : Query} {e : Event} {c : Candidate} (hc : c.Of e)
    (hyear : Timestamp.HasYear e.occurredAt) {scanned : Nat}
    (hbudget : scanned + 1 ≤ maxQuerySnapshotEvents) (result : List EventReference) :
    scanCandidate q scanned result c =
      .ok (if q.covers e then result ++ [e.reference] else result) := by
  rw [scanCandidate, if_neg (not_not.2 hc.variants), (hc.parsed hyear).1]
  dsimp only
  rw [if_neg (not_lt.2 hbudget), hc.reference]
  by_cases hcovers : q.covers e
  · have hinside : q.from_ ≤ e.occurredAt ∧ e.occurredAt < q.to_ := hcovers
    rw [if_pos hinside, if_pos hcovers]
  · have houtside : ¬ (q.from_ ≤ e.occurredAt ∧ e.occurredAt < q.to_) := hcovers
    rw [if_neg houtside, if_neg hcovers]

theorem scanCandidates_ok (q : Query) (f : Candidate → Event) (l : List Candidate)
    (scanned : Nat) (result : List EventReference)
    (hof : ∀ c ∈ l, c.Of (f c) ∧ Timestamp.HasYear (f c).occurredAt)
    (hbudget : scanned + l.length ≤ maxQuerySnapshotEvents) :
    scanCandidates q scanned result l =
      .ok (result ++ (l.filter (fun c => q.covers (f c))).map (fun c => (f c).reference)) := by
  -- by induction on the rows, for every count and result so far
  induction l generalizing scanned result with
  | nil =>
    show Except.ok result = Except.ok (result ++ [])
    rw [List.append_nil]
  | cons c rest ih =>
    obtain ⟨hc, hyear⟩ := hof c List.mem_cons_self
    rw [List.length_cons] at hbudget
    have hrest := fun r => ih (scanned + 1) r (fun c' hc' => hof c' (List.mem_cons_of_mem _ hc'))
      (by omega)
    rw [scanCandidates, scanCandidate_ok hc hyear (by omega) result]
    show scanCandidates q (scanned + 1) _ rest = _
    rw [hrest]
    by_cases hcovers : q.covers (f c)
    · rw [if_pos hcovers, List.filter_cons_of_pos (by simpa using hcovers)]
      simp
    · rw [if_neg hcovers, List.filter_cons_of_neg (by simpa using hcovers)]

theorem projectionQuery_ok {tenantID : String} {q : Query} (hne : tenantID ≠ "")
    (htenant : validTenantIDComponent "tenant_id" tenantID = .ok ()) (hcursor : q.cursor = "")
    (hfield : q.payloadField = "") (hdigest : q.payloadDigest = "") (hwindow : q.from_ < q.to_)
    (hfrom : q.from_ ≠ 0) (hto : q.to_ ≠ 0) :
    projectionQuery tenantID q = .ok q.predicates := by
  have hscope : projectionScope tenantID "" = .ok () := by
    rw [projectionScope, if_neg (by simp [hne, htenant]), if_neg (by simp)]
  rw [projectionQuery, hscope]
  dsimp only
  rw [if_neg (by simp [hfrom, hto, hwindow, hcursor]), if_neg (by simp [hfield, hdigest])]

/-- **The projection query is exact.** Whatever `any` takes, over the rows of a
    tenant's ledgered events the query returns the references of the events the
    ledger's filter selects, each once. -/
theorem selectQueryReferences_exact {d : Deployment} {tenantID : String} (hne : tenantID ≠ "")
    (htenant : validTenantIDComponent "tenant_id" tenantID = .ok ()) (t : TenantEvents d tenantID)
    {rows : List ProjectionRow} (hrows : Projects t rows) (any : AnyRow)
    (schemas : Dict EventSchema) {q : Query} (hcursor : q.cursor = "")
    (hfield : q.payloadField = "") (hdigest : q.payloadDigest = "") (hwindow : q.from_ < q.to_)
    (hfrom : q.from_ ≠ 0) (hto : q.to_ ≠ 0)
    (hbudget : (sqlCandidates any rows tenantID q).length ≤ maxQuerySnapshotEvents) :
    ∃ refs, selectQueryReferences any rows tenantID q = .ok refs ∧ refs.Nodup ∧
      ∀ ref, ref ∈ refs ↔ ∃ (id : String) (e : Event), t.events[id]? = some e ∧
        d.matches_ e q schemas = true ∧ ref = e.reference := by
  -- the event a candidate stands for
  let f : Candidate → Event := fun c => (t.events[c.eventID]?).getD {}
  have hf : ∀ c ∈ candidates any rows tenantID, t.events[c.eventID]? = some (f c) ∧ c.Of (f c) := by
    intro c hc
    obtain ⟨e, he, hof⟩ := hrows.candidate_of hc
    have hfc : f c = e := by
      show (t.events[c.eventID]?).getD {} = e
      rw [he, Option.getD_some]
    rw [hfc]
    exact ⟨he, hof⟩
  have hhorizon : ∀ c ∈ candidates any rows tenantID,
      minOccurredAt ≤ (f c).occurredAt ∧ (f c).occurredAt ≤ maxOccurredAt :=
    fun c hc => (t.ledgered _ _ (hf c hc).1).1.horizon
  have hselected : ∀ c ∈ candidates any rows tenantID,
      ((c.variants ≠ 1 ∨ ∀ p ∈ q.predicates, p.holds c = true) ∧ q.covers (f c) ↔
        d.matches_ (f c) q schemas = true) := by
    intro c hc
    rw [or_iff_right (not_not.2 (hf c hc).2.variants)]
    exact (hf c hc).2.selected_iff (hhorizon c hc) hfield d schemas
  -- the order and the limit change nothing
  let l := (sqlCandidates any rows tenantID q).insertionSort Candidate.precedes
  have hperm : l.Perm (sqlCandidates any rows tenantID q) := List.perm_insertionSort _ _
  have hmem : ∀ c, c ∈ l ↔ c ∈ candidates any rows tenantID ∧
      (c.variants ≠ 1 ∨ ∀ p ∈ q.predicates, p.holds c = true) := by
    intro c
    rw [hperm.mem_iff, sqlCandidates, List.mem_filter, decide_eq_true_eq]
  have hlength : l.length ≤ maxQuerySnapshotEvents := hperm.length_eq ▸ hbudget
  have htake : l.take queryLimit = l :=
    List.take_of_length_le (hlength.trans (by decide))
  refine ⟨(l.filter (fun c => q.covers (f c))).map (fun c => (f c).reference), ?_, ?_, ?_⟩
  · rw [selectQueryReferences,
      projectionQuery_ok hne htenant hcursor hfield hdigest hwindow hfrom hto]
    show scanCandidates q 0 [] (l.take queryLimit) = _
    rw [htake]
    refine scanCandidates_ok q f l 0 [] ?_ (by omega)
    intro c hc
    have hcand := ((hmem c).1 hc).1
    exact ⟨(hf c hcand).2, hasYear_of_horizon (hhorizon c hcand).1 (hhorizon c hcand).2⟩
  · -- references of different candidates have different event ids
    have hids : (l.map Candidate.eventID).Nodup :=
      (hperm.map _).nodup_iff.2
        ((Projects.candidates_nodup any rows tenantID).sublist
          ((List.filter_sublist).map Candidate.eventID))
    refine (List.Nodup.of_map Candidate.eventID
      (hids.sublist ((List.filter_sublist).map _))).map_on ?_
    intro a ha b hb heq
    have ha' := ((hmem a).1 (List.mem_of_mem_filter ha)).1
    have hb' := ((hmem b).1 (List.mem_of_mem_filter hb)).1
    have hid : a.eventID = b.eventID := by
      rw [(hf a ha').2.eventID, (hf b hb').2.eventID]
      exact congrArg EventReference.eventID heq
    exact List.inj_on_of_nodup_map (Projects.candidates_nodup any rows tenantID) ha' hb' hid
  · intro ref
    simp only [List.mem_map, List.mem_filter, decide_eq_true_eq, hmem]
    constructor
    · rintro ⟨c, ⟨⟨hcand, hpred⟩, hcovers⟩, rfl⟩
      exact ⟨_, _, (hf c hcand).1, (hselected c hcand).1 ⟨hpred, hcovers⟩, rfl⟩
    · rintro ⟨id, e, he, hmatch, rfl⟩
      obtain ⟨c, hcand, rfl⟩ := hrows.exists_candidate any he
      have hfc : f c = e := Option.some.inj ((hf c hcand).1.symm.trans he)
      rw [← hfc] at hmatch
      obtain ⟨hpred, hcovers⟩ := (hselected c hcand).2 hmatch
      exact ⟨c, ⟨⟨hcand, hpred⟩, hcovers⟩, by rw [hfc]⟩

/-- The placing of the note of tenant `acme` as the first event of its stream. -/
def placeNote : Except Err Event :=
  ((developmentDeployment 2).admission (noteControl [] []) (noteRequest ∅)).bind fun a =>
    if a.tenantID = "acme" then
      (developmentDeployment 2).env.placeEvent { nextSequence := 1 } a.event
    else .error (.invalid "tenant")

def placedNote : Event := okValue placeNote

theorem placeNote_ledgered {e : Event} (h : placeNote = .ok e) :
    LedgeredEvent (developmentDeployment 2) "acme" e := by
  unfold placeNote at h
  cases hadmitted : (developmentDeployment 2).admission (noteControl [] []) (noteRequest ∅) with
  | error err => rw [hadmitted] at h; cases h
  | ok a =>
    rw [hadmitted] at h
    by_cases htenant : a.tenantID = "acme"
    · exact ⟨_, _, a, _, hadmitted, htenant, (if_pos htenant).symm.trans h⟩
    · have herr := (if_neg htenant).symm.trans h
      cases herr

/-- The table row of the note. -/
def noteRow : ProjectionRow :=
  okValue (insertConfirmed (developmentDeployment 2).hash placedNote)

theorem noteRow_inserted :
    (placeNote.isOk && (insertConfirmed (developmentDeployment 2).hash placedNote).isOk &&
      decide (placedNote.eventID = "e1")) = true := by
  decide +kernel

theorem placedNote_ok :
    placeNote = .ok placedNote ∧ placedNote.eventID = "e1" ∧
      insertConfirmed (developmentDeployment 2).hash placedNote = .ok noteRow := by
  have h := noteRow_inserted
  simp only [Bool.and_eq_true, decide_eq_true_eq] at h
  exact ⟨eq_ok_okValue h.1.1, h.2, eq_ok_okValue h.1.2⟩

/-- Tenant `acme` with the note as its only event. -/
def noteEvents : TenantEvents (developmentDeployment 2) "acme" where
  events := (∅ : Dict Event).insert "e1" placedNote
  ledgered := by
    intro id e he
    rw [lookup_insert] at he
    split at he
    next hid =>
      rw [← Option.some.inj he, ← hid]
      exact ⟨placeNote_ledgered placedNote_ok.1, placedNote_ok.2.1⟩
    · simp at he

theorem noteRow_projects : Projects noteEvents [noteRow, noteRow] where
  complete := by
    intro id e he
    have hevent : e = placedNote := by
      have he' : ((∅ : Dict Event).insert "e1" placedNote)[id]? = some e := he
      rw [lookup_insert] at he'
      split at he'
      · exact (Option.some.inj he').symm
      · simp at he'
    rw [hevent]
    exact ⟨noteRow, List.mem_cons_self, placedNote_ok.2.2⟩
  sound := by
    intro row hrow _
    have hrow' : row = noteRow := by simpa using hrow
    rw [hrow']
    exact ⟨"e1", placedNote, lookup_insert_self _ _ _, placedNote_ok.2.2⟩

/-- A window of one nanosecond. -/
def noteQuery : Query where
  from_ := 63900000000000000000
  to_ := 63900000000000000001
  eventType := "note.written"

theorem note_selected :
    noteQuery.from_ < noteQuery.to_ ∧
    ∃ refs, selectQueryReferences (fun _ => Choice.first) [noteRow, noteRow] "acme" noteQuery =
        .ok refs ∧ refs.Nodup ∧
      ∀ ref, ref ∈ refs ↔ ∃ (id : String) (e : Event), noteEvents.events[id]? = some e ∧
        (developmentDeployment 2).matches_ e noteQuery ∅ = true ∧ ref = e.reference :=
  ⟨by decide, selectQueryReferences_exact (by decide) (by decide) noteEvents noteRow_projects _ ∅
    rfl rfl rfl (by decide) (by decide) (by decide)
    ((Projects.sqlCandidates_length_le _ _ _ _).trans (by decide))⟩

/-- A window that opens at the zero time is refused, whatever it selects. -/
theorem zero_from_refused :
    let q : Query := { from_ := 0, to_ := maxOccurredAt + 1 }
    Projects noteEvents [noteRow, noteRow] ∧ q.from_ < q.to_ ∧
      (sqlCandidates (fun _ => Choice.first) [noteRow, noteRow] "acme" q).length ≤
        maxQuerySnapshotEvents ∧
      noteEvents.events["e1"]? = some placedNote ∧
      (developmentDeployment 2).matches_ placedNote q ∅ = true ∧
      selectQueryReferences (fun _ => Choice.first) [noteRow, noteRow] "acme" q =
        .error (.invalid "") := by
  refine ⟨noteRow_projects, by decide,
    (Projects.sqlCandidates_length_le _ _ _ _).trans (by decide), lookup_insert_self _ _ _, ?_, rfl⟩
  obtain ⟨hlow, hhigh⟩ := (placeNote_ledgered placedNote_ok.1).horizon
  have hfrom : (0 : Time) ≤ placedNote.occurredAt := le_trans (by decide) hlow
  have hto : placedNote.occurredAt < maxOccurredAt + 1 := Int.lt_add_one_of_le hhigh
  simp [Deployment.matches_, textMatches, hfrom, hto]

end AuditGovernance
