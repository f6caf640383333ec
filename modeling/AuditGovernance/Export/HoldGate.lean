import AuditGovernance.Framework.Narrowing
import AuditGovernance.Framework.Paging
import AuditGovernance.Framework.Ranging
import AuditGovernance.Service.ConsolePages

/-! # The hold gate of exports

    `holdBlockingExportEvidence` (`internal/service/export_checkpoint_hold.go`)
    looks for the legal hold with the lowest id that matches an event the export
    selects. It drops holds whose window cannot meet the window of the query
    (`holdCanSelectAnySelected`, `query_match.go`), sorts the others by id and
    goes through the authenticated events, looking only in front of the hold
    found so far.

    `Blocks` says which holds should block, without any loop. The gate returns
    the lowest of them whatever the order of its loops, and would without the
    window test (`hold_gate_exact`).
-/

namespace AuditGovernance

namespace Export

open FiniteMap Paging Narrowing

/-! ## Section 1: Holds -/

/-- `holdCanSelectAnySelected`. -/
def holdCanSelectAnySelected (hold : LegalHold) (query : Query) : Bool :=
  let filter := hold.filter
  if filter.from_ = 0 ∧ filter.to_ = 0 then true
  else if filter.from_ = 0 ∨ filter.to_ = 0 then false
  else if query.from_ = 0 ∨ query.to_ = 0 ∨ ¬query.from_ < query.to_ then true
  else if ¬filter.from_ < filter.to_ then true
  else filter.from_ < query.to_ ∧ query.from_ < filter.to_

/-- The orders of the loops of the gate. -/
structure GateOrders where
  holds : RangeOrder
  receipts : RangeOrder
  sort : SliceSort

/-- A hold of the tenant that is not released. -/
def isActive (tenantID : String) (hold : LegalHold) : Bool :=
  hold.tenantID = tenantID ∧ hold.releasedAt = none

/-- `holdBlockingCandidates`, with the test on windows as a parameter. -/
def holdBlockingCandidates (orders : GateOrders) (keep : LegalHold → Bool)
    (holds : Dict LegalHold) (tenantID : String) : List LegalHold :=
  orders.sort.run (fun a b => a.id < b.id)
    (((orders.holds.entries holds).map Prod.snd).filter fun hold =>
      isActive tenantID hold && keep hold)

/-! ## Section 2: The gate -/

section Gate

variable (d : Deployment) (archive : ArchiveReads) (data : Snapshot)

/-- One receipt in the scan of the gate, which is that of timelines with another
    text. -/
def holdReceipt (tenantID key : String) (receipt : EventReceipt) : Except Err Bool :=
  (timelineReceipt tenantID key receipt).mapError fun _ =>
    .conflict "current export Hold evidence identity mismatch"

/-- One key of the gate: the source event and its schema, if the query of the
    export selects it. -/
def holdKey (tenantID : String) (query : Query) (key : String) :
    Except Err (Option (Event × EventSchema)) :=
  match d.readKey archive data key with
  | .error err => .error err
  | .ok (_, event) =>
    let schema := data.schemaOf tenantID event
    if schema.Names tenantID event.schemaID event.schemaVersion then
      match d.env.reconstructEventForDigest event data.schemas with
      | .error err => .error err
      | .ok source =>
        (d.matchesExportHoldEvidence source schema query).map fun selected =>
          if selected then some (source, schema) else none
    else .error (.conflict "current export Hold schema identity mismatch")

/-- The test of a hold on a selected event: an unbounded hold matches, a bounded
    one by its filter, and one bounded on one side does not. -/
def holdMatches (selected : Event × EventSchema) (hold : LegalHold) : Except Err Bool :=
  if hold.filter.from_ = 0 ∧ hold.filter.to_ = 0 then .ok true
  else if hold.filter.from_ ≠ 0 ∧ hold.filter.to_ ≠ 0 then
    d.matchesExportHoldEvidence selected.1 selected.2 hold.filter
  else .ok false

/-- The loop over the keys. The state is `holds[:blocker]` and the hold at
    `blocker`. -/
def gateLoop (tenantID : String) (query : Query) :
    List String → Found LegalHold → Except Err (Found LegalHold)
  | [], state => .ok state
  | key :: rest, state =>
    match holdKey d archive data tenantID query key with
    | .error err => .error err
    | .ok none => gateLoop tenantID query rest state
    | .ok (some selected) =>
      match narrow (holdMatches d selected) state with
      | .error err => .error err
      | .ok state' => gateLoop tenantID query rest state'

/-- `holdBlockingExportEvidence`, with the test on windows as a parameter. -/
def gateWith (orders : GateOrders) (keep : LegalHold → Bool) (job : ExportJob) :
    Except Err (Option LegalHold) :=
  let holds := holdBlockingCandidates orders keep data.legalHolds job.tenantID
  if holds = [] then .ok none
  else
    match selectKeys (holdReceipt job.tenantID) (orders.receipts.entries data.receipts) with
    | .error err => .error err
    | .ok keys =>
      (gateLoop d archive data job.tenantID job.query (orders.sort.run (fun a b => a < b) keys)
        (holds, none)).map Prod.snd

/-- `holdBlockingExportEvidence`. -/
def holdBlockingExportEvidence (orders : GateOrders) (job : ExportJob) :
    Except Err (Option LegalHold) :=
  gateWith d archive data orders (fun hold => holdCanSelectAnySelected hold job.query) job

end Gate

/-! ## Section 3: What should block -/

section Specification

variable (d : Deployment) (archive : ArchiveReads) (data : Snapshot) (tenantID : String)
  (query : Query)

/-- The receipt of a key belongs to the tenant, and the key is its own. -/
def OwnReceipt (key : String) : Prop :=
  ∃ receipt, data.receipts[key]? = some receipt ∧ holdReceipt tenantID key receipt = .ok true

/-- The identity of every receipt is sound, and every event of the tenant can be
    read, authenticated and tested against the query. -/
structure EvidenceResolves : Prop where
  receipts : ∀ {key : String} {receipt : EventReceipt}, data.receipts[key]? = some receipt →
    ∃ own, holdReceipt tenantID key receipt = .ok own
  events : ∀ {key : String}, OwnReceipt data tenantID key →
    ∃ selected, holdKey d archive data tenantID query key = .ok selected

/-- The query selects this event. -/
def Selects (selected : Event × EventSchema) : Prop :=
  ∃ key, OwnReceipt data tenantID key ∧
    holdKey d archive data tenantID query key = .ok (some selected)

/-- An active hold of the tenant. -/
def ActiveHold (hold : LegalHold) : Prop :=
  (∃ key : String, data.legalHolds[key]? = some hold) ∧ hold.tenantID = tenantID ∧
    hold.releasedAt = none

/-- An active hold that matches a selected event. -/
def Blocks (hold : LegalHold) : Prop :=
  ActiveHold data tenantID hold ∧
    ∃ selected, Selects d archive data tenantID query selected ∧
      holdMatches d selected hold = .ok true

/-- The hold with the lowest id that blocks, or none when none does. -/
def LowestBlocking (answer : Option LegalHold) : Prop :=
  match answer with
  | none => ∀ hold, ¬Blocks d archive data tenantID query hold
  | some hold => Blocks d archive data tenantID query hold ∧
      ∀ other, Blocks d archive data tenantID query other → hold.id ≤ other.id

end Specification

/-- Every hold is stored under its id. -/
def HoldsByID (holds : Dict LegalHold) : Prop :=
  ∀ {id : String} {hold : LegalHold}, holds[id]? = some hold → hold.id = id

/-! ## Section 4: Windows -/

section Windows

variable {d : Deployment} {source : Event} {schema : EventSchema} {query : Query}

theorem matches_window (h : d.matches_ source query ∅ = true) :
    query.from_ ≤ source.occurredAt ∧ source.occurredAt < query.to_ := by
  unfold Deployment.matches_ at h
  simp only [Bool.and_eq_true, decide_eq_true_eq] at h
  exact ⟨h.1.1.1.1.1.1.1.1.1.1.1.1.1.1, h.1.1.1.1.1.1.1.1.1.1.1.1.1.2⟩

theorem matchesExportHoldEvidence_outside
    (h : ¬(query.from_ ≤ source.occurredAt ∧ source.occurredAt < query.to_)) :
    d.matchesExportHoldEvidence source schema query = .ok false := by
  unfold Deployment.matchesExportHoldEvidence
  rw [if_pos]
  rw [← Bool.not_eq_true]
  intro hmatches
  have hwindow := matches_window hmatches
  exact h hwindow

theorem matchesExportHoldEvidence_window
    (h : d.matchesExportHoldEvidence source schema query = .ok true) :
    query.from_ ≤ source.occurredAt ∧ source.occurredAt < query.to_ := by
  by_contra hout
  rw [matchesExportHoldEvidence_outside hout] at h
  cases h

theorem windows_apart {from_ to_ from' to' t : Int} (hapart : ¬(from_ < to' ∧ from' < to_))
    (ht : from' ≤ t ∧ t < to') : ¬(from_ ≤ t ∧ t < to_) := by
  omega

theorem dropped_hold_matches_nothing {hold : LegalHold}
    (hdropped : holdCanSelectAnySelected hold query = false)
    (hwindow : query.from_ ≤ source.occurredAt ∧ source.occurredAt < query.to_) :
    holdMatches d (source, schema) hold = .ok false := by
  unfold holdCanSelectAnySelected at hdropped
  unfold holdMatches
  dsimp only at hdropped
  split_ifs at hdropped with hunbounded honesided hdegenerate hempty
  · rw [if_neg hunbounded, if_neg]
    rintro ⟨hfrom, hto⟩
    exact honesided.elim hfrom hto
  · rw [if_neg hunbounded, if_pos (not_or.1 honesided)]
    apply matchesExportHoldEvidence_outside
    rw [decide_eq_false_iff_not] at hdropped
    exact windows_apart hdropped hwindow

end Windows

/-! ## Section 5: Keys and candidates -/

section Keys

variable {d : Deployment} {archive : ArchiveReads} {data : Snapshot} {tenantID : String}
  {query : Query}

theorem selectKeys_isOk {keep : String → EventReceipt → Except Err Bool}
    {entries : List (String × EventReceipt)} (h : ∀ p ∈ entries, ∃ b, keep p.1 p.2 = .ok b) :
    ∃ keys, selectKeys keep entries = .ok keys ∧
      ∀ key receipt, (key, receipt) ∈ entries → keep key receipt = .ok true → key ∈ keys := by
  induction entries with
  | nil => exact ⟨[], rfl, fun _ _ hmem => by cases hmem⟩
  | cons entry rest ih =>
    obtain ⟨head, first⟩ := entry
    obtain ⟨keys, hkeys, hall⟩ := ih fun p hp => h p (List.mem_cons_of_mem _ hp)
    obtain ⟨b, hb⟩ := h (head, first) List.mem_cons_self
    dsimp only at hb
    rw [selectKeys, hb]
    cases b with
    | true =>
      refine ⟨head :: keys, by dsimp only; rw [hkeys]; rfl, ?_⟩
      intro key receipt hmem hkeep
      rcases List.mem_cons.1 hmem with heq | hmem
      · cases heq
        exact List.mem_cons_self
      · exact List.mem_cons_of_mem _ (hall key receipt hmem hkeep)
    | false =>
      refine ⟨keys, hkeys, ?_⟩
      intro key receipt hmem hkeep
      rcases List.mem_cons.1 hmem with heq | hmem
      · cases heq
        rw [hb] at hkeep
        cases hkeep
      · exact hall key receipt hmem hkeep

theorem gate_keys (orders : GateOrders)
    (h : ∀ {key : String} {receipt : EventReceipt}, data.receipts[key]? = some receipt →
      ∃ own, holdReceipt tenantID key receipt = .ok own) :
    ∃ keys, selectKeys (holdReceipt tenantID) (orders.receipts.entries data.receipts) = .ok keys ∧
      keys.Nodup ∧ ∀ key, key ∈ keys ↔ OwnReceipt data tenantID key := by
  obtain ⟨keys, hkeys, hall⟩ := @selectKeys_isOk (holdReceipt tenantID)
    (orders.receipts.entries data.receipts) fun p hp => h (orders.receipts.mem_entries.1 hp)
  refine ⟨keys, hkeys, ?_, fun key => ⟨?_, ?_⟩⟩
  · exact (List.pairwise_map.2 (orders.receipts.entries_distinct data.receipts)).sublist
      (selectKeys_sublist hkeys)
  · intro hkey
    obtain ⟨receipt, hmem, hkeep⟩ := mem_selectKeys hkeys hkey
    exact ⟨receipt, orders.receipts.mem_entries.1 hmem, hkeep⟩
  · rintro ⟨receipt, hstored, hkeep⟩
    exact hall key receipt (orders.receipts.mem_entries.2 hstored) hkeep

/-- The selected events of some keys. -/
def selectedOf (d : Deployment) (archive : ArchiveReads) (data : Snapshot) (tenantID : String)
    (query : Query) (keys : List String) : List (Event × EventSchema) :=
  keys.filterMap fun key =>
    match holdKey d archive data tenantID query key with
    | .ok selected => selected
    | .error _ => none

theorem mem_selectedOf {keys : List String} {selected : Event × EventSchema} :
    selected ∈ selectedOf d archive data tenantID query keys ↔
      ∃ key ∈ keys, holdKey d archive data tenantID query key = .ok (some selected) := by
  unfold selectedOf
  rw [List.mem_filterMap]
  refine exists_congr fun key => and_congr_right fun _ => ?_
  constructor
  · intro h
    split at h
    · next r hr => rw [hr, h]
    · cases h
  · intro h
    rw [h]

theorem gateLoop_eq {keys : List String} {state : Found LegalHold}
    (h : ∀ key ∈ keys, ∃ selected, holdKey d archive data tenantID query key = .ok selected) :
    gateLoop d archive data tenantID query keys state =
      narrowAll (holdMatches d) (selectedOf d archive data tenantID query keys) state := by
  induction keys generalizing state with
  | nil => rfl
  | cons key rest ih =>
    have hrest : ∀ key ∈ rest, ∃ selected,
        holdKey d archive data tenantID query key = .ok selected :=
      fun key hkey => h key (List.mem_cons_of_mem _ hkey)
    obtain ⟨selected, hselected⟩ := h key List.mem_cons_self
    unfold selectedOf at ih ⊢
    rw [gateLoop, hselected, List.filterMap_cons, hselected]
    cases selected with
    | none => exact ih hrest
    | some pair =>
      dsimp only
      rw [narrowAll]
      cases narrow (holdMatches d pair) state with
      | error err => rfl
      | ok state' => exact ih hrest

theorem narrowAll_empty {β ε α : Type} {test : β → α → Except ε Bool} (tests : List β) :
    narrowAll test tests ([], none) = .ok ([], none) := by
  induction tests with
  | nil => rfl
  | cons b rest ih => exact ih

theorem gateWith_eq (orders : GateOrders) {job : ExportJob}
    (h : EvidenceResolves d archive data job.tenantID job.query) :
    ∃ selected, (∀ pair, pair ∈ selected ↔
        Selects d archive data job.tenantID job.query pair) ∧
      (∀ orders' keep', gateWith d archive data orders' keep' job =
        (narrowAll (holdMatches d) selected
          (holdBlockingCandidates orders' keep' data.legalHolds job.tenantID, none)).map
          Prod.snd) := by
  obtain ⟨keys, hkeys, hnodup, hmem⟩ := gate_keys orders h.receipts
  refine ⟨selectedOf d archive data job.tenantID job.query
    (orders.sort.run (fun a b => a < b) keys), ?_, ?_⟩
  · intro pair
    rw [mem_selectedOf]
    refine exists_congr fun key => and_congr_left fun _ => ?_
    rw [(orders.sort.perm _ keys).mem_iff, hmem]
  · intro orders' keep'
    obtain ⟨keys', hkeys', hnodup', hmem'⟩ := gate_keys orders' h.receipts
    -- Other orders list the same keys, and sorting brings them in one order.
    have hperm : keys'.Perm keys := (List.perm_ext_iff_of_nodup hnodup' hnodup).2 fun key =>
      (hmem' key).trans (hmem key).symm
    have hsorted : orders'.sort.run (fun a b => decide (a < b)) keys' =
        orders.sort.run (fun a b => decide (a < b)) keys :=
      @SliceSort.run_unique orders'.sort orders.sort _ _ _ (fun t : String => t) _ _ hperm
        fun _ _ _ _ heq => heq
    unfold gateWith
    dsimp only
    split_ifs with hempty
    · rw [hempty, narrowAll_empty]
      rfl
    · rw [hkeys']
      dsimp only
      rw [hsorted, gateLoop_eq]
      intro key hkey
      rw [(orders.sort.perm _ keys).mem_iff, hmem] at hkey
      exact h.events hkey

end Keys

section Candidates

variable {data : Snapshot} {tenantID : String} {orders : GateOrders} {keep : LegalHold → Bool}

theorem mem_candidates {hold : LegalHold} :
    hold ∈ holdBlockingCandidates orders keep data.legalHolds tenantID ↔
      ActiveHold data tenantID hold ∧ keep hold = true := by
  unfold holdBlockingCandidates ActiveHold isActive
  rw [(orders.sort.perm _ _).mem_iff, List.mem_filter, Bool.and_eq_true, decide_eq_true_eq]
  simp only [List.mem_map, Prod.exists, exists_eq_right, orders.holds.mem_entries, and_assoc]

theorem candidates_sorted :
    (holdBlockingCandidates orders keep data.legalHolds tenantID).Pairwise
      (fun a b => a.id ≤ b.id) := orders.sort.sorted LegalHold.id _

theorem candidates_filter (hids : HoldsByID data.legalHolds) (orders' : GateOrders) :
    holdBlockingCandidates orders keep data.legalHolds tenantID =
      (holdBlockingCandidates orders' (fun _ => true) data.legalHolds tenantID).filter keep := by
  unfold holdBlockingCandidates
  apply orders.sort.run_eq
  · refine ((orders'.sort.perm _ _).filter keep).trans ?_
    rw [List.filter_filter]
    have hsame : (fun hold => keep hold && (isActive tenantID hold && true)) =
        fun hold => isActive tenantID hold && keep hold := by
      funext hold
      rw [Bool.and_true, Bool.and_comm]
    rw [hsame]
    exact ((orders'.holds.entries_perm orders.holds data.legalHolds).map Prod.snd).filter _
  · exact (orders'.sort.sorted LegalHold.id _).filter _
  · intro a ha b hb heq
    obtain ⟨⟨key, _⟩, hkey, rfl⟩ := List.mem_map.1 (List.mem_filter.1 ha).1
    obtain ⟨⟨key', _⟩, hkey', rfl⟩ := List.mem_map.1 (List.mem_filter.1 hb).1
    rw [orders.holds.mem_entries] at hkey hkey'
    dsimp only at heq
    rw [hids hkey, hids hkey'] at heq
    rw [heq, hkey'] at hkey
    exact (Option.some.inj hkey).symm

end Candidates

/-! ## Section 6: The answer of the gate -/

section Answers

variable {d : Deployment} {archive : ArchiveReads} {data : Snapshot} {job : ExportJob}

theorem Selects.window {tenantID : String} {query : Query} {selected : Event × EventSchema}
    (h : Selects d archive data tenantID query selected) :
    query.from_ ≤ selected.1.occurredAt ∧ selected.1.occurredAt < query.to_ := by
  obtain ⟨key, -, hkey⟩ := h
  unfold holdKey at hkey
  split at hkey
  · cases hkey
  dsimp only at hkey
  split_ifs at hkey
  split at hkey
  · cases hkey
  next source _ =>
  obtain ⟨isSelected, hmatches, heq⟩ := map_ok hkey
  split_ifs at heq with htrue
  cases heq
  rw [htrue] at hmatches
  exact matchesExportHoldEvidence_window hmatches

theorem lowestBlocking_of_narrowed {selected : List (Event × EventSchema)}
    {candidates : List LegalHold} {final : Found LegalHold}
    (hselected : ∀ pair, pair ∈ selected ↔ Selects d archive data job.tenantID job.query pair)
    (hactive : ∀ hold ∈ candidates, ActiveHold data job.tenantID hold)
    (hblocking : ∀ hold, Blocks d archive data job.tenantID job.query hold → hold ∈ candidates)
    (hsorted : candidates.Pairwise (fun a b => a.id ≤ b.id))
    (hrun : narrowAll (holdMatches d) selected (candidates, none) = .ok final) :
    LowestBlocking d archive data job.tenantID job.query final.2 := by
  have hfirst := narrowAll_first hrun
  unfold LowestBlocking
  cases hfound : final.2 with
  | none =>
    rw [hfound] at hfirst
    rintro hold hblocks
    obtain ⟨pair, hpair, hmatch⟩ := hblocks.2
    have hno := hfirst hold (hblocking hold hblocks) pair ((hselected pair).2 hpair)
    rw [hno] at hmatch
    cases hmatch
  | some hit =>
    rw [hfound] at hfirst
    obtain ⟨⟨pair, hpair, hmatch⟩, front, back, hitems, hfront⟩ := hfirst
    have hhit : hit ∈ candidates := by
      rw [hitems]
      exact List.mem_append_right _ List.mem_cons_self
    refine ⟨⟨hactive hit hhit, pair, (hselected pair).1 hpair, hmatch⟩, ?_⟩
    intro other hblocks
    have hother := hblocking other hblocks
    rw [hitems] at hother hsorted
    rcases List.mem_append.1 hother with hbefore | hafter
    · obtain ⟨pair', hpair', hmatch'⟩ := hblocks.2
      rw [hfront other hbefore pair' ((hselected pair').2 hpair')] at hmatch'
      cases hmatch'
    · rcases List.mem_cons.1 hafter with rfl | hback
      · exact le_refl _
      · exact (List.pairwise_cons.1 (List.pairwise_append.1 hsorted).2.1).1 other hback

theorem Blocks.kept {tenantID : String} {query : Query} {hold : LegalHold}
    (h : Blocks d archive data tenantID query hold) : holdCanSelectAnySelected hold query = true := by
  by_contra hdropped
  rw [Bool.not_eq_true] at hdropped
  obtain ⟨-, selected, hselected, hmatch⟩ := h
  rw [show selected = (selected.1, selected.2) from rfl,
    dropped_hold_matches_nothing hdropped hselected.window] at hmatch
  cases hmatch

end Answers

/-- The hold gate, whenever the evidence resolves. An answer is the hold with the
    lowest id that blocks, and none when none does; there is an answer unless a
    digest cannot be derived for a hold; and where holds are stored under their
    ids, neither the order of a loop nor the window test makes a difference. -/
theorem hold_gate_exact {d : Deployment} {archive : ArchiveReads} {data : Snapshot}
    {job : ExportJob} (h : EvidenceResolves d archive data job.tenantID job.query)
    (orders : GateOrders) :
    (∀ answer, holdBlockingExportEvidence d archive data orders job = .ok answer →
        LowestBlocking d archive data job.tenantID job.query answer) ∧
      ((∀ hold selected, ActiveHold data job.tenantID hold →
          Selects d archive data job.tenantID job.query selected →
          ∃ matched, holdMatches d selected hold = .ok matched) →
        ∃ answer, holdBlockingExportEvidence d archive data orders job = .ok answer) ∧
      (HoldsByID data.legalHolds → ∀ orders',
        holdBlockingExportEvidence d archive data orders' job =
            holdBlockingExportEvidence d archive data orders job ∧
          gateWith d archive data orders' (fun _ => true) job =
            holdBlockingExportEvidence d archive data orders job) := by
  obtain ⟨selected, hselected, hgate⟩ := gateWith_eq orders h
  refine ⟨?_, ?_, ?_⟩
  · intro answer hanswer
    unfold holdBlockingExportEvidence at hanswer
    rw [hgate] at hanswer
    obtain ⟨final, hrun, rfl⟩ := map_ok hanswer
    exact lowestBlocking_of_narrowed hselected (fun hold hmem => (mem_candidates.1 hmem).1)
      (fun hold hblocks => mem_candidates.2 ⟨hblocks.1, hblocks.kept⟩) candidates_sorted hrun
  · intro hderives
    unfold holdBlockingExportEvidence
    rw [hgate]
    obtain ⟨final, hrun⟩ := @narrowAll_isOk _ _ _ (holdMatches d)
      (holdBlockingCandidates orders (fun hold => holdCanSelectAnySelected hold job.query)
        data.legalHolds job.tenantID, none) selected
      fun hold hmem pair hpair => hderives hold pair (mem_candidates.1 hmem).1
        ((hselected pair).1 hpair)
    rw [hrun]
    exact ⟨final.2, rfl⟩
  · intro hids orders'
    -- All of them narrow the same candidates, up to holds that match nothing.
    have hfiltered : ∀ orders'', holdBlockingExportEvidence d archive data orders'' job =
        gateWith d archive data orders' (fun _ => true) job := by
      intro orders''
      unfold holdBlockingExportEvidence
      rw [hgate, hgate, candidates_filter hids orders']
      rw [@narrowAll_filter _ _ _ (holdMatches d)
        (holdBlockingCandidates orders' (fun _ => true) data.legalHolds job.tenantID, none)
        (fun hold => holdCanSelectAnySelected hold job.query) selected]
      · cases narrowAll (holdMatches d) selected
            (holdBlockingCandidates orders' (fun _ => true) data.legalHolds job.tenantID, none) with
        | error err => rfl
        | ok final => rfl
      · intro hold _ hdropped pair hpair
        exact dropped_hold_matches_nothing hdropped ((hselected pair).1 hpair).window
    exact ⟨(hfiltered orders').trans (hfiltered orders).symm, (hfiltered orders).symm⟩

/-- One note, an unbounded hold and one that is bounded on one side. -/
def heldNote : Snapshot :=
  { storeOf [ledgeredNote "acme"
      "ba920cbaa39765abcbc2d31c5b445e385569594780a5541ae6bbf1cf8b5b1c32"
      "214d97e4b56e9dd64699a167db084f7bcf06568950f6a4ebd7cf04ee40acb6a0"] with
    legalHolds := ((∅ : Dict LegalHold).insert "h1"
      { id := "h1", tenantID := "acme", filter := { from_ := 1 } }).insert "h2"
        { id := "h2", tenantID := "acme" } }

def noteExport : ExportJob := { id := "e1", tenantID := "acme", query := onePerPage }

theorem heldNote_receipts (key : String) : heldNote.receipts[key]? =
    if eventKey "acme" "e1" = key then some (heldNote.receipts[eventKey "acme" "e1"]?.getD default)
    else none := by
  show (((∅ : Dict EventReceipt).insert (eventKey "acme" "e1") _)[key]?) = _
  rw [lookup_insert, lookup_empty]
  split_ifs <;> rfl

theorem heldNote_resolves :
    EvidenceResolves (developmentDeployment 2) none heldNote noteExport.tenantID
      noteExport.query := by
  have hread : (holdKey (developmentDeployment 2) none heldNote "acme" onePerPage
      (eventKey "acme" "e1")).isOk = true := by
    decide +kernel
  refine ⟨?_, ?_⟩
  · intro key receipt hreceipt
    rw [heldNote_receipts] at hreceipt
    split_ifs at hreceipt with hkey
    cases hreceipt
    subst hkey
    exact ⟨true, by decide +kernel⟩
  · rintro key ⟨receipt, hreceipt, -⟩
    rw [heldNote_receipts] at hreceipt
    split_ifs at hreceipt with hkey
    subst hkey
    exact ⟨_, eq_ok_okValue hread⟩

/-- The gate answers for the note, with the lowest hold that matches it. -/
theorem held_note_answered : ∃ answer,
    holdBlockingExportEvidence (developmentDeployment 2) none heldNote
        ⟨.byKey, .byKey, .insertion⟩ noteExport = .ok answer ∧
      LowestBlocking (developmentDeployment 2) none heldNote "acme" onePerPage answer := by
  obtain ⟨hlowest, hanswers, -⟩ := hold_gate_exact heldNote_resolves ⟨.byKey, .byKey, .insertion⟩
  obtain ⟨answer, hanswer⟩ := hanswers (by
    rintro hold selected ⟨⟨key, hkey⟩, -⟩ -
    -- Neither hold has a filter to evaluate.
    unfold heldNote at hkey
    dsimp only at hkey
    rw [lookup_insert, lookup_insert, lookup_empty] at hkey
    split_ifs at hkey
    · cases hkey
      exact ⟨true, rfl⟩
    · cases hkey
      exact ⟨false, rfl⟩)
  exact ⟨answer, hanswer, hlowest answer hanswer⟩

end Export

end AuditGovernance
