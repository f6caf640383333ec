import AuditGovernance.Outbox.Relay

/-! # What a delivered row stands for

    The relays of `Outbox/Relay` beside a record of the deliveries that were
    accepted. Instances work on copies of rows that others may settle in the
    meantime; a row is marked delivered only if it was delivered as it stands
    in the table.
-/

namespace AuditGovernance

namespace Outbox

/-- The record is what the row holds. -/
structure Shows (row : Row) (record : Record) : Prop where
  id : record.id = row.id
  event : decodeEvent row.payload = some record.event
  identity : identityMismatch row record.event = none

/-- Some row holds the record. -/
def Listed (table : List Row) (record : Record) : Prop := ∃ row ∈ table, Shows row record

section Deliveries

variable {ι : Type} [DecidableEq ι] {relays : ι → Relay} {decodeError : Json → String}
  {s s' : State ι} {a : Action ι}

/-- The record whose delivery this step finds accepted. -/
def acceptedBy (s : State ι) : Action ι → List Record
  | .deliver i (.accepted _) =>
    match s.stages i with
    | .working [] (record :: _) => [record]
    | _ => []
  | _ => []

structure Tracked (ι : Type) where
  state : State ι
  accepted : List Record

/-- Relays over an empty table, with what was accepted so far. -/
def delivering (relays : ι → Relay) (decodeError : Json → String) :
    Transition.System (Tracked ι) (Action ι) where
  init t := (relaying relays decodeError).init t.state ∧ t.accepted = []
  step t a := (step relays decodeError t.state a).map fun s =>
    ⟨s, t.accepted ++ acceptedBy t.state a⟩

/-! ## Section 1: The table -/

/-- A row that is added is pending, under an id of its own. -/
theorem added_new (h : step relays decodeError s a = some s') :
    ∀ row ∈ a.added, (∀ r ∈ s.table, r.id ≠ row.id) ∧ row.status = .pending := by
  intro row hrow
  rcases a with newRow | _ | _ | _ | _ | _
  · rw [List.mem_singleton.1 hrow]
    simp only [step] at h
    split at h
    next hnew => exact ⟨hnew.1, hnew.2.1⟩
    next => cases h
  all_goals cases hrow

theorem ids_update (table : List Row) (id : Int) (patch : Update) :
    (update table id patch).map Row.id = table.map Row.id := by
  rw [update, List.map_map]
  refine List.map_congr_left (fun row _ => ?_)
  show (if row.id = id ∧ row.status = .pending then patch.set row else row).id = row.id
  split <;> rfl

theorem distinct_step (h : step relays decodeError s a = some s')
    (hs : (s.table.map Row.id).Nodup) : (s'.table.map Row.id).Nodup := by
  rw [step_table h]
  split
  next w hw =>
    rw [ids_update]
    exact hs
  next =>
    rw [List.map_append, List.nodup_append]
    refine ⟨hs, ?_, ?_⟩
    · rcases a with _ | _ | _ | _ | _ | _ <;> simp [Action.added]
    · intro id hid id' hid'
      obtain ⟨r, hr, rfl⟩ := List.mem_map.1 hid
      obtain ⟨row, hrow, rfl⟩ := List.mem_map.1 hid'
      exact (added_new h row hrow).1 r hr

/-- A statement sets none of the columns a record is read from. -/
theorem Listed.step (h : step relays decodeError s a = some s') {record : Record}
    (hl : Listed s.table record) : Listed s'.table record := by
  obtain ⟨row, hrow, hshows⟩ := hl
  rw [step_table h]
  split
  next w hw =>
    refine ⟨_, List.mem_map_of_mem hrow, ?_⟩
    split
    · exact ⟨hshows.id, hshows.event, hshows.identity⟩
    · exact hshows
  next => exact ⟨row, List.mem_append_left _ hrow, hshows⟩

theorem listed_of_listPending {table : List Row} {now : Time} {limit : Nat} {record : Record}
    (h : record ∈ (listPending decodeError table now limit).1) : Listed table record := by
  simp only [listPending, List.mem_filterMap, List.mem_map] at h
  obtain ⟨scanned, ⟨row, hrow, rfl⟩, hscan⟩ := h
  have hmem : row ∈ table := (List.mem_filter.1
    ((List.perm_insertionSort _ _).mem_iff.1 (List.mem_of_mem_take hrow))).1
  refine ⟨row, hmem, ?_⟩
  unfold scan at hscan
  split at hscan
  next => cases hscan
  next event hevent =>
    split at hscan
    next => cases hscan
    next hidentity =>
      cases hscan
      exact ⟨rfl, hevent, hidentity⟩

/-! ## Section 2: The instances -/

/-- What an instance holds was read from the table, and an accepted delivery
    is on record. -/
def Holds (table : List Row) (accepted : List Record) : Stage → Prop
  | .idle => True
  | .working _ records => ∀ r ∈ records, Listed table r
  | .answered record outcome rest =>
    (∀ receipt, outcome = .accepted receipt → record ∈ accepted) ∧
      ∀ r ∈ record :: rest, Listed table r

structure Faithful (t : Tracked ι) : Prop where
  distinct : (t.state.table.map Row.id).Nodup
  stages : ∀ i, Holds t.state.table t.accepted (t.state.stages i)
  delivered : ∀ row ∈ t.state.table, row.status = .delivered →
    ∃ record ∈ t.accepted, Shows row record

theorem Holds.mono {table table' : List Row} {accepted : List Record} (more : List Record)
    (htable : ∀ r, Listed table r → Listed table' r) {stage : Stage}
    (h : Holds table accepted stage) : Holds table' (accepted ++ more) stage := by
  cases stage with
  | idle => trivial
  | working corrupt records => exact fun r hr => htable r (h r hr)
  | answered record outcome rest =>
    exact ⟨fun receipt heq => List.mem_append_left _ (h.1 receipt heq),
      fun r hr => htable r (h.2 r hr)⟩

/-- What a step makes of the instance that takes it. -/
theorem stage_step {accepted : List Record} (hs : ∀ i, Holds s.table accepted (s.stages i))
    (h : step relays decodeError s a = some s') :
    s'.stages = s.stages ∨ ∃ i stage, s'.stages = Function.update s.stages i stage ∧
      Holds s.table (accepted ++ acceptedBy s a) stage := by
  rcases a with newRow | ⟨i, now⟩ | ⟨i, now, applied⟩ | ⟨i, outcome⟩ | ⟨i, now, applied⟩ | i <;>
    simp only [step] at h
  · -- A transaction inserts a row.
    split at h
    next =>
      cases h
      exact .inl rfl
    next => cases h
  · -- The instance lists.
    split at h
    next =>
      cases h
      exact .inr ⟨i, _, rfl, fun r hr => listed_of_listPending hr⟩
    next => cases h
  · -- It quarantines a corrupt row; the records stay.
    split at h
    next corrupt rest records hstage =>
      cases h
      have hi := hs i
      rw [hstage] at hi
      exact .inr ⟨i, _, rfl, hi⟩
    next => cases h
  · -- It delivers: what was accepted goes on record in the same step.
    split at h
    next record rest hstage =>
      cases h
      have hi := hs i
      rw [hstage] at hi
      refine .inr ⟨i, _, rfl, ?_, hi⟩
      rintro receipt rfl
      simp [acceptedBy, hstage]
    next => cases h
  · -- It writes the outcome.
    split at h
    next record outcome rest hstage =>
      cases h
      have hi := hs i
      rw [hstage] at hi
      exact .inr ⟨i, _, rfl, fun r hr => hi.2 r (List.mem_cons_of_mem _ hr)⟩
    next => cases h
  · -- It crashes.
    cases h
    exact .inr ⟨i, .idle, rfl, trivial⟩

omit [DecidableEq ι] in
/-- Only an accepted delivery marks a row delivered. -/
theorem writeOf_delivered {w : Write} (h : writeOf relays s a = some w)
    (hstatus : w.patch.status = .delivered) :
    ∃ i record receipt rest, s.stages i = .answered record (.accepted receipt) rest ∧
      w.id = record.id := by
  unfold writeOf at h
  split at h
  · split at h <;> cases h
    cases hstatus
  next i now =>
    split at h
    next record outcome rest hstage =>
      cases h
      rcases outcome with receipt | ⟨permanent, text⟩
      · exact ⟨i, record, receipt, rest, hstage, rfl⟩
      · change ((relays i).fail record permanent text now).status = .delivered at hstatus
        unfold Relay.fail at hstatus
        dsimp only at hstatus
        split at hstatus <;> cases hstatus
    next => cases h
  · cases h

/-! ## Section 3: Whole runs -/

/-- **Step lemma.** -/
theorem Faithful.step {t t' : Tracked ι} (hs : Faithful t)
    (h : (delivering relays decodeError).step t a = some t') : Faithful t' := by
  obtain ⟨s', hstep, rfl⟩ := Option.map_eq_some_iff.1 h
  have hlater : ∀ r, Listed t.state.table r → Listed s'.table r := fun r hr => hr.step hstep
  refine ⟨distinct_step hstep hs.distinct, fun j => ?_, fun row' hrow' hstatus => ?_⟩
  · have hj := (hs.stages j).mono (acceptedBy t.state a) hlater
    rcases stage_step hs.stages hstep with hsame | ⟨i, stage, hset, hstage⟩
    · show Holds _ _ (s'.stages j)
      rw [hsame]
      exact hj
    · show Holds _ _ (s'.stages j)
      rw [hset]
      by_cases hji : j = i
      · subst hji
        rw [Function.update_self]
        simpa using hstage.mono [] hlater
      · rw [Function.update_of_ne hji]
        exact hj
  · have hkept {row : Row} (hrow : row ∈ t.state.table) (hdelivered : row.status = .delivered) :
        ∃ record ∈ t.accepted ++ acceptedBy t.state a, Shows row record := by
      obtain ⟨record, hmem, hshows⟩ := hs.delivered row hrow hdelivered
      exact ⟨record, List.mem_append_left _ hmem, hshows⟩
    change row' ∈ s'.table at hrow'
    rw [step_table hstep] at hrow'
    split at hrow'
    next w hw =>
      obtain ⟨row, hrow, rfl⟩ := List.mem_map.1 hrow'
      split at hstatus
      next hmatch =>
        -- The row of the statement is the one the delivered record was read from.
        obtain ⟨i, record, receipt, rest, hstage, hid⟩ := writeOf_delivered hw hstatus
        have hholds := hs.stages i
        rw [hstage] at hholds
        obtain ⟨row0, hrow0, hshows⟩ := hholds.2 record List.mem_cons_self
        have hsame : row = row0 := List.inj_on_of_nodup_map hs.distinct hrow hrow0
          (hmatch.1.trans (hid.trans hshows.id))
        subst hsame
        rw [if_pos hmatch]
        exact ⟨record, List.mem_append_left _ (hholds.1 receipt rfl), hshows.id, hshows.event,
          hshows.identity⟩
      next hmiss =>
        rw [if_neg hmiss]
        exact hkept hrow hstatus
    next =>
      rcases List.mem_append.1 hrow' with hrow | hnew
      · exact hkept hrow hstatus
      · rw [(added_new hstep row' hnew).2] at hstatus
        cases hstatus

/-- In every interleaving of the relays, a row that is marked delivered was
    accepted by the service in a delivery of exactly the event and identity
    that the row holds. -/
theorem delivered_as_stored {t : Tracked ι} (h : (delivering relays decodeError).Reachable t) :
    ∀ row ∈ t.state.table, row.status = .delivered → ∃ record ∈ t.accepted, Shows row record := by
  have hfaithful : Faithful t := by
    refine Transition.System.Reach.invariant (P := Faithful) ?_ ?_ h
    · rintro t ⟨⟨htable, hstages, -⟩, -⟩
      refine ⟨by simp [htable], fun i => ?_, by simp [htable]⟩
      rw [hstages i]
      trivial
    · intro t a t' _ hs _ hstep
      exact hs.step hstep
  exact hfaithful.delivered

end Deliveries

/-- One instance delivers the order that another has listed as well. -/
theorem delivered_as_stored_order :
    ∃ t, (delivering (fun _ : Bool => {}) (fun _ => "")).exec ⟨emptyOutbox, []⟩
        [.insert orderRow, .list true 1, .list false 1, .deliver true (.accepted none),
          .update true 1 true] = some t ∧
      ∀ row ∈ t.state.table, row.status = .delivered → ∃ record ∈ t.accepted, Shows row record := by
  obtain ⟨t, ht⟩ : ∃ t, (delivering (fun _ : Bool => {}) (fun _ => "")).exec ⟨emptyOutbox, []⟩
      [.insert orderRow, .list true 1, .list false 1, .deliver true (.accepted none),
        .update true 1 true] = some t := ⟨_, rfl⟩
  exact ⟨t, ht, delivered_as_stored
    (Transition.System.Reachable.exec (.init ⟨⟨rfl, fun _ => rfl, rfl⟩, rfl⟩) ht)⟩

end Outbox

end AuditGovernance
