import AuditGovernance.Framework.Transition
import AuditGovernance.Kafka.Replay
import Mathlib.Data.List.Range

/-! # The commit barrier

    The committed offset of a partition never passes a record that is not
    resolved: `commitResolved` stops below the first pending record, and the
    records of a round are contiguous from the committed offset, so whatever it
    passes has been collected and is marked in the file.
-/

namespace AuditGovernance

namespace Replay

/-! ## Section 1: The instance knows only what the file holds -/

structure State.Known (s : State) (file : List Mark) : Prop where
  replayed : ∀ e ∈ s.replayed, ∃ m ∈ file, m.eventID = e
  tenantScoped : ∀ p ∈ s.scopedMarks, Mark.tenantScoped p.1 p.2 ∈ file
  legacy : ∀ e ∈ s.legacyMarks, Mark.unscoped e ∈ file

section Known

variable {s : State} {file : List Mark}

theorem State.Known.mono (h : s.Known file) {more : List Mark} (hm : ∀ m ∈ file, m ∈ more) :
    s.Known more where
  replayed e he := by
    obtain ⟨m, hmem, hid⟩ := h.replayed e he
    exact ⟨m, hm m hmem, hid⟩
  tenantScoped p hp := hm _ (h.tenantScoped p hp)
  legacy e he := hm _ (h.legacy e he)

theorem State.Known.add (h : s.Known file) (mark : Mark) (hmark : mark ∈ file) :
    (s.add mark).Known file := by
  cases mark with
  | unscoped eventID =>
    refine ⟨?_, h.tenantScoped, ?_⟩
    · intro e he
      rcases List.mem_cons.1 he with rfl | he
      · exact ⟨_, hmark, rfl⟩
      · exact h.replayed e he
    · intro e he
      rcases List.mem_cons.1 he with rfl | he
      · exact hmark
      · exact h.legacy e he
  | tenantScoped tenantID eventID =>
    refine ⟨?_, ?_, h.legacy⟩
    · intro e he
      rcases List.mem_cons.1 he with rfl | he
      · exact ⟨_, hmark, rfl⟩
      · exact h.replayed e he
    · intro p hp
      rcases List.mem_cons.1 hp with rfl | hp
      · exact hmark
      · exact h.tenantScoped p hp

theorem State.Known.foldl (h : s.Known file) (marks : List Mark) (hmarks : ∀ m ∈ marks, m ∈ file) :
    (marks.foldl State.add s).Known file := by
  induction marks generalizing s with
  | nil => exact h
  | cons mark rest ih =>
    exact ih (h.add mark (hmarks mark (by simp))) (fun m hm => hmarks m (by simp [hm]))

theorem State.known_load (scope : String) (file : List Mark) : (State.load scope file).Known file :=
  State.Known.foldl ⟨by simp, by simp, by simp⟩ file (fun _ hm => hm)

theorem State.Known.markedTenant (h : s.Known file) {tenantID eventID : String}
    (hm : s.markedTenant tenantID eventID = true) : ∃ m ∈ file, m.eventID = eventID := by
  simp only [State.markedTenant, decide_eq_true_eq] at hm
  obtain ⟨-, -, hscoped | ⟨-, -, hlegacy⟩⟩ := hm
  · exact ⟨_, h.tenantScoped _ hscoped, rfl⟩
  · exact ⟨_, h.legacy _ hlegacy, rfl⟩

theorem State.Known.marked (h : s.Known file) {eventID : String}
    (hm : s.marked eventID = true) : ∃ m ∈ file, m.eventID = eventID :=
  h.replayed eventID (of_decide_eq_true hm)

end Known

/-! ## Section 2: A scan resolves what it has marked -/

/-- Records of one round have their own identities. -/
def DistinctIDs (records : List DlqRecord) : Prop :=
  ∀ r ∈ records, ∀ r' ∈ records, r.id = r'.id → r = r'

/-- Every resolved record has a mark in the file. -/
structure Session.Sound {V : Type} (wanted : List DlqRecord) (before : List Mark)
    (s : Session V) : Prop where
  known : s.state.Known s.file
  grown : ∀ m ∈ before, m ∈ s.file
  marked : ∀ r ∈ wanted, r.id ∈ s.resolved → ∃ m ∈ s.file, m.eventID = r.eventID

section Scan

variable {V : Type} {wanted : List DlqRecord} {before : List Mark} {s : Session V}

/-- Counters, traces and the like do not matter. -/
theorem Session.Sound.congr (h : s.Sound wanted before) {s' : Session V}
    (hstate : s'.state = s.state) (hfile : s'.file = s.file) (hresolved : s'.resolved = s.resolved) :
    s'.Sound wanted before := by
  obtain ⟨hknown, hgrown, hmarked⟩ := h
  refine ⟨?_, ?_, ?_⟩
  · rw [hstate, hfile]
    exact hknown
  · rw [hfile]
    exact hgrown
  · rw [hfile, hresolved]
    exact hmarked

theorem Session.Sound.count (h : s.Sound wanted before) (f : Metrics → Metrics) :
    (s.count f).Sound wanted before :=
  h.congr rfl rfl rfl

theorem Session.Sound.deliver (round : Round V) (h : s.Sound wanted before) (record : RecordID)
    (tenantID eventID : String) (value : V) :
    (s.deliver round record tenantID eventID value).1.Sound wanted before :=
  h.congr rfl rfl rfl

theorem Session.Sound.resolve (h : s.Sound wanted before) {ids : List RecordID}
    (hids : ∀ r ∈ wanted, r.id ∈ ids → ∃ m ∈ s.file, m.eventID = r.eventID) :
    (s.resolve ids).Sound wanted before := by
  refine ⟨h.known, h.grown, ?_⟩
  intro r hr hid
  rcases List.mem_append.1 hid with hid | hid
  · exact h.marked r hr hid
  · exact hids r hr hid

theorem Session.Sound.extend (h : s.Sound wanted before) {s' : Session V} {mark : Mark}
    (hstate : s'.state = s.state ∨ s'.state = s.state.add mark) (hfile : s'.file = s.file ++ [mark])
    (hresolved : s'.resolved = s.resolved) : s'.Sound wanted before := by
  have hmore : ∀ m ∈ s.file, m ∈ s'.file := by
    intro m hm
    rw [hfile]
    exact List.mem_append_left _ hm
  have hknown := h.known.mono hmore
  refine ⟨?_, fun m hm => hmore m (h.grown m hm), ?_⟩
  · rcases hstate with heq | heq
    · rw [heq]
      exact hknown
    · rw [heq]
      exact hknown.add mark (by rw [hfile]; simp)
  · intro r hr hid
    rw [hresolved] at hid
    obtain ⟨m, hm, hevent⟩ := h.marked r hr hid
    exact ⟨m, hmore m hm, hevent⟩

theorem Session.Sound.persist (round : Round V) (h : s.Sound wanted before) (mark : Mark) :
    (s.persist round mark).1.Sound wanted before ∧
      (s.persist round mark).1.resolved = s.resolved ∧
      ((s.persist round mark).2 = .next → mark ∈ (s.persist round mark).1.file) := by
  unfold Session.persist
  cases round.mark s.marks with
  | succeeded => exact ⟨h.extend (.inr rfl) rfl rfl, rfl, fun _ => by simp⟩
  | failed applied =>
    cases applied with
    | true => exact ⟨h.extend (.inl rfl) rfl rfl, rfl, fun hn => by cases hn⟩
    | false => exact ⟨h.congr rfl rfl rfl, rfl, fun hn => by cases hn⟩
  | crashed applied =>
    cases applied with
    | true => exact ⟨h.extend (.inl rfl) rfl rfl, rfl, fun hn => by cases hn⟩
    | false => exact ⟨h.congr rfl rfl rfl, rfl, fun hn => by cases hn⟩

/-! ### By event id -/

variable (codec : Codec V) (round : Round V)

theorem mem_byEventID {eventID : String} {id : RecordID} (h : id ∈ byEventID wanted eventID) :
    ∃ r ∈ wanted, r.eventID = eventID ∧ r.id = id := by
  obtain ⟨r, hr, rfl⟩ := List.mem_map.1 h
  obtain ⟨hmem, hevent⟩ := List.mem_filter.1 hr
  exact ⟨r, hmem, of_decide_eq_true hevent, rfl⟩

theorem Session.Sound.closeLegacy (hd : DistinctIDs wanted) (h : s.Sound wanted before)
    (eventID : String) (f : Metrics → Metrics) (counted : Nat) :
    (s.closeLegacy round wanted eventID f counted).1.Sound wanted before := by
  unfold Session.closeLegacy
  rcases hp : s.persist round (.unscoped eventID) with ⟨s₁, flow⟩
  obtain ⟨hs, -, hmark⟩ := h.persist round (.unscoped eventID)
  rw [hp] at hs hmark
  cases flow with
  | next =>
    refine (Session.Sound.resolve hs ?_).congr rfl rfl rfl
    intro r hr hid
    obtain ⟨r', hr', rfl, hsame⟩ := mem_byEventID hid
    cases hd r' hr' r hr hsame
    exact ⟨_, hmark rfl, rfl⟩
  | failed => exact hs
  | crashed => exact hs

theorem Session.Sound.legacyMessage (hd : DistinctIDs wanted) (h : s.Sound wanted before)
    (m : Message V) : (s.legacyMessage codec round wanted m).1.Sound wanted before := by
  unfold Session.legacyMessage
  cases legacyMatch codec wanted s m with
  | none => exact h
  | some eventID =>
    have hfound : ({ s with found := eventID :: s.found } : Session V).Sound wanted before :=
      h.congr rfl rfl rfl
    dsimp only
    by_cases hpayload : codec.eventIDFromValue m.value = ""
    · rw [if_pos hpayload]
      exact hfound.closeLegacy round hd _ _ _
    · rw [if_neg hpayload]
      have hsent := hfound.deliver round m.id "" eventID m.value
      rcases hout : Session.deliver round { s with found := eventID :: s.found } m.id "" eventID
        m.value with ⟨s₁, outcome⟩
      rw [hout] at hsent
      cases outcome with
      | crashed => exact hsent
      | delivered => exact hsent.closeLegacy round hd _ _ _
      | rejected err =>
        dsimp only
        have hcounted := hsent.count (fun n => { n with republishFail := n.republishFail + 1 })
        split_ifs
        · exact hcounted.closeLegacy round hd _ _ _
        · exact hcounted.closeLegacy round hd _ _ _
        · exact hcounted

theorem Session.Sound.legacyMessages (hd : DistinctIDs wanted) (h : s.Sound wanted before)
    (messages : List (Message V)) :
    (s.legacyMessages codec round wanted messages).1.Sound wanted before := by
  induction messages generalizing s with
  | nil => exact h
  | cons m rest ih =>
    have hm := h.legacyMessage codec round hd m
    unfold Session.legacyMessages
    rcases hl : s.legacyMessage codec round wanted m with ⟨s₁, flow⟩
    rw [hl] at hm
    cases flow with
    | next => exact ih hm
    | failed => exact hm
    | crashed => exact hm

theorem Session.Sound.legacyLosses (hd : DistinctIDs wanted) (h : s.Sound wanted before)
    (eventIDs : List String) : (s.legacyLosses round wanted eventIDs).1.Sound wanted before := by
  induction eventIDs generalizing s with
  | nil => exact h
  | cons eventID rest ih =>
    unfold Session.legacyLosses
    by_cases hdone : eventID ∈ s.found ∨ legacyEventResolved wanted s eventID
    · rw [if_pos hdone]
      exact ih h
    · rw [if_neg hdone]
      have hc := h.closeLegacy round hd eventID
        (fun n => { n with unresolvable := n.unresolvable + 1 }) 1
      rcases hl : s.closeLegacy round wanted eventID
        (fun n => { n with unresolvable := n.unresolvable + 1 }) 1 with ⟨s₁, flow⟩
      rw [hl] at hc
      cases flow with
      | next => exact ih hc
      | failed => exact hc
      | crashed => exact hc

theorem Session.Sound.scanAcceptedLegacy (hd : DistinctIDs wanted) (h : s.Sound wanted before) :
    (s.scanAcceptedLegacy codec round wanted).1.Sound wanted before := by
  have hm := h.legacyMessages codec round hd round.accepted
  unfold Session.scanAcceptedLegacy
  rcases hl : s.legacyMessages codec round wanted round.accepted with ⟨s₁, flow⟩
  rw [hl] at hm
  cases flow with
  | next =>
    cases round.scanEnd with
    | quiet => exact hm.legacyLosses round hd _
    | deadline => exact hm
    | failed => exact hm
    | cancelled => exact hm
  | failed => exact hm
  | crashed => exact hm

/-! ### By tenant and event id -/

theorem Session.Sound.markTenant (h : s.Sound wanted before) (tenantID eventID : String) :
    (s.markTenant round tenantID eventID).1.Sound wanted before ∧
      ((s.markTenant round tenantID eventID).2 = .next →
        Mark.tenantScoped tenantID eventID ∈ (s.markTenant round tenantID eventID).1.file) := by
  unfold Session.markTenant
  split_ifs
  · exact ⟨h, fun hn => by cases hn⟩
  · obtain ⟨hs, -, hmark⟩ := h.persist round (.tenantScoped tenantID eventID)
    exact ⟨hs, hmark⟩

theorem Session.Sound.resolveOne (hd : DistinctIDs wanted) (h : s.Sound wanted before)
    {record : DlqRecord} (hr : record ∈ wanted)
    (hmark : ∃ m ∈ s.file, m.eventID = record.eventID) :
    (s.resolve [record.id]).Sound wanted before := by
  apply h.resolve
  intro r hr' hid
  cases hd r hr' record hr (List.mem_singleton.1 hid)
  exact hmark

theorem Session.Sound.closeTenantDeliveryFailure (hd : DistinctIDs wanted)
    (h : s.Sound wanted before) {record : DlqRecord} (hr : record ∈ wanted) {c : Candidate V}
    (hc : c.eventID = record.eventID) (err : DeliveryFailure) :
    (s.closeTenantDeliveryFailure round record c err).1.Sound wanted before := by
  unfold Session.closeTenantDeliveryFailure
  by_cases huncertain : err.uncertain = true
  · rw [if_pos huncertain]
    exact h
  rw [if_neg huncertain]
  by_cases hretry : (!oneShot record) = true ∧ (!err.permanent) = true
  · rw [if_pos hretry]
    exact h
  rw [if_neg hretry]
  obtain ⟨hs, hmark⟩ := h.markTenant round c.tenantID c.eventID
  rcases hp : s.markTenant round c.tenantID c.eventID with ⟨s₁, flow⟩
  rw [hp] at hs hmark
  cases flow with
  | next => exact (hs.resolveOne hd hr ⟨_, hmark rfl, hc⟩).congr rfl rfl rfl
  | failed => exact hs
  | crashed => exact hs

theorem Session.Sound.withoutCandidate (hd : DistinctIDs wanted) (h : s.Sound wanted before)
    (found : List String) {record : DlqRecord} (hr : record ∈ wanted) :
    (s.withoutCandidate round found record).1.Sound wanted before := by
  unfold Session.withoutCandidate
  by_cases hfound : record.eventID ∈ found
  · rw [if_pos hfound]
    exact h.congr rfl rfl rfl
  rw [if_neg hfound]
  by_cases hmarked : s.state.marked record.eventID = true
  · rw [if_pos hmarked]
    exact h.resolveOne hd hr (h.known.marked hmarked)
  rw [if_neg hmarked]
  dsimp only
  generalize hlost : ({ s with
    events := s.events ++ [ScanEvent.unresolvable record.id record.eventID] } : Session V) = lost
  have hsent : lost.Sound wanted before := by
    rw [← hlost]
    exact h.congr rfl rfl rfl
  obtain ⟨hs, -, hmark⟩ := hsent.persist round (.unscoped record.eventID)
  rcases hp : lost.persist round (.unscoped record.eventID) with ⟨s₁, flow⟩
  rw [hp] at hs hmark
  cases flow with
  | next => exact (hs.resolveOne hd hr ⟨_, hmark rfl, rfl⟩).congr rfl rfl rfl
  | failed => exact hs
  | crashed => exact hs

theorem Session.Sound.withCandidate (hd : DistinctIDs wanted) (h : s.Sound wanted before)
    {record : DlqRecord} (hr : record ∈ wanted) {c : Candidate V}
    (hc : c.eventID = record.eventID) :
    (s.withCandidate round record c).1.Sound wanted before := by
  unfold Session.withCandidate
  by_cases hmarked : s.state.markedTenant c.tenantID c.eventID = true
  · rw [if_pos hmarked]
    exact h.resolveOne hd hr (hc ▸ h.known.markedTenant hmarked)
  rw [if_neg hmarked]
  by_cases hdelivers : (!round.delivers) = true
  · rw [if_pos hdelivers]
    exact h.congr rfl rfl rfl
  rw [if_neg hdelivers]
  have hsent := h.deliver round record.id c.tenantID c.eventID c.value
  rcases hout : s.deliver round record.id c.tenantID c.eventID c.value with ⟨s₁, outcome⟩
  rw [hout] at hsent
  cases outcome with
  | crashed => exact hsent
  | rejected err =>
    dsimp only
    have hcounted := hsent.count (fun n => { n with republishFail := n.republishFail + 1 })
    split_ifs
    · exact hcounted.congr rfl rfl rfl
    · exact hcounted.closeTenantDeliveryFailure round hd hr hc err
  | delivered =>
    dsimp only
    obtain ⟨hs, hmark⟩ := hsent.markTenant round c.tenantID c.eventID
    rcases hp : s₁.markTenant round c.tenantID c.eventID with ⟨s₂, flow⟩
    rw [hp] at hs hmark
    cases flow with
    | next => exact (hs.resolveOne hd hr ⟨_, hmark rfl, hc⟩).congr rfl rfl rfl
    | failed => exact hs
    | crashed => exact hs

theorem candidate_of_record {state : State} {candidates : List (Candidate V)} {record : DlqRecord}
    {c : Candidate V} (h : tenantCandidateForRecord wanted state candidates record = some c) :
    candidatesOf candidates record.eventID = [c] ∧ c.eventID = record.eventID := by
  unfold tenantCandidateForRecord at h
  split at h
  · rename_i c' hone
    have hc' : c' = c := by
      split_ifs at h <;> exact Option.some.inj h
    subst hc'
    refine ⟨hone, ?_⟩
    have hmem : c' ∈ candidatesOf candidates record.eventID := by simp [hone]
    exact of_decide_eq_true (List.mem_filter.1 hmem).2
  · cases h

theorem Session.Sound.tenantRecord (hd : DistinctIDs wanted) (h : s.Sound wanted before)
    (candidates : List (Candidate V)) (found : List String) {record : DlqRecord}
    (hr : record ∈ wanted) :
    (s.tenantRecord round wanted candidates found record).1.Sound wanted before := by
  unfold Session.tenantRecord
  by_cases hnone : candidatesOf candidates record.eventID = []
  · rw [if_pos hnone]
    exact h.withoutCandidate round hd found hr
  rw [if_neg hnone]
  cases hc : tenantCandidateForRecord wanted s.state candidates record with
  | none => exact h.congr rfl rfl rfl
  | some c => exact h.withCandidate round hd hr (candidate_of_record hc).2

theorem Session.Sound.tenantRecords (hd : DistinctIDs wanted) (h : s.Sound wanted before)
    (candidates : List (Candidate V)) (found : List String) (records : List DlqRecord)
    (hr : ∀ r ∈ records, r ∈ wanted) :
    (s.tenantRecords round wanted candidates found records).1.Sound wanted before := by
  induction records generalizing s with
  | nil => exact h
  | cons record rest ih =>
    have hone := h.tenantRecord round hd candidates found (hr record (by simp))
    unfold Session.tenantRecords
    rcases hl : s.tenantRecord round wanted candidates found record with ⟨s₁, flow⟩
    rw [hl] at hone
    cases flow with
    | next => exact ih hone (fun r hmem => hr r (by simp [hmem]))
    | failed => exact hone
    | crashed => exact hone

theorem Session.Sound.scanAcceptedTenantAware (hd : DistinctIDs wanted)
    (h : s.Sound wanted before) :
    (s.scanAcceptedTenantAware codec round wanted).1.Sound wanted before := by
  unfold Session.scanAcceptedTenantAware
  cases round.scanEnd with
  | quiet =>
    dsimp only
    have hall := h.tenantRecords round hd (collectTenantCandidates codec round wanted).1
      (collectTenantCandidates codec round wanted).2 wanted (fun _ hr => hr)
    rcases hl : s.tenantRecords round wanted (collectTenantCandidates codec round wanted).1
      (collectTenantCandidates codec round wanted).2 wanted with ⟨s₁, flow⟩
    rw [hl] at hall
    cases flow with
    | next => exact hall.congr rfl rfl rfl
    | failed => exact hall
    | crashed => exact hall
  | deadline => exact h
  | failed => exact h
  | cancelled => exact h.congr rfl rfl rfl

end Scan

/-! ## Section 3: What a round collects -/

/-- The offsets of each partition follow one another from the committed one. -/
def Contiguous (offsets : Offsets) (ids : List RecordID) : Prop :=
  ∀ topic partition, ∃ n,
    (ids.filter (fun id => id.topic = topic ∧ id.partition = partition)).map RecordID.offset =
      List.range' (offsets topic partition) n

section Contiguous

variable {offsets : Offsets} {ids : List RecordID}

theorem Contiguous.isPrefix (h : Contiguous offsets ids) {front : List RecordID}
    (hp : front <+: ids) : Contiguous offsets front := by
  intro topic partition
  obtain ⟨n, hn⟩ := h topic partition
  have hfilter := (hp.filter (fun id => decide (id.topic = topic ∧ id.partition = partition))).map
    RecordID.offset
  rw [hn] at hfilter
  obtain ⟨rest, hrest⟩ := hfilter
  obtain ⟨k, -, hk, -⟩ := List.range'_eq_append_iff.1 hrest.symm
  exact ⟨k, hk⟩

theorem Contiguous.mem_iff (h : Contiguous offsets ids) (topic : String) (partition : Nat) :
    ∃ n, ∀ o, (⟨topic, partition, o⟩ : RecordID) ∈ ids ↔
      offsets topic partition ≤ o ∧ o < offsets topic partition + n := by
  obtain ⟨n, hn⟩ := h topic partition
  refine ⟨n, fun o => ?_⟩
  rw [← List.mem_range'_1, ← hn, List.mem_map]
  constructor
  · intro hmem
    exact ⟨⟨topic, partition, o⟩, by simp [hmem], rfl⟩
  · rintro ⟨⟨t, p, o'⟩, hmem, rfl⟩
    obtain ⟨hin, hsame⟩ := List.mem_filter.1 hmem
    obtain ⟨rfl, rfl⟩ := of_decide_eq_true hsame
    exact hin

theorem contiguous_singleton {id : RecordID} (h : offsets id.topic id.partition = id.offset) :
    Contiguous offsets [id] := by
  intro topic partition
  by_cases hsame : id.topic = topic ∧ id.partition = partition
  · refine ⟨1, ?_⟩
    obtain ⟨rfl, rfl⟩ := hsame
    simp [h]
  · refine ⟨0, ?_⟩
    simp [hsame]

theorem Contiguous.nodup (h : Contiguous offsets ids) : ids.Nodup := by
  rw [List.nodup_iff_count_le_one]
  intro id
  obtain ⟨n, hn⟩ := h id.topic id.partition
  have hnodup : (ids.filter (fun x => x.topic = id.topic ∧ x.partition = id.partition)).Nodup := by
    apply List.Nodup.of_map RecordID.offset
    rw [hn]
    exact List.nodup_range'
  have hcount := List.nodup_iff_count_le_one.1 hnodup id
  rwa [List.count_filter (by simp)] at hcount

end Contiguous

section Collect

variable {V : Type} {codec : Codec V}

theorem collectFailures_eq (codec : Codec V) (failureWanted : String → Bool) (replayAuthBlocked : Bool)
    (collected count bytes : Nat) (fetches : List (Message V)) :
    ∃ front, front <+: fetches ∧
      (collectFailures codec failureWanted replayAuthBlocked collected count bytes fetches).1 =
        front.map (recordOf codec failureWanted replayAuthBlocked) := by
  induction fetches generalizing collected count bytes with
  | nil => exact ⟨[], List.prefix_rfl, rfl⟩
  | cons m rest ih =>
    have hone : [m] <+: m :: rest := ⟨rest, rfl⟩
    unfold collectFailures
    dsimp only
    split_ifs
    all_goals first
      | exact ⟨[m], hone, rfl⟩
      | skip
    all_goals
      obtain ⟨front, hfront, heq⟩ := ih (collected + 1) _ _
      refine ⟨m :: front, List.cons_prefix_cons.2 ⟨rfl, hfront⟩, ?_⟩
      rw [heq, List.map_cons]

@[simp]
theorem recordOf_id (failureWanted : String → Bool) (replayAuthBlocked : Bool) (m : Message V) :
    (recordOf codec failureWanted replayAuthBlocked m).id = m.id := by
  unfold recordOf
  cases codec.decodeStrictFailure m.value <;> rfl

theorem recordOf_ok {failureWanted : String → Bool} {replayAuthBlocked : Bool} {m : Message V}
    {failure : Failure} (h : codec.decodeStrictFailure m.value = .ok failure) :
    (recordOf codec failureWanted replayAuthBlocked m).malformed = false ∧
      (recordOf codec failureWanted replayAuthBlocked m).eventID = failure.eventID ∧
      (recordOf codec failureWanted replayAuthBlocked m).wanted =
        failureWanted failure.eventID := by
  unfold recordOf
  rw [h]
  exact ⟨rfl, rfl, rfl⟩

end Collect

/-! ## Section 4: What a commit passes -/

section Commit

variable {offsets : Offsets} {collected : List DlqRecord} {resolved : List RecordID}

theorem Offsets.lt_advance {id : RecordID} {topic : String} {partition o : Nat}
    (h : o < offsets.advance id topic partition) :
    o < offsets topic partition ∨ (id.topic = topic ∧ id.partition = partition ∧ o ≤ id.offset) := by
  unfold Offsets.advance at h
  split_ifs at h with hsame
  · obtain ⟨rfl, rfl⟩ := hsame
    rcases lt_max_iff.1 h with h | h
    · exact .inl h
    · exact .inr ⟨rfl, rfl, by omega⟩
  · exact .inl h

theorem commitRecords_lt (commit : Nat → CallOutcome) (calls : Nat) (ids : List RecordID)
    {topic : String} {partition o : Nat}
    (h : o < (commitRecords commit calls offsets ids).1 topic partition) :
    o < offsets topic partition ∨
      ∃ id ∈ ids, id.topic = topic ∧ id.partition = partition ∧ o ≤ id.offset := by
  induction ids generalizing calls offsets with
  | nil => exact .inl h
  | cons id rest ih =>
    -- one call at most moves the offset past `id`
    have hone : o < offsets.advance id topic partition → o < offsets topic partition ∨
        ∃ id' ∈ id :: rest, id'.topic = topic ∧ id'.partition = partition ∧ o ≤ id'.offset := by
      intro ho
      rcases Offsets.lt_advance ho with ho | ho
      · exact .inl ho
      · exact .inr ⟨id, by simp, ho⟩
    unfold commitRecords at h
    cases hcall : commit calls with
    | succeeded =>
      rw [hcall] at h
      rcases ih (calls + 1) h with ho | ⟨id', hmem, hid'⟩
      · exact hone ho
      · exact .inr ⟨id', by simp [hmem], hid'⟩
    | failed applied =>
      rw [hcall] at h
      cases applied with
      | true => exact hone h
      | false => exact .inl h
    | crashed applied =>
      rw [hcall] at h
      cases applied with
      | true => exact hone h
      | false => exact .inl h

theorem mayCommit_below {record below : DlqRecord} (h : mayCommit collected resolved record = true)
    (hmem : below ∈ collected) (hsame : samePartition below.id record.id = true)
    (hle : below.id.offset ≤ record.id.offset) : pendingRecord resolved below = false := by
  by_contra hpending
  rw [Bool.not_eq_false] at hpending
  have hoffset : below.id.offset ∈
      (collected.filter (fun r => pendingRecord resolved r && samePartition r.id record.id)).map
        (fun r => r.id.offset) :=
    List.mem_map_of_mem (List.mem_filter.2 ⟨hmem, by simp [hpending, hsame]⟩)
  unfold mayCommit at h
  cases hfirst : firstPending collected resolved record.id with
  | none =>
    unfold firstPending at hfirst
    rw [List.min?_eq_none_iff] at hfirst
    rw [hfirst] at hoffset
    cases hoffset
  | some offset =>
    have hmin := (List.min?_eq_some_iff.1 hfirst).2 _ hoffset
    rw [hfirst] at h
    have hlt : record.id.offset < offset := by
      simp only [Bool.and_eq_true, decide_eq_true_eq] at h
      exact h.1
    omega

theorem commitResolved_lt (commit : Nat → CallOutcome)
    (hc : Contiguous offsets (collected.map DlqRecord.id)) {topic : String} {partition o : Nat}
    (h : o < (commitResolved commit offsets collected resolved).1 topic partition) :
    o < offsets topic partition ∨
      ∃ r ∈ collected, r.id = ⟨topic, partition, o⟩ ∧ pendingRecord resolved r = false := by
  rcases commitRecords_lt commit 0 _ h with ho | ⟨id, hid, rfl, rfl, hle⟩
  · exact .inl ho
  obtain ⟨record, hrecord, rfl⟩ := List.mem_map.1 hid
  obtain ⟨hmem, hmay⟩ := List.mem_filter.1 hrecord
  by_cases hbefore : o < offsets record.id.topic record.id.partition
  · exact .inl hbefore
  -- the record at `o` was fetched as well, ahead of the committed one
  obtain ⟨n, hn⟩ := hc.mem_iff record.id.topic record.id.partition
  have hlast := (hn record.id.offset).1 (List.mem_map_of_mem hmem)
  obtain ⟨r, hr, hrid⟩ := List.mem_map.1 ((hn o).2 (by omega))
  refine .inr ⟨r, hr, hrid, mayCommit_below hmay hr ?_ ?_⟩
  · simp [samePartition, hrid]
  · rw [hrid]
    exact hle

end Commit

/-! ## Section 5: Runs -/

/-- What happens to a replayer. -/
inductive Action (V : Type) where
  | runOnce (round : Round V)
  | restart

section Runs

variable {V : Type} (codec : Codec V) (tenantAware : Bool)

/-- Rounds and restarts of one instance on some mark file, from the offsets
    `first`. -/
def system (first : Offsets) : Transition.System World (Action V) where
  init w :=
    w.offsets = first ∧ w.state = State.load w.state.legacyTenantScope w.file ∧
      w.metrics = {} ∧ w.collected = [] ∧ w.blocked = [] ∧ w.resolved = [] ∧
      w.acknowledged = w.file
  step w
    | .runOnce round => some (w.runOnce codec tenantAware round)
    | .restart => some w.restart

/-- The broker hands out the records of the topic, each partition contiguously
    from its committed offset. -/
structure Fetched (content : RecordID → V) (offsets : Offsets) (fetches : List (Message V)) :
    Prop where
  values : ∀ m ∈ fetches, m.value = content m.id
  contiguous : Contiguous offsets (fetches.map Message.id)

/-- The guard of a run against the topic's content. -/
def FetchesFrom (content : RecordID → V) (w : World) : Action V → Prop
  | .runOnce round => Fetched content w.offsets round.fetches
  | .restart => True

variable {codec tenantAware}

theorem World.runOnce_cases (codec : Codec V) (tenantAware : Bool) (w : World) (round : Round V) :
    w.runOnce codec tenantAware round =
        w.begin.scanned (w.attempt codec tenantAware round) ∨
      w.runOnce codec tenantAware round =
        (w.begin.scanned (w.attempt codec tenantAware round)).restart ∨
      w.runOnce codec tenantAware round =
        (w.begin.scanned (w.attempt codec tenantAware round)).commit round
          (w.begin.collect codec tenantAware round).1
          (w.attempt codec tenantAware round).resolved := by
  unfold World.runOnce World.attempt World.scans
  dsimp only
  rcases hcollect : w.begin.collect codec tenantAware round with ⟨collected, ended⟩
  dsimp only
  by_cases hcloses : round.closesDLQ = true
  · by_cases hfailed : ended = true ∧ round.fetchEnd = .failed
    · simp only [hcloses, hfailed, and_self, Bool.not_true, Bool.false_eq_true, if_true, if_false,
        decide_true, Bool.and_false, Bool.false_and]
      exact .inl rfl
    · by_cases hnone : wantedEvents collected = []
      · simp only [hcloses, hfailed, hnone, Bool.not_true, Bool.false_eq_true, if_true, if_false,
          List.isEmpty_nil, Bool.and_false, Bool.false_and]
        exact .inr (.inr rfl)
      · have hsome : (wantedEvents collected).isEmpty = false := by
          simpa [List.isEmpty_eq_false_iff] using hnone
        by_cases hopens : round.closesAccepted = true
        · simp only [hcloses, hfailed, hnone, hsome, hopens, Bool.not_true, Bool.not_false,
            Bool.false_eq_true, if_true, if_false, decide_false, Bool.and_self]
          rcases hscan : w.begin.scan codec tenantAware round (wantedEvents collected)
            with ⟨s, flow⟩
          cases flow with
          | next => exact .inr (.inr rfl)
          | crashed => exact .inr (.inl rfl)
          | failed =>
            dsimp only
            by_cases hcancelled : round.cancelled = true
            · rw [if_pos hcancelled]
              exact .inr (.inr rfl)
            · rw [if_neg hcancelled]
              exact .inl rfl
        · simp only [hcloses, hfailed, hnone, hopens, Bool.not_true, Bool.not_false,
            Bool.false_eq_true, if_true, if_false, Bool.and_false]
          exact .inl rfl
  · simp only [hcloses, Bool.not_false, if_true, Bool.false_and, Bool.false_eq_true, if_false]
    exact .inl rfl

theorem World.scan_sound {w : World} (hknown : w.state.Known w.file) (round : Round V)
    {wanted : List DlqRecord} (hd : DistinctIDs wanted) :
    (w.scan codec tenantAware round wanted).1.Sound wanted w.file := by
  have hbegin : (w.session : Session V).Sound wanted w.file :=
    ⟨hknown, fun _ hm => hm, fun _ _ hid => by cases hid⟩
  unfold World.scan
  cases tenantAware with
  | true => exact hbegin.scanAcceptedTenantAware codec round hd
  | false => exact hbegin.scanAcceptedLegacy codec round hd

/-- The committed offset has passed the record since the run began. -/
def Passed (first offsets : Offsets) (id : RecordID) : Prop :=
  first id.topic id.partition ≤ id.offset ∧ id.offset < offsets id.topic id.partition

/-- What may be passed. -/
structure Settled (codec : Codec V) (tenantAware : Bool) (content : RecordID → V) (w : World)
    (id : RecordID) : Prop where
  collected : id ∈ w.collected
  unblocked : id ∉ w.blocked
  resolved : ∀ failure, codec.decodeStrictFailure (content id) = .ok failure →
    (∃ m ∈ w.file, m.eventID = failure.eventID) ∧ (tenantAware = true → id ∈ w.resolved)

/-- The barrier. -/
structure Barrier (codec : Codec V) (tenantAware : Bool) (content : RecordID → V)
    (first : Offsets) (w : World) : Prop where
  known : w.state.Known w.file
  settled : ∀ id, Passed first w.offsets id → Settled codec tenantAware content w id

variable {content : RecordID → V} {first : Offsets} {w : World}

theorem Barrier.restart (h : Barrier codec tenantAware content first w) :
    Barrier codec tenantAware content first w.restart :=
  ⟨State.known_load _ _, fun id hid =>
    let hs := h.settled id hid
    ⟨hs.collected, hs.unblocked, hs.resolved⟩⟩

theorem Barrier.scanned (h : Barrier codec tenantAware content first w) {wanted : List DlqRecord}
    {s : Session V} (hs : s.Sound wanted w.file) :
    Barrier codec tenantAware content first (w.scanned s) := by
  refine ⟨hs.known, fun id hid => ?_⟩
  obtain ⟨hcollected, hunblocked, hresolved⟩ := h.settled id hid
  refine ⟨hcollected, hunblocked, fun failure hf => ?_⟩
  obtain ⟨⟨m, hm, hevent⟩, hid'⟩ := hresolved failure hf
  exact ⟨⟨m, hs.grown m hm, hevent⟩, hid'⟩

/-- Records that may go: not held back, and marked if they are valid. -/
def Resolvable (codec : Codec V) (tenantAware : Bool) (content : RecordID → V) (file : List Mark)
    (resolved : List RecordID) (r : DlqRecord) : Prop :=
  r.authBlocked = false ∧ ∀ failure, codec.decodeStrictFailure (content r.id) = .ok failure →
    (∃ m ∈ file, m.eventID = failure.eventID) ∧ (tenantAware = true → r.id ∈ resolved)

theorem distinctIDs_of_nodup {collected : List DlqRecord}
    (h : (collected.map DlqRecord.id).Nodup) : DistinctIDs collected :=
  fun _ hr _ hr' heq => List.inj_on_of_nodup_map h hr hr' heq

theorem Barrier.commit (h : Barrier codec tenantAware content first w) (round : Round V)
    {collected : List DlqRecord} {resolved : List RecordID}
    (hc : Contiguous w.offsets (collected.map DlqRecord.id))
    (hr : ∀ r ∈ collected, pendingRecord resolved r = false →
      Resolvable codec tenantAware content w.file resolved r) :
    Barrier codec tenantAware content first (w.commit round collected resolved) := by
  have hdistinct := distinctIDs_of_nodup hc.nodup
  -- the committed world, whether or not the last call crashed
  have hbarrier : ∀ offsets, (∀ topic partition o, o < offsets topic partition →
      o < (commitResolved round.commit w.offsets collected resolved).1 topic partition) →
      Barrier codec tenantAware content first
        { w with
          collected := w.collected ++ collected.map DlqRecord.id
          blocked := w.blocked.filter (fun id => !(id ∈ collected.map DlqRecord.id)) ++
            (collected.filter DlqRecord.authBlocked).map DlqRecord.id
          resolved := w.resolved ++ resolved
          offsets := offsets } := by
    intro offsets hoffsets
    refine ⟨h.known, fun id hid => ?_⟩
    rcases commitResolved_lt round.commit hc (hoffsets _ _ _ hid.2) with hbefore | ⟨r, hmem, hrid, hnp⟩
    · obtain ⟨hcollected, hunblocked, hresolved⟩ := h.settled id ⟨hid.1, hbefore⟩
      refine ⟨List.mem_append_left _ hcollected, ?_, fun failure hf => ?_⟩
      · intro hblocked
        rcases List.mem_append.1 hblocked with hold | hnew
        · exact hunblocked (List.mem_filter.1 hold).1
        · obtain ⟨r, hmem, rfl⟩ := List.mem_map.1 hnew
          obtain ⟨n, hn⟩ := hc.mem_iff r.id.topic r.id.partition
          have hfetched := (hn r.id.offset).1 (List.mem_map_of_mem (List.mem_filter.1 hmem).1)
          omega
      · obtain ⟨hmark, hid'⟩ := hresolved failure hf
        exact ⟨hmark, fun ht => List.mem_append_left _ (hid' ht)⟩
    · obtain ⟨hunblocked, hresolved⟩ := hr r hmem hnp
      have hrid' : r.id = id := hrid
      subst hrid'
      refine ⟨List.mem_append_right _ (List.mem_map_of_mem hmem), ?_, fun failure hf => ?_⟩
      · intro hblocked
        rcases List.mem_append.1 hblocked with hold | hnew
        · have hgone := (List.mem_filter.1 hold).2
          simp [List.mem_map_of_mem hmem] at hgone
        · obtain ⟨r', hmem', hsame⟩ := List.mem_map.1 hnew
          obtain ⟨hin, hauth⟩ := List.mem_filter.1 hmem'
          rw [hdistinct r' hin r hmem hsame, hunblocked] at hauth
          cases hauth
      · obtain ⟨hmark, hid'⟩ := hresolved failure hf
        exact ⟨hmark, fun ht => List.mem_append_right _ (hid' ht)⟩
  unfold World.commit
  dsimp only
  rcases hcommit : commitResolved round.commit w.offsets collected resolved with ⟨offsets, flow⟩
  have hsame := hbarrier offsets (fun _ _ _ ho => by rw [hcommit]; exact ho)
  cases flow with
  | next => exact hsame
  | failed => exact hsame
  | crashed => exact hsame.restart

theorem mem_wantedEvents {collected : List DlqRecord} {r : DlqRecord} :
    r ∈ wantedEvents collected ↔
      r ∈ collected ∧ r.malformed = false ∧ r.wanted = true ∧ r.authBlocked = false := by
  simp [wantedEvents, List.mem_filter, and_assoc]

theorem not_pending {resolved : List RecordID} {r : DlqRecord}
    (h : pendingRecord resolved r = false) (hm : r.malformed = false) :
    r.authBlocked = false ∧ (r.wanted = true → r.id ∈ resolved) := by
  simp only [pendingRecord, hm, Bool.not_false, Bool.true_and, Bool.or_eq_false_iff,
    Bool.and_eq_false_iff, Bool.not_eq_false', decide_eq_true_eq] at h
  refine ⟨h.1, fun hw => ?_⟩
  rcases h.2 with hunwanted | hresolved
  · rw [hw] at hunwanted
    cases hunwanted
  · exact hresolved

theorem resolvable_of_not_pending (state : State) {replayAuthBlocked : Bool} {file : List Mark}
    {collected : List DlqRecord} {resolved : List RecordID}
    (hknown : ∀ e, state.marked e = true → ∃ k ∈ file, k.eventID = e)
    (hmarked : ∀ r ∈ wantedEvents collected, r.id ∈ resolved → ∃ k ∈ file, k.eventID = r.eventID)
    {m : Message V} (hvalue : m.value = content m.id) {r : DlqRecord} (hr : r ∈ collected)
    (hrecord : r = recordOf codec (failureWanted tenantAware state) replayAuthBlocked m)
    (hnp : pendingRecord resolved r = false) :
    Resolvable codec tenantAware content file resolved r := by
  have hid : r.id = m.id := by
    rw [hrecord, recordOf_id]
  cases hdecode : codec.decodeStrictFailure m.value with
  | error reason =>
    refine ⟨?_, fun failure hf => ?_⟩
    · rw [hrecord]
      unfold recordOf
      rw [hdecode]
    · rw [hid, ← hvalue, hdecode] at hf
      cases hf
  | ok failure =>
    have hfields : r.malformed = false ∧ r.eventID = failure.eventID ∧
        r.wanted = failureWanted tenantAware state failure.eventID := by
      rw [hrecord]
      exact recordOf_ok hdecode
    obtain ⟨hmal, hevent, hwanted⟩ := hfields
    obtain ⟨hauth, hresolved⟩ := not_pending hnp hmal
    refine ⟨hauth, fun failure' hf => ?_⟩
    rw [hid, ← hvalue, hdecode] at hf
    cases hf
    -- either the scan resolved it, or it was marked when the round began
    by_cases hw : r.wanted = true
    · have hin := hresolved hw
      rw [← hevent]
      exact ⟨hmarked r (mem_wantedEvents.2 ⟨hr, hmal, hw, hauth⟩) hin, fun _ => hin⟩
    · rw [hwanted] at hw
      simp only [failureWanted, Bool.or_eq_true, Bool.not_eq_true', not_or, Bool.not_eq_true,
        Bool.not_eq_false] at hw
      refine ⟨hknown _ hw.2, fun ht => ?_⟩
      rw [ht] at hw
      cases hw.1

theorem Barrier.runOnce (h : Barrier codec tenantAware content first w) {round : Round V}
    (hf : Fetched content w.offsets round.fetches) :
    Barrier codec tenantAware content first (w.runOnce codec tenantAware round) := by
  have hbegin : Barrier codec tenantAware content first w.begin :=
    ⟨h.known, fun id hid =>
      let hs := h.settled id hid
      ⟨hs.collected, hs.unblocked, hs.resolved⟩⟩
  obtain ⟨front, hfront, hcollected⟩ := collectFailures_eq codec
    (failureWanted tenantAware w.state) round.replayAuthBlocked 0 0 0 round.fetches
  have hcollected' : (w.begin.collect codec tenantAware round).1 =
    front.map (recordOf codec (failureWanted tenantAware w.state) round.replayAuthBlocked) :=
    hcollected
  have hcases := w.runOnce_cases codec tenantAware round
  have hs : (w.attempt codec tenantAware round) = w.begin.session ∨
      (w.attempt codec tenantAware round) = (w.begin.scan codec tenantAware round
        (wantedEvents (w.begin.collect codec tenantAware round).1)).1 := by
    unfold World.attempt
    split_ifs
    · exact .inr rfl
    · exact .inl rfl
  rw [hcollected'] at hs hcases
  generalize w.attempt codec tenantAware round = s at hs hcases
  generalize hrecords : front.map
    (recordOf codec (failureWanted tenantAware w.state) round.replayAuthBlocked) = records
    at hs hcases
  have hids : records.map DlqRecord.id = front.map Message.id := by
    rw [← hrecords, List.map_map]
    exact List.map_congr_left (fun m _ => recordOf_id _ _ m)
  have hcontiguous : Contiguous w.offsets (records.map DlqRecord.id) := by
    rw [hids]
    exact hf.contiguous.isPrefix (hfront.map Message.id)
  have hdistinct : DistinctIDs (wantedEvents records) := by
    intro r hr r' hr' heq
    exact distinctIDs_of_nodup hcontiguous.nodup r (mem_wantedEvents.1 hr).1 r'
      (mem_wantedEvents.1 hr').1 heq
  have hsound : s.Sound (wantedEvents records) w.file := by
    rcases hs with rfl | rfl
    · exact ⟨h.known, fun _ hm => hm, fun _ _ hid => by cases hid⟩
    · exact World.scan_sound (w := w.begin) h.known round hdistinct
  have hscanned := hbegin.scanned hsound
  rcases hcases with hw' | hw' | hw'
  · rw [hw']
    exact hscanned
  · rw [hw']
    exact hscanned.restart
  · rw [hw']
    refine hscanned.commit round hcontiguous ?_
    intro r hr hnp
    have hr' := hr
    rw [← hrecords] at hr'
    obtain ⟨m, hm, hrecord⟩ := List.mem_map.1 hr'
    refine resolvable_of_not_pending w.state ?_ hsound.marked
      (hf.values m (hfront.subset hm)) hr hrecord.symm hnp
    intro e he
    obtain ⟨k, hk, hke⟩ := h.known.marked he
    exact ⟨k, hsound.grown k hk, hke⟩

/-- **The commit barrier.** In every run, what the committed offset of a
    partition has passed was collected by some round, is not held back for
    authentication, and, if it is a valid failure record, has its mark in the
    file and, in the tenant-aware mode, was resolved by some round. -/
theorem commit_barrier (h : (system codec tenantAware first).Reach (FetchesFrom content) w)
    (id : RecordID) (hid : Passed first w.offsets id) :
    Settled codec tenantAware content w id := by
  have hbarrier : Barrier codec tenantAware content first w := by
    refine h.invariant ?_ ?_
    · rintro w ⟨hoffsets, hstate, -, -, -, -, -⟩
      refine ⟨?_, fun id hid => ?_⟩
      · rw [hstate]
        exact State.known_load _ _
      · rw [hoffsets] at hid
        exact absurd hid.2 (not_lt.2 hid.1)
    · intro w a w' _ hb hguard hstep
      cases a with
      | runOnce round =>
        cases hstep
        exact hb.runOnce hguard
      | restart =>
        cases hstep
        exact hb.restart
  exact hbarrier.settled id hid

end Runs

/-! ### A run -/

namespace Sample

/-- A dead letter of the event `e1`. -/
def failureText : String :=
  "\x7b\"event_id\":\"e1\",\"error_code\":\"timeout\",\"error_message\":\"\"\x7d"

/-- The accepted event. -/
def acceptedText : String := "\x7b\"event_id\":\"e1\",\"tenant_id\":\"t1\"\x7d"

/-- A replayer on an absent file. -/
def start : World where
  offsets _ _ := 0
  file := []
  state := State.load "" []
  metrics := {}
  collected := []
  blocked := []
  resolved := []
  acknowledged := []

/-- A round in which everything works: the dead letter at `offset`, and what the
    accepted topic holds. -/
def round (offset : Nat) (accepted : List String) : Round String where
  replayAuthBlocked := false
  closesDLQ := true
  fetches := [⟨⟨"dlq", 0, offset⟩, "e1", failureText⟩]
  fetchEnd := .drained
  closesAccepted := true
  accepted := accepted.map (fun value => ⟨⟨"accepted", 0, 0⟩, "e1", value⟩)
  scanEnd := .quiet
  cancelled := false
  delivers := true
  republish _ := .delivered
  mark _ := .succeeded
  commit _ := .succeeded
  mapOrder _ _ := true

theorem fetched {w : World} {offset : Nat} (accepted : List String)
    (h : w.offsets "dlq" 0 = offset) :
    FetchesFrom (fun _ => failureText) w (.runOnce (round offset accepted)) :=
  ⟨by simp [round], contiguous_singleton h⟩

/-- The world after the accepted event was replayed. -/
def replayed : World := start.runOnce jsonCodec true (round 0 [acceptedText])

theorem reach_replayed :
    (system jsonCodec true (fun _ _ => 0)).Reach (FetchesFrom (fun _ => failureText)) replayed :=
  .step (.init ⟨rfl, rfl, rfl, rfl, rfl, rfl, rfl⟩) (fetched [acceptedText] rfl) rfl

theorem replayed_offset : replayed.offsets "dlq" 0 = 1 := by decide +kernel

end Sample

/-- After one round the sample's dead letter is behind the committed offset. -/
theorem commit_barrier_sample :
    Settled jsonCodec true (fun _ => Sample.failureText) Sample.replayed ⟨"dlq", 0, 0⟩ :=
  commit_barrier Sample.reach_replayed _ ⟨Nat.le_refl 0, by
    rw [Sample.replayed_offset]
    exact Nat.one_pos⟩

end Replay

end AuditGovernance
