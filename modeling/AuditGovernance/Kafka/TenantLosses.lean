import AuditGovernance.Kafka.TenantReplay

/-! # Losses of tenant-aware replay

    A record whose original is nowhere in the accepted topic is a loss: it is
    marked without a tenant and counted. The check for an earlier loss reads
    the view by event id, which a tenant's mark of another record also sets,
    so such a record can be dropped without a trace.
-/

namespace AuditGovernance

namespace Replay

/-! ## Section 1: Rounds without faults -/

/-- Every call of the round works; a redelivery may still be rejected. -/
structure FaultFree {V : Type} (round : Round V) : Prop where
  closesDLQ : round.closesDLQ = true
  drained : round.fetchEnd = .drained
  closesAccepted : round.closesAccepted = true
  scan : round.scanEnd ≠ .failed
  republish : ∀ n, round.republish n ≠ .crashed
  mark : ∀ n, round.mark n = .succeeded
  commit : ∀ n, round.commit n = .succeeded

section FaultFree

variable {V : Type} {codec : Codec V} {round : Round V} {s : Session V}

theorem FaultFree.persist (h : FaultFree round) (mark : Mark) :
    (s.persist round mark).2 = .next := by
  unfold Session.persist
  rw [h.mark]

theorem FaultFree.markTenant (h : FaultFree round) {tenantID eventID : String}
    (ht : tenantID ≠ "") (he : eventID ≠ "") : (s.markTenant round tenantID eventID).2 = .next := by
  unfold Session.markTenant
  rw [if_neg (not_or.2 ⟨ht, he⟩)]
  exact h.persist _

theorem FaultFree.close (h : FaultFree round) {c : Candidate V} (ht : c.tenantID ≠ "")
    (he : c.eventID ≠ "") (close : Session V → Session V) :
    (match s.markTenant round c.tenantID c.eventID with
      | (s₁, .next) => (close s₁, Flow.next)
      | (s₁, flow) => (s₁, flow)).2 = .next := by
  rcases hp : s.markTenant round c.tenantID c.eventID with ⟨s₁, flow⟩
  have hnext := h.markTenant (s := s) ht he
  rw [hp] at hnext
  dsimp only at hnext
  subst hnext
  rfl

theorem FaultFree.closeTenantDeliveryFailure (h : FaultFree round) {c : Candidate V}
    (ht : c.tenantID ≠ "") (he : c.eventID ≠ "") (record : DlqRecord) (err : DeliveryFailure) :
    (s.closeTenantDeliveryFailure round record c err).2 = .next := by
  unfold Session.closeTenantDeliveryFailure
  by_cases huncertain : err.uncertain = true
  · rw [if_pos huncertain]
  rw [if_neg huncertain]
  by_cases hretry : (!oneShot record) = true ∧ (!err.permanent) = true
  · rw [if_pos hretry]
  rw [if_neg hretry]
  exact h.close ht he (fun s₁ =>
    { (s₁.resolve [record.id]).count (fun n => { n with permanent := n.permanent + 1 }) with
      replayed := s₁.replayed + if oneShot record then 0 else 1 })

theorem FaultFree.withCandidate (h : FaultFree round) {c : Candidate V} (ht : c.tenantID ≠ "")
    (he : c.eventID ≠ "") (record : DlqRecord) :
    (s.withCandidate round record c).2 = .next := by
  unfold Session.withCandidate
  by_cases hmarked : s.state.markedTenant c.tenantID c.eventID = true
  · rw [if_pos hmarked]
  rw [if_neg hmarked]
  by_cases hdelivers : (!round.delivers) = true
  · rw [if_pos hdelivers]
  rw [if_neg hdelivers]
  have hsent := h.republish s.republishes
  unfold Session.deliver
  cases hout : round.republish s.republishes with
  | crashed => exact absurd hout hsent
  | rejected err =>
    dsimp only
    split_ifs
    · rfl
    · exact h.closeTenantDeliveryFailure ht he record err
  | delivered =>
    exact h.close ht he (fun s₂ =>
      { (s₂.resolve [record.id]).count (fun n => { n with replayed := n.replayed + 1 }) with
        replayed := s₂.replayed + 1 })

theorem FaultFree.withoutCandidate (h : FaultFree round) (found : List String)
    (record : DlqRecord) : (s.withoutCandidate round found record).2 = .next := by
  unfold Session.withoutCandidate
  by_cases hfound : record.eventID ∈ found
  · rw [if_pos hfound]
  rw [if_neg hfound]
  by_cases hmarked : s.state.marked record.eventID = true
  · rw [if_pos hmarked]
  rw [if_neg hmarked]
  dsimp only
  generalize ({ s with
    events := s.events ++ [ScanEvent.unresolvable record.id record.eventID] } : Session V) = lost
  rcases hp : lost.persist round (.unscoped record.eventID) with ⟨s₁, flow⟩
  have hnext := h.persist (s := lost) (.unscoped record.eventID)
  rw [hp] at hnext
  dsimp only at hnext
  subst hnext
  rfl

theorem FaultFree.tenantRecords (h : FaultFree round) (wanted : List DlqRecord)
    {candidates : List (Candidate V)} (found : List String)
    (hc : ∀ c ∈ candidates, c.tenantID ≠ "" ∧ c.eventID ≠ "") (records : List DlqRecord) :
    (s.tenantRecords round wanted candidates found records).2 = .next := by
  induction records generalizing s with
  | nil => rfl
  | cons record rest ih =>
    have hone : (s.tenantRecord round wanted candidates found record).2 = .next := by
      unfold Session.tenantRecord
      by_cases hnone : candidatesOf candidates record.eventID = []
      · rw [if_pos hnone]
        exact h.withoutCandidate found record
      rw [if_neg hnone]
      cases hcand : tenantCandidateForRecord wanted s.state candidates record with
      | none => rfl
      | some c =>
        have hmem : c ∈ candidatesOf candidates record.eventID := by
          rw [(candidate_of_record hcand).1]
          simp
        obtain ⟨ht, he⟩ := hc c (mem_candidatesOf.1 hmem).1
        exact h.withCandidate ht he record
    unfold Session.tenantRecords
    rcases hr : s.tenantRecord round wanted candidates found record with ⟨s₁, flow⟩
    rw [hr] at hone
    dsimp only at hone
    subst hone
    exact ih

theorem FaultFree.commitRecords (h : FaultFree round) (calls : Nat) (offsets : Offsets)
    (ids : List RecordID) : (Replay.commitRecords round.commit calls offsets ids).2 = .next := by
  induction ids generalizing calls offsets with
  | nil => rfl
  | cons id rest ih =>
    unfold Replay.commitRecords
    rw [h.commit]
    exact ih _ _

theorem FaultFree.scanAcceptedTenantAware (h : FaultFree round) (wanted : List DlqRecord) :
    (s.scanAcceptedTenantAware codec round wanted).2 = .next := by
  unfold Session.scanAcceptedTenantAware
  cases hend : round.scanEnd with
  | quiet =>
    dsimp only
    have hnext := h.tenantRecords (s := s) wanted (collectTenantCandidates codec round wanted).2
      (fun c hc =>
        let ⟨ht, he, _⟩ := (scanned_accepted codec wanted round).carried c hc
        ⟨ht, he⟩) wanted
    rcases hl : s.tenantRecords round wanted (collectTenantCandidates codec round wanted).1
      (collectTenantCandidates codec round wanted).2 wanted with ⟨s₁, flow⟩
    rw [hl] at hnext
    dsimp only at hnext
    subst hnext
    rfl
  | deadline => rfl
  | failed => exact absurd hend h.scan
  | cancelled => rfl

theorem FaultFree.runOnce (h : FaultFree round) (w : World) :
    w.runOnce codec true round =
      (w.begin.scanned (w.attempt codec true round)).commit round
        (w.begin.collect codec true round).1 (w.attempt codec true round).resolved := by
  unfold World.runOnce World.attempt World.scans
  dsimp only
  rcases hcollect : w.begin.collect codec true round with ⟨collected, ended⟩
  dsimp only
  have hend : ¬ (ended = true ∧ round.fetchEnd = .failed) := by
    rw [h.drained]
    simp
  by_cases hnone : wantedEvents collected = []
  · simp only [h.closesDLQ, hend, hnone, Bool.not_true, Bool.false_eq_true, if_true, if_false,
      List.isEmpty_nil, Bool.and_false, Bool.false_and]
    rfl
  · have hsome : (wantedEvents collected).isEmpty = false := by
      simpa [List.isEmpty_eq_false_iff] using hnone
    simp only [h.closesDLQ, hend, hnone, hsome, h.closesAccepted, Bool.not_true, Bool.not_false,
      Bool.false_eq_true, if_true, if_false, decide_false, Bool.and_self]
    have hnext : (w.begin.scan codec true round (wantedEvents collected)).2 = .next :=
      h.scanAcceptedTenantAware _
    rcases hscan : w.begin.scan codec true round (wantedEvents collected) with ⟨s, flow⟩
    rw [hscan] at hnext
    dsimp only at hnext
    subst hnext
    rfl

theorem FaultFree.commitResolved (h : FaultFree round) (w : World) (collected : List DlqRecord)
    (resolved : List RecordID) :
    (w.commit round collected resolved).state = w.state ∧
      (w.commit round collected resolved).file = w.file ∧
      (w.commit round collected resolved).metrics = w.metrics ∧
      (w.commit round collected resolved).resolved = w.resolved ++ resolved := by
  unfold World.commit
  dsimp only
  have hnext : (Replay.commitResolved round.commit w.offsets collected resolved).2 = .next :=
    h.commitRecords _ _ _
  rcases hc : Replay.commitResolved round.commit w.offsets collected resolved with ⟨offsets, flow⟩
  rw [hc] at hnext
  dsimp only at hnext
  subst hnext
  exact ⟨rfl, rfl, rfl, rfl⟩

end FaultFree

/-! ## Section 2: Marks and losses of a scan -/

section Losses

variable {V : Type} {faulty : Prop} {candidates : List (Candidate V)} {found : List String}
  {record : DlqRecord} {records : List DlqRecord} {v v' : View V}

theorem State.marked_add {state : State} {mark : Mark} {eventID : String} :
    (state.add mark).marked eventID = true ↔ mark.eventID = eventID ∨ state.marked eventID = true := by
  cases mark with
  | unscoped e =>
    simp only [State.marked, State.add, Mark.eventID, List.mem_cons, decide_eq_true_eq]
    exact or_congr_left eq_comm
  | tenantScoped t e =>
    simp only [State.marked, State.add, Mark.eventID, List.mem_cons, decide_eq_true_eq]
    exact or_congr_left eq_comm

/-- Marks stay, in memory and in the file, and so do resolved records. -/
structure Grown (v v' : View V) : Prop where
  marked : ∀ eventID, v.state.marked eventID = true → v'.state.marked eventID = true
  file : ∀ m ∈ v.file, m ∈ v'.file
  resolved : ∀ id ∈ v.resolved, id ∈ v'.resolved
  lost : v.lost ≤ v'.lost

theorem Grown.refl (v : View V) : Grown v v :=
  ⟨fun _ h => h, fun _ h => h, fun _ h => h, Nat.le_refl _⟩

theorem Grown.trans {v'' : View V} (h : Grown v v') (h' : Grown v' v'') : Grown v v'' :=
  ⟨fun e he => h'.marked e (h.marked e he), fun m hm => h'.file m (h.file m hm),
    fun id hid => h'.resolved id (h.resolved id hid), h.lost.trans h'.lost⟩

theorem grown_persisted (mark : Mark) : Grown v (v.persisted mark) :=
  ⟨fun _ he => State.marked_add.2 (.inr he), fun _ hm => List.mem_append_left _ hm,
    fun _ hid => hid, Nat.le_refl _⟩

theorem grown_resolve (id : RecordID) : Grown v (v.resolve id) :=
  ⟨fun _ h => h, fun _ h => h, fun _ hid => List.mem_append_left _ hid, Nat.le_refl _⟩

theorem grown_marking {mark : Mark} (h : Marking faulty mark v v') : Grown v v' := by
  cases h with
  | failed => exact .refl v
  | torn => exact ⟨fun _ h => h, fun _ hm => List.mem_append_left _ hm, fun _ h => h, Nat.le_refl _⟩

theorem grown_trace (event : ScanEvent V) : Grown v (v.trace event) :=
  ⟨fun _ h => h, fun _ h => h, fun _ h => h, Nat.le_refl _⟩

theorem grown_lose : Grown v v.lose :=
  ⟨fun _ h => h, fun _ h => h, fun _ h => h, Nat.le_succ _⟩

theorem Effect.grown (h : Effect faulty candidates found record v v') : Grown v v' := by
  cases h with
  | pending => exact .refl v
  | knownLoss => exact grown_resolve _
  | loss =>
    exact (((grown_trace _).trans (grown_persisted _)).trans (grown_resolve _)).trans grown_lose
  | lossFailed _ _ _ hmark => exact (grown_trace _).trans (grown_marking hmark)
  | known => exact grown_resolve _
  | closed => exact ((grown_trace _).trans (grown_persisted _)).trans (grown_resolve _)
  | sent _ _ hmark => exact (grown_trace _).trans (grown_marking hmark)

theorem Effects.grown (h : Effects faulty candidates found records v v') : Grown v v' := by
  induction h with
  | nil v => exact .refl v
  | cons hone _ ih => exact hone.grown.trans ih

/-- What a scan that began in `v₀` knows of an event id without a candidate. -/
structure LossView (candidates : List (Candidate V)) (found : List String)
    (records : List DlqRecord) (v₀ v : View V) : Prop where
  grown : Grown v₀ v
  /-- A new mark is a counted loss. -/
  counted : ∀ e, candidatesOf candidates e = [] → v.state.marked e = true →
    v₀.state.marked e = true ∨ (Mark.unscoped e ∈ v.file ∧ v₀.lost < v.lost)
  /-- A mark that was there keeps the loss from being recorded. -/
  unrecorded : ∀ e, candidatesOf candidates e = [] → v₀.state.marked e = true →
    Mark.unscoped e ∈ v.file → Mark.unscoped e ∈ v₀.file
  /-- Records are resolved by a mark. -/
  resolved : ∀ r ∈ records, r.id ∈ v.resolved → candidatesOf candidates r.eventID = [] →
    r.id ∈ v₀.resolved ∨ (v.state.marked r.eventID = true ∧ r.eventID ∉ found)

theorem LossView.refl (v : View V) : LossView candidates found records v v :=
  ⟨.refl v, fun _ _ h => .inl h, fun _ _ _ h => h, fun _ _ h _ => .inl h⟩

theorem LossView.trans {v'' : View V} (h : LossView candidates found records v v')
    (h' : LossView candidates found records v' v'') : LossView candidates found records v v'' := by
  refine ⟨h.grown.trans h'.grown, ?_, ?_, ?_⟩
  · intro e hnone hmarked
    rcases h'.counted e hnone hmarked with hbefore | ⟨hfile, hlost⟩
    · rcases h.counted e hnone hbefore with hfirst | ⟨hfile, hlost⟩
      · exact .inl hfirst
      · exact .inr ⟨h'.grown.file _ hfile, lt_of_lt_of_le hlost h'.grown.lost⟩
    · exact .inr ⟨hfile, lt_of_le_of_lt h.grown.lost hlost⟩
  · intro e hnone hmarked hfile
    exact h.unrecorded e hnone hmarked (h'.unrecorded e hnone (h.grown.marked e hmarked) hfile)
  · intro r hr hid hnone
    rcases h'.resolved r hr hid hnone with hbefore | hnow
    · rcases h.resolved r hr hbefore hnone with hfirst | ⟨hmarked, hfound⟩
      · exact .inl hfirst
      · exact .inr ⟨h'.grown.marked _ hmarked, hfound⟩
    · exact .inr hnow

theorem lossView_of_file {mark : Mark} (hstate : v'.state = v.state) (hlost : v'.lost = v.lost)
    (hresolved : v'.resolved = v.resolved) (hfile : v'.file = v.file ∨ v'.file = v.file ++ [mark])
    (hmark : ∀ e, mark = .unscoped e → candidatesOf candidates e = [] →
      v.state.marked e = false) : LossView candidates found records v v' := by
  have hgrown : Grown v v' := by
    refine ⟨fun e he => by rw [hstate]; exact he, fun m hm => ?_, fun id hid => by
      rw [hresolved]; exact hid, hlost.ge⟩
    rcases hfile with heq | heq
    · rw [heq]
      exact hm
    · rw [heq]
      exact List.mem_append_left _ hm
  refine ⟨hgrown, fun e _ he => .inl (by rwa [hstate] at he), ?_, fun r _ hid _ => .inl (by
    rwa [hresolved] at hid)⟩
  intro e hnone hmarked hmem
  rcases hfile with heq | heq
  · rwa [heq] at hmem
  · rw [heq] at hmem
    rcases List.mem_append.1 hmem with hold | hlast
    · exact hold
    · have hfalse := hmark e (List.mem_singleton.1 hlast).symm hnone
      rw [hmarked] at hfalse
      cases hfalse

theorem lossView_resolve (hd : DistinctIDs records) (hr : record ∈ records)
    (h : candidatesOf candidates record.eventID = [] →
      v.state.marked record.eventID = true ∧ record.eventID ∉ found) :
    LossView candidates found records v (v.resolve record.id) := by
  refine ⟨grown_resolve _, fun _ _ he => .inl he, fun _ _ _ he => he, ?_⟩
  intro r hr' hid hnone
  rcases List.mem_append.1 hid with hold | hlast
  · exact .inl hold
  · cases hd r hr' record hr (List.mem_singleton.1 hlast)
    exact .inr (h hnone)

theorem lossView_marking {mark : Mark} (h : Marking faulty mark v v')
    (hmark : ∀ e, mark = .unscoped e → candidatesOf candidates e = [] →
      v.state.marked e = false) : LossView candidates found records v v' := by
  cases h with
  | failed => exact .refl v
  | torn => exact lossView_of_file rfl rfl rfl (.inr rfl) hmark

theorem lossView_trace (event : ScanEvent V) :
    LossView candidates found records v (v.trace event) :=
  ⟨grown_trace event, fun _ _ h => .inl h, fun _ _ _ h => h, fun _ _ h _ => .inl h⟩

theorem lossView_scoped {tenantID eventID : String} (h : candidatesOf candidates eventID ≠ []) :
    LossView candidates found records v (v.persisted (.tenantScoped tenantID eventID)) := by
  refine ⟨grown_persisted _, ?_, ?_, fun _ _ hid _ => .inl hid⟩
  · intro e hnone hmarked
    rcases State.marked_add.1 hmarked with heq | hold
    · rw [← heq] at hnone
      exact absurd hnone h
    · exact .inl hold
  · intro e _ _ hmem
    rcases List.mem_append.1 hmem with hold | hlast
    · exact hold
    · cases List.mem_singleton.1 hlast

theorem lossView_loss {eventID : String} (hmarked : v.state.marked eventID = false) :
    LossView candidates found records v (v.persisted (.unscoped eventID)).lose := by
  refine ⟨(grown_persisted _).trans grown_lose, ?_, ?_, fun _ _ hid _ => .inl hid⟩
  · intro e _ hmarked'
    rcases State.marked_add.1 hmarked' with heq | hold
    · have heq' : eventID = e := heq
      subst heq'
      exact .inr ⟨List.mem_append_right _ (by simp), Nat.lt_succ_self _⟩
    · exact .inl hold
  · intro e _ hbefore hmem
    rcases List.mem_append.1 hmem with hold | hlast
    · exact hold
    · cases List.mem_singleton.1 hlast
      rw [hbefore] at hmarked
      cases hmarked

theorem Effect.lossView (hd : DistinctIDs records) (hr : record ∈ records)
    (h : Effect faulty candidates found record v v') : LossView candidates found records v v' := by
  -- a candidate of the record has its event id
  have hsome : ∀ c, candidatesOf candidates record.eventID = [c] →
      candidatesOf candidates c.eventID ≠ [] ∧
        (candidatesOf candidates record.eventID = [] →
          ∀ P : Prop, P) := by
    intro c hone
    have hmem : c ∈ candidatesOf candidates record.eventID := by
      rw [hone]
      simp
    rw [(mem_candidatesOf.1 hmem).2, hone]
    exact ⟨by simp, fun hnil => by cases hnil⟩
  cases h with
  | pending => exact .refl v
  | knownLoss _ hfound hmarked => exact lossView_resolve hd hr (fun _ => ⟨hmarked, hfound⟩)
  | loss _ hfound hmarked =>
    show LossView candidates found records v
      (((v.trace (.unresolvable record.id record.eventID)).persisted
        (.unscoped record.eventID)).lose.resolve record.id)
    exact ((lossView_trace _).trans (lossView_loss hmarked)).trans (lossView_resolve hd hr
      (fun _ => ⟨State.marked_add.2 (.inl rfl), hfound⟩))
  | lossFailed _ _ hmarked hmark =>
    refine (lossView_trace _).trans (lossView_marking hmark ?_)
    intro e heq _
    cases heq
    exact hmarked
  | known hone =>
    exact lossView_resolve hd hr (fun hnil => (hsome _ hone).2 hnil _)
  | closed hone =>
    exact ((lossView_trace _).trans (lossView_scoped (hsome _ hone).1)).trans
      (lossView_resolve hd hr (fun hnil => (hsome _ hone).2 hnil _))
  | sent hone _ hmark =>
    refine (lossView_trace _).trans (lossView_marking hmark ?_)
    intro e heq _
    cases heq

theorem Effects.lossView (hd : DistinctIDs records) {done : List DlqRecord}
    (hsub : ∀ r ∈ done, r ∈ records) (h : Effects faulty candidates found done v v') :
    LossView candidates found records v v' := by
  induction h with
  | nil v => exact .refl v
  | cons hone _ ih =>
    exact (hone.lossView hd (hsub _ (by simp))).trans
      (ih (fun r hr => hsub r (List.mem_cons_of_mem _ hr)))

theorem Effects.resolved_from {id : RecordID} {w : World}
    (h : Effects faulty candidates found records (w.session : Session V).view v')
    (hid : id ∈ v'.resolved) : ∃ r ∈ records, r.id = id := by
  have hinv := h.invariant (P := fun v => id ∈ v.resolved → ∃ r ∈ records, r.id = id) ?_ ?_
  · exact hinv hid
  · intro record hr v v' hv he hin
    have hresolve : id ∈ v.resolved ++ [record.id] → ∃ r ∈ records, r.id = id := by
      intro hmem
      rcases List.mem_append.1 hmem with hold | hlast
      · exact hv hold
      · exact ⟨record, hr, (List.mem_singleton.1 hlast).symm⟩
    cases he with
    | pending => exact hv hin
    | knownLoss => exact hresolve hin
    | loss => exact hresolve hin
    | lossFailed _ _ _ hmark => cases hmark <;> exact hv hin
    | known => exact hresolve hin
    | closed => exact hresolve hin
    | sent _ _ hmark => cases hmark <;> exact hv hin
  · intro hin
    cases hin

theorem Effects.resolves (h : Effects faulty candidates found records v v') {r : DlqRecord}
    (hr : r ∈ records) (hnone : candidatesOf candidates r.eventID = [])
    (hfound : r.eventID ∉ found) (hmarked : v.state.marked r.eventID = true) :
    r.id ∈ v'.resolved := by
  induction h with
  | nil v => cases hr
  | @cons record rest v v₁ v₂ hone hrest ih =>
    rcases List.mem_cons.1 hr with rfl | hr
    · apply hrest.grown.resolved
      cases hone with
      | pending hwait =>
        rcases hwait with hsome | hin
        · exact absurd hnone hsome
        · exact absurd hin hfound
      | knownLoss => exact List.mem_append_right _ (by simp)
      | loss _ _ hunmarked => simp [hmarked] at hunmarked
      | lossFailed _ _ hunmarked => simp [hmarked] at hunmarked
      | known => exact List.mem_append_right _ (by simp)
      | closed => exact List.mem_append_right _ (by simp)
      | sent hcand => simp [hnone] at hcand
    · exact ih hr (hone.grown.marked _ hmarked)

end Losses

/-! ## Section 3: Runs without faults -/

section Runs

variable {V : Type} {codec : Codec V} {content : RecordID → V} {first : Offsets} {w : World}
  {round : Round V}

/-- Runs of rounds without faults. -/
def FaultFreeFrom (content : RecordID → V) (w : World) : Action V → Prop
  | .runOnce round => FaultFree round ∧ Fetched content w.offsets round.fetches
  | .restart => True

/-- No accepted message carries the event for a tenant. -/
def NoCandidate (codec : Codec V) (round : Round V) (eventID : String) : Prop :=
  ∀ m ∈ round.accepted, ∀ tenantID, Carries codec m tenantID eventID → tenantID = ""

/-- A record that the round newly counts as resolved, though its scan has no
    candidate for it, is a loss that was recorded before, or that the round
    records and counts. -/
def RecordsLosses (codec : Codec V) (w : World) (round : Round V) : Prop :=
  ∀ m ∈ round.fetches, ∀ failure, codec.decodeStrictFailure m.value = .ok failure →
    m.id ∉ w.resolved → m.id ∈ (w.runOnce codec true round).resolved →
    NoCandidate codec round failure.eventID →
      Mark.unscoped failure.eventID ∈ w.file ∨
        (Mark.unscoped failure.eventID ∈ (w.runOnce codec true round).file ∧
          w.metrics.unresolvable < (w.runOnce codec true round).metrics.unresolvable)

/-- If the round takes up a record that is not yet resolved and of whose event
    the accepted topic, read to its end, has no trace, then a tenant's mark of
    that event in the file does not stand there alone. -/
def NoForeignMark (codec : Codec V) (w : World) (round : Round V) : Prop :=
  round.scanEnd = .quiet →
    ∀ r ∈ wantedEvents (w.begin.collect codec true round).1, r.id ∉ w.resolved →
      (∀ m ∈ round.accepted, ¬ Mentions codec m r.eventID) →
        ∀ tenantID, Mark.tenantScoped tenantID r.eventID ∈ w.file →
          Mark.unscoped r.eventID ∈ w.file

/-- Memory and file agree on which event ids are marked. -/
def Exact (w : World) : Prop :=
  ∀ eventID, w.state.marked eventID = true ↔ ∃ m ∈ w.file, m.eventID = eventID

theorem exact_load (scope : String) (file : List Mark) (eventID : String) :
    (State.load scope file).marked eventID = true ↔ ∃ m ∈ file, m.eventID = eventID := by
  have hfold : ∀ (rest : List Mark) (state : State),
      (rest.foldl State.add state).marked eventID = true ↔
        (∃ m ∈ rest, m.eventID = eventID) ∨ state.marked eventID = true := by
    intro rest
    induction rest with
    | nil => simp
    | cons mark rest ih =>
      intro state
      rw [List.foldl_cons, ih, State.marked_add, List.exists_mem_cons_iff, or_assoc]
      exact or_left_comm
  rw [State.load, hfold]
  simp [State.marked]

theorem exact_persisted {v : View V} {mark : Mark} {eventID : String}
    (h : v.state.marked eventID = true ↔ ∃ m ∈ v.file, m.eventID = eventID) :
    (v.persisted mark).state.marked eventID = true ↔
      ∃ m ∈ (v.persisted mark).file, m.eventID = eventID := by
  simp only [View.persisted, State.marked_add, List.mem_append, List.mem_singleton, or_and_right,
    exists_or, exists_eq_left, h]
  exact or_comm

theorem Effect.exact {faulty : Prop} {candidates : List (Candidate V)} {found : List String}
    {record : DlqRecord} {v v' : View V} (hf : ¬ faulty)
    (h : Effect faulty candidates found record v v') {eventID : String}
    (hv : v.state.marked eventID = true ↔ ∃ m ∈ v.file, m.eventID = eventID) :
    v'.state.marked eventID = true ↔ ∃ m ∈ v'.file, m.eventID = eventID := by
  cases h with
  | pending => exact hv
  | knownLoss => exact hv
  | loss => exact exact_persisted (v := v.trace _) hv
  | lossFailed _ _ _ hmark =>
    cases hmark with
    | failed => exact hv
    | torn h => exact absurd h hf
  | known => exact hv
  | closed => exact exact_persisted (v := v.trace _) hv
  | sent _ _ hmark =>
    cases hmark with
    | failed => exact hv
    | torn h => exact absurd h hf

theorem FaultFree.effects (h : FaultFree round) {records : List DlqRecord}
    (hquiet : round.scanEnd = .quiet) (s : Session V) :
    Effects round.Faulty (collectTenantCandidates codec round records).1
      (collectTenantCandidates codec round records).2 records s.view
      (s.scanAcceptedTenantAware codec round records).1.view := by
  obtain ⟨done, rest, heq, heffects, hall⟩ := s.tenantRecords_effects round records
    (collectTenantCandidates codec round records).1 (collectTenantCandidates codec round records).2
    records
  have hnext := h.tenantRecords (s := s) records (collectTenantCandidates codec round records).2
    (fun c hc =>
      let ⟨ht, he, _⟩ := (scanned_accepted codec records round).carried c hc
      ⟨ht, he⟩) records
  rw [hall hnext, List.append_nil] at heq
  rw [← heq] at heffects
  unfold Session.scanAcceptedTenantAware
  rw [hquiet]
  dsimp only
  rcases hl : s.tenantRecords round records (collectTenantCandidates codec round records).1
    (collectTenantCandidates codec round records).2 records with ⟨s₁, flow⟩
  rw [hl] at hnext heffects
  dsimp only at hnext
  subst hnext
  exact heffects

theorem FaultFree.not_faulty (h : FaultFree round) : ¬ round.Faulty :=
  fun ⟨n, hn⟩ => hn (h.mark n)

theorem scanAcceptedTenantAware_view {s : Session V} {records : List DlqRecord}
    (h : round.scanEnd ≠ .quiet) :
    (s.scanAcceptedTenantAware codec round records).1.view = s.view := by
  unfold Session.scanAcceptedTenantAware
  cases hend : round.scanEnd with
  | quiet => exact absurd hend h
  | deadline => rfl
  | failed => rfl
  | cancelled => rfl

/-- A drained round works off its records. -/
theorem FaultFree.attempt_effects (h : FaultFree round) (codec : Codec V) (w : World)
    (hquiet : round.scanEnd = .quiet) :
    Effects round.Faulty
      (collectTenantCandidates codec round (wantedEvents (w.begin.collect codec true round).1)).1
      (collectTenantCandidates codec round (wantedEvents (w.begin.collect codec true round).1)).2
      (wantedEvents (w.begin.collect codec true round).1)
      (w.begin.session : Session V).view (w.attempt codec true round).view := by
  unfold World.attempt
  by_cases hscans : w.scans codec true round = true
  · rw [if_pos hscans]
    exact h.effects hquiet _
  · rw [if_neg hscans]
    have hnone : wantedEvents (w.begin.collect codec true round).1 = [] := by
      by_contra hsome
      apply hscans
      simp [World.scans, h.closesDLQ, h.drained, h.closesAccepted, hsome]
    rw [hnone]
    exact .nil _

theorem attempt_idle (w : World) (h : round.scanEnd ≠ .quiet) :
    (w.attempt codec true round).view = (w.begin.session : Session V).view := by
  unfold World.attempt
  split_ifs
  · exact scanAcceptedTenantAware_view h
  · rfl

theorem FaultFree.runOnce_view (h : FaultFree round) (codec : Codec V) (w : World) :
    (w.runOnce codec true round).state = (w.attempt codec true round).view.state ∧
      (w.runOnce codec true round).file = (w.attempt codec true round).view.file ∧
      (w.runOnce codec true round).metrics.unresolvable =
        (w.attempt codec true round).view.lost ∧
      (w.runOnce codec true round).resolved =
        w.resolved ++ (w.attempt codec true round).view.resolved := by
  rw [h.runOnce w]
  obtain ⟨hstate, hfile, hmetrics, hresolved⟩ := h.commitResolved
    (w.begin.scanned (w.attempt codec true round)) (w.begin.collect codec true round).1
    (w.attempt codec true round).resolved
  refine ⟨hstate, hfile, ?_, hresolved⟩
  rw [hmetrics]
  rfl

theorem exact_of_reach (h : (system codec true first).Reach (FaultFreeFrom content) w) :
    Exact w := by
  refine h.invariant ?_ ?_
  · rintro w ⟨-, hstate, -, -, -, -, -⟩ eventID
    rw [hstate]
    exact exact_load _ _ eventID
  · intro w a w' _ hw hguard hstep
    cases a with
    | runOnce round =>
      cases hstep
      intro eventID
      obtain ⟨hstate, hfile, -, -⟩ := hguard.1.runOnce_view codec w
      rw [hstate, hfile]
      by_cases hquiet : round.scanEnd = .quiet
      · refine (hguard.1.attempt_effects codec w hquiet).invariant
          (P := fun v => v.state.marked eventID = true ↔ ∃ m ∈ v.file, m.eventID = eventID) ?_ ?_
        · intro record _ v v' hv he
          exact he.exact hguard.1.not_faulty hv
        · exact hw eventID
      · rw [attempt_idle w hquiet]
        exact hw eventID
    | restart =>
      cases hstep
      exact exact_load _ _

theorem Fetched.distinct (codec : Codec V) (w : World) {offsets : Offsets}
    (h : Fetched content offsets round.fetches) :
    (∀ m ∈ round.fetches, ∀ m' ∈ round.fetches, m.id = m'.id → m = m') ∧
      DistinctIDs (wantedEvents (w.collect codec true round).1) := by
  have hnodup := h.contiguous.nodup
  refine ⟨fun m hm m' hm' heq => List.inj_on_of_nodup_map hnodup hm hm' heq, ?_⟩
  obtain ⟨front, hfront, hcollected⟩ := collectFailures_eq codec
    (failureWanted true w.state) round.replayAuthBlocked 0 0 0 round.fetches
  have hids : ((w.collect codec true round).1.map DlqRecord.id).Nodup := by
    unfold World.collect
    rw [hcollected, List.map_map]
    have hsame : front.map (DlqRecord.id ∘ recordOf codec (failureWanted true w.state)
        round.replayAuthBlocked) = front.map Message.id :=
      List.map_congr_left (fun m _ => recordOf_id _ _ m)
    rw [hsame]
    exact hnodup.sublist (hfront.sublist.map _)
  intro r hr r' hr' heq
  exact distinctIDs_of_nodup hids r (mem_wantedEvents.1 hr).1 r' (mem_wantedEvents.1 hr').1 heq

theorem Carries.mentions {m : Message V} {tenantID eventID : String}
    (h : Carries codec m tenantID eventID) : Mentions codec m eventID := by
  unfold Mentions Codec.payloadID
  rw [h]
  exact .inr rfl

theorem byEventID_ne_nil {records : List DlqRecord} {r : DlqRecord} (hr : r ∈ records) :
    byEventID records r.eventID ≠ [] := by
  intro hnil
  have hmem : r.id ∈ byEventID records r.eventID :=
    List.mem_map_of_mem (List.mem_filter.2 ⟨hr, by simp⟩)
  rw [hnil] at hmem
  cases hmem

theorem FaultFree.resolves (hf : FaultFree round) (hexact : Exact w)
    (hquiet : round.scanEnd = .quiet) {r : DlqRecord}
    (hr : r ∈ wantedEvents (w.begin.collect codec true round).1)
    (hgone : ∀ m ∈ round.accepted, ¬ Mentions codec m r.eventID)
    (hmark : ∃ mark ∈ w.file, mark.eventID = r.eventID)
    (hd : DistinctIDs (wantedEvents (w.begin.collect codec true round).1)) :
    r.id ∈ (w.attempt codec true round).view.resolved ∧
      (Mark.unscoped r.eventID ∈ (w.attempt codec true round).view.file →
        Mark.unscoped r.eventID ∈ w.file) := by
  have hs := scanned_accepted codec (wantedEvents (w.begin.collect codec true round).1) round
  have heffects := hf.attempt_effects codec w hquiet
  have hnone : candidatesOf (collectTenantCandidates codec round
      (wantedEvents (w.begin.collect codec true round).1)).1 r.eventID = [] := by
    rw [List.eq_nil_iff_forall_not_mem]
    intro c hc
    obtain ⟨hmem, hevent⟩ := mem_candidatesOf.1 hc
    obtain ⟨-, -, m, hm, -, hcarries⟩ := hs.carried c hmem
    rw [hevent] at hcarries
    exact hgone m hm hcarries.mentions
  have hfound : r.eventID ∉ (collectTenantCandidates codec round
      (wantedEvents (w.begin.collect codec true round).1)).2 := by
    intro hin
    obtain ⟨m, hm, hmentions⟩ := hs.found _ hin
    exact hgone m hm hmentions
  have hmarked : w.state.marked r.eventID = true := (hexact r.eventID).2 hmark
  refine ⟨heffects.resolves hr hnone hfound hmarked, ?_⟩
  exact (heffects.lossView hd (fun _ h => h)).unrecorded r.eventID hnone hmarked

theorem FaultFree.resolved_by (hf : FaultFree round) (hquiet : round.scanEnd = .quiet)
    {r : DlqRecord} (hr : r ∈ wantedEvents (w.begin.collect codec true round).1)
    (hd : DistinctIDs (wantedEvents (w.begin.collect codec true round).1))
    (hnocand : NoCandidate codec round r.eventID)
    (hres : r.id ∈ (w.attempt codec true round).view.resolved) :
    (∀ m ∈ round.accepted, ¬ Mentions codec m r.eventID) ∧
      (w.state.marked r.eventID = true ∨
        (Mark.unscoped r.eventID ∈ (w.attempt codec true round).view.file ∧
          w.metrics.unresolvable < (w.attempt codec true round).view.lost)) := by
  have hs := scanned_accepted codec (wantedEvents (w.begin.collect codec true round).1) round
  have hloss := (hf.attempt_effects codec w hquiet).lossView hd (fun _ h => h)
  have hnone : candidatesOf (collectTenantCandidates codec round
      (wantedEvents (w.begin.collect codec true round).1)).1 r.eventID = [] := by
    rw [List.eq_nil_iff_forall_not_mem]
    intro c hc
    obtain ⟨hmem, hevent⟩ := mem_candidatesOf.1 hc
    obtain ⟨ht, -, m, hm, -, hcarries⟩ := hs.carried c hmem
    rw [hevent] at hcarries
    exact ht (hnocand m hm _ hcarries)
  rcases hloss.resolved r hr hres hnone with hbefore | ⟨hmarked, hfound⟩
  · cases hbefore
  refine ⟨fun m hm hmentions => hfound ?_, hloss.counted r.eventID hnone hmarked⟩
  obtain ⟨m', -, failure, hdecode, -, hevent⟩ := wanted_valid hr
  have hid : r.eventID ≠ "" := by
    rw [hevent]
    exact codec.eventID_nonempty hdecode
  exact hs.mentioned m hm r.eventID hmentions hid (byEventID_ne_nil hr)

/-- **Losses.** From every state of a run without faults: a further round drops
    no record silently exactly if none of the records it takes up has lost its
    original and finds only another record's mark. -/
theorem records_losses_iff (h : (system codec true first).Reach (FaultFreeFrom content) w)
    (hf : FaultFree round) (hfetched : Fetched content w.offsets round.fetches) :
    RecordsLosses codec w round ↔ NoForeignMark codec w round := by
  have hexact := exact_of_reach h
  obtain ⟨hsame, hd⟩ := hfetched.distinct codec w.begin
  obtain ⟨-, hfile, hlost, hresolved⟩ := hf.runOnce_view codec w
  constructor
  · intro hlosses hquiet r hr hnew hgone tenantID hscoped
    obtain ⟨m, hm, failure, hdecode, hid, hevent⟩ := wanted_valid hr
    obtain ⟨hres, hunrecorded⟩ := hf.resolves hexact hquiet hr hgone ⟨_, hscoped, rfl⟩ hd
    have hnow : m.id ∈ (w.runOnce codec true round).resolved := by
      rw [hresolved, ← hid]
      exact List.mem_append_right _ hres
    have hnocand : NoCandidate codec round failure.eventID := by
      intro m' hm' t hcarries
      rw [← hevent] at hcarries
      exact absurd hcarries.mentions (hgone m' hm')
    rw [hid] at hnew
    rw [hevent] at hunrecorded ⊢
    rcases hlosses m hm failure hdecode hnew hnow hnocand with hbefore | ⟨hrecorded, -⟩
    · exact hbefore
    · rw [hfile] at hrecorded
      exact hunrecorded hrecorded
  · intro hforeign m hm failure hdecode hnew hnow hnocand
    have hres : m.id ∈ (w.attempt codec true round).view.resolved := by
      rw [hresolved] at hnow
      exact (List.mem_append.1 hnow).resolve_left hnew
    by_cases hquiet : round.scanEnd = .quiet
    · -- the record is one of the round's, and it is this message's
      obtain ⟨r, hr, hrid⟩ := (hf.attempt_effects codec w hquiet).resolved_from hres
      obtain ⟨m', hm', failure', hdecode', hid, hevent⟩ := wanted_valid hr
      cases hsame m' hm' m hm (hid.symm.trans hrid)
      rw [hdecode] at hdecode'
      cases hdecode'
      rw [← hevent] at hnocand ⊢
      rw [← hrid] at hnew hres
      obtain ⟨hgone, hmarked | ⟨hmark, hcounted⟩⟩ := hf.resolved_by hquiet hr hd hnocand hres
      · obtain ⟨mark, hmark, hmarkid⟩ := (hexact r.eventID).1 hmarked
        cases mark with
        | unscoped e =>
          cases hmarkid
          exact .inl hmark
        | tenantScoped t e =>
          cases hmarkid
          exact .inl (hforeign hquiet r hr hnew hgone t hmark)
      · rw [hfile, hlost]
        exact .inr ⟨hmark, hcounted⟩
    · rw [attempt_idle w hquiet] at hres
      cases hres

end Runs

namespace Sample

theorem faultFree (offset : Nat) (accepted : List String) : FaultFree (round offset accepted) :=
  ⟨rfl, rfl, rfl, by simp [round], fun _ => by simp [round], fun _ => rfl, fun _ => rfl⟩

theorem reach_start :
    (system jsonCodec true (fun _ _ => 0)).Reach (FaultFreeFrom (fun _ => failureText)) start :=
  .init ⟨rfl, rfl, rfl, rfl, rfl, rfl, rfl⟩

theorem reach_replayed_faultFree :
    (system jsonCodec true (fun _ _ => 0)).Reach (FaultFreeFrom (fun _ => failureText)) replayed :=
  .step (a := .runOnce (round 0 [acceptedText])) reach_start
    ⟨faultFree _ _, fetched [acceptedText] rfl⟩ rfl

end Sample

/-- The first dead letter of the sample is lost, and that is recorded. -/
theorem records_losses_sample :
    RecordsLosses jsonCodec Sample.start (Sample.round 0 []) :=
  (records_losses_iff Sample.reach_start (Sample.faultFree 0 []) (Sample.fetched [] rfl)).2
    (fun _ _ _ _ _ _ hmark => nomatch hmark)

/-- A second dead letter of an event that was replayed for some tenant, once the
    accepted topic has forgotten the event: the record is passed over with
    neither a loss mark nor a count. -/
theorem foreign_mark_drops_record :
    (system jsonCodec true (fun _ _ => 0)).Reach (FaultFreeFrom (fun _ => Sample.failureText))
        Sample.replayed ∧
      FaultFree (Sample.round 1 []) ∧
      Fetched (fun _ => Sample.failureText) Sample.replayed.offsets (Sample.round 1 []).fetches ∧
      ¬ RecordsLosses jsonCodec Sample.replayed (Sample.round 1 []) := by
  refine ⟨Sample.reach_replayed_faultFree, Sample.faultFree 1 [],
    Sample.fetched [] Sample.replayed_offset, fun hlosses => ?_⟩
  have hrecord := hlosses ⟨⟨"dlq", 0, 1⟩, "e1", Sample.failureText⟩ (by simp [Sample.round])
    ⟨"e1", "timeout", "", ""⟩ (by decide +kernel) (by decide +kernel) (by decide +kernel)
    (fun _ hm => nomatch hm)
  have hsilent : Mark.unscoped "e1" ∉ Sample.replayed.file ∧ Mark.unscoped "e1" ∉
      (Sample.replayed.runOnce jsonCodec true (Sample.round 1 [])).file := by
    constructor
    · decide +kernel
    · decide +kernel
  rcases hrecord with hbefore | ⟨hnow, -⟩
  · exact hsilent.1 hbefore
  · exact hsilent.2 hnow

end Replay

end AuditGovernance
