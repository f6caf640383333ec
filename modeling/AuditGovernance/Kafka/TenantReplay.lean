import AuditGovernance.Kafka.ReplayBarrier

/-! # Replay by tenant

    The tenant-aware scan decides in two phases: it first reads the whole
    accepted topic, and only then, record by record, replays what exactly one
    tenant carries. `Effect` says what one record can do; what a scan may
    republish, mark and declare lost is read off from it.
-/

namespace AuditGovernance

namespace Replay

/-! ## Section 1: The candidates of a scan -/

section Candidates

variable {V : Type} {codec : Codec V} {wanted : List DlqRecord}

/-- The accepted message carries the event for the tenant. -/
def Carries (codec : Codec V) (m : Message V) (tenantID eventID : String) : Prop :=
  codec.decodeCanonicalReplayEvent m.value = some ⟨eventID, tenantID⟩

/-- The event id occurs in the message, as its key or in its payload. -/
def Mentions (codec : Codec V) (m : Message V) (eventID : String) : Prop :=
  m.key = eventID ∨ codec.payloadID m.value = eventID

theorem mem_candidatesOf {candidates : List (Candidate V)} {eventID : String} {c : Candidate V} :
    c ∈ candidatesOf candidates eventID ↔ c ∈ candidates ∧ c.eventID = eventID := by
  simp [candidatesOf, List.mem_filter]

/-- What a scan of `messages` has found. -/
structure Scanned (codec : Codec V) (wanted : List DlqRecord) (messages : List (Message V))
    (found : List (Candidate V) × List String) : Prop where
  /-- Candidates come from messages. -/
  carried : ∀ c ∈ found.1, c.tenantID ≠ "" ∧ c.eventID ≠ "" ∧
    ∃ m ∈ messages, m.value = c.value ∧ Carries codec m c.tenantID c.eventID
  /-- A tenant that carries a wanted event is a candidate, or two others are. -/
  listed : ∀ m ∈ messages, ∀ tenantID eventID, Carries codec m tenantID eventID →
    tenantID ≠ "" → eventID ≠ "" → byEventID wanted eventID ≠ [] →
      (∃ c ∈ candidatesOf found.1 eventID, c.tenantID = tenantID) ∨
        2 ≤ (candidatesOf found.1 eventID).length
  /-- A wanted event that is mentioned is found. -/
  mentioned : ∀ m ∈ messages, ∀ eventID, Mentions codec m eventID → eventID ≠ "" →
    byEventID wanted eventID ≠ [] → eventID ∈ found.2
  /-- Only what is mentioned is found. -/
  found : ∀ eventID ∈ found.2, ∃ m ∈ messages, Mentions codec m eventID

theorem scanned_nil : Scanned codec wanted [] ([], []) :=
  ⟨by simp, by simp, by simp, by simp⟩

theorem addTenantCandidate_sublist (candidates : List (Candidate V)) (c : Candidate V) :
    candidates.Sublist (addTenantCandidate candidates c) := by
  unfold addTenantCandidate
  dsimp only
  split_ifs
  · exact List.Sublist.refl _
  · exact List.sublist_append_left _ _
  · exact List.Sublist.refl _

theorem mem_addTenantCandidate {candidates : List (Candidate V)} {c c' : Candidate V}
    (h : c' ∈ addTenantCandidate candidates c) : c' ∈ candidates ∨ c' = c := by
  unfold addTenantCandidate at h
  dsimp only at h
  split_ifs at h
  · exact .inl h
  · rcases List.mem_append.1 h with h | h
    · exact .inl h
    · exact .inr (List.mem_singleton.1 h)
  · exact .inl h

theorem addTenantCandidate_listed (candidates : List (Candidate V)) (c : Candidate V) :
    (∃ c' ∈ candidatesOf (addTenantCandidate candidates c) c.eventID, c'.tenantID = c.tenantID) ∨
      2 ≤ (candidatesOf (addTenantCandidate candidates c) c.eventID).length := by
  unfold addTenantCandidate
  dsimp only
  split_ifs with hany hfew
  · obtain ⟨c', hmem, hsame⟩ := List.any_eq_true.1 hany
    exact .inl ⟨c', hmem, of_decide_eq_true hsame⟩
  · exact .inl ⟨c, mem_candidatesOf.2 ⟨by simp, rfl⟩, rfl⟩
  · exact .inr (by omega)

section Message

variable (found : List (Candidate V) × List String) (m : Message V)

theorem collectTenantMessage_sublist :
    found.1.Sublist (collectTenantMessage codec wanted found m).1 := by
  unfold collectTenantMessage
  cases codec.decodeCanonicalReplayEvent m.value with
  | none => exact List.Sublist.refl _
  | some event =>
    dsimp only
    split_ifs
    all_goals first
      | exact List.Sublist.refl _
      | exact addTenantCandidate_sublist _ _

theorem collectTenantMessage_found {eventID : String} (h : eventID ∈ found.2) :
    eventID ∈ (collectTenantMessage codec wanted found m).2 := by
  unfold collectTenantMessage
  cases codec.decodeCanonicalReplayEvent m.value with
  | none =>
    dsimp only
    split_ifs <;> simp [h]
  | some event =>
    dsimp only
    split_ifs <;> simp [h]

theorem collectTenantMessage_carried {c : Candidate V}
    (h : c ∈ (collectTenantMessage codec wanted found m).1) :
    c ∈ found.1 ∨ (c.tenantID ≠ "" ∧ c.eventID ≠ "" ∧ m.value = c.value ∧
      Carries codec m c.tenantID c.eventID) := by
  unfold collectTenantMessage at h
  cases hdecode : codec.decodeCanonicalReplayEvent m.value with
  | none =>
    rw [hdecode] at h
    exact .inl h
  | some event =>
    rw [hdecode] at h
    dsimp only at h
    by_cases hskip : event.eventID = "" ∨ byEventID wanted event.eventID = []
    · rw [if_pos hskip] at h
      exact .inl h
    rw [if_neg hskip] at h
    by_cases htenant : event.tenantID = ""
    · rw [if_pos htenant] at h
      exact .inl h
    rw [if_neg htenant] at h
    rcases mem_addTenantCandidate h with hold | hnew
    · exact .inl hold
    · subst hnew
      exact .inr ⟨htenant, fun he => hskip (.inl he), rfl, hdecode⟩

theorem collectTenantMessage_listed {tenantID eventID : String}
    (hcarries : Carries codec m tenantID eventID) (ht : tenantID ≠ "") (he : eventID ≠ "")
    (hw : byEventID wanted eventID ≠ []) :
    (∃ c ∈ candidatesOf (collectTenantMessage codec wanted found m).1 eventID,
        c.tenantID = tenantID) ∨
      2 ≤ (candidatesOf (collectTenantMessage codec wanted found m).1 eventID).length := by
  have hstep : (collectTenantMessage codec wanted found m).1 =
      addTenantCandidate found.1 ⟨tenantID, eventID, m.value⟩ := by
    unfold collectTenantMessage
    rw [hcarries]
    dsimp only
    rw [if_neg (not_or.2 ⟨he, hw⟩), if_neg ht]
  rw [hstep]
  exact addTenantCandidate_listed found.1 ⟨tenantID, eventID, m.value⟩

theorem collectTenantMessage_mentioned {eventID : String} (h : Mentions codec m eventID)
    (he : eventID ≠ "") (hw : byEventID wanted eventID ≠ []) :
    eventID ∈ (collectTenantMessage codec wanted found m).2 := by
  unfold collectTenantMessage
  rcases h with rfl | hpayload
  · cases codec.decodeCanonicalReplayEvent m.value with
    | none =>
      dsimp only
      rw [if_pos hw]
      split_ifs <;> simp
    | some event =>
      dsimp only
      rw [if_pos hw]
      split_ifs <;> simp
  · unfold Codec.payloadID at hpayload
    cases hdecode : codec.decodeCanonicalReplayEvent m.value with
    | none =>
      rw [hdecode] at hpayload
      subst hpayload
      dsimp only
      rw [if_pos hw]
      simp
    | some event =>
      rw [hdecode] at hpayload
      subst hpayload
      dsimp only
      rw [if_neg (not_or.2 ⟨he, hw⟩)]
      split_ifs <;> simp

theorem collectTenantMessage_mentions {eventID : String}
    (h : eventID ∈ (collectTenantMessage codec wanted found m).2) :
    eventID ∈ found.2 ∨ Mentions codec m eventID := by
  have hkey : eventID ∈ (if byEventID wanted m.key ≠ [] then m.key :: found.2 else found.2) →
      eventID ∈ found.2 ∨ Mentions codec m eventID := by
    intro hin
    split_ifs at hin
    · rcases List.mem_cons.1 hin with rfl | hold
      · exact .inr (.inl rfl)
      · exact .inl hold
    · exact .inl hin
  unfold collectTenantMessage at h
  cases hdecode : codec.decodeCanonicalReplayEvent m.value with
  | none =>
    have hpayload : codec.payloadID m.value = codec.eventIDFromValue m.value := by
      unfold Codec.payloadID
      rw [hdecode]
    rw [hdecode] at h
    dsimp only at h
    by_cases hwanted : byEventID wanted (codec.eventIDFromValue m.value) ≠ []
    · rw [if_pos hwanted] at h
      rcases List.mem_cons.1 h with rfl | hold
      · exact .inr (.inr hpayload)
      · exact hkey hold
    · rw [if_neg hwanted] at h
      exact hkey h
  | some event =>
    have hpayload : codec.payloadID m.value = event.eventID := by
      unfold Codec.payloadID
      rw [hdecode]
    have hcons : eventID ∈ event.eventID ::
        (if byEventID wanted m.key ≠ [] then m.key :: found.2 else found.2) →
        eventID ∈ found.2 ∨ Mentions codec m eventID := by
      intro hin
      rcases List.mem_cons.1 hin with rfl | hold
      · exact .inr (.inr hpayload)
      · exact hkey hold
    rw [hdecode] at h
    dsimp only at h
    by_cases hskip : event.eventID = "" ∨ byEventID wanted event.eventID = []
    · rw [if_pos hskip] at h
      exact hkey h
    rw [if_neg hskip] at h
    by_cases htenant : event.tenantID = ""
    · rw [if_pos htenant] at h
      exact hcons h
    · rw [if_neg htenant] at h
      exact hcons h

end Message

theorem Scanned.message {messages : List (Message V)} {found : List (Candidate V) × List String}
    (h : Scanned codec wanted messages found) (m : Message V) :
    Scanned codec wanted (messages ++ [m]) (collectTenantMessage codec wanted found m) := by
  have hsub : ∀ eventID, (candidatesOf found.1 eventID).Sublist
      (candidatesOf (collectTenantMessage codec wanted found m).1 eventID) :=
    fun eventID => (collectTenantMessage_sublist found m).filter _
  refine ⟨?_, ?_, ?_, ?_⟩
  · intro c hc
    rcases collectTenantMessage_carried found m hc with hold | ⟨ht, he, hvalue, hcarries⟩
    · obtain ⟨ht, he, m', hm', hcarried⟩ := h.carried c hold
      exact ⟨ht, he, m', List.mem_append_left _ hm', hcarried⟩
    · exact ⟨ht, he, m, by simp, hvalue, hcarries⟩
  · intro m' hm' tenantID eventID hcarries ht he hw
    rcases List.mem_append.1 hm' with hold | hnew
    · rcases h.listed m' hold tenantID eventID hcarries ht he hw with ⟨c, hc, hsame⟩ | htwo
      · exact .inl ⟨c, (hsub eventID).subset hc, hsame⟩
      · exact .inr (htwo.trans (hsub eventID).length_le)
    · cases List.mem_singleton.1 hnew
      exact collectTenantMessage_listed found m hcarries ht he hw
  · intro m' hm' eventID hmentions he hw
    rcases List.mem_append.1 hm' with hold | hnew
    · exact collectTenantMessage_found found m (h.mentioned m' hold eventID hmentions he hw)
    · cases List.mem_singleton.1 hnew
      exact collectTenantMessage_mentioned found m hmentions he hw
  · intro eventID hfound
    rcases collectTenantMessage_mentions found m hfound with hold | hmentions
    · obtain ⟨m', hm', hmentions⟩ := h.found eventID hold
      exact ⟨m', List.mem_append_left _ hm', hmentions⟩
    · exact ⟨m, by simp, hmentions⟩

/-- What `collectTenantCandidates` has found of the accepted topic. -/
theorem scanned_accepted (codec : Codec V) (wanted : List DlqRecord) (round : Round V) :
    Scanned codec wanted round.accepted (collectTenantCandidates codec round wanted) := by
  have hfold : ∀ (rest before : List (Message V)) (found : List (Candidate V) × List String),
      Scanned codec wanted before found →
      Scanned codec wanted (before ++ rest) (rest.foldl (collectTenantMessage codec wanted) found) := by
    intro rest
    induction rest with
    | nil =>
      intro before found hf
      simpa using hf
    | cons m rest ih =>
      intro before found hf
      have hnext := ih (before ++ [m]) _ (hf.message m)
      simpa using hnext
  exact hfold round.accepted [] ([], []) scanned_nil

theorem Scanned.unique {messages : List (Message V)} {found : List (Candidate V) × List String}
    (h : Scanned codec wanted messages found) {eventID : String} {c : Candidate V}
    (hone : candidatesOf found.1 eventID = [c]) (hw : byEventID wanted eventID ≠ [])
    (he : eventID ≠ "") {m : Message V} (hm : m ∈ messages) {tenantID : String}
    (hcarries : Carries codec m tenantID eventID) (ht : tenantID ≠ "") : tenantID = c.tenantID := by
  rcases h.listed m hm tenantID eventID hcarries ht he hw with ⟨c', hc', hsame⟩ | htwo
  · rw [hone, List.mem_singleton] at hc'
    rw [← hsame, hc']
  · rw [hone] at htwo
    simp at htwo

end Candidates

/-! ## Section 2: What one record does -/

/-- The part of a scan that outlives it. -/
structure View (V : Type) where
  state : State
  file : List Mark
  acknowledged : List Mark
  resolved : List RecordID
  events : List (ScanEvent V)
  /-- `Unresolvable`. -/
  lost : Nat

def Session.view {V : Type} (s : Session V) : View V :=
  ⟨s.state, s.file, s.acknowledged, s.resolved, s.events, s.metrics.unresolvable⟩

namespace View

variable {V : Type}

def trace (v : View V) (event : ScanEvent V) : View V := { v with events := v.events ++ [event] }

/-- The mark reached the file, and the call failed. -/
def torn (v : View V) (mark : Mark) : View V := { v with file := v.file ++ [mark] }

/-- The mark was persisted. -/
def persisted (v : View V) (mark : Mark) : View V :=
  { v with
    state := v.state.add mark
    file := v.file ++ [mark]
    acknowledged := v.acknowledged ++ [mark]
    events := v.events ++ [ScanEvent.marked mark] }

def resolve (v : View V) (id : RecordID) : View V := { v with resolved := v.resolved ++ [id] }

def lose (v : View V) : View V := { v with lost := v.lost + 1 }

end View

/-- A mark that was not persisted; its call may have been faulty. -/
inductive Marking {V : Type} (faulty : Prop) (mark : Mark) (v : View V) : View V → Prop where
  | failed : Marking faulty mark v v
  | torn (h : faulty) : Marking faulty mark v (v.torn mark)

/-- What one wanted record can do to a scan that has found `candidates` and
    `found`. -/
inductive Effect {V : Type} (faulty : Prop) (candidates : List (Candidate V)) (found : List String)
    (record : DlqRecord) (v : View V) : View V → Prop where
  /-- The record waits. -/
  | pending (h : candidatesOf candidates record.eventID ≠ [] ∨ record.eventID ∈ found) :
      Effect faulty candidates found record v v
  /-- The event id is marked and there is no candidate. -/
  | knownLoss (hnone : candidatesOf candidates record.eventID = [])
      (hfound : record.eventID ∉ found) (hmarked : v.state.marked record.eventID = true) :
      Effect faulty candidates found record v (v.resolve record.id)
  /-- The original is gone. -/
  | loss (hnone : candidatesOf candidates record.eventID = []) (hfound : record.eventID ∉ found)
      (hmarked : v.state.marked record.eventID = false) :
      Effect faulty candidates found record v
        ((((v.trace (.unresolvable record.id record.eventID)).persisted
          (.unscoped record.eventID)).resolve record.id).lose)
  | lossFailed (hnone : candidatesOf candidates record.eventID = [])
      (hfound : record.eventID ∉ found) (hmarked : v.state.marked record.eventID = false)
      {v' : View V} (hmark : Marking faulty (.unscoped record.eventID)
        (v.trace (.unresolvable record.id record.eventID)) v') :
      Effect faulty candidates found record v v'
  /-- The tenant's event is marked. -/
  | known {c : Candidate V} (hone : candidatesOf candidates record.eventID = [c])
      (hmarked : v.state.markedTenant c.tenantID c.eventID = true) :
      Effect faulty candidates found record v (v.resolve record.id)
  /-- The original was redelivered, or finally rejected. -/
  | closed {c : Candidate V} (hone : candidatesOf candidates record.eventID = [c])
      (hmarked : v.state.markedTenant c.tenantID c.eventID = false) :
      Effect faulty candidates found record v
        (((v.trace (.republished record.id c.tenantID c.eventID c.value)).persisted
          (.tenantScoped c.tenantID c.eventID)).resolve record.id)
  /-- It was handed to redelivery, and nothing was decided. -/
  | sent {c : Candidate V} (hone : candidatesOf candidates record.eventID = [c])
      (hmarked : v.state.markedTenant c.tenantID c.eventID = false) {v' : View V}
      (hmark : Marking faulty (.tenantScoped c.tenantID c.eventID)
        (v.trace (.republished record.id c.tenantID c.eventID c.value)) v') :
      Effect faulty candidates found record v v'

/-- A marking call of the round fails. -/
def Round.Faulty {V : Type} (round : Round V) : Prop := ∃ n, round.mark n ≠ .succeeded

section Effect

variable {V : Type} (round : Round V) {s : Session V}

theorem Session.persist_view (s : Session V) (mark : Mark) :
    ((s.persist round mark).2 = .next ∧ (s.persist round mark).1.view = s.view.persisted mark) ∨
      ((s.persist round mark).2 ≠ .next ∧
        Marking round.Faulty mark s.view (s.persist round mark).1.view) := by
  unfold Session.persist
  cases hcall : round.mark s.marks with
  | succeeded => exact .inl ⟨rfl, rfl⟩
  | failed applied =>
    cases applied with
    | true => exact .inr ⟨by simp, .torn ⟨s.marks, by simp [hcall]⟩⟩
    | false => exact .inr ⟨by simp, .failed⟩
  | crashed applied =>
    cases applied with
    | true => exact .inr ⟨by simp, .torn ⟨s.marks, by simp [hcall]⟩⟩
    | false => exact .inr ⟨by simp, .failed⟩

theorem Session.markTenant_view (s : Session V) (tenantID eventID : String) :
    ((s.markTenant round tenantID eventID).2 = .next ∧
        (s.markTenant round tenantID eventID).1.view =
          s.view.persisted (.tenantScoped tenantID eventID)) ∨
      ((s.markTenant round tenantID eventID).2 ≠ .next ∧
        Marking round.Faulty (.tenantScoped tenantID eventID) s.view
          (s.markTenant round tenantID eventID).1.view) := by
  unfold Session.markTenant
  split_ifs
  · exact .inr ⟨by simp, .failed⟩
  · exact s.persist_view round (.tenantScoped tenantID eventID)

theorem Session.withoutCandidate_effect {candidates : List (Candidate V)} {found : List String}
    {record : DlqRecord} (hnone : candidatesOf candidates record.eventID = []) :
    Effect round.Faulty candidates found record s.view (s.withoutCandidate round found record).1.view := by
  unfold Session.withoutCandidate
  by_cases hfound : record.eventID ∈ found
  · rw [if_pos hfound]
    exact .pending (.inr hfound)
  rw [if_neg hfound]
  by_cases hmarked : s.state.marked record.eventID = true
  · rw [if_pos hmarked]
    exact .knownLoss hnone hfound hmarked
  rw [if_neg hmarked]
  rw [Bool.not_eq_true] at hmarked
  dsimp only
  generalize hlost : ({ s with
    events := s.events ++ [ScanEvent.unresolvable record.id record.eventID] } : Session V) = lost
  have hview : lost.view = s.view.trace (.unresolvable record.id record.eventID) := by
    rw [← hlost]
    rfl
  rcases hp : lost.persist round (.unscoped record.eventID) with ⟨s₁, flow⟩
  have hmark := lost.persist_view round (.unscoped record.eventID)
  rw [hp, hview] at hmark
  rcases hmark with ⟨hnext, hpersisted⟩ | ⟨hstop, hmarking⟩
  · dsimp only at hnext hpersisted
    subst hnext
    have hloss : Effect round.Faulty candidates found record s.view
        (s₁.view.resolve record.id).lose := by
      rw [hpersisted]
      exact .loss hnone hfound hmarked
    exact hloss
  · have hloss : Effect round.Faulty candidates found record s.view s₁.view :=
      .lossFailed hnone hfound hmarked hmarking
    cases flow with
    | next => exact absurd rfl hstop
    | failed => exact hloss
    | crashed => exact hloss

theorem Session.close_view (s : Session V) (record : DlqRecord) (c : Candidate V)
    (close : Session V → Session V)
    (hclose : ∀ s₁ : Session V, (close s₁).view = s₁.view.resolve record.id) :
    (match s.markTenant round c.tenantID c.eventID with
      | (s₁, .next) => (close s₁, Flow.next)
      | (s₁, flow) => (s₁, flow)).1.view =
        (s.view.persisted (.tenantScoped c.tenantID c.eventID)).resolve record.id ∨
    Marking round.Faulty (.tenantScoped c.tenantID c.eventID) s.view
      (match s.markTenant round c.tenantID c.eventID with
        | (s₁, .next) => (close s₁, Flow.next)
        | (s₁, flow) => (s₁, flow)).1.view := by
  rcases hp : s.markTenant round c.tenantID c.eventID with ⟨s₁, flow⟩
  have hmark := s.markTenant_view round c.tenantID c.eventID
  rw [hp] at hmark
  rcases hmark with ⟨hnext, hpersisted⟩ | ⟨hstop, hmarking⟩
  · dsimp only at hnext hpersisted
    subst hnext
    rw [← hpersisted]
    exact .inl (hclose s₁)
  · cases flow with
    | next => exact absurd rfl hstop
    | failed => exact .inr hmarking
    | crashed => exact .inr hmarking

theorem Session.closeTenantDeliveryFailure_view (s : Session V) (record : DlqRecord)
    (c : Candidate V) (err : DeliveryFailure) :
    (s.closeTenantDeliveryFailure round record c err).1.view =
        (s.view.persisted (.tenantScoped c.tenantID c.eventID)).resolve record.id ∨
      Marking round.Faulty (.tenantScoped c.tenantID c.eventID) s.view
        (s.closeTenantDeliveryFailure round record c err).1.view := by
  unfold Session.closeTenantDeliveryFailure
  by_cases huncertain : err.uncertain = true
  · rw [if_pos huncertain]
    exact .inr .failed
  rw [if_neg huncertain]
  by_cases hretry : (!oneShot record) = true ∧ (!err.permanent) = true
  · rw [if_pos hretry]
    exact .inr .failed
  rw [if_neg hretry]
  exact s.close_view round record c (fun s₁ =>
    { (s₁.resolve [record.id]).count (fun n => { n with permanent := n.permanent + 1 }) with
      replayed := s₁.replayed + if oneShot record then 0 else 1 }) (fun _ => rfl)

theorem Session.withCandidate_effect {candidates : List (Candidate V)} {found : List String}
    {record : DlqRecord} {c : Candidate V}
    (hone : candidatesOf candidates record.eventID = [c]) :
    Effect round.Faulty candidates found record s.view (s.withCandidate round record c).1.view := by
  have hsome : candidatesOf candidates record.eventID ≠ [] := by
    rw [hone]
    simp
  unfold Session.withCandidate
  by_cases hmarked : s.state.markedTenant c.tenantID c.eventID = true
  · rw [if_pos hmarked]
    exact .known hone hmarked
  rw [if_neg hmarked]
  rw [Bool.not_eq_true] at hmarked
  by_cases hdelivers : (!round.delivers) = true
  · rw [if_pos hdelivers]
    exact .pending (.inl hsome)
  rw [if_neg hdelivers]
  have hview : (s.deliver round record.id c.tenantID c.eventID c.value).1.view =
      s.view.trace (.republished record.id c.tenantID c.eventID c.value) := rfl
  rcases hout : s.deliver round record.id c.tenantID c.eventID c.value with ⟨s₁, outcome⟩
  rw [hout] at hview
  have heffect : ∀ v', v' =
      (s₁.view.persisted (.tenantScoped c.tenantID c.eventID)).resolve record.id ∨
      Marking round.Faulty (.tenantScoped c.tenantID c.eventID) s₁.view v' →
      Effect round.Faulty candidates found record s.view v' := by
    rintro v' (rfl | hmarking)
    · rw [hview]
      exact .closed hone hmarked
    · rw [hview] at hmarking
      exact .sent hone hmarked hmarking
  cases outcome with
  | crashed => exact heffect _ (.inr .failed)
  | rejected err =>
    dsimp only
    by_cases hscope : isTenantScopeFailure err = true
    · rw [if_pos hscope]
      exact heffect _ (.inr .failed)
    · rw [if_neg hscope]
      exact heffect _ (Session.closeTenantDeliveryFailure_view round
        (s₁.count (fun n => { n with republishFail := n.republishFail + 1 })) record c err)
  | delivered =>
    exact heffect _ (s₁.close_view round record c (fun s₂ =>
      { (s₂.resolve [record.id]).count (fun n => { n with replayed := n.replayed + 1 }) with
        replayed := s₂.replayed + 1 }) (fun _ => rfl))

theorem Session.tenantRecord_effect (wanted : List DlqRecord) (candidates : List (Candidate V)) (found : List String)
    (record : DlqRecord) :
    Effect round.Faulty candidates found record s.view
      (s.tenantRecord round wanted candidates found record).1.view := by
  unfold Session.tenantRecord
  by_cases hnone : candidatesOf candidates record.eventID = []
  · rw [if_pos hnone]
    exact Session.withoutCandidate_effect round hnone
  rw [if_neg hnone]
  cases hc : tenantCandidateForRecord wanted s.state candidates record with
  | none => exact .pending (.inl hnone)
  | some c => exact Session.withCandidate_effect round (candidate_of_record hc).1

end Effect

/-! ## Section 3: What a scan does -/

/-- Records one after the other. -/
inductive Effects {V : Type} (faulty : Prop) (candidates : List (Candidate V)) (found : List String) :
    List DlqRecord → View V → View V → Prop where
  | nil (v : View V) : Effects faulty candidates found [] v v
  | cons {record : DlqRecord} {rest : List DlqRecord} {v v₁ v₂ : View V} :
      Effect faulty candidates found record v v₁ → Effects faulty candidates found rest v₁ v₂ →
        Effects faulty candidates found (record :: rest) v v₂

section Effects

variable {V : Type} {faulty : Prop} {candidates : List (Candidate V)} {found : List String}
  {records : List DlqRecord} {v v' : View V}

theorem Session.tenantRecords_effects (round : Round V) (wanted : List DlqRecord) (s : Session V)
    (candidates : List (Candidate V)) (found : List String) (records : List DlqRecord) :
    ∃ done rest, records = done ++ rest ∧
      Effects round.Faulty candidates found done s.view
        (s.tenantRecords round wanted candidates found records).1.view ∧
      ((s.tenantRecords round wanted candidates found records).2 = .next → rest = []) := by
  induction records generalizing s with
  | nil => exact ⟨[], [], rfl, .nil _, fun _ => rfl⟩
  | cons record rest ih =>
    have hone := Session.tenantRecord_effect round (s := s) wanted candidates found record
    unfold Session.tenantRecords
    rcases hr : s.tenantRecord round wanted candidates found record with ⟨s₁, flow⟩
    rw [hr] at hone
    have hstop : flow ≠ .next → ∃ done rest', record :: rest = done ++ rest' ∧
        Effects round.Faulty candidates found done s.view s₁.view ∧ (flow = .next → rest' = []) :=
      fun hne => ⟨[record], rest, rfl, .cons hone (.nil _), fun heq => absurd heq hne⟩
    cases flow with
    | next =>
      obtain ⟨done, rest', rfl, heffects, hall⟩ := ih s₁
      exact ⟨record :: done, rest', rfl, .cons hone heffects, hall⟩
    | failed => exact hstop (by simp)
    | crashed => exact hstop (by simp)

theorem Effects.invariant {P : View V → Prop}
    (hstep : ∀ record ∈ records, ∀ v v', P v → Effect faulty candidates found record v v' → P v')
    (h : Effects faulty candidates found records v v') (hv : P v) : P v' := by
  induction h with
  | nil v => exact hv
  | cons hone _ ih =>
    refine ih (fun record hr => hstep record (List.mem_cons_of_mem _ hr)) ?_
    exact hstep _ (by simp) _ _ hv hone

end Effects

/-! ## Section 4: Safety -/

section Safety

variable {V : Type} {codec : Codec V} {round : Round V} {records : List DlqRecord}

/-- The accepted topic, read to its end, has the record's event for exactly one
    tenant, and the value is that tenant's message. -/
structure Justified (codec : Codec V) (round : Round V) (records : List DlqRecord)
    (id : RecordID) (tenantID eventID : String) (value : V) : Prop where
  drained : round.scanEnd = .quiet
  record : ∃ r ∈ records, r.id = id ∧ r.eventID = eventID
  named : tenantID ≠ "" ∧ eventID ≠ ""
  accepted : ∃ m ∈ round.accepted, m.value = value ∧ Carries codec m tenantID eventID
  only : ∀ m ∈ round.accepted, ∀ other, Carries codec m other eventID → other ≠ "" →
    other = tenantID

/-- The accepted topic, read to its end, does not mention the record's event. -/
structure Gone (codec : Codec V) (round : Round V) (records : List DlqRecord) (id : RecordID)
    (eventID : String) : Prop where
  drained : round.scanEnd = .quiet
  record : ∃ r ∈ records, r.id = id ∧ r.eventID = eventID
  unmentioned : ∀ m ∈ round.accepted, ¬ Mentions codec m eventID

/-- No mark of a tenant's event comes before its republish. -/
def RepublishedFirst (events : List (ScanEvent V)) : Prop :=
  events.Pairwise (fun a b => ∀ tenantID eventID, a = .marked (.tenantScoped tenantID eventID) →
    ∀ id value, b ≠ .republished id tenantID eventID value)

/-- The instance knows every tenant's mark that it has persisted or read. -/
def Remembers (state : State) (acknowledged : List Mark) : Prop :=
  ∀ tenantID eventID, Mark.tenantScoped tenantID eventID ∈ acknowledged →
    (tenantID, eventID) ∈ state.scopedMarks

/-- What a scan keeps, from the world it began in. -/
structure View.Safe (codec : Codec V) (round : Round V) (records : List DlqRecord) (w : World)
    (v : View V) : Prop where
  remembers : Remembers v.state v.acknowledged
  kept : ∀ m ∈ w.acknowledged, m ∈ v.acknowledged
  noted : ∀ m, ScanEvent.marked m ∈ v.events → m ∈ v.acknowledged
  republished : ∀ id tenantID eventID value,
    ScanEvent.republished id tenantID eventID value ∈ v.events →
      Justified codec round records id tenantID eventID value ∧
        Mark.tenantScoped tenantID eventID ∉ w.acknowledged
  unresolvable : ∀ id eventID, ScanEvent.unresolvable id eventID ∈ v.events →
    Gone codec round records id eventID
  first : RepublishedFirst v.events
  carried : ∀ tenantID eventID, Mark.tenantScoped tenantID eventID ∈ v.file →
    Mark.tenantScoped tenantID eventID ∈ w.file ∨
      ∃ m ∈ round.accepted, Carries codec m tenantID eventID

variable {w : World} {v : View V}

theorem View.Safe.resolve (h : v.Safe codec round records w) (id : RecordID) :
    (v.resolve id).Safe codec round records w :=
  ⟨h.remembers, h.kept, h.noted, h.republished, h.unresolvable, h.first, h.carried⟩

theorem View.Safe.lose (h : v.Safe codec round records w) :
    v.lose.Safe codec round records w :=
  ⟨h.remembers, h.kept, h.noted, h.republished, h.unresolvable, h.first, h.carried⟩

theorem View.Safe.republish (h : v.Safe codec round records w) {id : RecordID}
    {tenantID eventID : String} {value : V}
    (hj : Justified codec round records id tenantID eventID value)
    (hnew : Mark.tenantScoped tenantID eventID ∉ v.acknowledged) :
    (v.trace (.republished id tenantID eventID value)).Safe codec round records w := by
  refine ⟨h.remembers, h.kept, ?_, ?_, ?_, ?_, h.carried⟩
  · intro m hm
    rcases List.mem_append.1 hm with hold | hlast
    · exact h.noted m hold
    · cases List.mem_singleton.1 hlast
  · intro id' tenantID' eventID' value' hm
    rcases List.mem_append.1 hm with hold | hlast
    · exact h.republished _ _ _ _ hold
    · cases List.mem_singleton.1 hlast
      exact ⟨hj, fun hack => hnew (h.kept _ hack)⟩
  · intro id' eventID' hm
    rcases List.mem_append.1 hm with hold | hlast
    · exact h.unresolvable _ _ hold
    · cases List.mem_singleton.1 hlast
  · refine List.pairwise_append.2 ⟨h.first, List.pairwise_singleton _ _, ?_⟩
    intro a ha b hb t e hmark id' value' hb'
    rw [List.mem_singleton.1 hb] at hb'
    cases hb'
    subst hmark
    exact hnew (h.noted _ ha)

theorem View.Safe.declare (h : v.Safe codec round records w) {id : RecordID} {eventID : String}
    (hg : Gone codec round records id eventID) :
    (v.trace (.unresolvable id eventID)).Safe codec round records w := by
  refine ⟨h.remembers, h.kept, ?_, ?_, ?_, ?_, h.carried⟩
  · intro m hm
    rcases List.mem_append.1 hm with hold | hlast
    · exact h.noted m hold
    · cases List.mem_singleton.1 hlast
  · intro id' tenantID' eventID' value' hm
    rcases List.mem_append.1 hm with hold | hlast
    · exact h.republished _ _ _ _ hold
    · cases List.mem_singleton.1 hlast
  · intro id' eventID' hm
    rcases List.mem_append.1 hm with hold | hlast
    · exact h.unresolvable _ _ hold
    · cases List.mem_singleton.1 hlast
      exact hg
  · refine List.pairwise_append.2 ⟨h.first, List.pairwise_singleton _ _, ?_⟩
    intro a _ b hb t e _ id' value' hb'
    rw [List.mem_singleton.1 hb] at hb'
    cases hb'

/-- Only what accepted messages carry is marked for a tenant. -/
def MarkCarried (codec : Codec V) (round : Round V) (mark : Mark) : Prop :=
  ∀ tenantID eventID, mark = .tenantScoped tenantID eventID →
    ∃ m ∈ round.accepted, Carries codec m tenantID eventID

theorem View.Safe.torn (h : v.Safe codec round records w) {mark : Mark}
    (hm : MarkCarried codec round mark) : (v.torn mark).Safe codec round records w := by
  refine ⟨h.remembers, h.kept, h.noted, h.republished, h.unresolvable, h.first, ?_⟩
  intro tenantID eventID hmem
  rcases List.mem_append.1 hmem with hold | hlast
  · exact h.carried _ _ hold
  · exact .inr (hm _ _ (List.mem_singleton.1 hlast).symm)

theorem Remembers.add {state : State} {acknowledged : List Mark}
    (h : Remembers state acknowledged) (mark : Mark) :
    Remembers (state.add mark) (acknowledged ++ [mark]) := by
  intro tenantID eventID hmem
  rcases List.mem_append.1 hmem with hold | hlast
  · have hin := h _ _ hold
    cases mark with
    | unscoped eventID => exact hin
    | tenantScoped tenantID eventID => exact List.mem_cons_of_mem _ hin
  · rw [← List.mem_singleton.1 hlast]
    exact List.mem_cons_self

theorem View.Safe.persisted (h : v.Safe codec round records w) {mark : Mark}
    (hm : MarkCarried codec round mark) : (v.persisted mark).Safe codec round records w := by
  refine ⟨h.remembers.add mark, fun m hin => List.mem_append_left _ (h.kept m hin), ?_, ?_, ?_,
    ?_, (h.torn hm).carried⟩
  · intro m hin
    rcases List.mem_append.1 hin with hold | hlast
    · exact List.mem_append_left _ (h.noted m hold)
    · cases List.mem_singleton.1 hlast
      exact List.mem_append_right _ (by simp)
  · intro id tenantID eventID value hin
    rcases List.mem_append.1 hin with hold | hlast
    · exact h.republished _ _ _ _ hold
    · cases List.mem_singleton.1 hlast
  · intro id eventID hin
    rcases List.mem_append.1 hin with hold | hlast
    · exact h.unresolvable _ _ hold
    · cases List.mem_singleton.1 hlast
  · refine List.pairwise_append.2 ⟨h.first, List.pairwise_singleton _ _, ?_⟩
    intro a _ b hb t e _ id value hb'
    rw [List.mem_singleton.1 hb] at hb'
    cases hb'

theorem View.Safe.marking (h : v.Safe codec round records w) {faulty : Prop} {mark : Mark}
    (hm : MarkCarried codec round mark) {v' : View V} (hmark : Marking faulty mark v v') :
    v'.Safe codec round records w := by
  cases hmark with
  | failed => exact h
  | torn => exact h.torn hm

theorem View.Safe.effect (h : v.Safe codec round records w) (hquiet : round.scanEnd = .quiet)
    {found : List (Candidate V) × List String}
    (hs : Scanned codec records round.accepted found) {record : DlqRecord}
    (hr : record ∈ records) (hid : record.eventID ≠ "") {faulty : Prop} {v' : View V}
    (he : Effect faulty found.1 found.2 record v v') : v'.Safe codec round records w := by
  have hwanted : byEventID records record.eventID ≠ [] := by
    intro hnil
    have hmem : record.id ∈ byEventID records record.eventID :=
      List.mem_map_of_mem (List.mem_filter.2 ⟨hr, by simp⟩)
    rw [hnil] at hmem
    cases hmem
  have hrecord : ∃ r ∈ records, r.id = record.id ∧ r.eventID = record.eventID :=
    ⟨record, hr, rfl, rfl⟩
  have hunscoped : MarkCarried codec round (.unscoped record.eventID) := fun _ _ heq => by cases heq
  -- nothing found: no message mentions the event
  have hgone : record.eventID ∉ found.2 → Gone codec round records record.id record.eventID :=
    fun hfound => ⟨hquiet, hrecord, fun m hm hmention =>
      hfound (hs.mentioned m hm _ hmention hid hwanted)⟩
  -- one candidate: it is the only tenant that carries the event
  have hjustified : ∀ c, candidatesOf found.1 record.eventID = [c] →
      Justified codec round records record.id c.tenantID c.eventID c.value ∧
        MarkCarried codec round (.tenantScoped c.tenantID c.eventID) := by
    intro c hone
    obtain ⟨hmem, hevent⟩ := mem_candidatesOf.1 (show c ∈ candidatesOf found.1 record.eventID by
      rw [hone]
      simp)
    obtain ⟨ht, he, m, hm, hvalue, hcarries⟩ := hs.carried c hmem
    refine ⟨⟨hquiet, ⟨record, hr, rfl, hevent.symm⟩, ⟨ht, he⟩, ⟨m, hm, hvalue, hcarries⟩, ?_⟩, ?_⟩
    · intro m' hm' other hcarries' hother
      rw [hevent] at hcarries'
      exact hs.unique hone hwanted hid hm' hcarries' hother
    · intro tenantID eventID heq
      cases heq
      exact ⟨m, hm, hcarries⟩
  -- a candidate that is not marked has no mark of its own
  have hnew : ∀ c, candidatesOf found.1 record.eventID = [c] →
      v.state.markedTenant c.tenantID c.eventID = false →
      Mark.tenantScoped c.tenantID c.eventID ∉ v.acknowledged := by
    intro c hone hmarked hack
    obtain ⟨ht, he⟩ := (hjustified c hone).1.named
    have hin := h.remembers _ _ hack
    simp [State.markedTenant, ht, he, hin] at hmarked
  cases he with
  | pending => exact h
  | knownLoss => exact h.resolve _
  | loss _ hfound => exact (((h.declare (hgone hfound)).persisted hunscoped).resolve _).lose
  | lossFailed _ hfound _ hmark => exact (h.declare (hgone hfound)).marking hunscoped hmark
  | known => exact h.resolve _
  | closed hone hmarked =>
    obtain ⟨hj, hcarried⟩ := hjustified _ hone
    exact ((h.republish hj (hnew _ hone hmarked)).persisted hcarried).resolve _
  | sent hone hmarked hmark =>
    obtain ⟨hj, hcarried⟩ := hjustified _ hone
    exact (h.republish hj (hnew _ hone hmarked)).marking hcarried hmark

theorem scanAcceptedTenantAware_safe {s : Session V} (h : s.view.Safe codec round records w)
    (hid : ∀ r ∈ records, r.eventID ≠ "") :
    (s.scanAcceptedTenantAware codec round records).1.view.Safe codec round records w := by
  unfold Session.scanAcceptedTenantAware
  cases hend : round.scanEnd with
  | quiet =>
    dsimp only
    have hs := scanned_accepted codec records round
    obtain ⟨done, rest, heq, heffects, -⟩ := s.tenantRecords_effects round records
      (collectTenantCandidates codec round records).1 (collectTenantCandidates codec round records).2
      records
    have hsafe := heffects.invariant (P := fun v => v.Safe codec round records w)
      (fun record hr v v' hv he => by
        have hmem : record ∈ records := by
          rw [heq]
          exact List.mem_append_left _ hr
        exact hv.effect hend hs hmem (hid record hmem) he) h
    rcases hl : s.tenantRecords round records (collectTenantCandidates codec round records).1
      (collectTenantCandidates codec round records).2 records with ⟨s₁, flow⟩
    rw [hl] at hsafe
    cases flow with
    | next => exact hsafe
    | failed => exact hsafe
    | crashed => exact hsafe
  | deadline => exact h
  | failed => exact h
  | cancelled => exact h

theorem wanted_valid {tenantAware : Bool} {r : DlqRecord}
    (hr : r ∈ wantedEvents (w.collect codec tenantAware round).1) :
    ∃ m ∈ round.fetches, ∃ failure, codec.decodeStrictFailure m.value = .ok failure ∧
      r.id = m.id ∧ r.eventID = failure.eventID := by
  obtain ⟨hmem, hmal, -, -⟩ := mem_wantedEvents.1 hr
  obtain ⟨front, hfront, hcollected⟩ := collectFailures_eq codec
    (failureWanted tenantAware w.state) round.replayAuthBlocked 0 0 0 round.fetches
  unfold World.collect at hmem
  rw [hcollected] at hmem
  obtain ⟨m, hm, rfl⟩ := List.mem_map.1 hmem
  refine ⟨m, hfront.subset hm, ?_⟩
  cases hdecode : codec.decodeStrictFailure m.value with
  | error reason =>
    unfold recordOf at hmal
    rw [hdecode] at hmal
    cases hmal
  | ok failure => exact ⟨failure, rfl, recordOf_id _ _ m, (recordOf_ok hdecode).2.1⟩

theorem World.attempt_safe (codec : Codec V) (h : Remembers w.state w.acknowledged)
    (round : Round V) :
    (w.attempt codec true round).view.Safe codec round
      (wantedEvents (w.begin.collect codec true round).1) w := by
  have hbegin : (w.begin.session : Session V).view.Safe codec round
      (wantedEvents (w.begin.collect codec true round).1) w :=
    ⟨h, fun _ hm => hm, (fun _ hm => nomatch hm), (fun _ _ _ _ hm => nomatch hm),
      (fun _ _ hm => nomatch hm), List.Pairwise.nil, fun _ _ hm => .inl hm⟩
  unfold World.attempt
  split_ifs
  · refine scanAcceptedTenantAware_safe hbegin ?_
    intro r hr
    obtain ⟨m, -, failure, hdecode, -, hevent⟩ := wanted_valid hr
    rw [hevent]
    exact codec.eventID_nonempty hdecode
  · exact hbegin

theorem remembers_load (scope : String) (file : List Mark) :
    Remembers (State.load scope file) file := by
  have hfold : ∀ (rest before : List Mark) (state : State), Remembers state before →
      Remembers (rest.foldl State.add state) (before ++ rest) := by
    intro rest
    induction rest with
    | nil =>
      intro before state h
      simpa using h
    | cons mark rest ih =>
      intro before state h
      have hnext := ih (before ++ [mark]) _ (h.add mark)
      simpa using hnext
  exact hfold file [] _ (fun _ _ hm => by cases hm)

theorem World.commit_marks (w : World) (round : Round V) (collected : List DlqRecord)
    (resolved : List RecordID) :
    (w.commit round collected resolved).file = w.file ∧
      (Remembers w.state w.acknowledged → Remembers (w.commit round collected resolved).state
        (w.commit round collected resolved).acknowledged) := by
  unfold World.commit
  dsimp only
  rcases commitResolved round.commit w.offsets collected resolved with ⟨offsets, flow⟩
  cases flow with
  | next => exact ⟨rfl, id⟩
  | failed => exact ⟨rfl, id⟩
  | crashed => exact ⟨rfl, fun _ => remembers_load _ _⟩

theorem World.runOnce_marks (w : World) (round : Round V) :
    (w.runOnce codec true round).file = (w.attempt codec true round).file ∧
      (Remembers w.state w.acknowledged →
        Remembers (w.runOnce codec true round).state (w.runOnce codec true round).acknowledged) := by
  have hscan : Remembers w.state w.acknowledged →
      Remembers (w.attempt codec true round).state (w.attempt codec true round).acknowledged :=
    fun h => (World.attempt_safe codec h round).remembers
  rcases w.runOnce_cases codec true round with heq | heq | heq
  · rw [heq]
    exact ⟨rfl, hscan⟩
  · rw [heq]
    exact ⟨rfl, fun _ => remembers_load _ _⟩
  · rw [heq]
    obtain ⟨hfile, hremembers⟩ := (w.begin.scanned (w.attempt codec true round)).commit_marks round
      (w.begin.collect codec true round).1 (w.attempt codec true round).resolved
    exact ⟨hfile, fun h => hremembers (hscan h)⟩

/-- What a round may do, whatever the topics hold and the destination answers. -/
structure RoundSafe (codec : Codec V) (w : World) (round : Round V) : Prop where
  /-- A republish is justified by the accepted topic, and its mark is new. -/
  republished : ∀ id tenantID eventID value,
    ScanEvent.republished id tenantID eventID value ∈ w.events codec true round →
      Justified codec round (wantedEvents (w.begin.collect codec true round).1) id tenantID
          eventID value ∧
        Mark.tenantScoped tenantID eventID ∉ w.acknowledged
  /-- Nor is it republished after the round itself has marked it. -/
  first : RepublishedFirst (w.events codec true round)
  /-- What is declared lost is nowhere in the accepted topic. -/
  unresolvable : ∀ id eventID, ScanEvent.unresolvable id eventID ∈ w.events codec true round →
    Gone codec round (wantedEvents (w.begin.collect codec true round).1) id eventID
  /-- A tenant's new mark is for a tenant that an accepted message names. -/
  carried : ∀ tenantID eventID,
    Mark.tenantScoped tenantID eventID ∈ (w.runOnce codec true round).file →
      Mark.tenantScoped tenantID eventID ∈ w.file ∨
        ∃ m ∈ round.accepted, Carries codec m tenantID eventID

/-- **Tenant-safe replay.** In every state that a tenant-aware replayer can
    reach, every further round is safe. -/
theorem tenant_safe_replay {first : Offsets} (h : (system codec true first).Reachable w)
    (round : Round V) : RoundSafe codec w round := by
  have hremembers : Remembers w.state w.acknowledged := by
    refine h.invariant (P := fun w => Remembers w.state w.acknowledged) ?_ ?_
    · rintro w ⟨-, hstate, -, -, -, -, hack⟩
      rw [hstate, hack]
      exact remembers_load _ _
    · intro w a w' _ hw _ hstep
      cases a with
      | runOnce round =>
        cases hstep
        exact (w.runOnce_marks round).2 hw
      | restart =>
        cases hstep
        exact remembers_load _ _
  have hsafe := World.attempt_safe codec hremembers round
  refine ⟨hsafe.republished, hsafe.first, hsafe.unresolvable, ?_⟩
  intro tenantID eventID hmem
  rw [(w.runOnce_marks round).1] at hmem
  exact hsafe.carried tenantID eventID hmem

end Safety

/-- Also the round after the sample's replay. -/
theorem tenant_safe_replay_sample :
    Sample.replayed.file = [.tenantScoped "t1" "e1"] ∧
      RoundSafe jsonCodec Sample.replayed (Sample.round 1 [Sample.acceptedText]) :=
  ⟨by decide +kernel,
    tenant_safe_replay (Sample.reach_replayed.mono (fun _ _ _ => trivial)) _⟩

end Replay

end AuditGovernance
