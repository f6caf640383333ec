import AuditGovernance.Service.QueryMatch
import AuditGovernance.Service.Schemas

/-! # Retention

    `SetRetentionPolicy` and `EvaluateRetention` (`internal/service/service.go`).
    The cutoff is the evaluation time minus the policy's days, computed as a
    `time.Duration`: a 64-bit count of nanoseconds, which wraps. Policies of
    more than 106751 days are accepted, and for them the duration is no longer
    what the days stand for (`retention_never_early_iff`).

    The context's deadline is left out.
-/

namespace AuditGovernance

open FiniteMap

/-! ## Section 1: Durations -/

/-- The value of a signed 64-bit integer after overflow. -/
def wrapInt64 (n : Int) : Int := Int.bmod n (2 ^ 64)

def nanosPerSecond : Int := 1000000000

/-- `time.Hour`. -/
def hour : Int := 3600 * nanosPerSecond

/-- `-time.Duration(days) * 24 * time.Hour`. -/
def daysBack (days : Int) : Int := wrapInt64 (wrapInt64 (wrapInt64 (-days) * 24) * hour)

/-- `time.Time.Add`. Seconds outside the 64-bit range saturate; the nanoseconds
    of the second stay. -/
def addDuration (t : Time) (d : Int) : Time :=
  let nanos : Int := t + d
  if nanos / nanosPerSecond < -2 ^ 63 then
    -(2 ^ 63 - 1) * nanosPerSecond + nanos % nanosPerSecond
  else if 2 ^ 63 ≤ nanos / nanosPerSecond then
    (2 ^ 63 - 1) * nanosPerSecond + nanos % nanosPerSecond
  else nanos

/-- What the days stand for. -/
def exactDays (days : Int) : Int := days * (24 * hour)

theorem daysBack_eq (days : Int) : daysBack days = Int.bmod (-exactDays days) (2 ^ 64) := by
  have hproduct : -days * 24 * hour = -exactDays days := by
    unfold exactDays
    ring
  unfold daysBack wrapInt64
  rw [Int.bmod_mul_bmod, ← hproduct]
  have hinner : (-days).bmod (2 ^ 64) * 24 * hour = (-days).bmod (2 ^ 64) * (24 * hour) := by ring
  rw [hinner, Int.bmod_mul_bmod]
  congr 1
  ring

/-- The largest number of days that a duration can hold. -/
def maxDurationDays : Int := 106751

theorem daysBack_exact {days : Int} (hlow : 0 ≤ days) (hhigh : days ≤ maxDurationDays) :
    daysBack days = -exactDays days := by
  unfold maxDurationDays at hhigh
  rw [daysBack_eq]
  unfold exactDays hour nanosPerSecond
  apply Int.bmod_eq_of_le
  · omega
  · omega

theorem daysBack_bounds (days : Int) : -2 ^ 63 ≤ daysBack days ∧ daysBack days < 2 ^ 63 := by
  rw [daysBack_eq]
  have hlow := @Int.le_bmod (-exactDays days) (2 ^ 64) (by decide)
  have hhigh := @Int.bmod_lt (-exactDays days) (2 ^ 64) (by decide)
  omega

/-! ## Section 2: Policies -/

/-- `SetRetentionPolicy`, as the update of the control plane it makes. -/
def setRetentionPolicy (cap : Nat) (now : Time) (actor actionID : String)
    (policy : RetentionPolicy) (control : Control) : Except Err Control :=
  match checkAll
    [requireTenantScope policy.tenantID,
      require (policy.tenantID ≠ "" ∧ isBlank policy.retentionClass = false ∧
        0 ≤ policy.archiveDays ∧ 0 ≤ policy.hotDays ∧ 0 ≤ policy.warmDays)
        (.invalid "invalid retention policy"),
      require (control.tenants[policy.tenantID]?).isSome (.notFound "tenant does not exist")] with
  | .error err => .error err
  | .ok () =>
    .ok (({ control with policies := control.policies.insert policy.tenantID policy
              }).appendAdminAction cap
      { id := actionID, tenantID := policy.tenantID, actor := actor
        action := "retention_policy.set", targetType := "retention_policy"
        targetID := policy.retentionClass
        detail := "hot=" ++ Int.repr policy.hotDays ++ " warm=" ++ Int.repr policy.warmDays ++
          " archive=" ++ Int.repr policy.archiveDays
        createdAt := now })

theorem setRetentionPolicy_ok {cap : Nat} {now : Time} {actor actionID : String}
    {policy : RetentionPolicy} {control control' : Control}
    (h : setRetentionPolicy cap now actor actionID policy control = .ok control') :
    requireTenantScope policy.tenantID = .ok () ∧ 0 ≤ policy.archiveDays ∧
      control'.policies[policy.tenantID]? = some policy := by
  unfold setRetentionPolicy at h
  split at h
  · cases h
  next hchecks =>
  have hscope := checkAll_ok.1 hchecks (requireTenantScope policy.tenantID) List.mem_cons_self
  have hvalid := checkAll_ok.1 hchecks (require (policy.tenantID ≠ "" ∧
    isBlank policy.retentionClass = false ∧ 0 ≤ policy.archiveDays ∧ 0 ≤ policy.hotDays ∧
    0 ≤ policy.warmDays) (.invalid "invalid retention policy"))
    (List.mem_cons_of_mem _ List.mem_cons_self)
  rw [require_ok, decide_eq_true_eq] at hvalid
  cases h
  exact ⟨hscope, hvalid.2.2.1, lookup_insert_self _ _ _⟩

/-! ## Section 3: Evaluation -/

/-- `RetentionReport`. -/
structure RetentionReport where
  tenantID : String := ""
  evaluatedAt : Time := 0
  policy : RetentionPolicy := {}
  eligibleEvents : Nat := 0
  protectedEvents : Nat := 0
  holdIDs : List String := []
  action : String := ""
deriving DecidableEq, Inhabited

/-- `holdMatchesEvent`. -/
def Deployment.holdMatchesEvent (d : Deployment) (hold : LegalHold) (event : Event)
    (schemas : Dict EventSchema) : Bool :=
  if hold.filter.from_ = 0 ∧ hold.filter.to_ = 0 then true
  else if hold.filter.from_ = 0 ∨ hold.filter.to_ = 0 then false
  else d.matches_ event hold.filter schemas

/-- `appendUnique`. -/
def appendUnique (values : List String) (wanted : String) : List String :=
  if wanted ∈ values then values else values ++ [wanted]

/-- An event the loop does not skip. -/
def retentionDue (policy : RetentionPolicy) (tenantID : String) (cutoff : Time) (event : Event) :
    Bool :=
  event.tenantID = tenantID ∧ event.retentionClass = policy.retentionClass ∧
    0 < policy.archiveDays ∧ event.occurredAt ≤ cutoff

/-- The active holds of a tenant. -/
def activeHolds (control : Control) (tenantID : String) : List LegalHold :=
  (control.legalHolds.toList.map Prod.snd).filter
    (fun hold => hold.tenantID = tenantID ∧ hold.releasedAt = none)

/-- One round of the loop. -/
def Deployment.countEvent (d : Deployment) (policy : RetentionPolicy) (tenantID : String)
    (cutoff : Time) (holds : List LegalHold) (schemas : Dict EventSchema)
    (report : RetentionReport) (event : Event) : RetentionReport :=
  if retentionDue policy tenantID cutoff event then
    let protecting := holds.filter (fun hold => d.holdMatchesEvent hold event schemas)
    if protecting = [] then { report with eligibleEvents := report.eligibleEvents + 1 }
    else
      { report with
        protectedEvents := report.protectedEvents + 1
        holdIDs := (protecting.map LegalHold.id).foldl appendUnique report.holdIDs }
  else report

/-- `EvaluateRetention`. The policy and the events come from two reads; a zero
    evaluation time stands for the clock. -/
def Deployment.evaluateRetention (d : Deployment) (control : Control) (data : Snapshot)
    (tenantID : String) (now clock : Time) : Except Err RetentionReport :=
  match requireTenantScope tenantID with
  | .error err => .error err
  | .ok () =>
    match control.policies[tenantID]? with
    | none => .error (.notFound "")
    | some policy =>
      let evaluatedAt := if now = 0 then clock else now
      let cutoff := addDuration evaluatedAt (daysBack policy.archiveDays)
      let report := (data.events.toList.map Prod.snd).foldl
        (d.countEvent policy tenantID cutoff (activeHolds data.toControl tenantID) data.schemas)
        { tenantID := tenantID, evaluatedAt := evaluatedAt, policy := policy
          action := "archive_only_immutable_ledger" }
      .ok { report with holdIDs := report.holdIDs.insertionSort (fun a b => a ≤ b) }

/-! ## Section 4: What is counted -/

/-- The events a report counts, as eligible or protected. -/
def RetentionReport.counted (report : RetentionReport) : Nat :=
  report.eligibleEvents + report.protectedEvents

/-- The evaluation time that a call uses. -/
def evaluationTime (now clock : Time) : Time := if now = 0 then clock else now

/-- The cutoff that a call computes. -/
def retentionCutoff (policy : RetentionPolicy) (evaluatedAt : Time) : Time :=
  addDuration evaluatedAt (daysBack policy.archiveDays)

section Counting

variable {d : Deployment} {policy : RetentionPolicy} {tenantID : String} {cutoff : Time}
  {holds : List LegalHold} {schemas : Dict EventSchema}

theorem countEvent_counted (report : RetentionReport) (event : Event) :
    (d.countEvent policy tenantID cutoff holds schemas report event).counted =
      report.counted + if retentionDue policy tenantID cutoff event then 1 else 0 := by
  unfold Deployment.countEvent
  by_cases hdue : retentionDue policy tenantID cutoff event = true
  · rw [if_pos hdue, if_pos hdue]
    dsimp only
    split_ifs
    · show report.eligibleEvents + 1 + report.protectedEvents = _
      unfold RetentionReport.counted
      omega
    · show report.eligibleEvents + (report.protectedEvents + 1) = _
      unfold RetentionReport.counted
      omega
  · rw [if_neg hdue, if_neg hdue]
    rfl

theorem countEvent_evaluatedAt (report : RetentionReport) (event : Event) :
    (d.countEvent policy tenantID cutoff holds schemas report event).evaluatedAt =
      report.evaluatedAt := by
  unfold Deployment.countEvent
  dsimp only
  split_ifs <;> rfl

theorem countEvents (report : RetentionReport) (events : List Event) :
    let result := events.foldl (d.countEvent policy tenantID cutoff holds schemas) report
    result.counted = report.counted + events.countP (retentionDue policy tenantID cutoff) ∧
      result.evaluatedAt = report.evaluatedAt := by
  induction events generalizing report with
  | nil => exact ⟨rfl, rfl⟩
  | cons event rest ih =>
    obtain ⟨hcounted, hat⟩ :=
      ih (d.countEvent policy tenantID cutoff holds schemas report event)
    refine ⟨?_, hat.trans (countEvent_evaluatedAt report event)⟩
    rw [List.foldl_cons, hcounted, countEvent_counted, List.countP_cons]
    omega

end Counting

theorem evaluateRetention_counted {d : Deployment} {control : Control} {tenantID : String}
    {policy : RetentionPolicy} (hscope : requireTenantScope tenantID = .ok ())
    (hpolicy : control.policies[tenantID]? = some policy) (data : Snapshot) (now clock : Time) :
    ∃ report, d.evaluateRetention control data tenantID now clock = .ok report ∧
      report.evaluatedAt = evaluationTime now clock ∧
      report.counted = (data.events.toList.map Prod.snd).countP
        (retentionDue policy tenantID (retentionCutoff policy (evaluationTime now clock))) := by
  unfold Deployment.evaluateRetention
  rw [hscope]
  simp only [hpolicy]
  refine ⟨_, rfl, ?_⟩
  obtain ⟨hcounted, hat⟩ := @countEvents d policy tenantID
    (retentionCutoff policy (evaluationTime now clock)) (activeHolds data.toControl tenantID)
    data.schemas
    { tenantID := tenantID, evaluatedAt := evaluationTime now clock, policy := policy
      action := "archive_only_immutable_ledger" } (data.events.toList.map Prod.snd)
  exact ⟨hat, hcounted.trans (Nat.zero_add _)⟩

/-- No due event is younger than the policy's days. -/
def NeverEarly (policy : RetentionPolicy) (data : Snapshot) (evaluatedAt : Time) : Prop :=
  ∀ (key : String) (event : Event), data.events[key]? = some event →
    retentionDue policy policy.tenantID (retentionCutoff policy evaluatedAt) event = true →
    exactDays policy.archiveDays ≤ evaluatedAt - event.occurredAt

/-- The occurrences of the stored events lie in the ledger horizon. -/
def InHorizon (data : Snapshot) : Prop :=
  ∀ (key : String) (event : Event), data.events[key]? = some event →
    minOccurredAt ≤ event.occurredAt ∧ event.occurredAt ≤ maxOccurredAt

theorem le_addDuration {t cutoff : Int} {d : Int} (hlow : minOccurredAt ≤ t)
    (hle : t ≤ addDuration cutoff d) : t ≤ cutoff + d := by
  have hlow' : (0 : Int) ≤ t := le_trans (by decide) hlow
  unfold addDuration nanosPerSecond at hle
  dsimp only at hle
  split_ifs at hle with hbelow habove
  · omega
  · omega
  · exact hle

theorem neverEarly_of_fits {policy : RetentionPolicy} (hdays : 0 ≤ policy.archiveDays)
    (hfits : policy.archiveDays ≤ maxDurationDays) {data : Snapshot} (hhorizon : InHorizon data)
    (evaluatedAt : Time) : NeverEarly policy data evaluatedAt := by
  intro key event hevent hdue
  unfold retentionDue at hdue
  rw [decide_eq_true_eq] at hdue
  obtain ⟨-, -, -, hcutoff⟩ := hdue
  have hle := le_addDuration (hhorizon key event hevent).1 hcutoff
  rw [daysBack_exact hdays hfits] at hle
  show exactDays policy.archiveDays ≤ (evaluatedAt : Int) - event.occurredAt
  omega

/-- A store with one event of the policy's class. -/
def oneEventStore (policy : RetentionPolicy) (occurredAt : Time) : Snapshot :=
  { events := (∅ : Dict Event).insert "e1"
      { eventID := "e1", tenantID := policy.tenantID, retentionClass := policy.retentionClass
        occurredAt := occurredAt } }

theorem oneEventStore_inHorizon (policy : RetentionPolicy) {occurredAt : Time}
    (h : minOccurredAt ≤ occurredAt ∧ occurredAt ≤ maxOccurredAt) :
    InHorizon (oneEventStore policy occurredAt) := by
  intro key event hevent
  have hlookup : ((∅ : Dict Event).insert "e1"
      { eventID := "e1", tenantID := policy.tenantID, retentionClass := policy.retentionClass
        occurredAt := occurredAt })[key]? = some event := hevent
  rw [lookup_insert] at hlookup
  split at hlookup
  · cases hlookup
    exact h
  · simp at hlookup

theorem addDuration_back {t d : Int} (hstart : 0 ≤ t) (hend : t ≤ 2 ^ 66) (hlow : -2 ^ 63 ≤ d)
    (hhigh : d < 2 ^ 63) : t ≤ (addDuration (t + 2 ^ 63 : Int) d : Int) := by
  unfold addDuration nanosPerSecond
  dsimp only
  split_ifs with hbelow habove
  · omega
  · omega
  · show t ≤ t + 2 ^ 63 + d
    omega

theorem early_of_overflow {policy : RetentionPolicy} (hover : maxDurationDays < policy.archiveDays) :
    ¬ NeverEarly policy (oneEventStore policy minOccurredAt) (minOccurredAt + 2 ^ 63 : Int) := by
  intro hnever
  obtain ⟨hlow, hhigh⟩ := daysBack_bounds policy.archiveDays
  have hover' : (106751 : Int) < policy.archiveDays := hover
  have hcutoff : (minOccurredAt : Int) ≤ retentionCutoff policy (minOccurredAt + 2 ^ 63 : Int) :=
    addDuration_back (by decide) (by decide) hlow hhigh
  have hold := hnever "e1" _ (lookup_insert_self _ _ _)
    (by
      unfold retentionDue
      rw [decide_eq_true_eq]
      exact ⟨rfl, rfl, by omega, hcutoff⟩)
  have hold' : exactDays policy.archiveDays ≤ (minOccurredAt + 2 ^ 63 : Int) - minOccurredAt := hold
  unfold exactDays hour nanosPerSecond at hold'
  omega

/-- **Retention never counts an event early**, at any time and over any events,
    exactly under the policies whose days fit a duration. -/
theorem retention_never_early_iff (d : Deployment) {cap : Nat} {setAt : Time}
    {actor actionID : String} {policy : RetentionPolicy} {control control' : Control}
    (hset : setRetentionPolicy cap setAt actor actionID policy control = .ok control') :
    (∀ (data : Snapshot) (now clock : Time),
      ∃ report, d.evaluateRetention control' data policy.tenantID now clock = .ok report ∧
        report.evaluatedAt = evaluationTime now clock ∧
        report.counted = (data.events.toList.map Prod.snd).countP
          (retentionDue policy policy.tenantID (retentionCutoff policy report.evaluatedAt))) ∧
    ((∀ (data : Snapshot) (evaluatedAt : Time), InHorizon data →
        NeverEarly policy data evaluatedAt) ↔
      policy.archiveDays ≤ maxDurationDays) := by
  obtain ⟨hscope, hdays, hpolicy⟩ := setRetentionPolicy_ok hset
  constructor
  · intro data now clock
    obtain ⟨report, hreport, hat, hcounted⟩ :=
      @evaluateRetention_counted d _ _ _ hscope hpolicy data now clock
    exact ⟨report, hreport, hat, by rw [hat]; exact hcounted⟩
  · constructor
    · intro hnever
      by_contra hover
      exact early_of_overflow (not_le.1 hover)
        (hnever _ _ (oneEventStore_inHorizon policy ⟨le_refl _, by decide⟩))
    · intro hfits data evaluatedAt hhorizon
      exact neverEarly_of_fits hdays hfits hhorizon evaluatedAt

/-- Ten years of archive. -/
def tenYears : RetentionPolicy :=
  { tenantID := "acme", archiveDays := 3650, retentionClass := "standard" }

theorem ten_years_never_early :
    NeverEarly tenYears (oneEventStore tenYears 63900000000000000000) 64000000000000000000 :=
  have hset : setRetentionPolicy 0 0 "admin" "action-1" tenYears acmeControl =
      .ok (okValue (setRetentionPolicy 0 0 "admin" "action-1" tenYears acmeControl)) :=
    eq_ok_okValue (by decide +kernel)
  (retention_never_early_iff (developmentDeployment 2) hset).2.2 (by decide) _ _
    (oneEventStore_inHorizon _ (by decide))

/-- A little over 292 years of archive. -/
def endless : RetentionPolicy :=
  { tenantID := "acme", archiveDays := 106752, retentionClass := "standard" }

/-- The policy is accepted, and an event that occurred at the evaluation time is
    counted as eligible. -/
theorem endless_policy_counts_now :
    (setRetentionPolicy 0 0 "admin" "action-1" endless acmeControl).isOk = true ∧
    ((developmentDeployment 2).evaluateRetention
        (okValue (setRetentionPolicy 0 0 "admin" "action-1" endless acmeControl))
        (oneEventStore endless 63900000000000000000) "acme" 63900000000000000000 0).map
      RetentionReport.eligibleEvents = .ok 1 ∧
    ¬ exactDays endless.archiveDays ≤ (63900000000000000000 : Int) - 63900000000000000000 := by
  decide +kernel

end AuditGovernance
