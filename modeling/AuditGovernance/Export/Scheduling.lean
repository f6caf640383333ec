import AuditGovernance.Framework.Paging
import AuditGovernance.Framework.Ranging
import AuditGovernance.Store.Snapshot

/-! # Which export runs next

    `nextRunnableExport` (`internal/service/export_checkpoint_schedule.go`) first
    looks for a running job whose owner's lease has expired; only when there is
    none does `nextExport` (`export_scheduler.go`) look for a pending job. Both
    give tenants their turn and take the oldest job of a tenant.

    `Takeover` and `Startable` say which jobs are eligible, by counts over the
    dictionaries and not by loops, and `ChosenInTurn` which of them is due. The
    loops visit dictionaries in any order; `export_choice_exact` holds for all.
-/

namespace AuditGovernance

namespace Export

open FiniteMap Paging

/-! ## Section 1: The choice as the code makes it -/

/-- `ExportLeaseDuration`, two minutes. -/
def exportLeaseDuration : Time := 120 * 1000000000

/-- `validExportLease`. -/
def validExportLease (job : ExportJob) (lease : ExportLease) : Bool :=
  job.id ≠ "" ∧ job.tenantID ≠ "" ∧ lease.version = 1 ∧ lease.jobID = job.id ∧
    lease.tenantID = job.tenantID ∧ lease.owner ≠ "" ∧
    (∃ started ∈ job.startedAt, started ≠ 0 ∧ started ≤ lease.heartbeatAt) ∧
    lease.heartbeatAt ≠ 0 ∧ lease.expiresAt = lease.heartbeatAt + exportLeaseDuration

def exportConcurrency : Nat := 2

def exportTenantConcurrency : Nat := 1

def isRunning (job : ExportJob) : Bool := job.status = "running"

/-- The number of jobs that `p` holds of. -/
def countJobs (p : ExportJob → Bool) (jobs : Dict ExportJob) : Nat := countValues p jobs

/-- The jobs of one tenant among those that `p` holds of. -/
def ofTenant (tenant : String) (p : ExportJob → Bool) (job : ExportJob) : Bool :=
  p job ∧ job.tenantID = tenant

/-- `exportCheckpointHasCapacity`: the job that is taken over is counted. -/
def exportCheckpointHasCapacity (jobs : Dict ExportJob) (tenant : String) : Bool :=
  countJobs isRunning jobs ≤ exportConcurrency ∧
    countJobs (ofTenant tenant isRunning) jobs ≤ exportTenantConcurrency

/-- The orders in which the loops of one choice visit their dictionaries. -/
structure ScheduleOrders where
  takeovers : RangeOrder
  running : RangeOrder
  reserved : RangeOrder
  pending : RangeOrder
  tenants : RangeOrder
  sort : SliceSort

/-- The comparison inside a tenant. -/
def olderJob (job current : ExportJob) : Bool :=
  job.createdAt < current.createdAt ∨ (job.createdAt = current.createdAt ∧ job.id < current.id)

/-- The comparison of the takeover candidates. -/
def compareCandidates (a b : ExportJob) : Bool :=
  if a.tenantID ≠ b.tenantID then a.tenantID < b.tenantID
  else if a.createdAt ≠ b.createdAt then a.createdAt < b.createdAt
  else a.id < b.id

/-- The running jobs, in the order of the loop. -/
def runningEntries (orders : ScheduleOrders) (jobs : Dict ExportJob) : List (String × ExportJob) :=
  (orders.running.entries jobs).filter fun entry => isRunning entry.2

/-- The reservations that are counted, in the order of the loop. -/
def reservedEntries (orders : ScheduleOrders) (jobs : Dict ExportJob) (active : Dict String) :
    List (String × String) :=
  (orders.reserved.entries active).filter fun entry =>
    entry.1 ∉ (runningEntries orders jobs).map Prod.fst

/-- The places taken: the tenant of each, once for every time the code counts it. -/
def takenPlaces (orders : ScheduleOrders) (jobs : Dict ExportJob) (active : Dict String) :
    List String :=
  (runningEntries orders jobs).map (fun entry => entry.2.tenantID) ++
    (reservedEntries orders jobs active).map Prod.snd

/-- The jobs that the loop over the pending ones looks at. -/
def offeredJobs (orders : ScheduleOrders) (jobs : Dict ExportJob) (active : Dict String) :
    List ExportJob :=
  ((orders.pending.entries jobs).filter fun entry =>
    entry.2.status = "pending" ∧
      (takenPlaces orders jobs active).count entry.2.tenantID < exportTenantConcurrency ∧
      (active[entry.1]?).isNone).map Prod.snd

/-- The oldest offered job of every tenant. -/
def oldestByTenant (orders : ScheduleOrders) (jobs : Dict ExportJob) (active : Dict String) :
    Dict ExportJob :=
  (offeredJobs orders jobs active).foldl (offer ExportJob.tenantID olderJob) ∅

/-- `nextExport`. -/
def nextExport (orders : ScheduleOrders) (jobs : Dict ExportJob) (active : Dict String)
    (after : String) : ExportJob :=
  if exportConcurrency ≤ (takenPlaces orders jobs active).length then {}
  else
    let byTenant := oldestByTenant orders jobs active
    let tenants := orders.sort.run (fun a b => a < b)
      ((orders.tenants.entries byTenant).map Prod.fst)
    match nextAfter id after tenants with
    | none => {}
    | some tenant => (byTenant[tenant]?).getD {}

/-- The guard of the candidate loop. A missing lease reads as the zero value. -/
def canTakeOver (data : Control) (active : Dict String) (now : Time) (id : String)
    (job : ExportJob) : Bool :=
  ((data.exportCheckpoints[id]?).isSome ∨ (data.exportPlans[id]?).isSome) ∧
    (active[id]?).isNone ∧ job.id = id ∧ job.status = "running" ∧ job.finishedAt = none ∧
    validExportLease job ((data.exportLeases[id]?).getD {}) ∧
    ((data.exportLeases[id]?).getD {}).expiresAt ≤ now ∧
    exportCheckpointHasCapacity data.exports job.tenantID

/-- The takeover candidates, in the order of the loop. -/
def takeoverCandidates (orders : ScheduleOrders) (data : Control) (active : Dict String)
    (now : Time) : List ExportJob :=
  ((orders.takeovers.entries data.exports).filter fun entry =>
    canTakeOver data active now entry.1 entry.2).map Prod.snd

/-- `nextRunnableExport`. -/
def nextRunnableExport (orders : ScheduleOrders) (data : Control) (active : Dict String)
    (after : String) (now : Time) : ExportJob :=
  let candidates := takeoverCandidates orders data active now
  if candidates = [] then nextExport orders data.exports active after
  else
    (nextAfter ExportJob.tenantID after (orders.sort.run compareCandidates candidates)).getD {}

/-! ## Section 2: Eligible jobs -/

/-- A running job whose owner is gone and whose work can be resumed. -/
structure Takeover (data : Control) (active : Dict String) (now : Time) (job : ExportJob) :
    Prop where
  stored : data.exports[job.id]? = some job
  unreserved : active[job.id]? = none
  running : job.status = "running" ∧ job.finishedAt = none
  resumable : (data.exportCheckpoints[job.id]?).isSome ∨ (data.exportPlans[job.id]?).isSome
  expired : ∃ lease, data.exportLeases[job.id]? = some lease ∧
    validExportLease job lease = true ∧ lease.expiresAt ≤ now
  capacity : countJobs isRunning data.exports ≤ exportConcurrency ∧
    countJobs (ofTenant job.tenantID isRunning) data.exports ≤ exportTenantConcurrency

/-- The reservations whose job is not running. -/
def reservedBeside (jobs : Dict ExportJob) (active : Dict String) : List (String × String) :=
  active.toList.filter fun entry => !((jobs[entry.1]?).any isRunning)

/-- Running jobs and other reservations. -/
def placesTaken (jobs : Dict ExportJob) (active : Dict String) : Nat :=
  countJobs isRunning jobs + (reservedBeside jobs active).length

/-- Those of one tenant. -/
def placesTakenBy (tenant : String) (jobs : Dict ExportJob) (active : Dict String) : Nat :=
  countJobs (ofTenant tenant isRunning) jobs +
    (reservedBeside jobs active).countP (fun entry => entry.2 = tenant)

/-- A pending job that nobody has reserved, of a tenant below its limit. -/
structure Waiting (jobs : Dict ExportJob) (active : Dict String) (job : ExportJob) : Prop where
  pending : job.status = "pending"
  unreserved : ∃ id : String, jobs[id]? = some job ∧ active[id]? = none
  below : placesTakenBy job.tenantID jobs active < exportTenantConcurrency

/-- A waiting job while a place is free. -/
def Startable (jobs : Dict ExportJob) (active : Dict String) (job : ExportJob) : Prop :=
  placesTaken jobs active < exportConcurrency ∧ Waiting jobs active job

/-- The oldest eligible job of the tenant whose turn it is. -/
structure ChosenInTurn (Eligible : ExportJob → Prop) (after : String) (job : ExportJob) :
    Prop where
  eligible : Eligible job
  turn : NextInTurn {t | ∃ other, Eligible other ∧ other.tenantID = t} after job.tenantID
  oldest : ∀ other, Eligible other → other.tenantID = job.tenantID →
    toLex (job.createdAt, job.id) ≤ toLex (other.createdAt, other.id)

/-- Every job is stored under its id. -/
def StoredByID (jobs : Dict ExportJob) : Prop :=
  ∀ {id : String} {job : ExportJob}, jobs[id]? = some job → job.id = id

/-! ## Section 3: Places -/

section Places

variable (orders : ScheduleOrders) (jobs : Dict ExportJob) (active : Dict String)

theorem mem_runningIDs (id : String) :
    id ∈ (runningEntries orders jobs).map Prod.fst ↔ (jobs[id]?).any isRunning = true := by
  simp only [runningEntries, List.mem_map, List.mem_filter, Prod.exists,
    orders.running.mem_entries, Option.any_eq_true]
  constructor
  · rintro ⟨_, job, ⟨hjob, hrunning⟩, rfl⟩
    exact ⟨job, hjob, hrunning⟩
  · rintro ⟨job, hjob, hrunning⟩
    exact ⟨id, job, ⟨hjob, hrunning⟩, rfl⟩

theorem reservedEntries_perm :
    (reservedEntries orders jobs active).Perm (reservedBeside jobs active) := by
  unfold reservedEntries reservedBeside
  have hsame : ∀ entry : String × String,
      decide (entry.1 ∉ (runningEntries orders jobs).map Prod.fst) =
        !((jobs[entry.1]?).any isRunning) := by
    intro entry
    rw [decide_not, Bool.not_inj_iff, Bool.eq_iff_iff, decide_eq_true_eq]
    exact mem_runningIDs orders jobs entry.1
  simp only [hsame]
  exact (orders.reserved.perm active).filter _

theorem takenPlaces_length : (takenPlaces orders jobs active).length = placesTaken jobs active := by
  unfold takenPlaces placesTaken runningEntries countJobs countValues
  rw [List.length_append, List.length_map, List.length_map, ← List.countP_eq_length_filter,
    (orders.running.perm jobs).countP_eq, (reservedEntries_perm orders jobs active).length_eq]

theorem takenPlaces_count (tenant : String) :
    (takenPlaces orders jobs active).count tenant = placesTakenBy tenant jobs active := by
  unfold takenPlaces placesTakenBy countJobs countValues
  rw [List.count_append, List.count_eq_countP, List.count_eq_countP, List.countP_map, List.countP_map,
    (reservedEntries_perm orders jobs active).countP_eq]
  congr 1
  · rw [runningEntries, List.countP_filter, (orders.running.perm jobs).countP_eq]
    apply List.countP_congr
    intro entry _
    simp [ofTenant, and_comm]

end Places

/-! ## Section 4: The pending path -/

theorem mem_offeredJobs {orders : ScheduleOrders} {jobs : Dict ExportJob}
    {active : Dict String} {job : ExportJob} :
    job ∈ offeredJobs orders jobs active ↔ Waiting jobs active job := by
  simp only [offeredJobs, List.mem_map, List.mem_filter, Prod.exists, exists_eq_right,
    orders.pending.mem_entries, decide_eq_true_eq, takenPlaces_count, Option.isNone_iff_eq_none]
  constructor
  · rintro ⟨key, hstored, hpending, hbelow, hunreserved⟩
    exact ⟨hpending, ⟨key, hstored, hunreserved⟩, hbelow⟩
  · rintro ⟨hpending, ⟨key, hstored, hunreserved⟩, hbelow⟩
    exact ⟨key, hstored, hpending, hbelow, hunreserved⟩

/-- Creation time and id. -/
def age (job : ExportJob) : Int ×ₗ String := toLex (job.createdAt, job.id)

theorem olderJob_eq (a b : ExportJob) : olderJob a b = decide (age a < age b) := by
  rw [Bool.eq_iff_iff, decide_eq_true_eq]
  unfold olderJob age
  rw [decide_eq_true_eq, Prod.Lex.toLex_lt_toLex]

section Pending

variable {orders : ScheduleOrders} {jobs : Dict ExportJob} {active : Dict String}
  {after : String}

theorem oldestByTenant_lookup (tenant : String) :
    (oldestByTenant orders jobs active)[tenant]? =
      bestOf olderJob ((offeredJobs orders jobs active).filter (·.tenantID = tenant)) := by
  unfold oldestByTenant bestOf
  rw [lookup_foldl_offer, lookup_empty]

theorem oldestByTenant_ok {tenant : String} {job : ExportJob}
    (h : (oldestByTenant orders jobs active)[tenant]? = some job) :
    Waiting jobs active job ∧ job.tenantID = tenant ∧
      ∀ other, Waiting jobs active other → other.tenantID = tenant → age job ≤ age other := by
  rw [oldestByTenant_lookup] at h
  obtain ⟨hmem, hleast⟩ := bestOf_least olderJob_eq h
  rw [List.mem_filter, mem_offeredJobs, decide_eq_true_eq] at hmem
  refine ⟨hmem.1, hmem.2, ?_⟩
  intro other hother htenant
  apply hleast
  rw [List.mem_filter, mem_offeredJobs, decide_eq_true_eq]
  exact ⟨hother, htenant⟩

theorem oldestByTenant_isSome {job : ExportJob} (h : Waiting jobs active job) :
    ∃ oldest, (oldestByTenant orders jobs active)[job.tenantID]? = some oldest := by
  rw [oldestByTenant_lookup]
  apply bestOf_isSome
  apply List.ne_nil_of_mem (a := job)
  rw [List.mem_filter, mem_offeredJobs, decide_eq_true_eq]
  exact ⟨h, rfl⟩

theorem mem_waitingTenants {tenant : String} :
    tenant ∈ (orders.tenants.entries (oldestByTenant orders jobs active)).map Prod.fst ↔
      ∃ job, Waiting jobs active job ∧ job.tenantID = tenant := by
  simp only [List.mem_map, Prod.exists, orders.tenants.mem_entries]
  constructor
  · rintro ⟨_, job, hjob, rfl⟩
    obtain ⟨hwaiting, htenant, -⟩ := oldestByTenant_ok hjob
    exact ⟨job, hwaiting, htenant⟩
  · rintro ⟨job, hwaiting, rfl⟩
    obtain ⟨oldest, holdest⟩ := oldestByTenant_isSome hwaiting
    exact ⟨_, oldest, holdest, rfl⟩

theorem nextExport_spec :
    ((∃ job, Startable jobs active job) →
        ChosenInTurn (Startable jobs active) after (nextExport orders jobs active after)) ∧
      ((¬∃ job, Startable jobs active job) → nextExport orders jobs active after = {}) := by
  unfold nextExport
  rw [takenPlaces_length]
  split_ifs with hfull
  · refine ⟨?_, fun _ => rfl⟩
    rintro ⟨job, hfree, -⟩
    omega
  · have hfree : placesTaken jobs active < exportConcurrency := by omega
    dsimp only
    have hperm := orders.sort.perm (fun a b => decide (a < b))
      ((orders.tenants.entries (oldestByTenant orders jobs active)).map Prod.fst)
    split
    · next hnone =>
      refine ⟨?_, fun _ => rfl⟩
      rintro ⟨job, -, hwaiting⟩
      obtain ⟨tenant, htenant⟩ := nextAfter_isSome id after
        (List.ne_nil_of_mem (hperm.mem_iff.2 (mem_waitingTenants.2 ⟨job, hwaiting, rfl⟩)))
      rw [hnone] at htenant
      cases htenant
    · next tenant htenant =>
      have hsorted := (orders.sort.sorted (fun t : String => t)
        ((orders.tenants.entries (oldestByTenant orders jobs active)).map Prod.fst)).imp
        (fun {a b} hle => hle.lt_or_eq.imp_right fun heq => And.intro heq (le_refl ()))
      obtain ⟨hmem, hturn, -⟩ := nextAfter_spec hsorted htenant
      obtain ⟨waiting, hwaiting, rfl⟩ := mem_waitingTenants.1 (hperm.mem_iff.1 hmem)
      obtain ⟨oldest, holdest⟩ := @oldestByTenant_isSome orders _ _ _ hwaiting
      obtain ⟨hchosen, hsame, hleast⟩ := oldestByTenant_ok holdest
      refine ⟨fun _ => ?_, fun hnone => absurd ⟨waiting, hfree, hwaiting⟩ hnone⟩
      rw [holdest, Option.getD_some]
      refine ⟨⟨hfree, hchosen⟩, ?_, fun other hother heq => hleast other hother.2
        (heq.trans hsame)⟩
      rw [hsame]
      have htenants : {t | ∃ other, Startable jobs active other ∧ other.tenantID = t} =
          {t | ∃ y ∈ orders.sort.run (fun a b => decide (a < b))
            ((orders.tenants.entries (oldestByTenant orders jobs active)).map Prod.fst),
              id y = t} := by
        ext t
        simp only [Set.mem_ofPred_eq, id_eq, exists_eq_right, hperm.mem_iff, mem_waitingTenants]
        exact exists_congr fun other => and_congr_left fun _ => and_iff_right hfree
      rw [htenants]
      exact hturn

end Pending

/-! ## Section 5: The takeover path -/

/-- Tenant, creation time and id. -/
def candidateRank (job : ExportJob) : String ×ₗ (Int ×ₗ String) := toLex (job.tenantID, age job)

theorem compareCandidates_eq :
    compareCandidates = fun a b => decide (candidateRank a < candidateRank b) := by
  funext a b
  rw [Bool.eq_iff_iff, decide_eq_true_eq]
  unfold compareCandidates candidateRank age
  rw [Prod.Lex.toLex_lt_toLex, Prod.Lex.toLex_lt_toLex]
  split_ifs with htenant htime
  · simp [htenant]
  · simp [not_not.1 htenant, htime]
  · simp [not_not.1 htenant, not_not.1 htime]

section Takeovers

variable {orders : ScheduleOrders} {data : Control} {active : Dict String} {after : String}
  {now : Time}

theorem validExportLease_zero (job : ExportJob) : validExportLease job {} = false := by
  unfold validExportLease
  simp

theorem canTakeOver_iff {id : String} {job : ExportJob} (hstored : data.exports[id]? = some job) :
    canTakeOver data active now id job = true ↔ job.id = id ∧ Takeover data active now job := by
  unfold canTakeOver exportCheckpointHasCapacity
  simp only [decide_eq_true_eq, Option.isNone_iff_eq_none]
  constructor
  · rintro ⟨hresumable, hunreserved, rfl, hstatus, hfinished, hvalid, hexpired, hcapacity⟩
    refine ⟨rfl, hstored, hunreserved, ⟨hstatus, hfinished⟩, hresumable, ?_, hcapacity⟩
    cases hlease : data.exportLeases[job.id]? with
    | none =>
      rw [hlease, Option.getD_none, validExportLease_zero] at hvalid
      cases hvalid
    | some lease =>
      rw [hlease, Option.getD_some] at hvalid hexpired
      exact ⟨lease, rfl, hvalid, hexpired⟩
  · rintro ⟨rfl, h⟩
    obtain ⟨lease, hlease, hvalid, hexpired⟩ := h.expired
    refine ⟨h.resumable, h.unreserved, rfl, h.running.1, h.running.2, ?_, ?_, h.capacity⟩
    · rw [hlease]
      exact hvalid
    · rw [hlease]
      exact hexpired

theorem mem_takeoverCandidates {job : ExportJob} :
    job ∈ takeoverCandidates orders data active now ↔ Takeover data active now job := by
  simp only [takeoverCandidates, List.mem_map, List.mem_filter, Prod.exists, exists_eq_right,
    orders.takeovers.mem_entries]
  constructor
  · rintro ⟨id, hstored, hcan⟩
    exact ((canTakeOver_iff hstored).1 hcan).2
  · intro h
    exact ⟨job.id, h.stored, (canTakeOver_iff h.stored).2 ⟨rfl, h⟩⟩

theorem takeover_spec {job : ExportJob}
    (h : nextAfter ExportJob.tenantID after
      (orders.sort.run compareCandidates (takeoverCandidates orders data active now)) = some job) :
    ChosenInTurn (Takeover data active now) after job := by
  have hperm := orders.sort.perm compareCandidates (takeoverCandidates orders data active now)
  have hsorted : (orders.sort.run compareCandidates
      (takeoverCandidates orders data active now)).Pairwise
        (fun a b => a.tenantID < b.tenantID ∨ (a.tenantID = b.tenantID ∧ age a ≤ age b)) := by
    rw [compareCandidates_eq]
    apply (orders.sort.sorted candidateRank _).imp
    intro a b hle
    exact Prod.Lex.toLex_le_toLex.1 hle
  obtain ⟨hmem, hturn, holdest⟩ := nextAfter_spec hsorted h
  have hin : ∀ {other : ExportJob}, other ∈ orders.sort.run compareCandidates
      (takeoverCandidates orders data active now) ↔ Takeover data active now other :=
    hperm.mem_iff.trans mem_takeoverCandidates
  simp only [hin] at hmem hturn holdest
  exact ⟨hmem, hturn, holdest⟩

end Takeovers

/-! ## Section 6: The choice -/

theorem ChosenInTurn.same {Eligible : ExportJob → Prop} {after : String} {a b : ExportJob}
    (ha : ChosenInTurn Eligible after a) (hb : ChosenInTurn Eligible after b) :
    a.tenantID = b.tenantID ∧ a.createdAt = b.createdAt ∧ a.id = b.id := by
  have htenant := ha.turn.unique hb.turn
  have hage : age a = age b := le_antisymm (ha.oldest b hb.eligible htenant.symm)
    (hb.oldest a ha.eligible htenant)
  obtain ⟨hcreated, hid⟩ := Prod.mk.inj (toLex_inj.1 hage)
  exact ⟨htenant, hcreated, hid⟩

theorem Startable.stored {jobs : Dict ExportJob} {active : Dict String} {job : ExportJob}
    (h : Startable jobs active job) (hids : StoredByID jobs) : jobs[job.id]? = some job := by
  obtain ⟨id, hstored, -⟩ := h.2.unreserved
  rw [hids hstored]
  exact hstored

theorem nextRunnableExport_spec (orders : ScheduleOrders) (data : Control)
    (active : Dict String) (after : String) (now : Time) :
    ((∃ job, Takeover data active now job) →
        ChosenInTurn (Takeover data active now) after
          (nextRunnableExport orders data active after now)) ∧
      ((¬∃ job, Takeover data active now job) →
        nextRunnableExport orders data active after now =
          nextExport orders data.exports active after) := by
  unfold nextRunnableExport
  dsimp only
  split_ifs with hempty
  · refine ⟨?_, fun _ => rfl⟩
    rintro ⟨job, hjob⟩
    have hmem := (@mem_takeoverCandidates orders _ _ _ _).2 hjob
    rw [hempty] at hmem
    cases hmem
  · obtain ⟨first, rest, hcandidates⟩ := List.exists_cons_of_ne_nil hempty
    have hfirst : Takeover data active now first :=
      mem_takeoverCandidates.1 (hcandidates ▸ List.mem_cons_self)
    refine ⟨fun _ => ?_, fun hnone => absurd ⟨first, hfirst⟩ hnone⟩
    have hne : orders.sort.run compareCandidates (takeoverCandidates orders data active now) ≠ [] :=
      fun hnil => hempty (hnil ▸ orders.sort.perm compareCandidates
        (takeoverCandidates orders data active now)).nil_eq.symm
    obtain ⟨job, hjob⟩ := nextAfter_isSome ExportJob.tenantID after hne
    rw [hjob]
    exact takeover_spec hjob

/-- Which export runs next. A takeover comes first and a pending job after it,
    each the oldest of the tenant whose turn it is; the empty job is returned
    exactly when none is eligible; and no order of a loop shows. -/
theorem export_choice_exact (orders : ScheduleOrders) (data : Control) (active : Dict String)
    (after : String) (now : Time) :
    ((∃ job, Takeover data active now job) →
        ChosenInTurn (Takeover data active now) after
          (nextRunnableExport orders data active after now)) ∧
      ((¬∃ job, Takeover data active now job) → (∃ job, Startable data.exports active job) →
        ChosenInTurn (Startable data.exports active) after
          (nextRunnableExport orders data active after now)) ∧
      (nextRunnableExport orders data active after now = {} ↔
        ¬(∃ job, Takeover data active now job) ∧ ¬∃ job, Startable data.exports active job) ∧
      ∀ orders' : ScheduleOrders,
        (nextRunnableExport orders' data active after now).id =
            (nextRunnableExport orders data active after now).id ∧
          (StoredByID data.exports → nextRunnableExport orders' data active after now =
            nextRunnableExport orders data active after now) := by
  have hspec := fun orders => nextRunnableExport_spec orders data active after now
  have hpending := fun orders => @nextExport_spec orders data.exports active after
  refine ⟨(hspec orders).1, ?_, ?_, ?_⟩
  · intro hnone hsome
    rw [(hspec orders).2 hnone]
    exact (hpending orders).1 hsome
  · constructor
    · -- An eligible job has a status, the empty job has none.
      intro hempty
      refine ⟨fun htakeover => ?_, fun hstart => ?_⟩
      · have hchosen := ((hspec orders).1 htakeover).eligible.running.1
        rw [hempty] at hchosen
        exact absurd hchosen (by decide)
      · by_cases htakeover : ∃ job, Takeover data active now job
        · have hchosen := ((hspec orders).1 htakeover).eligible.running.1
          rw [hempty] at hchosen
          exact absurd hchosen (by decide)
        · have hchosen := ((hpending orders).1 hstart).eligible.2.pending
          rw [← (hspec orders).2 htakeover, hempty] at hchosen
          exact absurd hchosen (by decide)
    · rintro ⟨hnone, hnone'⟩
      rw [(hspec orders).2 hnone]
      exact (hpending orders).2 hnone'
  · intro orders'
    by_cases htakeover : ∃ job, Takeover data active now job
    · have hchosen := (hspec orders).1 htakeover
      have hchosen' := (hspec orders').1 htakeover
      have hid := (hchosen'.same hchosen).2.2
      refine ⟨hid, fun _ => ?_⟩
      have hstored := hchosen'.eligible.stored
      rw [hid, hchosen.eligible.stored] at hstored
      exact (Option.some.inj hstored).symm
    · rw [(hspec orders).2 htakeover, (hspec orders').2 htakeover]
      by_cases hstart : ∃ job, Startable data.exports active job
      · have hchosen := (hpending orders).1 hstart
        have hchosen' := (hpending orders').1 hstart
        have hid := (hchosen'.same hchosen).2.2
        refine ⟨hid, fun hids => ?_⟩
        have hstored := hchosen'.eligible.stored hids
        rw [hid, hchosen.eligible.stored hids] at hstored
        exact (Option.some.inj hstored).symm
      · rw [(hpending orders).2 hstart, (hpending orders').2 hstart]
        exact ⟨rfl, fun _ => rfl⟩

end Export

end AuditGovernance
