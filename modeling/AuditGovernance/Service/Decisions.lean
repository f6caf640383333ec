import AuditGovernance.Framework.Evolution
import AuditGovernance.Service.Schemas
import AuditGovernance.Store.ControlReplicas

/-! # Decisions: restore approvals and legal holds

    `internal/service/restore.go` and `internal/service/hold.go`. A restore
    run is requested by one actor and approved or rejected by another; a legal
    hold is placed and, at most once, released. Every write goes through
    `UpdateControl`, whose closure is run again on a fresh document after a
    lost race, so the rules are stated of the replicas of
    `Store/ControlReplicas` in any interleaving.

    - Section 1 and 2: the closures.
    - Section 3: what a well-formed document says about its decisions, and
      how runs and holds may evolve.
    - Section 4: one call; Section 5: whole runs of the replicas.
-/

namespace AuditGovernance

open FiniteMap Transition

namespace Decisions

/-! ## Section 1: Restore runs -/

def pendingApproval : String := "pending_approval"

def approved : String := "approved"

def rejected : String := "rejected"

def restoreApproved : String := "restore.approved"

def restoreRejected : String := "restore.rejected"

/-- What a writing call brings along besides its arguments: the bound on the
    admin actions, and the id and time `adminAction` draws. -/
structure Stamp where
  maxAdminActions : Nat := 0
  actionID : String := ""
  actionAt : Time := 0

/-- `adminAction`. -/
def adminAction (stamp : Stamp) (tenantID actor action targetType targetID detail : String) :
    AdminAction :=
  { id := stamp.actionID, tenantID := tenantID, actor := actor, action := action
    targetType := targetType, targetID := targetID, detail := detail
    createdAt := stamp.actionAt }

/-- Store a run, with the action that records why. -/
def putRun (stamp : Stamp) (id : String) (run : RestoreRun) (action : AdminAction)
    (control : Control) : Control :=
  ({ control with restoreRuns := control.restoreRuns.insert id run }).appendAdminAction
    stamp.maxAdminActions action

/-- A `CreateRestore` call, with the id it draws and what the replay of its
    operation answers. -/
structure RestoreRequest where
  tenantID : String
  operationID : String
  reason : String
  requestedBy : String
  id : String
  now : Time
  replay : Except Err Unit

def RestoreRequest.run (r : RestoreRequest) : RestoreRun :=
  { id := r.id, tenantID := r.tenantID, operationID := r.operationID, status := pendingApproval
    reason := r.reason, createdBy := r.requestedBy, createdAt := r.now }

/-- `CreateRestore`. -/
def createRestore (stamp : Stamp) (r : RestoreRequest) (control : Control) :
    Except Err Control :=
  match checkAll
    [requireTenantScope r.tenantID,
      require (r.operationID ≠ "" ∧ r.reason ≠ "")
        (.invalid "operation_id and reason are required"),
      r.replay] with
  | .error err => .error err
  | .ok () =>
    .ok (putRun stamp r.id r.run
      (adminAction stamp r.tenantID r.requestedBy "restore.created" "restore" r.id r.operationID)
      control)

/-- The run `transitionRestore` stores. -/
def decided (run : RestoreRun) (actor target : String) (now : Time) : RestoreRun :=
  if target = approved then
    { run with status := approved, approvedBy := actor, approvedAt := some now }
  else { run with status := rejected, rejectedBy := actor, rejectedAt := some now }

/-- `transitionRestore`; `ApproveRestore` and `RejectRestore` are its two targets. -/
def transitionRestore (stamp : Stamp) (tenantID runID actor target : String) (now : Time)
    (control : Control) : Except Err Control :=
  match requireTenantScope tenantID with
  | .error err => .error err
  | .ok () =>
    match control.restoreRuns[runID]? with
    | none => .error (.notFound "")
    | some run =>
      match checkAll
        [require (run.tenantID = tenantID) (.notFound ""),
          require (run.status = pendingApproval)
            (.conflict "restore run is not pending approval"),
          -- Separation of duties.
          require (run.createdBy ≠ actor) (.forbidden "")] with
      | .error err => .error err
      | .ok () =>
        .ok (putRun stamp runID (decided run actor target now)
          (adminAction stamp run.tenantID actor
            (if target = approved then restoreApproved else restoreRejected) "restore" runID
            run.operationID) control)

/-! ## Section 2: Legal holds -/

/-- Store a hold, with the action that records why. -/
def putHold (stamp : Stamp) (id : String) (hold : LegalHold) (action : AdminAction)
    (control : Control) : Control :=
  ({ control with legalHolds := control.legalHolds.insert id hold }).appendAdminAction
    stamp.maxAdminActions action

/-- The checks `CreateLegalHold` makes before it writes. -/
def validateHold (hold : LegalHold) : Except Err Unit :=
  checkAll
    [requireTenantScope hold.tenantID,
      require (hold.tenantID ≠ "" ∧ hold.name ≠ "" ∧ hold.reason ≠ "")
        (.invalid "tenant_id, name and reason are required"),
      require ((hold.filter.from_ = 0 ∧ hold.filter.to_ = 0) ∨
          (hold.filter.from_ ≠ 0 ∧ hold.filter.to_ ≠ 0 ∧ hold.filter.from_ < hold.filter.to_))
        (.invalid "legal hold filter requires from before to"),
      require ((hold.filter.payloadField = "") = (hold.filter.payloadDigest = ""))
        (.invalid "payload_field and payload_digest must be provided together")]

/-- The hold `CreateLegalHold` stores: a missing id and a missing time are filled in. -/
def stampedHold (hold : LegalHold) (newID : String) (now : Time) : LegalHold :=
  { hold with
    id := if hold.id = "" then newID else hold.id
    createdAt := if hold.createdAt = 0 then now else hold.createdAt }

/-- `CreateLegalHold`. -/
def createLegalHold (stamp : Stamp) (hold : LegalHold) (newID : String) (now : Time)
    (control : Control) : Except Err Control :=
  let stored := stampedHold hold newID now
  match checkAll
    [validateHold hold,
      require (control.tenants[stored.tenantID]?).isSome (.notFound ""),
      require (control.legalHolds[stored.id]?).isNone (.conflict "legal hold already exists")] with
  | .error err => .error err
  | .ok () =>
    .ok (putHold stamp stored.id stored
      (adminAction stamp stored.tenantID stored.createdBy "legal_hold.created" "legal_hold"
        stored.id stored.reason) control)

/-- `ReleaseLegalHold`. A hold that is already released is answered from the
    document without a save; here that is the document itself. -/
def releaseLegalHold (stamp : Stamp) (tenantID holdID releasedBy : String) (now : Time)
    (control : Control) : Except Err Control :=
  match requireTenantScope tenantID with
  | .error err => .error err
  | .ok () =>
    match control.legalHolds[holdID]? with
    | none => .error (.notFound "")
    | some hold =>
      if hold.tenantID ≠ tenantID then .error (.notFound "")
      else if hold.releasedAt.isSome then .ok control
      else
        .ok (putHold stamp holdID { hold with releasedAt := some now, releasedBy := releasedBy }
          (adminAction stamp hold.tenantID releasedBy "legal_hold.released" "legal_hold" holdID "")
          control)

/-! ## Section 3: What documents say about decisions -/

/-- The request part of a run, which no decision touches. -/
def request (run : RestoreRun) : RestoreRun :=
  { run with status := "", approvedBy := "", approvedAt := none, rejectedBy := ""
             rejectedAt := none }

/-- A run awaits its decision, or carries exactly one, by another actor. -/
inductive Standing (run : RestoreRun) : Prop
  | pending (status : run.status = pendingApproval)
      (unapproved : run.approvedBy = "" ∧ run.approvedAt = none)
      (unrejected : run.rejectedBy = "" ∧ run.rejectedAt = none)
  | approved (status : run.status = approved) (other : run.approvedBy ≠ run.createdBy)
      (dated : run.approvedAt.isSome) (unrejected : run.rejectedBy = "" ∧ run.rejectedAt = none)
  | rejected (status : run.status = rejected) (other : run.rejectedBy ≠ run.createdBy)
      (dated : run.rejectedAt.isSome) (unapproved : run.approvedBy = "" ∧ run.approvedAt = none)

/-- The admin actions that record a decision on run `id`. -/
def verdicts (id : String) (actions : List AdminAction) : List AdminAction :=
  actions.filter (fun a => a.targetType = "restore" ∧ a.targetID = id ∧
    (a.action = restoreApproved ∨ a.action = restoreRejected))

/-- The run carries the decision this action records. -/
def Records (a : AdminAction) (run : RestoreRun) : Prop :=
  (a.action = restoreApproved ∧ run.status = approved ∧ run.approvedBy = a.actor) ∨
    (a.action = restoreRejected ∧ run.status = rejected ∧ run.rejectedBy = a.actor)

/-- Every run stands, and the trail has at most one verdict on it, the one it
    carries. -/
structure WellFormed (control : Control) : Prop where
  standing : ∀ (id : String) (run : RestoreRun), control.restoreRuns[id]? = some run → Standing run
  single : ∀ id, (verdicts id control.adminActions).length ≤ 1
  recorded : ∀ id, ∀ a ∈ verdicts id control.adminActions,
    ∃ run, control.restoreRuns[id]? = some run ∧ Records a run

/-- A run is final once it is decided. -/
def Decided (run : RestoreRun) : Prop := run.status ≠ pendingApproval

/-- What a hold pins, which its release does not touch. -/
def pinned (hold : LegalHold) : LegalHold := { hold with releasedAt := none, releasedBy := "" }

/-- A hold is final once it is released. -/
def Released (hold : LegalHold) : Prop := hold.releasedAt.isSome

/-- No run and no hold is lost, and decisions stand. -/
structure Stands (control control' : Control) : Prop where
  runs : Evolves request Decided control.restoreRuns control'.restoreRuns
  holds : Evolves pinned Released control.legalHolds control'.legalHolds

theorem Stands.trans {a b c : Control} (h : Stands a b) (h' : Stands b c) : Stands a c :=
  ⟨h.runs.trans h'.runs, h.holds.trans h'.holds⟩

/-! ## Section 4: One call -/

/-- A call that has nothing to do with decisions: it leaves runs and holds as
    they are, and records no verdict. -/
def Unrelated (call : ControlCall) : Prop :=
  ∀ db control control', call.result db control = some control' →
    control'.restoreRuns = control.restoreRuns ∧ control'.legalHolds = control.legalHolds ∧
      ∀ id, (verdicts id control'.adminActions).Sublist (verdicts id control.adminActions)

/-- A control-plane call, with the arguments of those that decide. -/
inductive Call where
  | createRestore (stamp : Stamp) (request : RestoreRequest)
  | transitionRestore (stamp : Stamp) (tenantID runID actor target : String) (now : Time)
  | createLegalHold (stamp : Stamp) (hold : LegalHold) (newID : String) (now : Time)
  | releaseLegalHold (stamp : Stamp) (tenantID holdID releasedBy : String) (now : Time)
  | other (call : ControlCall) (unrelated : Unrelated call)

/-- The call as the store sees it. -/
def Call.control : Call → ControlCall
  | .createRestore stamp request => .control (Decisions.createRestore stamp request)
  | .transitionRestore stamp tenantID runID actor target now =>
    .control (Decisions.transitionRestore stamp tenantID runID actor target now)
  | .createLegalHold stamp hold newID now =>
    .control (Decisions.createLegalHold stamp hold newID now)
  | .releaseLegalHold stamp tenantID holdID releasedBy now =>
    .control (Decisions.releaseLegalHold stamp tenantID holdID releasedBy now)
  | .other call _ => call

/-- The id a call draws for a new run. -/
def Call.drawn : Call → List String
  | .createRestore _ request => [request.id]
  | _ => []

/-- Appending an action can drop old verdicts and adds at most its own. -/
theorem verdicts_append (control : Control) (cap : Nat) (a : AdminAction) (id : String) :
    (verdicts id (control.appendAdminAction cap a).adminActions).Sublist
      (verdicts id control.adminActions ++ verdicts id [a]) := by
  unfold verdicts
  rw [← List.filter_append]
  apply List.Sublist.filter
  unfold Control.appendAdminAction
  simp only
  split
  · exact List.drop_sublist _ _
  · exact List.Sublist.refl _

/-- An action on something else adds no verdict on `id`. -/
theorem verdicts_append_other (control : Control) (cap : Nat) {a : AdminAction} {id : String}
    (h : a.targetType ≠ "restore" ∨ a.targetID ≠ id) :
    (verdicts id (control.appendAdminAction cap a).adminActions).Sublist
      (verdicts id control.adminActions) := by
  have hnone : verdicts id [a] = [] := by
    unfold verdicts
    rw [List.filter_eq_nil_iff]
    intro b hb
    rw [List.mem_singleton.mp hb]
    simp only [decide_eq_true_eq]
    tauto
  have hsub := verdicts_append control cap a id
  rwa [hnone, List.append_nil] at hsub

section Steps

variable {control control' : Control} {stamp : Stamp}

/-- What a call of this kind must show: the document stays well formed, what
    was decided stands, and new runs have the ids the call drew. -/
structure Sound (drawn : List String) (control control' : Control) : Prop where
  wellFormed : WellFormed control'
  stands : Stands control control'
  drawn : ∀ id : String, control'.restoreRuns[id]? ≠ none →
    control.restoreRuns[id]? ≠ none ∨ id ∈ drawn

/-- A call that leaves the runs alone and records no verdict. -/
theorem sound_of_sameRuns (hwf : WellFormed control)
    (hruns : control'.restoreRuns = control.restoreRuns)
    (hholds : Evolves pinned Released control.legalHolds control'.legalHolds)
    (hverdicts : ∀ id, (verdicts id control'.adminActions).Sublist
      (verdicts id control.adminActions)) :
    Sound [] control control' where
  wellFormed :=
    { standing := by
        rw [hruns]
        exact hwf.standing
      single := fun id => (hverdicts id).length_le.trans (hwf.single id)
      recorded := by
        intro id a ha
        rw [hruns]
        exact hwf.recorded id a ((hverdicts id).subset ha) }
  stands := ⟨by rw [hruns]; exact .refl _, hholds⟩
  drawn := by
    intro id hid
    rw [hruns] at hid
    exact .inl hid

/-- A run that stands is stored where no verdict has been recorded yet. -/
theorem putRun_sound {drawn : List String} {id : String} {run : RestoreRun} {action : AdminAction}
    (hwf : WellFormed control) (hstanding : Standing run)
    (hevolves : ∀ old, control.restoreRuns[id]? = some old → Settles request Decided old run)
    (hdrawn : control.restoreRuns[id]? = none → id ∈ drawn) (htarget : action.targetID = id)
    (hnone : verdicts id control.adminActions = [])
    (hrecords : ∀ a ∈ verdicts id [action], Records a run) :
    Sound drawn control (putRun stamp id run action control) := by
  -- Nothing was recorded on `id`, so the trail has at most this action on it.
  have hown : (verdicts id (putRun stamp id run action control).adminActions).Sublist
      (verdicts id [action]) := by
    have hsub := verdicts_append { control with restoreRuns := control.restoreRuns.insert id run }
      stamp.maxAdminActions action id
    simp only [hnone, List.nil_append] at hsub
    exact hsub
  have hother (k : String) (hne : id ≠ k) :
      (verdicts k (putRun stamp id run action control).adminActions).Sublist
        (verdicts k control.adminActions) :=
    verdicts_append_other { control with restoreRuns := control.restoreRuns.insert id run }
      stamp.maxAdminActions (.inr (by rw [htarget]; exact hne))
  have hlookup (k : String) : (putRun stamp id run action control).restoreRuns[k]? =
      if id = k then some run else control.restoreRuns[k]? := lookup_insert _ _ _ _
  refine ⟨⟨fun k run' hrun' => ?_, fun k => ?_, fun k a ha => ?_⟩,
    ⟨.insert hevolves, .refl _⟩, fun k hk => ?_⟩
  · rw [hlookup] at hrun'
    split at hrun'
    next =>
      cases hrun'
      exact hstanding
    next => exact hwf.standing k run' hrun'
  · by_cases he : id = k
    · subst he
      exact hown.length_le.trans (List.length_filter_le _ _)
    · exact (hother k he).length_le.trans (hwf.single k)
  · rw [hlookup]
    by_cases he : id = k
    · subst he
      exact ⟨run, if_pos rfl, hrecords a (hown.subset ha)⟩
    · rw [if_neg he]
      exact hwf.recorded k a ((hother k he).subset ha)
  · rw [hlookup] at hk
    by_cases he : id = k
    · subst he
      by_cases hold : control.restoreRuns[id]? = none
      · exact .inr (hdrawn hold)
      · exact .inl hold
    · rw [if_neg he] at hk
      exact .inl hk

/-- A run with a fresh id joins as pending. -/
theorem createRestore_sound {r : RestoreRequest} (hwf : WellFormed control)
    (hfresh : control.restoreRuns[r.id]? = none)
    (h : createRestore stamp r control = .ok control') : Sound [r.id] control control' := by
  unfold createRestore at h
  split at h
  next => cases h
  next =>
    cases h
    refine putRun_sound hwf (.pending rfl ⟨rfl, rfl⟩ ⟨rfl, rfl⟩) (fun old hold => ?_)
      (fun _ => List.mem_singleton.mpr rfl) rfl ?_ (fun a ha => ?_)
    · cases hfresh.symm.trans hold
    · rw [List.eq_nil_iff_forall_not_mem]
      intro a ha
      obtain ⟨run, hrun, -⟩ := hwf.recorded r.id a ha
      cases hfresh.symm.trans hrun
    · -- A creation is no verdict.
      obtain ⟨hmem, hverdict⟩ := List.mem_filter.mp ha
      rw [List.mem_singleton.mp hmem] at hverdict
      have hfalse := (of_decide_eq_true hverdict).2.2
      exact absurd hfalse (show ¬ ("restore.created" = restoreApproved ∨
        "restore.created" = restoreRejected) by decide)

/-- The decided run stands, and it is an evolution of the pending one. -/
theorem decided_standing {run : RestoreRun} {actor : String} (target : String) (now : Time)
    (h : Standing run) (hpending : run.status = pendingApproval) (hother : run.createdBy ≠ actor) :
    Standing (decided run actor target now) ∧
      Settles request Decided run (decided run actor target now) := by
  -- Only the first standing has the pending status.
  have hclear : (run.approvedBy = "" ∧ run.approvedAt = none) ∧
      (run.rejectedBy = "" ∧ run.rejectedAt = none) := by
    cases h with
    | pending _ hun hunr => exact ⟨hun, hunr⟩
    | approved hs => exact absurd (hs.symm.trans hpending) (by decide)
    | rejected hs => exact absurd (hs.symm.trans hpending) (by decide)
  have hfinal (run' : RestoreRun) (hdecided : Decided run) : run' = run :=
    absurd hpending hdecided
  unfold decided
  split
  · exact ⟨.approved rfl hother.symm rfl hclear.2, rfl, hfinal _⟩
  · exact ⟨.rejected rfl hother.symm rfl hclear.1, rfl, hfinal _⟩

theorem transitionRestore_sound {tenantID runID actor target : String} {now : Time}
    (hwf : WellFormed control)
    (h : transitionRestore stamp tenantID runID actor target now control = .ok control') :
    Sound [] control control' := by
  unfold transitionRestore at h
  split at h
  next => cases h
  next =>
  split at h
  next => cases h
  next run hrun =>
  split at h
  next => cases h
  next hchecks =>
  simp only [checkAll_ok, List.mem_cons, List.not_mem_nil, or_false, forall_eq_or_imp, forall_eq,
    require_ok, decide_eq_true_eq] at hchecks
  -- The closure saw a pending run that another actor requested.
  obtain ⟨-, hpending, hother⟩ := hchecks
  obtain ⟨hstanding, hevolves⟩ :=
    decided_standing target now (hwf.standing runID run hrun) hpending hother
  cases h
  refine putRun_sound hwf hstanding (fun old hold => ?_) (fun hnone => ?_) rfl ?_ (fun a ha => ?_)
  · cases hrun.symm.trans hold
    exact hevolves
  · cases hrun.symm.trans hnone
  · -- The pending run has no verdict yet.
    rw [List.eq_nil_iff_forall_not_mem]
    intro a ha
    obtain ⟨run', hrun', hrec⟩ := hwf.recorded runID a ha
    cases hrun.symm.trans hrun'
    rcases hrec with ⟨-, hs, -⟩ | ⟨-, hs, -⟩
    · exact absurd (hs.symm.trans hpending) (by decide)
    · exact absurd (hs.symm.trans hpending) (by decide)
  · rw [List.mem_singleton.mp (List.mem_of_mem_filter ha)]
    unfold decided
    split
    · exact .inl ⟨rfl, rfl, rfl⟩
    · exact .inr ⟨rfl, rfl, rfl⟩

/-- Storing a hold is no business of the runs. -/
theorem putHold_sound {id : String} {hold : LegalHold} {action : AdminAction}
    (hwf : WellFormed control) (htarget : action.targetType = "legal_hold")
    (hevolves : ∀ old, control.legalHolds[id]? = some old → Settles pinned Released old hold) :
    Sound [] control (putHold stamp id hold action control) :=
  sound_of_sameRuns hwf rfl (.insert hevolves) fun _ =>
    verdicts_append_other { control with legalHolds := control.legalHolds.insert id hold }
      stamp.maxAdminActions (.inl (by rw [htarget]; decide))

theorem createLegalHold_sound {hold : LegalHold} {newID : String} {now : Time}
    (hwf : WellFormed control)
    (h : createLegalHold stamp hold newID now control = .ok control') :
    Sound [] control control' := by
  unfold createLegalHold at h
  simp only at h
  split at h
  next => cases h
  next hchecks =>
  simp only [checkAll_ok, List.mem_cons, List.not_mem_nil, or_false, forall_eq_or_imp, forall_eq,
    require_ok, Option.isNone_iff_eq_none] at hchecks
  cases h
  -- No hold is replaced: the id was unused.
  refine putHold_sound hwf rfl (fun old hold => ?_)
  cases hchecks.2.2.symm.trans hold

theorem releaseLegalHold_sound {tenantID holdID releasedBy : String} {now : Time}
    (hwf : WellFormed control)
    (h : releaseLegalHold stamp tenantID holdID releasedBy now control = .ok control') :
    Sound [] control control' := by
  unfold releaseLegalHold at h
  split at h
  next => cases h
  next =>
  split at h
  next => cases h
  next hold hhold =>
  split at h
  next => cases h
  next =>
  split at h
  next =>
    -- The first release wins: a later one leaves the document as it is.
    cases h
    exact sound_of_sameRuns hwf rfl (.refl _) (fun _ => .refl _)
  next hunreleased =>
    cases h
    refine putHold_sound hwf rfl (fun old hold => ?_)
    cases hhold.symm.trans hold
    exact ⟨rfl, fun hreleased => absurd hreleased hunreleased⟩

/-- **Step lemma.** -/
theorem call_sound (db : Postgres) (call : Call) (hwf : WellFormed control)
    (hfresh : ∀ id ∈ call.drawn, control.restoreRuns[id]? = none)
    (h : call.control.result db control = some control') :
    Sound call.drawn control control' := by
  have hok {fn : Control → Except Err Control}
      (hfn : (ControlCall.control fn).result db control = some control') :
      fn control = .ok control' := by
    change (fn control).toOption = some control' at hfn
    cases hr : fn control with
    | error err => rw [hr] at hfn; cases hfn
    | ok c => rw [hr] at hfn; cases hfn; rfl
  cases call with
  | createRestore stamp r =>
    exact createRestore_sound hwf (hfresh r.id (List.mem_singleton.mpr rfl)) (hok h)
  | transitionRestore stamp tenantID runID actor target now =>
    exact transitionRestore_sound hwf (hok h)
  | createLegalHold stamp hold newID now => exact createLegalHold_sound hwf (hok h)
  | releaseLegalHold stamp tenantID holdID releasedBy now =>
    exact releaseLegalHold_sound hwf (hok h)
  | other c hunrelated =>
    obtain ⟨hruns, hholds, hverdicts⟩ := hunrelated db control control' h
    exact sound_of_sameRuns hwf hruns (by rw [hholds]; exact .refl _) hverdicts

end Steps

/-! ## Section 5: Replicas -/

/-- The ids the calls draw are new to the document and to one another. -/
def Fresh (control : Control) (calls : List Call) : Prop :=
  (calls.flatMap Call.drawn).Nodup ∧
    ∀ id ∈ calls.flatMap Call.drawn, control.restoreRuns[id]? = none

theorem Fresh.first {control : Control} {before after : List Call}
    (h : Fresh control (before ++ after)) : Fresh control before := by
  obtain ⟨hnodup, hnew⟩ := h
  rw [List.flatMap_append] at hnodup hnew
  exact ⟨(List.nodup_append.mp hnodup).1, fun id hid => hnew id (List.mem_append_left _ hid)⟩

/-- The ids drawn later are still unused after the first calls. -/
theorem Fresh.later {control mid : Control} (before : List Call) {after : List Call}
    (h : Fresh control (before ++ after))
    (hfirst : Sound (before.flatMap Call.drawn) control mid) : Fresh mid after := by
  obtain ⟨hnodup, hnew⟩ := h
  rw [List.flatMap_append] at hnodup hnew
  refine ⟨(List.nodup_append.mp hnodup).2.1, fun id hid => ?_⟩
  by_contra hused
  rcases hfirst.drawn id hused with hold | hdrawn
  · exact hold (hnew id (List.mem_append_right _ hid))
  · exact (List.nodup_append.mp hnodup).2.2 id hdrawn id hid rfl

/-- **Run lemma.** Calls one after another. -/
theorem runSequential_sound (db : Postgres) {control control' : Control} {calls : List Call}
    (hwf : WellFormed control) (hfresh : Fresh control calls)
    (h : runSequential db control (calls.map Call.control) = some control') :
    Sound (calls.flatMap Call.drawn) control control' := by
  induction calls generalizing control with
  | nil =>
    cases h
    exact sound_of_sameRuns hwf rfl (.refl _) (fun _ => .refl _)
  | cons call rest ih =>
    simp only [List.map_cons, runSequential, Option.bind_eq_some_iff] at h
    obtain ⟨mid, hmid, hrest⟩ := h
    have hstep := call_sound db call hwf
      (fun id hid => hfresh.2 id (List.mem_flatMap.mpr ⟨call, List.mem_cons_self, hid⟩)) hmid
    have hlater : Fresh mid rest := Fresh.later [call] hfresh (by simpa using hstep)
    have hrun := ih hstep.wellFormed hlater hrest
    refine ⟨hrun.wellFormed, hstep.stands.trans hrun.stands, fun id hid => ?_⟩
    rw [List.flatMap_cons, List.mem_append]
    rcases hrun.drawn id hid with hmid | hdrawn
    · rcases hstep.drawn id hmid with hold | hdrawn
      · exact .inl hold
      · exact .inr (.inl hdrawn)
    · exact .inr (.inr hdrawn)

/-- Whatever the interleaving of the replicas, every restore run awaits its
    decision or carries exactly one, made by another actor than the requester
    and recorded at most once in the trail; and a run or hold that was there
    after some of the calls is still there after the later ones, with its
    request unchanged, and unchanged altogether once decided or released. -/
theorem decisions_stand {db : Postgres} {s : ReplicaState}
    (h : (controlReplicas db).Reach ReplicaState.loadsWhatItSaw s) {before after : List Call}
    (hcalls : s.succeeded = (before ++ after).map Call.control)
    (hfresh : Fresh db.loadControl.1 (before ++ after)) (hwf : WellFormed db.loadControl.1) :
    WellFormed s.doc ∧
    ∃ control, runSequential db db.loadControl.1 (before.map Call.control) = some control ∧
      Stands control s.doc := by
  -- The document is that of the succeeded calls, run one after another.
  have hlinear := (replicaInv_reach h).linear
  rw [hcalls] at hlinear
  refine ⟨(runSequential_sound db hwf hfresh hlinear).wellFormed, ?_⟩
  rw [List.map_append] at hlinear
  obtain ⟨mid, hmid, hlater⟩ := runSequential_append hlinear
  have hfirst := runSequential_sound db hwf hfresh.first hmid
  exact ⟨mid, hmid,
    (runSequential_sound db hfirst.wellFormed (hfresh.later before hfirst) hlater).stands⟩

/-! ### A race between two deciders -/

def requestRestore : Call :=
  .createRestore {} { tenantID := "acme", operationID := "op", reason := "undo", requestedBy := "amy"
                      id := "r1", now := 1, replay := .ok () }

def approveByBob : Call := .transitionRestore {} "acme" "r1" "bob" approved 2

def rejectByCleo : Call := .transitionRestore {} "acme" "r1" "cleo" rejected 2

/-- Both deciders load the pending run; the second to save starts over and is
    turned away. -/
def bothDecide : List ReplicaAction :=
  [.start 0 requestRestore.control, .load 0, .save 0,
   .start 1 approveByBob.control, .start 2 rejectByCleo.control, .load 1, .load 2,
   .save 1, .save 2, .load 2]

theorem decisions_stand_bothDecide :
    ∃ s, (controlReplicas emptyRow).exec idleReplicas bothDecide = some s ∧
      s.succeeded = [requestRestore.control, approveByBob.control] ∧ WellFormed s.doc := by
  obtain ⟨s, hs⟩ : ∃ s, (controlReplicas emptyRow).exec idleReplicas bothDecide = some s :=
    ⟨_, rfl⟩
  have hreach : (controlReplicas emptyRow).Reach ReplicaState.loadsWhatItSaw s :=
    System.Reach.exec (.init rfl) (by decide +kernel) hs
  have hsucc : s.succeeded = ([requestRestore] ++ [approveByBob]).map Call.control := by
    have hmap := congrArg (Option.map ReplicaState.succeeded) hs
    exact (Option.some.inj hmap).symm
  have hempty : emptyRow.loadControl.1 = {} := rfl
  have hwf : WellFormed emptyRow.loadControl.1 := by
    rw [hempty]
    exact ⟨by simp, by simp [verdicts], by simp [verdicts]⟩
  exact ⟨s, hs, hsucc, (decisions_stand hreach hsucc ⟨by decide, by simp [hempty]⟩ hwf).1⟩

end Decisions

end AuditGovernance
