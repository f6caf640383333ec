import AuditGovernance.Framework.FixedWindow
import AuditGovernance.Framework.Transition
import AuditGovernance.Service.Admission

/-! # The ingest quota

    `checkTenantAndQuota` with the windows it keeps in memory
    (`internal/service/service.go`). A call reads the control plane and its
    clock before it takes the lock of the windows, so calls reach the windows
    in an order of their own: a step of the system below is one call at the
    windows, with the reading it brought along.

    The admission model takes the window's answer as given; here the answer
    is computed, and `limitedCheck_eq` says that it is the one place where
    the two differ.
-/

namespace AuditGovernance

open FiniteMap FixedWindow Transition

namespace Quota

/-! ## Section 1: The check -/

/-- `time.Second`. -/
def second : Int := 1000000000

/-- The number of events one window admits. The sum is a 64-bit one. -/
def windowLimit (tenant : Tenant) : Int :=
  let limit := Int.bmod (tenant.eventsPerSecond + tenant.burst) (2 ^ 64)
  if limit ≤ 0 then tenant.eventsPerSecond else limit

/-- One call that reached the windows: the control plane it read, the tenant
    it is for and the clock reading it took before the lock. -/
structure Call where
  control : Control
  tenantID : String
  now : Time

/-- `checkTenantAndQuota`: its answer, and the windows it leaves. -/
def limitedCheck (quotas : Dict Window) (call : Call) : Except Err Unit × Dict Window :=
  match call.control.tenants[call.tenantID]? with
  | none => (.error (.notFound ""), quotas)
  | some tenant =>
    if !tenant.active then (.error (.notFound ""), quotas)
    else if tenant.eventsPerSecond ≤ 0 then (.ok (), quotas)
    else
      let window := (quotas[call.tenantID]?).getD {}
      let taken := window.take second (windowLimit tenant) call.now
      -- The window is stored on either answer.
      (if taken.1 then .ok () else .error (.quotaExceeded ""), quotas.insert call.tenantID taken.2)

/-- The answer of the tenant's window, whatever the tenant's state. -/
def windowAnswer (quotas : Dict Window) (call : Call) : Bool :=
  match call.control.tenants[call.tenantID]? with
  | none => false
  | some tenant =>
    (((quotas[call.tenantID]?).getD {}).take second (windowLimit tenant) call.now).1

theorem limitedCheck_eq (quotas : Dict Window) (call : Call) :
    (limitedCheck quotas call).1 =
      checkTenantAndQuota call.control call.tenantID (windowAnswer quotas call) := by
  unfold limitedCheck checkTenantAndQuota windowAnswer
  cases call.control.tenants[call.tenantID]? with
  | none => rfl
  | some tenant =>
    simp only
    split
    next => rfl
    next =>
      split
      next => rfl
      next => rfl

/-! ## Section 2: Runs of calls -/

/-- The windows, with what has been let through so far, newest first, and the
    latest reading seen. -/
structure State where
  quotas : Dict Window := ∅
  passed : List (String × Time) := []
  clock : Time := 0

/-- One call takes the lock. -/
def State.check (s : State) (call : Call) : State where
  quotas := (limitedCheck s.quotas call).2
  passed := match (limitedCheck s.quotas call).1 with
    | .ok () => (call.tenantID, call.now) :: s.passed
    | .error _ => s.passed
  clock := max s.clock call.now

/-- A process that starts without windows and checks call after call. -/
def system : System State Call where
  init s := s = {}
  step s call := some (s.check call)

/-- The readings with which `tenantID` was let through. -/
def State.readings (s : State) (tenantID : String) : List Time :=
  (s.passed.filter (fun p => p.1 == tenantID)).map Prod.snd

/-- The window of `tenantID`. -/
def State.window (s : State) (tenantID : String) : Window := (s.quotas[tenantID]?).getD {}

/-- Calls bring a proper reading that trails the latest one by at most `lag`
    seconds, and those for `tenantID` find the tenant limited to at most
    `limit` events a window. -/
structure Paced (tenantID : String) (lag limit : Nat) (s : State) (call : Call) : Prop where
  proper : call.now ≠ 0
  trails : s.clock ≤ call.now + lag * second
  limited : call.tenantID = tenantID → ∀ tenant, call.control.tenants[tenantID]? = some tenant →
    0 < tenant.eventsPerSecond ∧ windowLimit tenant ≤ limit

/-! ## Section 3: What a call does to one tenant -/

variable {s : State} {call : Call} {tenantID : String}

/-- A call for another tenant touches neither the window nor the readings. -/
theorem check_other (h : call.tenantID ≠ tenantID) :
    (s.check call).window tenantID = s.window tenantID ∧
      (s.check call).readings tenantID = s.readings tenantID := by
  constructor
  · unfold State.window State.check limitedCheck
    split
    next => rfl
    next tenant _ =>
      split
      next => rfl
      next =>
        split
        next => rfl
        next =>
          show ((s.quotas.insert call.tenantID _)[tenantID]?).getD {} = _
          rw [lookup_insert_ne _ _ h]
  · unfold State.readings State.check
    simp only
    split
    next =>
      rw [List.filter_cons_of_neg (by simpa using h)]
    next => rfl

/-- A call for the tenant itself either finds no active tenant, or is one
    request to its window. -/
theorem check_own (h : call.tenantID = tenantID)
    (hlimited : ∀ tenant, call.control.tenants[tenantID]? = some tenant →
      0 < tenant.eventsPerSecond) :
    ((limitedCheck s.quotas call).1 = .error (.notFound "") ∧
      (s.check call).window tenantID = s.window tenantID ∧
      (s.check call).readings tenantID = s.readings tenantID) ∨
    ∃ tenant taken, call.control.tenants[tenantID]? = some tenant ∧
      taken = (s.window tenantID).take second (windowLimit tenant) call.now ∧
      (limitedCheck s.quotas call).1 =
        (if taken.1 then .ok () else .error (.quotaExceeded "")) ∧
      (s.check call).window tenantID = taken.2 ∧
      (s.check call).readings tenantID =
        if taken.1 then call.now :: s.readings tenantID else s.readings tenantID := by
  subst h
  -- A refusal before the windows leaves the state's two components as they are.
  have hrefused (hcheck : limitedCheck s.quotas call = (.error (.notFound ""), s.quotas)) :
      (limitedCheck s.quotas call).1 = .error (.notFound "") ∧
        (s.check call).window call.tenantID = s.window call.tenantID ∧
        (s.check call).readings call.tenantID = s.readings call.tenantID := by
    simp only [State.window, State.readings, State.check, hcheck, and_self]
  cases htenant : call.control.tenants[call.tenantID]? with
  | none => exact .inl (hrefused (by simp only [limitedCheck, htenant]))
  | some tenant =>
    by_cases hactive : tenant.active
    · have hpositive := hlimited tenant htenant
      let taken := (s.window call.tenantID).take second (windowLimit tenant) call.now
      have hcheck : limitedCheck s.quotas call =
          (if taken.1 then .ok () else .error (.quotaExceeded ""),
            s.quotas.insert call.tenantID taken.2) := by
        simp only [limitedCheck, htenant, hactive, if_neg (Int.not_le.mpr hpositive)]
        rfl
      refine .inr ⟨tenant, taken, rfl, rfl, congrArg Prod.fst hcheck, ?_, ?_⟩
      · show (((limitedCheck s.quotas call).2)[call.tenantID]?).getD {} = taken.2
        rw [hcheck, lookup_insert_self]
        rfl
      · show List.map Prod.snd (List.filter _ (match (limitedCheck s.quotas call).1 with
          | .ok () => (call.tenantID, call.now) :: s.passed
          | .error _ => s.passed)) = _
        rw [hcheck]
        cases taken.1 with
        | true => simp [State.readings]
        | false => rfl
    · exact .inl (hrefused (by simp [limitedCheck, htenant, hactive]))

/-- **Step lemma.** The tenant's window keeps track of its readings. -/
theorem tracks_check {lag limit : Nat}
    (h : Tracks second lag limit (s.window tenantID) (s.readings tenantID) s.clock)
    (hpaced : Paced tenantID lag limit s call) :
    Tracks second lag limit ((s.check call).window tenantID) ((s.check call).readings tenantID)
      (s.check call).clock := by
  show Tracks second lag limit _ _ (max s.clock call.now)
  -- The clock may move on without the window.
  have hlater : Tracks second lag limit (s.window tenantID) (s.readings tenantID)
      (max s.clock call.now) :=
    { h with started_le := fun hne => le_max_of_le_left (h.started_le hne) }
  by_cases hown : call.tenantID = tenantID
  · rcases check_own (s := s) hown (fun t ht => (hpaced.limited hown t ht).1) with
      ⟨-, hw, hr⟩ | ⟨tenant, taken, htenant, htaken, -, hw, hr⟩
    · rw [hw, hr]
      exact hlater
    · rw [hw, hr, htaken]
      exact h.take (by decide) hpaced.proper hpaced.trails (hpaced.limited hown tenant htenant).2
  · rw [(check_other hown).1, (check_other hown).2]
    exact hlater

/-- **Run lemma.** -/
theorem tracks_of_reach {lag limit : Nat} (h : system.Reach (Paced tenantID lag limit) s) :
    Tracks second lag limit (s.window tenantID) (s.readings tenantID) s.clock := by
  refine Transition.System.Reach.invariant
    (P := fun s => Tracks second lag limit (s.window tenantID) (s.readings tenantID) s.clock)
    ?_ ?_ h
  · rintro s rfl
    exact Tracks.unused second 0 lag limit
  · intro s call s' _ hs hpaced hstep
    cases hstep
    exact tracks_check hs hpaced

/-! ## Section 4: The rate a tenant gets -/

/-- Whatever the order in which calls reach the windows, `m` seconds let at
    most `m + lag + 1` window limits of a tenant's events through, and a call
    is refused for its quota only when the tenant used a whole limit up in the
    last `lag + 1` seconds. -/
theorem rate_bounds {lag limit : Nat} (h : system.Reach (Paced tenantID lag limit) s) :
    (∀ (a : Time) (m : Nat), within a (a + m * second) (s.readings tenantID) ≤
      (m + lag + 1) * limit) ∧
    ∀ call : Call, Paced tenantID lag limit s call → call.tenantID = tenantID →
      (limitedCheck s.quotas call).1 = .error (.quotaExceeded "") →
      ∃ tenant, call.control.tenants[tenantID]? = some tenant ∧
        windowLimit tenant ≤
          since (call.now - (lag + 1) * second) (s.readings tenantID) := by
  have htracks := tracks_of_reach h
  refine ⟨htracks.spread, ?_⟩
  intro call hpaced hown hrefused
  rcases check_own (s := s) hown (fun t ht => (hpaced.limited hown t ht).1) with
    ⟨hnotFound, -⟩ | ⟨tenant, taken, htenant, htaken, hanswer, -⟩
  · rw [hnotFound] at hrefused
    cases hrefused
  · have hno : taken.1 = false := by
      cases hb : taken.1 with
      | false => rfl
      | true =>
        rw [hanswer, hb] at hrefused
        cases hrefused
    rw [htaken] at hno
    exact ⟨tenant, htenant, htracks.refused (by decide) hpaced.proper hpaced.trails hno⟩

/-- A tenant with one event a second and a burst of one. -/
def acme : Tenant := { id := "acme", active := true, eventsPerSecond := 1, burst := 1 }

def acmeCall (now : Time) : Call where
  control := { tenants := (∅ : Dict Tenant).insert "acme" acme }
  tenantID := "acme"
  now := now

theorem acmeCall_paced {s : State} (now : Time) (hnow : now ≠ 0)
    (htrails : s.clock ≤ now + ((1 : Nat) : Int) * second) :
    Paced "acme" 1 2 s (acmeCall now) where
  proper := hnow
  trails := htrails
  limited _ tenant htenant := by
    rw [acmeCall, lookup_insert_self] at htenant
    cases htenant
    decide

/-- The second reading trails the first; the third call is refused. -/
theorem rate_bounds_acme :
    ∃ tenant, (acmeCall (6 * second)).control.tenants["acme"]? = some tenant ∧
      windowLimit tenant ≤ since (6 * second - (((1 : Nat) : Int) + 1) * second)
        (((State.check ({} : State) (acmeCall (6 * second))).check (acmeCall (5 * second))).readings
          "acme") :=
  (rate_bounds (.step (.step (.init rfl) (acmeCall_paced (6 * second) (by decide) (by decide)) rfl)
    (acmeCall_paced (5 * second) (by decide) (by decide)) rfl)).2
    (acmeCall (6 * second)) (acmeCall_paced _ (by decide) (by decide)) rfl (by decide +kernel)

end Quota

end AuditGovernance
