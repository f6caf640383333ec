import AuditGovernance.Framework.Interleaving
import AuditGovernance.Service.ConsolePages

/-! # The listing of admin actions

    `ListAdminActions` (`internal/service/admin_trail.go`) shows two histories
    as one, newest first: the mutation facts of the snapshot, kept in append
    order, and the read facts of the trail, read newest first. The tenant
    filter is applied before the limit.

    `mergeAdminActions` walks both with one index each; here each index is the
    list of the actions the loop has not looked at yet. It returns a first
    part of the filtered merge of the two (`mergeAdminActions_eq`).
-/

namespace AuditGovernance

open Interleaving

namespace AdminListing

/-! ## Section 1: The three loops -/

/-- `matches`. -/
def matchesScope (tenantID : String) (platform : Bool) (action : AdminAction) : Bool :=
  (platform && tenantID = "") || action.tenantID = tenantID

/-- A loop goes on with a value, or returns from the function with the
    result. -/
abbrev Loop (σ : Type) := Except (List AdminAction) σ

/-- What the function returns, whether out of a loop or behind all of them. -/
def Loop.result : Loop (List AdminAction) → List AdminAction
  | .error result => result
  | .ok result => result

section Loops

variable (keep : AdminAction → Bool) (limit : Int)

/-- The body the three loops share. -/
def consider (result : List AdminAction) (next : AdminAction) : Loop (List AdminAction) :=
  if keep next then
    let result := result ++ [next]
    if result.length = limit then .error result else .ok result
  else .ok result

/-- The first loop, while both histories have actions left. It leaves what is
    left of both, and the result. -/
def mergeLoop (snapshot trail result : List AdminAction) :
    Loop (List AdminAction × List AdminAction × List AdminAction) :=
  match snapshot, trail with
  | snap :: older, read :: rest =>
    -- On equal times the read fact comes first.
    if ¬ read.createdAt < snap.createdAt then do
      let result ← consider keep limit result read
      mergeLoop (snap :: older) rest result
    else do
      let result ← consider keep limit result snap
      mergeLoop older (read :: rest) result
  | snapshot, trail => .ok (snapshot, trail, result)
termination_by snapshot.length + trail.length

/-- The second and the third loop, over what is left of one history. -/
def drainLoop : List AdminAction → List AdminAction → Loop (List AdminAction)
  | [], result => .ok result
  | next :: rest, result => do
    let result ← consider keep limit result next
    drainLoop rest result

/-- The loop of the fast path. -/
def newestLoop : List AdminAction → List AdminAction → List AdminAction
  | [], result => result
  | action :: older, result =>
    if (result.length : Int) < limit then
      newestLoop older (if keep action then result ++ [action] else result)
    else result

end Loops

/-- `mergeAdminActions`. -/
def mergeAdminActions (snapshot trail : List AdminAction) (tenantID : String) (platform : Bool)
    (limit : Int) : List AdminAction :=
  let keep := matchesScope tenantID platform
  Loop.result do
    let (snapshot, trail, result) ← mergeLoop keep limit snapshot.reverse trail []
    let result ← drainLoop keep limit snapshot result
    drainLoop keep limit trail result

/-- The fast path of `ListAdminActions`, for a trail without facts. -/
def fastPath (snapshot : List AdminAction) (tenantID : String) (platform : Bool) (limit : Int) :
    List AdminAction :=
  newestLoop (matchesScope tenantID platform) limit snapshot.reverse []

/-- `ListAdminActions`, given what `ReadAdminTrail` and `Store.Read` answer. -/
def listAdminActions (readTrail : Except Err (List AdminAction)) (read : Except Err Snapshot)
    (tenantID : String) (platform : Bool) (limit : Int) : Except Err (List AdminAction) := do
  if tenantID = "" ∧ platform = false then
    throw (.invalid "tenant_id is required")
  requireOptionalTenantScope tenantID
  let limit := if limit ≤ 0 ∨ limit > 100 then 100 else limit
  let trail ← readTrail
  let data ← read
  if trail.length = 0 then
    return fastPath data.adminActions tenantID platform limit
  else
    return mergeAdminActions data.adminActions trail tenantID platform limit

/-! ## Section 2: What the loops compute -/

section Specs

variable {keep : AdminAction → Bool} {n : Nat}

/-- What has been taken, and as many of the matching actions as fit behind. -/
def fillUp (keep : AdminAction → Bool) (n : Nat) (result actions : List AdminAction) :
    List AdminAction :=
  result ++ (actions.filter keep).take (n - result.length)

/-- **One action.** If the rest of the walk fills up from what is left, the
    walk with this action fills up from the action and what is left. -/
theorem consider_fillUp {result rest : List AdminAction} {next : AdminAction}
    {walk : List AdminAction → Loop (List AdminAction)} (hroom : result.length < n)
    (hwalk : ∀ result, result.length < n → Loop.result (walk result) = fillUp keep n result rest) :
    Loop.result (consider keep n result next >>= walk) = fillUp keep n result (next :: rest) := by
  unfold consider
  split
  case isTrue hkeep =>
    have hfilter : (next :: rest).filter keep = next :: rest.filter keep :=
      List.filter_cons_of_pos hkeep
    have htaken : fillUp keep n result (next :: rest) = fillUp keep n (result ++ [next]) rest := by
      obtain ⟨k, hk⟩ : ∃ k, n - result.length = k + 1 := ⟨n - result.length - 1, by omega⟩
      have hk' : n - (result ++ [next]).length = k := by
        rw [List.length_append, List.length_singleton]
        omega
      unfold fillUp
      rw [hfilter, hk, hk', List.take_succ_cons, List.append_assoc, List.singleton_append]
    rw [htaken]
    dsimp only
    split
    case isTrue hfull =>
      -- The limit is reached, so the function returns here.
      have hlen : n - (result ++ [next]).length = 0 := by omega
      show result ++ [next] = fillUp keep n (result ++ [next]) rest
      rw [fillUp, hlen, List.take_zero, List.append_nil]
    case isFalse hmore =>
      apply hwalk
      rw [List.length_append, List.length_singleton] at hmore ⊢
      omega
  case isFalse hskip =>
    have hfilter : (next :: rest).filter keep = rest.filter keep :=
      List.filter_cons_of_neg hskip
    show Loop.result (walk result) = _
    rw [hwalk result hroom, fillUp, fillUp, hfilter]

theorem drainLoop_fillUp (actions result : List AdminAction) (hroom : result.length < n) :
    Loop.result (drainLoop keep n actions result) = fillUp keep n result actions := by
  induction actions generalizing result with
  | nil =>
    show result = _
    rw [fillUp, List.filter_nil, List.take_nil, List.append_nil]
  | cons next rest ih => exact consider_fillUp hroom ih

theorem newestLoop_fillUp (actions result : List AdminAction) (hroom : result.length ≤ n) :
    newestLoop keep n actions result = fillUp keep n result actions := by
  induction actions generalizing result with
  | nil =>
    show result = _
    rw [fillUp, List.filter_nil, List.take_nil, List.append_nil]
  | cons action older ih =>
    rw [newestLoop]
    split
    case isTrue hmore =>
      have hlt : result.length < n := by omega
      -- The body of this loop takes an action as the shared body does.
      have hstep := @consider_fillUp keep n result older action
        (fun result => .ok (newestLoop keep n older result)) hlt
        (fun result h => ih result (Nat.le_of_lt h))
      rw [← hstep]
      unfold consider
      split
      · dsimp only
        split
        case isTrue hfull =>
          have hle : (result ++ [action]).length ≤ n := by omega
          have hlen : n - (result ++ [action]).length = 0 := by omega
          show _ = result ++ [action]
          rw [ih _ hle, fillUp, hlen, List.take_zero, List.append_nil]
        case isFalse => rfl
      · rfl
    case isFalse hfull =>
      have hlen : n - result.length = 0 := by omega
      rw [fillUp, hlen, List.take_zero, List.append_nil]

/-- The two histories as one, newest first, read facts first on a tie. -/
def merged (snapshot trail : List AdminAction) : List AdminAction :=
  mergeDescending AdminAction.createdAt trail snapshot

/-- **The three loops.** The first walks the merge as long as both histories
    last; the other two walk what is left of it, which is one history. -/
theorem loops_fillUp (snapshot trail result : List AdminAction) (hroom : result.length < n) :
    Loop.result (do
      let (snapshot, trail, result) ← mergeLoop keep n snapshot trail result
      let result ← drainLoop keep n snapshot result
      drainLoop keep n trail result) = fillUp keep n result (merged snapshot trail) := by
  induction snapshot generalizing trail result with
  | nil =>
    rw [mergeLoop.eq_def, merged, mergeDescending, List.merge_right]
    exact drainLoop_fillUp trail result hroom
  | cons snap older ihSnapshot =>
    induction trail generalizing result with
    | nil =>
      rw [mergeLoop.eq_def, merged, mergeDescending, List.nil_merge]
      have hlast : ∀ outcome : Loop (List AdminAction), outcome >>= drainLoop keep n [] = outcome := by
        intro outcome
        match outcome with
        | .error _ => rfl
        | .ok _ => rfl
      show Loop.result (drainLoop keep n (snap :: older) result >>= drainLoop keep n []) = _
      rw [hlast]
      exact drainLoop_fillUp (snap :: older) result hroom
    | cons read rest ihTrail =>
      rw [mergeLoop.eq_def, merged, mergeDescending, List.cons_merge_cons]
      dsimp only
      by_cases hread : read.createdAt < snap.createdAt
      · rw [if_neg (not_not_intro hread), if_neg (by simpa using hread), bind_assoc]
        exact consider_fillUp hroom (fun result h => ihSnapshot (read :: rest) result h)
      · rw [if_pos hread, if_pos (by simpa using hread), bind_assoc]
        exact consider_fillUp hroom (fun result h => ihTrail result h)

end Specs

/-! ## Section 3: The listing -/

section Listing

variable {snapshot trail : List AdminAction} {tenantID : String} {platform : Bool} {n : Nat}

theorem mergeAdminActions_eq (hn : 1 ≤ n) :
    mergeAdminActions snapshot trail tenantID platform n =
      ((merged snapshot.reverse trail).filter (matchesScope tenantID platform)).take n := by
  have hloops := @loops_fillUp (matchesScope tenantID platform) n snapshot.reverse trail [] hn
  rw [fillUp, List.nil_append, List.length_nil, Nat.sub_zero] at hloops
  exact hloops

theorem fastPath_eq :
    fastPath snapshot tenantID platform n =
      (snapshot.reverse.filter (matchesScope tenantID platform)).take n := by
  have hloop := @newestLoop_fillUp (matchesScope tenantID platform) n snapshot.reverse []
    (Nat.zero_le n)
  rw [fillUp, List.nil_append, List.length_nil, Nat.sub_zero] at hloop
  exact hloop

theorem mergeAdminActions_nil (hn : 1 ≤ n) :
    mergeAdminActions snapshot [] tenantID platform n = fastPath snapshot tenantID platform n := by
  rw [mergeAdminActions_eq hn, fastPath_eq, merged, mergeDescending, List.nil_merge]

/-- A listing of at most `n` actions out of two histories: the first matching
    actions of each in their order, each occurrence once, and every matching
    action that is left out is no newer than the last one listed. -/
structure Lists (snapshot trail : List AdminAction) (keep : AdminAction → Bool) (n : Nat)
    (result : List AdminAction) : Prop where
  newestFirst : Descending AdminAction.createdAt result
  bounded : result.length ≤ n
  parts : ∃ reads skippedReads facts skippedFacts,
    trail.filter keep = reads ++ skippedReads ∧ snapshot.filter keep = facts ++ skippedFacts ∧
    Interleaves reads facts result ∧
    ∀ action, action ∈ skippedReads ∨ action ∈ skippedFacts →
      result.length = n ∧ ∀ last ∈ result.getLast?, action.createdAt ≤ last.createdAt

theorem lists_merged {keep : AdminAction → Bool}
    (hsnapshot : Descending AdminAction.createdAt snapshot)
    (htrail : Descending AdminAction.createdAt trail) :
    Lists snapshot trail keep n (((merged snapshot trail).filter keep).take n) := by
  have hsorted : Descending AdminAction.createdAt ((merged snapshot trail).filter keep) :=
    (descending_merge htrail hsnapshot).sublist List.filter_sublist
  refine ⟨hsorted.sublist (List.take_sublist _ _), List.length_take_le _ _, ?_⟩
  obtain ⟨reads, skippedReads, facts, skippedFacts, hreads, hfacts, hlisted, hskipped⟩ :=
    ((interleaves_merge _ trail snapshot).filter keep).cut (List.take_append_drop n _).symm
  refine ⟨reads, skippedReads, facts, skippedFacts, hreads, hfacts, hlisted, ?_⟩
  intro action haction
  have hdropped : action ∈ ((merged snapshot trail).filter keep).drop n :=
    hskipped.perm.mem_iff.2 (List.mem_append.2 haction)
  constructor
  · -- Something is left out only behind a full page.
    have hlong := List.length_pos_of_mem hdropped
    rw [List.length_drop] at hlong
    rw [List.length_take]
    omega
  · intro last hlast
    exact hsorted.le_of_take hdropped (List.mem_of_getLast? hlast)

/-- **The merged listing.** For histories that are newest first, the function
    returns the first matching actions of their merge, a listing of both; and
    without read facts it returns what the fast path returns. -/
theorem mergeAdminActions_lists (snapshot trail : List AdminAction) (tenantID : String)
    (platform : Bool) (n : Nat) (hn : 1 ≤ n)
    (hsnapshot : Descending AdminAction.createdAt snapshot.reverse)
    (htrail : Descending AdminAction.createdAt trail) :
    mergeAdminActions snapshot trail tenantID platform n =
      ((mergeDescending AdminAction.createdAt trail snapshot.reverse).filter
        (matchesScope tenantID platform)).take n ∧
    Lists snapshot.reverse trail (matchesScope tenantID platform) n
      (mergeAdminActions snapshot trail tenantID platform n) ∧
    mergeAdminActions snapshot [] tenantID platform n = fastPath snapshot tenantID platform n := by
  have heq := @mergeAdminActions_eq snapshot trail tenantID platform n hn
  refine ⟨heq, ?_, mergeAdminActions_nil hn⟩
  rw [heq]
  exact lists_merged hsnapshot htrail

/-- A read of a tenant, and two changes in the same second. -/
def tenantReads : List AdminAction :=
  [{ id := "r2", tenantID := "acme", createdAt := 9 }, { id := "r1", createdAt := 5 }]

def tenantChanges : List AdminAction :=
  [{ id := "c1", tenantID := "acme", createdAt := 5 },
   { id := "c2", tenantID := "acme", createdAt := 9 }]

theorem tenantReads_listed :
    Descending AdminAction.createdAt tenantChanges.reverse ∧
    Descending AdminAction.createdAt tenantReads ∧
    Lists tenantChanges.reverse tenantReads (matchesScope "acme" false) 2
      (mergeAdminActions tenantChanges tenantReads "acme" false 2) := by
  have hchanges : Descending AdminAction.createdAt tenantChanges.reverse := by decide
  have hreads : Descending AdminAction.createdAt tenantReads := by decide
  exact ⟨hchanges, hreads, (mergeAdminActions_lists tenantChanges tenantReads "acme" false 2
    (by decide) hchanges hreads).2.1⟩

/-- The limit the endpoint works with. -/
def clampedLimit (limit : Int) : Nat := if limit ≤ 0 ∨ limit > 100 then 100 else limit.toNat

/-- **The endpoint.** Whichever path is taken, the answer is the first matching
    actions of the merge. -/
theorem listAdminActions_ok {data : Snapshot} {limit : Int} {result : List AdminAction}
    (h : listAdminActions (.ok trail) (.ok data) tenantID platform limit = .ok result) :
    result = ((merged data.adminActions.reverse trail).filter
      (matchesScope tenantID platform)).take (clampedLimit limit) := by
  have hlimit : (if limit ≤ 0 ∨ limit > 100 then 100 else limit) = (clampedLimit limit : Int) := by
    unfold clampedLimit
    split
    · rfl
    · omega
  have hpos : 1 ≤ clampedLimit limit := by
    unfold clampedLimit
    split <;> omega
  unfold listAdminActions at h
  rw [hlimit] at h
  split at h
  · cases h
  obtain ⟨_, -, h⟩ := bind_ok h
  obtain ⟨_, hread, h⟩ := bind_ok h
  obtain rfl := Except.ok.inj hread
  obtain ⟨_, hdata, h⟩ := bind_ok h
  obtain rfl := Except.ok.inj hdata
  split at h
  case isTrue hempty =>
    obtain rfl := List.length_eq_zero_iff.1 hempty
    rw [← Except.ok.inj h, ← mergeAdminActions_nil hpos, mergeAdminActions_eq hpos]
  case isFalse => rw [← Except.ok.inj h, mergeAdminActions_eq hpos]

/-- Tenant `acme` asks for its two newest actions. -/
theorem tenantReads_answered :
    ∃ result, listAdminActions (.ok tenantReads) (.ok { adminActions := tenantChanges }) "acme"
        false 2 = .ok result ∧
      result = ((merged tenantChanges.reverse tenantReads).filter
        (matchesScope "acme" false)).take (clampedLimit 2) := by
  have hrun : ∃ result, listAdminActions (.ok tenantReads) (.ok { adminActions := tenantChanges })
      "acme" false 2 = .ok result := ⟨_, rfl⟩
  obtain ⟨result, hresult⟩ := hrun
  exact ⟨result, hresult, listAdminActions_ok hresult⟩

end Listing

end AdminListing

end AuditGovernance
