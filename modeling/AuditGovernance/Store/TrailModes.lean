import AuditGovernance.Store.AdminTrail

/-! # The admin trail in memory and on file

    A store without a path keeps its trail in a slice
    (`internal/store/trail.go`), trimmed to the same watermark as the file is
    compacted to. The file is driven by a counter that is seeded when the file
    is first opened and again after every reopen.

    Without faults the two trails read the same after every call
    (`trail_modes_agree`). The relation that carries this is `Mirrors`: the file
    holds the lines of the slice, and a counter that is in use counts them.
-/

namespace AuditGovernance.AdminTrail

open LineLog

/-! ## Section 1: The slice -/

/-- `AppendAdminFact` without a path. -/
def appendInMemory (trail : List AdminAction) (fact : AdminAction) (trailCap : Int) :
    List AdminAction :=
  let appended := trail ++ [fact]
  if 0 < trailCap ∧ trailCap < appended.length then
    appended.drop (appended.length - trailWatermark trailCap)
  else appended

/-- `ReadAdminTrail` without a path, newest first. -/
def readInMemory (trail : List AdminAction) : List AdminAction := trail.reverse

/-! ## Section 2: Both trails -/

/-- A call made to both stores. -/
inductive TrailCall where
  | append (fact : AdminAction)
  /-- The file-backed store is opened anew. -/
  | reopen

/-- The facts that calls append, in order. -/
def appendedFacts (calls : List TrailCall) : List AdminAction :=
  calls.filterMap fun call =>
    match call with
    | .append fact => some fact
    | .reopen => none

/-- A call on the file. Nothing fails. -/
def onFile (trailCap : Int) (t : Trail) : TrailCall → Trail
  | .append fact => t.appendAdminFact fact trailCap {}
  | .reopen => { t with opened := false, counted := false, count := 0 }

/-- A call on the slice. -/
def inMemory (trailCap : Int) (trail : List AdminAction) : TrailCall → List AdminAction
  | .append fact => appendInMemory trail fact trailCap
  | .reopen => trail

/-! ## Section 3: The watermark -/

theorem trailWatermark_bounds {trailCap : Int} (h : 0 < trailCap) :
    1 ≤ trailWatermark trailCap ∧ (trailWatermark trailCap : Int) ≤ trailCap := by
  unfold trailWatermark
  rw [if_neg (by omega)]
  dsimp only
  split_ifs <;> omega

/-- The slice holds the newest facts, as many as the cap allows and at least a
    watermark of them. -/
structure NewestFacts (trailCap : Int) (facts trail : List AdminAction) : Prop where
  newest : trail <:+ facts
  bounded : 0 < trailCap → (trail.length : Int) ≤ trailCap ∧
    min facts.length (trailWatermark trailCap) ≤ trail.length
  unbounded : trailCap = 0 → trail = facts

theorem NewestFacts.append {trailCap : Int} {facts trail : List AdminAction}
    (h : NewestFacts trailCap facts trail) (fact : AdminAction) :
    NewestFacts trailCap (facts ++ [fact]) (appendInMemory trail fact trailCap) := by
  have hsuffix : trail ++ [fact] <:+ facts ++ [fact] := by
    obtain ⟨front, hfront⟩ := h.newest
    exact ⟨front, by rw [← hfront, List.append_assoc]⟩
  unfold appendInMemory
  dsimp only
  split_ifs with htrim
  · obtain ⟨hpos, hover⟩ := htrim
    have hbounds := trailWatermark_bounds hpos
    refine ⟨(List.drop_suffix _ _).trans hsuffix, fun _ => ?_, fun hzero => by omega⟩
    rw [List.length_drop]
    omega
  · refine ⟨hsuffix, fun hpos => ?_, fun hzero => by rw [h.unbounded hzero]⟩
    have hbefore := (h.bounded hpos).2
    simp only [List.length_append, List.length_singleton] at htrim ⊢
    omega

/-! ## Section 4: The file mirrors the slice -/

/-- The file holds the lines of the slice. The counter counts them once it is
    seeded, and is zero before. -/
structure Mirrors (t : Trail) (trail : List AdminAction) : Prop where
  holds : Holds t []
  retained : t.retained = trail
  counted : t.counted = true → t.count = trail.length
  uncounted : t.counted = false → t.count = 0
  opened : t.opened = true → t.counted = true

theorem countJSONLLines_lines (facts : List AdminAction) :
    countJSONLLines (ofLines (facts.map body)) = facts.length := by
  unfold countJSONLLines
  induction facts with
  | nil => rfl
  | cons a rest ih =>
    rw [List.map_cons, ofLines_cons, List.count_append, List.count_cons_self, ih,
      List.count_eq_zero.2 (oneLine_body a), List.length_cons]
    omega

section Calls

variable {t : Trail} {trail : List AdminAction}

theorem ensureTrailFile_opens (h : t.opened = true → t.counted = true) :
    (t.ensureTrailFile none).2 = true ∧ (t.ensureTrailFile none).1.counted = true := by
  unfold Trail.ensureTrailFile
  by_cases hopened : t.opened = true
  · rw [if_pos hopened]
    exact ⟨rfl, h hopened⟩
  · rw [if_neg hopened]
    refine ⟨rfl, ?_⟩
    by_cases hcounted : t.counted = true
    · simp only [hcounted, if_true]
    · simp only [hcounted, Bool.false_eq_true, if_false]

theorem Mirrors.seeds (h : Mirrors t trail) :
    (t.ensureTrailFile none).1.count = trail.length := by
  unfold Trail.ensureTrailFile
  by_cases hcounted : t.counted = true
  · simp only [hcounted, if_true]
    split_ifs <;> exact h.counted hcounted
  · rw [if_neg fun hopened => hcounted (h.opened hopened)]
    rw [Bool.not_eq_true] at hcounted
    simp only [hcounted, Bool.false_eq_true, if_false]
    have hlines := h.holds.contents
    rw [h.retained, List.append_nil] at hlines
    unfold Trail.contents at hlines
    have hcount := countJSONLLines_lines trail
    rw [← hlines] at hcount
    cases hfile : t.file with
    | none =>
      -- No file yet: no lines, and the counter is still zero.
      rw [hfile, Option.getD_none] at hcount
      rw [Option.map_none, Option.getD_none, h.uncounted hcounted, ← hcount]
      rfl
    | some bytes =>
      rw [hfile, Option.getD_some] at hcount
      rw [Option.map_some, Option.getD_some, hcount]

theorem Mirrors.acknowledge (h : Mirrors t trail) : Mirrors t.acknowledge trail := by
  refine ⟨h.holds.acknowledge, ?_, h.counted, h.uncounted, h.opened⟩
  rw [← h.retained, Trail.retained, t.acknowledge_facts]
  rfl

theorem Mirrors.compact (h : Mirrors t trail) (hcounted : t.counted = true) {keepCount : Nat}
    (hkeep : keepCount < trail.length) :
    ∃ compacted, t.compactTrail keepCount none = (compacted, true) ∧
      Mirrors compacted (trail.drop (trail.length - keepCount)) := by
  have hholds := (or_self _).mp (h.holds.compact keepCount none)
  have hdrop := h.holds.retained_drop (h.retained ▸ Nat.le_of_lt hkeep)
  rw [h.retained] at hdrop
  rw [Trail.compactTrail, h.holds.read, h.retained] at hholds ⊢
  dsimp only at hholds ⊢
  rw [if_neg (Nat.not_le_of_lt hkeep)] at hholds ⊢
  refine ⟨_, rfl, hholds, hdrop.symm, fun _ => rfl, fun hfalse => ?_, fun _ => hcounted⟩
  rw [show _ = t.counted from rfl, hcounted] at hfalse
  cases hfalse

theorem Mirrors.retain (h : Mirrors { t with count := t.count + 1 } trail)
    (hcounted : t.counted = true) (trailCap : Int) :
    Mirrors (t.retain trailCap none)
      (if 0 < trailCap ∧ trailCap < trail.length then
        trail.drop (trail.length - trailWatermark trailCap) else trail) := by
  have hcount : t.count + 1 = trail.length := h.counted hcounted
  rw [Trail.retain]
  dsimp only
  rw [hcount]
  split_ifs with hover
  · have hkeep : trailWatermark trailCap < trail.length := by
      have hbounds := trailWatermark_bounds hover.1
      omega
    rw [hcount] at h
    obtain ⟨compacted, hcompact, hmirrors⟩ := h.compact hcounted hkeep
    rw [hcompact]
    exact hmirrors.acknowledge
  · rw [hcount] at h
    exact h.acknowledge

theorem Mirrors.append (h : Mirrors t trail) {fact : AdminAction}
    (hyear : Timestamp.HasYear fact.createdAt) (trailCap : Int) :
    Mirrors (t.appendAdminFact fact trailCap {}) (appendInMemory trail fact trailCap) := by
  obtain ⟨hsuccess, hcounted⟩ := ensureTrailFile_opens h.opened
  obtain ⟨-, hhistory, hdropped⟩ := ensureTrailFile_frame t none
  have hensured := h.holds.ensure none
  have hseeds := h.seeds
  have hbefore : (t.ensureTrailFile none).1.retained = trail := by
    rw [Trail.retained, hhistory, hdropped]
    exact h.retained
  rw [Trail.appendAdminFact]
  generalize t.ensureTrailFile none = result at *
  obtain ⟨ensured, success⟩ := result
  dsimp only at hsuccess hcounted hensured hseeds hbefore
  subst hsuccess
  dsimp only
  rw [if_neg (not_not_intro hyear)]
  simp only [Bool.false_eq_true, if_false]
  have hwritten := hensured.append hyear
  have hretained : Trail.retained { ensured with
      file := some (ensured.contents ++ line fact)
      history := ensured.history ++ [(fact, false)] } = trail ++ [fact] := by
    have hle : ensured.dropped ≤ (ensured.history.map Prod.fst).length := by
      rw [List.length_map]
      exact hensured.dropped
    rw [← hbefore, Trail.retained, Trail.retained, List.map_append,
      List.drop_append_of_le_length hle]
    rfl
  have hmirrors : Mirrors { ensured with
      file := some (ensured.contents ++ line fact)
      history := ensured.history ++ [(fact, false)]
      count := ensured.count + 1 } (trail ++ [fact]) := by
    refine ⟨hwritten.of_eq rfl rfl rfl, hretained, fun _ => ?_, fun hfalse => ?_, fun _ => hcounted⟩
    · show ensured.count + 1 = _
      rw [hseeds, List.length_append, List.length_singleton]
    · rw [show _ = ensured.counted from rfl, hcounted] at hfalse
      cases hfalse
  exact @Mirrors.retain { ensured with
    file := some (ensured.contents ++ line fact)
    history := ensured.history ++ [(fact, false)] } _ hmirrors hcounted trailCap

end Calls

/-! ## Section 5: Every sequence of calls -/

/-- Both trails after some calls, from a store without a trail. -/
def runFile (trailCap : Int) (calls : List TrailCall) : Trail := calls.foldl (onFile trailCap) {}

def runMemory (trailCap : Int) (calls : List TrailCall) : List AdminAction :=
  calls.foldl (inMemory trailCap) []

theorem runs_mirror {trailCap : Int} {calls : List TrailCall}
    (hyears : ∀ fact ∈ appendedFacts calls, Timestamp.HasYear fact.createdAt) :
    Mirrors (runFile trailCap calls) (runMemory trailCap calls) ∧
      NewestFacts trailCap (appendedFacts calls) (runMemory trailCap calls) := by
  induction calls using List.reverseRecOn with
  | nil =>
    refine ⟨⟨⟨rfl, by simp, by simp [runFile], Nat.le_refl 0⟩, rfl, fun _ => rfl, fun _ => rfl,
      fun hopened => by cases hopened⟩, ⟨List.suffix_refl _, fun hpos => ?_, fun _ => rfl⟩⟩
    simp only [runMemory, appendedFacts, List.foldl_nil, List.filterMap_nil, List.length_nil]
    omega
  | append_singleton calls call ih =>
    unfold runFile runMemory appendedFacts at ih ⊢
    rw [appendedFacts, List.filterMap_append] at hyears
    obtain ⟨hmirrors, hnewest⟩ := ih fun fact hfact => hyears fact (List.mem_append_left _ hfact)
    rw [List.foldl_append, List.foldl_append, List.filterMap_append]
    cases call with
    | append fact =>
      have hyear := hyears fact (List.mem_append_right _ List.mem_cons_self)
      exact ⟨hmirrors.append hyear trailCap, hnewest.append fact⟩
    | reopen =>
      refine ⟨⟨hmirrors.holds.of_eq rfl rfl rfl, hmirrors.retained, ?_, fun _ => rfl, ?_⟩, ?_⟩
      · intro hcounted
        cases hcounted
      · intro hopened
        cases hopened
      · rw [show List.filterMap _ [TrailCall.reopen] = [] from rfl, List.append_nil]
        exact hnewest

/-- The trail reads the same on file and in memory after every call, with reopens
    of the file anywhere: the newest facts, at most as many as the cap and at
    least a watermark of them, or all when there is no cap. -/
theorem trail_modes_agree {trailCap : Int} {calls : List TrailCall}
    (hyears : ∀ fact ∈ appendedFacts calls, Timestamp.HasYear fact.createdAt) :
    readAdminTrail (runFile trailCap calls).file = .ok (readInMemory (runMemory trailCap calls)) ∧
      ∃ k, readInMemory (runMemory trailCap calls) = (appendedFacts calls).reverse.take k ∧
        (0 < trailCap → (k : Int) ≤ trailCap ∧
          min (appendedFacts calls).length (trailWatermark trailCap) ≤ k) ∧
        (trailCap = 0 → k = (appendedFacts calls).length) := by
  obtain ⟨hmirrors, hnewest⟩ := @runs_mirror trailCap calls hyears
  refine ⟨?_, (runMemory trailCap calls).length, ?_, hnewest.bounded, fun hzero => ?_⟩
  · rw [readAdminTrail, hmirrors.holds.read, hmirrors.retained]
    rfl
  · have hprefix : (runMemory trailCap calls).reverse <+: (appendedFacts calls).reverse :=
      List.reverse_prefix.2 hnewest.newest
    rw [readInMemory, ← List.length_reverse]
    exact List.prefix_iff_eq_take.1 hprefix
  · rw [hnewest.unbounded hzero]

/-- Three reads with room for two, and a new process before the last. -/
def cappedReads : List TrailCall :=
  [.append (readOf "a1"), .append (readOf "a2"), .reopen, .append (readOf "a3")]

theorem cappedReads_agree :
    readAdminTrail (runFile 2 cappedReads).file = .ok (readInMemory (runMemory 2 cappedReads)) ∧
      readInMemory (runMemory 2 cappedReads) = [readOf "a3"] :=
  ⟨(trail_modes_agree (by decide +kernel)).1, by decide +kernel⟩

end AuditGovernance.AdminTrail
