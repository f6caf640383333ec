import AuditGovernance.Framework.FiniteMap

/-! # Three-way merge of dictionaries and lists

    A writer read `baseline`, produced `mutated`, and now finds `current`.
    The three-way merge takes the writer's value at every key the writer
    changed and the current value everywhere else. `overlayMap` is a cheaper
    rule: it writes every key of `mutated` over `current` unless the writer
    left the whole dictionary alone. The two rules agree exactly when the
    writer's unchanged and deleted keys cannot be told apart from what is
    there now.
-/

namespace ThreeWayMerge

open FiniteMap

section Maps

variable {V : Type} [DecidableEq V]

/-- `result` has the writer's value where the writer changed something and the
    current value elsewhere. -/
def IsMerge (current baseline mutated result : Dict V) : Prop :=
  ∀ k : String, result[k]? = if mutated[k]? = baseline[k]? then current[k]? else mutated[k]?

/-- Write the keys of `mutated` over `current` unless nothing was mutated. -/
def overlayMap (current baseline mutated : Dict V) : Dict V :=
  if mutated = baseline then current else overlay current mutated

/-- The keys the writer left alone still hold the writer's value, and the keys
    the writer removed are gone. -/
def Undisturbed (current baseline mutated : Dict V) : Prop :=
  (∀ k : String, (baseline[k]?).isSome → mutated[k]? = none → current[k]? = none) ∧
  (∀ (k : String) v, baseline[k]? = some v → mutated[k]? = some v → current[k]? = some v)

/-- `overlayMap` merges exactly when nothing was mutated or nothing the writer
    left alone or removed differs now. -/
theorem overlayMap_isMerge_iff (current baseline mutated : Dict V) :
    IsMerge current baseline mutated (overlayMap current baseline mutated) ↔
      mutated = baseline ∨ Undisturbed current baseline mutated := by
  unfold overlayMap
  by_cases hsame : mutated = baseline
  · subst hsame
    simp [IsMerge]
  · rw [if_neg hsame]
    simp only [hsame, false_or]
    constructor
    · intro h
      refine ⟨?_, ?_⟩
      · intro k hb hm
        have hk := h k
        rw [lookup_overlay, hm] at hk
        have hne : ¬ (none = baseline[k]?) := by
          intro hnone
          rw [← hnone] at hb
          cases hb
        rw [if_neg hne] at hk
        simpa using hk
      · intro k v hb hm
        have hk := h k
        rw [lookup_overlay, hm, hb, if_pos rfl] at hk
        simpa using hk.symm
    · intro ⟨hdel, hkeep⟩ k
      rw [lookup_overlay]
      split
      · next heq =>
        cases hm : mutated[k]? with
        | none => rfl
        | some v =>
          rw [hm] at heq
          rw [hkeep k v heq.symm hm]
          rfl
      · next hne =>
        cases hm : mutated[k]? with
        | some v => rfl
        | none =>
          rw [hm] at hne
          have hb : (baseline[k]?).isSome := by
            cases hb : baseline[k]? with
            | none => rw [hb] at hne; exact absurd rfl hne
            | some v => rfl
          rw [hdel k hb hm]
          rfl

/-- Against an unchanged baseline a merge is the writer's dictionary. -/
theorem IsMerge.eq_mutated {baseline mutated result : Dict V}
    (h : IsMerge baseline baseline mutated result) : result = mutated := by
  apply ext_lookup
  intro k
  rw [h k]
  split
  · next heq => exact heq.symm
  · rfl

end Maps

section Lists

variable {T : Type} [DecidableEq T]

/-- Append the elements of `mutated` that `current` does not contain. -/
def unionList (current mutated : List T) : List T :=
  current ++ mutated.filter (fun m => m ∉ current)

/-- Append unless nothing was mutated. -/
def mergeList (current baseline mutated : List T) : List T :=
  if mutated = baseline then current else unionList current mutated

/-- The writer only appended elements that the baseline does not contain. -/
def OnlyAppended (baseline mutated : List T) : Prop :=
  ∃ added, mutated = baseline ++ added ∧ ∀ x ∈ added, x ∉ baseline

/-- Against an unchanged baseline the merged list is the writer's exactly when
    the writer only appended new elements. -/
theorem mergeList_eq_mutated_iff (baseline mutated : List T) :
    mergeList baseline baseline mutated = mutated ↔ OnlyAppended baseline mutated := by
  unfold mergeList unionList
  constructor
  · intro h
    split at h
    · exact ⟨[], by simp [h], fun x hx => by cases hx⟩
    · refine ⟨mutated.filter (fun m => m ∉ baseline), h.symm, ?_⟩
      intro x hx
      simpa using (List.mem_filter.1 hx).2
  · intro ⟨added, hmut, hnew⟩
    split
    · next hsame => exact hsame.symm
    · have hbase : baseline.filter (fun m => m ∉ baseline) = [] := by
        rw [List.filter_eq_nil_iff]
        intro x hx
        simp [hx]
      have hadd : added.filter (fun m => m ∉ baseline) = added := by
        rw [List.filter_eq_self]
        intro x hx
        simp [hnew x hx]
      rw [hmut, List.filter_append, hbase, hadd, List.nil_append]

end Lists

end ThreeWayMerge
