import Mathlib.Data.List.Dedup
import Mathlib.Data.List.Sort

/-! # Grouped selection

    `GROUP BY` with `any` and `uniqExact` over a list of rows. What `any`
    returns is not fixed: it is a choice of one row of the group, and results
    hold for every choice.
-/

namespace Grouping

variable {ρ κ τ : Type} [DecidableEq κ] [DecidableEq τ]

/-- `GROUP BY key`. -/
def groups (key : ρ → κ) (rows : List ρ) : List (κ × List ρ) :=
  (rows.map key).dedup.map fun k => (k, rows.filter (fun r => key r = k))

/-- `uniqExact(f)`. -/
def uniqExact (f : ρ → τ) (rows : List ρ) : Nat := (rows.map f).dedup.length

/-- A row of every group that has one. -/
structure Choice (ρ : Type) where
  pick : List ρ → ρ
  pick_mem : ∀ rows, rows ≠ [] → pick rows ∈ rows

/-- The first row. -/
def Choice.first [Inhabited ρ] : Choice ρ where
  pick := fun rows => rows.headD default
  pick_mem := by
    intro rows h
    obtain ⟨r, rest, rfl⟩ := List.exists_cons_of_ne_nil h
    exact List.mem_cons_self

theorem mem_groups {key : ρ → κ} {rows : List ρ} {g : κ × List ρ} :
    g ∈ groups key rows ↔ (∃ r ∈ rows, key r = g.1) ∧ g.2 = rows.filter (fun r => key r = g.1) := by
  obtain ⟨k, members⟩ := g
  simp only [groups, List.mem_map, List.mem_dedup, Prod.mk.injEq]
  constructor
  · rintro ⟨_, hk, rfl, rfl⟩
    exact ⟨hk, rfl⟩
  · rintro ⟨hk, hmembers⟩
    exact ⟨k, hk, rfl, hmembers.symm⟩

/-- The group of a row that is there. -/
theorem group_of_mem (key : ρ → κ) {rows : List ρ} {r : ρ} (h : r ∈ rows) :
    (key r, rows.filter (fun s => key s = key r)) ∈ groups key rows :=
  mem_groups.2 ⟨⟨r, h, rfl⟩, rfl⟩

/-- Every key has one group. -/
theorem groups_nodup (key : ρ → κ) (rows : List ρ) :
    ((groups key rows).map Prod.fst).Nodup := by
  have hkeys : (groups key rows).map Prod.fst = (rows.map key).dedup := by
    simp [groups, Function.comp_def]
  rw [hkeys]
  exact List.nodup_dedup _

theorem groups_length_le (key : ρ → κ) (rows : List ρ) :
    (groups key rows).length ≤ rows.length := by
  rw [groups, List.length_map]
  have hsub := (List.dedup_sublist (rows.map key)).length_le
  rwa [List.length_map] at hsub

theorem uniqExact_eq_one {f : ρ → τ} {rows : List ρ} {v : τ} (hne : rows ≠ [])
    (h : ∀ r ∈ rows, f r = v) : uniqExact f rows = 1 := by
  have hrep : rows.map f = List.replicate rows.length v := List.map_eq_replicate_iff.2 h
  rw [uniqExact, hrep, List.replicate_dedup]
  · rfl
  · exact fun hlen => hne (List.eq_nil_of_length_eq_zero hlen)

/-- One value, if and only if any two rows have the same. -/
theorem uniqExact_eq_one_iff {f : ρ → τ} {rows : List ρ} (hne : rows ≠ []) :
    uniqExact f rows = 1 ↔ ∀ r ∈ rows, ∀ s ∈ rows, f r = f s := by
  constructor
  · intro h
    obtain ⟨v, hv⟩ := List.length_eq_one_iff.1 h
    have hall : ∀ r ∈ rows, f r = v := by
      intro r hr
      have hmem : f r ∈ (rows.map f).dedup := List.mem_dedup.2 (List.mem_map_of_mem hr)
      rw [hv] at hmem
      exact List.mem_singleton.1 hmem
    intro r hr s hs
    rw [hall r hr, hall s hs]
  · intro h
    obtain ⟨r, rest, rfl⟩ := List.exists_cons_of_ne_nil hne
    exact uniqExact_eq_one hne fun s hs => h s hs r List.mem_cons_self

/-- A choice from a group of equal rows is that row. -/
theorem Choice.pick_eq (choice : Choice ρ) {rows : List ρ} {r : ρ} (hne : rows ≠ [])
    (h : ∀ s ∈ rows, s = r) : choice.pick rows = r := h _ (choice.pick_mem _ hne)

end Grouping
