import AuditGovernance.Framework.FiniteMap

/-! # Maps whose entries settle

    An entry has a fixed part, and once it is final it does not change at all.
    `Evolves fixed final m n` says that every entry of `m` is still there in
    `n` and has kept to this. The relation composes, so one lemma per write of
    a program gives the statement for whole runs.
-/

namespace FiniteMap

variable {V W : Type} {fixed : V → W} {final : V → Prop}

/-- The fixed part stays, and a final value stays altogether. -/
def Settles (fixed : V → W) (final : V → Prop) (v w : V) : Prop :=
  fixed w = fixed v ∧ (final v → w = v)

/-- Entries stay, and settle. -/
def Evolves (fixed : V → W) (final : V → Prop) (m n : Dict V) : Prop :=
  ∀ (k : String) (v : V), m[k]? = some v → ∃ w, n[k]? = some w ∧ Settles fixed final v w

theorem Evolves.refl (m : Dict V) : Evolves fixed final m m :=
  fun _ v hv => ⟨v, hv, rfl, fun _ => rfl⟩

theorem Evolves.trans {m n p : Dict V} (h : Evolves fixed final m n)
    (h' : Evolves fixed final n p) : Evolves fixed final m p := by
  intro k v hv
  obtain ⟨w, hw, hfixed, hfinal⟩ := h k v hv
  obtain ⟨x, hx, hfixed', hfinal'⟩ := h' k w hw
  refine ⟨x, hx, hfixed'.trans hfixed, fun hv => ?_⟩
  have hvw := hfinal hv
  subst hvw
  exact hfinal' hv

/-- A write is an evolution when the entry it replaces, if any, settles. -/
theorem Evolves.insert {m : Dict V} {k : String} {w : V}
    (h : ∀ v, m[k]? = some v → Settles fixed final v w) :
    Evolves fixed final m (m.insert k w) := by
  intro a v hv
  by_cases hk : k = a
  · subst hk
    exact ⟨w, lookup_insert_self m k w, h v hv⟩
  · exact ⟨v, (lookup_insert_ne m w hk).trans hv, rfl, fun _ => rfl⟩

end FiniteMap
