import Mathlib

/-! # Finite maps keyed by strings

    A dictionary from strings to values with decidable equality and a
    canonical enumeration. `Std.ExtTreeMap` supplies the structure; this
    module adds the lookup rules in the form the rest of the development
    rewrites with (`k = a` instead of a comparison result), the pointwise
    extensionality principle, and the enumeration facts used when a loop
    ranges over a dictionary.
-/

namespace FiniteMap

/-- Finite dictionary with string keys. -/
abbrev Dict (V : Type) := Std.ExtTreeMap String V

instance decidableEqDict {V : Type} [DecidableEq V] : DecidableEq (Dict V) :=
  Std.ExtTreeMap.instDecidableEqOfLawfulEqCmpOfTransCmpOfLawfulBEq

section Lookup

variable {V W : Type}

/-- Two dictionaries with the same lookups are the same dictionary. -/
theorem ext_lookup {m n : Dict V} (h : ∀ k : String, m[k]? = n[k]?) : m = n :=
  Std.ExtTreeMap.ext_getElem? (fun {k} => h k)

theorem lookup_insert (m : Dict V) (k a : String) (v : V) :
    (m.insert k v)[a]? = if k = a then some v else m[a]? := by
  simp [Std.ExtTreeMap.getElem?_insert]

@[simp] theorem lookup_insert_self (m : Dict V) (k : String) (v : V) :
    (m.insert k v)[k]? = some v := by
  simp

theorem lookup_insert_ne (m : Dict V) {k a : String} (v : V) (h : k ≠ a) :
    (m.insert k v)[a]? = m[a]? := by
  simp [lookup_insert, h]

theorem lookup_erase (m : Dict V) (k a : String) :
    (m.erase k)[a]? = if k = a then none else m[a]? := by
  simp [Std.ExtTreeMap.getElem?_erase]

@[simp] theorem lookup_empty (a : String) : (∅ : Dict V)[a]? = none := by
  simp

/-- Re-inserting the value a key already has changes nothing. -/
theorem insert_lookup_self {m : Dict V} {k : String} {v : V} (h : m[k]? = some v) :
    m.insert k v = m := by
  apply ext_lookup
  intro a
  rw [lookup_insert]
  split
  · next hk => rw [← hk, h]
  · rfl

theorem size_insert_ne_zero (m : Dict V) (k : String) (v : V) : (m.insert k v).size ≠ 0 := by
  rw [Std.ExtTreeMap.size_insert]
  split
  · next hk =>
    intro hsize
    rw [Std.ExtTreeMap.eq_empty_iff_size_eq_zero.2 hsize] at hk
    simp at hk
  · omega

@[simp] theorem insert_insert (m : Dict V) (k : String) (v w : V) :
    (m.insert k v).insert k w = m.insert k w := by
  apply ext_lookup
  intro a
  simp only [lookup_insert]
  split
  · rfl
  · rfl

end Lookup

/-! ## Loops over a dictionary -/

section Loops

variable {V W : Type}

/-- Write every entry of `n` over `m`. -/
def overlay (m n : Dict V) : Dict V := m ∪ n

theorem lookup_overlay (m n : Dict V) (k : String) :
    (overlay m n)[k]? = (n[k]?).or m[k]? :=
  Std.ExtTreeMap.getElem?_union

/-- Insert the entries that `f` keeps, one at a time. -/
def collectList (f : String → V → Option W) (entries : List (String × V)) : Dict W :=
  entries.foldr (fun p acc => match f p.1 p.2 with
    | some w => acc.insert p.1 w
    | none => acc) ∅

/-- The loop `for k, v := range m { if f keeps it, out[k] = f k v }`. -/
def collect (f : String → V → Option W) (m : Dict V) : Dict W := collectList f m.toList

theorem mem_entries {m : Dict V} {k : String} {v : V} : (k, v) ∈ m.toList ↔ m[k]? = some v :=
  Std.ExtTreeMap.mem_toList_iff_getElem?_eq_some

/-- A fact about every entry, in the form that can be evaluated. -/
theorem forall_entries {m : Dict V} {P : String → V → Prop} (h : ∀ p ∈ m.toList, P p.1 p.2) :
    ∀ (k : String) v, m[k]? = some v → P k v := by
  intro k v hk
  exact h (k, v) (mem_entries.2 hk)

/-- The keys of the enumeration are distinct. -/
theorem entries_distinct (m : Dict V) : m.toList.Pairwise (fun a b => a.1 ≠ b.1) := by
  have h := Std.ExtTreeMap.distinct_keys_toList (t := m)
  simpa using h

theorem lookup_collectList (f : String → V → Option W) {entries : List (String × V)}
    (hd : entries.Pairwise (fun a b => a.1 ≠ b.1)) (k : String) (w : W) :
    (collectList f entries)[k]? = some w ↔ ∃ v, (k, v) ∈ entries ∧ f k v = some w := by
  induction entries with
  | nil => simp [collectList]
  | cons p rest ih =>
    obtain ⟨a, v⟩ := p
    rw [List.pairwise_cons] at hd
    have ih := ih hd.2
    have hrest : collectList f ((a, v) :: rest) = match f a v with
        | some w => (collectList f rest).insert a w
        | none => collectList f rest := rfl
    rw [hrest]
    have hnot : ∀ v', (a, v') ∉ rest := by
      intro v' hmem
      exact hd.1 (a, v') hmem rfl
    by_cases hak : a = k
    · subst hak
      cases hf : f a v with
      | some w' =>
        simp only [lookup_insert_self, List.mem_cons, Prod.mk.injEq, true_and]
        constructor
        · intro h
          exact ⟨v, .inl rfl, by rw [hf, h]⟩
        · intro ⟨v', hv', hw⟩
          rcases hv' with hv' | hv'
          · subst hv'
            rw [← hw, hf]
          · exact absurd hv' (hnot v')
      | none =>
        simp only [List.mem_cons, Prod.mk.injEq, true_and]
        rw [ih]
        constructor
        · intro ⟨v', hv', hw⟩
          exact absurd hv' (hnot v')
        · intro ⟨v', hv', hw⟩
          rcases hv' with hv' | hv'
          · subst hv'
            rw [hf] at hw
            cases hw
          · exact absurd hv' (hnot v')
    · have hne : ∀ v', (k, v') ∈ (a, v) :: rest ↔ (k, v') ∈ rest := by
        intro v'
        simp [Ne.symm hak]
      simp only [hne]
      cases f a v with
      | some w' => simp only [lookup_insert_ne _ _ hak]; exact ih
      | none => exact ih

theorem lookup_collect (f : String → V → Option W) (m : Dict V) (k : String) :
    (collect f m)[k]? = (m[k]?).bind (f k) := by
  apply Option.ext
  intro w
  rw [collect, lookup_collectList f (entries_distinct m)]
  simp only [mem_entries, Option.bind_eq_some_iff]

/-- A loop that looks at one key only visits that entry. -/
theorem flatMap_entry {β : Type} (m : Dict V) (k : String) (f : V → List β) :
    m.toList.flatMap (fun p => if p.1 = k then f p.2 else []) = ((m[k]?).map f).getD [] := by
  have hskip : ∀ entries : List (String × V), (∀ p ∈ entries, p.1 ≠ k) →
      entries.flatMap (fun p => if p.1 = k then f p.2 else []) = [] := by
    intro entries hne
    rw [List.flatMap_eq_nil_iff]
    intro p hp
    rw [if_neg (hne p hp)]
  cases hk : m[k]? with
  | none =>
    apply hskip
    intro p hp hpk
    have hlookup := mem_entries.1 (show (p.1, p.2) ∈ m.toList from hp)
    rw [hpk, hk] at hlookup
    cases hlookup
  | some v =>
    obtain ⟨pre, post, hsplit⟩ := List.append_of_mem (mem_entries.2 hk)
    have hd := entries_distinct m
    rw [hsplit, List.pairwise_append, List.pairwise_cons] at hd
    obtain ⟨_, ⟨hpost, _⟩, hpre⟩ := hd
    rw [hsplit, List.flatMap_append, List.flatMap_cons,
      hskip pre (fun p hp => hpre p hp (k, v) List.mem_cons_self),
      hskip post (fun p hp => (hpost p hp).symm)]
    simp

/-- Overlaying dictionaries that agree wherever they overlap gives their
    union. -/
theorem lookup_foldl_overlay {ι : Type} (f : ι → Dict V) (l : List ι) (m : Dict V) (k : String)
    (hm : m[k]? = none)
    (hagree : ∀ a ∈ l, ∀ b ∈ l, ∀ v w, (f a)[k]? = some v → (f b)[k]? = some w → v = w) (v : V) :
    (l.foldl (fun acc a => overlay acc (f a)) m)[k]? = some v ↔ ∃ a ∈ l, (f a)[k]? = some v := by
  induction l using List.reverseRecOn with
  | nil => simp [hm]
  | append_singleton pre a ih =>
    have ih := ih (fun b hb c hc => hagree b (by simp [hb]) c (by simp [hc]))
    rw [List.foldl_append, List.foldl_cons, List.foldl_nil, lookup_overlay]
    constructor
    · intro h
      rcases Option.or_eq_some_iff.1 h with h | ⟨_, h⟩
      · exact ⟨a, by simp, h⟩
      · obtain ⟨b, hb, hv⟩ := ih.1 h
        exact ⟨b, by simp [hb], hv⟩
    · intro ⟨b, hb, hv⟩
      cases ha : (f a)[k]? with
      | some w =>
        -- the last dictionary wins, with the same value
        rw [hagree b hb a (by simp) v w hv ha]
        rfl
      | none =>
        rcases List.mem_append.1 hb with hb | hb
        · simpa using ih.2 ⟨b, hb, hv⟩
        · rw [List.mem_singleton.1 hb, ha] at hv
          cases hv

/-- A loop that marks keys: what is marked afterwards was marked before or by
    one of the turns. -/
theorem isSome_foldl_marks {ι : Type} {step : Dict Unit → ι → Dict Unit} {P : ι → Prop}
    {k : String}
    (hstep : ∀ acc a, ((step acc a)[k]?).isSome = true ↔ (acc[k]?).isSome = true ∨ P a)
    (l : List ι) (m : Dict Unit) :
    ((l.foldl step m)[k]?).isSome = true ↔ (m[k]?).isSome = true ∨ ∃ a ∈ l, P a := by
  induction l generalizing m with
  | nil => simp
  | cons a rest ih =>
    rw [List.foldl_cons, ih, hstep, or_assoc]
    simp only [List.mem_cons, exists_eq_or_imp]

end Loops

/-! ## Counting entries -/

section Counting

variable {V : Type}

theorem entries_nodup (m : Dict V) : m.toList.Nodup :=
  (entries_distinct m).imp (fun hne heq => hne (congrArg Prod.fst heq))

/-- The number of entries whose value `p` holds of. -/
def countValues (p : V → Bool) (m : Dict V) : Nat := m.toList.countP (fun entry => p entry.2)

end Counting

end FiniteMap
