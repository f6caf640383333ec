import AuditGovernance.Framework.FiniteMap

/-! # Loops over dictionaries in any order

    A loop over a dictionary visits its entries in an order of its own choosing.
    `RangeOrder` is such a choice, and a result that is the same for every
    choice does not depend on it. The loops met here collect entries, keep the
    best element seen so far, or the best of every group; `nextAfter` then takes
    groups in turn. `fill` is the loop the other way, from a list into a dictionary.
-/

namespace FiniteMap

/-! ## Section 1: Orders of entries -/

/-- The order in which a loop visits the entries of a dictionary. -/
structure RangeOrder where
  entries : {V : Type} → Dict V → List (String × V)
  perm : ∀ {V : Type} (m : Dict V), (entries m).Perm m.toList

/-- The order of the keys. -/
def RangeOrder.byKey : RangeOrder where
  entries m := m.toList
  perm _ := List.Perm.refl _

namespace RangeOrder

variable {V : Type} (order : RangeOrder)

theorem mem_entries {m : Dict V} {k : String} {v : V} :
    (k, v) ∈ order.entries m ↔ m[k]? = some v :=
  (order.perm m).mem_iff.trans FiniteMap.mem_entries

theorem entries_distinct (m : Dict V) :
    (order.entries m).Pairwise (fun a b => a.1 ≠ b.1) :=
  (order.perm m).symm.pairwise (FiniteMap.entries_distinct m) fun h => h.symm

/-- Two orders visit the same entries. -/
theorem entries_perm (order' : RangeOrder) (m : Dict V) :
    (order.entries m).Perm (order'.entries m) :=
  (order.perm m).trans (order'.perm m).symm

end RangeOrder

/-! ## Section 2: The best so far -/

section Best

variable {α κ : Type} [LinearOrder κ]

/-- Keep the best so far, unless the next is strictly better. -/
def keepBest (better : α → α → Bool) (best : Option α) (x : α) : Option α :=
  match best with
  | none => some x
  | some b => if better x b then some x else some b

/-- The loop that keeps the best. -/
def bestOf (better : α → α → Bool) (items : List α) : Option α :=
  items.foldl (keepBest better) none

/-- An element of a list with the least key in it. -/
def LeastBy (key : α → κ) (items : List α) (x : α) : Prop :=
  x ∈ items ∧ ∀ y ∈ items, key x ≤ key y

variable {key : α → κ} {better : α → α → Bool}

/-- The invariant of the loop: the best so far is least among what was seen. -/
theorem foldl_keepBest (hbetter : ∀ x y, better x y = decide (key x < key y))
    (seen items : List α) {best : Option α}
    (hbest : ∀ x, best = some x → LeastBy key seen x)
    (hnone : best = none → seen = []) :
    ∀ x, items.foldl (keepBest better) best = some x → LeastBy key (seen ++ items) x := by
  induction items generalizing seen best with
  | nil =>
    intro x hx
    rw [List.append_nil]
    exact hbest x hx
  | cons y rest ih =>
    have happend : seen ++ y :: rest = (seen ++ [y]) ++ rest := by simp
    rw [happend, List.foldl_cons]
    apply ih
    · intro x hx
      cases hb : best with
      | none =>
        rw [hb] at hx
        cases hx
        rw [hnone hb]
        exact ⟨by simp, by simp⟩
      | some b =>
        obtain ⟨hmem, hleast⟩ := hbest b hb
        rw [hb, keepBest, hbetter] at hx
        split_ifs at hx with hlt
        · cases hx
          rw [decide_eq_true_eq] at hlt
          refine ⟨by simp, ?_⟩
          intro z hz
          rcases List.mem_append.1 hz with hz | hz
          · exact hlt.le.trans (hleast z hz)
          · rw [List.mem_singleton.1 hz]
        · cases hx
          rw [decide_eq_true_eq, not_lt] at hlt
          refine ⟨List.mem_append_left _ hmem, ?_⟩
          intro z hz
          rcases List.mem_append.1 hz with hz | hz
          · exact hleast z hz
          · rw [List.mem_singleton.1 hz]
            exact hlt
    · intro hx
      exfalso
      cases hb : best with
      | none => rw [hb] at hx; cases hx
      | some b =>
        rw [hb, keepBest] at hx
        split_ifs at hx

/-- The loop returns an element with the least key. -/
theorem bestOf_least (hbetter : ∀ x y, better x y = decide (key x < key y)) {items : List α}
    {x : α} (h : bestOf better items = some x) : LeastBy key items x := by
  have hleast := @foldl_keepBest _ _ _ key _ hbetter [] items none (fun x h => by cases h)
    (fun _ => rfl) x h
  rwa [List.nil_append] at hleast

theorem bestOf_isSome (better : α → α → Bool) {items : List α} (hne : items ≠ []) :
    ∃ x, bestOf better items = some x := by
  have hkeep : ∀ (l : List α) (b : α), ∃ x, l.foldl (keepBest better) (some b) = some x := by
    intro l
    induction l with
    | nil => exact fun b => ⟨b, rfl⟩
    | cons y rest ih =>
      intro b
      rw [List.foldl_cons, keepBest]
      split_ifs
      · exact ih y
      · exact ih b
  obtain ⟨y, rest, rfl⟩ := List.exists_cons_of_ne_nil hne
  exact hkeep rest y

/-- Elements with distinct keys have one least element. -/
theorem LeastBy.unique {items : List α} {x y : α} (hx : LeastBy key items x)
    (hy : LeastBy key items y) (hinj : ∀ a ∈ items, ∀ b ∈ items, key a = key b → a = b) : x = y :=
  hinj x hx.1 y hy.1 (le_antisymm (hx.2 y hy.1) (hy.2 x hx.1))

theorem LeastBy.perm {items items' : List α} (hperm : items.Perm items') {x : α}
    (h : LeastBy key items x) : LeastBy key items' x :=
  ⟨hperm.mem_iff.1 h.1, fun y hy => h.2 y (hperm.mem_iff.2 hy)⟩

/-- What the loop returns is the least element, whatever the order. -/
theorem bestOf_eq_iff (hbetter : ∀ x y, better x y = decide (key x < key y)) {items : List α}
    (hinj : ∀ a ∈ items, ∀ b ∈ items, key a = key b → a = b) {x : α} :
    bestOf better items = some x ↔ LeastBy key items x := by
  constructor
  · exact bestOf_least hbetter
  · intro hleast
    obtain ⟨y, hy⟩ := bestOf_isSome better (List.ne_nil_of_mem hleast.1)
    rw [hy, (bestOf_least hbetter hy).unique hleast hinj]

end Best

/-! ## Section 3: The best of every group -/

section Groups

variable {α : Type}

/-- Keep the best of every group. -/
def offer (group : α → String) (better : α → α → Bool) (best : Dict α) (x : α) : Dict α :=
  match best[group x]? with
  | none => best.insert (group x) x
  | some b => if better x b then best.insert (group x) x else best

/-- One round concerns the group of its element only. -/
theorem lookup_offer (group : α → String) (better : α → α → Bool) (best : Dict α) (x : α)
    (g : String) :
    (offer group better best x)[g]? =
      if group x = g then keepBest better best[g]? x else best[g]? := by
  unfold offer keepBest
  split_ifs with hg
  · subst hg
    split
    next => rw [lookup_insert_self]
    next b hsome =>
      split_ifs
      · rw [lookup_insert_self]
      · exact hsome
  · split
    · rw [lookup_insert_ne _ _ hg]
    · split_ifs
      · rw [lookup_insert_ne _ _ hg]
      · rfl

/-- The loop keeps for every group what the loop over the group keeps. -/
theorem lookup_foldl_offer (group : α → String) (better : α → α → Bool) (items : List α)
    (best : Dict α) (g : String) :
    (items.foldl (offer group better) best)[g]? =
      (items.filter (fun x => group x = g)).foldl (keepBest better) best[g]? := by
  induction items generalizing best with
  | nil => rfl
  | cons x rest ih =>
    rw [List.foldl_cons, ih, lookup_offer, List.filter_cons]
    by_cases hg : group x = g
    · simp [hg]
    · simp [hg]

end Groups

/-! ## Section 4: Groups in turn -/

section Turns

variable {α κ ρ : Type} [LinearOrder κ] [LinearOrder ρ]

/-- The least of `S` above `after`, or the least of all when none is above. -/
def NextInTurn (S : Set κ) (after t : κ) : Prop :=
  t ∈ S ∧ ((after < t ∧ ∀ u ∈ S, after < u → t ≤ u) ∨
    ((∀ u ∈ S, u ≤ after) ∧ ∀ u ∈ S, t ≤ u))

theorem NextInTurn.unique {S : Set κ} {after t u : κ} (ht : NextInTurn S after t)
    (hu : NextInTurn S after u) : t = u := by
  obtain ⟨htS, ⟨hta, htleast⟩ | ⟨htall, htleast⟩⟩ := ht
  · obtain ⟨huS, ⟨hua, huleast⟩ | ⟨huall, -⟩⟩ := hu
    · exact le_antisymm (htleast u huS hua) (huleast t htS hta)
    · exact absurd hta (not_lt.2 (huall t htS))
  · obtain ⟨huS, ⟨hua, -⟩ | ⟨-, huleast⟩⟩ := hu
    · exact absurd hua (not_lt.2 (htall u huS))
    · exact le_antisymm (htleast u huS) (huleast t htS)

/-- The scan of a sorted list: the first above `after`, or the first. -/
def nextAfter (group : α → κ) (after : κ) (items : List α) : Option α :=
  match items.find? (fun x => after < group x) with
  | some x => some x
  | none => items.head?

theorem nextAfter_isSome (group : α → κ) (after : κ) {items : List α} (hne : items ≠ []) :
    ∃ x, nextAfter group after items = some x := by
  unfold nextAfter
  split
  next x hx => exact ⟨x, rfl⟩
  · exact ⟨items.head hne, List.head?_eq_some_head hne⟩

/-- On a list sorted by group and then by rank, the scan returns the first of the
    group whose turn it is. -/
theorem nextAfter_spec {group : α → κ} {rank : α → ρ} {after : κ} {items : List α} {x : α}
    (hsorted : items.Pairwise (fun a b => group a < group b ∨
      (group a = group b ∧ rank a ≤ rank b)))
    (h : nextAfter group after items = some x) :
    x ∈ items ∧ NextInTurn {t | ∃ y ∈ items, group y = t} after (group x) ∧
      ∀ y ∈ items, group y = group x → rank x ≤ rank y := by
  have hgroup : ∀ {a b : α}, group a < group b ∨ (group a = group b ∧ rank a ≤ rank b) →
      group a ≤ group b := by
    rintro a b (hlt | ⟨heq, -⟩)
    · exact hlt.le
    · exact heq.le
  have hrank : ∀ {a b : α}, group a < group b ∨ (group a = group b ∧ rank a ≤ rank b) →
      group b = group a → rank a ≤ rank b := by
    rintro a b (hlt | ⟨-, hle⟩) heq
    · exact absurd (heq ▸ hlt) (lt_irrefl _)
    · exact hle
  unfold nextAfter at h
  split at h
  · -- Whatever is above `after` stands at `x` or behind it.
    next x' hfind =>
    cases h
    obtain ⟨habove, front, back, rfl, hfront⟩ := List.find?_eq_some_iff_append.1 hfind
    rw [decide_eq_true_eq] at habove
    have hbehind : ∀ y ∈ front ++ x :: back, after < group y → y = x ∨ y ∈ back := by
      intro y hy hlt
      rcases List.mem_append.1 hy with hy | hy
      · have := hfront y hy
        simp only [Bool.not_eq_true', decide_eq_false_iff_not] at this
        exact absurd hlt this
      · exact List.mem_cons.1 hy
    have hback := (List.pairwise_cons.1 (List.pairwise_append.1 hsorted).2.1).1
    refine ⟨by simp, ⟨⟨x, by simp, rfl⟩, .inl ⟨habove, ?_⟩⟩, ?_⟩
    · rintro u ⟨y, hy, rfl⟩ hlt
      rcases hbehind y hy hlt with rfl | hy
      · exact le_refl _
      · exact hgroup (hback y hy)
    · intro y hy heq
      rcases hbehind y hy (heq ▸ habove) with rfl | hy
      · exact le_refl _
      · exact hrank (hback y hy) heq
  · next hfind =>
    rw [List.find?_eq_none] at hfind
    obtain ⟨back, rfl⟩ := List.head?_eq_some_iff.1 h
    have hback := (List.pairwise_cons.1 hsorted).1
    refine ⟨List.mem_cons_self, ⟨⟨x, List.mem_cons_self, rfl⟩, .inr ⟨?_, ?_⟩⟩, ?_⟩
    · rintro u ⟨y, hy, rfl⟩
      have := hfind y hy
      rw [decide_eq_true_eq] at this
      exact not_lt.1 this
    · rintro u ⟨y, hy, rfl⟩
      rcases List.mem_cons.1 hy with rfl | hy
      · exact le_refl _
      · exact hgroup (hback y hy)
    · intro y hy heq
      rcases List.mem_cons.1 hy with rfl | hy
      · exact le_refl _
      · exact hrank (hback y hy) heq

end Turns

/-! ## Section 5: Dictionaries filled from a list -/

section Filling

variable {α V : Type} (key : α → String) (value : α → V)

/-- The loop that enters every element under its key. -/
def fill (items : List α) (m : Dict V) : Dict V :=
  items.foldl (fun m x => m.insert (key x) (value x)) m

theorem lookup_fill_of_notMem {items : List α} {k : String} (h : k ∉ items.map key) (m : Dict V) :
    (fill key value items m)[k]? = m[k]? := by
  induction items generalizing m with
  | nil => rfl
  | cons x rest ih =>
    rw [List.map_cons, List.mem_cons, not_or] at h
    show (fill key value rest (m.insert (key x) (value x)))[k]? = m[k]?
    rw [ih h.2, lookup_insert_ne m (value x) (fun heq => h.1 heq.symm)]

theorem lookup_fill_of_mem {items : List α} (hdistinct : (items.map key).Nodup) {x : α}
    (hx : x ∈ items) (m : Dict V) : (fill key value items m)[key x]? = some (value x) := by
  induction items generalizing m with
  | nil => cases hx
  | cons y rest ih =>
    rw [List.map_cons, List.nodup_cons] at hdistinct
    show (fill key value rest (m.insert (key y) (value y)))[key x]? = some (value x)
    rcases List.mem_cons.1 hx with rfl | hx
    · rw [lookup_fill_of_notMem key value hdistinct.1, lookup_insert_self]
    · exact ih hdistinct.2 hx _

/-- With distinct keys nothing is overwritten: the entries are the elements. -/
theorem fill_entries_perm {items : List α} (hdistinct : (items.map key).Nodup) :
    (fill key value items ∅).toList.Perm (items.map fun x => (key x, value x)) := by
  have hnodup : (items.map fun x => (key x, value x)).Nodup := by
    refine List.Nodup.of_map Prod.fst ?_
    rwa [List.map_map]
  rw [List.perm_ext_iff_of_nodup (entries_nodup _) hnodup]
  rintro ⟨k, v⟩
  rw [FiniteMap.mem_entries, List.mem_map]
  constructor
  · intro hlookup
    by_cases hk : k ∈ items.map key
    · obtain ⟨x, hx, rfl⟩ := List.mem_map.1 hk
      rw [lookup_fill_of_mem key value hdistinct hx] at hlookup
      exact ⟨x, hx, by rw [Option.some.inj hlookup]⟩
    · rw [lookup_fill_of_notMem key value hk, lookup_empty] at hlookup
      cases hlookup
  · rintro ⟨x, hx, heq⟩
    obtain ⟨rfl, rfl⟩ := Prod.mk.inj heq
    exact lookup_fill_of_mem key value hdistinct hx _

end Filling

end FiniteMap
