import Mathlib.Data.List.Sort

/-! # Interleavings and merges

    Two lists interleave to a third if the third takes the items of both, one
    at a time and each list in its own order. Every occurrence is taken once,
    also where the two lists hold equal items.

    A merge by a comparison is such an interleaving. A first part of an
    interleaving interleaves first parts, and a filter may be applied before or
    after.
-/

namespace Interleaving

variable {α : Type}

/-- The third list takes the items of the first two, each in its order. -/
inductive Interleaves : List α → List α → List α → Prop where
  | nil : Interleaves [] [] []
  | left {x : α} {xs ys zs : List α} : Interleaves xs ys zs → Interleaves (x :: xs) ys (x :: zs)
  | right {y : α} {xs ys zs : List α} : Interleaves xs ys zs → Interleaves xs (y :: ys) (y :: zs)

theorem interleaves_left : ∀ xs : List α, Interleaves xs [] xs
  | [] => .nil
  | _ :: xs => .left (interleaves_left xs)

theorem interleaves_right : ∀ ys : List α, Interleaves [] ys ys
  | [] => .nil
  | _ :: ys => .right (interleaves_right ys)

/-- A merge interleaves, whatever the comparison. -/
theorem interleaves_merge (le : α → α → Bool) (xs ys : List α) :
    Interleaves xs ys (List.merge xs ys le) := by
  induction xs generalizing ys with
  | nil =>
    rw [List.nil_merge]
    exact interleaves_right ys
  | cons x xs ihx =>
    induction ys with
    | nil =>
      rw [List.merge_right]
      exact interleaves_left (x :: xs)
    | cons y ys ihy =>
      rw [List.cons_merge_cons]
      split
      · exact .left (ihx (y :: ys))
      · exact .right ihy

namespace Interleaves

variable {xs ys zs : List α}

/-- Nothing is lost, added or repeated. -/
theorem perm (h : Interleaves xs ys zs) : zs.Perm (xs ++ ys) := by
  induction h with
  | nil => exact .refl _
  | left _ ih => exact ih.cons _
  | right _ ih => exact (ih.cons _).trans List.perm_middle.symm

/-- The items that pass a test interleave as well. -/
theorem filter (p : α → Bool) (h : Interleaves xs ys zs) :
    Interleaves (xs.filter p) (ys.filter p) (zs.filter p) := by
  induction h with
  | nil => exact .nil
  | @left x _ _ _ _ ih =>
    rw [List.filter_cons, List.filter_cons]
    split
    · exact .left ih
    · exact ih
  | @right y _ _ _ _ ih =>
    rw [List.filter_cons, List.filter_cons]
    split
    · exact .right ih
    · exact ih

/-- Where an interleaving is cut, its sources are cut. -/
theorem cut {front back : List α} (h : Interleaves xs ys zs) (hzs : zs = front ++ back) :
    ∃ xs₁ xs₂ ys₁ ys₂, xs = xs₁ ++ xs₂ ∧ ys = ys₁ ++ ys₂ ∧
      Interleaves xs₁ ys₁ front ∧ Interleaves xs₂ ys₂ back := by
  induction h generalizing front with
  | nil =>
    obtain ⟨rfl, rfl⟩ := List.append_eq_nil_iff.1 hzs.symm
    exact ⟨[], [], [], [], rfl, rfl, .nil, .nil⟩
  | @left x xs ys zs h ih =>
    match front with
    | [] =>
      rw [List.nil_append] at hzs
      subst hzs
      exact ⟨[], x :: xs, [], ys, rfl, rfl, .nil, .left h⟩
    | z :: front =>
      rw [List.cons_append, List.cons.injEq] at hzs
      obtain ⟨rfl, hrest⟩ := hzs
      obtain ⟨xs₁, xs₂, ys₁, ys₂, rfl, rfl, hfront, hback⟩ := ih hrest
      exact ⟨x :: xs₁, xs₂, ys₁, ys₂, rfl, rfl, .left hfront, hback⟩
  | @right y xs ys zs h ih =>
    match front with
    | [] =>
      rw [List.nil_append] at hzs
      subst hzs
      exact ⟨[], xs, [], y :: ys, rfl, rfl, .nil, .right h⟩
    | z :: front =>
      rw [List.cons_append, List.cons.injEq] at hzs
      obtain ⟨rfl, hrest⟩ := hzs
      obtain ⟨xs₁, xs₂, ys₁, ys₂, rfl, rfl, hfront, hback⟩ := ih hrest
      exact ⟨xs₁, xs₂, y :: ys₁, ys₂, rfl, rfl, .right hfront, hback⟩

end Interleaves

/-! ## Section 2: Merges by a key -/

section Keyed

variable {κ : Type} [LinearOrder κ] (key : α → κ)

/-- The greater key comes first; the first list wins a tie. -/
def mergeDescending (xs ys : List α) : List α :=
  List.merge xs ys (fun x y => decide (key y ≤ key x))

/-- Keys do not increase along a list. -/
def Descending (xs : List α) : Prop := xs.Pairwise (fun a b => key b ≤ key a)

instance (xs : List α) : Decidable (Descending key xs) :=
  inferInstanceAs (Decidable (xs.Pairwise _))

variable {key} {xs ys : List α}

theorem descending_merge (hxs : Descending key xs) (hys : Descending key ys) :
    Descending key (mergeDescending key xs ys) := by
  have htrans : ∀ a b c : α, decide (key b ≤ key a) = true → decide (key c ≤ key b) = true →
      decide (key c ≤ key a) = true := by
    intro a b c hab hbc
    exact decide_eq_true ((of_decide_eq_true hbc).trans (of_decide_eq_true hab))
  have htotal : ∀ a b : α, (decide (key b ≤ key a) || decide (key a ≤ key b)) = true := by
    intro a b
    rw [Bool.or_eq_true, decide_eq_true_eq, decide_eq_true_eq]
    exact le_total _ _
  exact (List.pairwise_merge htrans htotal xs ys (hxs.imp decide_eq_true)
    (hys.imp decide_eq_true)).imp of_decide_eq_true

/-- The first items of a descending list have the greatest keys. -/
theorem Descending.le_of_take {n : Nat} (h : Descending key xs) {a b : α}
    (ha : a ∈ xs.drop n) (hb : b ∈ xs.take n) : key a ≤ key b := by
  unfold Descending at h
  rw [← List.take_append_drop n xs, List.pairwise_append] at h
  exact h.2.2 b hb a ha

end Keyed

end Interleaving
