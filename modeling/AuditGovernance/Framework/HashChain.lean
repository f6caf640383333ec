import Mathlib.Data.List.Basic
import Mathlib.Tactic.Ring

/-! # Hash chains and their tilings

    A chain is a list of items that carry a number, a hash and the hash of
    their predecessor. A tiling cuts a chain into consecutive non-empty
    blocks, each described by one summary. Both grow at the end only, which
    is what the two `snoc` rules are for.
-/

namespace HashChain

/-- How an item is linked: its number, its hash, and the hash before it. -/
structure Links (α : Type) where
  seq : α → Int
  prev : α → String
  hash : α → String

variable {α σ : Type} (L : Links α)

/-! ## Section 1: Chains -/

/-- Items numbered from `n` on, the first of which follows the hash `p`. -/
def Linked (n : Int) (p : String) : List α → Prop
  | [] => True
  | a :: rest => L.seq a = n ∧ L.prev a = p ∧ Linked (n + 1) (L.hash a) rest

/-- The hash a chain ends with, `p` when it is empty. -/
def endHash (p : String) (items : List α) : String := (items.getLast?.map L.hash).getD p

@[simp] theorem endHash_nil (p : String) : endHash L p [] = p := rfl

@[simp] theorem endHash_snoc (p : String) (items : List α) (a : α) :
    endHash L p (items ++ [a]) = L.hash a := by
  simp [endHash]

@[simp] theorem endHash_cons (p : String) (a : α) (items : List α) :
    endHash L p (a :: items) = endHash L (L.hash a) items := by
  cases items with
  | nil => rfl
  | cons b rest => simp [endHash, List.getLast?_eq_some_getLast]

theorem endHash_append (p : String) (left right : List α) :
    endHash L p (left ++ right) = endHash L (endHash L p left) right := by
  induction left generalizing p with
  | nil => rfl
  | cons a rest ih => simp only [List.cons_append, endHash_cons, ih]

variable {L}

theorem linked_append {n : Int} {p : String} {left right : List α} :
    Linked L n p (left ++ right) ↔
      Linked L n p left ∧ Linked L (n + left.length) (endHash L p left) right := by
  induction left generalizing n p with
  | nil => simp [Linked]
  | cons a rest ih =>
    have hn : n + 1 + (rest.length : Int) = n + ((a :: rest).length : Int) := by
      simp only [List.length_cons, Nat.cast_add, Nat.cast_one]
      ring
    simp only [List.cons_append, Linked, ih, endHash_cons, hn, and_assoc]

/-- **Growing a chain.** -/
theorem Linked.snoc {n : Int} {p : String} {items : List α} (h : Linked L n p items) {a : α}
    (hseq : L.seq a = n + items.length) (hprev : L.prev a = endHash L p items) :
    Linked L n p (items ++ [a]) :=
  linked_append.2 ⟨h, hseq, hprev, trivial⟩

/-- The items of a chain carry their positions as numbers. -/
theorem Linked.seq_getElem {n : Int} {p : String} {items : List α} (h : Linked L n p items)
    {i : Nat} (hi : i < items.length) : L.seq items[i] = n + i := by
  induction items generalizing n p i with
  | nil => simp at hi
  | cons a rest ih =>
    cases i with
    | zero =>
      have hseq : L.seq a = n := h.1
      simp [hseq]
    | succ i =>
      have hrest := ih h.2.2 (by simpa using hi)
      rw [List.getElem_cons_succ, hrest]
      push_cast
      ring

/-- Every item follows the hash of the item before it. -/
theorem Linked.prev_getElem {n : Int} {p : String} {items : List α} (h : Linked L n p items)
    {i : Nat} (hi : i < items.length) : L.prev items[i] = endHash L p (items.take i) := by
  induction items generalizing n p i with
  | nil => simp at hi
  | cons a rest ih =>
    cases i with
    | zero => exact h.2.1
    | succ i =>
      have hrest := ih h.2.2 (by simpa using hi)
      rw [List.getElem_cons_succ, hrest, List.take_succ_cons, endHash_cons]

/-- Two items of a chain with one number are at one position. -/
theorem Linked.seq_inj {n : Int} {p : String} {items : List α} (h : Linked L n p items)
    {a b : α} (ha : a ∈ items) (hb : b ∈ items) (hab : L.seq a = L.seq b) : a = b := by
  obtain ⟨i, hi, rfl⟩ := List.getElem_of_mem ha
  obtain ⟨j, hj, rfl⟩ := List.getElem_of_mem hb
  rw [h.seq_getElem hi, h.seq_getElem hj] at hab
  have hij : i = j := by omega
  subst hij
  rfl

/-! ## Section 2: Tilings -/

variable (L) (describes : σ → Int → String → List α → Prop)

/-- The summaries describe consecutive blocks that make up the items, which
    start at number `n` and follow the hash `p`. -/
def Tiled (n : Int) (p : String) : List σ → List α → Prop
  | [], items => items = []
  | s :: rest, items => ∃ block tail, items = block ++ tail ∧ block ≠ [] ∧
      describes s n p block ∧ Tiled (n + block.length) (endHash L p block) rest tail

variable {L describes}

/-- **Growing a tiling** by one block at the end. -/
theorem Tiled.snoc {n : Int} {p : String} {tiles : List σ} {items : List α}
    (h : Tiled L describes n p tiles items) {s : σ} {block : List α} (hne : block ≠ [])
    (hd : describes s (n + items.length) (endHash L p items) block) :
    Tiled L describes n p (tiles ++ [s]) (items ++ block) := by
  induction tiles generalizing n p items with
  | nil =>
    have hnil : items = [] := h
    subst hnil
    refine ⟨block, [], by simp, hne, by simpa using hd, rfl⟩
  | cons t rest ih =>
    obtain ⟨first, tail, rfl, hfirst, hdesc, htail⟩ := h
    refine ⟨first, tail ++ block, by simp, hfirst, hdesc, ih htail ?_⟩
    rw [endHash_append, List.length_append, Nat.cast_add, ← add_assoc] at hd
    exact hd

/-- A tile of a tiling describes a block that starts inside it. -/
theorem Tiled.mem {n : Int} {p : String} {tiles : List σ} {items : List α}
    (h : Tiled L describes n p tiles items) {s : σ} (hs : s ∈ tiles) :
    ∃ left block right, items = left ++ block ++ right ∧ block ≠ [] ∧
      describes s (n + left.length) (endHash L p left) block := by
  induction tiles generalizing n p items with
  | nil => cases hs
  | cons t rest ih =>
    obtain ⟨first, tail, rfl, hfirst, hdesc, htail⟩ := h
    rcases List.mem_cons.1 hs with rfl | hs
    · exact ⟨[], first, tail, by simp, hfirst, by simpa using hdesc⟩
    · obtain ⟨left, block, right, rfl, hblock, hdesc'⟩ := ih htail hs
      refine ⟨first ++ left, block, right, by simp, hblock, ?_⟩
      rw [endHash_append, List.length_append, Nat.cast_add, ← add_assoc]
      exact hdesc'

end HashChain
