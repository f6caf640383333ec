import Mathlib.Data.List.Sort
import Mathlib.Order.Basic

/-! # Keyset paging

    A server keeps a list sorted by a key and hands it out page by page. Every
    page but the last carries a cursor made of the key of its last item, and
    the page behind a cursor starts with the first item whose key is strictly
    greater.

    Items of one key that a page boundary separates are therefore lost. The
    walk visits every item exactly if no boundary separates such items and the
    server accepts the cursors it issued (`Keyset.visitsOnce_iff`).
-/

namespace Paging

/-! ## Section 1: Walks -/

/-- One answer: its items, and the cursor of the next page if there is one. -/
structure Page (α γ : Type) where
  items : List α
  next : Option γ

section Walks

variable {α γ ε : Type} (ask : γ → Except ε (Page α γ))

/-- The pages from a cursor on, up to the last one, hold the items. A walk that
    meets an error or never ends follows to nothing. -/
inductive Follows : γ → List α → Prop where
  | last {c : γ} {items : List α} : ask c = .ok ⟨items, none⟩ → Follows c items
  | more {c c' : γ} {items rest : List α} : ask c = .ok ⟨items, some c'⟩ → Follows c' rest →
      Follows c (items ++ rest)

/-- The walk ends, and has visited each of the selected items once, in order. -/
def VisitsOnce (start : γ) (le : α → α → Prop) (selected : List α) : Prop :=
  ∃ visited, Follows ask start visited ∧ visited.Perm selected ∧ visited.Pairwise le

end Walks

/-! ## Section 2: Ties -/

section Ties

variable {α κ : Type} [LinearOrder κ] (key : α → κ)

/-- How many items have a smaller key. -/
def before (items : List α) (x : α) : Nat := items.countP (fun y => key y < key x)

/-- How many items have the same key. -/
def tied (items : List α) (x : α) : Nat := items.countP (fun y => key y = key x)

/-- No multiple of the page size falls inside a run of items of one key. -/
def Unsplit (n : Nat) (items : List α) : Prop :=
  ∀ x ∈ items, ∀ m, n ∣ m →
    ¬ (before key items x < m ∧ m < before key items x + tied key items x)

/-- The items behind a position. -/
def behind (c : κ) (items : List α) : List α := items.filter (fun x => c < key x)

variable {key}

theorem Unsplit.perm {n : Nat} {items items' : List α} (hperm : items.Perm items')
    (h : Unsplit key n items) : Unsplit key n items' := by
  intro x hx m hm
  have hbefore : before key items' x = before key items x := (hperm.countP_eq _).symm
  have htied : tied key items' x = tied key items x := (hperm.countP_eq _).symm
  rw [hbefore, htied]
  exact h x (hperm.mem_iff.2 hx) m hm

/-- Items with distinct keys are never separated. -/
theorem unsplit_of_distinct {items : List α} (h : items.Pairwise (fun a b => key a ≠ key b))
    (n : Nat) : Unsplit key n items := by
  have hone : ∀ x, tied key items x ≤ 1 := by
    intro x
    unfold tied
    induction items with
    | nil => exact Nat.zero_le _
    | cons y rest ih =>
      rw [List.pairwise_cons] at h
      rw [List.countP_cons]
      split_ifs with hy
      · have hkey : key y = key x := of_decide_eq_true hy
        have hnone : rest.countP (fun z => key z = key x) = 0 := by
          rw [List.countP_eq_zero]
          intro z hz htie
          exact h.1 z hz (hkey.trans (of_decide_eq_true htie).symm)
        omega
      · have hrest := ih h.2
        omega
  intro x _ m _ hm
  have hx := hone x
  omega

/-- Smaller keys and equal keys together. -/
theorem before_add_tied (items : List α) (x : α) :
    before key items x + tied key items x = items.countP (fun y => key y ≤ key x) := by
  unfold before tied
  induction items with
  | nil => rfl
  | cons y rest ih =>
    simp only [List.countP_cons, decide_eq_true_eq]
    rcases lt_trichotomy (key y) (key x) with hlt | heq | hgt
    · rw [if_pos hlt, if_neg (ne_of_lt hlt), if_pos hlt.le]
      omega
    · rw [if_neg (not_lt_of_ge heq.ge), if_pos heq, if_pos heq.le]
      omega
    · rw [if_neg (not_lt_of_gt hgt), if_neg (ne_of_gt hgt), if_neg (not_le_of_gt hgt)]
      omega

theorem unsplit_of_length {n : Nat} {items : List α} (h : items.length ≤ n) :
    Unsplit key n items := by
  intro x _ m hm hinside
  have hcount := @before_add_tied _ _ _ key items x
  have hlen := List.countP_le_length (p := fun y => decide (key y ≤ key x)) (l := items)
  have hle : n ≤ m := Nat.le_of_dvd (by omega) hm
  omega

/-! ### One page and the rest -/

variable {page rest : List α} {x : α}

theorem before_append (page rest : List α) (y : α) :
    before key (page ++ rest) y = before key page y + before key rest y := List.countP_append

theorem tied_append (page rest : List α) (y : α) :
    tied key (page ++ rest) y = tied key page y + tied key rest y := List.countP_append

/-- An item behind a page has the whole page before it and ties with none of
    it. -/
theorem counts_behind_page (hpage : ∀ z ∈ page, key z ≤ key x) {y : α} (hy : key x < key y) :
    before key page y = page.length ∧ tied key page y = 0 := by
  constructor
  · unfold before
    rw [List.countP_eq_length]
    intro z hz
    exact decide_eq_true ((hpage z hz).trans_lt hy)
  · unfold tied
    rw [List.countP_eq_zero]
    intro z hz htie
    exact ne_of_lt ((hpage z hz).trans_lt hy) (of_decide_eq_true htie)

/-- If the first page ends inside a run of one key, the run is split. -/
theorem Unsplit.page_boundary (h : Unsplit key page.length (page ++ rest)) (hx : x ∈ page)
    (hpage : ∀ z ∈ page, key z ≤ key x) (hrest : ∀ z ∈ rest, key x ≤ key z) :
    ∀ y ∈ rest, key x < key y := by
  intro y hy
  by_contra hle
  have hbefore : before key (page ++ rest) x < page.length := by
    have hnone : before key rest x = 0 := by
      unfold before
      rw [List.countP_eq_zero]
      intro z hz hlt
      exact not_lt_of_ge (hrest z hz) (of_decide_eq_true hlt)
    have hsome : before key page x < page.length := by
      apply lt_of_le_of_ne List.countP_le_length
      intro hall
      exact lt_irrefl _ (of_decide_eq_true (List.countP_eq_length.1 hall x hx))
    rw [before_append, hnone]
    exact hsome
  have hafter : page.length < before key (page ++ rest) x + tied key (page ++ rest) x := by
    rw [before_add_tied, List.countP_append]
    have hall : page.countP (fun z => key z ≤ key x) = page.length := by
      rw [List.countP_eq_length]
      intro z hz
      exact decide_eq_true (hpage z hz)
    have hmore : 0 < rest.countP (fun z => key z ≤ key x) := by
      rw [List.countP_pos_iff]
      exact ⟨y, hy, decide_eq_true (not_lt.1 hle)⟩
    omega
  exact h x (List.mem_append_left _ hx) page.length (Nat.dvd_refl _) ⟨hbefore, hafter⟩

/-- **Ties, page by page.** -/
theorem unsplit_append_iff (hx : x ∈ page) (hpage : ∀ z ∈ page, key z ≤ key x)
    (hrest : ∀ z ∈ rest, key x ≤ key z) :
    Unsplit key page.length (page ++ rest) ↔
      (∀ y ∈ rest, key x < key y) ∧ Unsplit key page.length rest := by
  constructor
  · intro h
    have hbehind := h.page_boundary hx hpage hrest
    refine ⟨hbehind, ?_⟩
    intro y hy m hm hinside
    obtain ⟨hbefore, htied⟩ := counts_behind_page hpage (hbehind y hy)
    apply h y (List.mem_append_right _ hy) (page.length + m) (Nat.dvd_add (Nat.dvd_refl _) hm)
    rw [before_append, tied_append]
    omega
  · rintro ⟨hbehind, h⟩ y hy m hm hinside
    have hlong : page.length ≤ m := Nat.le_of_dvd (by omega) hm
    rcases List.mem_append.1 hy with hy | hy
    · -- All that is not greater than `y` lies in the page.
      have hnone : rest.countP (fun z => key z ≤ key y) = 0 := by
        rw [List.countP_eq_zero]
        intro z hz hle
        exact not_le_of_gt ((hpage y hy).trans_lt (hbehind z hz)) (of_decide_eq_true hle)
      have hcount := @before_add_tied _ _ _ key (page ++ rest) y
      have hlen := List.countP_le_length (p := fun z => decide (key z ≤ key y)) (l := page)
      rw [List.countP_append, hnone] at hcount
      omega
    · obtain ⟨hbefore, htied⟩ := counts_behind_page hpage (hbehind y hy)
      rw [before_append, tied_append] at hinside
      apply h y hy (m - page.length) (Nat.dvd_sub hm (Nat.dvd_refl _))
      omega

end Ties

/-! ## Section 3: Keyset servers -/

section Servers

variable {α κ γ ε : Type} [LinearOrder κ]

/-- The first page of a list. -/
def firstPage (n : Nat) (text : α → γ) (items : List α) : Page α γ :=
  ⟨items.take n, if items.length ≤ n then none else ((items.take n).getLast?).map text⟩

/-- A server over a sorted list. It may refuse cursors, but not that of an item
    behind one whose cursor it accepts. -/
structure Keyset (key : α → κ) (ask : γ → Except ε (Page α γ)) (start : γ) (n : Nat)
    (text : α → γ) (accepts : α → Bool) (items : List α) : Prop where
  positive : 0 < n
  sorted : items.Pairwise (fun a b => key a ≤ key b)
  first : ask start = .ok (firstPage n text items)
  next : ∀ x ∈ items, accepts x = true →
    ask (text x) = .ok (firstPage n text (behind key (key x) items))
  refused : ∀ x ∈ items, accepts x = false → ∀ page, ask (text x) ≠ .ok page
  upward : ∀ x ∈ items, ∀ y ∈ items, key x ≤ key y → accepts x = true → accepts y = true

variable {key : α → κ} {ask : γ → Except ε (Page α γ)} {start : γ} {n : Nat} {text : α → γ}
  {accepts : α → Bool} {items : List α}

theorem firstPage_short {left : List α} (h : left.length ≤ n) :
    firstPage n text left = ⟨left, none⟩ := by
  rw [firstPage, if_pos h, List.take_of_length_le h]

/-- A full page, its last item, and what comes behind it. -/
theorem firstPage_long {left : List α} (hn : 0 < n) (h : n < left.length) :
    ∃ x page rest, left = page ++ rest ∧ page.length = n ∧ page.getLast? = some x ∧
      firstPage n text left = ⟨page, some (text x)⟩ := by
  have hlength : (left.take n).length = n := List.length_take_of_le h.le
  have hne : left.take n ≠ [] := by
    intro hnil
    rw [hnil, List.length_nil] at hlength
    omega
  refine ⟨(left.take n).getLast hne, left.take n, left.drop n, (List.take_append_drop n left).symm,
    hlength, List.getLast?_eq_some_getLast hne, ?_⟩
  rw [firstPage, if_neg (by omega), List.getLast?_eq_some_getLast hne]
  rfl

/-- The last item of a sorted page has the greatest key in it. -/
theorem page_le_last {page rest : List α} {x : α}
    (h : (page ++ rest).Pairwise (fun a b => key a ≤ key b)) (hx : page.getLast? = some x) :
    (∀ z ∈ page, key z ≤ key x) ∧ ∀ z ∈ rest, key x ≤ key z := by
  obtain ⟨init, rfl⟩ := List.getLast?_eq_some_iff.1 hx
  rw [List.append_assoc, List.pairwise_append] at h
  obtain ⟨-, htail, hcross⟩ := h
  rw [List.cons_append, List.pairwise_cons] at htail
  constructor
  · intro z hz
    rcases List.mem_append.1 hz with hz | hz
    · exact hcross z hz x (by simp)
    · rw [List.mem_singleton.1 hz]
  · intro z hz
    exact htail.1 z (by simpa using hz)

/-- A loop that skips a sorted list up to a key leaves what is behind the
    key. -/
theorem dropWhile_eq_behind {items : List α} (hsorted : items.Pairwise (fun a b => key a ≤ key b))
    (c : κ) : items.dropWhile (fun x => !decide (c < key x)) = behind key c items := by
  induction items with
  | nil => rfl
  | cons x rest ih =>
    rw [List.pairwise_cons] at hsorted
    unfold behind at ih ⊢
    by_cases hx : c < key x
    · have hall : ∀ y ∈ x :: rest, decide (c < key y) = true := by
        intro y hy
        rcases List.mem_cons.1 hy with rfl | hy
        · exact decide_eq_true hx
        · exact decide_eq_true (hx.trans_le (hsorted.1 y hy))
      rw [List.dropWhile_cons_of_neg (by simpa using hx), List.filter_eq_self.2 hall]
    · rw [List.dropWhile_cons_of_pos (by simpa using hx), ih hsorted.2,
        List.filter_cons_of_neg (by simpa using hx)]

/-- What is left of the list: a tail of it, in which the same items are behind
    any of its own. -/
structure Left (key : α → κ) (items left : List α) : Prop where
  sorted : left.Pairwise (fun a b => key a ≤ key b)
  subset : ∀ x ∈ left, x ∈ items
  behind : ∀ x ∈ left, behind key (key x) items = behind key (key x) left

theorem Keyset.left (h : Keyset key ask start n text accepts items) : Left key items items :=
  ⟨h.sorted, fun _ hx => hx, fun _ _ => rfl⟩

theorem Left.next {left : List α} (h : Left key items left) (x : α) :
    Left key items (Paging.behind key (key x) left) := by
  refine ⟨h.sorted.sublist List.filter_sublist, ?_, ?_⟩
  · intro y hy
    exact h.subset y (List.mem_of_mem_filter hy)
  · intro y hy
    obtain ⟨hmem, hlt⟩ := List.mem_filter.1 hy
    rw [h.behind y hmem]
    unfold Paging.behind
    rw [List.filter_filter]
    apply List.filter_congr
    intro z _
    have hchain : key y < key z → key x < key z := fun hz => (of_decide_eq_true hlt).trans hz
    by_cases hz : key y < key z
    · simp [hz, hchain hz]
    · simp [hz]

/-- What is behind a page lies in the rest. -/
theorem behind_page {page rest : List α} {x : α} (hpage : ∀ z ∈ page, key z ≤ key x) :
    behind key (key x) (page ++ rest) = behind key (key x) rest := by
  unfold behind
  rw [List.filter_append, List.filter_eq_nil_iff.2, List.nil_append]
  intro z hz hlt
  exact not_lt_of_ge (hpage z hz) (of_decide_eq_true hlt)

/-- A walk loses items at most. -/
theorem Keyset.follows_sublist (h : Keyset key ask start n text accepts items) {c : γ}
    {visited left : List α} (hleft : Left key items left)
    (hc : ask c = .ok (firstPage n text left)) (hwalk : Follows ask c visited) :
    visited.Sublist left := by
  induction hwalk generalizing left with
  | @last c page hpage =>
    rw [hc] at hpage
    rcases Nat.lt_or_ge n left.length with hlong | hshort
    · obtain ⟨x, page', rest, rfl, -, -, heq⟩ := @firstPage_long _ _ n text left h.positive hlong
      rw [heq] at hpage
      cases hpage
    · rw [firstPage_short hshort] at hpage
      cases hpage
      exact List.Sublist.refl _
  | @more c c' page visited hpage hmore ih =>
    rw [hc] at hpage
    rcases Nat.lt_or_ge n left.length with hlong | hshort
    · obtain ⟨x, page', rest, rfl, -, hlast, heq⟩ :=
        @firstPage_long _ _ n text left h.positive hlong
      rw [heq] at hpage
      cases hpage
      obtain ⟨hle, -⟩ := page_le_last hleft.sorted hlast
      have hmem : x ∈ page ++ rest := List.mem_append_left _ (List.mem_of_getLast? hlast)
      cases haccepts : accepts x with
      | false =>
        -- The walk goes on, so this cursor was not refused.
        exfalso
        rcases hmore with hnext | ⟨hnext, -⟩
        · exact h.refused x (hleft.subset x hmem) haccepts _ hnext
        · exact h.refused x (hleft.subset x hmem) haccepts _ hnext
      | true =>
        have hnext := h.next x (hleft.subset x hmem) haccepts
        rw [hleft.behind x hmem] at hnext
        have hsub := ih (hleft.next x) hnext
        rw [behind_page hle] at hsub
        exact List.Sublist.append_left (hsub.trans List.filter_sublist) page
    · rw [firstPage_short hshort] at hpage
      cases hpage

/-- The walk from a cursor visits all that is left exactly if no run of one key
    is split and the first cursor it needs is accepted. The induction is on how
    much is left. -/
theorem Keyset.follows_iff (h : Keyset key ask start n text accepts items) {c : γ}
    {left : List α} (hleft : Left key items left) (hc : ask c = .ok (firstPage n text left)) :
    Follows ask c left ↔ Unsplit key n left ∧
      (left.length ≤ n ∨ left.countP (fun x => !accepts x) < n) := by
  have hpos := h.positive
  obtain ⟨bound, hbound⟩ : ∃ bound, left.length ≤ bound := ⟨_, Nat.le_refl _⟩
  induction bound generalizing c left with
  | zero =>
    have hshort : left.length ≤ n := by omega
    rw [firstPage_short hshort] at hc
    exact ⟨fun _ => ⟨unsplit_of_length hshort, .inl hshort⟩, fun _ => .last hc⟩
  | succ bound ih =>
    rcases Nat.lt_or_ge n left.length with hlong | hshort
    swap
    · rw [firstPage_short hshort] at hc
      exact ⟨fun _ => ⟨unsplit_of_length hshort, .inl hshort⟩, fun _ => .last hc⟩
    obtain ⟨x, page, rest, rfl, rfl, hlast, heq⟩ := @firstPage_long _ _ n text left hpos hlong
    rw [heq] at hc
    obtain ⟨hpage, hrest⟩ := page_le_last hleft.sorted hlast
    have hx : x ∈ page := List.mem_of_getLast? hlast
    have hmem : x ∈ page ++ rest := List.mem_append_left _ hx
    have hitem : x ∈ items := hleft.subset x hmem
    have hnotshort : ¬ (page ++ rest).length ≤ page.length := by omega
    have hwalk : Follows ask c (page ++ rest) ↔ Follows ask (text x) rest := by
      constructor
      · intro hfollows
        generalize hall : page ++ rest = all at hfollows
        rcases hfollows with hpage' | ⟨hpage', hmore⟩
        · rw [hc] at hpage'
          cases hpage'
        · rw [hc] at hpage'
          cases hpage'
          rwa [List.append_cancel_left hall]
      · exact Follows.more hc
    rw [hwalk, unsplit_append_iff hx hpage hrest]
    cases haccepts : accepts x with
    | false =>
      -- No item of the page is accepted, as the last one is not.
      have hnone : ¬ (page ++ rest).countP (fun x => !accepts x) < page.length := by
        have hall : page.countP (fun x => !accepts x) = page.length := by
          rw [List.countP_eq_length]
          intro z hz
          rw [Bool.not_eq_true']
          by_contra hz'
          have hup := h.upward z (hleft.subset z (List.mem_append_left _ hz)) x hitem
            (hpage z hz) (by simpa using hz')
          rw [haccepts] at hup
          cases hup
        rw [List.countP_append, hall]
        omega
      constructor
      · intro hfollows
        exfalso
        rcases hfollows with hnext | ⟨hnext, -⟩
        · exact h.refused x hitem haccepts _ hnext
        · exact h.refused x hitem haccepts _ hnext
      · rintro ⟨-, hshort | hfew⟩
        · exact absurd hshort hnotshort
        · exact absurd hfew hnone
    | true =>
      have hnext := h.next x hitem haccepts
      rw [hleft.behind x hmem] at hnext
      have hnone : rest.countP (fun x => !accepts x) = 0 := by
        rw [List.countP_eq_zero]
        intro z hz hrefused
        have hup := h.upward x hitem z (hleft.subset z (List.mem_append_right _ hz))
          (hrest z hz) haccepts
        simp [hup] at hrefused
      have hfew : (page ++ rest).countP (fun x => !accepts x) < page.length := by
        have hsome : page.countP (fun x => !accepts x) < page.length := by
          apply lt_of_le_of_ne List.countP_le_length
          intro hall
          have hx' := List.countP_eq_length.1 hall x hx
          simp [haccepts] at hx'
        rw [List.countP_append, hnone]
        exact hsome
      have htail := hleft.next x
      rw [behind_page hpage] at hnext htail
      constructor
      · intro hfollows
        -- Nothing of the rest can be missing behind the cursor.
        have hsub := h.follows_sublist htail hnext hfollows
        have hall : behind key (key x) rest = rest := List.filter_sublist.antisymm hsub
        rw [hall] at hnext htail
        refine ⟨⟨?_, ((ih htail hnext (by simp at hbound; omega)).1 hfollows).1⟩, .inr hfew⟩
        intro y hy
        exact of_decide_eq_true (List.filter_eq_self.1 hall y hy)
      · rintro ⟨⟨hbehind, hunsplit⟩, -⟩
        have hall : behind key (key x) rest = rest :=
          List.filter_eq_self.2 fun y hy => decide_eq_true (hbehind y hy)
        rw [hall] at hnext htail
        exact (ih htail hnext (by simp at hbound; omega)).2 ⟨hunsplit, .inr (by omega)⟩

/-- **Keyset paging.** The walk from the first page visits every selected item
    once, in order, exactly if no page boundary separates items of one key and
    fewer items than one page has are refused as cursors, or one page is
    enough. -/
theorem Keyset.visitsOnce_iff (h : Keyset key ask start n text accepts items)
    {selected : List α} (hperm : items.Perm selected) :
    VisitsOnce ask start (fun a b => key a ≤ key b) selected ↔ Unsplit key n selected ∧
      (selected.length ≤ n ∨ selected.countP (fun x => !accepts x) < n) := by
  have hiff := h.follows_iff h.left h.first
  rw [hperm.length_eq, hperm.countP_eq] at hiff
  constructor
  · rintro ⟨visited, hwalk, hvisited, -⟩
    have hsub := h.follows_sublist h.left h.first hwalk
    have heq : visited = items :=
      hsub.eq_of_length (hvisited.length_eq.trans hperm.length_eq.symm)
    rw [heq] at hwalk
    exact ⟨(hiff.1 hwalk).1.perm hperm, (hiff.1 hwalk).2⟩
  · rintro ⟨hunsplit, haccepted⟩
    exact ⟨items, hiff.2 ⟨hunsplit.perm hperm.symm, haccepted⟩, hperm, h.sorted⟩

end Servers

/-! ## Section 4: Sorting

    A sorting routine permutes a list by a comparison of keys. Which order items
    of one key come out in is not said. -/

structure SliceSort where
  run : {α : Type} → (α → α → Bool) → List α → List α
  perm : ∀ {α : Type} (less : α → α → Bool) (items : List α), (run less items).Perm items
  sorted : ∀ {α κ : Type} [LinearOrder κ] (key : α → κ) (items : List α),
    (run (fun a b => key a < key b) items).Pairwise (fun a b => key a ≤ key b)

/-- Merge sort is one. -/
def SliceSort.merge : SliceSort where
  run less items := items.mergeSort (fun a b => !less b a)
  perm less items := List.mergeSort_perm _ _
  sorted key items := by
    have hsorted := @List.pairwise_mergeSort _ (fun a b => !decide (key b < key a))
      (fun a b c hab hbc => by
        simp only [Bool.not_eq_true', decide_eq_false_iff_not, not_lt] at *
        exact hab.trans hbc)
      (fun a b => by
        simp only [Bool.or_eq_true, Bool.not_eq_true', decide_eq_false_iff_not, not_lt]
        exact le_total (key a) (key b))
      items
    apply hsorted.imp
    intro a b hab
    simpa using hab

/-- Insertion sort is another, and evaluates. -/
def SliceSort.insertion : SliceSort where
  run less items := items.insertionSort (fun a b => less b a = false)
  perm less items := List.perm_insertionSort _ _
  sorted key items := by
    have hsorted := @List.pairwise_insertionSort _ (fun a b => decide (key b < key a) = false) _
      ⟨fun a b => by
        simp only [decide_eq_false_iff_not, not_lt]
        exact le_total (key a) (key b)⟩
      ⟨fun a b c hab hbc => by
        simp only [decide_eq_false_iff_not, not_lt] at *
        exact hab.trans hbc⟩
      items
    apply hsorted.imp
    intro a b hab
    simpa using hab

/-- A sorted permutation is what any sort returns, when keys are distinct. -/
theorem SliceSort.run_eq (sort : SliceSort) {α κ : Type} [LinearOrder κ] {key : α → κ}
    {items sorted : List α} (hperm : sorted.Perm items)
    (hsorted : sorted.Pairwise (fun a b => key a ≤ key b))
    (hinj : ∀ a ∈ items, ∀ b ∈ items, key a = key b → a = b) :
    sort.run (fun a b => key a < key b) items = sorted := by
  have hrun := sort.perm (fun a b => decide (key a < key b)) items
  refine (hrun.trans hperm.symm).eq_of_pairwise ?_ (sort.sorted key items) hsorted
  intro a b ha hb hab hba
  exact hinj a (hrun.mem_iff.1 ha) b (hperm.mem_iff.1 hb) (le_antisymm hab hba)

/-- Any two sorts agree on distinct keys. -/
theorem SliceSort.run_unique (sort sort' : SliceSort) {α κ : Type} [LinearOrder κ] {key : α → κ}
    {items items' : List α} (hperm : items.Perm items')
    (hinj : ∀ a ∈ items, ∀ b ∈ items, key a = key b → a = b) :
    sort.run (fun a b => key a < key b) items = sort'.run (fun a b => key a < key b) items' :=
  sort.run_eq ((sort'.perm _ items').trans hperm.symm) (sort'.sorted key items') hinj

end Paging
