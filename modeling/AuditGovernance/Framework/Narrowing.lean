import Mathlib.Data.List.Basic

/-! # The first item that any test accepts

    Items stand in a list, best first, and a sequence of tests looks for the
    first item that one of them accepts. Once an item is found, later tests only
    look in front of it. Tests may fail.

    The result is the first item that some test accepts (`narrowAll_first`), and
    leaving out items that no test accepts makes no difference
    (`narrowAll_filter`).
-/

namespace Narrowing

variable {α β ε : Type}

/-! ## Section 1: One test -/

/-- The first item that the test accepts, with those in front of it. -/
def firstMatch (test : α → Except ε Bool) : List α → Except ε (Option (List α × α))
  | [] => .ok none
  | x :: rest =>
    match test x with
    | .error err => .error err
    | .ok true => .ok (some ([], x))
    | .ok false =>
      (firstMatch test rest).map (Option.map fun found => (x :: found.1, found.2))

/-- What the scan says about the items it has looked at. -/
theorem firstMatch_ok {test : α → Except ε Bool} {items : List α}
    {found : Option (List α × α)} (h : firstMatch test items = .ok found) :
    match found with
    | none => ∀ x ∈ items, test x = .ok false
    | some (front, hit) => (∃ back, items = front ++ hit :: back) ∧ test hit = .ok true ∧
        ∀ x ∈ front, test x = .ok false := by
  induction items generalizing found with
  | nil =>
    cases h
    exact fun x hx => by cases hx
  | cons x rest ih =>
    rw [firstMatch] at h
    split at h
    · cases h
    · next hx =>
      cases h
      exact ⟨⟨rest, rfl⟩, hx, fun y hy => by cases hy⟩
    · next hx =>
      cases hrest : firstMatch test rest with
      | error err => rw [hrest] at h; cases h
      | ok found' =>
        rw [hrest] at h
        cases h
        have hih := ih hrest
        cases found' with
        | none =>
          intro y hy
          rcases List.mem_cons.1 hy with rfl | hy
          · exact hx
          · exact hih y hy
        | some pair =>
          obtain ⟨⟨back, hback⟩, hhit, hfront⟩ := hih
          refine ⟨⟨back, by rw [hback]; rfl⟩, hhit, ?_⟩
          intro y hy
          rcases List.mem_cons.1 hy with rfl | hy
          · exact hx
          · exact hfront y hy

theorem firstMatch_isOk {test : α → Except ε Bool} {items : List α}
    (h : ∀ x ∈ items, ∃ b, test x = .ok b) : ∃ found, firstMatch test items = .ok found := by
  induction items with
  | nil => exact ⟨none, rfl⟩
  | cons x rest ih =>
    obtain ⟨found, hfound⟩ := ih fun y hy => h y (List.mem_cons_of_mem _ hy)
    obtain ⟨b, hb⟩ := h x List.mem_cons_self
    rw [firstMatch, hb]
    cases b with
    | true => exact ⟨_, rfl⟩
    | false =>
      dsimp only
      rw [hfound]
      exact ⟨_, rfl⟩

/-- Items that are not accepted may be left out. -/
theorem firstMatch_filter {test : α → Except ε Bool} {keep : α → Bool} {items : List α}
    (h : ∀ x ∈ items, keep x = false → test x = .ok false) :
    firstMatch test (items.filter keep) =
      (firstMatch test items).map (Option.map fun found => (found.1.filter keep, found.2)) := by
  induction items with
  | nil => rfl
  | cons x rest ih =>
    have hrest := ih fun y hy => h y (List.mem_cons_of_mem _ hy)
    rw [firstMatch, List.filter_cons]
    by_cases hkeep : keep x = true
    · rw [if_pos hkeep, firstMatch, hrest]
      split
      · rfl
      · rfl
      · cases firstMatch test rest with
        | error err => rfl
        | ok found =>
          cases found with
          | none => rfl
          | some pair =>
            show Except.ok (some _) = Except.ok (some _)
            dsimp only
            rw [List.filter_cons, if_pos hkeep]
    · rw [Bool.not_eq_true] at hkeep
      rw [if_neg (by rw [hkeep]; exact Bool.false_ne_true), hrest,
        h x List.mem_cons_self hkeep]
      cases firstMatch test rest with
      | error err => rfl
      | ok found =>
        cases found with
        | none => rfl
        | some pair =>
          show Except.ok (some _) = Except.ok (some _)
          dsimp only
          rw [List.filter_cons, if_neg (by rw [hkeep]; exact Bool.false_ne_true)]

/-! ## Section 2: Test after test -/

/-- The items still in front, and the item found last. -/
abbrev Found (α : Type) := List α × Option α

/-- One test narrows the items down. -/
def narrow (test : α → Except ε Bool) (state : Found α) : Except ε (Found α) :=
  (firstMatch test state.1).map fun found =>
    match found with
    | none => state
    | some (front, hit) => (front, some hit)

/-- All tests, one after the other. -/
def narrowAll (test : β → α → Except ε Bool) : List β → Found α → Except ε (Found α)
  | [], state => .ok state
  | b :: rest, state =>
    match narrow (test b) state with
    | .error err => .error err
    | .ok state' => narrowAll test rest state'

/-- The invariant: nothing in front has been accepted, and what was found has. -/
structure Narrowed (test : β → α → Except ε Bool) (items : List α) (seen : List β)
    (state : Found α) : Prop where
  split : ∃ back, items = state.1 ++ back ∧ state.2 = back.head?
  front : ∀ x ∈ state.1, ∀ b ∈ seen, test b x = .ok false
  hit : ∀ x, state.2 = some x → ∃ b ∈ seen, test b x = .ok true

variable {test : β → α → Except ε Bool} {items : List α} {seen : List β} {state state' : Found α}

theorem Narrowed.start : Narrowed test items [] (items, none) :=
  ⟨⟨[], (List.append_nil _).symm, rfl⟩, (fun _ _ _ hb => by cases hb), (fun _ hx => by cases hx)⟩

theorem Narrowed.step {b : β} (h : Narrowed test items seen state)
    (hstep : narrow (test b) state = .ok state') : Narrowed test items (seen ++ [b]) state' := by
  unfold narrow at hstep
  cases hfound : firstMatch (test b) state.1 with
  | error err => rw [hfound] at hstep; cases hstep
  | ok found =>
    rw [hfound] at hstep
    cases hstep
    have hspec := firstMatch_ok hfound
    have hseen : ∀ x, (∀ b' ∈ seen, test b' x = .ok false) → test b x = .ok false →
        ∀ b' ∈ seen ++ [b], test b' x = .ok false := by
      intro x hbefore hnow b' hb'
      rcases List.mem_append.1 hb' with hb' | hb'
      · exact hbefore b' hb'
      · rw [List.mem_singleton.1 hb']
        exact hnow
    cases found with
    | none =>
      refine ⟨h.split, fun x hx => hseen x (h.front x hx) (hspec x hx), ?_⟩
      intro x hx
      obtain ⟨b', hb', htrue⟩ := h.hit x hx
      exact ⟨b', List.mem_append_left _ hb', htrue⟩
    | some pair =>
      obtain ⟨front, hit⟩ := pair
      obtain ⟨⟨back, hback⟩, hhit, hfront⟩ := hspec
      obtain ⟨rest, hitems, -⟩ := h.split
      refine ⟨⟨hit :: (back ++ rest), ?_, rfl⟩, ?_, ?_⟩
      · rw [hitems, hback, List.append_assoc]
        rfl
      · intro x hx
        refine hseen x (h.front x ?_) (hfront x hx)
        rw [hback]
        exact List.mem_append_left _ hx
      · intro x hx
        cases hx
        exact ⟨b, List.mem_append_right _ List.mem_cons_self, hhit⟩

theorem Narrowed.all {tests : List β} (h : Narrowed test items seen state)
    (hrun : narrowAll test tests state = .ok state') :
    Narrowed test items (seen ++ tests) state' := by
  induction tests generalizing seen state with
  | nil =>
    cases hrun
    rw [List.append_nil]
    exact h
  | cons b rest ih =>
    rw [narrowAll] at hrun
    split at hrun
    · cases hrun
    next state₁ hstep =>
    have hih := ih (h.step hstep) hrun
    rw [List.append_assoc] at hih
    exact hih

/-- The item found is the first that some test accepts; nothing is found when
    none is. -/
theorem narrowAll_first {tests : List β} (hrun : narrowAll test tests (items, none) = .ok state) :
    match state.2 with
    | none => ∀ x ∈ items, ∀ b ∈ tests, test b x = .ok false
    | some hit => (∃ b ∈ tests, test b hit = .ok true) ∧ ∃ front back,
        items = front ++ hit :: back ∧ ∀ x ∈ front, ∀ b ∈ tests, test b x = .ok false := by
  have hspec := Narrowed.start.all hrun
  rw [List.nil_append] at hspec
  obtain ⟨back, hitems, hhead⟩ := hspec.split
  cases hfound : state.2 with
  | none =>
    rw [hfound] at hhead
    rw [List.head?_eq_none_iff.1 hhead.symm, List.append_nil] at hitems
    rw [hitems]
    exact hspec.front
  | some hit =>
    rw [hfound] at hhead
    obtain ⟨rest, rfl⟩ := List.head?_eq_some_iff.1 hhead.symm
    exact ⟨hspec.hit hit hfound, state.1, rest, hitems, hspec.front⟩

theorem narrowAll_isOk {tests : List β}
    (h : ∀ x ∈ state.1, ∀ b ∈ tests, ∃ r, test b x = .ok r) :
    ∃ state', narrowAll test tests state = .ok state' := by
  induction tests generalizing state with
  | nil => exact ⟨state, rfl⟩
  | cons b rest ih =>
    obtain ⟨found, hfound⟩ := firstMatch_isOk fun x hx => h x hx b List.mem_cons_self
    have hspec := firstMatch_ok hfound
    rw [narrowAll, narrow, hfound]
    refine ih fun x hx b' hb' => h x ?_ b' (List.mem_cons_of_mem _ hb')
    cases found with
    | none => exact hx
    | some pair =>
      obtain ⟨⟨back, hback⟩, -⟩ := hspec
      rw [hback]
      exact List.mem_append_left _ hx

/-- Leaving out items that no test accepts makes no difference. -/
theorem narrowAll_filter {keep : α → Bool} {tests : List β}
    (h : ∀ x ∈ state.1, keep x = false → ∀ b ∈ tests, test b x = .ok false) :
    narrowAll test tests (state.1.filter keep, state.2) =
      (narrowAll test tests state).map fun final => (final.1.filter keep, final.2) := by
  induction tests generalizing state with
  | nil => rfl
  | cons b rest ih =>
    have hfirst := @firstMatch_filter _ _ (test b) keep state.1 fun x hx hkeep =>
      h x hx hkeep b List.mem_cons_self
    rw [narrowAll, narrowAll, narrow, narrow, hfirst]
    cases hfound : firstMatch (test b) state.1 with
    | error err => rfl
    | ok found =>
      have hspec := firstMatch_ok hfound
      cases found with
      | none =>
        exact ih fun x hx hkeep b' hb' => h x hx hkeep b' (List.mem_cons_of_mem _ hb')
      | some pair =>
        obtain ⟨front, hit⟩ := pair
        obtain ⟨⟨back, hback⟩, -⟩ := hspec
        refine @ih (front, some hit) fun x hx hkeep b' hb' =>
          h x ?_ hkeep b' (List.mem_cons_of_mem _ hb')
        rw [hback]
        exact List.mem_append_left _ hx

end Narrowing
