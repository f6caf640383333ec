import Mathlib

/-! # Separator framing of composite keys

    Composite keys are texts joined by a separator character. A field that
    does not contain the separator can be cut off again at either end of the
    joined text, so the join is injective in that field and in the rest. The
    decimal text of an integer is such a field.
-/

namespace Framing

/-- The text `s` does not contain the character `c`. -/
def Free (c : Char) (s : String) : Prop := c ∉ s.toList

instance (c : Char) (s : String) : Decidable (Free c s) :=
  inferInstanceAs (Decidable (c ∉ s.toList))

/-- `a`, the separator, `b`. -/
def join (c : Char) (a b : String) : String := a ++ String.singleton c ++ b

@[simp] theorem toList_join (c : Char) (a b : String) :
    (join c a b).toList = a.toList ++ c :: b.toList := by
  simp [join]

theorem join_ne_empty (c : Char) (a b : String) : join c a b ≠ "" := by
  intro h
  have hlist := congrArg String.toList h
  simp at hlist

section Cuts

variable {β : Type} [DecidableEq β] {c : β} {a b s t : List β}

theorem takeWhile_free (h : c ∉ a) (s : List β) : (a ++ c :: s).takeWhile (· ≠ c) = a := by
  rw [List.takeWhile_append_of_pos]
  · simp
  · intro x hx
    simp only [ne_eq, decide_not, Bool.not_eq_eq_eq_not, Bool.not_true, decide_eq_false_iff_not]
    rintro rfl
    exact h hx

/-- Cutting at the first separator recovers both parts. -/
theorem cut_first (ha : c ∉ a) (hb : c ∉ b) (h : a ++ c :: s = b ++ c :: t) : a = b ∧ s = t := by
  have hab : a = b := by
    rw [← takeWhile_free ha s, h, takeWhile_free hb t]
  subst hab
  exact ⟨rfl, by simpa using h⟩

/-- Cutting at the last separator recovers both parts. -/
theorem cut_last (hs : c ∉ s) (ht : c ∉ t) (h : a ++ c :: s = b ++ c :: t) : a = b ∧ s = t := by
  have hrev : s.reverse ++ c :: a.reverse = t.reverse ++ c :: b.reverse := by
    have := congrArg List.reverse h
    simpa using this
  obtain ⟨h1, h2⟩ := cut_first (by simpa using hs) (by simpa using ht) hrev
  exact ⟨by simpa using h2, by simpa using h1⟩

end Cuts

/-- A join is injective when the left parts are free of the separator. -/
theorem join_inj_left {c : Char} {a b s t : String} (ha : Free c a) (hb : Free c b) :
    join c a s = join c b t ↔ a = b ∧ s = t := by
  constructor
  · intro h
    have h' : a.toList ++ c :: s.toList = b.toList ++ c :: t.toList := by
      rw [← toList_join, h, toList_join]
    obtain ⟨h1, h2⟩ := cut_first ha hb h'
    exact ⟨String.toList_injective h1, String.toList_injective h2⟩
  · rintro ⟨rfl, rfl⟩
    rfl

/-- A join is injective when the right parts are free of the separator. -/
theorem join_inj_right {c : Char} {a b s t : String} (hs : Free c s) (ht : Free c t) :
    join c a s = join c b t ↔ a = b ∧ s = t := by
  constructor
  · intro h
    have h' : a.toList ++ c :: s.toList = b.toList ++ c :: t.toList := by
      rw [← toList_join, h, toList_join]
    obtain ⟨h1, h2⟩ := cut_last hs ht h'
    exact ⟨String.toList_injective h1, String.toList_injective h2⟩
  · rintro ⟨rfl, rfl⟩
    rfl

/-- With a common left part the join is injective without any condition. -/
@[simp] theorem join_inj_same_left {c : Char} {a s t : String} :
    join c a s = join c a t ↔ s = t := by
  unfold join
  exact String.append_right_inj _

/-! ## Decimal texts -/

/-- A natural number's decimal text contains digits only. -/
theorem free_natRepr {c : Char} (hc : c.isDigit = false) (n : Nat) : Free c (Nat.repr n) := by
  intro h
  rw [Nat.toList_repr] at h
  have hdigit := Nat.isDigit_of_mem_toDigits (by decide) (by decide) h
  rw [hc] at hdigit
  exact Bool.noConfusion hdigit

/-- An integer's decimal text contains digits and possibly a minus sign. -/
theorem free_intRepr {c : Char} (hc : c.isDigit = false) (hm : c ≠ '-') (n : Int) :
    Free c (Int.repr n) := by
  cases n with
  | ofNat m => exact free_natRepr hc m
  | negSucc m =>
    unfold Free Int.repr
    simp only [String.toList_append, List.mem_append, not_or]
    exact ⟨by simpa using hm, free_natRepr hc (m + 1)⟩

end Framing
