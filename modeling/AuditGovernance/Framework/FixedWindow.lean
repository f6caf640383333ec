import Mathlib

/-! # Fixed-window counters

    A rate limiter that counts what it admits since the start of its current
    window and opens a new window at the first request a whole width later.
    Requests carry the clock reading they were made with, and readings may
    arrive out of order: `lag` says how many widths a reading may trail the
    latest one.

    - `Window.take` is one request.
    - `Tracks` relates a window to the readings it has admitted.
    - `Tracks.take` is the step rule; `Tracks.spread` bounds what any stretch
      of time admits, `Tracks.refused` says when a request is turned away.
-/

namespace FixedWindow

/-- A counting window; `started = 0` is a window never opened. -/
structure Window where
  started : Int := 0
  count : Int := 0
deriving DecidableEq, Inhabited

/-- The window a request at `now` falls into. -/
def Window.current (w : Window) (width now : Int) : Window :=
  if w.started = 0 ∨ width ≤ now - w.started then { started := now } else w

/-- One request: its answer, and the window afterwards. -/
def Window.take (w : Window) (width limit now : Int) : Bool × Window :=
  let open_ := w.current width now
  if limit ≤ open_.count then (false, open_) else (true, { open_ with count := open_.count + 1 })

/-- The admitted readings from `a` on. -/
def since (a : Int) (times : List Int) : Nat := times.countP (fun t => a ≤ t)

/-- The admitted readings from `a` up to but not at `b`. -/
def within (a b : Int) (times : List Int) : Nat := times.countP (fun t => a ≤ t ∧ t < b)

theorem since_cons (a now : Int) (times : List Int) :
    since a (now :: times) = since a times + if a ≤ now then 1 else 0 := by
  simp [since, List.countP_cons]

theorem since_le_since {a b : Int} (h : a ≤ b) (times : List Int) :
    since b times ≤ since a times := by
  refine List.countP_mono_left (fun t _ ht => ?_)
  simp only [decide_eq_true_eq] at ht ⊢
  omega

theorem within_le_since (a b : Int) (times : List Int) : within a b times ≤ since a times := by
  refine List.countP_mono_left (fun t _ ht => ?_)
  simp only [decide_eq_true_eq] at ht ⊢
  exact ht.1

/-- What a window knows about the readings admitted so far, `clock` being the
    latest reading seen. -/
structure Tracks (width : Int) (lag limit : Nat) (w : Window) (times : List Int) (clock : Int) :
    Prop where
  unopened : w.started = 0 → times = []
  started_le : w.started ≠ 0 → w.started ≤ clock
  count_le : w.count ≤ limit
  /-- The window's own admissions are recent. -/
  recent : w.count ≤ since (w.started - lag * width) times
  /-- Nothing was admitted past the end of the window. -/
  before_end : ∀ t ∈ times, t < w.started + width
  /-- Every earlier width back to `a` accounts for one full window. -/
  back : ∀ (a : Int) (m : Nat), w.started ≤ a + m * width →
    (since a times : Int) ≤ w.count + m * limit
  /-- `m` widths meet at most `m + lag + 1` windows. -/
  spread : ∀ (a : Int) (m : Nat), within a (a + m * width) times ≤ (m + lag + 1) * limit

variable {width : Int} {lag limit : Nat} {w : Window} {times : List Int} {clock now l : Int}

theorem Tracks.unused (width clock : Int) (lag limit : Nat) : Tracks width lag limit {} [] clock where
  unopened _ := rfl
  started_le hne := absurd rfl hne
  count_le := by simp
  recent := by simp [since]
  before_end t ht := absurd ht (by simp)
  back a m _ := by
    show (0 : Int) ≤ 0 + m * limit
    positivity
  spread a m := Nat.zero_le _

/-- Opening a window at `now`, or staying in the current one, keeps what the
    window knows; afterwards `now` lies before its end. -/
theorem Tracks.current (h : Tracks width lag limit w times clock) (hwidth : 0 < width)
    (hnow : now ≠ 0) (hlag : clock ≤ now + lag * width) :
    Tracks width lag limit (w.current width now) times (max clock now) ∧
      (w.current width now).started ≠ 0 ∧ now < (w.current width now).started + width ∧
      (w.current width now).started ≤ now + lag * width := by
  unfold Window.current
  have hlagged : 0 ≤ (lag : Int) * width := by positivity
  split
  next hfresh =>
    -- Every reading so far lies before the end of the old window, so before `now`.
    have hold : ∀ t ∈ times, t < now := by
      intro t ht
      rcases hfresh with hz | hw
      · rw [h.unopened hz] at ht
        exact absurd ht (by simp)
      · have := h.before_end t ht
        omega
    refine ⟨⟨fun hz => absurd hz hnow, fun _ => le_max_right _ _, by simp, by simp,
      fun t ht => ?_, fun a m hm => ?_, h.spread⟩, hnow, ?_, ?_⟩
    · have := hold t ht
      show t < now + width
      omega
    · show (since a times : Int) ≤ 0 + m * limit
      match m with
      | 0 =>
        have hzero : since a times = 0 := by
          refine List.countP_eq_zero.mpr (fun t ht => ?_)
          have := hold t ht
          simp only [Nat.cast_zero, zero_mul, add_zero] at hm
          simp only [decide_eq_true_eq]
          omega
        simp [hzero]
      | m + 1 =>
        rcases hfresh with hz | hw
        · rw [h.unopened hz]
          show (0 : Int) ≤ 0 + _
          positivity
        · -- The old window opened a width earlier, so one step fewer reaches it.
          push_cast at hm ⊢
          have hback := h.back a m (by nlinarith)
          have := h.count_le
          nlinarith
    · show now < now + width
      omega
    · show now ≤ now + lag * width
      omega
  next hstay =>
    rw [not_or] at hstay
    have hle := h.started_le hstay.1
    exact ⟨{ h with started_le := fun _ => le_max_of_le_left hle }, hstay.1, by omega, by omega⟩

/-- **Step rule.** A request keeps what the window knows, its reading added
    when it is admitted. -/
theorem Tracks.take (h : Tracks width lag limit w times clock) (hwidth : 0 < width)
    (hnow : now ≠ 0) (hlag : clock ≤ now + lag * width) (hlimit : l ≤ limit) :
    Tracks width lag limit (w.take width l now).2
      (if (w.take width l now).1 then now :: times else times) (max clock now) := by
  obtain ⟨hcur, hne, hend, hstart⟩ := h.current hwidth hnow hlag
  unfold Window.take
  generalize w.current width now = cur at hcur hne hend hstart ⊢
  simp only
  split
  next => exact hcur
  next hroom =>
    simp only [if_true]
    have hback : ∀ (a : Int) (m : Nat), cur.started ≤ a + m * width →
        (since a (now :: times) : Int) ≤ cur.count + 1 + m * limit := by
      intro a m hm
      have := hcur.back a m hm
      rw [since_cons]
      split <;> push_cast <;> omega
    refine ⟨fun hz => absurd hz hne, hcur.started_le, ?_, ?_, ?_, hback, fun a m => ?_⟩
    · show cur.count + 1 ≤ limit
      omega
    · show cur.count + 1 ≤ since (cur.started - lag * width) (now :: times)
      have := hcur.recent
      rw [since_cons, if_pos (by omega)]
      push_cast
      omega
    · intro t ht
      rcases List.mem_cons.mp ht with rfl | ht
      · exact hend
      · exact hcur.before_end t ht
    · by_cases hin : a ≤ now ∧ now < a + m * width
      · -- The window of `now` opened before the end of the stretch, up to the lag.
        have hreach : cur.started ≤ a + ((m + lag : Nat) : Int) * width := by
          push_cast
          nlinarith
        have hsince := hback a (m + lag) hreach
        have hsub := within_le_since a (a + m * width) (now :: times)
        have hcount : cur.count + 1 ≤ limit := by omega
        zify at hsub ⊢
        push_cast at hsince
        nlinarith
      · have := hcur.spread a m
        rw [within, List.countP_cons, if_neg (by simpa using hin)]
        exact this

/-- A request is turned away only when the last width, up to the lag, has
    already admitted its limit. -/
theorem Tracks.refused (h : Tracks width lag limit w times clock) (hwidth : 0 < width)
    (hnow : now ≠ 0) (hlag : clock ≤ now + lag * width) (hno : (w.take width l now).1 = false) :
    l ≤ since (now - (lag + 1) * width) times := by
  obtain ⟨hcur, -, hend, -⟩ := h.current hwidth hnow hlag
  unfold Window.take at hno
  generalize w.current width now = cur at hcur hend hno
  simp only at hno
  split at hno
  next hfull =>
    have hmono := since_le_since (b := cur.started - lag * width)
      (a := now - (lag + 1) * width) (by linarith) times
    have := hcur.recent
    omega
  next => cases hno

end FixedWindow
