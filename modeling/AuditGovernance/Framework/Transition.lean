import Mathlib

/-! # Transition systems with guarded runs

    A system is an initial predicate and a partial step function on labels.
    `Reach guard` collects the states reached by runs all of whose steps
    satisfy `guard`, a condition on the state before the step and its label;
    the guard that always holds gives the plain reachable states. The
    invariant rule is proved once here.
-/

namespace Transition

/-- A labelled transition system with a computable partial step. -/
structure System (σ α : Type*) where
  /-- Initial states. -/
  init : σ → Prop
  /-- The state after a label, when the label is enabled. -/
  step : σ → α → Option σ

namespace System

variable {σ α : Type*} (sys : System σ α)

/-- The guard that every step satisfies. -/
def anyStep : σ → α → Prop := fun _ _ => True

/-- States reached by runs whose steps all satisfy `guard`. -/
inductive Reach (guard : σ → α → Prop) : σ → Prop where
  | init {s : σ} : sys.init s → Reach guard s
  | step {s s' : σ} {a : α} : Reach guard s → guard s a → sys.step s a = some s' → Reach guard s'

/-- States reached by any run. -/
abbrev Reachable : σ → Prop := sys.Reach anyStep

variable {sys} {guard : σ → α → Prop}

/-- **Invariant rule.** A predicate that holds initially and is preserved by
    every guarded step from a reached state holds in every reached state. -/
theorem Reach.invariant {P : σ → Prop} (hinit : ∀ s, sys.init s → P s)
    (hstep : ∀ s a s', sys.Reach guard s → P s → guard s a → sys.step s a = some s' → P s')
    {s : σ} (h : sys.Reach guard s) : P s := by
  induction h with
  | init hi => exact hinit _ hi
  | step hr hg hs ih => exact hstep _ _ _ hr ih hg hs

/-- A run under a stronger guard is a run under a weaker one. -/
theorem Reach.mono {guard' : σ → α → Prop} (hg : ∀ s a, guard s a → guard' s a) {s : σ}
    (h : sys.Reach guard s) : sys.Reach guard' s := by
  induction h with
  | init hi => exact .init hi
  | step _ hguard hs ih => exact .step ih (hg _ _ hguard) hs

/-- Run a list of labels. -/
def exec (sys : System σ α) (s : σ) : List α → Option σ
  | [] => some s
  | a :: rest => (sys.step s a).bind (fun s' => exec sys s' rest)

/-- The states along a run satisfy the guard at each label. -/
def ExecGuarded (sys : System σ α) (guard : σ → α → Prop) (s : σ) : List α → Prop
  | [] => True
  | a :: rest => guard s a ∧
      match sys.step s a with
      | none => True
      | some s' => ExecGuarded sys guard s' rest

instance decidableExecGuarded (sys : System σ α) (guard : σ → α → Prop)
    [hd : ∀ s a, Decidable (guard s a)] :
    (s : σ) → (run : List α) → Decidable (sys.ExecGuarded guard s run)
  | _, [] => isTrue trivial
  | s, a :: rest =>
    match hd s a with
    | isFalse h => isFalse (fun hc => h hc.1)
    | isTrue h =>
      match hs : sys.step s a with
      | none => isTrue (by simp only [ExecGuarded, hs]; exact ⟨h, trivial⟩)
      | some s' =>
        match decidableExecGuarded sys guard s' rest with
        | isTrue hr => isTrue (by simp only [ExecGuarded, hs]; exact ⟨h, hr⟩)
        | isFalse hr => isFalse (by simp only [ExecGuarded, hs]; exact fun hc => hr hc.2)

/-- Executing guarded labels from a reached state reaches the result. -/
theorem Reach.exec {s s' : σ} {run : List α} (h : sys.Reach guard s)
    (hg : sys.ExecGuarded guard s run) (he : sys.exec s run = some s') : sys.Reach guard s' := by
  induction run generalizing s with
  | nil =>
    cases he
    exact h
  | cons a rest ih =>
    simp only [System.exec, Option.bind_eq_some_iff] at he
    obtain ⟨s1, hs1, hrest⟩ := he
    simp only [ExecGuarded, hs1] at hg
    exact ih (.step h hg.1 hs1) hg.2 hrest

/-- Executing any labels from a reachable state reaches the result. -/
theorem Reachable.exec {s s' : σ} {run : List α} (h : sys.Reachable s)
    (he : sys.exec s run = some s') : sys.Reachable s' := by
  induction run generalizing s with
  | nil =>
    cases he
    exact h
  | cons a rest ih =>
    simp only [System.exec, Option.bind_eq_some_iff] at he
    obtain ⟨s1, hs1, hrest⟩ := he
    exact ih (.step h trivial hs1) hrest

end System

end Transition
