import Mathlib

/-! # Lexical path cleaning

    Paths are lists of symbols with a separator and a dot. `clean` drops empty
    elements and single dots and resolves double dots against the elements
    before them, as `path/filepath.Clean` does on Unix. A path made of ordinary
    elements is left alone.
-/

namespace PathClean

/-- The two special symbols. -/
structure Symbols (α : Type) where
  sep : α
  dot : α

variable {α : Type} [DecidableEq α] (x : Symbols α)

/-- One element of the path, on the elements kept so far, last first. A double
    dot takes the last element away; where there is none it is dropped in a
    rooted path and kept otherwise. -/
def push (rooted : Bool) (out : List (List α)) (element : List α) : List (List α) :=
  if element = [] ∨ element = [x.dot] then out
  else if element = [x.dot, x.dot] then
    match out with
    | [] => if rooted then [] else [element]
    | last :: rest => if last = [x.dot, x.dot] then element :: out else rest
  else element :: out

/-- `filepath.Clean`. -/
def clean (path : List α) : List α :=
  let rooted : Bool := path.head? = some x.sep
  let body := [x.sep].intercalate (((path.splitOn x.sep).foldl (push x rooted) []).reverse)
  if rooted then x.sep :: body
  else if body = [] then [x.dot]
  else body

/-- An element that names something. -/
structure Ordinary (element : List α) : Prop where
  nonempty : element ≠ []
  notDot : element ≠ [x.dot]
  notDotDot : element ≠ [x.dot, x.dot]
  noSep : x.sep ∉ element

theorem push_ordinary {element : List α} (h : Ordinary x element) (rooted : Bool)
    (out : List (List α)) : push x rooted out element = element :: out := by
  unfold push
  rw [if_neg (by simp [h.nonempty, h.notDot]), if_neg h.notDotDot]

theorem foldl_push_ordinary {elements : List (List α)} (h : ∀ e ∈ elements, Ordinary x e)
    (rooted : Bool) (out : List (List α)) :
    elements.foldl (push x rooted) out = elements.reverse ++ out := by
  induction elements generalizing out with
  | nil => rfl
  | cons e rest ih =>
    rw [List.foldl_cons, push_ordinary x (h e List.mem_cons_self),
      ih (fun e' he' => h e' (List.mem_cons_of_mem _ he')), List.reverse_cons, List.append_assoc]
    rfl

omit [DecidableEq α] in
/-- A path of ordinary elements starts with one. -/
theorem head_intercalate {first : List α} (rest : List (List α)) (h : Ordinary x first) :
    ∃ c tail, [x.sep].intercalate (first :: rest) = c :: tail ∧ c ∈ first := by
  obtain ⟨c, tail, rfl⟩ := List.exists_cons_of_ne_nil h.nonempty
  cases rest with
  | nil => exact ⟨c, tail, by simp [List.intercalate], List.mem_cons_self⟩
  | cons second rest =>
    refine ⟨c, tail ++ ([x.sep] ++ [x.sep].intercalate (second :: rest)), ?_, List.mem_cons_self⟩
    simp [List.intercalate]

/-- **Clean paths.** Ordinary elements stay as they are, and the path is
    neither rooted nor a dot. -/
theorem clean_ordinary {first : List α} {rest : List (List α)}
    (h : ∀ e ∈ first :: rest, Ordinary x e) :
    clean x ([x.sep].intercalate (first :: rest)) = [x.sep].intercalate (first :: rest) := by
  obtain ⟨c, tail, hhead, hc⟩ := head_intercalate x rest (h first List.mem_cons_self)
  have hrooted : (decide (([x.sep].intercalate (first :: rest)).head? = some x.sep)) = false := by
    rw [hhead, List.head?_cons, decide_eq_false_iff_not]
    intro heq
    have hsep : c = x.sep := Option.some.inj heq
    rw [hsep] at hc
    exact (h first List.mem_cons_self).noSep hc
  have hsplit : ([x.sep].intercalate (first :: rest)).splitOn x.sep = first :: rest :=
    List.splitOn_intercalate x.sep (fun e he => (h e he).noSep) (List.cons_ne_nil _ _)
  rw [clean]
  simp only [hsplit, hrooted]
  rw [foldl_push_ordinary x h, List.append_nil, List.reverse_reverse, if_neg (by simp), if_neg]
  rw [hhead]
  exact List.cons_ne_nil _ _

/-- Paths of ordinary elements are equal only if their elements are. -/
theorem intercalate_ordinary_inj {elements elements' : List (List α)}
    (h : ∀ e ∈ elements, Ordinary x e) (h' : ∀ e ∈ elements', Ordinary x e)
    (hne : elements ≠ []) (hne' : elements' ≠ [])
    (heq : [x.sep].intercalate elements = [x.sep].intercalate elements') : elements = elements' := by
  have hsplit := congrArg (List.splitOn x.sep) heq
  rwa [List.splitOn_intercalate x.sep (fun e he => (h e he).noSep) hne,
    List.splitOn_intercalate x.sep (fun e he => (h' e he).noSep) hne'] at hsplit

end PathClean
