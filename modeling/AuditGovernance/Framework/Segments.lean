import AuditGovernance.Framework.LineLog

/-! # Logs with an unterminated end

    A text is a list of terminated lines and a fragment without a newline.
-/

namespace LineLog

/-- The pieces between newlines; one more than there are newlines. -/
def segments : Bytes → List Bytes
  | [] => [[]]
  | b :: rest =>
    if b = newline then [] :: segments rest
    else
      match segments rest with
      | [] => [[b]]
      | line :: more => (b :: line) :: more

/-- Terminated lines. -/
def ofLines (lines : List Bytes) : Bytes := lines.flatMap (fun line => line ++ [newline])

@[simp] theorem ofLines_nil : ofLines [] = [] := rfl

@[simp] theorem ofLines_cons (line : Bytes) (rest : List Bytes) :
    ofLines (line :: rest) = line ++ newline :: ofLines rest := by
  simp [ofLines]

@[simp] theorem ofLines_append (left right : List Bytes) :
    ofLines (left ++ right) = ofLines left ++ ofLines right := by
  simp [ofLines]

theorem segments_free {text : Bytes} (h : newline ∉ text) : segments text = [text] := by
  induction text with
  | nil => rfl
  | cons b rest ih =>
    simp only [List.mem_cons, not_or] at h
    rw [segments, if_neg (Ne.symm h.1), ih h.2]

theorem segments_line {line : Bytes} (h : newline ∉ line) (rest : Bytes) :
    segments (line ++ newline :: rest) = line :: segments rest := by
  induction line with
  | nil => simp [segments]
  | cons b line ih =>
    simp only [List.mem_cons, not_or] at h
    rw [List.cons_append, segments, if_neg (Ne.symm h.1), ih h.2]

/-- A text by its lines and its fragment. -/
structure Parts (file : Bytes) (lines : List Bytes) (fragment : Bytes) : Prop where
  eq : file = ofLines lines ++ fragment
  lines : ∀ line ∈ lines, newline ∉ line
  fragment : newline ∉ fragment

theorem Parts.segments {file fragment : Bytes} {lines : List Bytes}
    (h : Parts file lines fragment) : LineLog.segments file = lines ++ [fragment] := by
  obtain ⟨rfl, hlines, hfragment⟩ := h
  induction lines with
  | nil => simpa using segments_free hfragment
  | cons line more ih =>
    rw [ofLines_cons, List.append_assoc, List.cons_append, segments_line (hlines line (by simp)),
      ih (fun l hl => hlines l (by simp [hl]))]
    rfl

end LineLog
