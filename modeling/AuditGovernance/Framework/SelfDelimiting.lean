import AuditGovernance.Framework.Framing

/-! # Self-delimiting encodings

    An encoding is self-delimiting if a reader who sees the code of a value
    with anything behind it can tell the value and what is behind. Such codes
    can be written one after the other without losing anything:

    * **Fixed width**: an injective code whose words have one length.
    * **Terminated**: a word that does not hold the terminator, and the
      terminator.
    * **Sized**: the code of a size, and a body that can be told apart once
      its size is known, such as that many bytes or that many items.
    * **Sequences**: one self-delimiting code behind another.
-/

namespace SelfDelimiting

variable {α β γ κ : Type}

/-- The value and what is behind it can be told from the code. -/
def Delimits (f : α → List β) : Prop := ∀ a b s t, f a ++ s = f b ++ t → a = b ∧ s = t

/-- The whole code determines the value. -/
theorem Delimits.injective {f : α → List β} (hf : Delimits f) : Function.Injective f := by
  intro a b h
  exact (hf a b [] [] (by rw [h])).1

/-- A part of a value that determines it may be encoded in its place. -/
theorem Delimits.comp {f : α → List β} (hf : Delimits f) {g : γ → α} (hg : Function.Injective g) :
    Delimits (fun c => f (g c)) := by
  intro a b s t h
  obtain ⟨hab, hst⟩ := hf _ _ s t h
  exact ⟨hg hab, hst⟩

/-- One code behind another. -/
theorem Delimits.pair {f : α → List β} {g : γ → List β} (hf : Delimits f) (hg : Delimits g) :
    Delimits (fun p : α × γ => f p.1 ++ g p.2) := by
  rintro ⟨a, c⟩ ⟨b, d⟩ s t h
  dsimp only at h
  rw [List.append_assoc, List.append_assoc] at h
  obtain ⟨rfl, hrest⟩ := hf a b _ _ h
  obtain ⟨rfl, hst⟩ := hg c d s t hrest
  exact ⟨rfl, hst⟩

/-- A fixed word in front changes nothing. -/
theorem Delimits.tagged {f : α → List β} (hf : Delimits f) (tag : List β) :
    Delimits (fun a => tag ++ f a) := by
  intro a b s t h
  rw [List.append_assoc, List.append_assoc, List.append_cancel_left_eq] at h
  exact hf a b s t h

/-- Words of one length. -/
theorem delimits_of_length {f : α → List β} (hf : Function.Injective f) {n : Nat}
    (hlen : ∀ a, (f a).length = n) : Delimits f := by
  intro a b s t h
  obtain ⟨hword, hrest⟩ := List.append_inj h ((hlen a).trans (hlen b).symm)
  exact ⟨hf hword, hrest⟩

/-- Words that are followed by something they do not hold. -/
theorem delimits_terminated [DecidableEq β] {f : α → List β} (hf : Function.Injective f) {mark : β}
    (hfree : ∀ a, mark ∉ f a) : Delimits (fun a => f a ++ [mark]) := by
  intro a b s t h
  rw [List.append_assoc, List.append_assoc, List.singleton_append, List.singleton_append] at h
  obtain ⟨hword, hrest⟩ := Framing.cut_first (hfree a) (hfree b) h
  exact ⟨hf hword, hrest⟩

/-! ## Section 2: Sizes -/

/-- Two values of one size can be told apart, with anything behind them. -/
def DelimitsSized (size : α → κ) (body : α → List β) : Prop :=
  ∀ a b s t, size a = size b → body a ++ s = body b ++ t → a = b ∧ s = t

/-- The size, and then the body. -/
theorem DelimitsSized.delimits {size : α → κ} {body : α → List β} (hbody : DelimitsSized size body)
    {frame : κ → List β} (hframe : Delimits frame) :
    Delimits (fun a => frame (size a) ++ body a) := by
  intro a b s t h
  rw [List.append_assoc, List.append_assoc] at h
  obtain ⟨hsize, h⟩ := hframe _ _ _ _ h
  exact hbody a b s t hsize h

/-- A word of known length. -/
theorem delimitsSized_word : DelimitsSized List.length (id : List β → List β) := by
  intro a b s t hlen h
  exact List.append_inj h hlen

/-- A known number of items. -/
theorem Delimits.items {f : α → List β} (hf : Delimits f) :
    DelimitsSized List.length (fun items : List α => items.flatMap f) := by
  intro xs
  induction xs with
  | nil =>
    intro ys s t hlen h
    obtain rfl := List.length_eq_zero_iff.1 hlen.symm
    exact ⟨rfl, h⟩
  | cons x xs ih =>
    intro ys s t hlen h
    match ys with
    | [] => cases hlen
    | y :: ys =>
      dsimp only at h
      rw [List.flatMap_cons, List.flatMap_cons, List.append_assoc, List.append_assoc] at h
      obtain ⟨rfl, hrest⟩ := hf x y _ _ h
      obtain ⟨rfl, hst⟩ := ih ys s t (Nat.succ.inj hlen) hrest
      exact ⟨rfl, hst⟩

/-- A finer size, and a part of the value that determines it. -/
theorem DelimitsSized.comp {size : α → κ} {body : α → List β} (hbody : DelimitsSized size body)
    {g : γ → α} (hg : Function.Injective g) {κ' : Type} {size' : γ → κ'}
    (hsize : ∀ c d, size' c = size' d → size (g c) = size (g d)) :
    DelimitsSized size' (fun c => body (g c)) := by
  intro c d s t hcd h
  obtain ⟨hab, hst⟩ := hbody _ _ s t (hsize c d hcd) h
  exact ⟨hg hab, hst⟩

end SelfDelimiting
