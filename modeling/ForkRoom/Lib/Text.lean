/-
# `Lib.Text` — reading joined texts back

A text put together from parts with a separator determines its parts as long as
no part but the last holds the separator; a number written in decimal determines
the number, whatever zeros stand in front.  Joining the words of a text anew with
single blanks makes it no longer, and leaves no separator at its end.
-/
import Mathlib.Data.List.Basic
import Mathlib.Data.Nat.Digits.Defs

namespace Text

section
variable {α : Type}

/-- The part before the first separator, and the rest. -/
theorem split_eq {s : α} {a a' b b' : List α} (ha : s ∉ a) (ha' : s ∉ a')
    (h : a ++ s :: b = a' ++ s :: b') : a = a' ∧ b = b' := by
  induction a generalizing a' with
  | nil =>
      cases a' with
      | nil => exact ⟨rfl, (List.cons.inj h).2⟩
      | cons x a' =>
          have hx : s = x := (List.cons.inj h).1
          exact absurd (hx ▸ List.mem_cons_self) ha'
  | cons x a ih =>
      cases a' with
      | nil =>
          have hx : x = s := (List.cons.inj h).1
          exact absurd (hx ▸ List.mem_cons_self) ha
      | cons x' a' =>
          obtain ⟨hx, hr⟩ := List.cons.inj h
          obtain ⟨h₁, h₂⟩ := ih (fun hm => ha (List.mem_cons_of_mem _ hm))
            (fun hm => ha' (List.mem_cons_of_mem _ hm)) hr
          exact ⟨by rw [hx, h₁], h₂⟩

end

/-- Decimal digits with zeros in front. -/
theorem ofDigitChars_padded (k v : Nat) :
    Nat.ofDigitChars 10 (List.replicate k '0' ++ Nat.toDigits 10 v) 0 = v := by
  rw [Nat.ofDigitChars_append, Nat.ofDigitChars_replicate_zero, Nat.mul_zero,
    Nat.ofDigitChars_toDigits (by decide) (by decide)]

theorem isDigit_of_mem_padded {k v : Nat} {c : Char}
    (h : c ∈ List.replicate k '0' ++ Nat.toDigits 10 v) : c.isDigit := by
  cases List.mem_append.mp h with
  | inl h => rw [(List.mem_replicate.mp h).2]; decide
  | inr h => exact Nat.isDigit_of_mem_toDigits (by decide) (by decide) h

/-! ## Words -/

section
variable {α : Type}

/-- The words of a text: what lies between its separators, the empty ones left out. -/
def words (sep : α → Bool) (text : List α) : List (List α) :=
  (text.splitOnP sep).filter fun w => !w.isEmpty

/-- The words of a text, joined by a single separator. -/
def normalize (sep : α → Bool) (blank : α) (text : List α) : List α :=
  [blank].intercalate (words sep text)

theorem not_sep_of_mem_splitOnP {sep : α → Bool} {text w : List α} (hw : w ∈ text.splitOnP sep)
    {a : α} (ha : a ∈ w) : sep a = false := by
  induction text generalizing w with
  | nil =>
      rw [List.splitOnP_nil, List.mem_singleton] at hw
      rw [hw] at ha
      nomatch ha
  | cons b text ih =>
      rw [List.splitOnP_cons_eq_if_modifyHead] at hw
      split at hw
      · rcases List.mem_cons.mp hw with rfl | hw
        · nomatch ha
        · exact ih hw ha
      · rename_i hb
        obtain ⟨v, vs, hv⟩ := List.exists_cons_of_ne_nil (List.splitOnP_ne_nil sep text)
        rw [hv, List.modifyHead_cons] at hw
        rw [hv] at ih
        rcases List.mem_cons.mp hw with rfl | hw
        · rcases List.mem_cons.mp ha with rfl | ha
          · exact Bool.eq_false_iff.mpr hb
          · exact ih List.mem_cons_self ha
        · exact ih (List.mem_cons_of_mem _ hw) ha

/-- The words of two texts with a separator between them. -/
theorem words_append_cons {sep : α → Bool} {s : α} (hs : sep s) (text text' : List α) :
    words sep (text ++ s :: text') = words sep text ++ words sep text' := by
  rw [words, List.splitOnP_append_cons _ _ hs, List.filter_append]
  rfl

/-- The words keep every letter, and lose the separators. -/
theorem flatten_words (sep : α → Bool) (text : List α) :
    (words sep text).flatten = text.filter fun a => !sep a := by
  have hsplit : (text.splitOnP sep).flatten = text.filter fun a => !sep a := by
    induction text with
    | nil => rfl
    | cons a text ih =>
        obtain ⟨v, vs, hv⟩ := List.exists_cons_of_ne_nil (List.splitOnP_ne_nil sep text)
        rw [hv] at ih
        rw [List.splitOnP_cons_eq_if_modifyHead, hv, List.filter_cons, ← ih]
        cases ha : sep a <;> simp
  rw [words, ← hsplit, List.flatten_filter_not_isEmpty]

/-- A single word is normalized already. -/
theorem normalize_word {sep : α → Bool} {blank : α} {text : List α} (h : ∀ a ∈ text, sep a = false)
    (hne : text ≠ []) : normalize sep blank text = text := by
  have hwords : words sep text = [text] := by
    rw [words, List.splitOnP_eq_singleton h]
    exact List.filter_cons_of_pos (by simpa using hne)
  rw [normalize, hwords, List.intercalate_singleton]

/-- Letters and separators of a joined text. -/
def weight (ws : List (List α)) : Nat := (ws.map List.length).sum + ws.length

theorem weight_splitOnP (sep : α → Bool) (text : List α) :
    weight (text.splitOnP sep) = text.length + 1 := by
  induction text with
  | nil => simp [weight]
  | cons b text ih =>
      rw [List.splitOnP_cons_eq_if_modifyHead]
      obtain ⟨v, vs, hv⟩ := List.exists_cons_of_ne_nil (List.splitOnP_ne_nil sep text)
      rw [hv] at ih ⊢
      simp only [weight, List.map_cons, List.sum_cons, List.length_cons] at ih
      split
      · simp only [weight, List.map_cons, List.sum_cons, List.length_cons, List.length_nil]
        omega
      · simp only [weight, List.modifyHead_cons, List.map_cons, List.sum_cons, List.length_cons]
        omega

theorem weight_filter_le (p : List α → Bool) (ws : List (List α)) :
    weight (ws.filter p) ≤ weight ws := by
  induction ws with
  | nil => exact Nat.le_refl _
  | cons w ws ih =>
      rw [List.filter_cons]
      simp only [weight, List.map_cons, List.sum_cons, List.length_cons] at ih ⊢
      split
      · simp only [List.map_cons, List.sum_cons, List.length_cons]
        omega
      · omega

theorem length_intercalate_le (blank : α) (ws : List (List α)) :
    ([blank].intercalate ws).length ≤ weight ws - 1 := by
  induction ws with
  | nil => exact Nat.zero_le _
  | cons w ws ih =>
      cases ws with
      | nil =>
          rw [List.intercalate_singleton]
          simp [weight]
      | cons v vs =>
          rw [List.intercalate_cons_cons]
          simp only [weight, List.map_cons, List.sum_cons, List.length_cons, List.length_append,
            List.length_nil] at ih ⊢
          omega

/-- Normalizing a text does not make it longer. -/
theorem length_normalize_le (sep : α → Bool) (blank : α) (text : List α) :
    (normalize sep blank text).length ≤ text.length := by
  have h₁ := length_intercalate_le blank (words sep text)
  have h₂ := weight_filter_le (fun w => !w.isEmpty) (text.splitOnP sep)
  rw [weight_splitOnP] at h₂
  have h₃ : weight (words sep text) ≤ text.length + 1 := h₂
  exact h₁.trans (by omega)

theorem getLast?_intercalate {blank : α} {P : α → Prop} : ∀ {ws : List (List α)},
    (∀ w ∈ ws, w ≠ [] ∧ ∀ a ∈ w, P a) → ∀ a ∈ ([blank].intercalate ws).getLast?, P a
  | [], _, a, ha => by nomatch ha
  | [w], h, a, ha => by
      rw [List.intercalate_singleton] at ha
      exact (h w List.mem_cons_self).2 a (List.mem_of_getLast? ha)
  | w :: v :: vs, h, a, ha => by
      have hrest : ∀ a ∈ ([blank].intercalate (v :: vs)).getLast?, P a :=
        getLast?_intercalate fun w hw => h w (List.mem_cons_of_mem _ hw)
      have hne : [blank].intercalate (v :: vs) ≠ [] := by
        have hv := (h v (List.mem_cons_of_mem _ List.mem_cons_self)).1
        cases vs with
        | nil =>
            rw [List.intercalate_singleton]
            exact hv
        | cons u us =>
            rw [List.intercalate_cons_cons]
            simp
      rw [List.intercalate_cons_cons, List.getLast?_append_of_ne_nil _ hne] at ha
      exact hrest a ha

/-- A normalized text does not end in a separator. -/
theorem getLast?_normalize {sep : α → Bool} {blank : α} {text : List α} :
    ∀ a ∈ (normalize sep blank text).getLast?, sep a = false := by
  refine getLast?_intercalate fun w hw => ?_
  obtain ⟨hmem, hne⟩ := List.mem_filter.mp hw
  refine ⟨?_, fun a ha => not_sep_of_mem_splitOnP hmem ha⟩
  rintro rfl
  nomatch hne

end

end Text
