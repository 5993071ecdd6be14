/-
# `Lib.Plurality` — the leaders of a count

A list of candidates, each with its votes.  The leaders are those whose votes are the
highest of the XX-/
import Mathlib.Data.List.Basic
import Mathlib.Data.List.Dedup
import Mathlib.Data.List.Perm.Basic
import Mathlib.Order.Lattice

namespace Plurality

variable {α : Type} {votes votes' : α → Nat} {l l' : List α} {a b : α}

/-- The highest number of votes, 0 if there are no candidates. -/
def highest (votes : α → Nat) (l : List α) : Nat :=
  (l.map votes).foldr max 0

/-- The candidates with the highest number of votes. -/
def leaders (votes : α → Nat) (l : List α) : List α :=
  l.filter fun a => votes a = highest votes l

theorem highest_cons : highest votes (a :: l) = max (votes a) (highest votes l) :=
  rfl

theorem le_highest (h : a ∈ l) : votes a ≤ highest votes l := by
  induction l with
  | nil => nomatch h
  | cons b l ih =>
      rw [highest_cons]
      rcases List.mem_cons.mp h with rfl | h
      · exact le_max_left _ _
      · exact (ih h).trans (le_max_right _ _)

/-- Some candidate has the highest number. -/
theorem exists_highest (h : l ≠ []) : ∃ a ∈ l, votes a = highest votes l := by
  induction l with
  | nil => exact absurd rfl h
  | cons b l ih =>
      rw [highest_cons]
      rcases le_total (highest votes l) (votes b) with hle | hle
      · exact ⟨b, List.mem_cons_self, (max_eq_left hle).symm⟩
      · rw [max_eq_right hle]
        rcases eq_or_ne l [] with rfl | hl
        · exact ⟨b, List.mem_cons_self, Nat.le_zero.mp hle⟩
        · obtain ⟨a, ha, heq⟩ := ih hl
          exact ⟨a, List.mem_cons_of_mem _ ha, heq⟩

theorem mem_leaders : a ∈ leaders votes l ↔ a ∈ l ∧ ∀ b ∈ l, votes b ≤ votes a := by
  rw [leaders, List.mem_filter, decide_eq_true_eq]
  constructor
  · rintro ⟨ha, heq⟩
    exact ⟨ha, fun b hb => heq ▸ le_highest hb⟩
  · rintro ⟨ha, hmax⟩
    obtain ⟨b, hb, heq⟩ : ∃ b ∈ l, votes b = highest votes l :=
      exists_highest (List.ne_nil_of_mem ha)
    exact ⟨ha, le_antisymm (le_highest ha) (heq ▸ hmax b hb)⟩

theorem leaders_ne_nil (h : l ≠ []) : leaders votes l ≠ [] := by
  obtain ⟨a, ha, heq⟩ : ∃ a ∈ l, votes a = highest votes l := exists_highest h
  exact List.ne_nil_of_mem (mem_leaders.mpr ⟨ha, fun b hb => heq ▸ le_highest hb⟩)

theorem highest_perm (h : l.Perm l') : highest votes l = highest votes l' := by
  induction h with
  | nil => rfl
  | cons a _ ih => rw [highest_cons, highest_cons, ih]
  | swap a b l => simp only [highest_cons, max_left_comm]
  | trans _ _ ih ih' => exact ih.trans ih'

theorem leaders_perm (h : l.Perm l') : (leaders votes l).Perm (leaders votes l') := by
  rw [leaders, leaders, highest_perm h]
  exact h.filter _

/-- Who leads alone has more than all the others. -/
theorem ahead_of_singleton (h : leaders votes l = [a]) :
    a ∈ l ∧ ∀ b ∈ l, b ≠ a → votes b < votes a := by
  obtain ⟨ha, hmax⟩ := mem_leaders.mp (h ▸ List.mem_singleton_self a)
  refine ⟨ha, fun b hb hne => lt_of_le_of_ne (hmax b hb) fun heq => hne ?_⟩
  have hlead : b ∈ leaders votes l := mem_leaders.mpr ⟨hb, fun c hc => heq ▸ hmax c hc⟩
  rw [h] at hlead
  exact List.mem_singleton.mp hlead

/-- One leads alone when all the others have fewer votes. -/
theorem leaders_eq_singleton (hn : l.Nodup) :
    leaders votes l = [a] ↔ a ∈ l ∧ ∀ b ∈ l, b ≠ a → votes b < votes a := by
  constructor
  · exact ahead_of_singleton
  · rintro ⟨ha, hlt⟩
    have hlead : a ∈ leaders votes l := by
      refine mem_leaders.mpr ⟨ha, fun b hb => ?_⟩
      rcases eq_or_ne b a with rfl | hne
      · exact le_rfl
      · exact (hlt b hb hne).le
    refine List.perm_singleton.mp
      ((List.perm_ext_iff_of_nodup (hn.filter _) (List.nodup_singleton a)).mpr fun b => ?_)
    rw [List.mem_singleton]
    constructor
    · intro hb
      by_contra hne
      obtain ⟨hb, hmax⟩ := mem_leaders.mp hb
      exact absurd (hlt b hb hne) (not_lt.mpr (hmax a ha))
    · rintro rfl
      exact hlead

/-- Two share the lead. -/
theorem one_lt_length_leaders (hn : l.Nodup) :
    1 < (leaders votes l).length ↔
      ∃ a ∈ l, ∃ b ∈ l, a ≠ b ∧ votes a = votes b ∧ ∀ c ∈ l, votes c ≤ votes a := by
  have hn' : (leaders votes l).Nodup := hn.filter _
  constructor
  · intro h
    match heq : leaders votes l, h, hn' with
    | a :: b :: _, _, hn' =>
        have hne : a ≠ b := fun hab => (List.nodup_cons.mp hn').1 (hab ▸ List.mem_cons_self)
        obtain ⟨ha, hmax⟩ := mem_leaders.mp (heq ▸ List.mem_cons_self)
        obtain ⟨hb, hmax'⟩ := mem_leaders.mp (heq ▸ List.mem_cons_of_mem _ List.mem_cons_self)
        exact ⟨a, ha, b, hb, hne, le_antisymm (hmax' a ha) (hmax b hb), hmax⟩
  · rintro ⟨a, ha, b, hb, hne, heq, hmax⟩
    have hleada : a ∈ leaders votes l := mem_leaders.mpr ⟨ha, hmax⟩
    have hleadb : b ∈ leaders votes l := mem_leaders.mpr ⟨hb, heq ▸ hmax⟩
    match leaders votes l, hleada, hleadb with
    | [c], hleada, hleadb =>
        exact absurd ((List.mem_singleton.mp hleada).trans (List.mem_singleton.mp hleadb).symm) hne
    | _ :: _ :: _, _, _ => exact Nat.succ_lt_succ (Nat.succ_pos _)

end Plurality
