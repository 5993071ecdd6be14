/-
# `Lib.Positions` — a list kept as integer positions

A table can keep a list by giving each row an integer `position`: the list is the
rows in ascending order of it.  The positions need not be `0 … n - 1`; a deletion
leaves a gap, and an insertion at the end takes one more than the largest.

    Edit           what happens to the list, on the keys
    Lists rows l   `l` is the rows in ascending order of positions
    next           one more than the largest position
    renumber       `n`, `n + 1`, … for the rows with the given keys

`Lists` holds of one list at most (`Lists.unique`), and that list is what
`ORDER BY position` answers (`Lists.orderBy_eq`).  For each edit there is the
lemma that says which change of the rows carries it out.
-/
import ForkRoom.Lib.Rows
import Mathlib.Data.List.Perm.Basic
import Mathlib.Order.Lattice

namespace Positions

open Rows

/-! ## The list -/

/-- An edit of a list of keys. -/
inductive Edit (κ : Type) where
  | keep
  | append (k : κ)
  | erase (k : κ)
  | arrange (ks : List κ)
  | clear
  deriving DecidableEq

def Edit.apply {κ : Type} [DecidableEq κ] (l : List κ) : Edit κ → List κ
  | keep => l
  | append k => l ++ [k]
  | erase k => l.filter fun x => x ≠ k
  | arrange ks => ks
  | clear => []

/-! ## The rows -/

section
variable {α κ : Type} (pos : α → ℤ)

/-- `l` is the rows, in ascending order of their positions. -/
structure Lists (rows l : List α) : Prop where
  perm : l.Perm rows
  ascending : l.Pairwise fun a b => pos a < pos b

/-- `COALESCE(MAX(position), -1) + 1`. -/
def next (rows : List α) : ℤ := (rows.map pos).foldr max (-1) + 1

variable {pos} {rows l l' : List α}

theorem Lists.nil : Lists pos [] [] := ⟨.refl [], .nil⟩

theorem Lists.unique (h : Lists pos rows l) (h' : Lists pos rows l') : l = l' := by
  refine List.Perm.eq_of_pairwise ?_ h.ascending h'.ascending (h.perm.trans h'.perm.symm)
  intro a b _ _ hab hba
  exact absurd hab (lt_asymm hba)

/-- The positions are distinct. -/
theorem Lists.nodup (h : Lists pos rows l) : (rows.map pos).Nodup := by
  have hlist : (l.map pos).Nodup := List.pairwise_map.mpr (h.ascending.imp fun hlt => ne_of_lt hlt)
  exact (h.perm.map pos).nodup_iff.mp hlist

/-- Rows with distinct positions are in order once they are sorted. -/
theorem lists_orderBy (hn : (rows.map pos).Nodup) :
    Lists pos rows (orderBy (fun a b => pos a ≤ pos b) rows) := by
  have hperm := orderBy_perm (fun a b => decide (pos a ≤ pos b)) rows
  refine ⟨hperm, ?_⟩
  have hle : (orderBy (fun a b => pos a ≤ pos b) rows).Pairwise fun a b =>
      decide (pos a ≤ pos b) = true := by
    have : Std.Total fun a b : α => decide (pos a ≤ pos b) = true :=
      ⟨fun a b => by simpa using le_total (pos a) (pos b)⟩
    have : IsTrans α fun a b => decide (pos a ≤ pos b) = true :=
      ⟨fun a b c hab hbc => by
        simp only [decide_eq_true_eq] at hab hbc ⊢
        exact hab.trans hbc⟩
    exact List.pairwise_insertionSort _ _
  have hne : (orderBy (fun a b => pos a ≤ pos b) rows).Pairwise fun a b => pos a ≠ pos b :=
    List.pairwise_map.mp ((hperm.map pos).nodup_iff.mpr hn)
  refine hle.imp₂ ?_ hne
  intro a b hab hne
  exact lt_of_le_of_ne (by simpa using hab) hne

/-- The list is what `ORDER BY position` answers. -/
theorem Lists.orderBy_eq (h : Lists pos rows l) :
    orderBy (fun a b => pos a ≤ pos b) rows = l :=
  (lists_orderBy h.nodup).unique h

/-! ### Append, erase, change -/

theorem lt_next {r : α} (hr : r ∈ rows) : pos r < next pos rows := by
  induction rows with
  | nil => nomatch hr
  | cons x rows ih =>
      simp only [next, List.map_cons, List.foldr_cons] at ih ⊢
      rcases List.mem_cons.mp hr with rfl | hr
      · exact Int.lt_add_one_of_le (le_max_left _ _)
      · have hlt := ih hr
        have hmax := le_max_right (pos x) ((rows.map pos).foldr max (-1))
        omega

theorem next_nonneg (rows : List α) : 0 ≤ next pos rows := by
  have h : -1 ≤ (rows.map pos).foldr max (-1) := by
    induction rows with
    | nil => exact le_refl _
    | cons x rows ih => exact ih.trans (le_max_right _ _)
  simp only [next]
  omega

/-- A row after all others goes to the end. -/
theorem Lists.append (h : Lists pos rows l) {x : α} (hx : ∀ r ∈ rows, pos r < pos x) :
    Lists pos (rows ++ [x]) (l ++ [x]) where
  perm := h.perm.append_right [x]
  ascending := by
    refine List.pairwise_append.mpr ⟨h.ascending, List.pairwise_singleton _ _, ?_⟩
    intro a ha b hb
    rw [List.mem_singleton.mp hb]
    exact hx a (h.perm.mem_iff.mp ha)

/-- Rows that are taken out leave the others in their order. -/
theorem Lists.filter (h : Lists pos rows l) (p : α → Bool) :
    Lists pos (rows.filter p) (l.filter p) :=
  ⟨h.perm.filter p, h.ascending.filter p⟩

/-- A change that keeps the positions keeps the order. -/
theorem Lists.map (h : Lists pos rows l) {f : α → α} (hf : ∀ r, pos (f r) = pos r) :
    Lists pos (rows.map f) (l.map f) := by
  refine ⟨h.perm.map f, List.pairwise_map.mpr (h.ascending.imp ?_)⟩
  intro a b hab
  rwa [hf, hf]

/-! ### Renumbering -/

variable [DecidableEq κ] [Keyed α κ]

/-- The rows with the keys get the positions `n`, `n + 1`, … in the order of the keys. -/
def renumber (place : ℕ → α → α) : ℕ → List κ → List α → List α
  | _, [], rows => rows
  | n, k :: ks, rows => renumber place (n + 1) ks (Rows.modify k (place n) rows)

/-- What renumbering keeps of each row, it keeps of the rows. -/
theorem map_renumber {β : Type} (place : ℕ → α → α) (g : α → β) (hg : ∀ n r, g (place n r) = g r) :
    ∀ (n : ℕ) (ks : List κ) (rows : List α), (renumber place n ks rows).map g = rows.map g
  | _, [], _ => rfl
  | n, k :: ks, rows => by
      rw [renumber, map_renumber place g hg, map_modify g (hg n)]

/-- Of the rows that satisfy `p`, whatever their positions, the same are renumbered. -/
theorem filter_renumber {place : ℕ → α → α} {p : α → Bool} (hp : ∀ n r, p (place n r) = p r) :
    ∀ (n : ℕ) (ks : List κ) (rows : List α),
      (renumber place n ks rows).filter p = renumber place n ks (rows.filter p)
  | _, [], _ => rfl
  | n, k :: ks, rows => by
      have hmodify : (Rows.modify k (place n) rows).filter p =
          Rows.modify k (place n) (rows.filter p) := by
        simp only [Rows.modify, List.filter_map]
        congr 1
        refine List.filter_congr fun r _ => ?_
        simp only [Function.comp_apply]
        split
        · exact hp n r
        · rfl
      rw [renumber, filter_renumber hp, hmodify]
      rfl

/-- Rows none of which has one of the keys stay. -/
theorem renumber_eq_self {place : ℕ → α → α} : ∀ {n : ℕ} {ks : List κ} {rows : List α},
    (∀ r ∈ rows, Keyed.key r ∉ ks) → renumber place n ks rows = rows
  | _, [], _, _ => rfl
  | n, k :: ks, rows, h => by
      have hmodify : Rows.modify k (place n) rows = rows :=
        modify_eq_self fun r hr hk => h r hr (List.mem_cons.mpr (Or.inl hk))
      rw [renumber, hmodify]
      exact renumber_eq_self fun r hr hk => h r hr (List.mem_cons_of_mem k hk)

/-- Renumbering makes no position negative. -/
theorem renumber_nonneg (pos : α → ℤ) (place : ℕ → α → α) (hpos : ∀ n r, pos (place n r) = n) :
    ∀ {n : ℕ} {ks : List κ} {rows : List α}, (∀ r ∈ rows, 0 ≤ pos r) →
      ∀ r ∈ renumber place n ks rows, 0 ≤ pos r
  | _, [], _, h => h
  | n, k :: ks, rows, h => by
      have hmodify : ∀ r ∈ Rows.modify k (place n) rows, 0 ≤ pos r := by
        intro r hr
        obtain ⟨x, hx, rfl⟩ := mem_modify.mp hr
        split
        · rw [hpos]
          exact Int.natCast_nonneg n
        · exact h x hx
      rw [renumber]
      exact renumber_nonneg pos place hpos hmodify

/-- The loop of `renumber`: the rows of `done` have their new positions, all
below `n`, and those of `rest` have the keys that are to come. -/
theorem lists_renumber_from {place : ℕ → α → α} (hkey : ∀ n r, Keyed.key (place n r) = Keyed.key r)
    (hpos : ∀ n r, pos (place n r) = n) : ∀ {ks : List κ} {n : ℕ} {rows done rest : List α},
    rows.Perm (done ++ rest) → done.Pairwise (fun a b => pos a < pos b) →
    (∀ r ∈ done, pos r < n) → ks.Perm (rest.map Keyed.key) →
    (done.map Keyed.key ++ ks).Nodup →
    ∃ l, Lists pos (renumber place n ks rows) l ∧ l.map Keyed.key = done.map Keyed.key ++ ks
  | [], n, rows, done, rest, hrows, hdone, _, hks, _ => by
      have hrest : rest = [] := List.map_eq_nil_iff.mp hks.nil_eq.symm
      rw [hrest, List.append_nil] at hrows
      exact ⟨done, ⟨hrows.symm, hdone⟩, (List.append_nil _).symm⟩
  | k :: ks, n, rows, done, rest, hrows, hdone, hlt, hks, hn => by
      obtain ⟨x, hx, hxk⟩ := List.mem_map.mp (hks.mem_iff.mp List.mem_cons_self)
      obtain ⟨rest₁, rest₂, rfl⟩ := List.append_of_mem hx
      have hsplit : (rest₁ ++ x :: rest₂).Perm (x :: (rest₁ ++ rest₂)) := List.perm_middle
      have hkeys : ks.Perm ((rest₁ ++ rest₂).map Keyed.key) := by
        have h := hks.trans (hsplit.map Keyed.key)
        rw [List.map_cons, hxk] at h
        exact h.cons_inv
      have hfresh : k ∉ done.map Keyed.key ∧ k ∉ ks := by
        rw [List.nodup_middle] at hn
        simpa only [List.mem_append, not_or] using (List.nodup_cons.mp hn).1
      -- of these rows, `x` alone has the key
      have hmodify : Rows.modify k (place n) (done ++ x :: (rest₁ ++ rest₂)) =
          done ++ [place n x] ++ (rest₁ ++ rest₂) := by
        have h₁ : Rows.modify k (place n) done = done :=
          modify_eq_self fun r hr hk => hfresh.1 (hk ▸ List.mem_map_of_mem hr)
        have h₂ : Rows.modify k (place n) (rest₁ ++ rest₂) = rest₁ ++ rest₂ :=
          modify_eq_self fun r hr hk =>
            hfresh.2 (hkeys.mem_iff.mpr (hk ▸ List.mem_map_of_mem hr))
        have h₃ : Rows.modify k (place n) (done ++ x :: (rest₁ ++ rest₂)) =
            Rows.modify k (place n) done ++
              place n x :: Rows.modify k (place n) (rest₁ ++ rest₂) := by
          simp only [Rows.modify, List.map_append, List.map_cons, hxk, if_true]
        rw [h₃, h₁, h₂, List.append_assoc]
        rfl
      have hstep : (Rows.modify k (place n) rows).Perm
          (done ++ [place n x] ++ (rest₁ ++ rest₂)) := by
        rw [← hmodify]
        exact (hrows.trans (hsplit.append_left done)).map _
      have hdone' : (done ++ [place n x]).Pairwise fun a b => pos a < pos b := by
        refine List.pairwise_append.mpr ⟨hdone, List.pairwise_singleton _ _, fun a ha b hb => ?_⟩
        rw [List.mem_singleton.mp hb, hpos]
        exact hlt a ha
      have hlt' : ∀ r ∈ done ++ [place n x], pos r < ((n + 1 : ℕ) : ℤ) := by
        intro r hr
        rcases List.mem_append.mp hr with hr | hr
        · have := hlt r hr
          omega
        · rw [List.mem_singleton.mp hr, hpos]
          omega
      have hmap : (done ++ [place n x]).map (Keyed.key (α := α)) = done.map Keyed.key ++ [k] := by
        rw [List.map_append, List.map_singleton, hkey, hxk]
      have hn' : ((done ++ [place n x]).map Keyed.key ++ ks).Nodup := by
        rw [hmap, List.append_assoc]
        exact hn
      obtain ⟨l, hl, hlk⟩ := lists_renumber_from hkey hpos hstep hdone' hlt' hkeys hn'
      refine ⟨l, hl, ?_⟩
      rw [hlk, hmap, List.append_assoc]
      rfl

/-- **Renumbering the rows in the order of `ks` makes `ks` the list.** -/
theorem lists_renumber (pos : α → ℤ) (place : ℕ → α → α)
    (hkey : ∀ n r, Keyed.key (place n r) = Keyed.key r) (hpos : ∀ n r, pos (place n r) = n)
    {ks : List κ} {rows : List α} (hn : ks.Nodup)
    (hks : ks.Perm (rows.map Keyed.key)) :
    ∃ l, Lists pos (renumber place 0 ks rows) l ∧ l.map Keyed.key = ks := by
  have hrows : rows.Perm ([] ++ rows) := .refl rows
  exact lists_renumber_from hkey hpos hrows .nil (fun _ h => nomatch h) hks hn

end

end Positions
