/-
# `Lib.Rows` — tables as lists of keyed rows

A relational table is a list of rows, each with a primary key; the order of the
list is the order of insertion.  The operations are the ones a statement with
`WHERE id = …` needs (`find`, `modify`) and `ORDER BY` (`orderBy`), and the
three-way `column` of a partial `UPDATE`: a column that the writer changed gets
the writer's value, any other keeps the stored one.

The lemmas assume that keys are distinct (`Nodup` of the keys) exactly where a
lookup by key must return a given row.
-/
import Mathlib.Algebra.GroupWithZero.Nat
import Mathlib.Data.List.Sort
import Mathlib.Data.List.Nodup
import Mathlib.Data.List.Dedup

namespace Rows

/-- A row type with its primary key. -/
class Keyed (α : Type) (κ : outParam Type) where
  key : α → κ

open Keyed

section
variable {α κ : Type} [DecidableEq κ] [Keyed α κ]

/-- `SELECT … WHERE key = k`. -/
def find (k : κ) (rows : List α) : Option α := rows.find? fun r => decide (key r = k)

/-- `UPDATE … WHERE key = k`. -/
def modify (k : κ) (f : α → α) (rows : List α) : List α :=
  rows.map fun r => if key r = k then f r else r

theorem find_some {k : κ} {rows : List α} {r : α} (h : find k rows = some r) :
    r ∈ rows ∧ key r = k :=
  ⟨List.mem_of_find?_eq_some h, by simpa using List.find?_some h⟩

theorem find_none {k : κ} {rows : List α} : find k rows = none ↔ ∀ r ∈ rows, key r ≠ k := by
  simp [find, List.find?_eq_none]

omit [DecidableEq κ] in
/-- With distinct keys, two rows with one key are one row. -/
theorem eq_of_key {rows : List α} (hn : (rows.map (key (α := α))).Nodup) {r r' : α}
    (hr : r ∈ rows) (hr' : r' ∈ rows) (hk : key r = key r') : r = r' :=
  List.inj_on_of_nodup_map hn hr hr' hk

theorem find_of_mem {rows : List α} (hn : (rows.map (key (α := α))).Nodup) {r : α}
    (hr : r ∈ rows) : find (key r) rows = some r := by
  cases h : find (key r) rows with
  | none => exact absurd rfl (find_none.mp h r hr)
  | some r' => rw [eq_of_key hn (find_some h).1 hr (find_some h).2]

theorem find_eq_some {rows : List α} (hn : (rows.map (key (α := α))).Nodup) {k : κ} {r : α} :
    find k rows = some r ↔ r ∈ rows ∧ key r = k :=
  ⟨find_some, fun ⟨hr, hk⟩ => hk ▸ find_of_mem hn hr⟩

@[simp] theorem modify_id (k : κ) (rows : List α) : modify k id rows = rows := by
  simp [modify]

/-- Rows of other keys stay. -/
theorem modify_eq_self {k : κ} {f : α → α} {rows : List α} (h : ∀ r ∈ rows, key r ≠ k) :
    modify k f rows = rows := by
  refine (List.map_congr_left fun r hr => ?_).trans (List.map_id rows)
  exact if_neg (h r hr)

/-- A lookup under another key. -/
theorem find_modify_of_ne {k k' : κ} {f : α → α} (hne : k' ≠ k) (hf : ∀ r, key (f r) = key r)
    (rows : List α) : find k' (modify k f rows) = find k' rows := by
  induction rows with
  | nil => rfl
  | cons r rows ih =>
      simp only [find, modify, List.map_cons, List.find?_cons] at ih ⊢
      by_cases hk : key r = k
      · have hr : key r ≠ k' := fun h => hne (h.symm.trans hk)
        rw [if_pos hk, decide_eq_false (by rwa [hf]), decide_eq_false hr]
        exact ih
      · rw [if_neg hk]
        cases decide (key r = k') with
        | true => rfl
        | false => exact ih

/-- A lookup under the key itself. -/
theorem find_modify_self {k : κ} {f : α → α} (hf : ∀ r, key (f r) = key r) (rows : List α) :
    find k (modify k f rows) = (find k rows).map f := by
  induction rows with
  | nil => rfl
  | cons r rows ih =>
      simp only [find, modify, List.map_cons, List.find?_cons] at ih ⊢
      by_cases hk : key r = k
      · rw [if_pos hk, decide_eq_true (by rwa [hf]), decide_eq_true hk]
        rfl
      · rw [if_neg hk, decide_eq_false hk]
        exact ih

/-- A lookup among rows none of which is left out under the key. -/
theorem find_filter {k : κ} {p : α → Bool} (hp : ∀ r, key r = k → p r = true) (rows : List α) :
    find k (rows.filter p) = find k rows := by
  simp only [find, List.find?_filter]
  congr 1
  funext r
  by_cases hk : key r = k
  · simp [hk, hp r hk]
  · simp [hk]

theorem mem_modify {k : κ} {f : α → α} {rows : List α} {x : α} :
    x ∈ modify k f rows ↔ ∃ r ∈ rows, (if key r = k then f r else r) = x := by
  simp [modify]

/-- A column that `f` keeps is the same before and after, as a whole. -/
theorem map_modify {β : Type} {k : κ} {f : α → α} (g : α → β) (hf : ∀ r, g (f r) = g r)
    (rows : List α) : (modify k f rows).map g = rows.map g := by
  simp only [modify, List.map_map]
  refine List.map_congr_left fun r _ => ?_
  simp only [Function.comp_apply]
  split
  · exact hf r
  · rfl

/-- A projection that keeps the keys takes a change to the change of the projected row. -/
theorem map_modify_comm {β : Type} [Keyed β κ] {k : κ} {f : α → α} {h : β → β} {g : α → β}
    (hg : ∀ r, key (g r) = key r) (hf : ∀ r, g (f r) = h (g r)) (rows : List α) :
    (modify k f rows).map g = modify k h (rows.map g) := by
  simp only [modify, List.map_map]
  refine List.map_congr_left fun r _ => ?_
  simp only [Function.comp_apply, hg]
  split
  · exact hf r
  · rfl

/-- The rows that satisfy `p` do not change if no row of key `k` satisfies it,
before or after. -/
theorem filter_modify {k : κ} {f : α → α} {p : α → Bool} {rows : List α}
    (h : ∀ r ∈ rows, key r = k → p r = false ∧ p (f r) = false) :
    (modify k f rows).filter p = rows.filter p := by
  induction rows with
  | nil => rfl
  | cons r rows ih =>
      have hrest := ih fun r' hr' => h r' (List.mem_cons_of_mem _ hr')
      simp only [modify] at hrest
      simp only [modify, List.map_cons]
      by_cases hk : key r = k
      · obtain ⟨h₁, h₂⟩ := h r List.mem_cons_self hk
        rw [if_pos hk, List.filter_cons_of_neg (by simp [h₂]),
          List.filter_cons_of_neg (by simp [h₁])]
        exact hrest
      · rw [if_neg hk, List.filter_cons, List.filter_cons, hrest]

/-! ### Replacing a row -/

/-- The row `r` becomes `r'`. -/
def replace (r r' : α) (rows : List α) : List α := modify (key r) (fun _ => r') rows

/-- With distinct keys, an `UPDATE` by the key of a row replaces that row. -/
theorem modify_eq_replace {rows : List α} (hn : (rows.map (key (α := α))).Nodup) {r : α}
    (hr : r ∈ rows) (f : α → α) : modify (key r) f rows = replace r (f r) rows := by
  refine List.map_congr_left fun x hx => ?_
  split
  · rename_i hk
    rw [eq_of_key hn hx hr hk]
  · rfl

theorem replace_self {rows : List α} (hn : (rows.map (key (α := α))).Nodup) {r : α}
    (hr : r ∈ rows) : replace r r rows = rows :=
  (modify_eq_replace hn hr id).symm.trans (modify_id _ _)

theorem mem_replace {rows : List α} {r r' x : α} (hr : r ∈ rows) :
    x ∈ replace r r' rows ↔ x = r' ∨ (x ∈ rows ∧ key x ≠ key r) := by
  rw [replace, mem_modify]
  constructor
  · rintro ⟨y, hy, h⟩
    split at h
    · exact Or.inl h.symm
    · rename_i hk
      exact Or.inr (h ▸ ⟨hy, hk⟩)
  · rintro (rfl | ⟨hx, hk⟩)
    · exact ⟨r, hr, if_pos rfl⟩
    · exact ⟨x, hx, if_neg hk⟩

/-- A column that the two rows share is the same before and after, as a whole. -/
theorem map_replace {β : Type} {rows : List α} (hn : (rows.map (key (α := α))).Nodup) {r r' : α}
    (hr : r ∈ rows) (g : α → β) (h : g r' = g r) : (replace r r' rows).map g = rows.map g := by
  simp only [replace, modify, List.map_map]
  refine List.map_congr_left fun x hx => ?_
  simp only [Function.comp_apply]
  split
  · rename_i hk
    rw [h, eq_of_key hn hx hr hk]
  · rfl

/-- The rows that satisfy `p` are the same if neither the old row nor the new
one is among them. -/
theorem filter_replace {rows : List α} (hn : (rows.map (key (α := α))).Nodup) {r r' : α}
    (hr : r ∈ rows) {p : α → Bool} (h : p r = false) (h' : p r' = false) :
    (replace r r' rows).filter p = rows.filter p :=
  filter_modify fun _ hx hk => ⟨eq_of_key hn hx hr hk ▸ h, h'⟩

/-! ### Rows that move -/

/-- A row of key `k` satisfied `p` before and satisfies `q` after. -/
def Moves (p q : α → Prop) (k : κ) (rows rows' : List α) : Prop :=
  (∃ r ∈ rows, key r = k ∧ p r) ∧ ∃ r ∈ rows', key r = k ∧ q r

omit [DecidableEq κ] in
/-- Nothing moves if whatever satisfies `q` after was there before. -/
theorem not_moves {p q : α → Prop} {k : κ} {rows rows' : List α}
    (hn : (rows.map (key (α := α))).Nodup) (hpq : ∀ r, p r → ¬ q r)
    (h : ∀ r ∈ rows', q r → r ∈ rows) : ¬ Moves p q k rows rows' := by
  rintro ⟨⟨r, hr, hk, hp⟩, r', hr', hk', hq⟩
  have he : r = r' := eq_of_key hn hr (h r' hr' hq) (hk.trans hk'.symm)
  exact hpq r hp (he ▸ hq)

/-- When a row is replaced, that row moves or none does. -/
theorem moves_replace {p q : α → Prop} {k : κ} {rows : List α}
    (hn : (rows.map (key (α := α))).Nodup) (hpq : ∀ r, p r → ¬ q r) {r r' : α} (hr : r ∈ rows)
    (hk : key r' = key r) : Moves p q k rows (replace r r' rows) ↔ key r = k ∧ p r ∧ q r' := by
  constructor
  · rintro ⟨⟨x, hx, hxk, hp⟩, y, hy, hyk, hq⟩
    rcases (mem_replace hr).mp hy with rfl | ⟨hy, -⟩
    · have he : x = r := eq_of_key hn hx hr (hxk.trans (hyk.symm.trans hk))
      exact ⟨hk.symm.trans hyk, he ▸ hp, hq⟩
    · have he : x = y := eq_of_key hn hx hy (hxk.trans hyk.symm)
      exact absurd (he ▸ hq) (hpq x hp)
  · rintro ⟨hrk, hp, hq⟩
    exact ⟨⟨r, hr, hrk, hp⟩, r', (mem_replace hr).mpr (Or.inl rfl), hk.trans hrk, hq⟩

end

/-! ## `ORDER BY` -/

/-- `ORDER BY` a total preorder `le`; rows that compare equal keep their order. -/
def orderBy {α : Type} (le : α → α → Bool) (rows : List α) : List α :=
  rows.insertionSort fun a b => le a b = true

theorem orderBy_perm {α : Type} (le : α → α → Bool) (rows : List α) :
    (orderBy le rows).Perm rows :=
  List.perm_insertionSort _ rows

@[simp] theorem mem_orderBy {α : Type} {le : α → α → Bool} {rows : List α} {r : α} :
    r ∈ orderBy le rows ↔ r ∈ rows :=
  (orderBy_perm le rows).mem_iff

@[simp] theorem length_orderBy {α : Type} (le : α → α → Bool) (rows : List α) :
    (orderBy le rows).length = rows.length :=
  (orderBy_perm le rows).length_eq

/-! ## `LEFT OUTER JOIN … GROUP BY` -/

section
variable {α β κ : Type} {on : α → β → Bool} {others : List β} {k : α → κ}

/-- A row with each of its matches, or with none. -/
def joinRow (on : α → β → Bool) (others : List β) (r : α) : List (α × Option β) :=
  match others.filter (on r) with
  | [] => [(r, none)]
  | matched => matched.map fun m => (r, some m)

def outerJoin (on : α → β → Bool) (others : List β) (rows : List α) : List (α × Option β) :=
  rows.flatMap (joinRow on others)

/-- `SELECT k, COUNT(match) … GROUP BY k`. -/
def groupCount [DecidableEq κ] (k : α → κ) (joined : List (α × Option β)) : List (κ × Nat) :=
  (joined.map fun j => k j.1).dedup.map fun g =>
    (g, (joined.filter fun j => k j.1 = g && j.2.isSome).length)

/-- The rows of one join are not none, all begin with the row, and as many of
them have a match as there are matches. -/
theorem joinRow_spec (r : α) :
    joinRow on others r ≠ [] ∧ (∀ j ∈ joinRow on others r, j.1 = r) ∧
      ((joinRow on others r).filter fun j => j.2.isSome).length =
        (others.filter (on r)).length := by
  unfold joinRow
  split
  · rename_i h
    refine ⟨List.cons_ne_nil _ _, fun j hj => List.mem_singleton.mp hj ▸ rfl, ?_⟩
    rw [h]
    rfl
  · rename_i h
    refine ⟨fun hmap => h (List.map_eq_nil_iff.mp hmap), ?_, ?_⟩
    · intro j hj
      obtain ⟨m, -, rfl⟩ := List.mem_map.mp hj
      rfl
    · rw [List.filter_eq_self.mpr, List.length_map]
      intro j hj
      obtain ⟨m, -, rfl⟩ := List.mem_map.mp hj
      rfl

theorem key_of_mem_outerJoin {rows : List α} {j : α × Option β}
    (h : j ∈ outerJoin on others rows) : j.1 ∈ rows := by
  obtain ⟨r, hr, hj⟩ := List.mem_flatMap.mp h
  exact (joinRow_spec r).2.1 j hj ▸ hr

/-- With distinct keys, the groups are the rows, each with its number of matches. -/
theorem groupCount_outerJoin [DecidableEq κ] : ∀ {rows : List α}, (rows.map k).Nodup →
    groupCount k (outerJoin on others rows) =
      rows.map fun r => (k r, (others.filter (on r)).length)
  | [], _ => rfl
  | r :: rows, hn => by
      obtain ⟨hr, hn⟩ := List.nodup_cons.mp hn
      have ih := groupCount_outerJoin hn
      obtain ⟨hne, hfst, hcount⟩ : _ ∧ _ ∧ _ = (others.filter (on r)).length := joinRow_spec r
      have hhead : ∀ j ∈ joinRow on others r, k j.1 = k r := fun j hj => by rw [hfst j hj]
      -- the keys of the rest of the join are keys of other rows
      have hrest : ∀ j ∈ outerJoin on others rows, k j.1 ≠ k r := fun j hj he =>
        hr (he ▸ List.mem_map_of_mem (key_of_mem_outerJoin hj))
      have hkeys : ((joinRow on others r ++ outerJoin on others rows).map fun j => k j.1).dedup =
          k r :: ((outerJoin on others rows).map fun j => k j.1).dedup := by
        have hblock : (joinRow on others r).map (fun j => k j.1) =
            List.replicate (joinRow on others r).length (k r) :=
          List.map_eq_replicate_iff.mpr hhead
        rw [List.map_append, List.Disjoint.dedup_append, hblock, List.replicate_dedup]
        · rfl
        · exact fun h => hne (List.length_eq_zero_iff.mp h)
        · intro g h₁ h₂
          obtain ⟨j, hj, rfl⟩ := List.mem_map.mp h₁
          obtain ⟨j', hj', he⟩ := List.mem_map.mp h₂
          exact hrest j' hj' (he.trans (hhead j hj))
      show groupCount k (joinRow on others r ++ outerJoin on others rows) = _
      rw [groupCount, hkeys, List.map_cons, List.map_cons]
      congr 1
      · rw [Prod.mk.injEq, List.filter_append, List.length_append, ← hcount]
        refine ⟨rfl, ?_⟩
        have h₁ : (joinRow on others r).filter (fun j => k j.1 = k r && j.2.isSome) =
            (joinRow on others r).filter fun j => j.2.isSome :=
          List.filter_congr fun j hj => by simp [hhead j hj]
        have h₂ : (outerJoin on others rows).filter (fun j => k j.1 = k r && j.2.isSome) = [] :=
          List.filter_eq_nil_iff.mpr fun j hj => by simp [hrest j hj]
        rw [h₁, h₂, List.length_nil, Nat.add_zero]
      · rw [← ih, groupCount]
        refine List.map_congr_left fun g hg => ?_
        obtain ⟨j, hj, rfl⟩ := List.mem_map.mp (List.mem_dedup.mp hg)
        have h₁ : (joinRow on others r).filter (fun i => k i.1 = k j.1 && i.2.isSome) = [] :=
          List.filter_eq_nil_iff.mpr fun i hi => by simp [hhead i hi, (hrest j hj).symm]
        rw [List.filter_append, h₁, List.nil_append]

/-- With distinct keys, one row has a key or none has. -/
theorem length_filter_key [DecidableEq κ] {rows : List α} (hn : (rows.map k).Nodup) (g : κ) :
    (rows.filter fun r => decide (k r = g)).length = if g ∈ rows.map k then 1 else 0 := by
  rw [← List.Nodup.count hn, List.count, List.countP_map, List.countP_eq_length_filter]
  congr 1

/-- Counting the matches row by row or from the other side. -/
theorem sum_matches (on : α → β → Bool) (rows : List α) : ∀ others : List β,
    (rows.map fun r => (others.filter (on r)).length).sum =
      (others.map fun o => (rows.filter fun r => on r o).length).sum
  | [] => by simp
  | o :: others => by
      have hsplit : ∀ rows : List α,
          (rows.map fun r => ((o :: others).filter (on r)).length).sum =
            (rows.filter fun r => on r o).length +
              (rows.map fun r => (others.filter (on r)).length).sum := by
        intro rows
        induction rows with
        | nil => rfl
        | cons r rows ih =>
            rw [List.map_cons, List.sum_cons, ih, List.map_cons, List.sum_cons,
              List.filter_cons (x := o), List.filter_cons (x := r)]
            split
            · rw [List.length_cons, List.length_cons]
              omega
            · omega
      rw [hsplit, sum_matches on rows others, List.map_cons, List.sum_cons]

/-- If each of the others that satisfies `p` matches exactly one row, and the
rest match none, the matches are as many as satisfy `p`. -/
theorem sum_matches_eq (on : α → β → Bool) {rows : List α} {others : List β} {p : β → Bool}
    (h : ∀ o ∈ others, (rows.filter fun r => on r o).length = if p o then 1 else 0) :
    (rows.map fun r => (others.filter (on r)).length).sum = (others.filter p).length := by
  rw [sum_matches]
  induction others with
  | nil => rfl
  | cons o others ih =>
      rw [List.map_cons, List.sum_cons, h o List.mem_cons_self,
        ih fun x hx => h x (List.mem_cons_of_mem _ hx), List.filter_cons]
      split
      · rw [List.length_cons, Nat.add_comm]
      · rw [Nat.zero_add]

end

/-! ## Partial updates -/

/-- One column of a partial `UPDATE`: written only if the writer gave it a value
other than the one it had loaded. -/
def column {β : Type} [DecidableEq β] (loaded current stored : β) : β :=
  if current = loaded then stored else current

/-- Nothing has come in between: the writer's value is stored. -/
@[simp] theorem column_fresh {β : Type} [DecidableEq β] (loaded current : β) :
    column loaded current loaded = current := by
  unfold column
  split
  · rename_i h
    exact h.symm
  · rfl

/-- A column the writer left alone keeps the stored value. -/
@[simp] theorem column_kept {β : Type} [DecidableEq β] (loaded stored : β) :
    column loaded loaded stored = stored :=
  if_pos rfl

/-- The stored value stays, or the writer's comes. -/
theorem column_cases {β : Type} [DecidableEq β] (loaded current stored : β) :
    column loaded current stored = stored ∨ column loaded current stored = current := by
  unfold column
  split
  · exact Or.inl rfl
  · exact Or.inr rfl

theorem column_changed {β : Type} [DecidableEq β] {loaded current : β} (h : current ≠ loaded)
    (stored : β) : column loaded current stored = current :=
  if_neg h

end Rows
