/-
# `Lib.Pages` — a listing read page by page

A listing is in strictly descending order of a key.  A page holds the first rows behind a
cursor, which is the key of the last row of the page before; one row more is looked at, and
tells whether another page follows (`page`).

    listing     before ++ rest
    cursor      the key of the last row of `before`
    page        the first `limit` rows of `rest`

Ties cannot occur: the key is of all that the order compares.  Following the cursors reads
the whole listing, whatever a cursor is written as (`follow_listing`).
-/
import ForkRoom.Lib.Rows
import Mathlib.Data.List.Basic
import Mathlib.Order.Basic
import Mathlib.Order.Defs.LinearOrder

namespace Pages

/-! ## The listing -/

section
variable {α κ : Type} [LinearOrder κ] {key : α → κ} {rows : List α}

/-- `ORDER BY key DESC` -/
def descending (key : α → κ) (rows : List α) : List α :=
  Rows.orderBy (fun a b => decide (key b ≤ key a)) rows

theorem descending_perm (key : α → κ) (rows : List α) : (descending key rows).Perm rows :=
  Rows.orderBy_perm _ _

/-- Where no two rows have one key, the order is strict. -/
theorem pairwise_descending (hn : (rows.map key).Nodup) :
    (descending key rows).Pairwise fun a b => key b < key a := by
  have htotal : Std.Total fun a b : α => decide (key b ≤ key a) = true :=
    ⟨fun a b => by simpa using le_total (key b) (key a)⟩
  have htrans : IsTrans α fun a b => decide (key b ≤ key a) = true :=
    ⟨fun a b c hab hbc => by simp only [decide_eq_true_eq] at *; exact le_trans hbc hab⟩
  have hsorted : (descending key rows).Pairwise fun a b => decide (key b ≤ key a) = true :=
    List.pairwise_insertionSort (fun a b => decide (key b ≤ key a) = true) rows
  have hkeys : (descending key rows).Pairwise fun a b => key a ≠ key b := by
    have hn' : ((descending key rows).map key).Nodup :=
      ((descending_perm key rows).map key).nodup_iff.mpr hn
    exact List.pairwise_map.mp hn'
  refine (hsorted.and hkeys).imp fun h => ?_
  exact lt_of_le_of_ne (of_decide_eq_true h.1) (Ne.symm h.2)

/-- Some rows are listed as they are in the whole listing. -/
theorem descending_filter (p : α → Bool) (hn : (rows.map key).Nodup) :
    descending key (rows.filter p) = (descending key rows).filter p := by
  have hn' : ((rows.filter p).map key).Nodup :=
    hn.sublist (List.filter_sublist.map key)
  have hperm : (descending key (rows.filter p)).Perm ((descending key rows).filter p) :=
    (descending_perm key _).trans ((descending_perm key rows).filter p).symm
  refine hperm.eq_of_pairwise (fun a b _ _ hab hba => absurd hab (lt_asymm hba))
    (pairwise_descending hn') ?_
  exact (pairwise_descending hn).sublist List.filter_sublist

end

/-! ## One page -/

section
variable {α κ : Type} [LinearOrder κ] {key : α → κ} {limit : ℕ} {before rest listing : List α}

/-- The rows behind a cursor. -/
def behind (key : α → κ) (cursor : Option κ) (rows : List α) : List α :=
  rows.filter fun r => cursor.all fun k => decide (key r < k)

/-- A page, and whether another follows. -/
def page (limit : ℕ) (rows : List α) : List α × Bool :=
  let found := rows.take (limit + 1)
  (found.take limit, decide (limit < found.length))

/-- The cursor stands behind `before`. -/
def IsCursor (key : α → κ) (before : List α) (cursor : Option κ) : Prop :=
  cursor = before.getLast?.map key

theorem page_eq (limit : ℕ) (rows : List α) :
    page limit rows = (rows.take limit, decide (limit < rows.length)) := by
  have htake : (rows.take (limit + 1)).take limit = rows.take limit := by
    rw [List.take_take, Nat.min_eq_left (Nat.le_succ limit)]
  have hlen : limit < (rows.take (limit + 1)).length ↔ limit < rows.length := by
    rw [List.length_take]
    omega
  simp only [page, htake, hlen]

/-- Behind the cursor is the rest of the listing. -/
theorem behind_append {cursor : Option κ} (hc : IsCursor key before cursor)
    (hsorted : (before ++ rest).Pairwise fun a b => key b < key a) :
    behind key cursor (before ++ rest) = rest := by
  obtain ⟨hbefore, -, hcross⟩ := List.pairwise_append.mp hsorted
  cases hlast : before.getLast? with
  | none =>
      rw [List.getLast?_eq_none_iff] at hlast
      subst hlast
      rw [hc]
      simp [behind]
  | some b =>
      rw [hc, hlast]
      obtain ⟨front, rfl⟩ := List.getLast?_eq_some_iff.mp hlast
      have hleft : ∀ a ∈ front ++ [b], ¬ key a < key b := by
        intro a ha
        rcases List.mem_append.mp ha with ha | ha
        · have hab := (List.pairwise_append.mp hbefore).2.2 a ha b List.mem_cons_self
          exact not_lt_of_gt hab
        · rw [List.mem_singleton.mp ha]
          exact lt_irrefl _
      have hright : ∀ a ∈ rest, key a < key b :=
        fun a ha => hcross b (List.mem_append_right _ List.mem_cons_self) a ha
      have hnone : behind key (some (key b)) (front ++ [b]) = [] := by
        refine List.filter_eq_nil_iff.mpr fun a ha => ?_
        simpa using hleft a ha
      have hall : behind key (some (key b)) rest = rest := by
        refine List.filter_eq_self.mpr fun a ha => ?_
        simpa using hright a ha
      have hsplit : behind key (some (key b)) (front ++ [b] ++ rest) =
          behind key (some (key b)) (front ++ [b]) ++ behind key (some (key b)) rest :=
        List.filter_append _ _
      rw [Option.map_some, hsplit, hnone, hall, List.nil_append]

end

/-! ## All pages -/

section
variable {α β ε γ π : Type}

/-- Following the cursors, for at most `fuel` pages. -/
def follow (fetch : Option γ → Except ε π) (next : π → Option γ) : ℕ → Option γ → Option (List π)
  | 0, _ => none
  | fuel + 1, cursor =>
      match fetch cursor with
      | .error _ => none
      | .ok p =>
          match next p with
          | none => some [p]
          | some c => (follow fetch next fuel (some c)).map (p :: ·)

/-- More fuel finds the same pages. -/
theorem follow_mono {fetch : Option γ → Except ε π} {next : π → Option γ} {fuel fuel' : ℕ}
    (hle : fuel ≤ fuel') {cursor : Option γ} {pages : List π}
    (h : follow fetch next fuel cursor = some pages) :
    follow fetch next fuel' cursor = some pages := by
  induction fuel generalizing fuel' cursor pages with
  | zero => cases h
  | succ fuel ih =>
      obtain ⟨fuel', rfl⟩ : ∃ k, fuel' = k + 1 := ⟨fuel' - 1, by omega⟩
      rw [follow] at h ⊢
      split at h
      · cases h
      · rename_i p hp
        split at h
        · exact h
        · rename_i c hc
          obtain ⟨more, hmore, he⟩ := Option.map_eq_some_iff.mp h
          simp only [ih (Nat.le_of_succ_le_succ hle) hmore, Option.map_some, he]

variable {fetch : Option γ → Except ε π} {next : π → Option γ} {items : π → List β} {view : α → β}
  {limit : ℕ} {At : List α → Option γ → Prop}

/-- What one page is of a listing: the next rows, and a cursor behind them if more follow. -/
structure Paged (fetch : Option γ → Except ε π) (next : π → Option γ) (items : π → List β)
    (view : α → β) (limit : ℕ) (listing : List α) (At : List α → Option γ → Prop) : Prop where
  ok : ∀ {before rest cursor}, before ++ rest = listing → At before cursor →
    ∃ p, fetch cursor = .ok p ∧ items p = (rest.take limit).map view ∧
      (rest.length ≤ limit → next p = none) ∧
      (limit < rest.length → ∃ c, next p = some c ∧ At (before ++ rest.take limit) (some c))

/-- The pages are the listing, cut; the last names no next page. -/
theorem Paged.follow_rest {listing : List α} (h : Paged fetch next items view limit listing At)
    (hlimit : 1 ≤ limit) {fuel : ℕ} {before rest : List α} {cursor : Option γ}
    (hlisting : before ++ rest = listing) (hat : At before cursor) (hfuel : rest.length < fuel) :
    ∃ pages, follow fetch next fuel cursor = some pages ∧ pages.flatMap items = rest.map view ∧
      (∀ p ∈ pages, (items p).length ≤ limit) ∧ ∃ p, pages.getLast? = some p ∧ next p = none := by
  -- on the fuel: what is left gets shorter with every page
  induction fuel generalizing before rest cursor with
  | zero => exact absurd hfuel (Nat.not_lt_zero _)
  | succ fuel ih =>
      obtain ⟨p, hfetch, hitems, hlast, hmore⟩ := h.ok hlisting hat
      have hlen : (items p).length ≤ limit := by
        rw [hitems, List.length_map]
        exact List.length_take_le _ _
      by_cases hend : rest.length ≤ limit
      · refine ⟨[p], ?_, ?_, ?_, p, rfl, hlast hend⟩
        · simp [follow, hfetch, hlast hend]
        · simp [hitems, List.take_of_length_le hend]
        · simpa using hlen
      · obtain ⟨c, hnext, hat'⟩ := hmore (Nat.lt_of_not_le hend)
        have hlisting' : before ++ rest.take limit ++ rest.drop limit = listing := by
          rw [List.append_assoc, List.take_append_drop, hlisting]
        have hfuel' : (rest.drop limit).length < fuel := by
          rw [List.length_drop]
          omega
        obtain ⟨pages, hpages, hflat, hshort, q, hq, hnone⟩ := ih hlisting' hat' hfuel'
        refine ⟨p :: pages, ?_, ?_, ?_, q, ?_, hnone⟩
        · simp [follow, hfetch, hnext, hpages]
        · rw [List.flatMap_cons, hitems, hflat, ← List.map_append, List.take_append_drop]
        · intro x hx
          rcases List.mem_cons.mp hx with rfl | hx
          · exact hlen
          · exact hshort x hx
        · rw [List.getLast?_cons, hq]
          rfl

/-- From the start, the pages are the listing. -/
theorem Paged.follow_listing {listing : List α} (h : Paged fetch next items view limit listing At)
    (hlimit : 1 ≤ limit) (hat : At [] none) :
    ∃ pages, (∀ fuel, listing.length < fuel → follow fetch next fuel none = some pages) ∧
      pages.flatMap items = listing.map view ∧ (∀ p ∈ pages, (items p).length ≤ limit) ∧
      ∃ p, pages.getLast? = some p ∧ next p = none := by
  obtain ⟨pages, hpages, hrest⟩ :=
    h.follow_rest hlimit (List.nil_append _) hat (Nat.lt_succ_self _)
  exact ⟨pages, fun fuel hfuel => follow_mono hfuel hpages, hrest⟩

end

end Pages
