/-
# `Lib.Chain` — numbered chains of links

A link leads from a predecessor to a successor; it carries a number, and the
root of the chain it belongs to.  Links of many chains are kept in one table.

    Link        the four columns of a link
    Linear      every chain is numbered from one, without a gap or a repeat, and each link
                starts where the one before it ends
    rootOf      the root of an element: that of the link that ends there, or itself
    listing     the links of one chain, in order of their numbers

In a linear table the root that is looked up is the same for every element of a
chain (`rootOf_root`, `rootOf_predecessor`, `rootOf_successor`), and the listing
goes from link to link, beginning at the root (`listing_numbers`, `listing_head`,
`listing_next`).
-/
import ForkRoom.Lib.Rows

namespace Chain

open Rows

/-- The columns of a link. -/
class Link (α : Type) (κ : outParam Type) where
  root : α → κ
  predecessor : α → κ
  successor : α → κ
  number : α → Int

open Link

variable {α κ : Type} [Link α κ]

/-- Every chain in the table is linear. -/
structure Linear (links : List α) : Prop where
  positive : ∀ r ∈ links, 1 ≤ number r
  numbers : ∀ r ∈ links, ∀ r' ∈ links, root r = root r' → number r = number r' → r = r'
  successors : ∀ r ∈ links, ∀ r' ∈ links, successor r = successor r' → r = r'
  roots : ∀ r ∈ links, ∀ r' ∈ links, successor r' ≠ root r
  linked : ∀ r ∈ links, (number r = 1 ∧ predecessor r = root r) ∨
    ∃ r' ∈ links, root r' = root r ∧ successor r' = predecessor r ∧ number r = number r' + 1

section
variable {links : List α} {r r' : α}

/-- A chain has a link of every number up to that of one of its links. -/
theorem Linear.below (h : Linear links) : ∀ (k : Nat) {r : α}, r ∈ links → (k : Int) < number r →
    ∃ r' ∈ links, root r' = root r ∧ number r' = number r - k := by
  intro k
  induction k with
  | zero =>
      intro r hr _
      exact ⟨r, hr, rfl, by omega⟩
  | succ k ih =>
      intro r hr hk
      rcases h.linked r hr with ⟨hone, -⟩ | ⟨r', hr', hroot, -, hnum⟩
      · omega
      · obtain ⟨r'', hr'', hroot', hnum'⟩ := ih hr' (by omega)
        exact ⟨r'', hr'', hroot'.trans hroot, by omega⟩

/-- A chain begins at its root. -/
theorem Linear.first (h : Linear links) (hr : r ∈ links) :
    ∃ r' ∈ links, root r' = root r ∧ number r' = 1 ∧ predecessor r' = root r := by
  have hpos := h.positive r hr
  obtain ⟨r', hr', hroot, hnum⟩ := h.below (number r - 1).toNat hr (by omega)
  have hone : number r' = 1 := by omega
  rcases h.linked r' hr' with ⟨-, hpred⟩ | ⟨r'', hr'', -, -, hnum'⟩
  · exact ⟨r', hr', hroot, hone, hpred.trans hroot⟩
  · have hpos' := h.positive r'' hr''
    omega

end

/-! ## Lookups -/

section
variable [DecidableEq κ]

/-- The root of the chain that an element belongs to. -/
def rootOf (links : List α) (d : κ) : κ :=
  ((links.find? fun r => successor r = d).map root).getD d

/-- The links of a chain in order. -/
def listing (links : List α) (d : κ) : List α :=
  orderBy (fun a b => number a ≤ number b) (links.filter fun r => root r = d)

variable {links : List α} {r : α} {d : κ}

theorem rootOf_successor (h : Linear links) (hr : r ∈ links) :
    rootOf links (successor r) = root r := by
  rw [rootOf]
  cases hf : links.find? fun r' => successor r' = successor r with
  | none =>
      have hnone := List.find?_eq_none.mp hf r hr
      exact absurd (decide_eq_true rfl) hnone
  | some r' =>
      have hsame := h.successors r' (List.mem_of_find?_eq_some hf) r hr
        (of_decide_eq_true (List.find?_some hf :))
      rw [hsame]
      rfl

/-- An element that is no successor is its own root. -/
theorem rootOf_self (h : ∀ r ∈ links, successor r ≠ d) : rootOf links d = d := by
  have hf : links.find? (fun r => successor r = d) = none :=
    List.find?_eq_none.mpr fun r hr => by simpa using h r hr
  rw [rootOf, hf]
  rfl

theorem rootOf_root (h : Linear links) (hr : r ∈ links) : rootOf links (root r) = root r :=
  rootOf_self fun r' hr' => h.roots r hr r' hr'

theorem rootOf_predecessor (h : Linear links) (hr : r ∈ links) :
    rootOf links (predecessor r) = root r := by
  rcases h.linked r hr with ⟨-, hpred⟩ | ⟨r', hr', hroot, hsucc, -⟩
  · rw [hpred]
    exact rootOf_root h hr
  · rw [← hsucc, rootOf_successor h hr', hroot]

/-! ## The listing -/

theorem mem_listing : r ∈ listing links d ↔ r ∈ links ∧ root r = d := by
  rw [listing, mem_orderBy, List.mem_filter, decide_eq_true_eq]

/-- Increasing numbers above `lo` in which every number but the first has the one
before it. -/
theorem eq_range : ∀ {ns : List Int} {lo : Int}, ns.Pairwise (· < ·) → (∀ n ∈ ns, lo < n) →
    (∀ n ∈ ns, lo + 1 < n → n - 1 ∈ ns) →
    ns = (List.range ns.length).map fun i : Nat => lo + 1 + i := by
  intro ns
  induction ns with
  | nil =>
      intro lo _ _ _
      rfl
  | cons a ns ih =>
      intro lo hsorted hlo hclosed
      obtain ⟨hlt, hsorted⟩ := List.pairwise_cons.mp hsorted
      have ha : a = lo + 1 := by
        by_contra hne
        have halo := hlo a List.mem_cons_self
        rcases List.mem_cons.mp (hclosed a List.mem_cons_self (by omega)) with he | hmem
        · omega
        · have := hlt _ hmem
          omega
      have hrest := @ih a hsorted hlt fun n hn hgt => by
        rcases List.mem_cons.mp (hclosed n (List.mem_cons_of_mem _ hn) (by omega)) with he | hmem
        · omega
        · exact hmem
      rw [List.length_cons, List.range_succ_eq_map, List.map_cons, List.map_map]
      congr 1
      · simp [ha]
      · refine hrest.trans (List.map_congr_left fun i _ => ?_)
        simp only [Function.comp_apply, Nat.succ_eq_add_one]
        omega

theorem listing_sorted (h : Linear links) (hn : links.Nodup) :
    ((listing links d).map number).Pairwise (· < ·) := by
  have hle : ((listing links d)).Pairwise fun r r' => number r ≤ number r' := by
    have hsorted :=
      List.pairwise_insertionSort (fun r r' : α => decide (number r ≤ number r') = true)
      (links.filter fun r => root r = d)
    exact hsorted.imp fun he => of_decide_eq_true he
  have hnodup : (listing links d).Nodup :=
    (orderBy_perm _ _).nodup_iff.mpr (hn.filter _)
  refine List.pairwise_map.mpr ((hle.and hnodup).imp_of_mem ?_)
  rintro r r' hr hr' ⟨hle, hne⟩
  obtain ⟨hr, hroot⟩ := mem_listing.mp hr
  obtain ⟨hr', hroot'⟩ := mem_listing.mp hr'
  refine lt_of_le_of_ne hle fun he => hne ?_
  exact h.numbers r hr r' hr' (hroot.trans hroot'.symm) he

/-- **A chain is numbered from one**, without a gap or a repeat. -/
theorem listing_numbers (h : Linear links) (hn : links.Nodup) :
    (listing links d).map number =
      (List.range (listing links d).length).map fun i : Nat => (i : Int) + 1 := by
  have hrange := @eq_range _ 0 (listing_sorted (d := d) h hn) ?_ ?_
  · rw [List.length_map] at hrange
    refine hrange.trans (List.map_congr_left fun i _ => ?_)
    omega
  · intro n hmem
    obtain ⟨r, hr, rfl⟩ := List.mem_map.mp hmem
    have hpos := h.positive r (mem_listing.mp hr).1
    omega
  · intro n hmem hgt
    obtain ⟨r, hr, rfl⟩ := List.mem_map.mp hmem
    obtain ⟨hr, hroot⟩ := mem_listing.mp hr
    obtain ⟨r', hr', hroot', hnum⟩ := h.below 1 hr (by omega)
    exact List.mem_map.mpr ⟨r', mem_listing.mpr ⟨hr', hroot'.trans hroot⟩, hnum⟩

theorem number_listing (h : Linear links) (hn : links.Nodup) {i : Nat}
    (hr : (listing links d)[i]? = some r) : number r = i + 1 := by
  have hmap := congrArg (fun l => l[i]?) (listing_numbers (d := d) h hn)
  obtain ⟨hlt, hget⟩ := List.getElem?_eq_some_iff.mp hr
  simpa [hlt, hget] using hmap

theorem listing_head (h : Linear links) (hn : links.Nodup) (hr : (listing links d)[0]? = some r) :
    predecessor r = d := by
  have hnum := number_listing h hn hr
  obtain ⟨hmem, hroot⟩ := mem_listing.mp (List.mem_of_getElem? hr)
  rcases h.linked r hmem with ⟨-, hpred⟩ | ⟨r', hr', -, -, hnum'⟩
  · exact hpred.trans hroot
  · have := h.positive r' hr'
    omega

/-- Each link starts where the one before it ends. -/
theorem listing_next (h : Linear links) (hn : links.Nodup) {i : Nat} {r' : α}
    (hr : (listing links d)[i]? = some r) (hr' : (listing links d)[i + 1]? = some r') :
    predecessor r' = successor r := by
  have hnum := number_listing h hn hr
  have hnum' := number_listing h hn hr'
  obtain ⟨hmem, hroot⟩ := mem_listing.mp (List.mem_of_getElem? hr)
  obtain ⟨hmem', hroot'⟩ := mem_listing.mp (List.mem_of_getElem? hr')
  rcases h.linked r' hmem' with ⟨hone, -⟩ | ⟨r'', hr'', hroot'', hsucc, hnum''⟩
  · omega
  · have hsame : r'' = r :=
      h.numbers r'' hr'' r hmem (hroot''.trans (hroot'.trans hroot.symm))
        (by push_cast at hnum'; omega)
    rw [← hsucc, hsame]

end

end Chain
