/-
# `Lib.Windows` — fixed windows against rolling ones

A limiter that counts in fixed windows lets the first `limit` arrivals of each window
pass (`answers`).  A rolling limit asks two things of the answers:

    no stretch of one length has more than `limit` arrivals that pass
    an arrival is turned away only after `limit` arrivals within one length

The second holds (`rejected_of_answers`).  The first holds exactly where neighbouring
windows are far enough apart (`rolling_iff`): counted back from the end of the first
`limit` of one window, and on through those of the next, whatever is `limit` places
ahead is at least one length later (`Spaced`).

Arrivals stand the last first, as in a log.
-/
import Mathlib.Algebra.Order.Group.Defs
import Mathlib.Algebra.Order.Monoid.Defs
import Mathlib.Data.List.Basic
import Mathlib.Order.Basic
import Mathlib.Tactic.Common

namespace Windows

/-! ## Sorted lists -/

section
variable {T : Type} [LinearOrder T] {xs : List T} {p : T → Bool}

/-- What holds from some point on holds at its first place. -/
theorem getElem?_of_countP_up (hs : xs.Pairwise (· ≤ ·)) (hp : ∀ x y, x ≤ y → p x → p y)
    (hpos : 0 < xs.countP p) : ∃ x, xs[xs.length - xs.countP p]? = some x ∧ p x := by
  induction xs with
  | nil => simp at hpos
  | cons a xs ih =>
      obtain ⟨ha, hs⟩ := List.pairwise_cons.mp hs
      by_cases hpa : p a
      · have hall : (a :: xs).countP p = (a :: xs).length := by
          rw [List.countP_eq_length]
          intro y hy
          rcases List.mem_cons.mp hy with rfl | hy
          · exact hpa
          · exact hp a y (ha y hy) hpa
        refine ⟨a, ?_, hpa⟩
        rw [hall, Nat.sub_self]
        rfl
      · rw [List.countP_cons_of_neg hpa] at hpos ⊢
        obtain ⟨x, hx, hpx⟩ := ih hs hpos
        refine ⟨x, ?_, hpx⟩
        have hle : xs.countP p ≤ xs.length := List.countP_le_length
        rw [List.length_cons, Nat.sub_add_comm hle, List.getElem?_cons_succ]
        exact hx

/-- What holds up to some point holds at each place before it. -/
theorem getElem?_of_countP_down (hs : xs.Pairwise (· ≤ ·)) (hp : ∀ x y, x ≤ y → p y → p x) {j : ℕ}
    (hj : j < xs.countP p) : ∃ y, xs[j]? = some y ∧ p y := by
  induction xs generalizing j with
  | nil => simp at hj
  | cons a xs ih =>
      obtain ⟨ha, hs⟩ := List.pairwise_cons.mp hs
      by_cases hpa : p a
      · rw [List.countP_cons_of_pos hpa] at hj
        cases j with
        | zero => exact ⟨a, rfl, hpa⟩
        | succ j =>
            rw [List.getElem?_cons_succ]
            exact ih hs (Nat.lt_of_succ_lt_succ hj)
      · have hnone : (a :: xs).countP p = 0 := by
          rw [List.countP_eq_zero]
          intro y hy
          rcases List.mem_cons.mp hy with rfl | hy
          · exact hpa
          · intro hpy
            exact hpa (hp a y (ha y hy) hpy)
        rw [hnone] at hj
        exact absurd hj (Nat.not_lt_zero j)

end

/-- A part of a list that all satisfies `p` is no longer than the count. -/
theorem length_le_countP {α : Type} {l l' : List α} {p : α → Bool} (h : l.Sublist l')
    (hp : ∀ x ∈ l, p x) : l.length ≤ l'.countP p := by
  rw [← List.countP_eq_length.mpr hp]
  exact h.countP_le

/-! ## The limiter and its contract -/

section
variable {T : Type}

/-- The answers of a limiter that lets the first `limit` arrivals of a window pass. -/
def answers (limit : ℕ) (window : T → ℤ) : List T → List (T × Bool)
  | [] => []
  | t :: earlier =>
      (t, decide (earlier.countP (fun t' => window t' = window t) < limit)) ::
        answers limit window earlier

/-- The arrivals that passed. -/
def passed (log : List (T × Bool)) : List T := (log.filter Prod.snd).map Prod.fst

/-- The first `limit` arrivals of a window, in their order. -/
def firsts (limit : ℕ) (window : T → ℤ) (b : ℤ) (arrivals : List T) : List T :=
  (arrivals.filter fun t => window t = b).reverse.take limit

section
variable [LinearOrder T] [Add T]

/-- What a rolling limit asks of the answers. -/
structure Rolling (limit : ℕ) (length : T) (log : List (T × Bool)) : Prop where
  passes : ∀ start : T,
    (passed log).countP (fun t => start ≤ t ∧ t < start + length) ≤ limit
  rejects : ∀ (t : T) (later earlier : List (T × Bool)),
    log = later ++ (t, false) :: earlier →
      limit ≤ earlier.countP fun a => t < a.1 + length

/-- Among the first `limit` arrivals of two neighbouring windows, any two that are
`limit` places apart are a whole length apart. -/
def Spaced (limit : ℕ) (window : T → ℤ) (length : T) (arrivals : List T) : Prop :=
  ∀ (b : ℤ) (i : ℕ) (x y : T), (firsts limit window b arrivals)[i]? = some x →
    (firsts limit window (b + 1) arrivals)[
      i + (limit - (firsts limit window b arrivals).length)]? = some y → x + length ≤ y

/-- Windows of one length, in the order of their numbers. -/
structure Fixed (window : T → ℤ) (length : T) : Prop where
  mono : ∀ t t', t ≤ t' → window t ≤ window t'
  within : ∀ t t', window t' = window t → t' < t + length
  next : ∀ t t', t' < t + length → window t' ≤ window t + 1

end

end

/-! ## What passes -/

section
variable {T : Type} {limit : ℕ} {window : T → ℤ} {arrivals : List T} {b : ℤ} {t : T}

theorem map_fst_answers : (answers limit window arrivals).map Prod.fst = arrivals := by
  induction arrivals with
  | nil => rfl
  | cons t earlier ih => rw [answers, List.map_cons, ih]

theorem passed_sublist : (passed (answers limit window arrivals)).Sublist arrivals := by
  have h := (List.filter_sublist (p := Prod.snd) (l := answers limit window arrivals)).map Prod.fst
  rwa [map_fst_answers] at h

theorem passed_answers_cons : passed (answers limit window (t :: arrivals)) =
    if arrivals.countP (fun t' => window t' = window t) < limit then
      t :: passed (answers limit window arrivals) else passed (answers limit window arrivals) := by
  rw [answers, passed, List.filter_cons]
  split
  · rename_i hlt
    rw [if_pos (of_decide_eq_true hlt), List.map_cons, passed]
  · rename_i hge
    rw [if_neg (fun hlt => hge (decide_eq_true hlt)), passed]

/-- In each window it is the first `limit` arrivals that pass. -/
theorem passed_window : ((passed (answers limit window arrivals)).filter
    fun t => window t = b).reverse = firsts limit window b arrivals := by
  induction arrivals with
  | nil => simp [answers, passed, firsts]
  | cons t earlier ih =>
      rw [firsts] at ih ⊢
      rw [passed_answers_cons]
      by_cases hb : window t = b
      · have hcount : (earlier.filter fun t' => window t' = b).reverse.length =
            earlier.countP fun t' => window t' = b := by
          rw [List.length_reverse, List.countP_eq_length_filter]
        rw [List.filter_cons_of_pos (l := earlier) (by simpa using hb), List.reverse_cons,
          List.take_append, hcount, hb]
        split
        · rename_i hlt
          rw [List.filter_cons_of_pos (by simpa using hb), List.reverse_cons, ih,
            List.take_of_length_le (l := [t]) (by simp; omega)]
        · rename_i hge
          rw [ih, Nat.sub_eq_zero_of_le (Nat.le_of_not_lt hge), List.take_zero, List.append_nil]
      · rw [List.filter_cons_of_neg (l := earlier) (by simpa using hb), ← ih]
        split
        · rw [List.filter_cons_of_neg (by simpa using hb)]
        · rfl

theorem mem_firsts {x : T} (h : x ∈ firsts limit window b arrivals) :
    x ∈ arrivals ∧ window x = b := by
  have hm := List.mem_reverse.mp (List.mem_of_mem_take h)
  obtain ⟨hin, hb⟩ := List.mem_filter.mp hm
  exact ⟨hin, of_decide_eq_true hb⟩

theorem length_firsts_le : (firsts limit window b arrivals).length ≤ limit :=
  List.length_take_le _ _

/-- What passes within a window is counted among its first arrivals. -/
theorem countP_window (p : T → Bool) :
    ((passed (answers limit window arrivals)).filter fun t => window t = b).countP p =
      (firsts limit window b arrivals).countP p := by
  rw [← passed_window, List.countP_reverse]

/-- What passes in two windows is counted apart. -/
theorem countP_two (p : T → Bool) {l : List T} {b : ℤ}
    (h : ∀ t ∈ l, p t → window t = b ∨ window t = b + 1) :
    l.countP p = (l.filter fun t => window t = b).countP p +
      (l.filter fun t => window t = b + 1).countP p := by
  rw [List.countP_eq_countP_filter_add l p (fun t => window t = b)]
  congr 1
  rw [List.countP_filter, List.countP_filter]
  refine List.countP_congr fun t ht => ?_
  simp only [Bool.and_eq_true, Bool.not_eq_true', decide_eq_false_iff_not, decide_eq_true_eq]
  constructor
  · rintro ⟨hp, hne⟩
    rcases h t ht hp with hb | hb
    · exact absurd hb hne
    · exact ⟨hp, hb⟩
  · rintro ⟨hp, hb⟩
    exact ⟨hp, by omega⟩

end

section
variable {T : Type} [LinearOrder T] {limit : ℕ} {window : T → ℤ} {arrivals : List T} {b : ℤ}

theorem sorted_firsts (hs : arrivals.Pairwise (· ≥ ·)) :
    (firsts limit window b arrivals).Pairwise (· ≤ ·) := by
  have h : (arrivals.filter fun t => window t = b).reverse.Pairwise (· ≤ ·) :=
    List.pairwise_reverse.mpr (hs.sublist List.filter_sublist)
  exact h.sublist (List.take_sublist _ _)

/-- The earliest of some sorted arrivals. -/
theorem exists_earliest {l : List T} (hs : l.Pairwise (· ≥ ·)) (hne : l ≠ []) :
    ∃ a ∈ l, ∀ t ∈ l, a ≤ t := by
  cases hr : l.reverse with
  | nil => exact absurd (List.reverse_eq_nil_iff.mp hr) hne
  | cons a rest =>
      have hsr : (a :: rest).Pairwise (· ≤ ·) := by
        rw [← hr]
        exact List.pairwise_reverse.mpr hs
      have hmem : ∀ t, t ∈ l ↔ t ∈ a :: rest := by
        intro t
        rw [← hr, List.mem_reverse]
      refine ⟨a, (hmem a).mpr List.mem_cons_self, fun t ht => ?_⟩
      rcases List.mem_cons.mp ((hmem t).mp ht) with rfl | ht
      · exact le_refl _
      · exact (List.pairwise_cons.mp hsr).1 t ht

variable [Add T] {length : T}

/-- A stretch of one length lies in two neighbouring windows. -/
theorem two_windows (hw : Fixed window length) (hadd : ∀ s t : T, s ≤ t → s + length ≤ t + length)
    {l : List T} (hs : l.Pairwise (· ≥ ·)) (start : T) :
    ∃ b, ∀ t ∈ l, (start ≤ t ∧ t < start + length) → window t = b ∨ window t = b + 1 := by
  by_cases hne : l.filter (fun t => start ≤ t ∧ t < start + length) = []
  · refine ⟨0, fun t ht hin => ?_⟩
    exact absurd (decide_eq_true hin) (List.filter_eq_nil_iff.mp hne t ht)
  · obtain ⟨a, ha, hmin⟩ := exists_earliest (hs.sublist List.filter_sublist) hne
    obtain ⟨-, hina⟩ := List.mem_filter.mp ha
    obtain ⟨hfrom, -⟩ := of_decide_eq_true hina
    refine ⟨window a, fun t ht hin => ?_⟩
    have hat : a ≤ t := hmin t (List.mem_filter.mpr ⟨ht, decide_eq_true hin⟩)
    have hup := hw.next a t (hin.2.trans_le (hadd _ _ hfrom))
    have hdown := hw.mono a t hat
    omega

/-- Spaced arrivals keep the limit in any stretch. -/
theorem passes_of_spaced (hw : Fixed window length)
    (hadd : ∀ s t : T, s ≤ t → s + length ≤ t + length) (hs : arrivals.Pairwise (· ≥ ·))
    (h : Spaced limit window length arrivals) (start : T) :
    (passed (answers limit window arrivals)).countP (fun t => start ≤ t ∧ t < start + length) ≤
      limit := by
  obtain ⟨b, hb⟩ := two_windows hw hadd (hs.sublist passed_sublist) start
  rw [countP_two _ (fun t ht hp => hb t ht (of_decide_eq_true hp)), countP_window, countP_window]
  -- from the first window a tail is in the stretch, from the second a head
  have hxs : (firsts limit window b arrivals).countP
        (fun t => start ≤ t ∧ t < start + length) ≤
      (firsts limit window b arrivals).countP fun t => start ≤ t :=
    List.countP_mono_left fun t _ ht => by simpa using (of_decide_eq_true ht).1
  have hys : (firsts limit window (b + 1) arrivals).countP
        (fun t => start ≤ t ∧ t < start + length) ≤
      (firsts limit window (b + 1) arrivals).countP fun t => t < start + length :=
    List.countP_mono_left fun t _ ht => by simpa using (of_decide_eq_true ht).2
  refine (Nat.add_le_add hxs hys).trans (Nat.le_of_not_lt fun hgt => ?_)
  have hlx : (firsts limit window b arrivals).length ≤ limit := length_firsts_le
  have hly : (firsts limit window (b + 1) arrivals).length ≤ limit := length_firsts_le
  have hcx : (firsts limit window b arrivals).countP (fun t => start ≤ t) ≤
      (firsts limit window b arrivals).length := List.countP_le_length
  have hcy : (firsts limit window (b + 1) arrivals).countP (fun t => t < start + length) ≤
      (firsts limit window (b + 1) arrivals).length := List.countP_le_length
  have hsome : 0 < (firsts limit window b arrivals).countP fun t => start ≤ t := by omega
  have hmore : limit - (firsts limit window b arrivals).countP (fun t => start ≤ t) <
      (firsts limit window (b + 1) arrivals).countP fun t => t < start + length := by omega
  obtain ⟨x, hx, hfrom⟩ := getElem?_of_countP_up (sorted_firsts hs)
    (fun u v huv hu => decide_eq_true ((of_decide_eq_true hu).trans huv)) hsome
  obtain ⟨y, hy, hto⟩ := getElem?_of_countP_down (sorted_firsts hs)
    (fun u v huv hv => decide_eq_true (huv.trans_lt (of_decide_eq_true hv))) hmore
  have hplace : (firsts limit window b arrivals).length -
        (firsts limit window b arrivals).countP (fun t => start ≤ t) +
        (limit - (firsts limit window b arrivals).length) =
      limit - (firsts limit window b arrivals).countP fun t => start ≤ t := by omega
  have hapart := h b _ x y hx (by rw [hplace]; exact hy)
  have hshort := (of_decide_eq_true hto).trans_le (hadd _ _ (of_decide_eq_true hfrom))
  exact absurd hapart (not_le.mpr hshort)

/-- Two arrivals `limit` places apart and less than a length apart are in a stretch
with too many. -/
theorem spaced_of_passes (hw : Fixed window length) (hs : arrivals.Pairwise (· ≥ ·))
    (h : ∀ start : T, (passed (answers limit window arrivals)).countP
      (fun t => start ≤ t ∧ t < start + length) ≤ limit) :
    Spaced limit window length arrivals := by
  intro b i x y hx hy
  refine le_of_not_gt fun hlt => ?_
  have hsx : (firsts limit window b arrivals).Pairwise (· ≤ ·) := sorted_firsts hs
  have hsy : (firsts limit window (b + 1) arrivals).Pairwise (· ≤ ·) := sorted_firsts hs
  obtain ⟨hix, hxi⟩ := List.getElem?_eq_some_iff.mp hx
  obtain ⟨hjy, hyj⟩ := List.getElem?_eq_some_iff.mp hy
  have hxb : window x = b := (mem_firsts (List.mem_of_getElem? hx)).2
  have hyb : window y = b + 1 := (mem_firsts (List.mem_of_getElem? hy)).2
  have hlx : (firsts limit window b arrivals).length ≤ limit := length_firsts_le
  -- the rest of the first window
  have hrest : ∀ t ∈ (firsts limit window b arrivals).drop i,
      decide (x ≤ t ∧ t < x + length) := by
    intro t ht
    have hb : window t = b := (mem_firsts (List.mem_of_mem_drop ht)).2
    have hle : x ≤ t := by
      rw [List.drop_eq_getElem_cons hix, hxi] at ht
      rcases List.mem_cons.mp ht with rfl | ht
      · exact le_refl _
      · have hsd := hsx.sublist (List.drop_sublist i _)
        rw [List.drop_eq_getElem_cons hix, hxi] at hsd
        exact (List.pairwise_cons.mp hsd).1 t ht
    exact decide_eq_true ⟨hle, hw.within x t (hb.trans hxb.symm)⟩
  -- and the beginning of the second
  have hhead : ∀ t ∈ (firsts limit window (b + 1) arrivals).take
      (i + (limit - (firsts limit window b arrivals).length) + 1),
      decide (x ≤ t ∧ t < x + length) := by
    intro t ht
    have hb : window t = b + 1 := (mem_firsts (List.mem_of_mem_take ht)).2
    have hle : t ≤ y := by
      rw [List.take_add_one, List.getElem?_eq_getElem hjy, hyj] at ht
      rcases List.mem_append.mp ht with ht | ht
      · have hst := hsy.sublist (List.take_sublist
          (i + (limit - (firsts limit window b arrivals).length) + 1) _)
        rw [List.take_add_one, List.getElem?_eq_getElem hjy, hyj] at hst
        exact (List.pairwise_append.mp hst).2.2 t ht y (by simp)
      · exact le_of_eq (by simpa using ht)
    refine decide_eq_true ⟨le_of_not_gt fun hlt' => ?_, hle.trans_lt hlt⟩
    have := hw.mono t x hlt'.le
    omega
  have htail := length_le_countP (List.drop_sublist i (firsts limit window b arrivals)) hrest
  have hbegin := length_le_countP (List.take_sublist _ (firsts limit window (b + 1) arrivals)) hhead
  rw [List.length_drop] at htail
  rw [List.length_take_of_le (by omega)] at hbegin
  -- together they are one more than `limit`
  have htwo : ∀ t ∈ passed (answers limit window arrivals),
      decide (x ≤ t ∧ t < x + length) → window t = b ∨ window t = b + 1 := by
    intro t _ hin
    obtain ⟨hxt, htx⟩ := of_decide_eq_true hin
    have hup := hw.next x t htx
    have hdown := hw.mono x t hxt
    omega
  have hlimit := h x
  rw [countP_two _ htwo, countP_window, countP_window] at hlimit
  omega

/-- An arrival is turned away only behind `limit` others of its window. -/
theorem rejected_of_answers (hw : Fixed window length) {t : T} {later earlier : List (T × Bool)}
    (h : answers limit window arrivals = later ++ (t, false) :: earlier) :
    limit ≤ earlier.countP fun a => t < a.1 + length := by
  induction arrivals generalizing later with
  | nil => simp [answers] at h
  | cons a arrivals ih =>
      rw [answers] at h
      cases later with
      | nil =>
          obtain ⟨ha, hearlier⟩ := List.cons_eq_cons.mp h
          obtain ⟨hat, hfull⟩ := Prod.mk.inj ha
          have hle := Nat.le_of_not_lt (of_decide_eq_false hfull)
          have hcount : earlier.countP (fun a => t < a.1 + length) =
              (earlier.map Prod.fst).countP fun t' => t < t' + length := by
            rw [List.countP_map]
            rfl
          rw [hcount, ← hearlier, map_fst_answers]
          refine hle.trans (List.countP_mono_left fun t' _ hsame => decide_eq_true ?_)
          rw [← hat]
          exact hw.within t' a (of_decide_eq_true hsame).symm
      | cons l later => exact ih (List.cons_eq_cons.mp h).2

/-- Fixed windows keep a rolling limit exactly of spaced arrivals. -/
theorem rolling_iff (hw : Fixed window length)
    (hadd : ∀ s t : T, s ≤ t → s + length ≤ t + length) (hs : arrivals.Pairwise (· ≥ ·)) :
    Rolling limit length (answers limit window arrivals) ↔
      Spaced limit window length arrivals := by
  constructor
  · intro h
    exact spaced_of_passes hw hs h.passes
  · intro h
    exact ⟨passes_of_spaced hw hadd hs h, fun _ _ _ he => rejected_of_answers hw he⟩

end

end Windows
