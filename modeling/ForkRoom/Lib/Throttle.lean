/-
# `Lib.Throttle` — windows that the first arrival opens

A limiter whose window is opened by the first arrival that finds none open, and closes
one length later; the first `limit` arrivals of a window pass (`answers`).

    a stretch of one length meets two windows, so that at most twice the limit pass
    who is turned away has had the limit pass within one length before
    whoever is turned away does not keep the window open

Arrivals stand the last first, as in a log.
-/
import ForkRoom.Lib.Windows

namespace Throttle

/-- A window, and how many have arrived in it. -/
structure Window (T : Type) where
  opened : T
  count : ℕ
  deriving DecidableEq

section
variable {T : Type} [LinearOrder T] [Add T]

/-- The window after an arrival: it counts where the window is still open, and opens one
where there is none. -/
def arrive (length now : T) : Option (Window T) → Window T
  | some w => if now < w.opened + length then ⟨w.opened, w.count + 1⟩ else ⟨now, 1⟩
  | none => ⟨now, 1⟩

/-- The window after some arrivals. -/
def window (length : T) : List T → Option (Window T)
  | [] => none
  | t :: earlier => some (arrive length t (window length earlier))

/-- The answers of a limiter that lets the first `limit` arrivals of a window pass. -/
def answers (limit : ℕ) (length : T) : List T → List (T × Bool)
  | [] => []
  | t :: earlier =>
      (t, decide ((arrive length t (window length earlier)).count ≤ limit)) ::
        answers limit length earlier

end

section
variable {T : Type} [LinearOrder T] [Add T] {limit : ℕ} {length : T} {arrivals : List T} {t : T}

open Windows (passed)

/-! ## One more arrival -/

/-- An arrival is counted in the window that is open, or opens one. -/
theorem arrive_cases (length now : T) (w : Option (Window T)) :
    (∃ o n, w = some ⟨o, n⟩ ∧ now < o + length ∧ arrive length now w = ⟨o, n + 1⟩) ∨
    ((∀ v ∈ w, v.opened + length ≤ now) ∧ arrive length now w = ⟨now, 1⟩) := by
  cases w with
  | none => exact .inr ⟨nofun, rfl⟩
  | some v =>
      obtain ⟨o, n⟩ := v
      by_cases hopen : now < o + length
      · exact .inl ⟨o, n, rfl, hopen, if_pos hopen⟩
      · refine .inr ⟨fun w hw => ?_, if_neg hopen⟩
        obtain rfl := Option.some.inj hw
        exact not_lt.mp hopen

theorem passed_cons : passed (answers limit length (t :: arrivals)) =
    if (arrive length t (window length arrivals)).count ≤ limit then
      t :: passed (answers limit length arrivals) else passed (answers limit length arrivals) := by
  rw [answers, passed, List.filter_cons]
  split
  · rename_i hle
    rw [if_pos (of_decide_eq_true hle), List.map_cons, passed]
  · rename_i hgt
    rw [if_neg (fun hle => hgt (decide_eq_true hle)), passed]

theorem mem_of_passed {x : T} (h : x ∈ passed (answers limit length arrivals)) :
    x ∈ arrivals := by
  induction arrivals with
  | nil => exact h
  | cons a arrivals ih =>
      rw [passed_cons] at h
      split at h
      · rcases List.mem_cons.mp h with rfl | h
        · exact List.mem_cons_self
        · exact List.mem_cons_of_mem _ (ih h)
      · exact List.mem_cons_of_mem _ (ih h)

/-- The window after some arrivals has been opened by one of them. -/
theorem opened_mem {w : Window T} (h : window length arrivals = some w) :
    w.opened ∈ arrivals := by
  induction arrivals generalizing w with
  | nil => nomatch h
  | cons a arrivals ih =>
      obtain rfl := Option.some.inj h
      rcases arrive_cases length a (window length arrivals) with
        ⟨o, n, hw, -, harrive⟩ | ⟨-, harrive⟩
      · have hold := ih hw
        rw [harrive]
        exact List.mem_cons_of_mem _ hold
      · rw [harrive]
        exact List.mem_cons_self

theorem count_pos {w : Window T} (h : window length arrivals = some w) : 1 ≤ w.count := by
  cases arrivals with
  | nil => nomatch h
  | cons a arrivals =>
      obtain rfl := Option.some.inj h
      rcases arrive_cases length a (window length arrivals) with
        ⟨o, n, -, -, harrive⟩ | ⟨-, harrive⟩
      · rw [harrive]
        exact Nat.succ_le_succ (Nat.zero_le n)
      · rw [harrive]

theorem window_eq_none : window length arrivals = none ↔ arrivals = [] := by
  cases arrivals <;> simp [window]

theorem opened_le (hs : (t :: arrivals).Pairwise (· ≥ ·)) {w : Window T}
    (h : window length arrivals = some w) : w.opened ≤ t :=
  (List.pairwise_cons.mp hs).1 _ (opened_mem h)

/-! ## What passes within one length -/

/-- How many pass in the stretch of one length from `start` on. -/
def passedIn (limit : ℕ) (length start : T) (arrivals : List T) : ℕ :=
  (passed (answers limit length arrivals)).countP fun t => start ≤ t ∧ t < start + length

theorem passedIn_cons_le (limit : ℕ) (start : T) {n : ℕ}
    (hn : (arrive length t (window length arrivals)).count = n) :
    passedIn limit length start (t :: arrivals) ≤
      passedIn limit length start arrivals + if n ≤ limit then 1 else 0 := by
  subst hn
  rw [passedIn, passedIn, passed_cons]
  split
  · rw [List.countP_cons]
    split <;> omega
  · exact Nat.le_refl _

/-- Whoever arrives outside of the stretch is not counted. -/
theorem passedIn_cons_of_not {start : T} (h : ¬ (start ≤ t ∧ t < start + length)) :
    passedIn limit length start (t :: arrivals) = passedIn limit length start arrivals := by
  rw [passedIn, passedIn, passed_cons]
  split
  · rw [List.countP_cons_of_neg (by simpa using h)]
  · rfl

/-- Nobody has arrived in a stretch that is still to come. -/
theorem passedIn_eq_zero {start : T} (h : ∀ x ∈ arrivals, x < start) :
    passedIn limit length start arrivals = 0 := by
  rw [passedIn, List.countP_eq_zero]
  intro x hx hin
  exact absurd (h x (mem_of_passed hx)) (not_lt.mpr (of_decide_eq_true hin).1)

theorem passedIn_of_none {start : T} (h : window length arrivals = none) :
    passedIn limit length start arrivals = 0 := by
  rw [window_eq_none] at h
  rw [h]
  rfl

/-- How many of a window pass. -/
def Window.passes (limit : ℕ) (w : Window T) : ℕ := min w.count limit

/-- What passes in a stretch, by where the stretch lies to the last window. -/
structure Stretch (limit : ℕ) (length start : T) (w : Window T) (passes : ℕ) : Prop where
  all : passes ≤ 2 * limit
  within : w.opened < start → passes ≤ w.passes limit
  across : w.opened < start + length → passes ≤ limit + w.passes limit

/-- One more arrives in the open window. -/
theorem Stretch.counted {start o : T} {n passes passes' : ℕ}
    (h : Stretch limit length start ⟨o, n⟩ passes) (ho : o ≤ t)
    (hmore : passes' ≤ passes + if n + 1 ≤ limit then 1 else 0)
    (hlate : start + length ≤ t → passes' = passes) :
    Stretch limit length start ⟨o, n + 1⟩ passes' := by
  have hpasses : Window.passes limit ⟨o, n⟩ + (if n + 1 ≤ limit then 1 else 0) ≤
      Window.passes limit ⟨o, n + 1⟩ := by
    simp only [Window.passes]
    split <;> omega
  have hlimit : Window.passes limit ⟨o, n + 1⟩ ≤ limit := Nat.min_le_right _ _
  refine ⟨?_, ?_, ?_⟩
  · by_cases hin : o < start + length
    · have := h.across hin
      omega
    · rw [hlate ((not_lt.mp hin).trans ho)]
      exact h.all
  · intro hlt
    have := h.within hlt
    omega
  · intro hin
    have := h.across hin
    omega

/-- An arrival opens a window. -/
theorem Stretch.renewed {start : T} {passes passes' : ℕ} (hall : passes ≤ 2 * limit)
    (hbefore : t < start + length → passes ≤ limit)
    (hmore : passes' ≤ passes + if 1 ≤ limit then 1 else 0)
    (hlate : start + length ≤ t → passes' = passes) (hearly : t < start → passes' = 0) :
    Stretch limit length start ⟨t, 1⟩ passes' := by
  have hpasses : Window.passes limit (⟨t, 1⟩ : Window T) = if 1 ≤ limit then 1 else 0 := by
    simp only [Window.passes]
    split <;> omega
  refine ⟨?_, ?_, ?_⟩
  · by_cases hin : t < start + length
    · have := hbefore hin
      split at hmore <;> omega
    · rw [hlate (not_lt.mp hin)]
      exact hall
  · intro hlt
    rw [hearly hlt]
    exact Nat.zero_le _
  · intro hin
    have := hbefore hin
    rw [hpasses]
    omega

/-- What passes in a stretch after some arrivals. -/
theorem stretch_window (hadd : ∀ s t : T, s ≤ t → s + length ≤ t + length)
    (hs : arrivals.Pairwise (· ≥ ·)) {w : Window T} (hw : window length arrivals = some w)
    (start : T) : Stretch limit length start w (passedIn limit length start arrivals) := by
  induction arrivals generalizing w with
  | nil => nomatch hw
  | cons t earlier ih =>
      obtain rfl := Option.some.inj hw
      obtain ⟨hlast, hsorted⟩ := List.pairwise_cons.mp hs
      have hlate : start + length ≤ t → passedIn limit length start (t :: earlier) =
          passedIn limit length start earlier :=
        fun hle => passedIn_cons_of_not fun hin => absurd hin.2 (not_lt.mpr hle)
      rcases arrive_cases length t (window length earlier) with
        ⟨o, n, hopen, hlt, harrive⟩ | ⟨hclosed, harrive⟩
      · have hmore := passedIn_cons_le limit start (congrArg Window.count harrive)
        rw [harrive]
        exact (ih hsorted hopen).counted (opened_le hs hopen) hmore hlate
      · have hmore := passedIn_cons_le limit start (congrArg Window.count harrive)
        rw [harrive]
        refine .renewed ?_ ?_ hmore hlate ?_
        · cases hwindow : window length earlier with
          | none => exact (passedIn_of_none hwindow).le.trans (Nat.zero_le _)
          | some v => exact (ih hsorted hwindow).all
        · -- a stretch that meets the new window has begun after the one before it
          intro hin
          cases hwindow : window length earlier with
          | none => exact (passedIn_of_none hwindow).le.trans (Nat.zero_le _)
          | some v =>
              have hlt : v.opened < start := lt_of_not_ge fun hge =>
                absurd (hin.trans_le ((hadd _ _ hge).trans (hclosed v hwindow))) (lt_irrefl _)
              exact ((ih hsorted hwindow).within hlt).trans (Nat.min_le_right _ _)
        · intro hlt
          refine passedIn_eq_zero fun x hx => ?_
          rcases List.mem_cons.mp hx with rfl | hx
          · exact hlt
          · exact (hlast x hx).trans_lt hlt

/-- At most twice the limit pass within one length. -/
theorem passedIn_le (limit : ℕ) (hadd : ∀ s t : T, s ≤ t → s + length ≤ t + length)
    (hs : arrivals.Pairwise (· ≥ ·)) (start : T) :
    passedIn limit length start arrivals ≤ 2 * limit := by
  cases hw : window length arrivals with
  | none => exact (passedIn_of_none hw).le.trans (Nat.zero_le _)
  | some w => exact (stretch_window hadd hs hw start).all

/-! ## Who is turned away, and for how long -/

/-- Of the window that is open as many have passed as may. -/
theorem passes_le (limit : ℕ) (hs : arrivals.Pairwise (· ≥ ·)) {w : Window T}
    (hw : window length arrivals = some w) :
    w.passes limit ≤ (passed (answers limit length arrivals)).countP fun t => w.opened ≤ t := by
  induction arrivals generalizing w with
  | nil => nomatch hw
  | cons t earlier ih =>
      obtain rfl := Option.some.inj hw
      obtain ⟨-, hsorted⟩ := List.pairwise_cons.mp hs
      rcases arrive_cases length t (window length earlier) with
        ⟨o, n, hopen, hlt, harrive⟩ | ⟨hclosed, harrive⟩
      · have hbefore := ih hsorted hopen
        have ho : o ≤ t := opened_le hs hopen
        rw [passed_cons, harrive]
        simp only [Window.passes] at hbefore ⊢
        split
        · rw [List.countP_cons_of_pos (by simpa using ho)]
          omega
        · omega
      · rw [passed_cons, harrive]
        simp only [Window.passes]
        split
        · rw [List.countP_cons_of_pos (by simp)]
          omega
        · omega

/-- Who is turned away has had the limit pass within one length before. -/
theorem rejected_of_answers (hadd : ∀ s t : T, s ≤ t → s + length ≤ t + length)
    (hs : arrivals.Pairwise (· ≥ ·)) {later earlier : List (T × Bool)}
    (h : answers limit length arrivals = later ++ (t, false) :: earlier) :
    limit ≤ (passed earlier).countP fun a => t < a + length := by
  induction arrivals generalizing later with
  | nil => simp [answers] at h
  | cons a arrivals ih =>
      rw [answers] at h
      cases later with
      | cons l later => exact ih (List.pairwise_cons.mp hs).2 (List.cons_eq_cons.mp h).2
      | nil =>
          obtain ⟨ha, rfl⟩ := List.cons_eq_cons.mp h
          obtain ⟨rfl, hfull⟩ := Prod.mk.inj ha
          have hover := not_le.mp (of_decide_eq_false hfull)
          rcases arrive_cases length a (window length arrivals) with
            ⟨o, n, hopen, hlt, harrive⟩ | ⟨-, harrive⟩
          · rw [harrive] at hover
            have hpasses := passes_le limit (List.pairwise_cons.mp hs).2 hopen
            have hall : Window.passes limit ⟨o, n⟩ = limit :=
              Nat.min_eq_right (Nat.lt_succ_iff.mp hover)
            rw [hall] at hpasses
            refine hpasses.trans (List.countP_mono_left fun x _ hx => ?_)
            exact decide_eq_true (hlt.trans_le (hadd _ _ (of_decide_eq_true hx)))
          · rw [harrive] at hover
            have hnone : limit = 0 := Nat.lt_one_iff.mp hover
            rw [hnone]
            exact Nat.zero_le _

/-- The window of an arrival is not kept open by those after it: the next one has been
opened behind its end. -/
theorem window_append (length : T) {later : List T}
    (hs : (later ++ t :: arrivals).Pairwise (· ≥ ·)) :
    ∃ v, window length (later ++ t :: arrivals) = some v ∧
      (v.opened = (arrive length t (window length arrivals)).opened ∨
        ((arrive length t (window length arrivals)).opened + length ≤ v.opened ∧
          v.count ≤ later.countP fun x =>
            (arrive length t (window length arrivals)).opened + length ≤ x)) := by
  induction later with
  | nil => exact ⟨_, rfl, .inl rfl⟩
  | cons a later ih =>
      obtain ⟨hlast, hsorted⟩ := List.pairwise_cons.mp hs
      obtain ⟨v, hv, hcases⟩ := ih hsorted
      have hva : v.opened ≤ a := hlast _ (opened_mem hv)
      refine ⟨arrive length a (window length (later ++ t :: arrivals)), rfl, ?_⟩
      rcases arrive_cases length a (window length (later ++ t :: arrivals)) with
        ⟨o, n, hopen, hlt, harrive⟩ | ⟨hclosed, harrive⟩
      · obtain rfl := Option.some.inj (hv.symm.trans hopen)
        rw [harrive]
        rcases hcases with hsame | ⟨hbehind, hcount⟩
        · exact .inl hsame
        · refine .inr ⟨hbehind, ?_⟩
          rw [List.countP_cons_of_pos (by simpa using hbehind.trans hva)]
          exact Nat.succ_le_succ hcount
      · have hbehind : (arrive length t (window length arrivals)).opened + length ≤ a := by
          rcases hcases with hsame | ⟨hbehind, -⟩
          · rw [← hsame]
            exact hclosed v hv
          · exact hbehind.trans hva
        rw [harrive]
        refine .inr ⟨hbehind, ?_⟩
        rw [List.countP_cons_of_pos (by simpa using hbehind)]
        exact Nat.succ_le_succ (Nat.zero_le _)

/-- Behind the end of a window an arrival passes, unless the limit have arrived there
before it. -/
theorem passes_behind {later : List T} {now : T}
    (hs : (later ++ t :: arrivals).Pairwise (· ≥ ·))
    (hnow : (arrive length t (window length arrivals)).opened + length ≤ now)
    (hfew : (later.countP fun x =>
      (arrive length t (window length arrivals)).opened + length ≤ x) < limit) :
    (arrive length now (window length (later ++ t :: arrivals))).count ≤ limit := by
  obtain ⟨v, hv, hcases⟩ := window_append length hs
  rcases arrive_cases length now (window length (later ++ t :: arrivals)) with
    ⟨o, n, hopen, hlt, harrive⟩ | ⟨-, harrive⟩
  · obtain rfl := Option.some.inj (hv.symm.trans hopen)
    rw [harrive]
    rcases hcases with hsame | ⟨-, hcount⟩
    · have hsame : o = (arrive length t (window length arrivals)).opened := hsame
      rw [← hsame] at hnow
      exact absurd hlt (not_lt.mpr hnow)
    · exact Nat.succ_le_of_lt (hcount.trans_lt hfew)
  · rw [harrive]
    exact Nat.one_le_of_lt hfew

end

end Throttle
