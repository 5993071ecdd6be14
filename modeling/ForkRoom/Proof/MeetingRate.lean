/-
# `Proof.MeetingRate` — sixty events in ten seconds

A counter is there for as long as its bucket is the current one, and counts the events of
its user in that bucket (`Counted`).  So the answers are those of a limiter with fixed
windows (`answers_eq`), and the events within any ten seconds keep the limit of sixty
exactly where neighbouring buckets are spaced (`rolling_iff_spaced`).
-/
import ForkRoom.System.MeetingRate
import Mathlib.Tactic.Linarith

namespace ForkRoom

namespace MeetingRate

section
variable {T : Type} [Field T] [LinearOrder T] [FloorRing T]

/-! ## Buckets -/

section
variable [IsStrictOrderedRing T] {t t' : T}

omit [IsStrictOrderedRing T] in
theorem bucket_mono (h : t ≤ t') : bucket t ≤ bucket t' :=
  Int.ediv_le_ediv (by decide) (Int.floor_mono h)

/-- A bucket begins at ten times its number. -/
theorem bucket_le (t : T) : (10 * bucket t : T) ≤ t := by
  have h : 10 * bucket t ≤ ⌊t⌋ := by
    unfold bucket
    omega
  exact_mod_cast (Int.cast_le.mpr h).trans (Int.floor_le t)

/-- It is over ten seconds later. -/
theorem lt_bucket (t : T) : t < 10 * bucket t + 10 := by
  have h : ⌊t⌋ + 1 ≤ 10 * bucket t + 10 := by
    unfold bucket
    omega
  have hcast : ((⌊t⌋ + 1 : ℤ) : T) ≤ ((10 * bucket t + 10 : ℤ) : T) := Int.cast_le.mpr h
  push_cast at hcast
  exact (Int.lt_floor_add_one t).trans_le hcast

theorem fixed_bucket : Windows.Fixed (bucket : T → ℤ) 10 where
  mono _ _ h := bucket_mono h
  within t t' h := by
    have hlt := lt_bucket t'
    rw [h] at hlt
    linarith [bucket_le t]
  next t t' h := by
    have hfloor : ⌊t'⌋ ≤ ⌊t⌋ + 10 := by
      have hmono := Int.floor_mono h.le
      have hten : ⌊t + 10⌋ = ⌊t⌋ + 10 := by exact_mod_cast Int.floor_add_natCast t 10
      omega
    unfold bucket
    omega

end

/-! ## What the counters count -/

/-- The events of a user in a bucket. -/
def events (key : RateKey) (log : List (Answer T)) : ℕ :=
  log.countP fun answer => answer.userId = key.1 ∧ bucket answer.time = key.2

omit [Field T] [LinearOrder T] [FloorRing T] in
theorem arrivals_cons {answer : Answer T} {log : List (Answer T)} {u : UUID} :
    arrivals u (answer :: log) =
      if answer.userId = u then answer.time :: arrivals u log else arrivals u log := by
  rw [arrivals, List.filter_cons]
  split
  · rename_i hu
    rw [if_pos (of_decide_eq_true hu)]
    rfl
  · rename_i hu
    rw [if_neg (fun he => hu (decide_eq_true he))]
    rfl

omit [Field T] [LinearOrder T] [FloorRing T] in
theorem answers_cons {answer : Answer T} {log : List (Answer T)} {u : UUID} :
    answers u (answer :: log) = if answer.userId = u then
      (answer.time, answer.allowed) :: answers u log else answers u log := by
  rw [answers, List.filter_cons]
  split
  · rename_i hu
    rw [if_pos (of_decide_eq_true hu)]
    rfl
  · rename_i hu
    rw [if_neg (fun he => hu (decide_eq_true he))]
    rfl

theorem countP_arrivals {log : List (Answer T)} {u : UUID} {b : ℤ} :
    (arrivals u log).countP (fun t => bucket t = b) = events (u, b) log := by
  rw [arrivals, List.countP_map, List.countP_filter, events]
  refine List.countP_congr fun answer _ => ?_
  simp [and_comm]

/-- Until two seconds after its bucket a counter counts the events of its user. -/
structure Counted (s : State T) : Prop where
  past : ∀ answer ∈ s.log, answer.time ≤ s.clock
  sorted : s.log.Pairwise fun later earlier => earlier.time ≤ later.time
  count : ∀ key : RateKey, s.clock < 10 * key.2 + 12 →
    (s.counters key).contents s.clock 0 = events key s.log
  expiry : ∀ (key : RateKey) (e : Expiring.Entry T ℕ) (x : T), s.counters key = some e →
    e.expiresAt = some x → 10 * key.2 + 12 ≤ x
  begun : ∀ key ∈ s.unexpiring, (10 * key.2 : T) ≤ s.clock
  answered : ∀ userId, answers userId s.log = Windows.answers 60 bucket (arrivals userId s.log)

theorem counted_start : Counted (start : State T) where
  past _ h := nomatch h
  sorted := .nil
  count _ _ := rfl
  expiry _ _ _ h := nomatch h
  begun _ h := nomatch h
  answered _ := rfl

variable [IsStrictOrderedRing T] {s s' : State T}

omit [IsStrictOrderedRing T] in
/-- Time goes on. -/
theorem Counted.tick (h : Counted s) {clock : T} (hle : s.clock ≤ clock) :
    Counted { s with clock := clock } where
  past answer hm := (h.past answer hm).trans hle
  sorted := h.sorted
  count key hlt := by
    have hbefore := h.count key (hle.trans_lt hlt)
    rw [← hbefore]
    refine Expiring.Key.contents_of_stays hle fun hpresent => ?_
    obtain ⟨e, he, -⟩ := Expiring.Key.present_iff.mp hpresent
    refine Expiring.Key.present_iff.mpr ⟨e, he, Expiring.Key.live_iff.mpr fun x hx => ?_⟩
    exact hlt.trans_le (h.expiry key e x he hx)
  expiry := h.expiry
  begun key hm := (h.begun key hm).trans hle
  answered := h.answered

/-- The counter of an event counts it, and no other counter does. -/
theorem Counted.allowEvent (h : Counted s) (userId : UUID)
    (hstep : s.step (.allowEvent userId) = some s') : Counted s' := by
  obtain rfl := Option.some.inj hstep
  have hcount : (incr s.clock (s.counters (userId, bucket s.clock))).contents s.clock 0 =
      events (userId, bucket s.clock) s.log + 1 := by
    rw [incr, Expiring.Key.contents_upsert, h.count]
    linarith [lt_bucket s.clock]
  refine ⟨?_, ?_, ?_, ?_, ?_, ?_⟩
  · intro answer hm
    rcases List.mem_cons.mp hm with rfl | hm
    · exact le_refl _
    · exact h.past answer hm
  · exact List.pairwise_cons.mpr ⟨fun answer hm => h.past answer hm, h.sorted⟩
  · intro key hlt
    by_cases hkey : key = (userId, bucket s.clock)
    · subst hkey
      show (Function.update s.counters _ _ _).contents s.clock 0 = _
      rw [Function.update_self, hcount, events, events, List.countP_cons_of_pos (by simp)]
    · show (Function.update s.counters _ _ _).contents s.clock 0 = _
      rw [Function.update_of_ne hkey, h.count key hlt, events, events,
        List.countP_cons_of_neg]
      rintro hsame
      obtain ⟨huser, hbucket⟩ := of_decide_eq_true hsame
      exact hkey (Prod.ext huser.symm hbucket.symm)
  · intro key e x he hx
    by_cases hkey : key = (userId, bucket s.clock)
    · subst hkey
      have hnew : incr s.clock (s.counters (userId, bucket s.clock)) = some e := by
        simpa using he
      rcases Expiring.Key.upsert_cases s.clock 0 (· + 1) (s.counters (userId, bucket s.clock))
        with ⟨e', he', -, hup⟩ | ⟨-, hup⟩
      · -- an `INCR` keeps the expiry
        cases Option.some.inj (hnew.symm.trans hup)
        exact h.expiry _ e' x he' hx
      · cases Option.some.inj (hnew.symm.trans hup)
        cases hx
    · refine h.expiry key e x ?_ hx
      simpa [hkey] using he
  · intro key hm
    have hcases : key = (userId, bucket s.clock) ∨ key ∈ s.unexpiring := by
      simp only at hm
      split at hm
      · exact List.mem_cons.mp hm
      · exact .inr hm
    rcases hcases with rfl | hm
    · exact bucket_le s.clock
    · exact h.begun key hm
  · intro u
    rw [answers_cons, arrivals_cons]
    split
    · rename_i hu
      cases hu
      rw [Windows.answers, countP_arrivals, h.answered, hcount]
      simp only [Nat.lt_iff_add_one_le]
    · exact h.answered u

/-- An `EXPIRE` of 12 seconds outlasts the bucket by two. -/
theorem Counted.expire (h : Counted s) (key : RateKey) (hstep : s.step (.expire key) = some s') :
    Counted s' := by
  obtain ⟨hm, hstep⟩ := Machine.guard_bind hstep
  obtain rfl := Option.some.inj hstep
  have hbegun := h.begun key hm
  refine ⟨h.past, h.sorted, ?_, ?_, ?_, h.answered⟩
  · intro key' hlt
    show (Function.update s.counters _ _ _).contents s.clock 0 = _
    by_cases hkey : key' = key
    · subst hkey
      rw [Function.update_self, Expiring.Key.contents_expireIn (by linarith), h.count key' hlt]
    · rw [Function.update_of_ne hkey, h.count key' hlt]
  · intro key' e x he hx
    by_cases hkey : key' = key
    · subst hkey
      have hnew : (s.counters key').expireIn s.clock 12 = some e := by
        simpa using he
      obtain ⟨e', -, rfl⟩ := Option.map_eq_some_iff.mp hnew
      cases hx
      linarith
    · refine h.expiry key' e x ?_ hx
      simpa [hkey] using he
  · intro key' hm'
    exact h.begun key' (List.mem_of_mem_erase hm')

/-- What one step keeps. -/
theorem Counted.step (h : Counted s) {action : Action T} (hstep : s.step action = some s') :
    Counted s' := by
  cases action with
  | tick clock =>
      rw [State.step] at hstep
      split at hstep
      · rename_i hle
        cases hstep
        exact h.tick hle
      · cases hstep
  | allowEvent userId => exact h.allowEvent userId hstep
  | expire key => exact h.expire key hstep

theorem Counted.run (hrun : Run start s) : Counted s :=
  Machine.Run.invariant (fun _ _ _ h _ hstep => h.step hstep) hrun counted_start

/-! ## The limit -/

omit [IsStrictOrderedRing T] in
theorem sorted_arrivals (h : Counted s) (u : UUID) :
    (arrivals u s.log).Pairwise (· ≥ ·) :=
  List.pairwise_map.mpr (h.sorted.sublist List.filter_sublist)

/-- The events of a user are at most sixty in any ten seconds, and none is turned away
but after sixty within ten seconds, exactly if neighbouring buckets are spaced. -/
theorem rolling_iff_spaced (hrun : Run start s) (userId : UUID) :
    Windows.Rolling 60 10 (answers userId s.log) ↔
      Windows.Spaced 60 bucket 10 (arrivals userId s.log) := by
  have h := Counted.run hrun
  rw [h.answered]
  exact Windows.rolling_iff fixed_bucket (fun s t hle => add_le_add_left hle 10)
    (sorted_arrivals h userId)

end

/-! ## Two bursts -/

/-- Sixty events in the last second of a bucket, and sixty at the start of the next. -/
def bursts : List (Action ℚ) :=
  .tick 9 :: List.replicate 60 (.allowEvent 1) ++ .tick 10 :: List.replicate 60 (.allowEvent 1)

theorem bursts_pass : ∃ s : State ℚ, Run start s ∧
    (Windows.passed (answers 1 s.log)).countP (fun t => 9 ≤ t ∧ t < 9 + 10) = 120 := by
  have hplay : (Machine.play State.step (fun _ _ => True) start bursts).map
      (fun s => (Windows.passed (answers 1 s.log)).countP fun t => 9 ≤ t ∧ t < 9 + 10) =
        some 120 := by decide +kernel
  obtain ⟨s, hs, hcount⟩ := Option.map_eq_some_iff.mp hplay
  exact ⟨s, .of_play hs, hcount⟩

theorem rolling_iff_spaced_sample : ∃ s : State ℚ, Run start s ∧
    ¬ Windows.Spaced 60 bucket 10 (arrivals 1 s.log) := by
  obtain ⟨s, hrun, hcount⟩ := bursts_pass
  refine ⟨s, hrun, fun hspaced => ?_⟩
  have hpass := ((rolling_iff_spaced hrun 1).mpr hspaced).passes 9
  rw [hcount] at hpass
  exact absurd hpass (by decide)

theorem bursts_not_rolling : ¬ ∀ (s : State ℚ) (userId : UUID), Run start s →
    Windows.Rolling 60 10 (answers userId s.log) := by
  intro h
  obtain ⟨s, hrun, hcount⟩ := bursts_pass
  have hpass := (h s 1 hrun).passes 9
  rw [hcount] at hpass
  exact absurd hpass (by decide)

end MeetingRate

end ForkRoom
