/-
# `Proof.AuthRate` — the limit of the auth routes

A counter is there for as long as the window that its first hit has opened, and counts the
hits in it (`Counted`); no two clients and no two actions share one (`rateKey_inj`).  So
the answers to the requests of a client are those of a limiter whose windows the first
arrival opens (`told`), and keep what a client may count on (`Limited`): at most twice the
limit pass within the length of a window, who is turned away has used up the limit, and
who comes again when told to is let in, unless others use the limit up before.
-/
import ForkRoom.Lib.Text
import ForkRoom.System.AuthRate
import Mathlib.Tactic.Linarith

namespace ForkRoom

namespace AuthRate

open Expiring (Entry Key)
open Throttle (arrive window)

/-! ## Keys and limits -/

theorem rateKey_inj {action action' client client' : String} (ha : ':' ∉ action.toList)
    (ha' : ':' ∉ action'.toList) (h : rateKey action client = rateKey action' client') :
    action = action' ∧ client = client' := by
  have hl := congrArg String.toList h
  simp only [rateKey, String.toList_append, List.append_assoc] at hl
  obtain ⟨haction, hclient⟩ := Text.split_eq ha ha' (List.append_cancel_left hl)
  exact ⟨String.toList_inj.mp haction, String.toList_inj.mp hclient⟩

theorem mem_limits {settings : AuthRateSettings} {action : String} {limit : Nat}
    (h : settings.limits.lookup action = some limit) : (action, limit) ∈ settings.limits := by
  obtain ⟨l, r, hl, -⟩ := List.lookup_eq_some_iff.mp h
  rw [hl]
  exact List.mem_append_right _ List.mem_cons_self

theorem limit_pos {settings : AuthRateSettings} {action : String} {limit : Nat}
    (h : settings.limits.lookup action = some limit) : 0 < limit := by
  have hm := List.mem_map_of_mem (f := Prod.snd) (mem_limits h)
  refine settings.pos limit (List.mem_cons_of_mem _ ?_)
  simp only [AuthRateSettings.limits, List.map_cons, List.map_nil, List.mem_cons,
    List.not_mem_nil, or_false] at hm ⊢
  tauto

theorem colon_not_mem_action {settings : AuthRateSettings} {action : String} {limit : Nat}
    (h : settings.limits.lookup action = some limit) : ':' ∉ action.toList := by
  have hm := mem_limits h
  simp only [AuthRateSettings.limits, List.mem_cons, Prod.mk.injEq, List.not_mem_nil,
    or_false] at hm
  rcases hm with ⟨rfl, -⟩ | ⟨rfl, -⟩ | ⟨rfl, -⟩ | ⟨rfl, -⟩ | ⟨rfl, -⟩ | ⟨rfl, -⟩ |
    ⟨rfl, -⟩ | ⟨rfl, -⟩ | ⟨rfl, -⟩ <;> simp

section
variable {T : Type} [Field T] [LinearOrder T]

/-! ## What a hit finds -/

/-- The counter of a window. -/
def counter (length : T) (w : Option (Throttle.Window T)) : Key T Nat :=
  w.map fun w => ⟨w.count, some (w.opened + length)⟩

/-- The key is that of the window, as long as it is there. -/
def Holds (clock length : T) (key : Key T Nat) (w : Option (Throttle.Window T)) : Prop :=
  key.filter (Entry.live clock) = (counter length w).filter (Entry.live clock)

/-- The answers of a limiter that tells whom it turns away when the window is over. -/
def told (limit : Nat) (length : T) (round : T → Int) : List T → List (T × Option Int)
  | [] => []
  | t :: earlier =>
      let w := arrive length t (window length earlier)
      (t, if w.count ≤ limit then none else some (max (round (w.opened + length - t)) 1)) ::
        told limit length round earlier

section
variable {clock clock' length : T} {key : Key T Nat} {w : Option (Throttle.Window T)}

omit [Field T] in
theorem filter_live_later (hle : clock ≤ clock') (key : Key T Nat) :
    (key.filter (Entry.live clock)).filter (Entry.live clock') =
      key.filter (Entry.live clock') := by
  cases key with
  | none => rfl
  | some e =>
      by_cases hlive : e.live clock'
      · rw [Option.filter_some_pos (Key.live_anti hle hlive)]
      · have hgone : (some e).filter (Entry.live clock') = none :=
          Option.filter_some_neg (Bool.not_eq_true _ ▸ hlive)
        rw [hgone, Option.filter_eq_none_iff]
        intro e' he'
        cases (Option.filter_eq_some_iff.mp he').1
        exact hlive

theorem Holds.later (h : Holds clock length key w) (hle : clock ≤ clock') :
    Holds clock' length key w := by
  rw [Holds, ← filter_live_later hle key, h, filter_live_later hle]

theorem live_counter {o : T} {n : Nat} (hlt : clock < o + length) :
    (counter length (some ⟨o, n⟩)).filter (Entry.live clock) = some ⟨n, some (o + length)⟩ :=
  Option.filter_some_pos (by simpa [Entry.live] using hlt)

theorem counter_over (h : ∀ v ∈ w, v.opened + length ≤ clock) :
    (counter length w).filter (Entry.live clock) = none := by
  cases w with
  | none => rfl
  | some v => exact Option.filter_some_neg (by simpa [Entry.live] using h v rfl)

variable [IsStrictOrderedRing T]

/-- A hit counts in the window that is open, or opens one. -/
theorem hit_eq {round : T → Int} {name : String} {limit windowSeconds : Nat}
    {counters : Counters T} (h : Holds clock windowSeconds (counters name) w)
    (hcount : ∀ v ∈ w, 1 ≤ v.count) (hpos : 0 < windowSeconds) :
    hit round clock name limit windowSeconds counters =
      (⟨(arrive (windowSeconds : T) clock w).count ≤ limit,
          max (round ((arrive (windowSeconds : T) clock w).opened + windowSeconds - clock)) 1⟩,
        Function.update counters name
          (counter windowSeconds (some (arrive (windowSeconds : T) clock w)))) := by
  have hlt : clock < clock + windowSeconds := lt_add_of_pos_right _ (Nat.cast_pos.mpr hpos)
  rcases Throttle.arrive_cases (windowSeconds : T) clock w with
    ⟨o, n, rfl, hopen, harrive⟩ | ⟨hover, harrive⟩
  · have hkey := h.trans (live_counter hopen)
    have hone : n + 1 ≠ 1 := by
      have := hcount _ rfl
      simp only at this
      omega
    have hup : (counters name).upsert clock 0 (· + 1) =
        counter (windowSeconds : T) (some ⟨o, n + 1⟩) := by
      rw [Key.upsert, hkey]
      rfl
    have hcontents : (counter (windowSeconds : T) (some ⟨o, n + 1⟩)).contents clock 0 = n + 1 :=
      Key.contents_of_live rfl (by simpa [Entry.live] using hopen)
    simp only [hit, hup, hcontents, if_neg hone, harrive, timeToLive, live_counter hopen]
  · have hup : (counters name).upsert clock 0 (· + 1) = some ⟨1, none⟩ := by
      rw [Key.upsert, h, counter_over hover]
    have hcontents : Key.contents clock 0 (some ⟨1, none⟩ : Key T Nat) = 1 := rfl
    have hexpire : Key.expireIn clock (windowSeconds : T) (some ⟨1, none⟩ : Key T Nat) =
        counter (windowSeconds : T) (some ⟨clock, 1⟩) := rfl
    simp only [hit, hup, hcontents, if_true, hexpire, harrive, timeToLive, live_counter hlt]

end

/-! ## The counters and the answers -/

/-- The requests of a client, the last first. -/
def arrivals (action client : String) (log : List (Answer T)) : List T :=
  (answers action client log).map Prod.fst

omit [Field T] [LinearOrder T] in
theorem answers_cons {action client : String} {a : Answer T} {log : List (Answer T)} :
    answers action client (a :: log) = if a.action = action ∧ a.client = client then
      (a.time, a.retryAfter) :: answers action client log else answers action client log := by
  rw [answers, List.filter_cons]
  split
  · rename_i h
    rw [if_pos (of_decide_eq_true h)]
    rfl
  · rename_i h
    rw [if_neg fun hsame => h (decide_eq_true hsame)]
    rfl

omit [Field T] [LinearOrder T] in
theorem arrivals_cons {action client : String} {a : Answer T} {log : List (Answer T)} :
    arrivals action client (a :: log) = if a.action = action ∧ a.client = client then
      a.time :: arrivals action client log else arrivals action client log := by
  rw [arrivals, answers_cons]
  split <;> rfl

structure Counted (settings : AuthRateSettings) (round : T → Int) (s : State T) : Prop where
  past : ∀ a ∈ s.log, a.time ≤ s.clock
  sorted : s.log.Pairwise fun later earlier => earlier.time ≤ later.time
  counters : ∀ action client, ':' ∉ action.toList →
    Holds s.clock (settings.authRateLimitWindowSeconds : T) (s.counters (rateKey action client))
      (window (settings.authRateLimitWindowSeconds : T) (arrivals action client s.log))
  answered : ∀ action client limit, settings.limits.lookup action = some limit →
    answers action client s.log = told limit (settings.authRateLimitWindowSeconds : T) round
      (arrivals action client s.log)

section
variable [IsStrictOrderedRing T] {settings : AuthRateSettings} {round : T → Int} {s s' : State T}

omit [IsStrictOrderedRing T] in
theorem counted_start : Counted settings round (start : State T) where
  past _ h := nomatch h
  sorted := .nil
  counters _ _ _ := rfl
  answered _ _ _ _ := rfl

omit [IsStrictOrderedRing T] in
/-- Time goes on. -/
theorem Counted.tick (h : Counted settings round s) {clock : T} (hle : s.clock ≤ clock) :
    Counted settings round { s with clock := clock } where
  past a ha := (h.past a ha).trans hle
  sorted := h.sorted
  counters action client ha := (h.counters action client ha).later hle
  answered := h.answered

/-- A limited request is counted with those of its action and its client, and no others. -/
theorem Counted.hit (h : Counted settings round s) {action : String} {limit : Nat}
    (hlimit : settings.limits.lookup action = some limit) (client : String)
    {result : RateLimitResult} {counters : Counters T}
    (hhit : AuthRate.hit round s.clock (rateKey action client) limit
      settings.authRateLimitWindowSeconds s.counters = (result, counters)) :
    Counted settings round { s with
      counters := counters
      log := ⟨s.clock, action, client,
        if result.allowed then none else some result.retryAfter⟩ :: s.log } := by
  have hcolon := colon_not_mem_action hlimit
  have hkey := h.counters action client hcolon
  rw [hit_eq hkey (fun v hv => Throttle.count_pos hv) settings.window_pos] at hhit
  obtain ⟨rfl, rfl⟩ := Prod.mk.inj hhit
  refine ⟨?_, ?_, ?_, ?_⟩
  · intro a ha
    rcases List.mem_cons.mp ha with rfl | ha
    · exact le_refl _
    · exact h.past a ha
  · exact List.pairwise_cons.mpr ⟨h.past, h.sorted⟩
  · intro action' client' hcolon'
    show Holds s.clock _ (Function.update s.counters _ _ _) _
    by_cases hsame : action = action' ∧ client = client'
    · rw [arrivals_cons, if_pos hsame]
      obtain ⟨rfl, rfl⟩ := hsame
      rw [Function.update_self]
      rfl
    · have hkey : rateKey action' client' ≠ rateKey action client := by
        intro hk
        obtain ⟨ha, hc⟩ := rateKey_inj hcolon' hcolon hk
        exact hsame ⟨ha.symm, hc.symm⟩
      rw [arrivals_cons, if_neg hsame, Function.update_of_ne hkey]
      exact h.counters action' client' hcolon'
  · intro action' client' limit' hlimit'
    by_cases hsame : action = action' ∧ client = client'
    · rw [answers_cons, arrivals_cons, if_pos hsame, if_pos hsame]
      obtain ⟨rfl, rfl⟩ := hsame
      obtain rfl := Option.some.inj (hlimit.symm.trans hlimit')
      rw [told, h.answered _ _ _ hlimit]
      simp only [decide_eq_true_eq]
    · rw [answers_cons, arrivals_cons, if_neg hsame, if_neg hsame]
      exact h.answered action' client' limit' hlimit'

/-- What one step keeps. -/
theorem Counted.step (h : Counted settings round s) {action : Action T}
    (hstep : s.step settings round action = some s') : Counted settings round s' := by
  cases action with
  | tick clock =>
      rw [State.step] at hstep
      split at hstep
      · rename_i hle
        cases hstep
        exact h.tick hle
      · cases hstep
  | request path client =>
      obtain rfl := Option.some.inj hstep
      simp only [enforceAuthRateLimit]
      split
      · exact h
      · rename_i limit hlimit
        exact h.hit hlimit _ rfl

theorem Counted.run (hrun : Run settings round start s) : Counted settings round s :=
  Machine.Run.invariant (fun _ _ _ h _ hstep => h.step hstep) hrun counted_start

omit [IsStrictOrderedRing T] in
theorem Counted.sorted_arrivals (h : Counted settings round s) (action client : String) :
    (arrivals action client s.log).Pairwise (· ≥ ·) := by
  rw [arrivals, answers, List.map_map]
  exact List.pairwise_map.mpr (h.sorted.sublist List.filter_sublist)

end

/-! ## What a client may count on -/

/-- What the answers keep, the last first. -/
structure Limited (limit windowSeconds : Nat) (log : List (T × Option Int)) : Prop where
  /-- within the length of a window at most twice the limit pass -/
  passes : ∀ start : T, log.countP (fun a =>
    a.2.isNone && decide (start ≤ a.1 ∧ a.1 < start + windowSeconds)) ≤ 2 * limit
  /-- who is turned away has had the limit pass within that length before -/
  rejects : ∀ (t : T) (seconds : Int) (later earlier : List (T × Option Int)),
    log = later ++ (t, some seconds) :: earlier →
      limit ≤ earlier.countP fun a => a.2.isNone && decide (t < a.1 + windowSeconds)
  /-- and is told to come again within that length -/
  told : ∀ (t : T) (seconds : Int), (t, some seconds) ∈ log →
    1 ≤ seconds ∧ seconds ≤ windowSeconds
  /-- who comes a second after the time told is let in, unless the limit have come before,
  no earlier than a second before that time -/
  again : ∀ (t now : T) (seconds : Int) (answer : Option Int)
    (last between earlier : List (T × Option Int)),
    log = last ++ (now, answer) :: (between ++ (t, some seconds) :: earlier) →
    t + seconds + 1 ≤ now → (between.countP fun a => t + seconds - 1 ≤ a.1) < limit →
    answer = none

section
variable {limit windowSeconds : Nat} {arrivals : List T}

theorem map_told {length : T} (round : T → Int) : (told limit length round arrivals).map
    (fun a => (a.1, a.2.isNone)) = Throttle.answers limit length arrivals := by
  induction arrivals with
  | nil => rfl
  | cons t earlier ih =>
      rw [told, List.map_cons, ih, Throttle.answers]
      by_cases hle : (arrive length t (window length earlier)).count ≤ limit
      · simp [hle]
      · simp [hle]

omit [Field T] [LinearOrder T] in
theorem countP_passed (log : List (T × Option Int)) (p : T → Bool) :
    (Windows.passed (log.map fun a => (a.1, a.2.isNone))).countP p =
      log.countP fun a => a.2.isNone && p a.1 := by
  rw [Windows.passed, List.countP_map, List.countP_filter, List.countP_map]
  refine List.countP_congr fun a _ => ?_
  simp [and_comm]

/-- An answer is owed to the request and those before it. -/
theorem told_split {round : T → Int} {length t : T} {answer : Option Int}
    {later earlier : List (T × Option Int)}
    (h : told limit length round arrivals = later ++ (t, answer) :: earlier) :
    ∃ before, arrivals = later.map Prod.fst ++ t :: before ∧
      told limit length round before = earlier ∧
      answer = if (arrive length t (window length before)).count ≤ limit then none else
        some (max (round ((arrive length t (window length before)).opened + length - t)) 1) := by
  induction later generalizing arrivals with
  | nil =>
      cases arrivals with
      | nil => nomatch h
      | cons a arrivals =>
          obtain ⟨ha, hrest⟩ := List.cons_eq_cons.mp h
          obtain ⟨rfl, hanswer⟩ := Prod.mk.inj ha
          exact ⟨arrivals, rfl, hrest, hanswer.symm⟩
  | cons l later ih =>
      cases arrivals with
      | nil => nomatch h
      | cons a arrivals =>
          obtain ⟨ha, hrest⟩ := List.cons_eq_cons.mp h
          obtain ⟨before, hbefore, htold, hanswer⟩ := ih hrest
          refine ⟨before, ?_, htold, hanswer⟩
          rw [List.map_cons, List.cons_append, ← hbefore, ← ha]

variable [IsStrictOrderedRing T]

/-- The end of a window, as it is told to those turned away. -/
theorem told_seconds {round : T → Int} (hround : ∀ x, |(round x : T) - x| < 1) (hlimit : 0 < limit)
    (hwindow : 0 < windowSeconds) {t : T} {seconds : Int}
    (hs : (t :: arrivals).Pairwise (· ≥ ·)) {w : Throttle.Window T}
    (hw : arrive (windowSeconds : T) t (window (windowSeconds : T) arrivals) = w)
    (h : some seconds = if w.count ≤ limit then none else
      some (max (round (w.opened + windowSeconds - t)) 1)) :
    (1 ≤ seconds ∧ seconds ≤ windowSeconds) ∧ t + seconds - 1 ≤ w.opened + windowSeconds ∧
      w.opened + windowSeconds ≤ t + seconds + 1 := by
  split at h
  · nomatch h
  · rename_i hfull
    obtain rfl := Option.some.inj h
    rcases Throttle.arrive_cases (windowSeconds : T) t (window (windowSeconds : T) arrivals) with
      ⟨o, n, hopen, hlt, harrive⟩ | ⟨-, harrive⟩
    · have ho : o ≤ t := Throttle.opened_le hs hopen
      obtain rfl := hw.symm.trans harrive
      obtain ⟨hlow, hhigh⟩ := abs_lt.mp (hround (o + windowSeconds - t))
      -- less than a window and a second, so no more than the seconds of a window
      have hle : round (o + windowSeconds - t) ≤ windowSeconds := by
        have hcast : (round (o + windowSeconds - t) : T) < ((windowSeconds + 1 : ℤ) : T) := by
          push_cast
          linarith
        have := Int.cast_lt.mp hcast
        omega
      have hseconds : (round (o + windowSeconds - t) : T) ≤
          (max (round (o + windowSeconds - t)) 1 : ℤ) := Int.cast_le.mpr (le_max_left _ _)
      refine ⟨⟨le_max_right _ _, max_le hle (by omega)⟩, ?_, ?_⟩
      · rcases max_choice (round (o + windowSeconds - t)) 1 with hmax | hmax
        · rw [hmax]
          linarith
        · rw [hmax]
          push_cast
          linarith
      · show o + (windowSeconds : T) ≤ _
        linarith
    · rw [← hw, harrive] at hfull
      exact absurd (show (1 : ℕ) ≤ limit from hlimit) hfull

/-- The answers of the limiter keep all of it. -/
theorem limited_told {round : T → Int} (hround : ∀ x, |(round x : T) - x| < 1) (hlimit : 0 < limit)
    (hwindow : 0 < windowSeconds) (hs : arrivals.Pairwise (· ≥ ·)) :
    Limited limit windowSeconds (told limit (windowSeconds : T) round arrivals) where
  passes start := by
    have h := Throttle.passedIn_le limit
      (fun s t hle => add_le_add_left hle (windowSeconds : T)) hs start
    rwa [Throttle.passedIn, ← map_told round, countP_passed] at h
  rejects t seconds later earlier h := by
    have hmap := congrArg (List.map fun a : T × Option Int => (a.1, a.2.isNone)) h
    rw [map_told, List.map_append, List.map_cons] at hmap
    have hfull := Throttle.rejected_of_answers
      (fun s t hle => add_le_add_left hle (windowSeconds : T)) hs hmap
    rwa [countP_passed] at hfull
  told t seconds h := by
    obtain ⟨later, earlier, hsplit⟩ := List.append_of_mem h
    obtain ⟨before, hbefore, -, hanswer⟩ := told_split hsplit
    rw [hbefore] at hs
    exact (told_seconds hround hlimit hwindow (List.pairwise_append.mp hs).2.1 rfl hanswer).1
  again t now seconds answer last between earlier h hnow hfew := by
    obtain ⟨before, hbefore, htold, hanswer⟩ := told_split h
    obtain ⟨first, rfl, -, hrefused⟩ := told_split htold
    rw [hbefore] at hs
    have hsorted := (List.pairwise_cons.mp (List.pairwise_append.mp hs).2.1).2
    obtain ⟨-, hlow, hhigh⟩ := told_seconds hround hlimit hwindow
      (List.pairwise_append.mp hsorted).2.1 rfl hrefused
    rw [hanswer, if_pos]
    refine Throttle.passes_behind hsorted (hhigh.trans hnow) (lt_of_le_of_lt ?_ hfew)
    rw [List.countP_map]
    refine List.countP_mono_left fun a _ ha => ?_
    exact decide_eq_true (hlow.trans (of_decide_eq_true ha))

end

/-- The requests of a client to a limited route are answered as by a limiter whose windows its
first arrivals open, and so as the limit says. -/
theorem auth_rate_limited [IsStrictOrderedRing T] {settings : AuthRateSettings} {round : T → Int}
    {s : State T} {action : String} {limit : Nat} (hround : ∀ x, |(round x : T) - x| < 1)
    (hrun : Run settings round start s) (hlimit : settings.limits.lookup action = some limit)
    (client : String) :
    answers action client s.log = told limit (settings.authRateLimitWindowSeconds : T) round
        (arrivals action client s.log) ∧
      Limited limit settings.authRateLimitWindowSeconds (answers action client s.log) := by
  have h := Counted.run hrun
  refine ⟨h.answered action client limit hlimit, ?_⟩
  rw [h.answered action client limit hlimit]
  exact limited_told hround (limit_pos hlimit) settings.window_pos (h.sorted_arrivals action client)

end

/-! ## Six logins -/

/-- A half is rounded up. -/
def Sample.round (x : ℚ) : Int := ⌊x + 1 / 2⌋

theorem Sample.round_near (x : ℚ) : |(Sample.round x : ℚ) - x| < 1 := by
  have hle := Int.floor_le (x + 1 / 2)
  have hlt := Int.lt_floor_add_one (x + 1 / 2)
  rw [Sample.round, abs_lt]
  constructor <;> linarith

/-- Six logins within a second, and one more when the window is over. -/
def Sample.logins : List (Action ℚ) :=
  List.replicate 6 (.request "/api/v1/auth/login" (some "203.0.113.7")) ++
    [.tick 60, .request "/api/v1/auth/login" (some "203.0.113.7")]

theorem auth_rate_limited_sample : ∃ s : State ℚ, Run .default Sample.round start s ∧
    answers "login" "203.0.113.7" s.log =
      (60, none) :: (0, some 60) :: List.replicate 5 (0, none) ∧
    answers "login" "203.0.113.7" s.log =
      told 5 ((60 : Nat) : ℚ) Sample.round (arrivals "login" "203.0.113.7" s.log) ∧
    Limited 5 60 (answers "login" "203.0.113.7" s.log) := by
  have hplay : (Machine.play (State.step .default Sample.round) (fun _ _ => True) start
      Sample.logins).map (fun s => answers "login" "203.0.113.7" s.log) =
        some ((60, none) :: (0, some 60) :: List.replicate 5 (0, none)) := by decide +kernel
  obtain ⟨s, hs, hanswers⟩ := Option.map_eq_some_iff.mp hplay
  exact ⟨s, .of_play hs, hanswers,
    auth_rate_limited Sample.round_near (.of_play hs) (by decide) "203.0.113.7"⟩

end AuthRate

end ForkRoom
