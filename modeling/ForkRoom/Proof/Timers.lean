/-
# `Proof.Timers` — which timer is shown

`start_timer` has the timer key run out after the timer ends; every join moves that
to three times the presence TTL from now.  So a timer is shown up to its end exactly
as long as the joins since its start are close enough (`timerCovered`).
-/
import ForkRoom.Proof.Presence

namespace ForkRoom

namespace Meeting

/-! ## Which timer runs -/

section
variable {T : Type} [LinearOrder T] [Add T] {ttl now now' : T} {log : Log T}
  {timer : MeetingTimer T}

/-- When the timer key runs out, by the log. -/
def timerExpiry (presenceTtl roomTtl : T) : Log T → Option T
  | [] | (_, .timerCancelled) :: _ => none
  | (_, .timerStarted timer) :: _ => some (timer.endsAt + presenceTtl)
  | (t, .joined _) :: _ => some (t + roomTtl)
  | (_, .touched _) :: log | (_, .left _) :: log => timerExpiry presenceTtl roomTtl log

theorem timerCovered_iff_of_cons {t : T} {v : UUID} :
    timerCovered ttl ((t, .joined v) :: log) now ↔ now < t + ttl ∧ timerCovered ttl log t := by
  simp [timerCovered]

theorem timerCovered_of_lt (presenceTtl : T) (h : timerCovered ttl log now)
    (hlt : ∀ x, timerExpiry presenceTtl ttl log = some x → now' < x) :
    timerCovered ttl log now' := by
  induction log with
  | nil => cases h
  | cons entry log ih =>
      obtain ⟨t, e⟩ := entry
      cases e with
      | joined v =>
          exact timerCovered_iff_of_cons.mpr ⟨hlt _ rfl, (timerCovered_iff_of_cons.mp h).2⟩
      | touched v => exact ih h hlt
      | left v => exact ih h hlt
      | timerStarted timer => rfl
      | timerCancelled => cases h

theorem timerCovered_anti (hle : now ≤ now') (h : timerCovered ttl log now') :
    timerCovered ttl log now := by
  induction log with
  | nil => cases h
  | cons entry log ih =>
      obtain ⟨t, e⟩ := entry
      cases e with
      | joined v =>
          obtain ⟨hlt, h⟩ := timerCovered_iff_of_cons.mp h
          exact timerCovered_iff_of_cons.mpr ⟨hle.trans_lt hlt, h⟩
      | touched v => exact ih h
      | left v => exact ih h
      | timerStarted timer => rfl
      | timerCancelled => cases h

end

section
variable {T : Type} [Field T] [LinearOrder T] {settings : MeetingSettings}
  {clock clock' : T} {room : Room T} {log : Log T} {key : Expiring.Key T (MeetingTimer T)}

open Room

structure Timed (settings : MeetingSettings) (clock : T) (key : Expiring.Key T (MeetingTimer T))
    (log : Log T) : Prop where
  running : ∀ timer, key.read clock = some timer →
    runningTimer log = some timer ∧ timerCovered (roomTtl settings) log clock
  expiry : ∀ timer, key.read clock = some timer → ∃ x,
    timerExpiry (presenceTtl settings) (roomTtl settings) log = some x ∧ key.RunsOut clock x
  kept : ∀ timer, runningTimer log = some timer → clock < timer.endsAt →
    timerCovered (roomTtl settings) log clock → key.read clock = some timer

theorem Timed.snapshot (h : Timed settings clock room.timer log) :
    Timed settings clock (MeetingRoomRepository.snapshot clock room).2.timer log := by
  rcases @MeetingRoomRepository.snapshot_room T _ clock room with hr | ⟨hr, timer, hread, hend⟩
  · rw [hr, MeetingRoomRepository.timer_pruneStale]
    exact h
  · -- the timer that is cancelled is the one that runs, and it has ended
    rw [MeetingRoomRepository.timer_pruneStale] at hread
    rw [hr]
    refine ⟨fun _ ht => (nomatch ht), fun _ ht => (nomatch ht), fun timer' hrun hlt hc => ?_⟩
    rw [h.kept timer' hrun hlt hc] at hread
    cases hread
    exact absurd hlt (not_lt.mpr hend)

variable [IsStrictOrderedRing T]

/-- A covered timer that has not ended is there. -/
theorem lt_timerExpiry {timer : MeetingTimer T} {x : T} (hrun : runningTimer log = some timer)
    (hend : clock < timer.endsAt) (hc : timerCovered (roomTtl settings) log clock)
    (hx : timerExpiry (presenceTtl settings) (roomTtl settings) log = some x) : clock < x := by
  induction log with
  | nil => cases hx
  | cons entry log ih =>
      obtain ⟨t, e⟩ := entry
      cases e with
      | joined v =>
          cases hx
          exact (timerCovered_iff_of_cons.mp hc).1
      | touched v => exact ih hrun hc hx
      | left v => exact ih hrun hc hx
      | timerStarted timer =>
          cases hx
          cases hrun
          exact hend.trans (lt_add_of_pos_right _ (presenceTtl_pos settings))
      | timerCancelled => cases hx

theorem Timed.tick (h : Timed settings clock key log) (hle : clock ≤ clock') :
    Timed settings clock' key log := by
  have hbefore : ∀ timer, key.read clock' = some timer → key.read clock = some timer := by
    intro timer hread
    rcases Expiring.Key.read_later hle key with hsame | hnone
    · exact hsame ▸ hread
    · rw [hnone] at hread
      cases hread
  refine ⟨fun timer hread => ?_, fun timer hread => ?_, fun timer hrun hend hc => ?_⟩
  · obtain ⟨hrun, hc⟩ := h.running timer (hbefore timer hread)
    obtain ⟨x, hx, hout⟩ := h.expiry timer (hbefore timer hread)
    refine ⟨hrun, timerCovered_of_lt (presenceTtl settings) hc fun x' hx' => ?_⟩
    rw [hx] at hx'
    exact Option.some.inj hx' ▸ hout.lt_of_read hread
  · obtain ⟨x, hx, hout⟩ := h.expiry timer (hbefore timer hread)
    exact ⟨x, hx, hout.later (hout.lt_of_read hread)⟩
  · have hread := h.kept timer hrun (hle.trans_lt hend) (timerCovered_anti hle hc)
    obtain ⟨x, hx, hout⟩ := h.expiry timer hread
    rw [hout.read_eq (lt_timerExpiry hrun hend hc hx)]
    exact hread

/-- A join moves the expiry of the timer. -/
theorem Timed.enter (h : Timed settings clock key log) (v : UUID) :
    Timed settings clock (key.expireIn clock (roomTtl settings)) ((clock, .joined v) :: log) := by
  have hpos := lt_roomTtl settings clock
  have hread : (key.expireIn clock (roomTtl settings)).read clock = key.read clock :=
    Expiring.Key.read_expireIn hpos
  refine ⟨fun timer ht => ?_, fun timer ht => ?_, fun timer hrun hend hc => ?_⟩
  · obtain ⟨hrun, hc⟩ := h.running timer (hread ▸ ht)
    exact ⟨hrun, timerCovered_iff_of_cons.mpr ⟨hpos, hc⟩⟩
  · refine ⟨_, rfl, Expiring.Key.runsOut_expireIn hpos ?_⟩
    rw [Expiring.Key.present, ← hread, ht]
    rfl
  · rw [hread]
    exact h.kept timer hrun hend (timerCovered_iff_of_cons.mp hc).2

theorem Timed.started (userId : UUID) (durationSeconds : Nat) :
    Timed settings clock
      (.putFor clock (durationSeconds + presenceTtl settings)
        ⟨userId, clock, clock + durationSeconds⟩)
      ((clock, .timerStarted ⟨userId, clock, clock + durationSeconds⟩) :: log) := by
  have hpos : clock < clock + (durationSeconds + presenceTtl settings) :=
    lt_add_of_pos_right clock (add_pos_of_nonneg_of_pos (Nat.cast_nonneg _)
      (presenceTtl_pos settings))
  have hlive : Expiring.Entry.live clock
      (⟨⟨userId, clock, clock + durationSeconds⟩,
        some (clock + (durationSeconds + presenceTtl settings))⟩ :
          Expiring.Entry T (MeetingTimer T)) :=
    Expiring.Key.live_iff.mpr fun t ht => Option.some.inj ht ▸ hpos
  refine ⟨fun timer ht => ?_, fun timer ht => ?_, fun timer hrun _ _ => ?_⟩
  · obtain ⟨e, he, -, rfl⟩ := Expiring.Key.read_eq_some.mp ht
    cases he
    exact ⟨rfl, rfl⟩
  · exact ⟨_, rfl, _, rfl, hlive, congrArg some (add_assoc _ _ _).symm⟩
  · cases hrun
    exact Expiring.Key.read_eq_some.mpr ⟨_, rfl, hlive, rfl⟩

theorem Timed.step {s s' : State T} {a : Action T}
    (h : Timed settings s.clock s.room.timer s.log) (hstep : s.step settings a = some s') :
    Timed settings s'.clock s'.room.timer s'.log := by
  cases a with
  | tick clock =>
      simp only [State.step] at hstep
      split at hstep
      · rename_i hle
        cases hstep
        exact h.tick hle
      · cases hstep
  | join claims =>
      have hpruned := h
      rw [← MeetingRoomRepository.timer_pruneStale] at hpruned
      simp only [State.step] at hstep
      rcases MeetingRoomRepository.join_cases settings s.clock claims s.room with hj | hj
      · rw [hj] at hstep
        cases hstep
        exact hpruned
      · rw [hj] at hstep
        cases hstep
        exact Timed.snapshot (hpruned.enter claims.userId)
  | touch userId =>
      cases hstep
      exact ⟨h.running, h.expiry, h.kept⟩
  | leave userId =>
      cases hstep
      exact ⟨h.running, h.expiry, h.kept⟩
  | snapshot =>
      cases hstep
      exact h.snapshot
  | startTimer userId durationSeconds =>
      obtain ⟨-, hstep⟩ := Machine.guard_bind hstep
      cases hstep
      exact Timed.started userId durationSeconds
  | cancelTimer =>
      cases hstep
      refine ⟨?_, ?_, ?_⟩ <;> intro _ ht <;> cases ht

/-- Every answer shows the timer of a room with the log that the call leaves. -/
theorem answer_timer {s s' : State T} {a : Action T} {state : MeetingState T}
    (h : Timed settings s.clock s.room.timer s.log) (hstep : s.step settings a = some s')
    (hans : s.answer settings a = some state) : s'.clock = s.clock ∧
      ∃ key, Timed settings s.clock key s'.log ∧
        state.timer = (key.read s.clock).filter fun timer => s.clock < timer.endsAt := by
  have hpruned := h
  rw [← MeetingRoomRepository.timer_pruneStale] at hpruned
  cases a with
  | join claims =>
      simp only [State.step] at hstep
      simp only [State.answer] at hans
      rcases MeetingRoomRepository.join_cases settings s.clock claims s.room with hj | hj
      · rw [hj] at hans
        cases hans
      · rw [hj] at hans hstep
        cases hans
        cases hstep
        refine ⟨rfl, _, hpruned.enter claims.userId, ?_⟩
        rw [MeetingRoomRepository.snapshot_timer, MeetingRoomRepository.timer_pruneStale]
        rfl
  | snapshot =>
      cases hans
      cases hstep
      exact ⟨rfl, _, hpruned, MeetingRoomRepository.snapshot_timer⟩
  | tick _ => cases hans
  | touch _ => cases hans
  | leave _ => cases hans
  | startTimer _ _ => cases hans
  | cancelTimer => cases hans

/-- A timer that has not ended is shown exactly as long as the joins since its start cover
it, and it is never shown once it has ended. -/
theorem running_timer_survives {s s' : State T} {a : Action T} {state : MeetingState T}
    (h : Machine.Run (State.step settings) (fun _ _ => True) (start clock) s)
    (hstep : s.step settings a = some s') (hans : s.answer settings a = some state) :
    (∀ timer, runningTimer s'.log = some timer → s'.clock < timer.endsAt →
      (state.timer = some timer ↔ timerCovered (roomTtl settings) s'.log s'.clock)) ∧
    ∀ timer, state.timer = some timer → s'.clock < timer.endsAt := by
  have htimed : Timed settings s.clock s.room.timer s.log :=
    @Machine.Run.invariant _ _ _ _ _ _ (fun s => Timed settings s.clock s.room.timer s.log)
      (fun _ _ _ hi _ hs => hi.step hs) h
      ⟨fun _ ht => (nomatch ht), fun _ ht => (nomatch ht), fun _ ht => (nomatch ht)⟩
  obtain ⟨hclock, key, hkey, hstate⟩ := answer_timer htimed hstep hans
  rw [hclock, hstate]
  refine ⟨fun timer hrun hend => ⟨fun hshown => ?_, fun hc => ?_⟩, fun timer hshown => ?_⟩
  · exact (hkey.running timer (Option.filter_eq_some_iff.mp hshown).1).2
  · exact Option.filter_eq_some_iff.mpr ⟨hkey.kept timer hrun hend hc, decide_eq_true hend⟩
  · exact of_decide_eq_true (Option.filter_eq_some_iff.mp hshown).2

end

/-! ## A long timer -/

/-- A timer of two hours, and a join shortly after. -/
def Sample.timer : List (Action ℚ) :=
  [.join Sample.ada, .startTimer 1 7200, .tick 10, .join Sample.ben, .tick 200]

/-- The timer is gone 190 seconds after the join, long before it ends. -/
theorem running_timer_lost : ∃ s s' : State ℚ, ∃ state timer,
    Machine.Run (State.step .default) (fun _ _ => True) (start 0) s ∧
    s.step .default .snapshot = some s' ∧
    s.answer .default .snapshot = some state ∧
    runningTimer s'.log = some timer ∧ s'.clock < timer.endsAt ∧ state.timer = none := by
  obtain ⟨⟨s, state, s'⟩, hsample, hs⟩ := Option.map_eq_some_iff.mp
    (show (Sample.snapshot Sample.timer).map (fun p =>
        (runningTimer p.2.2.log, p.2.2.clock, p.2.1.timer)) =
      some (some ⟨1, 0, 7200⟩, 200, none) by decide +kernel)
  simp only [Prod.mk.injEq] at hs
  obtain ⟨hrunning, hclock, htimer⟩ := hs
  obtain ⟨hrun, hans, hstep⟩ := Sample.of_snapshot hsample
  refine ⟨s, s', state, _, hrun, hstep, hans, hrunning, ?_, htimer⟩
  rw [hclock]
  norm_num

/-- Ben joins again in time, and the timer is shown. -/
theorem running_timer_survives_sample : ∃ state : MeetingState ℚ,
    state.timer = some ⟨1, 0, 7200⟩ := by
  obtain ⟨⟨s, state, s'⟩, hsample, hs⟩ := Option.map_eq_some_iff.mp
    (show (Sample.snapshot (Sample.timer.take 4 ++ [.tick 150, .join Sample.ben, .tick 200])).map
        (fun p => (runningTimer p.2.2.log, p.2.2.clock,
          timerCovered (Room.roomTtl .default) p.2.2.log p.2.2.clock)) =
      some (some ⟨1, 0, 7200⟩, 200, true) by decide +kernel)
  simp only [Prod.mk.injEq] at hs
  obtain ⟨hrunning, hclock, hcovered⟩ := hs
  obtain ⟨hrun, hans, hstep⟩ := Sample.of_snapshot hsample
  have hend : s'.clock < 7200 := by
    rw [hclock]
    norm_num
  exact ⟨state, ((running_timer_survives hrun hstep hans).1 _ hrunning hend).mpr hcovered⟩

end Meeting

end ForkRoom
