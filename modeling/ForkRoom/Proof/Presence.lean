/-
# `Proof.Presence` — who is shown

A heartbeat moves the score of a user; only a join moves the expiry of the keys.
So a user who keeps up the heartbeats is shown exactly as long as the joins of the
room are close enough (`covered`), and nobody is shown without a recent heartbeat.
-/
import ForkRoom.System.Meeting
import Mathlib.Algebra.Field.Rat
import Mathlib.Algebra.Order.Ring.Rat
import Mathlib.Tactic.NormNum

namespace ForkRoom

namespace Meeting

/-! ## Reading the log -/

section
variable {T : Type} [LinearOrder T] [Add T] {ttl now now' : T} {u : UUID} {log : Log T}

/-- Whoever attends has been heard of. -/
theorem attending_beat (h : attending ttl u log now) :
    ∃ t, lastBeat u log = some t ∧ now < t + ttl := by
  induction log with
  | nil => cases h
  | cons entry log ih =>
      obtain ⟨t, e⟩ := entry
      cases e with
      | joined v =>
          rw [attending] at h
          rw [lastBeat]
          split at h
          · rename_i hv
            exact ⟨t, if_pos hv, of_decide_eq_true h⟩
          · rename_i hv
            rw [if_neg hv]
            exact ih h
      | touched v =>
          rw [attending] at h
          rw [lastBeat]
          split at h
          · rename_i hv
            rw [Bool.and_eq_true] at h
            exact ⟨t, if_pos hv, of_decide_eq_true h.1⟩
          · rename_i hv
            rw [if_neg hv]
            exact ih h
      | left v =>
          rw [attending] at h
          split at h
          · cases h
          · exact ih h
      | timerStarted timer => exact ih h
      | timerCancelled => exact ih h

/-- Whoever attends later has attended. -/
theorem attending_anti (hle : now ≤ now') (h : attending ttl u log now') :
    attending ttl u log now := by
  induction log with
  | nil => cases h
  | cons entry log ih =>
      obtain ⟨t, e⟩ := entry
      cases e with
      | joined v =>
          rw [attending] at h ⊢
          split at h
          · rename_i hv
            rw [if_pos hv]
            exact decide_eq_true (hle.trans_lt (of_decide_eq_true h))
          · rename_i hv
            rw [if_neg hv]
            exact ih h
      | touched v =>
          rw [attending] at h ⊢
          split at h
          · rename_i hv
            rw [Bool.and_eq_true] at h
            rw [if_pos hv, Bool.and_eq_true]
            exact ⟨decide_eq_true (hle.trans_lt (of_decide_eq_true h.1)), h.2⟩
          · rename_i hv
            rw [if_neg hv]
            exact ih h
      | left v =>
          rw [attending] at h ⊢
          split at h
          · cases h
          · rename_i hv
            rw [if_neg hv]
            exact ih h
      | timerStarted timer => exact ih h
      | timerCancelled => exact ih h

/-- The joins up to now cover a user, and the last is close enough. -/
theorem covered_iff_of_cons {t : T} {v : UUID} : covered ttl u ((t, .joined v) :: log) now ↔
    now < t + ttl ∧ (v = u ∨ covered ttl u log t) := by
  simp [covered]

theorem covered_lt (h : covered ttl u log now) : ∃ t, lastJoin log = some t ∧ now < t + ttl := by
  induction log with
  | nil => cases h
  | cons entry log ih =>
      obtain ⟨t, e⟩ := entry
      cases e with
      | joined v => exact ⟨t, rfl, (covered_iff_of_cons.mp h).1⟩
      | touched v => exact ih h
      | left v => exact ih h
      | timerStarted timer => exact ih h
      | timerCancelled => exact ih h

/-- Only the last join counts as time goes on. -/
theorem covered_of_lt (h : covered ttl u log now)
    (hlt : ∀ t, lastJoin log = some t → now' < t + ttl) : covered ttl u log now' := by
  induction log with
  | nil => cases h
  | cons entry log ih =>
      obtain ⟨t, e⟩ := entry
      cases e with
      | joined v => exact covered_iff_of_cons.mpr ⟨hlt t rfl, (covered_iff_of_cons.mp h).2⟩
      | touched v => exact ih h hlt
      | left v => exact ih h hlt
      | timerStarted timer => exact ih h hlt
      | timerCancelled => exact ih h hlt

theorem covered_anti (hle : now ≤ now') (h : covered ttl u log now') : covered ttl u log now := by
  obtain ⟨t, ht, hlt⟩ := covered_lt h
  refine covered_of_lt h fun t' ht' => ?_
  rw [ht] at ht'
  exact Option.some.inj ht' ▸ hle.trans_lt hlt

end

/-! ## Who is in the room -/

section
variable {T : Type} [Field T] [LinearOrder T] {settings : MeetingSettings}
  {clock clock' : T} {room : Room T} {log log' : Log T} {u : UUID}

open Room

/-- Whoever is in the room has been heard of and is covered, with a score and with keys that
run out together; and whoever attends and is covered is in the room. -/
structure Present (settings : MeetingSettings) (clock : T) (room : Room T) (log : Log T) :
    Prop where
  own : ∀ u p, (room.participantsAt clock).lookup u = some p → p.userId = u
  expiry : ∀ u ∈ room.participantsAt clock, ∃ t, lastJoin log = some t ∧
    room.participants.RunsOut clock (t + roomTtl settings) ∧
    room.presence.RunsOut clock (t + roomTtl settings)
  score : ∀ u ∈ room.participantsAt clock, ∃ t, lastBeat u log = some t ∧
    (room.presenceAt clock).lookup u = some (t + presenceTtl settings)
  covered : ∀ u ∈ room.participantsAt clock, covered (roomTtl settings) u log clock
  kept : ∀ u, attending (presenceTtl settings) u log clock →
    Meeting.covered (roomTtl settings) u log clock → u ∈ room.participantsAt clock

/-- Somebody in the room later is in the room now, and both keys hold the same. -/
theorem Present.later_eq (h : Present settings clock room log) (hle : clock ≤ clock')
    (hu : u ∈ room.participantsAt clock') :
    room.participantsAt clock' = room.participantsAt clock ∧
      room.presenceAt clock' = room.presenceAt clock ∧
      ∃ t, lastJoin log = some t ∧ clock' < t + roomTtl settings ∧
        room.participants.RunsOut clock' (t + roomTtl settings) ∧
        room.presence.RunsOut clock' (t + roomTtl settings) := by
  have hne : room.participantsAt clock' ≠ ∅ := by
    intro hempty
    rw [hempty] at hu
    exact AList.notMem_empty u hu
  obtain ⟨heq, v, hread⟩ := Expiring.Key.contents_later hle hne
  have hsame : room.participantsAt clock' = room.participantsAt clock := heq
  have hmem : u ∈ room.participantsAt clock := hsame ▸ hu
  obtain ⟨t, ht, hparticipants, hpresence⟩ := h.expiry u hmem
  have hlt := hparticipants.lt_of_read hread
  exact ⟨hsame, hpresence.contents_eq hlt, t, ht, hlt, hparticipants.later hlt,
    hpresence.later hlt⟩

theorem Present.tick (h : Present settings clock room log) (hle : clock ≤ clock') :
    Present settings clock' room log := by
  refine ⟨fun u p hp => ?_, fun u hu => ?_, fun u hu => ?_, fun u hu => ?_, fun u ha hc => ?_⟩
  · have hu : u ∈ room.participantsAt clock' := AList.lookup_isSome.mp (hp ▸ rfl)
    rw [(h.later_eq hle hu).1] at hp
    exact h.own u p hp
  · obtain ⟨-, -, t, ht, -, hparticipants, hpresence⟩ := h.later_eq hle hu
    exact ⟨t, ht, hparticipants, hpresence⟩
  · obtain ⟨hsame, hpresence, -⟩ := h.later_eq hle hu
    rw [hpresence]
    exact h.score u (hsame ▸ hu)
  · obtain ⟨hsame, -, t, ht, hlt, -⟩ := h.later_eq hle hu
    refine covered_of_lt (h.covered u (hsame ▸ hu)) fun t' ht' => ?_
    rw [ht] at ht'
    exact Option.some.inj ht' ▸ hlt
  · -- a user that is covered later: the participants have not run out
    have hu := h.kept u (attending_anti hle ha) (covered_anti hle hc)
    obtain ⟨t, ht, hparticipants, -⟩ := h.expiry u hu
    obtain ⟨t', ht', hlt⟩ := covered_lt hc
    rw [ht] at ht'
    rw [← Option.some.inj ht'] at hlt
    have hsame : room.participantsAt clock' = room.participantsAt clock :=
      hparticipants.contents_eq hlt
    rw [hsame]
    exact hu

/-- Users are removed who need not be in the room. -/
theorem Present.remove (h : Present settings clock room log) {userIds : List UUID}
    (hbeat : ∀ u, lastBeat u log' = lastBeat u log) (hjoin : lastJoin log' = lastJoin log)
    (hcov : ∀ u, Meeting.covered (roomTtl settings) u log' clock =
      Meeting.covered (roomTtl settings) u log clock)
    (hatt : ∀ u, attending (presenceTtl settings) u log' clock →
      Meeting.covered (roomTtl settings) u log clock →
      attending (presenceTtl settings) u log clock ∧ u ∉ userIds) :
    Present settings clock (room.remove clock userIds) log' := by
  have hmem : ∀ u, u ∈ (room.remove clock userIds).participantsAt clock ↔
      u ∉ userIds ∧ u ∈ room.participantsAt clock := by
    intro u
    rw [participantsAt_remove, Expiring.mem_eraseAll]
  have hlookup : ∀ u, u ∉ userIds →
      ((room.remove clock userIds).presenceAt clock).lookup u =
        (room.presenceAt clock).lookup u := by
    intro u hu
    rw [presenceAt_remove, Expiring.lookup_eraseAll, if_neg hu]
  refine ⟨fun u p hp => ?_, fun u hu => ?_, fun u hu => ?_, fun u hu => ?_, fun u ha hc => ?_⟩
  · rw [participantsAt_remove, Expiring.lookup_eraseAll] at hp
    split at hp
    · cases hp
    · exact h.own u p hp
  · obtain ⟨hout, hin⟩ := (hmem u).mp hu
    obtain ⟨t, ht, hparticipants, hpresence⟩ := h.expiry u hin
    obtain ⟨t', -, hscore⟩ := h.score u hin
    have hscored : u ∈ room.presenceAt clock := AList.lookup_isSome.mp (hscore ▸ rfl)
    exact ⟨t, hjoin.trans ht, hparticipants.eraseAll hout hin, hpresence.eraseAll hout hscored⟩
  · obtain ⟨hout, hin⟩ := (hmem u).mp hu
    rw [hbeat, hlookup u hout]
    exact h.score u hin
  · rw [hcov]
    exact h.covered u ((hmem u).mp hu).2
  · rw [hcov] at hc
    obtain ⟨ha, hout⟩ := hatt u ha hc
    exact (hmem u).mpr ⟨hout, h.kept u ha hc⟩

/-- A user who has attended up to now is not stale. -/
theorem Present.not_stale (h : Present settings clock room log)
    (ha : attending (presenceTtl settings) u log clock)
    (hc : Meeting.covered (roomTtl settings) u log clock) : u ∉ room.stale clock clock := by
  intro hstale
  obtain ⟨t, ht, hlookup⟩ := h.score u (h.kept u ha hc)
  obtain ⟨score, hscore, hle⟩ := mem_stale.mp hstale
  obtain ⟨t', ht', hlt⟩ := attending_beat ha
  rw [ht] at ht'
  rw [hlookup] at hscore
  cases ht'
  cases hscore
  exact absurd hlt (not_lt.mpr hle)

theorem Present.pruneStale (h : Present settings clock room log) :
    Present settings clock (MeetingRoomRepository.pruneStale clock room) log := by
  simp only [MeetingRoomRepository.pruneStale]
  split
  · exact h
  · exact h.remove (fun _ => rfl) rfl (fun _ => rfl) fun u ha hc => ⟨ha, h.not_stale ha hc⟩

/-- Nobody is left whose score has come. -/
theorem Present.beat_of_pruned (h : Present settings clock room log)
    (hu : u ∈ (MeetingRoomRepository.pruneStale clock room).participantsAt clock) :
    ∃ t, lastBeat u log = some t ∧ clock < t + presenceTtl settings := by
  have hin : u ∈ room.participantsAt clock ∧ u ∉ room.stale clock clock := by
    simp only [MeetingRoomRepository.pruneStale] at hu
    split at hu
    · rename_i hnil
      rw [hnil]
      exact ⟨hu, List.not_mem_nil⟩
    · rw [participantsAt_remove, Expiring.mem_eraseAll] at hu
      exact ⟨hu.2, hu.1⟩
  obtain ⟨t, ht, hlookup⟩ := h.score u hin.1
  refine ⟨t, ht, ?_⟩
  by_contra hle
  exact hin.2 (mem_stale.mpr ⟨_, hlookup, not_lt.mp hle⟩)

theorem Present.leave (h : Present settings clock room log) (v : UUID) :
    Present settings clock (MeetingRoomRepository.leave clock v room)
      ((clock, .left v) :: log) := by
  refine h.remove (fun _ => rfl) rfl (fun _ => rfl) fun u ha _ => ?_
  rw [attending] at ha
  split at ha
  · cases ha
  · rename_i hne
    exact ⟨ha, fun hm => hne (List.mem_singleton.mp hm).symm⟩

theorem Present.touch (h : Present settings clock room log) (v : UUID) :
    Present settings clock (room.touch settings clock clock v) ((clock, .touched v) :: log) := by
  refine ⟨h.own, fun u hu => ?_, fun u hu => ?_, h.covered, fun u ha hc => ?_⟩
  · obtain ⟨t, ht, hparticipants, hpresence⟩ := h.expiry u hu
    exact ⟨t, ht, hparticipants, hpresence.upsert⟩
  · rw [presenceAt_touch, lastBeat]
    by_cases hv : v = u
    · subst hv
      exact ⟨clock, if_pos rfl, AList.lookup_insert _⟩
    · rw [if_neg hv, AList.lookup_insert_ne (Ne.symm hv)]
      exact h.score u hu
  · refine h.kept u ?_ hc
    rw [attending] at ha
    split at ha
    · exact (Bool.and_eq_true _ _ ▸ ha).2
    · exact ha

theorem Present.withTimer (h : Present settings clock room log)
    (timer : Expiring.Key T (MeetingTimer T)) :
    Present settings clock { room with timer := timer } log :=
  ⟨h.own, h.expiry, h.score, h.covered, h.kept⟩

theorem Present.snapshot (h : Present settings clock room log) :
    Present settings clock (MeetingRoomRepository.snapshot clock room).2 log := by
  rcases @MeetingRoomRepository.snapshot_room T _ clock room with hr | ⟨hr, -⟩
  · rw [hr]
    exact h.pruneStale
  · rw [hr]
    exact h.pruneStale.withTimer none

variable [IsStrictOrderedRing T]

theorem Present.enter (h : Present settings clock room log) (claims : MeetingTokenClaims) :
    Present settings clock (room.enter settings clock clock claims)
      ((clock, .joined claims.userId) :: log) := by
  obtain ⟨p, hp, hparticipants⟩ := @participantsAt_enter T _ clock clock room _ settings claims _
  have hmem : ∀ u, u ∈ (room.enter settings clock clock claims).participantsAt clock ↔
      u = claims.userId ∨ u ∈ room.participantsAt clock := by
    intro u
    rw [hparticipants, AList.mem_insert]
  have hexpiry : ∀ {α : Type} {empty : α} {f : α → α} (k : Expiring.Key T α),
      ((k.upsert clock empty f).expireIn clock (roomTtl settings)).RunsOut clock
        (clock + roomTtl settings) := fun k =>
    Expiring.Key.runsOut_expireIn (lt_roomTtl settings clock) Expiring.Key.present_upsert
  refine ⟨fun u q hq => ?_, fun u hu => ⟨clock, rfl, hexpiry _, hexpiry _⟩, fun u hu => ?_,
    fun u hu => ?_, fun u ha hc => ?_⟩
  · rw [hparticipants] at hq
    by_cases hu : u = claims.userId
    · subst hu
      rw [AList.lookup_insert] at hq
      cases hq
      exact hp
    · rw [AList.lookup_insert_ne hu] at hq
      exact h.own u q hq
  · rw [presenceAt_enter, lastBeat]
    by_cases hv : claims.userId = u
    · subst hv
      exact ⟨clock, if_pos rfl, AList.lookup_insert _⟩
    · rw [if_neg hv, AList.lookup_insert_ne (Ne.symm hv)]
      exact h.score u (((hmem u).mp hu).resolve_left (Ne.symm hv))
  · refine covered_iff_of_cons.mpr ⟨lt_roomTtl settings clock, ?_⟩
    exact ((hmem u).mp hu).imp Eq.symm (h.covered u)
  · rw [hmem]
    by_cases hv : claims.userId = u
    · exact .inl hv.symm
    · rw [attending, if_neg hv] at ha
      exact .inr (h.kept u ha ((covered_iff_of_cons.mp hc).2.resolve_left hv))

theorem Present.step {s s' : State T} {a : Action T} (h : Present settings s.clock s.room s.log)
    (hstep : s.step settings a = some s') : Present settings s'.clock s'.room s'.log := by
  cases a with
  | tick clock =>
      simp only [State.step] at hstep
      split at hstep
      · rename_i hle
        cases hstep
        exact h.tick hle
      · cases hstep
  | join claims =>
      simp only [State.step] at hstep
      rcases MeetingRoomRepository.join_cases settings s.clock claims s.room with hj | hj
      · rw [hj] at hstep
        cases hstep
        exact h.pruneStale
      · rw [hj] at hstep
        cases hstep
        exact (h.pruneStale.enter claims).snapshot
  | touch userId =>
      cases hstep
      exact h.touch userId
  | leave userId =>
      cases hstep
      exact h.leave userId
  | snapshot =>
      cases hstep
      exact h.snapshot
  | startTimer userId durationSeconds =>
      obtain ⟨-, hstep⟩ := Machine.guard_bind hstep
      cases hstep
      have htimer := h.withTimer (.putFor s.clock (durationSeconds + presenceTtl settings : T)
        ⟨userId, s.clock, s.clock + durationSeconds⟩)
      exact ⟨htimer.own, htimer.expiry, htimer.score, htimer.covered, htimer.kept⟩
  | cancelTimer =>
      cases hstep
      have htimer := h.withTimer none
      exact ⟨htimer.own, htimer.expiry, htimer.score, htimer.covered, htimer.kept⟩

/-- Every answer is a snapshot of a room with the log that the call leaves. -/
theorem answer_snapshot {s s' : State T} {a : Action T} {state : MeetingState T}
    (h : Present settings s.clock s.room s.log) (hstep : s.step settings a = some s')
    (hans : s.answer settings a = some state) : s'.clock = s.clock ∧
      ∃ room, Present settings s.clock room s'.log ∧
        state = (MeetingRoomRepository.snapshot s.clock room).1 := by
  cases a with
  | join claims =>
      simp only [State.step] at hstep
      simp only [State.answer] at hans
      rcases MeetingRoomRepository.join_cases settings s.clock claims s.room with hj | hj
      · rw [hj] at hans
        cases hans
      · rw [hj] at hans hstep
        cases hans
        cases hstep
        exact ⟨rfl, _, h.pruneStale.enter claims, rfl⟩
  | snapshot =>
      cases hans
      cases hstep
      exact ⟨rfl, _, h, rfl⟩
  | tick _ => cases hans
  | touch _ => cases hans
  | leave _ => cases hans
  | startTimer _ _ => cases hans
  | cancelTimer => cases hans

/-- Whoever keeps up the heartbeats is shown exactly as long as the joins of the room cover
them, and nobody is shown without a recent one. -/
theorem heartbeat_keeps {s s' : State T} {a : Action T} {state : MeetingState T}
    (h : Machine.Run (State.step settings) (fun _ _ => True) (start clock) s)
    (hstep : s.step settings a = some s') (hans : s.answer settings a = some state) :
    (∀ u, attending (presenceTtl settings) u s'.log s'.clock →
      (u ∈ state.participants.map MeetingParticipant.userId ↔
        covered (roomTtl settings) u s'.log s'.clock)) ∧
    ∀ u, (∀ t, lastBeat u s'.log = some t → t + presenceTtl settings ≤ s'.clock) →
      u ∉ state.participants.map MeetingParticipant.userId := by
  have hpresent : Present settings s.clock s.room s.log := by
    refine @Machine.Run.invariant _ _ _ _ _ _ (fun s => Present settings s.clock s.room s.log)
      (fun _ _ _ hi _ hs => hi.step hs) h ?_
    exact ⟨fun _ _ hp => (nomatch hp), fun u hu => absurd hu (AList.notMem_empty u),
      fun u hu => absurd hu (AList.notMem_empty u), fun u hu => absurd hu (AList.notMem_empty u),
      fun _ ha => by cases ha⟩
  obtain ⟨hclock, room, hroom, rfl⟩ := answer_snapshot hpresent hstep hans
  have hpruned := hroom.pruneStale
  rw [hclock]
  refine ⟨fun u ha => ?_, fun u hold hu => ?_⟩
  · rw [MeetingRoomRepository.mem_snapshot hpruned.own]
    exact ⟨hpruned.covered u, hpruned.kept u ha⟩
  · rw [MeetingRoomRepository.mem_snapshot hpruned.own] at hu
    obtain ⟨t, ht, hlt⟩ := hroom.beat_of_pruned hu
    exact absurd hlt (not_lt.mpr (hold t ht))

end

/-! ## A quiet room -/

def Sample.ada : MeetingTokenClaims := ⟨1, "Ada", "owner", true⟩

def Sample.ben : MeetingTokenClaims := ⟨2, "Ben", "member", false⟩

/-- Ada joins, and keeps up the heartbeats for 180 seconds. -/
def Sample.heartbeats : List (Action ℚ) :=
  [.join Sample.ada, .tick 40, .touch 1, .tick 80, .touch 1, .tick 120, .touch 1, .tick 160,
    .touch 1, .tick 180]

/-- The state after some calls, what a snapshot answers there, and what is left. -/
def Sample.snapshot (as : List (Action ℚ)) : Option (State ℚ × MeetingState ℚ × State ℚ) := do
  let s ← Machine.play (State.step .default) (fun _ _ => True) (start 0) as
  let state ← s.answer .default .snapshot
  let s' ← s.step .default .snapshot
  pure (s, state, s')

theorem Sample.of_snapshot {as : List (Action ℚ)} {s s' : State ℚ} {state : MeetingState ℚ}
    (h : Sample.snapshot as = some (s, state, s')) :
    Machine.Run (State.step .default) (fun _ _ => True) (start 0) s ∧
      s.answer .default .snapshot = some state ∧
      s.step .default .snapshot = some s' := by
  obtain ⟨s₁, hplay, h⟩ := Option.bind_eq_some_iff.mp h
  obtain ⟨state₁, hans, h⟩ := Option.bind_eq_some_iff.mp h
  obtain ⟨s₂, hstep, h⟩ := Option.bind_eq_some_iff.mp h
  cases h
  exact ⟨Machine.Run.of_play hplay, hans, hstep⟩

/-- Nobody joins for 180 seconds: Ada is gone, in spite of the heartbeats. -/
theorem heartbeats_lost : ∃ s s' : State ℚ, ∃ state,
    Machine.Run (State.step .default) (fun _ _ => True) (start 0) s ∧
    s.step .default .snapshot = some s' ∧
    s.answer .default .snapshot = some state ∧
    attending (Room.presenceTtl .default) 1 s'.log s'.clock ∧
    1 ∉ state.participants.map MeetingParticipant.userId := by
  obtain ⟨⟨s, state, s'⟩, hsample, hs⟩ := Option.map_eq_some_iff.mp
    (show (Sample.snapshot Sample.heartbeats).map (fun p =>
        (attending (Room.presenceTtl .default) 1 p.2.2.log p.2.2.clock,
          p.2.1.participants.map MeetingParticipant.userId)) = some (true, []) by decide +kernel)
  obtain ⟨hattending, hnobody⟩ := Prod.mk.inj hs
  obtain ⟨hrun, hans, hstep⟩ := Sample.of_snapshot hsample
  refine ⟨s, s', state, hrun, hstep, hans, hattending, ?_⟩
  rw [hnobody]
  exact List.not_mem_nil

/-- Ben joins in time: Ada is shown, and Ben, without a heartbeat, is not. -/
theorem heartbeat_keeps_sample : ∃ state : MeetingState ℚ,
    1 ∈ state.participants.map MeetingParticipant.userId ∧
    2 ∉ state.participants.map MeetingParticipant.userId := by
  obtain ⟨⟨s, state, s'⟩, hsample, hs⟩ := Option.map_eq_some_iff.mp
    (show (Sample.snapshot (Sample.heartbeats.take 5 ++ [.join Sample.ben] ++
        Sample.heartbeats.drop 5)).map (fun p =>
        (attending (Room.presenceTtl .default) 1 p.2.2.log p.2.2.clock,
          covered (Room.roomTtl .default) 1 p.2.2.log p.2.2.clock,
          lastBeat 2 p.2.2.log, p.2.2.clock)) = some (true, true, some 80, 180) by
      decide +kernel)
  simp only [Prod.mk.injEq] at hs
  obtain ⟨hattending, hcovered, hbeat, hclock⟩ := hs
  obtain ⟨hrun, hans, hstep⟩ := Sample.of_snapshot hsample
  have h := heartbeat_keeps hrun hstep hans
  refine ⟨state, (h.1 1 hattending).mpr hcovered, h.2 2 fun t ht => ?_⟩
  rw [hbeat] at ht
  cases ht
  rw [hclock]
  norm_num [Room.presenceTtl, MeetingSettings.default]

end Meeting

end ForkRoom
