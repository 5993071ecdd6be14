/-
# `Model.Meeting` — the Redis keys of a meeting room

`MeetingRoomRepository` of `app/repositories/meeting.py`, its commands and its calls,
on the keys of one room.

    participants   hash        user id ↦ participant
    presence       sorted set  user id, scored by the time until which it counts
    speakers       list        user ids
    timer          string      the timer

`join` sets the expiry of all four keys that are there to three times the presence
TTL; `touch` and `leave` set none, and `start_timer` sets that of the timer.  A
command runs at the time of the server, `clock`; the time that a call has read for
a score, `now`, may be earlier.
-/
import ForkRoom.Lib.Expiring
import ForkRoom.Lib.Rows
import ForkRoom.Model.Records
import Mathlib.Algebra.Order.Field.Basic

namespace ForkRoom

/-- The settings of `app/core/config.py` on meetings, within their bounds. -/
structure MeetingSettings where
  meetingPresenceTtlSeconds : Nat
  meetingMaxParticipants : Nat
  meetingMaxTimerSeconds : Nat
  presence_ge : 15 ≤ meetingPresenceTtlSeconds
  presence_le : meetingPresenceTtlSeconds ≤ 300
  participants_ge : 2 ≤ meetingMaxParticipants
  participants_le : meetingMaxParticipants ≤ 4
  timer_ge : 60 ≤ meetingMaxTimerSeconds
  timer_le : meetingMaxTimerSeconds ≤ 86400

/-- The settings where nothing else is configured. -/
def MeetingSettings.default : MeetingSettings :=
  ⟨60, 4, 7200, by decide, by decide, by decide, by decide, by decide, by decide⟩

/-- What a meeting token says about its user. -/
structure MeetingTokenClaims where
  userId : UUID
  displayName : String
  role : String
  canFacilitate : Bool
  deriving DecidableEq

structure MeetingParticipant (T : Type) where
  userId : UUID
  displayName : String
  role : String
  canFacilitate : Bool
  joinedAt : T
  deriving DecidableEq

structure MeetingTimer (T : Type) where
  startedBy : UUID
  startedAt : T
  endsAt : T
  deriving DecidableEq

structure MeetingState (T : Type) where
  participants : List (MeetingParticipant T)
  speakingQueue : List UUID
  timer : Option (MeetingTimer T)
  deriving DecidableEq

inductive MeetingError where
  | meetingRoomFull
  deriving DecidableEq, Repr

/-- The keys of a room. -/
structure Room (T : Type) where
  participants : Expiring.Key T (AList fun _ : UUID => MeetingParticipant T)
  presence : Expiring.Key T (AList fun _ : UUID => T)
  speakers : Expiring.Key T (List UUID)
  timer : Expiring.Key T (MeetingTimer T)

def Room.empty (T : Type) : Room T := ⟨none, none, none, none⟩

namespace Room

section
variable {T : Type} [LinearOrder T]

/-! ## What the keys hold -/

def participantsAt (clock : T) (room : Room T) : AList fun _ : UUID => MeetingParticipant T :=
  room.participants.contents clock ∅

def presenceAt (clock : T) (room : Room T) : AList fun _ : UUID => T :=
  room.presence.contents clock ∅

def speakersAt (clock : T) (room : Room T) : List UUID := room.speakers.contents clock []

/-! ## Commands -/

/-- `ZRANGEBYSCORE presence -inf now` -/
def stale (clock now : T) (room : Room T) : List UUID :=
  ((room.presenceAt clock).entries.filter fun entry => entry.2 ≤ now).map Sigma.fst

/-- The pipelines of `_prune_stale` and of `leave`. -/
def remove (clock : T) (userIds : List UUID) (room : Room T) : Room T :=
  { room with
    participants := room.participants.adjust clock (·.entries.isEmpty) (Expiring.eraseAll userIds)
    presence := room.presence.adjust clock (·.entries.isEmpty) (Expiring.eraseAll userIds)
    speakers := room.speakers.adjust clock List.isEmpty (·.filter (· ∉ userIds)) }

/-- `LPOS`, which finds the user or not. -/
def isQueued (clock : T) (userId : UUID) (room : Room T) : Bool := userId ∈ room.speakersAt clock

/-- `RPUSH` -/
def push (clock : T) (userId : UUID) (room : Room T) : Room T :=
  { room with speakers := room.speakers.upsert clock [] (· ++ [userId]) }

/-- `LREM speakers 0` -/
def unqueue (clock : T) (userId : UUID) (room : Room T) : Room T :=
  { room with speakers := room.speakers.adjust clock List.isEmpty (·.filter (· ≠ userId)) }

section
variable [Field T]

def presenceTtl (settings : MeetingSettings) : T := settings.meetingPresenceTtlSeconds

/-- The `EXPIRE` of a join. -/
def roomTtl (settings : MeetingSettings) : T := (settings.meetingPresenceTtlSeconds * 3 : Nat)

/-- The pipeline of `join`. -/
def enter (settings : MeetingSettings) (clock now : T) (claims : MeetingTokenClaims)
    (room : Room T) : Room T :=
  let participant : MeetingParticipant T :=
    { userId := claims.userId
      displayName := claims.displayName
      role := claims.role
      canFacilitate := claims.canFacilitate
      joinedAt := now }
  { participants :=
      (room.participants.upsert clock ∅ (AList.insert claims.userId participant)).expireIn clock
        (roomTtl settings)
    presence :=
      (room.presence.upsert clock ∅
        (AList.insert claims.userId (now + presenceTtl settings))).expireIn clock
          (roomTtl settings)
    speakers := room.speakers.expireIn clock (roomTtl settings)
    timer := room.timer.expireIn clock (roomTtl settings) }

/-- `ZADD` -/
def touch (settings : MeetingSettings) (clock now : T) (userId : UUID) (room : Room T) : Room T :=
  { room with
    presence := room.presence.upsert clock ∅ (AList.insert userId (now + presenceTtl settings)) }

end

end

end Room

/-! ## What the commands leave -/

namespace Room

section
variable {T : Type} [LinearOrder T] {clock now : T} {room : Room T} {userIds : List UUID}
  {u v : UUID}

theorem participantsAt_remove : (room.remove clock userIds).participantsAt clock =
    Expiring.eraseAll userIds (room.participantsAt clock) :=
  Expiring.Key.contents_adjust (fun _ h => Expiring.eq_empty_of_isEmpty h)
    (Expiring.eraseAll_empty userIds)

theorem presenceAt_remove : (room.remove clock userIds).presenceAt clock =
    Expiring.eraseAll userIds (room.presenceAt clock) :=
  Expiring.Key.contents_adjust (fun _ h => Expiring.eq_empty_of_isEmpty h)
    (Expiring.eraseAll_empty userIds)

theorem speakersAt_remove : (room.remove clock userIds).speakersAt clock =
    (room.speakersAt clock).filter (· ∉ userIds) :=
  Expiring.Key.contents_adjust (fun _ h => List.isEmpty_iff.mp h) rfl

theorem speakersAt_push :
    (room.push clock u).speakersAt clock = room.speakersAt clock ++ [u] := by
  have h : (room.speakers.upsert clock [] (· ++ [u])).contents clock [] =
      room.speakers.contents clock [] ++ [u] := by
    rw [Expiring.Key.contents_upsert]
  exact h

theorem speakersAt_unqueue :
    (room.unqueue clock u).speakersAt clock = (room.speakersAt clock).filter (· ≠ u) :=
  Expiring.Key.contents_adjust (fun _ h => List.isEmpty_iff.mp h) rfl

/-- The stale users are those whose score has come. -/
theorem mem_stale : u ∈ room.stale clock now ↔
    ∃ score, (room.presenceAt clock).lookup u = some score ∧ score ≤ now := by
  rw [stale, List.mem_map]
  constructor
  · rintro ⟨⟨v, score⟩, hm, rfl⟩
    obtain ⟨hm, hle⟩ := List.mem_filter.mp hm
    exact ⟨score, AList.mem_lookup_iff.mpr hm, of_decide_eq_true hle⟩
  · rintro ⟨score, hlookup, hle⟩
    exact ⟨⟨u, score⟩, List.mem_filter.mpr ⟨AList.mem_lookup_iff.mp hlookup,
      decide_eq_true hle⟩, rfl⟩

section
variable [Field T] {settings : MeetingSettings} {claims : MeetingTokenClaims}

theorem presenceAt_touch : (room.touch settings clock now u).presenceAt clock =
    (room.presenceAt clock).insert u (now + presenceTtl settings) :=
  Expiring.Key.contents_upsert

variable [IsStrictOrderedRing T]

theorem roomTtl_pos (settings : MeetingSettings) : (0 : T) < roomTtl settings := by
  have hpos : 0 < settings.meetingPresenceTtlSeconds * 3 := by
    have := settings.presence_ge
    omega
  exact Nat.cast_pos.mpr hpos

theorem presenceTtl_pos (settings : MeetingSettings) : (0 : T) < presenceTtl settings := by
  have hpos : 0 < settings.meetingPresenceTtlSeconds := by
    have := settings.presence_ge
    omega
  exact Nat.cast_pos.mpr hpos

theorem lt_roomTtl (settings : MeetingSettings) (clock : T) : clock < clock + roomTtl settings :=
  lt_add_of_pos_right clock (roomTtl_pos settings)

/-- The participant of a join. -/
theorem participantsAt_enter : ∃ p : MeetingParticipant T, p.userId = claims.userId ∧
    (room.enter settings clock now claims).participantsAt clock =
      (room.participantsAt clock).insert claims.userId p :=
  ⟨_, rfl, (Expiring.Key.contents_expireIn (lt_roomTtl settings clock)).trans
    Expiring.Key.contents_upsert⟩

theorem presenceAt_enter : (room.enter settings clock now claims).presenceAt clock =
    (room.presenceAt clock).insert claims.userId (now + presenceTtl settings) :=
  (Expiring.Key.contents_expireIn (lt_roomTtl settings clock)).trans Expiring.Key.contents_upsert

theorem speakersAt_enter :
    (room.enter settings clock now claims).speakersAt clock = room.speakersAt clock :=
  Expiring.Key.contents_expireIn (lt_roomTtl settings clock)

end

end

end Room

/-! ## Calls -/

namespace MeetingRoomRepository

open Room

section
variable {T : Type} [LinearOrder T]

def pruneStale (clock : T) (room : Room T) : Room T :=
  let stale := room.stale clock clock
  if stale = [] then room else room.remove clock stale

def leave (clock : T) (userId : UUID) (room : Room T) : Room T := room.remove clock [userId]

def cancelTimer (room : Room T) : Room T := { room with timer := none }

def snapshot (clock : T) (room : Room T) : MeetingState T × Room T :=
  let room := pruneStale clock room
  let participants := Rows.orderBy (fun p q => p.joinedAt ≤ q.joinedAt)
    ((room.participantsAt clock).entries.map Sigma.snd)
  let (timer, room) :=
    match room.timer.read clock with
    | none => (none, room)
    | some timer =>
        if timer.endsAt ≤ clock then (none, cancelTimer room) else (some timer, room)
  (⟨participants, room.speakersAt clock, timer⟩, room)

section
variable [Field T]

/-- `join`, when the lock is free. -/
def join (settings : MeetingSettings) (clock : T) (claims : MeetingTokenClaims) (room : Room T) :
    Except MeetingError (MeetingState T) × Room T :=
  let room := pruneStale clock room
  let existing := decide (claims.userId ∈ room.participantsAt clock)
  let participantCount := (room.participantsAt clock).entries.length
  if ¬ existing ∧ participantCount ≥ settings.meetingMaxParticipants then
    (.error .meetingRoomFull, room)
  else
    let (state, room) := snapshot clock (enter settings clock clock claims room)
    (.ok state, room)

def startTimer (settings : MeetingSettings) (clock : T) (userId : UUID) (durationSeconds : Nat)
    (room : Room T) : MeetingTimer T × Room T :=
  let timer : MeetingTimer T := ⟨userId, clock, clock + durationSeconds⟩
  (timer, { room with
    timer := .putFor clock (durationSeconds + presenceTtl settings : T) timer })

end

end

/-! ## What a snapshot shows -/

section
variable {T : Type} [LinearOrder T] {clock : T} {room : Room T}

theorem timer_pruneStale : (pruneStale clock room).timer = room.timer := by
  simp only [pruneStale]
  split <;> rfl

theorem snapshot_participants : (snapshot clock room).1.participants =
    Rows.orderBy (fun p q => p.joinedAt ≤ q.joinedAt)
      (((pruneStale clock room).participantsAt clock).entries.map Sigma.snd) := by
  simp only [snapshot]

/-- The timer is shown until it ends. -/
theorem snapshot_timer : (snapshot clock room).1.timer =
    ((pruneStale clock room).timer.read clock).filter fun timer => clock < timer.endsAt := by
  simp only [snapshot]
  cases h : (pruneStale clock room).timer.read clock with
  | none => rfl
  | some timer =>
      simp only [Option.filter_some]
      by_cases hle : timer.endsAt ≤ clock
      · rw [if_pos hle, if_neg (by simpa using hle)]
      · rw [if_neg hle, if_pos (by simpa using hle)]

/-- Only the timer can change once the stale users are gone. -/
theorem snapshot_room : (snapshot clock room).2 = pruneStale clock room ∨
    ((snapshot clock room).2 = cancelTimer (pruneStale clock room) ∧
      ∃ timer, (pruneStale clock room).timer.read clock = some timer ∧ timer.endsAt ≤ clock) := by
  simp only [snapshot]
  split
  · exact .inl rfl
  · rename_i timer hread
    split
    · rename_i hle
      exact .inr ⟨rfl, timer, hread, hle⟩
    · exact .inl rfl

/-- The users shown are those in the room. -/
theorem mem_snapshot {u : UUID} (hown : ∀ u p,
      ((pruneStale clock room).participantsAt clock).lookup u = some p → p.userId = u) :
    u ∈ (snapshot clock room).1.participants.map MeetingParticipant.userId ↔
      u ∈ (pruneStale clock room).participantsAt clock := by
  rw [snapshot_participants, List.mem_map]
  constructor
  · rintro ⟨p, hp, rfl⟩
    obtain ⟨⟨v, q⟩, hm, rfl⟩ := List.mem_map.mp (Rows.mem_orderBy.mp hp)
    have hlookup := AList.mem_lookup_iff.mpr hm
    rw [hown v q hlookup]
    exact AList.lookup_isSome.mp (hlookup ▸ rfl)
  · intro hu
    obtain ⟨p, hp⟩ := Option.isSome_iff_exists.mp (AList.lookup_isSome.mpr hu)
    exact ⟨p, Rows.mem_orderBy.mpr (List.mem_map.mpr ⟨_, AList.mem_lookup_iff.mp hp, rfl⟩),
      hown u p hp⟩

end

/-- A join finds the room full, or enters it and shows it. -/
theorem join_cases {T : Type} [LinearOrder T] [Field T] (settings : MeetingSettings) (clock : T)
    (claims : MeetingTokenClaims) (room : Room T) :
    join settings clock claims room = (.error .meetingRoomFull, pruneStale clock room) ∨
    join settings clock claims room =
      (.ok (snapshot clock ((pruneStale clock room).enter settings clock clock claims)).1,
        (snapshot clock ((pruneStale clock room).enter settings clock clock claims)).2) := by
  simp only [join]
  split
  · exact .inl rfl
  · exact .inr rfl

end MeetingRoomRepository

end ForkRoom
