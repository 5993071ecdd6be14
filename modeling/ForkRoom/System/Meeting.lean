/-
# `System.Meeting` — a meeting over time

The calls on one room, one after the other, at the time on the clock, and the log of
what they did, the last first.  What a participant or a timer is owed is read off
the log:

    attending u      u has joined, has not left, and no gap between the joins and
                     heartbeats of u since, and now, is as long as the presence TTL
    covered u        since u has joined, no gap between the joins of the room, and
                     now, is as long as the expiry of its keys
    runningTimer     the timer started last, if it was not cancelled
    timerCovered     as `covered`, since the timer was started and somebody joined
-/
import ForkRoom.Lib.Machine
import ForkRoom.Model.Meeting

namespace ForkRoom

namespace Meeting

/-! ## The log -/

inductive Event (T : Type) where
  | joined (userId : UUID)
  | touched (userId : UUID)
  | left (userId : UUID)
  | timerStarted (timer : MeetingTimer T)
  | timerCancelled
  deriving DecidableEq

abbrev Log (T : Type) := List (T × Event T)

section
variable {T : Type}

/-- The time of the last join or heartbeat of a user. -/
def lastBeat (u : UUID) : Log T → Option T
  | [] => none
  | (t, .joined v) :: log | (t, .touched v) :: log => if v = u then some t else lastBeat u log
  | (_, .left _) :: log | (_, .timerStarted _) :: log | (_, .timerCancelled) :: log =>
      lastBeat u log

/-- The time of the last join. -/
def lastJoin : Log T → Option T
  | [] => none
  | (t, .joined _) :: _ => some t
  | (_, .touched _) :: log | (_, .left _) :: log | (_, .timerStarted _) :: log
  | (_, .timerCancelled) :: log => lastJoin log

def runningTimer : Log T → Option (MeetingTimer T)
  | [] | (_, .timerCancelled) :: _ => none
  | (_, .timerStarted timer) :: _ => some timer
  | (_, .joined _) :: log | (_, .touched _) :: log | (_, .left _) :: log => runningTimer log

variable [LinearOrder T] [Add T]

def attending (ttl : T) (u : UUID) : Log T → T → Bool
  | [], _ => false
  | (t, .joined v) :: log, now => if v = u then now < t + ttl else attending ttl u log now
  | (t, .touched v) :: log, now =>
      if v = u then now < t + ttl && attending ttl u log t else attending ttl u log now
  | (_, .left v) :: log, now => if v = u then false else attending ttl u log now
  | (_, .timerStarted _) :: log, now | (_, .timerCancelled) :: log, now => attending ttl u log now

def covered (ttl : T) (u : UUID) : Log T → T → Bool
  | [], _ => false
  | (t, .joined v) :: log, now => now < t + ttl && (v = u || covered ttl u log t)
  | (_, .touched _) :: log, now | (_, .left _) :: log, now | (_, .timerStarted _) :: log, now
  | (_, .timerCancelled) :: log, now => covered ttl u log now

def timerCovered (ttl : T) : Log T → T → Bool
  | [], _ | (_, .timerCancelled) :: _, _ => false
  | (_, .timerStarted _) :: _, _ => true
  | (t, .joined _) :: log, now => now < t + ttl && timerCovered ttl log t
  | (_, .touched _) :: log, now | (_, .left _) :: log, now => timerCovered ttl log now

end

/-! ## Calls -/

structure State (T : Type) where
  clock : T
  room : Room T
  log : Log T

def start {T : Type} (clock : T) : State T := ⟨clock, .empty T, []⟩

inductive Action (T : Type) where
  | tick (clock : T)
  | join (claims : MeetingTokenClaims)
  | touch (userId : UUID)
  | leave (userId : UUID)
  | snapshot
  | startTimer (userId : UUID) (durationSeconds : Nat)
  | cancelTimer

section
variable {T : Type} [Field T] [LinearOrder T]

/-- The call has changed the room so. -/
def State.record (s : State T) (room : Room T) (event : Event T) : State T :=
  { s with room := room, log := (s.clock, event) :: s.log }

open MeetingRoomRepository in
def State.step (settings : MeetingSettings) (s : State T) : Action T → Option (State T)
  | .tick clock => if s.clock ≤ clock then some { s with clock := clock } else none
  | .join claims =>
      match join settings s.clock claims s.room with
      | (.ok _, room) => some (s.record room (.joined claims.userId))
      | (.error _, room) => some { s with room := room }
  | .touch userId =>
      some (s.record (s.room.touch settings s.clock s.clock userId) (.touched userId))
  | .leave userId => some (s.record (leave s.clock userId s.room) (.left userId))
  | .snapshot => some { s with room := (snapshot s.clock s.room).2 }
  | .startTimer userId durationSeconds => do
      guard (1 ≤ durationSeconds ∧ durationSeconds ≤ settings.meetingMaxTimerSeconds)
      let (timer, room) := startTimer settings s.clock userId durationSeconds s.room
      pure (s.record room (.timerStarted timer))
  | .cancelTimer => some (s.record (cancelTimer s.room) .timerCancelled)

open MeetingRoomRepository in
/-- The state of the room that a call answers. -/
def State.answer (settings : MeetingSettings) (s : State T) : Action T → Option (MeetingState T)
  | .join claims => (join settings s.clock claims s.room).1.toOption
  | .snapshot => some (snapshot s.clock s.room).1
  | .tick _ | .touch _ | .leave _ | .startTimer .. | .cancelTimer => none

end

end Meeting

end ForkRoom
