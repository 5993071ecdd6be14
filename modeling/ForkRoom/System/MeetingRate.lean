/-
# `System.MeetingRate` — the event counters of a meeting room

`allow_event` of `app/repositories/meeting.py`: a counter for each user and each ten
seconds of the clock, that a first `INCR` makes and an `EXPIRE` of 12 seconds follows.

The connections of a room, of one process or of several, take turns between any two
commands: an event finds its counter and its answer in one step, and the `EXPIRE` that
the first event of a counter owes comes at any time after.  The log has the answers, the
last first.  A time is in seconds since the epoch, where the clock starts.
-/
import ForkRoom.Lib.Expiring
import ForkRoom.Lib.Machine
import ForkRoom.Lib.Windows
import ForkRoom.Model.Records
import Mathlib.Algebra.Order.Floor.Ring
import Mathlib.Data.Rat.Floor

namespace ForkRoom

namespace MeetingRate

/-- A user and a bucket: the key `{prefix}:rate:{user_id}:{bucket}`. -/
abbrev RateKey := UUID × ℤ

section
variable {T : Type} [Field T] [LinearOrder T] [FloorRing T]

/-- `int(timestamp) // 10`.  A timestamp is not negative, so that `int` is its floor. -/
def bucket (timestamp : T) : ℤ := ⌊timestamp⌋ / 10

/-- `INCR` -/
def incr (clock : T) (counter : Expiring.Key T ℕ) : Expiring.Key T ℕ :=
  counter.upsert clock 0 (· + 1)

structure Answer (T : Type) where
  time : T
  userId : UUID
  allowed : Bool
  deriving DecidableEq

structure State (T : Type) where
  clock : T
  counters : RateKey → Expiring.Key T ℕ
  /-- The counters that an event has found at one, and whose `EXPIRE` is still to come. -/
  unexpiring : List RateKey
  log : List (Answer T)

def start : State T := ⟨0, fun _ => none, [], []⟩

inductive Action (T : Type) where
  | tick (clock : T)
  | allowEvent (userId : UUID)
  | expire (key : RateKey)

def State.step (s : State T) : Action T → Option (State T)
  | .tick clock => if s.clock ≤ clock then some { s with clock := clock } else none
  | .allowEvent userId =>
      let key := (userId, bucket s.clock)
      let counter := incr s.clock (s.counters key)
      let count := counter.contents s.clock 0
      some { s with
        counters := Function.update s.counters key counter
        unexpiring := if count = 1 then key :: s.unexpiring else s.unexpiring
        log := ⟨s.clock, userId, count ≤ 60⟩ :: s.log }
  | .expire key => do
      guard (key ∈ s.unexpiring)
      pure { s with
        counters := Function.update s.counters key ((s.counters key).expireIn s.clock 12)
        unexpiring := s.unexpiring.erase key }

/-- The events of a user, the last first. -/
def arrivals (userId : UUID) (log : List (Answer T)) : List T :=
  (log.filter (·.userId = userId)).map Answer.time

/-- The events of a user with their answers. -/
def answers (userId : UUID) (log : List (Answer T)) : List (T × Bool) :=
  (log.filter (·.userId = userId)).map fun answer => (answer.time, answer.allowed)

/-- What can happen to the counters, in any order. -/
abbrev Run (s s' : State T) : Prop := Machine.Run State.step (fun _ _ => True) s s'

end

end MeetingRate

end ForkRoom
