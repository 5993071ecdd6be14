/-
# `System.Connections` — the connections of a room, command by command

Every WebSocket connection runs `join` when it opens, then serves one event after the
other, and runs `leave` when it ends.  Each Redis command and each pipeline is one
step, so that the commands of any number of connections may alternate; a user may
have several connections.

    join            acquire the lock, prune, HEXISTS, HLEN, pipeline, release, snapshot
    prune           ZRANGEBYSCORE, and a pipeline if there is anybody stale
    snapshot        prune; its other commands read
    heartbeat       ZADD
    speaker.join    LPOS, and RPUSH if the user is not queued
    speaker.leave   LREM
    leave           pipeline

The lock is a key with the name of its holder, for five seconds at most.  Whoever does
not get it is turned away; a holder who has lost it fails at the release.  `pushes` are
the users of the `RPUSH`es, the last first.
-/
import ForkRoom.Lib.Machine
import ForkRoom.Model.Meeting

namespace ForkRoom

namespace Connections

/-! ## States -/

/-- The next command of a connection. -/
inductive Phase where
  | locking
  | pruning (joining : Bool)
  | removing (joining : Bool) (stale : List UUID)
  | checking
  | counting (existing : Bool)
  | entering
  | releasing (entered : Bool)
  | idle
  | touching
  | asking
  | queueing
  | unqueueing
  | leaving
  | closed
  deriving DecidableEq

/-- The connection has entered the room, and has not left it. -/
def Phase.isIn : Phase → Bool
  | .locking | .pruning true | .removing true _ | .checking | .counting _ | .entering
  | .releasing false | .closed => false
  | .pruning false | .removing false _ | .releasing true | .idle | .touching | .asking
  | .queueing | .unqueueing | .leaving => true

structure Connection where
  claims : MeetingTokenClaims
  phase : Phase
  deriving DecidableEq

def Connection.userId (c : Connection) : UUID := c.claims.userId

structure State (T : Type) where
  clock : T
  room : Room T
  lock : Expiring.Key T Nat
  connections : List Connection
  pushes : List UUID

def start {T : Type} (clock : T) : State T := ⟨clock, .empty T, none, [], []⟩

/-- What a client sends, or its going away. -/
inductive Event where
  | heartbeat | speakerJoin | speakerLeave | snapshot | disconnect
  deriving DecidableEq

inductive Action (T : Type) where
  | tick (clock : T)
  | connect (claims : MeetingTokenClaims)
  | receive (i : Nat) (event : Event)
  | advance (i : Nat) (now : T)
  | turnAway (i : Nat)
  | abort (i : Nat)

/-! ## Steps -/

section
variable {T : Type}

/-- The connection goes on to another phase. -/
def State.goOn (s : State T) (i : Nat) (c : Connection) (phase : Phase) : State T :=
  { s with connections := s.connections.set i { c with phase := phase } }

/-- Where a prune goes on. -/
def afterPrune (joining : Bool) : Phase := if joining then .checking else .idle

/-- `_handle_client_event`: a viewer does not queue. -/
def Event.phase (claims : MeetingTokenClaims) : Event → Phase
  | .heartbeat => .touching
  | .speakerJoin => if claims.role = "viewer" then .idle else .asking
  | .speakerLeave => .unqueueing
  | .snapshot => .pruning false
  | .disconnect => .leaving

variable [Field T] [LinearOrder T]

open Room in
/-- The next command of the `i`-th connection, with the time it has read. -/
def advance (settings : MeetingSettings) (s : State T) (i : Nat) (now : T) :
    Option (State T) := do
  guard (now ≤ s.clock)
  let c ← s.connections[i]?
  match c.phase with
  | .locking => do
      guard (s.lock.present s.clock = false)
      pure ({ s with lock := .putFor s.clock 5 i }.goOn i c (.pruning true))
  | .pruning joining =>
      let stale := s.room.stale s.clock now
      pure (s.goOn i c (if stale = [] then afterPrune joining else .removing joining stale))
  | .removing joining stale =>
      pure ({ s with room := s.room.remove s.clock stale }.goOn i c (afterPrune joining))
  | .checking =>
      pure (s.goOn i c (.counting (c.userId ∈ s.room.participantsAt s.clock)))
  | .counting existing =>
      let participantCount := (s.room.participantsAt s.clock).entries.length
      pure (s.goOn i c (if ¬ existing ∧ participantCount ≥ settings.meetingMaxParticipants then
        .releasing false else .entering))
  | .entering =>
      pure ({ s with room := s.room.enter settings s.clock now c.claims }.goOn i c
        (.releasing true))
  | .releasing entered =>
      if s.lock.read s.clock = some i then
        pure ({ s with lock := none }.goOn i c (if entered then .pruning false else .closed))
      else pure (s.goOn i c .closed)
  | .touching =>
      pure ({ s with room := s.room.touch settings s.clock now c.userId }.goOn i c .idle)
  | .asking =>
      pure (s.goOn i c (if s.room.isQueued s.clock c.userId then .idle else .queueing))
  | .queueing =>
      let s' := { s with pushes := c.userId :: s.pushes }
      pure ({ s' with room := s.room.push s.clock c.userId }.goOn i c .idle)
  | .unqueueing =>
      pure ({ s with room := s.room.unqueue s.clock c.userId }.goOn i c .idle)
  | .leaving =>
      pure ({ s with room := s.room.remove s.clock [c.userId] }.goOn i c .closed)
  | .idle | .closed => none

def State.step (settings : MeetingSettings) (s : State T) : Action T → Option (State T)
  | .tick clock => if s.clock ≤ clock then some { s with clock := clock } else none
  | .connect claims => some { s with connections := s.connections ++ [⟨claims, .locking⟩] }
  | .receive i event => do
      let c ← s.connections[i]?
      guard (c.phase = .idle)
      pure (s.goOn i c (event.phase c.claims))
  | .advance i now => advance settings s i now
  | .turnAway i => do
      let c ← s.connections[i]?
      guard (c.phase = .locking)
      pure (s.goOn i c .closed)
  | .abort i => (s.connections[i]?).map fun c => s.goOn i c .closed

end

/-! ## What one step can do -/

section
variable {T : Type} [Field T] [LinearOrder T] {settings : MeetingSettings} {s s' : State T}

open Room

/-- What a connection knows in a phase it goes on to, the room being as it was. -/
def Knows (settings : MeetingSettings) (s : State T) (c : Connection) : Phase → Prop
  | .removing _ stale => stale ≠ [] ∧ ∃ now ≤ s.clock, stale = s.room.stale s.clock now
  | .counting existing => existing → c.userId ∈ s.room.participantsAt s.clock
  | .entering => ∃ existing, c.phase = .counting existing ∧ (existing ∨
      (s.room.participantsAt s.clock).entries.length < settings.meetingMaxParticipants)
  | _ => True

inductive Steps (settings : MeetingSettings) (s : State T) : Action T → State T → Prop
  | tick {clock : T} : s.clock ≤ clock → Steps settings s (.tick clock) { s with clock := clock }
  | connected {a : Action T} {claims : MeetingTokenClaims} : Steps settings s a
      { s with connections := s.connections ++ [⟨claims, .locking⟩] }
  /-- nothing but the phase changes -/
  | moved {a : Action T} {i : Nat} {c : Connection} {phase : Phase} :
      s.connections[i]? = some c → (phase.isIn → c.phase.isIn) → Knows settings s c phase →
      Steps settings s a (s.goOn i c phase)
  | locked {i : Nat} {now : T} {c : Connection} : s.connections[i]? = some c →
      c.phase = .locking → s.lock.read s.clock = none → Steps settings s (.advance i now)
        (State.goOn { s with lock := .putFor s.clock 5 i } i c (.pruning true))
  | unlocked {i : Nat} {now : T} {c : Connection} {entered : Bool} :
      s.connections[i]? = some c → c.phase = .releasing entered →
      Steps settings s (.advance i now) (State.goOn { s with lock := none } i c
        (if entered then .pruning false else .closed))
  | removed {i : Nat} {now : T} {c : Connection} {joining : Bool} {stale : List UUID} :
      s.connections[i]? = some c → c.phase = .removing joining stale →
      Steps settings s (.advance i now)
        (State.goOn { s with room := s.room.remove s.clock stale } i c (afterPrune joining))
  | entered {i : Nat} {now : T} {c : Connection} : s.connections[i]? = some c →
      c.phase = .entering → now ≤ s.clock → Steps settings s (.advance i now)
        (State.goOn { s with room := s.room.enter settings s.clock now c.claims } i c
          (.releasing true))
  | touched {i : Nat} {now : T} {c : Connection} : s.connections[i]? = some c →
      c.phase = .touching → now ≤ s.clock → Steps settings s (.advance i now)
        (State.goOn { s with room := s.room.touch settings s.clock now c.userId } i c .idle)
  | pushed {i : Nat} {now : T} {c : Connection} : s.connections[i]? = some c →
      c.phase = .queueing → Steps settings s (.advance i now)
        (State.goOn { s with
          room := s.room.push s.clock c.userId
          pushes := c.userId :: s.pushes } i c .idle)
  | unqueued {i : Nat} {now : T} {c : Connection} : s.connections[i]? = some c →
      c.phase = .unqueueing → Steps settings s (.advance i now)
        (State.goOn { s with room := s.room.unqueue s.clock c.userId } i c .idle)
  | left {i : Nat} {now : T} {c : Connection} : s.connections[i]? = some c →
      c.phase = .leaving → Steps settings s (.advance i now)
        (State.goOn { s with room := s.room.remove s.clock [c.userId] } i c .closed)

theorem isIn_afterPrune {joining : Bool} {stale : List UUID} :
    (afterPrune joining).isIn = (Phase.removing joining stale).isIn := by
  cases joining <;> rfl

theorem advance_cases {i : Nat} {now : T} (h : advance settings s i now = some s') :
    Steps settings s (.advance i now) s' := by
  obtain ⟨hnow, h⟩ := Machine.guard_bind h
  obtain ⟨c, hi, h⟩ := Option.bind_eq_some_iff.mp h
  split at h
  · rename_i hphase
    obtain ⟨hfree, h⟩ := Machine.guard_bind h
    cases h
    refine .locked hi hphase ?_
    rw [Expiring.Key.present] at hfree
    exact Option.isNone_iff_eq_none.mp (by rw [← Option.not_isSome, hfree]; rfl)
  · rename_i joining hphase
    cases h
    have hin : (Phase.pruning joining).isIn = (afterPrune joining).isIn := by
      cases joining <;> rfl
    by_cases hstale : s.room.stale s.clock now = []
    · rw [if_pos hstale]
      refine .moved hi (fun h => by rw [hphase, hin]; exact h) ?_
      cases joining <;> trivial
    · rw [if_neg hstale]
      refine .moved hi (fun h => ?_) ⟨hstale, now, hnow, rfl⟩
      rw [hphase, hin, isIn_afterPrune]
      exact h
  · rename_i hphase
    cases h
    exact .removed hi hphase
  · cases h
    exact .moved hi (fun h => by cases h) of_decide_eq_true
  · rename_i existing hphase
    cases h
    split
    · exact .moved hi (fun h => by cases h) trivial
    · rename_i hadmit
      refine .moved hi (fun h => by cases h) ⟨existing, hphase, ?_⟩
      by_cases he : existing
      · exact .inl he
      · exact .inr (not_le.mp fun hfull => hadmit ⟨he, hfull⟩)
  · rename_i hphase
    cases h
    exact .entered hi hphase hnow
  · rename_i hphase
    split at h
    · cases h
      exact .unlocked hi hphase
    · cases h
      exact .moved hi (fun h => by cases h) trivial
  · rename_i hphase
    cases h
    exact .touched hi hphase hnow
  · rename_i hphase
    cases h
    refine .moved hi (fun _ => by rw [hphase]; rfl) ?_
    split <;> trivial
  · rename_i hphase
    cases h
    exact .pushed hi hphase
  · rename_i hphase
    cases h
    exact .unqueued hi hphase
  · rename_i hphase
    cases h
    exact .left hi hphase
  · cases h
  · cases h

theorem State.step_cases {a : Action T} (h : s.step settings a = some s') :
    Steps settings s a s' := by
  cases a with
  | tick clock =>
      simp only [State.step] at h
      split at h
      · rename_i hle
        cases h
        exact .tick hle
      · cases h
  | connect claims =>
      cases h
      exact .connected
  | receive i event =>
      obtain ⟨c, hi, h⟩ := Option.bind_eq_some_iff.mp h
      obtain ⟨hidle, h⟩ := Machine.guard_bind h
      cases h
      refine .moved hi (fun _ => by rw [hidle]; rfl) ?_
      cases event with
      | speakerJoin =>
          simp only [Event.phase]
          split <;> trivial
      | heartbeat => trivial
      | speakerLeave => trivial
      | snapshot => trivial
      | disconnect => trivial
  | advance i now => exact advance_cases h
  | turnAway i =>
      obtain ⟨c, hi, h⟩ := Option.bind_eq_some_iff.mp h
      obtain ⟨-, h⟩ := Machine.guard_bind h
      cases h
      exact .moved hi (fun h => by cases h) trivial
  | abort i =>
      obtain ⟨c, hi, h⟩ := Option.map_eq_some_iff.mp h
      cases h
      exact .moved hi (fun h => by cases h) trivial

end

end Connections

end ForkRoom
