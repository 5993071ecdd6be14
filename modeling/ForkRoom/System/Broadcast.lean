/-
# `System.Broadcast` — the events of the meetings

`issue_meeting_token` and `decision_meeting_websocket` of `app/routes/v1/meetings.py`,
beside the operations of the workspace.

    issue_token     three reads, then the token is signed
    connect         origin, token and its scope are checked
    joined          `join` has come back: `meeting.ready`, and the relay task is created
    subscribe       the relay subscribes to the channel of its room
    deliver         the relay takes the next message, and sends it or passes it over
    receive         a client event; its size, its rate and its shape are checked
    advance         the next command of the connection

A message that is published goes to the relays that listen to its channel at that
moment.  Any connection may be cut off at any time.  A token that verifies is one of
those that have been signed.  What `join` and `allow_event` answer comes from outside
(`System.Connections` and `System.MeetingRate` have them), and the keys of a room may
change between any two steps.  `published` has all messages of all channels.
-/
import ForkRoom.Lib.Machine
import ForkRoom.Model.Keys
import ForkRoom.Service.Meeting
import ForkRoom.System.Operations
import Mathlib.Algebra.Order.Floor.Ring

namespace ForkRoom

namespace Broadcast

/-! ## Settings and tokens -/

/-- The settings on meetings, with those of the token and the socket. -/
structure Settings extends MeetingSettings where
  meetingTokenExpireMinutes : ℕ
  meetingAllowedOrigins : List String
  expire_pos : 0 < meetingTokenExpireMinutes
  expire_le : meetingTokenExpireMinutes ≤ 15

structure Deployment where
  settings : Settings
  database : ForkRoom.Deployment
  /-- how Pydantic reads a `UUID` -/
  readUuid : String → Option UUID

/-- The payload of a meeting token; `exp` in whole seconds. -/
structure MeetingToken where
  claims : MeetingTokenClaims
  workspaceId : UUID
  decisionId : UUID
  exp : ℤ
  deriving DecidableEq

/-! ## Events -/

structure Sender where
  userId : String
  displayName : String
  role : String
  deriving DecidableEq

/-- The payload of an event. -/
inductive Payload (T : Type) where
  | object (fields : List (String × Json))
  | timer (timer : MeetingTimer T)
  | state (state : MeetingState T)

structure Envelope (T : Type) where
  type : String
  sender : Sender
  targetUserId : Option String
  payload : Payload T
  occurredAt : T

section
variable {T : Type}

/-- `_event_envelope`, at the time `now`. -/
def eventEnvelope (type : String) (claims : MeetingTokenClaims) (payload : Payload T)
    (targetUserId : Option UUID) (now : T) : Envelope T :=
  { type := type
    sender := ⟨claims.userId.str, claims.displayName, claims.role⟩
    targetUserId := targetUserId.map UUID.str
    payload := payload
    occurredAt := now }

def presence (type : String) (claims : MeetingTokenClaims) (now : T) : Envelope T :=
  eventEnvelope type claims (.object []) none now

/-- `meeting.error`, for the sender alone. -/
def meetingError (code : String) (claims : MeetingTokenClaims) (now : T) : Envelope T :=
  eventEnvelope "meeting.error" claims (.object [("code", .str code)]) (some claims.userId) now

def speakerQueue (queue : List UUID) (claims : MeetingTokenClaims) (now : T) : Envelope T :=
  eventEnvelope "speaker.queue" claims
    (.object [("user_ids", .arr (queue.map fun userId => .str userId.str))]) none now

/-- The relay of the user sends the event on. -/
def Envelope.isFor (e : Envelope T) (userId : UUID) : Bool :=
  match e.targetUserId with
  | none => true
  | some target => target = userId.str

/-! ## States -/

/-- The next command of a connection. -/
inductive Phase (T : Type) where
  | joining
  | announcing (event : Envelope T)
  | idle
  | allowing (raw : Json)
  | touching
  | asking
  | queueing
  | unqueueing
  | reading
  | starting (duration : ℕ)
  | cancelling
  | publishing (event : Envelope T)
  | ending
  | leaving
  | parting (event : Envelope T)
  | closed

/-- Between `presence.joined` and `presence.left`. -/
def Phase.isServed : Phase T → Bool
  | .joining | .announcing _ | .closed => false
  | .idle | .allowing _ | .touching | .asking | .queueing | .unqueueing | .reading
  | .starting _ | .cancelling | .publishing _ | .ending | .leaving | .parting _ => true

/-- What the connection publishes next, and where it goes on. -/
def Phase.speaks : Phase T → Option (Envelope T × Phase T)
  | .announcing event => some (event, .idle)
  | .publishing event => some (event, .idle)
  | .parting event => some (event, .closed)
  | _ => none

/-- A relay task that has subscribed; `since` counts the messages published before. -/
structure Relay (T : Type) where
  since : ℕ
  pending : List (Envelope T)
  listening : Bool

structure Connection (T : Type) where
  workspaceId : UUID
  decisionId : UUID
  claims : MeetingTokenClaims
  phase : Phase T
  relay : Option (Relay T)
  received : List (Envelope T)

/-- A message, its room, and the connection it is from. -/
structure Published (T : Type) where
  workspaceId : UUID
  decisionId : UUID
  connection : ℕ
  event : Envelope T

/-- An `issue_token` request, with the states it has read. -/
structure Issue where
  currentUser : User
  workspaceId : UUID
  decisionId : UUID
  seen : List Db
  rest : Query MeetingTokenClaims

structure State (T : Type) where
  clock : T
  requests : Configuration
  rooms : UUID → UUID → Room T
  issues : List Issue
  tokens : List MeetingToken
  connections : List (Connection T)
  published : List (Published T)

def start (db : Db) (clock : T) : State T :=
  ⟨clock, Optimistic.Config.idle db, fun _ _ => .empty T, [], [], [], []⟩

def State.db (s : State T) : Db := s.requests.state

end

inductive Action (T : Type) where
  | tick (clock : T)
  | request (a : Optimistic.Action Op)
  | redis (workspaceId decisionId : UUID) (room : Room T)
  | issueToken (currentUser : User) (workspaceId decisionId : UUID)
  | readNext (k : ℕ)
  | sign (k : ℕ)
  | connect (origin : Option String) (workspaceId decisionId : UUID) (token : MeetingToken)
  | joined (i : ℕ) (state : MeetingState T) (now : T)
  | subscribe (i : ℕ)
  | deliver (i : ℕ)
  | stopRelay (i : ℕ)
  | receive (i : ℕ) (raw : Json)
  | allowEvent (i : ℕ) (allowed : Bool) (now : T)
  | advance (i : ℕ) (now : T)
  | disconnect (i : ℕ)
  | abort (i : ℕ)

/-! ## Steps -/

section
variable {T : Type}

/-- The relay has a message more to take. -/
def Relay.enqueue (event : Envelope T) (r : Relay T) : Relay T :=
  if r.listening then { r with pending := r.pending ++ [event] } else r

theorem Relay.since_enqueue {event : Envelope T} {r : Relay T} :
    (r.enqueue event).since = r.since := by
  unfold Relay.enqueue
  split <;> rfl

theorem Relay.enqueue_listening {event : Envelope T} {r : Relay T}
    (h : (r.enqueue event).listening = true) :
    r.listening = true ∧ (r.enqueue event).pending = r.pending ++ [event] := by
  unfold Relay.enqueue at h ⊢
  split at h
  · rename_i hlistening
    rw [if_pos hlistening]
    exact ⟨hlistening, rfl⟩
  · rename_i hlistening
    exact absurd h hlistening

def Connection.isIn (c : Connection T) (workspaceId decisionId : UUID) : Bool :=
  c.workspaceId = workspaceId && c.decisionId = decisionId

/-- A message of the room comes to the connection. -/
def Connection.hear (workspaceId decisionId : UUID) (event : Envelope T) (c : Connection T) :
    Connection T :=
  if c.isIn workspaceId decisionId then { c with relay := c.relay.map (Relay.enqueue event) } else c

theorem Connection.hear_eq (w d : UUID) (event : Envelope T) (c : Connection T) :
    ∃ relay, c.hear w d event = { c with relay := relay } := by
  unfold Connection.hear
  split
  · exact ⟨_, rfl⟩
  · exact ⟨c.relay, rfl⟩

/-- What the connection is to hear of the messages. -/
def Connection.heard (c : Connection T) (messages : List (Published T)) : List (Envelope T) :=
  (messages.filter fun p => c.isIn p.workspaceId p.decisionId && p.event.isFor c.claims.userId).map
    Published.event

theorem Connection.heard_snoc {c : Connection T} {messages : List (Published T)} {p : Published T}
    (hin : c.isIn p.workspaceId p.decisionId = true) :
    c.heard (messages ++ [p]) =
      c.heard messages ++ [p.event].filter fun e => e.isFor c.claims.userId := by
  rw [Connection.heard, List.filter_append, List.map_append]
  cases hfor : p.event.isFor c.claims.userId <;>
    simp only [List.filter_cons, List.filter_nil, hin, hfor, Bool.and_self, Bool.and_false,
      if_true, Bool.false_eq_true, if_false, List.map_cons, List.map_nil, Connection.heard]

theorem Connection.heard_snoc_apart {c : Connection T} {messages : List (Published T)}
    {p : Published T} (hin : c.isIn p.workspaceId p.decisionId = false) :
    c.heard (messages ++ [p]) = c.heard messages := by
  rw [Connection.heard, List.filter_append, List.map_append]
  simp only [List.filter_cons, List.filter_nil, hin, Bool.false_and, Bool.false_eq_true, if_false,
    List.map_nil, List.append_nil, Connection.heard]

/-- `publish`, on the channel of the room of the `i`-th connection. -/
def State.publish (s : State T) (i : ℕ) (c : Connection T) (event : Envelope T) : State T :=
  { s with
    published := s.published ++ [⟨c.workspaceId, c.decisionId, i, event⟩]
    connections := s.connections.map (Connection.hear c.workspaceId c.decisionId event) }

/-- The connection is another. -/
def State.put (s : State T) (i : ℕ) (c : Connection T) : State T :=
  { s with connections := s.connections.set i c }

/-- The connection goes on to another phase. -/
def State.goOn (s : State T) (i : ℕ) (c : Connection T) (phase : Phase T) : State T :=
  s.put i { c with phase := phase }

/-- The relay task ends. -/
def Connection.silenced (c : Connection T) : Connection T :=
  { c with relay := c.relay.map fun r => { r with listening := false } }

/-- A command on the room of the connection. -/
def State.onRoom (s : State T) (c : Connection T) (f : Room T → Room T) : State T :=
  { s with
    rooms := fun w d => if c.isIn w d then f (s.rooms w d) else s.rooms w d }

/-- The `try` block is running. -/
def Phase.isTried : Phase T → Bool
  | .idle | .allowing _ | .touching | .asking | .queueing | .unqueueing | .reading
  | .starting _ | .cancelling | .publishing _ => true
  | .joining | .announcing _ | .ending | .leaving | .parting _ | .closed => false

/-- `_handle_client_event`, up to its first command. -/
def handleClientEvent (settings : MeetingSettings) (claims : MeetingTokenClaims) (now : T)
    (event : MeetingClientEvent) : Phase T :=
  if event.type = .heartbeat then .touching
  else if event.type ∈ [.signalOffer, .signalAnswer, .signalIce, .mediaState] then
    .publishing (eventEnvelope event.type.value claims (.object event.payload)
      event.targetUserId now)
  else if event.type = .speakerJoin then
    if claims.role = "viewer" then .idle else .asking
  else if event.type = .speakerLeave then .unqueueing
  else if ¬ claims.canFacilitate then .publishing (meetingError "facilitator_required" claims now)
  else if h : event.type = .timerStart then
    let duration := event.seconds h
    if duration < 1 ∨ duration > settings.meetingMaxTimerSeconds then
      .publishing (meetingError "invalid_timer_duration" claims now)
    else .starting duration.toNat
  else if event.type = .timerCancel then .cancelling
  else if event.type = .voteSync then
    .publishing (eventEnvelope "vote.synced" claims (.object event.payload) none now)
  else .idle

theorem Phase.isServed_of_isTried {phase : Phase T} (h : phase.isTried = true) :
    phase.isServed = true := by
  cases phase <;> first | rfl | cases h

/-- The relay task has been created, and not cancelled yet. -/
def Phase.isRelayed : Phase T → Bool
  | .announcing _ | .ending => true
  | phase => phase.isTried

theorem handleClientEvent_isServed {settings : MeetingSettings} {claims : MeetingTokenClaims}
    {now : T} {event : MeetingClientEvent} :
    (handleClientEvent settings claims now event).isServed = true := by
  unfold handleClientEvent
  dsimp only
  repeat' split
  all_goals rfl

variable [Field T] [LinearOrder T]

/-- `create_meeting_token` -/
def createMeetingToken [FloorRing T] (settings : Settings) (now : T) (claims : MeetingTokenClaims)
    (workspaceId decisionId : UUID) : MeetingToken :=
  ⟨claims, workspaceId, decisionId, ⌊now + (settings.meetingTokenExpireMinutes * 60 : ℕ)⌋⟩

open Room MeetingRoomRepository in
/-- The next command of the `i`-th connection, with the time it has read. -/
def advance (dep : Deployment) (s : State T) (i : ℕ) (now : T) : Option (State T) := do
  let settings := dep.settings.toMeetingSettings
  guard (now ≤ s.clock)
  let c ← s.connections[i]?
  let room := s.rooms c.workspaceId c.decisionId
  match c.phase with
  | .announcing event | .publishing event => pure ((s.goOn i c .idle).publish i c event)
  | .parting event => pure ((s.goOn i c .closed).publish i c event)
  | .touching => pure ((s.onRoom c (touch settings s.clock now c.claims.userId)).goOn i c .idle)
  | .asking =>
      pure (s.goOn i c (if room.isQueued s.clock c.claims.userId then .reading else .queueing))
  | .queueing => pure ((s.onRoom c (push s.clock c.claims.userId)).goOn i c .reading)
  | .unqueueing => pure ((s.onRoom c (unqueue s.clock c.claims.userId)).goOn i c .reading)
  | .reading =>
      pure (s.goOn i c (.publishing (speakerQueue (room.speakersAt s.clock) c.claims now)))
  | .starting duration =>
      -- `start_timer`: its times are those of the connection, its expiry that of the server
      let timer : MeetingTimer T := ⟨c.claims.userId, now, now + duration⟩
      pure ((s.onRoom c fun room => { room with
          timer := .putFor s.clock (duration + presenceTtl settings : T) timer }).goOn i c
        (.publishing (eventEnvelope "timer.started" c.claims (.timer timer) none now)))
  | .cancelling =>
      pure ((s.onRoom c cancelTimer).goOn i c
        (.publishing (presence "timer.cancelled" c.claims now)))
  | .ending => pure (s.goOn i c.silenced .leaving)
  | .leaving =>
      pure ((s.onRoom c (leave s.clock c.claims.userId)).goOn i c
        (.parting (presence "presence.left" c.claims now)))
  | .joining | .idle | .allowing _ | .closed => none

def State.step [FloorRing T] (dep : Deployment) (s : State T) : Action T → Option (State T)
  | .tick clock => if s.clock ≤ clock then some { s with clock := clock } else none
  | .request a => do
      let requests ← s.requests.act Db.commit (Op.program dep.database) a
      pure { s with requests := requests }
  | .redis workspaceId decisionId room =>
      pure { s with
        rooms := fun w d => if w = workspaceId ∧ d = decisionId then room else s.rooms w d }
  | .issueToken user w d => do
      guard (user ∈ s.db.users)
      pure { s with issues := s.issues ++ [⟨user, w, d, [], MeetingService.issueToken user w d⟩] }
  | .readNext k => do
      let issue ← s.issues[k]?
      let .read next := issue.rest | none
      pure { s with
        issues := s.issues.set k { issue with seen := issue.seen ++ [s.db], rest := next s.db } }
  | .sign k => do
      let issue ← s.issues[k]?
      let .done (.ok claims) := issue.rest | none
      pure { s with
        tokens := s.tokens ++
          [createMeetingToken dep.settings s.clock claims issue.workspaceId issue.decisionId] }
  | .connect origin w d token => do
      guard (∃ o ∈ origin, o ∈ dep.settings.meetingAllowedOrigins)
      guard (token ∈ s.tokens ∧ s.clock < token.exp)
      guard (token.workspaceId = w ∧ token.decisionId = d)
      pure { s with connections := s.connections ++ [⟨w, d, token.claims, .joining, none, []⟩] }
  | .joined i state now => do
      let c ← s.connections[i]?
      let .joining := c.phase | none
      let ready := eventEnvelope "meeting.ready" c.claims (.state state) (some c.claims.userId) now
      pure (s.put i { c with
        phase := .announcing (presence "presence.joined" c.claims now)
        received := [ready] })
  | .subscribe i => do
      let c ← s.connections[i]?
      guard (c.phase.isRelayed ∧ c.relay.isNone)
      pure (s.put i { c with relay := some ⟨s.published.length, [], true⟩ })
  | .deliver i => do
      let c ← s.connections[i]?
      let r ← c.relay
      guard r.listening
      match r.pending with
      | [] => none
      | event :: pending =>
          pure (s.put i { c with
            relay := some { r with pending := pending }
            received := if event.isFor c.claims.userId then c.received ++ [event] else c.received })
  | .stopRelay i => (s.connections[i]?).map fun c => s.put i c.silenced
  | .receive i raw => do
      let c ← s.connections[i]?
      let .idle := c.phase | none
      pure (s.goOn i c (if raw.width > 65536 then .ending else .allowing raw))
  | .allowEvent i allowed now => do
      let c ← s.connections[i]?
      let .allowing raw := c.phase | none
      pure (s.goOn i c (if ¬ allowed then .ending else
        match MeetingClientEvent.modelValidate dep.readUuid raw with
        | none => .publishing (meetingError "invalid_event" c.claims now)
        | some event => handleClientEvent dep.settings.toMeetingSettings c.claims now event))
  | .advance i now => advance dep s i now
  | .disconnect i => do
      let c ← s.connections[i]?
      guard c.phase.isTried
      pure (s.goOn i c .ending)
  | .abort i => (s.connections[i]?).map fun c => s.goOn i c .closed

end

/-! ## What one step can do -/

section
variable {T : Type} [Field T]

/-- The payload of an event of a client, which is empty or was in what it sent. -/
def Bounded (payload : List (String × Json)) : Prop :=
  payload = [] ∨ (Json.obj payload).width ≤ 65536

/-- What a connection publishes of the events of its client. -/
inductive Reply (settings : MeetingSettings) (claims : MeetingTokenClaims) : Envelope T → Prop
  | error (code : String) (now : T) : Reply settings claims (meetingError code claims now)
  | queue (queue : List UUID) (now : T) : Reply settings claims (speakerQueue queue claims now)
  | passed (event : MeetingClientEvent) (now : T) : Bounded event.payload →
      event.type ∈ [.signalOffer, .signalAnswer, .signalIce, .mediaState] →
      Reply settings claims
        (eventEnvelope event.type.value claims (.object event.payload) event.targetUserId now)
  | started (duration : ℕ) (now : T) : claims.canFacilitate → 1 ≤ duration →
      duration ≤ settings.meetingMaxTimerSeconds → Reply settings claims
        (eventEnvelope "timer.started" claims
          (.timer ⟨claims.userId, now, now + duration⟩) none now)
  | cancelled (now : T) : claims.canFacilitate →
      Reply settings claims (presence "timer.cancelled" claims now)
  | synced (event : MeetingClientEvent) (now : T) : claims.canFacilitate →
      Bounded event.payload → Reply settings claims
        (eventEnvelope "vote.synced" claims (.object event.payload) none now)

/-- What a connection in the phase has seen to. -/
def Phase.Knows (settings : MeetingSettings) (claims : MeetingTokenClaims) : Phase T → Prop
  | .announcing event => ∃ now, event = presence "presence.joined" claims now
  | .parting event => ∃ now, event = presence "presence.left" claims now
  | .publishing event => Reply settings claims event
  | .allowing raw => raw.width ≤ 65536
  | .starting duration =>
      claims.canFacilitate ∧ 1 ≤ duration ∧ duration ≤ settings.meetingMaxTimerSeconds
  | .cancelling => claims.canFacilitate
  | _ => True

/-- What somebody of whom a token says `claims` may say. -/
def Says (settings : MeetingSettings) (claims : MeetingTokenClaims) (e : Envelope T) : Prop :=
  (∃ now, e = presence "presence.joined" claims now) ∨
  (∃ now, e = presence "presence.left" claims now) ∨ Reply settings claims e

/-- The events that only a facilitator causes. -/
def facilitated : List String := ["timer.started", "timer.cancelled", "vote.synced"]

theorem Reply.facilitates {settings : MeetingSettings} {claims : MeetingTokenClaims}
    {e : Envelope T} (h : Reply settings claims e) (htype : e.type ∈ facilitated) :
    claims.canFacilitate = true := by
  cases h with
  | error code now => exact absurd htype (show "meeting.error" ∉ facilitated by decide)
  | queue queue now => exact absurd htype (show "speaker.queue" ∉ facilitated by decide)
  | passed event now hpayload hmem =>
      have hother : ∀ t ∈ [MeetingEventType.signalOffer, .signalAnswer, .signalIce, .mediaState],
          t.value ∉ facilitated := by decide
      exact absurd htype (hother event.type hmem)
  | started duration now hfacilitates hpos hmax => exact hfacilitates
  | cancelled now hfacilitates => exact hfacilitates
  | synced event now hfacilitates hpayload => exact hfacilitates

theorem Says.facilitates {settings : MeetingSettings} {claims : MeetingTokenClaims}
    {e : Envelope T} (h : Says settings claims e) (htype : e.type ∈ facilitated) :
    claims.canFacilitate = true := by
  rcases h with ⟨now, rfl⟩ | ⟨now, rfl⟩ | hreply
  · exact absurd htype (show "presence.joined" ∉ facilitated by decide)
  · exact absurd htype (show "presence.left" ∉ facilitated by decide)
  · exact hreply.facilitates htype

/-- What a connection knows is what it says next. -/
theorem Phase.Knows.speech {settings : MeetingSettings} {claims : MeetingTokenClaims}
    {phase next : Phase T} {event : Envelope T} (h : phase.Knows settings claims)
    (hspeaks : phase.speaks = some (event, next)) :
    Says settings claims event ∧ next.Knows settings claims := by
  cases phase with
  | announcing e =>
      cases hspeaks
      exact ⟨.inl h, trivial⟩
  | publishing e =>
      cases hspeaks
      exact ⟨.inr (.inr h), trivial⟩
  | parting e =>
      cases hspeaks
      exact ⟨.inr (.inl h), trivial⟩
  | _ => cases hspeaks

theorem handleClientEvent_knows {settings : MeetingSettings} {claims : MeetingTokenClaims} {now : T}
    {event : MeetingClientEvent} (hpayload : Bounded event.payload) :
    (handleClientEvent settings claims now event).Knows settings claims := by
  unfold handleClientEvent
  split
  · trivial
  split
  · rename_i htype
    exact .passed event now hpayload htype
  split
  · split <;> trivial
  split
  · trivial
  split
  · exact .error _ now
  rename_i hfacilitate
  have hfacilitate : claims.canFacilitate = true := not_not.mp hfacilitate
  split
  · dsimp only
    split
    · exact .error _ now
    · rename_i hrange
      exact ⟨hfacilitate, by omega, by omega⟩
  split
  · exact hfacilitate
  split
  · exact .synced event now hfacilitate hpayload
  · trivial

/-- A connection goes on without a word. -/
structure Moves (settings : MeetingSettings) (c : Connection T) (phase : Phase T) : Prop where
  knows : c.phase.Knows settings c.claims → phase.Knows settings c.claims
  served : phase = .closed ∨ (c.phase.isServed = true ∧ phase.isServed = true)

theorem Moves.closed {settings : MeetingSettings} {c : Connection T} :
    Moves settings c .closed :=
  ⟨fun _ => trivial, .inl rfl⟩

variable [LinearOrder T] [FloorRing T]

inductive Steps (dep : Deployment) (s : State T) : Action T → State T → Prop
  | tick {clock : T} : s.clock ≤ clock → Steps dep s (.tick clock) { s with clock := clock }
  | requested {a : Optimistic.Action Op} {requests : Configuration} :
      Steps dep s (.request a) { s with requests := requests }
  | changed {a : Action T} {rooms : UUID → UUID → Room T} : Steps dep s a { s with rooms := rooms }
  | asked {user : User} {w d : UUID} : user ∈ s.db.users →
      Steps dep s (.issueToken user w d) { s with
        issues := s.issues ++ [⟨user, w, d, [], MeetingService.issueToken user w d⟩] }
  | read {k : ℕ} {issue : Issue} {next : Db → Query MeetingTokenClaims} :
      s.issues[k]? = some issue → issue.rest = .read next →
      Steps dep s (.readNext k) { s with
        issues := s.issues.set k { issue with seen := issue.seen ++ [s.db], rest := next s.db } }
  | signed {k : ℕ} {issue : Issue} {claims : MeetingTokenClaims} :
      s.issues[k]? = some issue → issue.rest = .done (.ok claims) →
      Steps dep s (.sign k) { s with
        tokens := s.tokens ++
          [createMeetingToken dep.settings s.clock claims issue.workspaceId issue.decisionId] }
  | connected {origin : Option String} {token : MeetingToken} :
      (∃ o ∈ origin, o ∈ dep.settings.meetingAllowedOrigins) → token ∈ s.tokens →
      s.clock < token.exp →
      Steps dep s (.connect origin token.workspaceId token.decisionId token) { s with
        connections := s.connections ++
          [⟨token.workspaceId, token.decisionId, token.claims, .joining, none, []⟩] }
  | readied {i : ℕ} {state : MeetingState T} {now : T} {c : Connection T} :
      s.connections[i]? = some c → c.phase = .joining →
      Steps dep s (.joined i state now) (s.put i { c with
        phase := .announcing (presence "presence.joined" c.claims now)
        received :=
          [eventEnvelope "meeting.ready" c.claims (.state state) (some c.claims.userId) now] })
  | moved {a : Action T} {i : ℕ} {c : Connection T} {phase : Phase T}
      {rooms : UUID → UUID → Room T} : s.connections[i]? = some c →
      Moves dep.settings.toMeetingSettings c phase →
      Steps dep s a (State.goOn { s with rooms := rooms } i c phase)
  | silenced {a : Action T} {i : ℕ} {c : Connection T} {phase : Phase T} :
      s.connections[i]? = some c →
      phase = c.phase ∨ Moves dep.settings.toMeetingSettings c phase →
      Steps dep s a (s.goOn i c.silenced phase)
  | subscribed {i : ℕ} {c : Connection T} : s.connections[i]? = some c → c.phase.isRelayed = true →
      c.relay = none →
      Steps dep s (.subscribe i) (s.put i { c with relay := some ⟨s.published.length, [], true⟩ })
  | delivered {i : ℕ} {c : Connection T} {r : Relay T} {event : Envelope T}
      {pending : List (Envelope T)} : s.connections[i]? = some c → c.relay = some r →
      r.listening = true → r.pending = event :: pending →
      Steps dep s (.deliver i) (s.put i { c with
        relay := some { r with pending := pending }
        received := if event.isFor c.claims.userId then c.received ++ [event] else c.received })
  | spoke {a : Action T} {i : ℕ} {c : Connection T} {event : Envelope T} {next : Phase T} :
      s.connections[i]? = some c → c.phase.speaks = some (event, next) →
      Steps dep s a ((s.goOn i c next).publish i c event)

variable {dep : Deployment} {s s' : State T}

theorem advance_cases {i : ℕ} {now : T} (h : advance dep s i now = some s') :
    Steps dep s (.advance i now) s' := by
  obtain ⟨hnow, h⟩ := Machine.guard_bind h
  obtain ⟨c, hi, h⟩ := Option.bind_eq_some_iff.mp h
  dsimp only at h
  cases hphase : c.phase with
  | announcing event =>
      rw [hphase] at h
      cases h
      exact .spoke hi (by rw [hphase]; rfl)
  | publishing event =>
      rw [hphase] at h
      cases h
      exact .spoke hi (by rw [hphase]; rfl)
  | parting event =>
      rw [hphase] at h
      cases h
      exact .spoke hi (by rw [hphase]; rfl)
  | touching =>
      rw [hphase] at h
      cases h
      exact .moved hi ⟨fun _ => trivial, .inr ⟨by rw [hphase]; rfl, rfl⟩⟩
  | asking =>
      rw [hphase] at h
      cases h
      refine .moved hi ⟨fun _ => ?_, .inr ⟨by rw [hphase]; rfl, ?_⟩⟩
      · split <;> trivial
      · split <;> rfl
  | queueing =>
      rw [hphase] at h
      cases h
      exact .moved hi ⟨fun _ => trivial, .inr ⟨by rw [hphase]; rfl, rfl⟩⟩
  | unqueueing =>
      rw [hphase] at h
      cases h
      exact .moved hi ⟨fun _ => trivial, .inr ⟨by rw [hphase]; rfl, rfl⟩⟩
  | reading =>
      rw [hphase] at h
      cases h
      exact .moved hi ⟨fun _ => .queue _ now, .inr ⟨by rw [hphase]; rfl, rfl⟩⟩
  | starting duration =>
      rw [hphase] at h
      cases h
      refine .moved hi ⟨fun hknows => ?_, .inr ⟨by rw [hphase]; rfl, rfl⟩⟩
      rw [hphase] at hknows
      obtain ⟨hfacilitate, hpos, hmax⟩ := hknows
      exact .started duration now hfacilitate hpos hmax
  | cancelling =>
      rw [hphase] at h
      cases h
      refine .moved hi ⟨fun hknows => ?_, .inr ⟨by rw [hphase]; rfl, rfl⟩⟩
      rw [hphase] at hknows
      exact .cancelled now hknows
  | ending =>
      rw [hphase] at h
      cases h
      exact .silenced hi (.inr ⟨fun _ => trivial, .inr ⟨by rw [hphase]; rfl, rfl⟩⟩)
  | leaving =>
      rw [hphase] at h
      cases h
      exact .moved hi ⟨fun _ => ⟨now, rfl⟩, .inr ⟨by rw [hphase]; rfl, rfl⟩⟩
  | joining => rw [hphase] at h; cases h
  | idle => rw [hphase] at h; cases h
  | allowing raw => rw [hphase] at h; cases h
  | closed => rw [hphase] at h; cases h

theorem State.step_cases {a : Action T} (h : s.step dep a = some s') : Steps dep s a s' := by
  cases a with
  | tick clock =>
      simp only [State.step] at h
      split at h <;> cases h
      exact .tick ‹_›
  | request a =>
      obtain ⟨requests, -, h⟩ := Option.bind_eq_some_iff.mp h
      cases h
      exact .requested
  | redis w d room =>
      cases h
      exact .changed
  | issueToken user w d =>
      obtain ⟨huser, h⟩ := Machine.guard_bind h
      cases h
      exact .asked huser
  | readNext k =>
      obtain ⟨issue, hk, h⟩ := Option.bind_eq_some_iff.mp h
      split at h
      · rename_i next hrest
        cases h
        exact .read hk hrest
      · cases h
  | sign k =>
      obtain ⟨issue, hk, h⟩ := Option.bind_eq_some_iff.mp h
      split at h
      · rename_i claims hrest
        cases h
        exact .signed hk hrest
      · cases h
  | connect origin w d token =>
      obtain ⟨horigin, h⟩ := Machine.guard_bind h
      obtain ⟨⟨htoken, hlive⟩, h⟩ := Machine.guard_bind h
      obtain ⟨⟨rfl, rfl⟩, h⟩ := Machine.guard_bind h
      cases h
      exact .connected horigin htoken hlive
  | joined i state now =>
      obtain ⟨c, hi, h⟩ := Option.bind_eq_some_iff.mp h
      split at h
      · rename_i hphase
        cases h
        exact .readied hi hphase
      · cases h
  | subscribe i =>
      obtain ⟨c, hi, h⟩ := Option.bind_eq_some_iff.mp h
      obtain ⟨⟨hphase, hnone⟩, h⟩ := Machine.guard_bind h
      cases h
      exact .subscribed hi hphase (Option.isNone_iff_eq_none.mp hnone)
  | deliver i =>
      obtain ⟨c, hi, h⟩ := Option.bind_eq_some_iff.mp h
      obtain ⟨r, hr, h⟩ := Option.bind_eq_some_iff.mp h
      obtain ⟨hlistening, h⟩ := Machine.guard_bind h
      split at h
      · cases h
      · rename_i event pending hpending
        cases h
        exact .delivered hi hr hlistening hpending
  | stopRelay i =>
      obtain ⟨c, hi, rfl⟩ := Option.map_eq_some_iff.mp h
      exact .silenced hi (.inl rfl)
  | receive i raw =>
      obtain ⟨c, hi, h⟩ := Option.bind_eq_some_iff.mp h
      split at h
      · rename_i hphase
        cases h
        refine .moved hi ⟨fun _ => ?_, .inr ⟨by rw [hphase]; rfl, ?_⟩⟩
        · split
          · trivial
          · rename_i hsize
            exact not_lt.mp hsize
        · split <;> rfl
      · cases h
  | allowEvent i allowed now =>
      obtain ⟨c, hi, h⟩ := Option.bind_eq_some_iff.mp h
      split at h
      · rename_i raw hphase
        cases h
        refine .moved hi ⟨fun hknows => ?_, .inr ⟨by rw [hphase]; rfl, ?_⟩⟩
        · rw [hphase] at hknows
          split
          · trivial
          split
          · exact .error _ now
          · rename_i event hvalid
            refine handleClientEvent_knows ?_
            exact (MeetingClientEvent.width_payload hvalid).imp id fun hle => hle.trans hknows
        · split
          · rfl
          split
          · rfl
          · exact handleClientEvent_isServed
      · cases h
  | advance i now => exact advance_cases h
  | disconnect i =>
      obtain ⟨c, hi, h⟩ := Option.bind_eq_some_iff.mp h
      obtain ⟨htried, h⟩ := Machine.guard_bind h
      cases h
      exact .moved hi ⟨fun _ => trivial, .inr ⟨Phase.isServed_of_isTried htried, rfl⟩⟩
  | abort i =>
      obtain ⟨c, hi, rfl⟩ := Option.map_eq_some_iff.mp h
      exact .moved hi .closed

end

end Broadcast

end ForkRoom
