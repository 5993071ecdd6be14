/-
# `System.Integration` — the integration tasks and their interleavings

`IntegrationDeliveryService`, and the steps of its tasks between which other
processes run.  A message is no more than the right to start a task, so a task
may start at any time, any number of times, for any event or delivery: that
covers messages that are lost, late or handed out twice.  A worker that crashes
takes no more steps.  Errors may be recorded at any time, by whatever worker.

The environment stages events, and changes connections and subscriptions.
-/
import ForkRoom.Lib.Machine
import ForkRoom.System.Delivery
import ForkRoom.Model.Integration

namespace ForkRoom

namespace Integration

open IntegrationRepository

/-- What is fixed when the workers are started.  `decrypt` is the token cipher under
the configured key; `available` says that the provider is configured. -/
structure Deployment where
  settings : WorkerSettings
  frontendUrl : String
  decrypt : String → Option String
  available : IntegrationProvider → Bool

/-! ## Messages to the provider -/

structure ProviderMessage where
  text : String
  blocks : List Json
  idempotencyKey : String

/-- `payload.get(key)` -/
def get (payload : List (String × Json)) (key : String) : Option Json :=
  (payload.find? fun p => p.1 = key).map Prod.snd

def payloadText (payload : List (String × Json)) (key default : String) : String :=
  match get payload key with
  | some (.str value) => if value ≠ "" then value else default
  | _ => default

/-- `url.rstrip("/")` -/
def rstrip (url : String) : String :=
  String.ofList (url.toList.reverse.dropWhile (· = '/')).reverse

def label : IntegrationEventType → String
  | .decisionActivated => "Decision activated"
  | .votingOpened => "Voting opened"
  | .votingClosed => "Voting closed"
  | .decisionLocked => "Decision locked"
  | _ => "Decision updated"

def details (actor : String) : IntegrationEventType → String
  | .decisionActivated => actor ++ " activated this decision."
  | .votingOpened => actor ++ " opened a voting round."
  | .votingClosed => actor ++ " closed the voting round."
  | .decisionLocked => actor ++ " locked the final decision record."
  | _ => actor ++ " updated this decision."

def message (dep : Deployment) (delivery : IntegrationDelivery) (payload : List (String × Json)) :
    ProviderMessage :=
  let title := payloadText payload "decision_title" "Untitled decision"
  let workspaceId := payloadText payload "workspace_id" ""
  let decisionId := payloadText payload "decision_id" ""
  let actor := payloadText payload "actor_name" "A workspace member"
  let label := label delivery.eventType
  let details := details actor delivery.eventType
  let link :=
    if workspaceId ≠ "" ∧ decisionId ≠ "" then
      rstrip dep.frontendUrl ++ "/w/" ++ workspaceId ++ "/decisions/" ++ decisionId
    else ""
  let blocks : List Json :=
    [.obj [("type", .str "header"),
        ("text", .obj [("type", .str "plain_text"), ("text", .str label)])],
      .obj [("type", .str "section"),
        ("text", .obj [("type", .str "mrkdwn"),
          ("text", .str ("*" ++ title ++ "*\n" ++ details))])]]
  let button : Json :=
    .obj [("type", .str "actions"), ("elements", .arr [.obj [("type", .str "button"),
      ("text", .obj [("type", .str "plain_text"), ("text", .str "Open in ForkRoom")]),
      ("url", .str link)]])]
  { text := label ++ ": " ++ title ++ ". " ++ details
    blocks := if link ≠ "" then blocks ++ [button] else blocks
    idempotencyKey := delivery.id.str }

/-- What `deliver` does between the claim and `send_message`: the access token, the
destination and the message, or the error it raises. -/
def prepare (dep : Deployment) (delivery : IntegrationDelivery) (t : IntegrationTables) :
    Except String (String × String × ProviderMessage) :=
  match Rows.find delivery.connectionId t.connections with
  | none => .error "IntegrationConfigurationError"
  | some connection =>
      match connection.status, connection.accessTokenEncrypted, delivery.requestSummary with
      | .active, some encrypted, .obj summary =>
          match get summary "destination_id", get summary "payload", dep.decrypt encrypted with
          | some (.str destination), some (.obj payload), some token =>
              if dep.available connection.provider then
                .ok (token, destination, message dep delivery payload)
              else .error "IntegrationProviderUnavailableError"
          | _, _, _ => .error "IntegrationConfigurationError"
      | _, _, _ => .error "IntegrationConfigurationError"

/-! ## Configurations -/

/-- A dispatch task: the time it read at its start, and the event it has claimed. -/
structure Dispatcher where
  now : Datetime
  event : OutboxEvent
  finished : Bool

inductive Phase where
  | claimed | sent | finished
  deriving DecidableEq

/-- A deliver task that holds the delivery it has claimed. -/
structure Courier where
  delivery : IntegrationDelivery
  phase : Phase

/-- The claim a task works under: the delivery and the number of the attempt. -/
def Courier.claim (w : Courier) : UUID × Nat := (w.delivery.id, w.delivery.attemptCount)

structure Sent where
  claim : UUID × Nat
  token : String
  destinationId : String
  message : ProviderMessage

/-- A call of the publisher. -/
inductive Published where
  | outbox (eventId : UUID)
  | delivery (deliveryId : UUID)
  deriving DecidableEq

structure Config extends IntegrationTables where
  clock : Datetime
  dispatchers : List Dispatcher
  couriers : List Courier
  /-- the calls of `send_message` so far -/
  sends : List Sent
  /-- the calls of the publisher so far -/
  published : List Published

def Config.empty (clock : Datetime) : Config :=
  { clock := clock, dispatchers := [], couriers := [], sends := [], published := [] }

/-- The claims of deliveries made so far. -/
def Config.claims (c : Config) : List (UUID × Nat) := c.couriers.map Courier.claim

/-! ## The tasks -/

/-- `retry_countdown` -/
def retryCountdown (settings : WorkerSettings) (attemptCount : Nat) : Nat :=
  settings.countdown (attemptCount - 1)

/-- `dispatch_outbox` up to the claim. -/
def dispatchOutbox (dep : Deployment) (c : Config) (eventId : UUID) : Option Config := do
  let (event, t) ← claimOutboxEvent eventId c.clock c.clock dep.settings.integrationMaxRetries
    c.toIntegrationTables
  pure { c with
    toIntegrationTables := t
    dispatchers := c.dispatchers ++ [⟨c.clock, event, false⟩] }

/-- The rest of `dispatch_outbox`. -/
def createDeliveries (c : Config) (i : Nat) (fresh : Nat → UUID) : Option Config := do
  let w ← c.dispatchers[i]?
  guard (w.finished = false)
  let c' := { c with dispatchers := c.dispatchers.set i { w with finished := true } }
  match IntegrationRepository.createDeliveries w.event w.now c.clock fresh
      c.toIntegrationTables with
  | none => pure c'
  | some (deliveries, t) =>
      pure { c' with
        toIntegrationTables := t
        published := c.published ++ deliveries.map fun d => .delivery d.id }

def recordOutboxError (dep : Deployment) (c : Config) (eventId : UUID) (error : String) :
    Option Config := do
  let event ← Rows.find eventId c.outboxEvents
  let countdown := retryCountdown dep.settings event.attemptCount
  pure { c with
    toIntegrationTables := markOutboxFailed eventId (c.clock + seconds countdown) c.clock
      (truncated 100 error) c.toIntegrationTables }

/-- `deliver` up to the claim. -/
def deliver (c : Config) (deliveryId : UUID) : Option Config := do
  let (delivery, t) ← claimDelivery deliveryId c.clock c.clock c.toIntegrationTables
  pure { c with toIntegrationTables := t, couriers := c.couriers ++ [⟨delivery, .claimed⟩] }

/-- `deliver` from the claim to `send_message`, which may raise once the message is out. -/
def sendMessage (dep : Deployment) (c : Config) (i : Nat) (raised : Bool) : Option Config := do
  let w ← c.couriers[i]?
  guard (w.phase = .claimed)
  match prepare dep w.delivery c.toIntegrationTables with
  | .error _ => pure { c with couriers := c.couriers.set i { w with phase := .finished } }
  | .ok (token, destination, message) =>
      let phase := if raised then Phase.finished else .sent
      pure { c with
        couriers := c.couriers.set i { w with phase := phase }
        sends := c.sends ++ [⟨w.claim, token, destination, message⟩] }

/-- The end of `deliver`. -/
def markDelivered (c : Config) (i : Nat) : Option Config := do
  let w ← c.couriers[i]?
  guard (w.phase = .sent)
  pure { c with
    toIntegrationTables := markDeliveryDelivered w.delivery c.clock c.clock c.toIntegrationTables
    couriers := c.couriers.set i { w with phase := .finished } }

def recordDeliveryError (dep : Deployment) (c : Config) (deliveryId : UUID) (error : String) :
    Option Config := do
  let delivery ← Rows.find deliveryId c.deliveries
  let errorCode := truncated 100 error
  if delivery.attemptCount ≥ dep.settings.integrationMaxRetries then
    pure { c with
      toIntegrationTables := markDeliveryFailed deliveryId c.clock errorCode c.toIntegrationTables }
  else
    let countdown := retryCountdown dep.settings delivery.attemptCount
    pure { c with
      toIntegrationTables := scheduleDeliveryRetry deliveryId (c.clock + seconds countdown) c.clock
        errorCode c.toIntegrationTables }

/-- What `recover` calls the publisher for. -/
def ready (dep : Deployment) (now : Datetime) (tie : UUID → Nat) (t : IntegrationTables) :
    List Published :=
  (listReadyOutboxEvents now dep.settings.integrationMaxRetries 100 tie t).map (.outbox ·.id) ++
    (listReadyDeliveries now dep.settings.integrationMaxRetries 100 tie t).map (.delivery ·.id)

def recover (dep : Deployment) (c : Config) (now : Datetime) (tie : UUID → Nat) :
    Option Config := do
  guard (now ≤ c.clock)
  let t := recoverStaleClaims (now - minutes 5) now c.clock dep.settings.integrationMaxRetries
    c.toIntegrationTables
  pure { c with toIntegrationTables := t, published := c.published ++ ready dep now tie t }

/-! ## Steps -/

inductive Action where
  | tick (clock : Datetime)
  | stage (event : IntegrationOutboxEvent)
  | saveConnection (connection : IntegrationConnection)
  | saveSubscription (subscription : IntegrationSubscription)
  | dispatchOutbox (eventId : UUID)
  | createDeliveries (i : Nat) (fresh : Nat → UUID)
  | recordOutboxError (eventId : UUID) (error : String)
  | deliver (deliveryId : UUID)
  | sendMessage (i : Nat) (raised : Bool)
  | markDelivered (i : Nat)
  | recordDeliveryError (deliveryId : UUID) (error : String)
  | recover (now : Datetime) (tie : UUID → Nat)

def Config.step (dep : Deployment) (c : Config) : Action → Option Config
  | .tick clock => if c.clock ≤ clock then some { c with clock := clock } else none
  | .stage event => (stageOutboxEvent event c.clock c.toIntegrationTables).map fun t =>
      { c with toIntegrationTables := t }
  | .saveConnection connection =>
      (IntegrationRepository.saveConnection connection c.toIntegrationTables).map fun t =>
        { c with toIntegrationTables := t }
  | .saveSubscription subscription =>
      some { c with
        toIntegrationTables :=
          IntegrationRepository.saveSubscription subscription c.toIntegrationTables }
  | .dispatchOutbox eventId => dispatchOutbox dep c eventId
  | .createDeliveries i fresh => createDeliveries c i fresh
  | .recordOutboxError eventId error => recordOutboxError dep c eventId error
  | .deliver deliveryId => deliver c deliveryId
  | .sendMessage i raised => sendMessage dep c i raised
  | .markDelivered i => markDelivered c i
  | .recordDeliveryError deliveryId error => recordDeliveryError dep c deliveryId error
  | .recover now tie => recover dep c now tie

/-- Some run leads to `c`. -/
def Reachable (dep : Deployment) (c : Config) : Prop :=
  ∃ clock, Machine.Run (Config.step dep) (fun _ _ => True) (Config.empty clock) c

/-! ## What one step can do -/

/-- The event of a dispatcher as it is written when its deliveries are created. -/
def Config.fannedOut (c : Config) (i : Nat) (w : Dispatcher) (new : List IntegrationDelivery) :
    Config :=
  { c with
    outboxEvents := Rows.modify w.event.id (processedEvent w.event w.now c.clock) c.outboxEvents
    deliveries := c.deliveries ++ new
    dispatchers := c.dispatchers.set i { w with finished := true }
    published := c.published ++ new.map fun d => .delivery d.id }

/-- The `i`-th courier goes on to `phase`. -/
def Config.moved (c : Config) (i : Nat) (w : Courier) (phase : Phase) : Config :=
  { c with couriers := c.couriers.set i { w with phase := phase } }

/-- One step, case by case. -/
inductive Steps (dep : Deployment) (c : Config) : Action → Config → Prop
  | tick {clock : Datetime} : c.clock ≤ clock →
      Steps dep c (.tick clock) { c with clock := clock }
  | staged {event : IntegrationOutboxEvent} {row : OutboxEvent} :
      row.toIntegrationOutboxEvent = event → row.status = .pending → row.attemptCount = 0 →
      (∀ e ∈ c.outboxEvents, e.id ≠ row.id ∧ e.subject ≠ row.subject) →
      Steps dep c (.stage event) { c with outboxEvents := c.outboxEvents ++ [row] }
  | connected {connection : IntegrationConnection} :
      connection.id ∉ c.connections.map IntegrationConnection.id →
      Steps dep c (.saveConnection connection)
        { c with connections := c.connections ++ [connection] }
  | reconnected {connection stored : IntegrationConnection} : stored ∈ c.connections →
      stored.id = connection.id → connection.workspaceId = stored.workspaceId →
      Steps dep c (.saveConnection connection)
        { c with connections := Rows.modify connection.id (fun _ => connection) c.connections }
  | configured {subscription : IntegrationSubscription} {subscriptions : List _} :
      Steps dep c (.saveSubscription subscription) { c with subscriptions := subscriptions }
  | dispatched {e : OutboxEvent} : e ∈ c.outboxEvents →
      readyEvent c.clock dep.settings.integrationMaxRetries e →
      Steps dep c (.dispatchOutbox e.id)
        { c with
          outboxEvents := Rows.modify e.id (fun _ => claimedEvent c.clock e) c.outboxEvents
          dispatchers := c.dispatchers ++ [⟨c.clock, claimedEvent c.clock e, false⟩] }
  | fannedOut {i : Nat} {fresh : Nat → UUID} {w : Dispatcher} {new : List IntegrationDelivery} :
      c.dispatchers[i]? = some w →
      new = newDeliveries w.event w.now c.clock fresh c.toIntegrationTables →
      ((c.deliveries ++ new).map IntegrationDelivery.id).Nodup →
      ((c.deliveries ++ new).map IntegrationDelivery.target).Nodup →
      Steps dep c (.createDeliveries i fresh) (c.fannedOut i w new)
  | rolledBack {i : Nat} {fresh : Nat → UUID} {w : Dispatcher} : c.dispatchers[i]? = some w →
      Steps dep c (.createDeliveries i fresh)
        { c with dispatchers := c.dispatchers.set i { w with finished := true } }
  | outboxFailed {eventId : UUID} {error : String} {availableAt : Datetime} {text : String} :
      Steps dep c (.recordOutboxError eventId error)
        { c with
          toIntegrationTables := markOutboxFailed eventId availableAt c.clock text
            c.toIntegrationTables }
  | claimed {d : IntegrationDelivery} : d ∈ c.deliveries → dueDelivery c.clock d →
      Steps dep c (.deliver d.id)
        { c with
          deliveries := Rows.modify d.id (fun _ => claimedDelivery c.clock d) c.deliveries
          couriers := c.couriers ++ [⟨claimedDelivery c.clock d, .claimed⟩] }
  | unprepared {i : Nat} {raised : Bool} {w : Courier} : c.couriers[i]? = some w →
      Steps dep c (.sendMessage i raised) (c.moved i w .finished)
  | sent {i : Nat} {raised : Bool} {w : Courier} {sent : Sent} {phase : Phase} :
      c.couriers[i]? = some w → w.phase = .claimed → phase ≠ .claimed → sent.claim = w.claim →
      Steps dep c (.sendMessage i raised) { c.moved i w phase with sends := c.sends ++ [sent] }
  | marked {i : Nat} {w : Courier} : c.couriers[i]? = some w →
      Steps dep c (.markDelivered i)
        { c.moved i w .finished with
          toIntegrationTables := markDeliveryDelivered w.delivery c.clock c.clock
            c.toIntegrationTables }
  | deliveryFailed {d : IntegrationDelivery} {error text : String} : d ∈ c.deliveries →
      dep.settings.integrationMaxRetries ≤ d.attemptCount →
      Steps dep c (.recordDeliveryError d.id error)
        { c with
          toIntegrationTables := markDeliveryFailed d.id c.clock text c.toIntegrationTables }
  | retried {d : IntegrationDelivery} {error text : String} {nextRetryAt : Datetime} :
      d ∈ c.deliveries → d.attemptCount < dep.settings.integrationMaxRetries →
      Steps dep c (.recordDeliveryError d.id error)
        { c with
          toIntegrationTables := scheduleDeliveryRetry d.id nextRetryAt c.clock text
            c.toIntegrationTables }
  | recovered {now : Datetime} {tie : UUID → Nat} : now ≤ c.clock →
      Steps dep c (.recover now tie)
        { c with
          toIntegrationTables := recoverStaleClaims (now - minutes 5) now c.clock
            dep.settings.integrationMaxRetries c.toIntegrationTables
          published := c.published ++ ready dep now tie (recoverStaleClaims (now - minutes 5) now
            c.clock dep.settings.integrationMaxRetries c.toIntegrationTables) }

section
variable {dep : Deployment} {c c' : Config}

theorem stage_cases {event : IntegrationOutboxEvent}
    (h : c.step dep (.stage event) = some c') : Steps dep c (.stage event) c' := by
  obtain ⟨t, ht, rfl⟩ := Option.map_eq_some_iff.mp h
  rw [stageOutboxEvent] at ht
  split at ht
  · nomatch ht
  · rename_i hfresh
    cases ht
    refine .staged rfl rfl rfl fun e he => ?_
    simp only [List.any_eq_true, not_exists, not_and, Bool.or_eq_true, decide_eq_true_eq,
      not_or] at hfresh
    exact hfresh e he

theorem saveConnection_cases {connection : IntegrationConnection}
    (h : c.step dep (.saveConnection connection) = some c') :
    Steps dep c (.saveConnection connection) c' := by
  obtain ⟨t, ht, rfl⟩ := Option.map_eq_some_iff.mp h
  rw [IntegrationRepository.saveConnection] at ht
  split at ht
  · rename_i hnone
    cases ht
    refine .connected fun hmem => ?_
    obtain ⟨stored, hstored, hid⟩ := List.mem_map.mp hmem
    exact Rows.find_none.mp hnone stored hstored hid
  · rename_i stored hfind
    obtain ⟨hmem, hid⟩ := Rows.find_some hfind
    split at ht
    · rename_i hworkspace
      cases ht
      exact .reconnected hmem hid hworkspace
    · cases ht

theorem dispatchOutbox_cases {eventId : UUID} (h : dispatchOutbox dep c eventId = some c') :
    Steps dep c (.dispatchOutbox eventId) c' := by
  obtain ⟨⟨event, t⟩, hclaim, h⟩ := Option.bind_eq_some_iff.mp h
  obtain ⟨e, he, hclaim⟩ := Option.map_eq_some_iff.mp hclaim
  obtain ⟨hfind, hready⟩ := Option.filter_eq_some_iff.mp he
  obtain ⟨hmem, hid⟩ := Rows.find_some hfind
  cases hclaim
  cases h
  have hid : e.id = eventId := hid
  subst hid
  exact .dispatched hmem hready

theorem createDeliveries_cases {i : Nat} {fresh : Nat → UUID}
    (h : createDeliveries c i fresh = some c') : Steps dep c (.createDeliveries i fresh) c' := by
  obtain ⟨w, hw, h⟩ := Option.bind_eq_some_iff.mp h
  obtain ⟨-, h⟩ := Machine.guard_bind h
  simp only at h
  split at h
  · cases h
    exact .rolledBack hw
  · rename_i deliveries t hcreate
    rw [IntegrationRepository.createDeliveries] at hcreate
    split at hcreate
    · rename_i hunique
      cases hcreate
      cases h
      exact .fannedOut hw rfl hunique.1 hunique.2
    · cases hcreate

theorem deliver_cases {deliveryId : UUID} (h : deliver c deliveryId = some c') :
    Steps dep c (.deliver deliveryId) c' := by
  obtain ⟨⟨delivery, t⟩, hclaim, h⟩ := Option.bind_eq_some_iff.mp h
  obtain ⟨d, hd, hclaim⟩ := Option.map_eq_some_iff.mp hclaim
  obtain ⟨hfind, hdue⟩ := Option.filter_eq_some_iff.mp hd
  obtain ⟨hmem, hid⟩ := Rows.find_some hfind
  cases hclaim
  cases h
  have hid : d.id = deliveryId := hid
  subst hid
  exact .claimed hmem hdue

theorem sendMessage_cases {i : Nat} {raised : Bool} (h : sendMessage dep c i raised = some c') :
    Steps dep c (.sendMessage i raised) c' := by
  obtain ⟨w, hw, h⟩ := Option.bind_eq_some_iff.mp h
  obtain ⟨hphase, h⟩ := Machine.guard_bind h
  split at h
  · cases h
    exact .unprepared hw
  · cases h
    refine .sent hw hphase ?_ rfl
    cases raised <;> exact nofun

theorem recordDeliveryError_cases {deliveryId : UUID} {error : String}
    (h : recordDeliveryError dep c deliveryId error = some c') :
    Steps dep c (.recordDeliveryError deliveryId error) c' := by
  obtain ⟨d, hd, h⟩ := Option.bind_eq_some_iff.mp h
  obtain ⟨hmem, hid⟩ := Rows.find_some hd
  have hid : d.id = deliveryId := hid
  subst hid
  simp only at h
  split at h
  · rename_i hmax
    cases h
    exact .deliveryFailed hmem hmax
  · rename_i hmax
    cases h
    exact .retried hmem (Nat.not_le.mp hmax)

/-- Every step is one of the cases. -/
theorem Config.step_cases {a : Action} (h : c.step dep a = some c') : Steps dep c a c' := by
  cases a with
  | tick clock =>
      simp only [Config.step] at h
      split at h
      · rename_i hle
        cases h
        exact .tick hle
      · nomatch h
  | stage event => exact stage_cases h
  | saveConnection connection => exact saveConnection_cases h
  | saveSubscription subscription =>
      cases h
      rw [IntegrationRepository.saveSubscription]
      split <;> exact .configured
  | dispatchOutbox eventId => exact dispatchOutbox_cases h
  | createDeliveries i fresh => exact createDeliveries_cases h
  | recordOutboxError eventId error =>
      obtain ⟨e, -, h⟩ := Option.bind_eq_some_iff.mp h
      cases h
      exact .outboxFailed
  | deliver deliveryId => exact deliver_cases h
  | sendMessage i raised => exact sendMessage_cases h
  | markDelivered i =>
      obtain ⟨w, hw, h⟩ := Option.bind_eq_some_iff.mp h
      obtain ⟨-, h⟩ := Machine.guard_bind h
      cases h
      exact .marked hw
  | recordDeliveryError deliveryId error => exact recordDeliveryError_cases h
  | recover now tie =>
      obtain ⟨hnow, h⟩ := Machine.guard_bind h
      cases h
      exact .recovered hnow

end

end Integration

end ForkRoom
