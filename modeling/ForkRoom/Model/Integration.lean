/-
# `Model.Integration` — outbox, connections, deliveries, and their repository

The rows of `app/models/integration.py` and the methods of
`IntegrationRepository` that the dispatch, deliver and recover tasks call.  Each
method is one commit; `dbNow` is the `now()` of its transaction, which goes to the
`updated_at` of every row it changes.

Left out are what an installation needs besides the access token (the account,
the refresh token, scopes and expiry), the configuration of a subscription,
`response_status`, the webhook events, and `created_at` of all but the deliveries.
-/
import ForkRoom.Model.Records

namespace ForkRoom

inductive IntegrationProvider where
  | slack
  deriving DecidableEq, Repr

inductive IntegrationConnectionStatus where
  | pending | active | expired | revoked | error
  deriving DecidableEq, Repr

inductive IntegrationDeliveryStatus where
  | pending | delivering | retryScheduled | delivered | failed
  deriving DecidableEq, Repr

inductive IntegrationOutboxStatus where
  | pending | processing | processed | failed
  deriving DecidableEq, Repr

/-- A staged event with the columns of its delivery. -/
structure OutboxEvent extends IntegrationOutboxEvent where
  status : IntegrationOutboxStatus
  attemptCount : Nat
  processedAt : Option Datetime
  lastError : Option String
  updatedAt : Datetime

structure IntegrationConnection where
  id : UUID
  workspaceId : UUID
  provider : IntegrationProvider
  status : IntegrationConnectionStatus
  accessTokenEncrypted : Option String
  deriving DecidableEq

structure IntegrationSubscription where
  id : UUID
  connectionId : UUID
  eventType : IntegrationEventType
  enabled : Bool
  destinationId : Option String
  destinationName : Option String
  deriving DecidableEq

structure IntegrationDelivery where
  id : UUID
  connectionId : UUID
  eventType : IntegrationEventType
  eventId : UUID
  status : IntegrationDeliveryStatus
  attemptCount : Nat
  requestSummary : Json
  errorCode : Option String
  nextRetryAt : Option Datetime
  deliveredAt : Option Datetime
  createdAt : Datetime
  updatedAt : Datetime

instance : Rows.Keyed OutboxEvent UUID := ⟨fun e => e.id⟩
instance : Rows.Keyed IntegrationConnection UUID := ⟨IntegrationConnection.id⟩
instance : Rows.Keyed IntegrationSubscription (UUID × IntegrationEventType) :=
  ⟨fun s => (s.connectionId, s.eventType)⟩
instance : Rows.Keyed IntegrationDelivery UUID := ⟨IntegrationDelivery.id⟩

/-- What an event is about: no two rows of the outbox have the same. -/
def OutboxEvent.subject (e : OutboxEvent) : IntegrationEventType × UUID := (e.eventType, e.eventId)

/-- What a delivery is for: no two deliveries have the same. -/
def IntegrationDelivery.target (d : IntegrationDelivery) : UUID × IntegrationEventType × UUID :=
  (d.connectionId, d.eventType, d.eventId)

structure IntegrationTables where
  outboxEvents : List OutboxEvent := []
  connections : List IntegrationConnection := []
  subscriptions : List IntegrationSubscription := []
  deliveries : List IntegrationDelivery := []

namespace IntegrationRepository

/-! ## The outbox -/

/-- `stage_outbox_event`, committed with the change it tells of; the insert fails
when the identifier or the subject is taken. -/
def stageOutboxEvent (event : IntegrationOutboxEvent) (dbNow : Datetime) (t : IntegrationTables) :
    Option IntegrationTables :=
  if t.outboxEvents.any fun e =>
      e.id = event.id || e.subject = (event.eventType, event.eventId) then none
  else some { t with outboxEvents := t.outboxEvents ++
    [{ event with
      status := .pending
      attemptCount := 0
      processedAt := none
      lastError := none
      updatedAt := dbNow }] }

/-- The `WHERE` clause of a claim, and of the ready events. -/
def readyEvent (now : Datetime) (maxAttempts : Nat) (e : OutboxEvent) : Bool :=
  (e.status = .pending || e.status = .failed) && e.availableAt ≤ now && e.attemptCount < maxAttempts

/-- The row a claim leaves. -/
def claimedEvent (dbNow : Datetime) (e : OutboxEvent) : OutboxEvent :=
  { e with
    status := .processing
    attemptCount := e.attemptCount + 1
    lastError := none
    updatedAt := dbNow }

def claimOutboxEvent (eventId : UUID) (now dbNow : Datetime) (maxAttempts : Nat)
    (t : IntegrationTables) : Option (OutboxEvent × IntegrationTables) :=
  ((Rows.find eventId t.outboxEvents).filter (readyEvent now maxAttempts)).map fun e =>
    (claimedEvent dbNow e, { t with
      outboxEvents := Rows.modify e.id (fun _ => claimedEvent dbNow e) t.outboxEvents })

/-- The connection is to get the event, by this subscription. -/
def subscribed (event : OutboxEvent) (c : IntegrationConnection) (s : IntegrationSubscription) :
    Bool :=
  s.connectionId = c.id && c.workspaceId = event.workspaceId && c.status = .active &&
    s.eventType = event.eventType && s.enabled && s.destinationId.isSome

/-- The connections that are to get the event, each with its subscription. -/
def subscribers (event : OutboxEvent) (t : IntegrationTables) :
    List (IntegrationConnection × IntegrationSubscription) :=
  t.connections.flatMap fun c => (t.subscriptions.filter (subscribed event c)).map fun s => (c, s)

/-- The delivery of an event through a connection. -/
def newDelivery (event : OutboxEvent) (now dbNow : Datetime) (id : UUID)
    (c : IntegrationConnection) (s : IntegrationSubscription) : IntegrationDelivery :=
  { id := id
    connectionId := c.id
    eventType := event.eventType
    eventId := event.eventId
    status := .pending
    attemptCount := 0
    requestSummary := .obj [("workspace_id", .str event.workspaceId.str),
      ("destination_id", .ofOption s.destinationId),
      ("destination_name", .ofOption s.destinationName),
      ("payload", event.payload)]
    errorCode := none
    nextRetryAt := some now
    deliveredAt := none
    createdAt := dbNow
    updatedAt := dbNow }

/-- The deliveries of an event that are not there yet; `fresh` are the `uuid4()`s. -/
def newDeliveries (event : OutboxEvent) (now dbNow : Datetime) (fresh : Nat → UUID)
    (t : IntegrationTables) : List IntegrationDelivery :=
  let existing := (t.deliveries.filter fun d =>
    d.eventType = event.eventType && d.eventId = event.eventId).map fun d => d.connectionId
  let rows := (subscribers event t).filter fun r => r.1.id ∉ existing
  rows.mapIdx fun i r => newDelivery event now dbNow (fresh i) r.1 r.2

/-- The event as its dispatcher writes it, over the row as it is stored. -/
def processedEvent (event : OutboxEvent) (now dbNow : Datetime) (stored : OutboxEvent) :
    OutboxEvent :=
  { stored with
    status := Rows.column event.status .processed stored.status
    processedAt := Rows.column event.processedAt (some now) stored.processedAt
    lastError := Rows.column event.lastError none stored.lastError
    updatedAt := dbNow }

/-- `create_deliveries` for an event as it was claimed.  All of it is rolled back
when a delivery is there already or an identifier is taken. -/
def createDeliveries (event : OutboxEvent) (now dbNow : Datetime) (fresh : Nat → UUID)
    (t : IntegrationTables) : Option (List IntegrationDelivery × IntegrationTables) :=
  let deliveries := newDeliveries event now dbNow fresh t
  let rows := t.deliveries ++ deliveries
  if (rows.map IntegrationDelivery.id).Nodup ∧ (rows.map IntegrationDelivery.target).Nodup then
    some (deliveries, { t with
      outboxEvents := Rows.modify event.id (processedEvent event now dbNow) t.outboxEvents
      deliveries := rows })
  else none

/-- `error[:n]` -/
def truncated (n : Nat) (error : String) : String := String.ofList (error.toList.take n)

def markOutboxFailed (eventId : UUID) (availableAt dbNow : Datetime) (error : String)
    (t : IntegrationTables) : IntegrationTables :=
  { t with outboxEvents := Rows.modify eventId (fun e =>
      if e.status = .processed then e
      else { e with
        status := .failed
        availableAt := availableAt
        lastError := some (truncated 2000 error)
        updatedAt := dbNow }) t.outboxEvents }

/-- `tie` is the order of rows that the `ORDER BY` leaves open. -/
def listReadyOutboxEvents (now : Datetime) (maxAttempts limit : Nat) (tie : UUID → Nat)
    (t : IntegrationTables) : List OutboxEvent :=
  (Rows.orderBy (fun a b => a.availableAt < b.availableAt ||
      (a.availableAt = b.availableAt && tie a.id ≤ tie b.id))
    (t.outboxEvents.filter (readyEvent now maxAttempts))).take limit

/-! ## Deliveries -/

/-- The `WHERE` clause of a claim; it does not count the attempts. -/
def dueDelivery (now : Datetime) (d : IntegrationDelivery) : Bool :=
  (d.status = .pending || d.status = .retryScheduled) && d.nextRetryAt.all (· ≤ now)

/-- The row a claim leaves. -/
def claimedDelivery (dbNow : Datetime) (d : IntegrationDelivery) : IntegrationDelivery :=
  { d with
    status := .delivering
    attemptCount := d.attemptCount + 1
    errorCode := none
    nextRetryAt := none
    updatedAt := dbNow }

def claimDelivery (deliveryId : UUID) (now dbNow : Datetime) (t : IntegrationTables) :
    Option (IntegrationDelivery × IntegrationTables) :=
  ((Rows.find deliveryId t.deliveries).filter (dueDelivery now)).map fun d =>
    (claimedDelivery dbNow d, { t with
      deliveries := Rows.modify d.id (fun _ => claimedDelivery dbNow d) t.deliveries })

/-- `mark_delivery_delivered` in the session of the claim: the row is the one loaded
there, so the columns it has cleared already are not written again. -/
def markDeliveryDelivered (loaded : IntegrationDelivery) (now dbNow : Datetime)
    (t : IntegrationTables) : IntegrationTables :=
  { t with deliveries := Rows.modify loaded.id (fun d =>
      { d with
        status := Rows.column loaded.status .delivered d.status
        deliveredAt := Rows.column loaded.deliveredAt (some now) d.deliveredAt
        nextRetryAt := Rows.column loaded.nextRetryAt none d.nextRetryAt
        errorCode := Rows.column loaded.errorCode none d.errorCode
        updatedAt := dbNow }) t.deliveries }

def scheduleDeliveryRetry (deliveryId : UUID) (nextRetryAt dbNow : Datetime) (errorCode : String)
    (t : IntegrationTables) : IntegrationTables :=
  { t with deliveries := Rows.modify deliveryId (fun d =>
      if d.status = .delivered then d
      else { d with
        status := .retryScheduled
        nextRetryAt := some nextRetryAt
        errorCode := some (truncated 100 errorCode)
        updatedAt := dbNow }) t.deliveries }

def markDeliveryFailed (deliveryId : UUID) (dbNow : Datetime) (errorCode : String)
    (t : IntegrationTables) : IntegrationTables :=
  { t with deliveries := Rows.modify deliveryId (fun d =>
      if d.status = .delivered then d
      else { d with
        status := .failed
        nextRetryAt := none
        errorCode := some (truncated 100 errorCode)
        updatedAt := dbNow }) t.deliveries }

/-- The `WHERE` clause of the ready deliveries. -/
def readyDelivery (now : Datetime) (maxAttempts : Nat) (d : IntegrationDelivery) : Bool :=
  dueDelivery now d && d.attemptCount < maxAttempts

def listReadyDeliveries (now : Datetime) (maxAttempts limit : Nat) (tie : UUID → Nat)
    (t : IntegrationTables) : List IntegrationDelivery :=
  (Rows.orderBy (fun a b => a.createdAt < b.createdAt ||
      (a.createdAt = b.createdAt && tie a.id ≤ tie b.id))
    (t.deliveries.filter (readyDelivery now maxAttempts))).take limit

/-! ## Stale claims -/

def staleEvent (staleBefore : Datetime) (e : OutboxEvent) : Bool :=
  e.status = .processing && e.updatedAt ≤ staleBefore

def staleDelivery (staleBefore : Datetime) (d : IntegrationDelivery) : Bool :=
  d.status = .delivering && d.updatedAt ≤ staleBefore

/-- The row the recovery leaves of an event. -/
def recoveredEvent (availableAt dbNow : Datetime) (e : OutboxEvent) : OutboxEvent :=
  { e with
    status := .failed
    availableAt := availableAt
    lastError := some "stale_claim_recovered"
    updatedAt := dbNow }

/-- The row the recovery leaves of a delivery. -/
def recoveredDelivery (availableAt dbNow : Datetime) (maxAttempts : Nat) (d : IntegrationDelivery) :
    IntegrationDelivery :=
  if d.attemptCount ≥ maxAttempts then
    { d with
      status := .failed
      nextRetryAt := none
      errorCode := some "stale_claim_recovered"
      updatedAt := dbNow }
  else
    { d with
      status := .retryScheduled
      nextRetryAt := some availableAt
      errorCode := some "stale_claim_recovered"
      updatedAt := dbNow }

def recoverStaleClaims (staleBefore availableAt dbNow : Datetime) (maxAttempts : Nat)
    (t : IntegrationTables) : IntegrationTables :=
  { t with
    outboxEvents := t.outboxEvents.map fun e =>
      if staleEvent staleBefore e then recoveredEvent availableAt dbNow e else e
    deliveries := t.deliveries.map fun d =>
      if staleDelivery staleBefore d then recoveredDelivery availableAt dbNow maxAttempts d else d }

/-! ## Connections and subscriptions -/

/-- A connection is inserted or written again (`upsert_connection`, `mark_verified`,
`mark_revoked`); none of them moves it to another workspace. -/
def saveConnection (c : IntegrationConnection) (t : IntegrationTables) : Option IntegrationTables :=
  match Rows.find c.id t.connections with
  | none => some { t with connections := t.connections ++ [c] }
  | some stored =>
      if c.workspaceId = stored.workspaceId then
        some { t with connections := Rows.modify c.id (fun _ => c) t.connections }
      else none

/-- A subscription is inserted or written again (`ensure_subscriptions`,
`update_subscriptions`); there is one for each connection and type. -/
def saveSubscription (s : IntegrationSubscription) (t : IntegrationTables) : IntegrationTables :=
  let key := (s.connectionId, s.eventType)
  match Rows.find key t.subscriptions with
  | none => { t with subscriptions := t.subscriptions ++ [s] }
  | some _ => { t with subscriptions := Rows.modify key (fun _ => s) t.subscriptions }

end IntegrationRepository

end ForkRoom
