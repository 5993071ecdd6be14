/-
# `Model.Notification` — the notifications table and its repository

The rows of `app/models/notification.py` and the methods of
`NotificationRepository` that the delivery jobs call.  A table is its list of
rows; a commit that breaks a `CHECK` constraint of the table is rejected as a
whole.

Left out are the columns no method of the model reads: what a mention links to
(`actor_id`, `entity_type`, `entity_id`, `action_url`), `read_at` with the
methods of the inbox, and `created_at` and `updated_at`.
-/
import ForkRoom.Model.Records

namespace ForkRoom

inductive NotificationKind where
  | actionDue | decisionReview | decisionDeadline | votingClose | mention
  deriving DecidableEq, Repr

def NotificationKind.value : NotificationKind → String
  | .actionDue => "action_due"
  | .decisionReview => "decision_review"
  | .decisionDeadline => "decision_deadline"
  | .votingClose => "voting_close"
  | .mention => "mention"

inductive NotificationStatus where
  | pending | delivering | retryScheduled | delivered | failed
  deriving DecidableEq, Repr

/-- The notification is done with, one way or the other. -/
def NotificationStatus.terminal (s : NotificationStatus) : Bool := s = .delivered || s = .failed

structure Notification where
  id : UUID
  recipientId : UUID
  workspaceId : UUID
  kind : NotificationKind
  sourceId : UUID
  idempotencyKey : String
  title : String
  body : String
  status : NotificationStatus
  attemptCount : Nat
  maxAttempts : Nat
  availableAt : Datetime
  deliveryStartedAt : Option Datetime
  deliveredAt : Option Datetime
  failedAt : Option Datetime
  lastError : Option String
  deriving DecidableEq

instance : Rows.Keyed Notification UUID := ⟨Notification.id⟩

/-- The `CHECK` constraints of the table. -/
structure Notification.Legal (n : Notification) : Prop where
  ckNotificationsMaxAttempts : 1 ≤ n.maxAttempts
  ckNotificationsAttemptLimit : n.attemptCount ≤ n.maxAttempts
  ckNotificationsTerminalState :
    (n.status = .delivered ∧ n.deliveredAt.isSome ∧ n.failedAt.isNone) ∨
    (n.status = .failed ∧ n.failedAt.isSome ∧ n.deliveredAt.isNone) ∨
    (n.status ∈ [.pending, .delivering, .retryScheduled] ∧
      n.deliveredAt.isNone ∧ n.failedAt.isNone)

instance (n : Notification) : Decidable n.Legal :=
  decidable_of_iff (1 ≤ n.maxAttempts ∧ n.attemptCount ≤ n.maxAttempts ∧
      ((n.status = .delivered ∧ n.deliveredAt.isSome ∧ n.failedAt.isNone) ∨
        (n.status = .failed ∧ n.failedAt.isSome ∧ n.deliveredAt.isNone) ∨
        (n.status ∈ [.pending, .delivering, .retryScheduled] ∧
          n.deliveredAt.isNone ∧ n.failedAt.isNone)))
    ⟨fun ⟨h₁, h₂, h₃⟩ => ⟨h₁, h₂, h₃⟩, fun ⟨h₁, h₂, h₃⟩ => ⟨h₁, h₂, h₃⟩⟩

/-! ## The unit of work -/

/-- `UPDATE notifications SET …` of the columns that differ from the loaded row. -/
def Notification.merge (loaded current stored : Notification) : Notification :=
  { stored with
    status := Rows.column loaded.status current.status stored.status
    attemptCount := Rows.column loaded.attemptCount current.attemptCount stored.attemptCount
    availableAt := Rows.column loaded.availableAt current.availableAt stored.availableAt
    deliveryStartedAt := Rows.column loaded.deliveryStartedAt current.deliveryStartedAt
      stored.deliveryStartedAt
    deliveredAt := Rows.column loaded.deliveredAt current.deliveredAt stored.deliveredAt
    failedAt := Rows.column loaded.failedAt current.failedAt stored.failedAt
    lastError := Rows.column loaded.lastError current.lastError stored.lastError }

/-- Nothing has come in between: the row is stored as the writer has it. -/
theorem Notification.merge_self {n n' : Notification}
    (h : n' = { n with
      status := n'.status
      attemptCount := n'.attemptCount
      availableAt := n'.availableAt
      deliveryStartedAt := n'.deliveryStartedAt
      deliveredAt := n'.deliveredAt
      failedAt := n'.failedAt
      lastError := n'.lastError }) : n.merge n' n = n' := by
  rw [h]
  simp only [merge, Rows.column_fresh]

/-- Flush the changed row and commit; `none` when the row is gone or a
constraint rejects it. -/
def Notification.save (loaded current : Notification) (rows : List Notification) :
    Option (List Notification) :=
  (Rows.find loaded.id rows).bind fun stored =>
    let row := loaded.merge current stored
    if row.Legal then some (Rows.modify loaded.id (fun _ => row) rows) else none

/-- What a commit of a changed row has done. -/
theorem Notification.save_some {loaded current : Notification} {rows rows' : List Notification}
    (h : loaded.save current rows = some rows') :
    ∃ stored ∈ rows, stored.id = loaded.id ∧ (loaded.merge current stored).Legal ∧
      rows' = Rows.modify loaded.id (fun _ => loaded.merge current stored) rows := by
  obtain ⟨stored, hfind, h⟩ := Option.bind_eq_some_iff.mp h
  obtain ⟨hmem, hkey⟩ := Rows.find_some hfind
  simp only at h
  split at h
  · rename_i hlegal
    cases h
    exact ⟨stored, hmem, hkey, hlegal, rfl⟩
  · nomatch h

/-! ## Reminders -/

structure ReminderCandidate where
  recipientId : UUID
  workspaceId : UUID
  kind : NotificationKind
  sourceId : UUID
  dueAt : Datetime
  title : String
  body : String

def ReminderCandidate.idempotencyKey (c : ReminderCandidate) : String :=
  c.kind.value ++ ":" ++ c.sourceId.str ++ ":" ++ c.recipientId.str ++ ":" ++ c.dueAt.isoformat

namespace NotificationRepository

/-- The row of a new reminder. -/
def candidateRow (candidate : ReminderCandidate) (maxAttempts : Nat) (availableAt : Datetime)
    (notificationId : UUID) : Notification :=
  { id := notificationId
    recipientId := candidate.recipientId
    workspaceId := candidate.workspaceId
    kind := candidate.kind
    sourceId := candidate.sourceId
    idempotencyKey := candidate.idempotencyKey
    title := candidate.title
    body := candidate.body
    status := .pending
    attemptCount := 0
    maxAttempts := maxAttempts
    availableAt := availableAt
    deliveryStartedAt := none
    deliveredAt := none
    failedAt := none
    lastError := none }

/-- `INSERT … ON CONFLICT (idempotency_key) DO NOTHING RETURNING id`.  The insert
fails when the fresh identifier is taken or the row breaks a check. -/
def createCandidate (candidate : ReminderCandidate) (maxAttempts : Nat) (availableAt : Datetime)
    (notificationId : UUID) (rows : List Notification) :
    Option (Option UUID × List Notification) :=
  if rows.any fun n => n.idempotencyKey = candidate.idempotencyKey then some (none, rows)
  else
    let row := candidateRow candidate maxAttempts availableAt notificationId
    if notificationId ∈ rows.map Notification.id ∨ ¬ row.Legal then none
    else some (some notificationId, rows ++ [row])

/-- The `WHERE` clause of a claim. -/
def claimable (now : Datetime) (n : Notification) : Bool :=
  (n.status = .pending || n.status = .retryScheduled) && n.availableAt ≤ now &&
    n.attemptCount < n.maxAttempts

/-- The row a claim leaves. -/
def claimed (now : Datetime) (n : Notification) : Notification :=
  { n with
    status := .delivering
    attemptCount := n.attemptCount + 1
    deliveryStartedAt := some now
    lastError := none }

/-- `SELECT … FOR UPDATE SKIP LOCKED`, then the claim.  `locked` says that another
transaction holds the lock of the row. -/
def claimForDelivery (notificationId : UUID) (now : Datetime) (locked : Bool)
    (rows : List Notification) : Option (Notification × List Notification) :=
  ((Rows.find notificationId rows).filter fun n => claimable now n && !locked).bind fun n =>
    (n.save (claimed now n) rows).map fun rows' => (claimed now n, rows')

def getForRecipient (notificationId recipientId : UUID) (rows : List Notification) :
    Option Notification :=
  rows.find? fun n => n.id = notificationId && n.recipientId = recipientId

/-- `error[:5000]` -/
def truncated (error : String) : String := String.ofList (error.toList.take 5000)

def markDelivered (notification : Notification) (now : Datetime) : Notification :=
  { notification with
    status := .delivered
    deliveredAt := some now
    deliveryStartedAt := none
    lastError := none }

def scheduleRetry (notification : Notification) (availableAt : Datetime) (error : String) :
    Notification :=
  { notification with
    status := .retryScheduled
    availableAt := availableAt
    deliveryStartedAt := none
    lastError := some (truncated error) }

def markFailed (notification : Notification) (now : Datetime) (error : String) : Notification :=
  { notification with
    status := .failed
    failedAt := some now
    deliveryStartedAt := none
    lastError := some (truncated error) }

/-- The `WHERE` clause of the recovery. -/
def stale (staleBefore : Datetime) (n : Notification) : Bool :=
  n.status = .delivering && n.deliveryStartedAt.any (· < staleBefore) &&
    n.attemptCount < n.maxAttempts

/-- The row the recovery leaves. -/
def recovered (availableAt : Datetime) (n : Notification) : Notification :=
  { n with
    status := .retryScheduled
    availableAt := availableAt
    deliveryStartedAt := none
    lastError := some "Delivery lease expired before completion" }

/-- One `UPDATE … RETURNING id`. -/
def recoverStaleDeliveries (staleBefore availableAt : Datetime) (rows : List Notification) :
    List UUID × List Notification :=
  ((rows.filter (stale staleBefore)).map Notification.id,
    rows.map fun n => if stale staleBefore n then recovered availableAt n else n)

end NotificationRepository

end ForkRoom
