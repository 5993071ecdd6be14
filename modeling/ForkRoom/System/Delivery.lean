/-
# `System.Delivery` — workers, messages and the two notification jobs

`deliver_notification` as the steps between which other processes run: the claim,
the recipient, the e-mail, the second read of the row, the commit of the outcome,
and the retry message.  A worker may die at any point, and an exception may come
at any point.  The two periodic jobs are `ReminderDiscoveryService.discover`, one
step for each candidate, and `recover_stale`.

A message stays with the broker until its task has ended (`acks_late`): a worker
that dies gives it back, a task that returns or raises has used it up.  The broker
may hand a message out twice.  Rows and messages are never removed by anything
else, so the workers of a configuration are also the claims made so far.
-/
import ForkRoom.Lib.Machine
import ForkRoom.Model.Notification

namespace ForkRoom

/-! ## Settings -/

/-- The settings of `app/core/config.py` that the workers use, within their bounds. -/
structure WorkerSettings where
  notificationMaxDeliveryAttempts : Nat
  notificationRetryBaseSeconds : Nat
  notificationRetryMaxSeconds : Nat
  integrationMaxRetries : Nat
  maxDeliveryAttempts_pos : 0 < notificationMaxDeliveryAttempts
  retryBaseSeconds_pos : 0 < notificationRetryBaseSeconds
  retryMaxSeconds_pos : 0 < notificationRetryMaxSeconds
  integrationMaxRetries_pos : 1 ≤ integrationMaxRetries

/-- The settings where nothing else is configured. -/
def WorkerSettings.default : WorkerSettings :=
  ⟨5, 30, 3600, 6, by decide, by decide, by decide, by decide⟩

/-- `timedelta(seconds=n)` -/
def seconds (n : Nat) : Datetime := n * 1000000

/-- `timedelta(minutes=n)` -/
def minutes (n : Nat) : Datetime := seconds (60 * n)

/-- The pause before the next attempt of a task that has been retried `retries` times. -/
def WorkerSettings.countdown (settings : WorkerSettings) (retries : Nat) : Nat :=
  min (settings.notificationRetryBaseSeconds * 2 ^ retries) settings.notificationRetryMaxSeconds

namespace Delivery

/-! ## Configurations -/

/-- A `deliver_notification` message; no worker gets it before `eta`. -/
structure Message where
  notificationId : UUID
  retries : Nat
  eta : Datetime
  deriving DecidableEq

/-- What a worker records, with the `datetime.now(UTC)` of the call. -/
inductive Outcome where
  | delivered (now : Datetime)
  | retry (availableAt : Datetime) (error : String)
  | failed (now : Datetime) (error : String)
  deriving DecidableEq

open NotificationRepository in
/-- The row as the worker changes it. -/
def Outcome.apply : Outcome → Notification → Notification
  | .delivered now, n => markDelivered n now
  | .retry availableAt error, n => scheduleRetry n availableAt error
  | .failed now error, n => markFailed n now error

/-- Where a worker is in `deliver_notification`. -/
inductive Phase where
  /-- the claim is committed -/
  | claimed
  /-- the recipient is there -/
  | sending (email displayName : String)
  /-- the e-mail is out -/
  | sent
  /-- `except Exception as error` -/
  | raised (error : String)
  /-- the row has been read again, and is about to be written -/
  | recording (current : Notification) (outcome : Outcome)
  /-- the retry is recorded, its message not sent yet -/
  | retrying (availableAt : Datetime)
  | finished
  deriving DecidableEq

/-- A worker that has claimed a notification: the row as claimed, and its message. -/
structure Worker where
  notification : Notification
  message : Message
  phase : Phase
  deriving DecidableEq

/-- The claim a worker works under: the notification and the number of the attempt. -/
def Worker.claim (w : Worker) : UUID × Nat := (w.notification.id, w.notification.attemptCount)

/-- The worker has not recorded its outcome yet, and may still do so. -/
def Worker.atWork (w : Worker) : Bool :=
  match w.phase with
  | .retrying _ | .finished => false
  | _ => true

structure Mail where
  claim : UUID × Nat
  recipient : String
  displayName : String
  subject : String
  body : String
  deriving DecidableEq

structure Config where
  clock : Datetime
  notifications : List Notification
  broker : List Message
  workers : List Worker
  mails : List Mail

def Config.empty (clock : Datetime) : Config := ⟨clock, [], [], [], []⟩

/-- The claims made so far. -/
def Config.claims (c : Config) : List (UUID × Nat) := c.workers.map Worker.claim

/-- A message for the notification is with the broker, or with a worker that has
not acknowledged it. -/
def Config.Enqueued (c : Config) (id : UUID) : Prop :=
  (∃ m ∈ c.broker, m.notificationId = id) ∨
    ∃ w ∈ c.workers, w.phase ≠ .finished ∧ w.message.notificationId = id

instance (c : Config) (id : UUID) : Decidable (c.Enqueued id) :=
  inferInstanceAs (Decidable (_ ∨ _))

/-- The `i`-th worker goes on to `phase`. -/
def Config.moved (c : Config) (i : Nat) (w : Worker) (phase : Phase) : Config :=
  { c with workers := c.workers.set i { w with phase := phase } }

/-! ## The task -/

/-- `_claim` up to its commit.  A message without a claim is "ignored", and used up. -/
def claim (c : Config) (k : Nat) (locked : Bool) : Option Config := do
  let m ← c.broker[k]?
  guard (m.eta ≤ c.clock)
  let c' := { c with broker := c.broker.eraseIdx k }
  match NotificationRepository.claimForDelivery m.notificationId c.clock locked c.notifications with
  | none => pure c'
  | some (n, rows) =>
      pure { c' with notifications := rows, workers := c.workers ++ [⟨n, m, .claimed⟩] }

/-- The rest of `_claim`: no mail for a recipient who is gone or not active. -/
def checkRecipient (c : Config) (i : Nat) (recipient : Option User) : Option Config := do
  let w ← c.workers[i]?
  guard (w.phase = .claimed)
  match recipient.filter User.isActive with
  | none =>
      pure (c.moved i w (.recording w.notification
        (.failed c.clock "Notification recipient is unavailable")))
  | some user => pure (c.moved i w (.sending user.email user.displayName))

/-- `send_notification_email`, which may raise once the mail is out. -/
def sendMail (c : Config) (i : Nat) (error : Option String) : Option Config := do
  let w ← c.workers[i]?
  match w.phase with
  | .sending email displayName =>
      let c' := c.moved i w (error.elim .sent .raised)
      pure { c' with
        mails := c.mails ++
          [⟨w.claim, email, displayName, w.notification.title, w.notification.body⟩] }
  | _ => none

/-- The second read, in `_send_and_mark_delivered` or in `_record_retry`. -/
def readAgain (settings : WorkerSettings) (c : Config) (i : Nat) : Option Config := do
  let w ← c.workers[i]?
  let current := NotificationRepository.getForRecipient w.notification.id
    w.notification.recipientId c.notifications
  match w.phase, current with
  | .sent, none | .raised _, none => pure (c.moved i w .finished)
  | .sent, some current => pure (c.moved i w (.recording current (.delivered c.clock)))
  | .raised error, some current =>
      if current.attemptCount ≥ current.maxAttempts then
        pure (c.moved i w (.recording current (.failed c.clock error)))
      else
        let availableAt := c.clock + seconds (settings.countdown w.message.retries)
        pure (c.moved i w (.recording current (.retry availableAt error)))
  | _, _ => none

/-- The commit of the outcome.  A rejected `mark_delivered` raises inside the `try`. -/
def record (c : Config) (i : Nat) (rejected : String) : Option Config := do
  let w ← c.workers[i]?
  match w.phase with
  | .recording current outcome =>
      match current.save (outcome.apply current) c.notifications, outcome with
      | some rows, .retry availableAt _ =>
          pure { c.moved i w (.retrying availableAt) with notifications := rows }
      | some rows, _ => pure { c.moved i w .finished with notifications := rows }
      | none, .delivered _ => pure (c.moved i w (.raised rejected))
      | none, _ => pure (c.moved i w .finished)
  | _ => none

/-- `self.retry`, which gives up past `max_retries`. -/
def publishRetry (settings : WorkerSettings) (c : Config) (i : Nat) : Option Config := do
  let w ← c.workers[i]?
  match w.phase with
  | .retrying _ =>
      let c' := c.moved i w .finished
      if w.message.retries + 1 ≤ settings.notificationMaxDeliveryAttempts - 1 then
        let eta := c.clock + seconds (settings.countdown w.message.retries)
        pure { c' with broker := c.broker ++ [⟨w.notification.id, w.message.retries + 1, eta⟩] }
      else pure c'
  | _ => none

/-- The worker is inside the `try`, in `_send_and_mark_delivered`. -/
def Phase.tried : Phase → Bool
  | .sending .. | .sent | .recording _ (.delivered _) => true
  | _ => false

/-- An exception: caught inside the `try`, else the end of the task. -/
def raise (c : Config) (i : Nat) (error : String) : Option Config := do
  let w ← c.workers[i]?
  guard (w.phase ≠ .finished)
  pure (c.moved i w (if w.phase.tried then .raised error else .finished))

/-- The worker is lost, and its message goes back. -/
def crash (c : Config) (i : Nat) : Option Config := do
  let w ← c.workers[i]?
  guard (w.phase ≠ .finished)
  pure { c.moved i w .finished with broker := c.broker ++ [w.message] }

/-! ## The jobs -/

/-- One candidate of `discover`: insert, and enqueue what was inserted unless the
job fails in between. -/
def discover (settings : WorkerSettings) (c : Config) (now : Datetime)
    (candidate : ReminderCandidate) (notificationId : UUID) (enqueued : Bool) : Option Config := do
  guard (now ≤ c.clock)
  let (created, rows) ← NotificationRepository.createCandidate candidate
    settings.notificationMaxDeliveryAttempts now notificationId c.notifications
  let messages := if enqueued then created.toList.map fun id => ⟨id, 0, c.clock⟩ else []
  pure { c with notifications := rows, broker := c.broker ++ messages }

/-- `recover_stale`; the job fails after `enqueued` messages, unless there are no more. -/
def recoverStale (c : Config) (now : Datetime) (enqueued : Nat) : Option Config := do
  guard (now ≤ c.clock)
  let (ids, rows) := NotificationRepository.recoverStaleDeliveries (now - minutes 10) now
    c.notifications
  pure { c with
    notifications := rows
    broker := c.broker ++ (ids.take enqueued).map fun id => ⟨id, 0, c.clock⟩ }

/-! ## Steps -/

inductive Action where
  | tick (clock : Datetime)
  | discover (now : Datetime) (candidate : ReminderCandidate) (notificationId : UUID)
      (enqueued : Bool)
  | recoverStale (now : Datetime) (enqueued : Nat)
  | redeliver (k : Nat)
  | claim (k : Nat) (locked : Bool)
  | checkRecipient (i : Nat) (recipient : Option User)
  | sendMail (i : Nat) (error : Option String)
  | readAgain (i : Nat)
  | record (i : Nat) (rejected : String)
  | publishRetry (i : Nat)
  | raise (i : Nat) (error : String)
  | crash (i : Nat)

def Config.step (settings : WorkerSettings) (c : Config) : Action → Option Config
  | .tick clock => if c.clock ≤ clock then some { c with clock := clock } else none
  | .discover now candidate id enqueued => discover settings c now candidate id enqueued
  | .recoverStale now enqueued => recoverStale c now enqueued
  | .redeliver k => (c.broker[k]?).map fun m => { c with broker := c.broker ++ [m] }
  | .claim k locked => claim c k locked
  | .checkRecipient i recipient => checkRecipient c i recipient
  | .sendMail i error => sendMail c i error
  | .readAgain i => readAgain settings c i
  | .record i rejected => record c i rejected
  | .publishRetry i => publishRetry settings c i
  | .raise i error => raise c i error
  | .crash i => crash c i

/-- Some run leads to `c`. -/
def Reachable (settings : WorkerSettings) (c : Config) : Prop :=
  ∃ clock, Machine.Run (Config.step settings) (fun _ _ => True) (Config.empty clock) c

/-! ## What one step can do -/

/-- A move of the `i`-th worker `w` that changes no row, message or mail. -/
inductive Turn (settings : WorkerSettings) (c : Config) (i : Nat) (w : Worker) :
    Action → Phase → Prop
  | recipientGone {recipient : Option User} : w.phase = .claimed →
      Turn settings c i w (.checkRecipient i recipient) (.recording w.notification
        (.failed c.clock "Notification recipient is unavailable"))
  | recipientFound {recipient : Option User} {email displayName : String} : w.phase = .claimed →
      Turn settings c i w (.checkRecipient i recipient) (.sending email displayName)
  | missing : (w.phase = .sent ∨ ∃ error, w.phase = .raised error) →
      NotificationRepository.getForRecipient w.notification.id w.notification.recipientId
        c.notifications = none →
      Turn settings c i w (.readAgain i) .finished
  | delivered {current : Notification} : w.phase = .sent →
      current ∈ c.notifications → current.id = w.notification.id →
      Turn settings c i w (.readAgain i) (.recording current (.delivered c.clock))
  | exhausted {current : Notification} {error : String} : w.phase = .raised error →
      current ∈ c.notifications → current.id = w.notification.id →
      current.maxAttempts ≤ current.attemptCount →
      Turn settings c i w (.readAgain i) (.recording current (.failed c.clock error))
  | retry {current : Notification} {error : String} : w.phase = .raised error →
      current ∈ c.notifications → current.id = w.notification.id →
      current.attemptCount < current.maxAttempts →
      Turn settings c i w (.readAgain i) (.recording current
        (.retry (c.clock + seconds (settings.countdown w.message.retries)) error))
  | rejectedDelivery {current : Notification} {now : Datetime} {error : String} :
      w.phase = .recording current (.delivered now) →
      current.save (Outcome.apply (.delivered now) current) c.notifications = none →
      Turn settings c i w (.record i error) (.raised error)
  | rejected {current : Notification} {outcome : Outcome} {error : String} :
      w.phase = .recording current outcome → (∀ now, outcome ≠ .delivered now) →
      current.save (outcome.apply current) c.notifications = none →
      Turn settings c i w (.record i error) .finished
  | gaveUp {availableAt : Datetime} : w.phase = .retrying availableAt →
      settings.notificationMaxDeliveryAttempts - 1 < w.message.retries + 1 →
      Turn settings c i w (.publishRetry i) .finished
  | caught {error : String} : w.phase.tried →
      Turn settings c i w (.raise i error) (.raised error)
  | uncaught {error : String} : w.phase ≠ .finished → w.phase.tried = false →
      Turn settings c i w (.raise i error) .finished

/-- The phase after the outcome is committed. -/
def Outcome.next : Outcome → Phase
  | .retry availableAt _ => .retrying availableAt
  | _ => .finished

open NotificationRepository in
/-- One step, case by case. -/
inductive Steps (settings : WorkerSettings) (c : Config) : Action → Config → Prop
  | tick {clock : Datetime} : c.clock ≤ clock →
      Steps settings c (.tick clock) { c with clock := clock }
  | known {now : Datetime} {candidate : ReminderCandidate} {id : UUID} {enqueued : Bool} :
      Steps settings c (.discover now candidate id enqueued) c
  | discovered {now : Datetime} {candidate : ReminderCandidate} {id : UUID} {enqueued : Bool}
      {row : Notification} : now ≤ c.clock →
      row = candidateRow candidate settings.notificationMaxDeliveryAttempts now id →
      (∀ n ∈ c.notifications, n.idempotencyKey ≠ candidate.idempotencyKey) →
      id ∉ c.notifications.map Notification.id → row.Legal →
      Steps settings c (.discover now candidate id enqueued)
        { c with
          notifications := c.notifications ++ [row]
          broker := c.broker ++ if enqueued then [⟨id, 0, c.clock⟩] else [] }
  | recovered {now : Datetime} {enqueued : Nat} : now ≤ c.clock →
      Steps settings c (.recoverStale now enqueued)
        { c with
          notifications := c.notifications.map fun n =>
            if stale (now - minutes 10) n then NotificationRepository.recovered now n else n
          broker := c.broker ++
            (((c.notifications.filter (stale (now - minutes 10))).map Notification.id).take
              enqueued).map fun id => ⟨id, 0, c.clock⟩ }
  | redelivered {k : Nat} {m : Message} : c.broker[k]? = some m →
      Steps settings c (.redeliver k) { c with broker := c.broker ++ [m] }
  | ignored {k : Nat} {locked : Bool} {m : Message} : c.broker[k]? = some m → m.eta ≤ c.clock →
      claimForDelivery m.notificationId c.clock locked c.notifications = none →
      Steps settings c (.claim k locked) { c with broker := c.broker.eraseIdx k }
  | claimed {k : Nat} {locked : Bool} {m : Message} {n : Notification} :
      c.broker[k]? = some m → m.eta ≤ c.clock → n ∈ c.notifications →
      n.id = m.notificationId → claimable c.clock n →
      Steps settings c (.claim k locked)
        { c with
          notifications := Rows.modify n.id (fun _ => claimed c.clock n) c.notifications
          broker := c.broker.eraseIdx k
          workers := c.workers ++ [⟨claimed c.clock n, m, .claimed⟩] }
  | turned {a : Action} {i : Nat} {w : Worker} {phase : Phase} : c.workers[i]? = some w →
      Turn settings c i w a phase → Steps settings c a (c.moved i w phase)
  | mailed {i : Nat} {w : Worker} {error : Option String} {mail : Mail}
      {email displayName : String} :
      c.workers[i]? = some w → w.phase = .sending email displayName → mail.claim = w.claim →
      Steps settings c (.sendMail i error)
        { c.moved i w (error.elim .sent .raised) with mails := c.mails ++ [mail] }
  | recorded {i : Nat} {w : Worker} {error : String} {current stored : Notification}
      {outcome : Outcome} : c.workers[i]? = some w → w.phase = .recording current outcome →
      stored ∈ c.notifications → stored.id = current.id →
      (current.merge (outcome.apply current) stored).Legal →
      Steps settings c (.record i error)
        { c.moved i w outcome.next with
          notifications := Rows.modify current.id
            (fun _ => current.merge (outcome.apply current) stored) c.notifications }
  | published {i : Nat} {w : Worker} {availableAt : Datetime} :
      c.workers[i]? = some w → w.phase = .retrying availableAt →
      Steps settings c (.publishRetry i)
        { c.moved i w .finished with
          broker := c.broker ++ [⟨w.notification.id, w.message.retries + 1,
            c.clock + seconds (settings.countdown w.message.retries)⟩] }
  | crashed {i : Nat} {w : Worker} : c.workers[i]? = some w → w.phase ≠ .finished →
      Steps settings c (.crash i) { c.moved i w .finished with broker := c.broker ++ [w.message] }

/-- A claim that goes through: the row was claimable, and is written as claimed. -/
theorem claimForDelivery_some {id : UUID} {now : Datetime} {locked : Bool}
    {rows rows' : List Notification} {n' : Notification}
    (h : NotificationRepository.claimForDelivery id now locked rows = some (n', rows')) :
    ∃ n ∈ rows, n.id = id ∧ NotificationRepository.claimable now n ∧
      n' = NotificationRepository.claimed now n ∧
      rows' = Rows.modify n.id (fun _ => NotificationRepository.claimed now n) rows := by
  obtain ⟨n, hn, h⟩ := Option.bind_eq_some_iff.mp h
  obtain ⟨hfind, hok⟩ := Option.filter_eq_some_iff.mp hn
  obtain ⟨rows'', hsave, h⟩ := Option.map_eq_some_iff.mp h
  cases h
  obtain ⟨hmem, hid⟩ := Rows.find_some hfind
  refine ⟨n, hmem, hid, (Bool.and_eq_true_iff.mp hok).1, rfl, ?_⟩
  -- the row that the flush finds is the row that was read
  obtain ⟨stored, hstored, hsave⟩ := Option.bind_eq_some_iff.mp hsave
  have hkey : Rows.find n.id rows = some n := by
    have hid' : n.id = id := hid
    rw [hid', hfind]
  cases hkey.symm.trans hstored
  simp only at hsave
  split at hsave
  · cases hsave
    rw [Notification.merge_self rfl]
  · cases hsave

section
variable {settings : WorkerSettings} {c c' : Config}

theorem claim_cases {k : Nat} {locked : Bool} (h : claim c k locked = some c') :
    Steps settings c (.claim k locked) c' := by
  obtain ⟨m, hm, h⟩ := Option.bind_eq_some_iff.mp h
  obtain ⟨heta, h⟩ := Machine.guard_bind h
  simp only at h
  split at h
  · rename_i hno
    cases h
    exact .ignored hm heta hno
  · rename_i n rows hclaim
    obtain ⟨n', hmem, hid, hok, rfl, rfl⟩ := claimForDelivery_some hclaim
    cases h
    exact .claimed hm heta hmem hid hok

theorem checkRecipient_cases {i : Nat} {recipient : Option User}
    (h : checkRecipient c i recipient = some c') :
    Steps settings c (.checkRecipient i recipient) c' := by
  obtain ⟨w, hw, h⟩ := Option.bind_eq_some_iff.mp h
  obtain ⟨hphase, h⟩ := Machine.guard_bind h
  split at h
  · cases h
    exact .turned hw (.recipientGone hphase)
  · cases h
    exact .turned hw (.recipientFound hphase)

theorem sendMail_cases {i : Nat} {error : Option String} (h : sendMail c i error = some c') :
    Steps settings c (.sendMail i error) c' := by
  obtain ⟨w, hw, h⟩ := Option.bind_eq_some_iff.mp h
  split at h
  · rename_i email displayName hphase
    cases h
    exact .mailed hw hphase rfl
  · nomatch h

theorem getForRecipient_some {id recipientId : UUID} {rows : List Notification} {n : Notification}
    (h : NotificationRepository.getForRecipient id recipientId rows = some n) :
    n ∈ rows ∧ n.id = id := by
  have hp := List.find?_some h
  simp only [Bool.and_eq_true, decide_eq_true_eq] at hp
  exact ⟨List.mem_of_find?_eq_some h, hp.1⟩

theorem readAgain_cases {i : Nat} (h : readAgain settings c i = some c') :
    Steps settings c (.readAgain i) c' := by
  obtain ⟨w, hw, h⟩ := Option.bind_eq_some_iff.mp h
  simp only at h
  split at h
  · rename_i hphase hnone
    cases h
    exact .turned hw (.missing (.inl hphase) hnone)
  · rename_i error hphase hnone
    cases h
    exact .turned hw (.missing (.inr ⟨error, hphase⟩) hnone)
  · rename_i current hphase hget
    obtain ⟨hmem, hid⟩ := getForRecipient_some hget
    cases h
    exact .turned hw (.delivered hphase hmem hid)
  · rename_i error current hphase hget
    obtain ⟨hmem, hid⟩ := getForRecipient_some hget
    split at h
    · rename_i hmax
      cases h
      exact .turned hw (.exhausted hphase hmem hid hmax)
    · rename_i hmax
      cases h
      exact .turned hw (.retry hphase hmem hid (Nat.not_le.mp hmax))
  · nomatch h

theorem record_cases {i : Nat} {error : String} (h : record c i error = some c') :
    Steps settings c (.record i error) c' := by
  obtain ⟨w, hw, h⟩ := Option.bind_eq_some_iff.mp h
  split at h
  · rename_i current outcome hphase
    split at h
    · rename_i rows availableAt _ hsave
      obtain ⟨stored, hmem, hkey, hlegal, rfl⟩ := Notification.save_some hsave
      cases h
      exact .recorded hw hphase hmem hkey hlegal
    · rename_i outcome _ _ rows hother hsave
      obtain ⟨stored, hmem, hkey, hlegal, rfl⟩ := Notification.save_some hsave
      have hnext : outcome.next = .finished := by
        cases outcome with
        | retry availableAt error => exact absurd rfl (hother availableAt error)
        | delivered | failed => rfl
      cases h
      exact hnext ▸ .recorded hw hphase hmem hkey hlegal
    · rename_i now hsave
      cases h
      exact .turned hw (.rejectedDelivery hphase hsave)
    · rename_i hother hsave
      cases h
      exact .turned hw (.rejected hphase hother hsave)
  · nomatch h

theorem publishRetry_cases {i : Nat} (h : publishRetry settings c i = some c') :
    Steps settings c (.publishRetry i) c' := by
  obtain ⟨w, hw, h⟩ := Option.bind_eq_some_iff.mp h
  split at h
  · rename_i availableAt hphase
    simp only at h
    split at h
    · cases h
      exact .published hw hphase
    · rename_i hmax
      cases h
      exact .turned hw (.gaveUp hphase (Nat.not_le.mp hmax))
  · nomatch h

theorem raise_cases {i : Nat} {error : String} (h : raise c i error = some c') :
    Steps settings c (.raise i error) c' := by
  obtain ⟨w, hw, h⟩ := Option.bind_eq_some_iff.mp h
  obtain ⟨hphase, h⟩ := Machine.guard_bind h
  cases h
  cases htried : w.phase.tried with
  | true => exact .turned hw (.caught htried)
  | false => exact .turned hw (.uncaught hphase htried)

theorem discover_cases {now : Datetime} {candidate : ReminderCandidate} {id : UUID}
    {enqueued : Bool} (h : discover settings c now candidate id enqueued = some c') :
    Steps settings c (.discover now candidate id enqueued) c' := by
  obtain ⟨hnow, h⟩ := Machine.guard_bind h
  obtain ⟨⟨created, rows⟩, hcreate, h⟩ := Option.bind_eq_some_iff.mp h
  unfold NotificationRepository.createCandidate at hcreate
  simp only at h hcreate
  split at hcreate
  · cases hcreate
    cases h
    cases enqueued <;> simpa using Steps.known
  · rename_i hkey
    split at hcreate
    · nomatch hcreate
    · rename_i hfresh
      obtain ⟨hid, hlegal⟩ := not_or.mp hfresh
      cases hcreate
      cases h
      exact .discovered hnow rfl (by simpa using hkey) hid (not_not.mp hlegal)

/-- Every step is one of the cases. -/
theorem Config.step_cases {a : Action} (h : c.step settings a = some c') :
    Steps settings c a c' := by
  cases a with
  | tick clock =>
      simp only [Config.step] at h
      split at h
      · rename_i hle
        cases h
        exact .tick hle
      · nomatch h
  | discover now candidate id enqueued => exact discover_cases h
  | recoverStale now enqueued =>
      obtain ⟨hnow, h⟩ := Machine.guard_bind h
      cases h
      exact .recovered hnow
  | redeliver k =>
      obtain ⟨m, hm, h⟩ := Option.map_eq_some_iff.mp h
      cases h
      exact .redelivered hm
  | claim k locked => exact claim_cases h
  | checkRecipient i recipient => exact checkRecipient_cases h
  | sendMail i error => exact sendMail_cases h
  | readAgain i => exact readAgain_cases h
  | record i error => exact record_cases h
  | publishRetry i => exact publishRetry_cases h
  | raise i error => exact raise_cases h
  | crash i =>
      obtain ⟨w, hw, h⟩ := Option.bind_eq_some_iff.mp h
      obtain ⟨hphase, h⟩ := Machine.guard_bind h
      cases h
      exact .crashed hw hphase

end

end Delivery

end ForkRoom
