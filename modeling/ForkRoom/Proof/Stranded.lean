/-
# `Proof.Stranded` — which failures strand a notification

The recovery looks at expired leases with attempts left, and at nothing else.  So
a notification is lost when its message is lost while it waits for one, or when
the worker of its last attempt is.  `Unbroken` names the failures that do this;
along every run without them, each notification that is not done is covered right
after a recovery.

The argument keeps two invariants.  `Coherent` says what workers, messages and
loaded rows know about the stored rows.  `Live` says where the next attempt of a
row comes from: a message, a retry about to be published, or, on the last
attempt, the worker that is still at it.  A message that comes before the row is
available is used up in vain, so there must be one that does not.
-/
import ForkRoom.Proof.Delivery

namespace ForkRoom

namespace Delivery

open NotificationRepository

/-! ## The claim -/

/-- A retry message for the notification is pending. -/
def Config.RetryPending (c : Config) (id : UUID) : Prop :=
  ∃ m ∈ c.broker, m.notificationId = id ∧ 0 < m.retries

/-- Right after `recover_stale` at `now`, every notification that is not done has
somebody to take care of it. -/
def Covered (c : Config) (now : Datetime) : Prop :=
  ∀ n ∈ c.notifications, n.status.terminal = false →
    c.Enqueued n.id ∨
    (n.status = .retryScheduled ∧ now < n.availableAt ∧ c.RetryPending n.id) ∨
    (n.status = .delivering ∧ n.deliveryStartedAt.any fun t => now - minutes 10 ≤ t)

instance (c : Config) (now : Datetime) : Decidable (Covered c now) := by
  unfold Covered Config.RetryPending
  infer_instance

/-- The worker is about to record a retry. -/
def Worker.recordsRetry (w : Worker) : Bool :=
  match w.phase with
  | .recording _ (.retry ..) => true
  | _ => false

/-- Nothing is lost with the worker: it is not between the record of a retry and
the retry message, and its claim was not for the last attempt. -/
def Worker.replaceable (w : Worker) : Bool :=
  match w.phase with
  | .retrying _ => false
  | .finished => true
  | _ => w.notification.attemptCount < w.notification.maxAttempts

/-- The step is none of the failures that strand a notification. -/
def Unbroken (c : Config) : Action → Prop
  /- the insert of a reminder is followed by its message -/
  | .discover _ candidate _ enqueued => enqueued = true ∨
      ∃ n ∈ c.notifications, n.idempotencyKey = candidate.idempotencyKey
  /- every lease recovered gets its message -/
  | .recoverStale now enqueued =>
      (c.notifications.filter (stale (now - minutes 10))).length ≤ enqueued
  /- no message is used up on a claimable row that another transaction has locked -/
  | .claim k locked => locked = true → ∀ m ∈ c.broker[k]?, ∀ n ∈ c.notifications,
      n.id = m.notificationId → claimable c.clock n = false
  /- no retry is recorded when the attempts have been used up in the meantime -/
  | .record i _ => ∀ w ∈ c.workers[i]?, ∀ n ∈ c.notifications,
      n.id = w.notification.id → w.recordsRetry → n.attemptCount < n.maxAttempts
  | .raise i _ => ∀ w ∈ c.workers[i]?, w.phase.tried ∨ w.replaceable
  | .crash i => ∀ w ∈ c.workers[i]?, w.replaceable
  | _ => True

instance (c : Config) : ∀ a : Action, Decidable (Unbroken c a)
  | .discover _ candidate _ enqueued => inferInstanceAs (Decidable (enqueued = true ∨
      ∃ n ∈ c.notifications, n.idempotencyKey = candidate.idempotencyKey))
  | .recoverStale now enqueued => inferInstanceAs (Decidable
      ((c.notifications.filter (stale (now - minutes 10))).length ≤ enqueued))
  | .claim k locked => inferInstanceAs (Decidable (locked = true → ∀ m ∈ c.broker[k]?,
      ∀ n ∈ c.notifications, n.id = m.notificationId → claimable c.clock n = false))
  | .record i _ => inferInstanceAs (Decidable (∀ w ∈ c.workers[i]?, ∀ n ∈ c.notifications,
      n.id = w.notification.id → w.recordsRetry → n.attemptCount < n.maxAttempts))
  | .raise i _ => inferInstanceAs (Decidable
      (∀ w ∈ c.workers[i]?, w.phase.tried ∨ w.replaceable))
  | .crash i => inferInstanceAs (Decidable (∀ w ∈ c.workers[i]?, w.replaceable))
  | .tick _ | .redeliver _ | .checkRecipient .. | .sendMail .. | .readAgain _
  | .publishRetry _ => instDecidableTrue

/-! ## What workers and messages know about the rows -/

/-- The notification waits for a worker to claim it. -/
def waiting (n : Notification) : Bool := n.status = .pending || n.status = .retryScheduled

theorem waiting_of_claimable {now : Datetime} {n : Notification} (h : claimable now n) :
    waiting n := by
  obtain ⟨hs | hs, -⟩ := claimable_iff.mp h
  · rw [waiting, hs]
    rfl
  · rw [waiting, hs]
    rfl

theorem open_cases {n : Notification} (h : n.status.terminal = false) :
    waiting n ∨ n.status = .delivering := by
  cases hs : n.status with
  | delivering => exact .inr rfl
  | pending | retryScheduled => exact .inl (by rw [waiting, hs]; rfl)
  | delivered | failed =>
      rw [hs] at h
      nomatch h

theorem waiting_open {n : Notification} (h : waiting n) : n.status.terminal = false := by
  cases hs : n.status with
  | pending | retryScheduled | delivering => rfl
  | delivered | failed =>
      rw [waiting, hs] at h
      nomatch h

/-- What a reader of the row may count on later. -/
structure Later (n n' : Notification) : Prop where
  id : n'.id = n.id
  recipientId : n'.recipientId = n.recipientId
  maxAttempts : n'.maxAttempts = n.maxAttempts
  attemptCount : n.attemptCount ≤ n'.attemptCount
  terminal : n.status.terminal → n'.status = n.status

theorem Later.refl (n : Notification) : Later n n :=
  ⟨rfl, rfl, rfl, Nat.le_refl _, fun _ => rfl⟩

theorem Later.trans {a b c : Notification} (h : Later a b) (h' : Later b c) : Later a c :=
  ⟨h'.id.trans h.id, h'.recipientId.trans h.recipientId, h'.maxAttempts.trans h.maxAttempts,
    h.attemptCount.trans h'.attemptCount,
    fun ht => (h'.terminal (h.terminal ht ▸ ht)).trans (h.terminal ht)⟩

theorem Kept.later {n n' : Notification} (h : Kept n n') : Later n n' :=
  ⟨h.id, h.recipientId, h.maxAttempts, h.attemptCount.ge, h.terminal⟩

theorem claimed_later {now : Datetime} {n : Notification} (h : claimable now n) :
    Later n (claimed now n) := by
  refine ⟨rfl, rfl, rfl, Nat.le_succ _, fun ht => ?_⟩
  rw [waiting_open (waiting_of_claimable h)] at ht
  nomatch ht

theorem Change.later {c c' : Config} (hkeys : (c.notifications.map Notification.id).Nodup)
    (h : Change c c') {n : Notification} (hn : n ∈ c.notifications) :
    ∃ n' ∈ c'.notifications, Later n n' := by
  cases h with
  | inserted _ _ _ hrows _ => exact ⟨n, hrows ▸ List.mem_append_left _ hn, .refl n⟩
  | @claimed m hm hok hrows _ =>
      rw [hrows]
      by_cases he : n.id = m.id
      · rw [Rows.eq_of_key hkeys hn hm he]
        exact ⟨_, (Rows.mem_replace hm).mpr (.inl rfl), claimed_later hok⟩
      · exact ⟨n, (Rows.mem_replace hm).mpr (.inr ⟨hn, he⟩), .refl n⟩
  | rewritten hf hrows _ => exact ⟨_, hrows ▸ List.mem_map_of_mem hn, (hf n hn).later⟩

/-- The state of a row, as far as its columns go. -/
structure Proper (settings : WorkerSettings) (n : Notification) : Prop where
  legal : n.Legal
  maxAttempts : n.maxAttempts = settings.notificationMaxDeliveryAttempts
  leased : n.status.terminal = false → (n.deliveryStartedAt.isSome ↔ n.status = .delivering)
  attemptCount : waiting n → n.attemptCount < n.maxAttempts
  pending : n.status = .pending → n.attemptCount = 0

/-- What the worker `w` knows about the row `n` it has claimed. -/
structure Claimant (settings : WorkerSettings) (w : Worker) (n : Notification) : Prop where
  proper : Proper settings w.notification
  later : Later w.notification n
  message : w.message.notificationId = w.notification.id
  retries : w.message.retries + 1 ≤ w.notification.attemptCount

/-- What it knows in a given phase. -/
def Knows (settings : WorkerSettings) (clock : Datetime) (w : Worker) (n : Notification) :
    Phase → Prop
  | .recording current outcome => Proper settings current ∧ Later current n ∧
      w.notification.attemptCount ≤ current.attemptCount ∧
      ∀ availableAt error, outcome = .retry availableAt error →
        current.attemptCount < current.maxAttempts ∧
          availableAt ≤ clock + seconds (settings.countdown w.message.retries)
  | .retrying availableAt =>
      w.message.retries + 1 ≤ settings.notificationMaxDeliveryAttempts - 1 ∧
        availableAt ≤ clock + seconds (settings.countdown w.message.retries)
  | _ => True

structure Coherent (settings : WorkerSettings) (c : Config) : Prop where
  counted : Counted c
  proper : ∀ n ∈ c.notifications, Proper settings n
  messages : ∀ m ∈ c.broker, ∃ n ∈ c.notifications, n.id = m.notificationId ∧
    m.retries ≤ n.attemptCount
  workers : ∀ w ∈ c.workers, ∃ n ∈ c.notifications, Claimant settings w n ∧
    Knows settings c.clock w n w.phase

theorem Coherent.empty (settings : WorkerSettings) (clock : Datetime) :
    Coherent settings (.empty clock) where
  counted := .empty clock
  proper := fun _ h => nomatch h
  messages := fun _ h => nomatch h
  workers := fun _ h => nomatch h

theorem Knows.later {settings : WorkerSettings} {clock clock' : Datetime} {w : Worker}
    {n n' : Notification} {phase : Phase} (h : Knows settings clock w n phase)
    (hclock : clock ≤ clock') (hn : Later n n') : Knows settings clock' w n' phase := by
  cases phase with
  | recording current outcome =>
      obtain ⟨hproper, hlater, hle, hretry⟩ := h
      refine ⟨hproper, hlater.trans hn, hle, fun availableAt error he => ?_⟩
      obtain ⟨hlt, hat⟩ := hretry availableAt error he
      exact ⟨hlt, hat.trans (Int.add_le_add_right hclock _)⟩
  | retrying availableAt => exact ⟨h.1, h.2.trans (Int.add_le_add_right hclock _)⟩
  | _ => trivial

/-- Two looks at one row see the same row. -/
theorem Coherent.row_eq {settings : WorkerSettings} {c : Config} (h : Coherent settings c)
    {n n' : Notification} (hn : n ∈ c.notifications) (hn' : n' ∈ c.notifications)
    (he : n.id = n'.id) : n = n' :=
  Rows.eq_of_key h.counted.keys hn hn' he

/-! ### The row an outcome leaves -/

/-- A row that is not done now was not done when it was loaded. -/
theorem Later.open_before {current stored : Notification} (h : Later current stored)
    (hs : stored.status.terminal = false) : current.status.terminal = false := by
  cases hc : current.status.terminal with
  | false => rfl
  | true =>
      rw [h.terminal hc, hc] at hs
      nomatch hs

theorem ne_status_of_open {n : Notification} {status : NotificationStatus}
    (hopen : n.status.terminal = false) (hstatus : status.terminal) : status ≠ n.status := by
  intro he
  rw [← he, hstatus] at hopen
  nomatch hopen

/-- A retry of a row that was not done when it was loaded writes both the status and the
lease, or neither. -/
theorem merge_retry {settings : WorkerSettings} {current : Notification}
    (hcurrent : Proper settings current) (hpos : 0 < current.attemptCount)
    (hopen : current.status.terminal = false) (stored : Notification) :
    (Rows.column current.status .retryScheduled stored.status = stored.status ∧
        Rows.column current.deliveryStartedAt none stored.deliveryStartedAt =
          stored.deliveryStartedAt) ∨
      (Rows.column current.status .retryScheduled stored.status = .retryScheduled ∧
        Rows.column current.deliveryStartedAt none stored.deliveryStartedAt = none) := by
  by_cases he : NotificationStatus.retryScheduled = current.status
  · -- the row was already waiting
    have hnone : current.deliveryStartedAt = none := by
      refine Option.not_isSome_iff_eq_none.mp fun hsome => ?_
      have hleased := (hcurrent.leased hopen).mp hsome
      rw [← he] at hleased
      nomatch hleased
    left
    rw [← he, hnone, Rows.column_kept, Rows.column_kept]
    exact ⟨rfl, rfl⟩
  · -- the row was under a lease
    have hleased : current.status = .delivering := by
      rcases open_cases hopen with hw | hd
      · rw [waiting, Bool.or_eq_true, decide_eq_true_eq, decide_eq_true_eq] at hw
        rcases hw with hw | hw
        · rw [hcurrent.pending hw] at hpos
          nomatch hpos
        · exact absurd hw.symm he
      · exact hd
    have hsome : none ≠ current.deliveryStartedAt := by
      intro hnone
      have hstarted := (hcurrent.leased hopen).mpr hleased
      rw [← hnone] at hstarted
      nomatch hstarted
    right
    exact ⟨Rows.column_changed he _, Rows.column_changed hsome _⟩

/-- The row after an outcome is done, or waits for the recorded retry, or has
kept its status and lease. -/
theorem merge_proper {settings : WorkerSettings} {outcome : Outcome} {current stored : Notification}
    (hcurrent : Proper settings current) (hstored : Proper settings stored)
    (hlater : Later current stored) (hpos : 0 < current.attemptCount)
    (hlegal : (current.merge (outcome.apply current) stored).Legal) :
    (current.merge (outcome.apply current) stored).status.terminal ∨
      ∃ availableAt error, outcome = .retry availableAt error ∧
        ((current.merge (outcome.apply current) stored).availableAt = stored.availableAt ∨
          (current.merge (outcome.apply current) stored).availableAt = availableAt) ∧
        (((current.merge (outcome.apply current) stored).status = stored.status ∧
            (current.merge (outcome.apply current) stored).deliveryStartedAt =
              stored.deliveryStartedAt) ∨
          ((current.merge (outcome.apply current) stored).status = .retryScheduled ∧
            (current.merge (outcome.apply current) stored).deliveryStartedAt = none)) := by
  cases hs : stored.status.terminal with
  | true =>
      left
      rw [(merge_kept hstored.legal hlegal).terminal hs, hs]
  | false =>
      have hopen := hlater.open_before hs
      cases outcome with
      | delivered now =>
          left
          show (Rows.column current.status .delivered stored.status).terminal
          rw [Rows.column_changed (ne_status_of_open hopen rfl)]
          rfl
      | failed now error =>
          left
          show (Rows.column current.status .failed stored.status).terminal
          rw [Rows.column_changed (ne_status_of_open hopen rfl)]
          rfl
      | retry availableAt error =>
          right
          exact ⟨availableAt, error, rfl, Rows.column_cases _ _ _,
            merge_retry hcurrent hpos hopen stored⟩

/-! ### Every step -/

/-- A row that is done has no lease and waits for nobody. -/
theorem Proper.of_terminal {settings : WorkerSettings} {n : Notification} (hlegal : n.Legal)
    (hmax : n.maxAttempts = settings.notificationMaxDeliveryAttempts) (ht : n.status.terminal) :
    Proper settings n where
  legal := hlegal
  maxAttempts := hmax
  leased := fun h => by rw [ht] at h; nomatch h
  attemptCount := fun h => by rw [waiting_open h] at ht; nomatch ht
  pending := fun h => by rw [h] at ht; nomatch ht

theorem Proper.candidate {settings : WorkerSettings} {candidate : ReminderCandidate}
    {now : Datetime} {id : UUID}
    (h : (candidateRow candidate settings.notificationMaxDeliveryAttempts now id).Legal) :
    Proper settings (candidateRow candidate settings.notificationMaxDeliveryAttempts now id) where
  legal := h
  maxAttempts := rfl
  leased := fun _ => ⟨fun h => (nomatch h), fun h => (nomatch h)⟩
  attemptCount := fun _ => settings.maxDeliveryAttempts_pos
  pending := fun _ => rfl

theorem Proper.recovered {settings : WorkerSettings} {staleBefore now : Datetime}
    {n : Notification} (h : Proper settings n) (hstale : stale staleBefore n) :
    Proper settings (NotificationRepository.recovered now n) where
  legal := (recovered_kept h.legal hstale).legal
  maxAttempts := h.maxAttempts
  leased := fun _ => ⟨fun h => (nomatch h), fun h => (nomatch h)⟩
  attemptCount := fun _ => of_decide_eq_true (Bool.and_eq_true_iff.mp hstale).2
  pending := fun h => nomatch h

theorem Proper.claimed {settings : WorkerSettings} {now : Datetime} {n : Notification}
    (h : Proper settings n) (hclaim : claimable now n) :
    Proper settings (NotificationRepository.claimed now n) where
  legal := claimed_legal h.legal hclaim
  maxAttempts := h.maxAttempts
  leased := fun _ => ⟨fun _ => rfl, fun _ => rfl⟩
  attemptCount := fun h => nomatch h
  pending := fun h => nomatch h

theorem Proper.merge {settings : WorkerSettings} {outcome : Outcome} {current stored : Notification}
    (hcurrent : Proper settings current) (hstored : Proper settings stored)
    (hlater : Later current stored) (hpos : 0 < current.attemptCount)
    (hlegal : (current.merge (outcome.apply current) stored).Legal)
    (hretry : ∀ availableAt error, outcome = .retry availableAt error →
      stored.attemptCount < stored.maxAttempts) :
    Proper settings (current.merge (outcome.apply current) stored) := by
  have hcount := merge_attemptCount outcome current stored
  rcases merge_proper hcurrent hstored hlater hpos hlegal with
    ht | ⟨availableAt, error, hout, -, ⟨hs, hd⟩ | ⟨hs, hd⟩⟩
  · exact .of_terminal hlegal hstored.maxAttempts ht
  · refine ⟨hlegal, hstored.maxAttempts, fun ht => ?_, fun _ => ?_, fun hp => ?_⟩
    · rw [hs] at ht
      rw [hs, hd]
      exact hstored.leased ht
    · rw [hcount]
      exact hretry availableAt error hout
    · rw [hcount]
      exact hstored.pending (hs ▸ hp)
  · refine ⟨hlegal, hstored.maxAttempts, fun _ => ?_, fun _ => ?_, fun hp => ?_⟩
    · rw [hs, hd]
      exact ⟨fun h => (nomatch h), fun h => (nomatch h)⟩
    · rw [hcount]
      exact hretry availableAt error hout
    · rw [hs] at hp
      nomatch hp

section
variable {settings : WorkerSettings} {c c' : Config} {a : Action}

/-- The row that a worker records is the row it has claimed. -/
theorem Coherent.recording (h : Coherent settings c) {i : Nat} {w : Worker}
    {current stored : Notification} {outcome : Outcome} (hw : c.workers[i]? = some w)
    (hphase : w.phase = .recording current outcome) (hmem : stored ∈ c.notifications)
    (hid : stored.id = current.id) :
    Claimant settings w stored ∧ Knows settings c.clock w stored (.recording current outcome) := by
  obtain ⟨n, hn, hclaim, hknows⟩ := h.workers w (List.mem_of_getElem? hw)
  rw [hphase] at hknows
  have hlater : Later current n := hknows.2.1
  rw [h.row_eq hmem hn (hid.trans hlater.id.symm)]
  exact ⟨hclaim, hknows⟩

theorem Coherent.proper_step (h : Coherent settings c) (hok : Unbroken c a)
    (hs : Steps settings c a c') : ∀ n ∈ c'.notifications, Proper settings n := by
  cases hs with
  | tick | known | redelivered | ignored | turned | mailed | published | crashed => exact h.proper
  | discovered _ hrow _ _ hlegal =>
      subst hrow
      exact Machine.forall_snoc h.proper (.candidate hlegal)
  | recovered =>
      intro x hx
      obtain ⟨n, hn, rfl⟩ := List.mem_map.mp hx
      split
      · rename_i hstale
        exact (h.proper n hn).recovered hstale
      · exact h.proper n hn
  | claimed _ _ hn _ hclaim =>
      intro x hx
      rcases (Rows.mem_replace hn).mp hx with rfl | ⟨hx, -⟩
      · exact (h.proper _ hn).claimed hclaim
      · exact h.proper x hx
  | @recorded i w _ current stored outcome hw hphase hmem hid hlegal =>
      intro x hx
      obtain ⟨n, hn, rfl⟩ := Rows.mem_modify.mp hx
      split
      · obtain ⟨hclaim, hproper, hlater, hle, -⟩ := h.recording hw hphase hmem hid
        have hpos : 0 < current.attemptCount := by
          have := hclaim.retries
          omega
        refine hproper.merge (h.proper stored hmem) hlater hpos hlegal fun _ _ hout => ?_
        refine hok w hw stored hmem hclaim.later.id ?_
        rw [Worker.recordsRetry, hphase, hout]
      · exact h.proper n hn

/-- Each row is still there, and nobody has to revise what it knows of it. -/
structure Follows (c c' : Config) : Prop where
  clock : c.clock ≤ c'.clock
  later : ∀ n ∈ c.notifications, ∃ n' ∈ c'.notifications, Later n n'

theorem Coherent.follows (h : Coherent settings c) (hs : Steps settings c a c') :
    Follows c c' := by
  refine ⟨?_, fun n hn => (hs.change h.counted.keys h.counted.legal).later h.counted.keys hn⟩
  cases hs with
  | tick hclock => exact hclock
  | _ => exact Int.le_refl _

theorem Follows.worker (h : Follows c c') {w : Worker} {phase : Phase}
    (hw : ∃ n ∈ c.notifications, Claimant settings w n ∧ Knows settings c.clock w n phase) :
    ∃ n ∈ c'.notifications, Claimant settings { w with phase := phase } n ∧
      Knows settings c'.clock { w with phase := phase } n phase := by
  obtain ⟨n, hn, hclaim, hknows⟩ := hw
  obtain ⟨n', hn', hlater⟩ := h.later n hn
  refine ⟨n', hn', ⟨hclaim.proper, hclaim.later.trans hlater, hclaim.message, hclaim.retries⟩, ?_⟩
  have hknows' := hknows.later h.clock hlater
  cases phase <;> exact hknows'

theorem Follows.message (h : Follows c c') {m : Message}
    (hm : ∃ n ∈ c.notifications, n.id = m.notificationId ∧ m.retries ≤ n.attemptCount) :
    ∃ n ∈ c'.notifications, n.id = m.notificationId ∧ m.retries ≤ n.attemptCount := by
  obtain ⟨n, hn, hid, hle⟩ := hm
  obtain ⟨n', hn', hlater⟩ := h.later n hn
  exact ⟨n', hn', hlater.id.trans hid, hle.trans hlater.attemptCount⟩

/-- What a worker knows after a turn. -/
theorem Coherent.knows_turn (h : Coherent settings c) {i : Nat} {w : Worker} {phase : Phase}
    {n : Notification} (hturn : Turn settings c i w a phase) (hn : n ∈ c.notifications)
    (hclaim : Claimant settings w n) : Knows settings c.clock w n phase := by
  have hread : ∀ {current : Notification}, current ∈ c.notifications →
      current.id = w.notification.id → current = n := fun hcurrent hid =>
    h.row_eq hcurrent hn (hid.trans hclaim.later.id.symm)
  cases hturn with
  | recipientGone =>
      exact ⟨hclaim.proper, hclaim.later, Nat.le_refl _, fun _ _ hout => nomatch hout⟩
  | delivered _ hcurrent hid =>
      rw [hread hcurrent hid]
      exact ⟨h.proper n hn, .refl n, hclaim.later.attemptCount, fun _ _ hout => nomatch hout⟩
  | exhausted _ hcurrent hid _ =>
      rw [hread hcurrent hid]
      exact ⟨h.proper n hn, .refl n, hclaim.later.attemptCount, fun _ _ hout => nomatch hout⟩
  | retry _ hcurrent hid hlt =>
      rw [hread hcurrent hid] at hlt ⊢
      refine ⟨h.proper n hn, .refl n, hclaim.later.attemptCount, fun _ _ hout => ?_⟩
      cases hout
      exact ⟨hlt, Int.le_refl _⟩
  | _ => trivial

/-- A turn of a worker: the others know what they knew. -/
theorem Coherent.workers_moved (h : Coherent settings c) (hf : Follows c c') {i : Nat} {w : Worker}
    {phase : Phase}
    (hw : c.workers[i]? = some w) (hc : c'.workers = (c.moved i w phase).workers)
    (hknows : ∀ n ∈ c.notifications, Claimant settings w n →
      Knows settings c.clock w n w.phase → Knows settings c.clock w n phase) :
    ∀ x ∈ c'.workers, ∃ n ∈ c'.notifications, Claimant settings x n ∧
      Knows settings c'.clock x n x.phase := by
  rw [hc]
  refine Machine.forall_set (fun x hx => hf.worker (h.workers x hx)) ?_
  obtain ⟨n, hn, hclaim, hold⟩ := h.workers w (List.mem_of_getElem? hw)
  exact hf.worker ⟨n, hn, hclaim, hknows n hn hclaim hold⟩

/-- The retry that a worker has recorded is within the limit of `self.retry`. -/
theorem Coherent.knows_next (h : Coherent settings c) {i : Nat} {w : Worker}
    {current stored : Notification} {outcome : Outcome} (hw : c.workers[i]? = some w)
    (hphase : w.phase = .recording current outcome) (hmem : stored ∈ c.notifications)
    (hid : stored.id = current.id) :
    Knows settings c.clock w stored outcome.next := by
  obtain ⟨hclaim, hproper, hlater, hle, hretry⟩ := h.recording hw hphase hmem hid
  cases outcome with
  | delivered | failed => trivial
  | retry availableAt error =>
      obtain ⟨hlt, hat⟩ := hretry availableAt error rfl
      refine ⟨?_, hat⟩
      have hmax := hproper.maxAttempts
      have hretries := hclaim.retries
      omega

theorem Coherent.step (h : Coherent settings c) (hok : Unbroken c a)
    (hs : Steps settings c a c') : Coherent settings c' := by
  have hf := h.follows hs
  refine ⟨h.counted.step hs, h.proper_step hok hs, ?_, ?_⟩
  · have hkeep : ∀ m ∈ c.broker, ∃ n ∈ c'.notifications, n.id = m.notificationId ∧
        m.retries ≤ n.attemptCount := fun m hm => hf.message (h.messages m hm)
    cases hs with
    | tick | known | turned | mailed | recorded => exact hkeep
    | @discovered _ _ _ enqueued row _ hrow =>
        intro m hm
        rcases List.mem_append.mp hm with hm | hm
        · exact hkeep m hm
        · split at hm
          · rw [List.mem_singleton.mp hm]
            exact ⟨row, List.mem_append_right _ (List.mem_singleton_self _), hrow ▸ rfl,
              Nat.zero_le _⟩
          · nomatch hm
    | recovered =>
        intro m hm
        rcases List.mem_append.mp hm with hm | hm
        · exact hkeep m hm
        · obtain ⟨id, hid, rfl⟩ := List.mem_map.mp hm
          obtain ⟨n, hn, rfl⟩ := List.mem_map.mp (List.mem_of_mem_take hid)
          refine ⟨_, List.mem_map_of_mem (List.mem_filter.mp hn).1, ?_, Nat.zero_le _⟩
          split <;> rfl
    | redelivered hm => exact Machine.forall_snoc hkeep (hkeep _ (List.mem_of_getElem? hm))
    | ignored | claimed => exact fun m hm => hkeep m (List.mem_of_mem_eraseIdx hm)
    | @published _ w _ hw hphase =>
        refine Machine.forall_snoc hkeep ?_
        obtain ⟨n, hn, hclaim, -⟩ := h.workers w (List.mem_of_getElem? hw)
        exact ⟨n, hn, hclaim.later.id, hclaim.retries.trans hclaim.later.attemptCount⟩
    | @crashed _ w hw =>
        refine Machine.forall_snoc hkeep ?_
        obtain ⟨n, hn, hclaim, -⟩ := h.workers w (List.mem_of_getElem? hw)
        have hle := hclaim.later.attemptCount
        have hretries := hclaim.retries
        exact ⟨n, hn, hclaim.later.id.trans hclaim.message.symm, by omega⟩
  · have hkeep : ∀ w ∈ c.workers, ∃ n ∈ c'.notifications, Claimant settings w n ∧
        Knows settings c'.clock w n w.phase := fun w hw => hf.worker (h.workers w hw)
    cases hs with
    | tick | known | discovered | recovered | redelivered | ignored => exact hkeep
    | @claimed _ _ m n hm _ hn hid hclaim =>
        refine Machine.forall_snoc hkeep ?_
        obtain ⟨x, hx, hxid, hle⟩ := h.messages m (List.mem_of_getElem? hm)
        rw [h.row_eq hx hn (hxid.trans hid.symm)] at hle
        exact ⟨_, (Rows.mem_replace hn).mpr (.inl rfl),
          ⟨(h.proper n hn).claimed hclaim, .refl _, hid.symm, Nat.succ_le_succ hle⟩, trivial⟩
    | turned hw hturn =>
        exact h.workers_moved hf hw rfl fun n hn hclaim _ => h.knows_turn hturn hn hclaim
    | @mailed _ _ error _ _ _ hw =>
        refine h.workers_moved hf hw rfl fun _ _ _ _ => ?_
        cases error <;> trivial
    | recorded hw hphase =>
        refine h.workers_moved hf hw rfl fun n hn _ hknows => ?_
        rw [hphase] at hknows
        exact h.knows_next hw hphase hn hknows.2.1.id
    | published hw | crashed hw => exact h.workers_moved hf hw rfl fun _ _ _ _ => trivial

/-! ## Where the next attempt comes from -/

/-- A message for the notification that no worker gets before `t`, or a retry that
is about to become one. -/
def Source (c : Config) (id : UUID) (t : Datetime) : Prop :=
  (∃ m ∈ c.broker, m.notificationId = id ∧ t ≤ m.eta) ∨
    ∃ w ∈ c.workers, w.notification.id = id ∧
      ∃ availableAt, w.phase = .retrying availableAt ∧ t ≤ availableAt

/-- The claim for the last attempt is still with its worker. -/
def Attended (c : Config) (n : Notification) : Prop :=
  ∃ w ∈ c.workers, w.claim = (n.id, n.attemptCount) ∧ w.atWork

structure Live (c : Config) : Prop where
  available : ∀ n ∈ c.notifications, n.availableAt ≤ c.clock ∨ Source c n.id n.availableAt
  supplied : ∀ n ∈ c.notifications, waiting n → ∃ t, Source c n.id t
  lastAttempt : ∀ n ∈ c.notifications, n.status = .delivering →
    n.maxAttempts ≤ n.attemptCount → Attended c n

theorem Live.empty (clock : Datetime) : Live (.empty clock) where
  available := fun _ h => nomatch h
  supplied := fun _ h => nomatch h
  lastAttempt := fun _ h => nomatch h

theorem source_snoc {id : UUID} {t : Datetime} {ms : List Message} (h : Source c id t) :
    Source { c with broker := c.broker ++ ms } id t := by
  rcases h with ⟨m, hm, hid, ht⟩ | h
  · exact .inl ⟨m, List.mem_append_left _ hm, hid, ht⟩
  · exact .inr h

/-- Another message may be used up, or this one if it came too early. -/
theorem source_eraseIdx {id : UUID} {t : Datetime} {k : Nat} {m : Message}
    (h : Source c id t) (hm : c.broker[k]? = some m)
    (hother : m.notificationId = id → m.eta < t) :
    Source { c with broker := c.broker.eraseIdx k } id t := by
  rcases h with ⟨x, hx, hid, ht⟩ | h
  · left
    refine ⟨x, ?_, hid, ht⟩
    obtain ⟨j, hj⟩ := List.mem_iff_getElem?.mp hx
    refine List.mem_eraseIdx_iff_getElem?.mpr ⟨j, ?_, hj⟩
    rintro rfl
    cases hm.symm.trans hj
    exact absurd ht (Int.not_le.mpr (hother hid))
  · exact .inr h

/-- A worker that has not recorded a retry is no source. -/
theorem source_moved {id : UUID} {t : Datetime} {i : Nat} {w : Worker} {phase : Phase}
    (h : Source c id t) (hw : c.workers[i]? = some w)
    (hphase : ∀ availableAt, w.phase ≠ .retrying availableAt) :
    Source (c.moved i w phase) id t := by
  rcases h with h | ⟨x, hx, hid, availableAt, hp, ht⟩
  · exact .inl h
  · exact .inr ⟨x, Machine.mem_set_of_ne hw hx (fun he => hphase availableAt (he ▸ hp)), hid,
      availableAt, hp, ht⟩

/-- No step without one of the failures takes a source away, but for the message
that a claim uses up. -/
theorem Coherent.source_step (hc : Coherent settings c) (hok : Unbroken c a)
    (hs : Steps settings c a c') {id : UUID} {t : Datetime} (h : Source c id t)
    (hclaim : ∀ k locked m, a = .claim k locked → c.broker[k]? = some m → m.eta ≤ c.clock →
      m.notificationId = id → m.eta < t) : Source c' id t := by
  cases hs with
  | tick | known => exact h
  | discovered | recovered | redelivered => exact source_snoc h
  | ignored hm heta => exact source_eraseIdx h hm (hclaim _ _ _ rfl hm heta)
  | claimed hm heta =>
      rcases source_eraseIdx h hm (hclaim _ _ _ rfl hm heta) with h | ⟨x, hx, hsource⟩
      · exact .inl h
      · exact .inr ⟨x, List.mem_append_left _ hx, hsource⟩
  | @turned _ i w phase hw hturn =>
      refine source_moved h hw fun availableAt hp => ?_
      cases hturn with
      | gaveUp _ hlt =>
          obtain ⟨n, -, -, hknows⟩ := hc.workers w (List.mem_of_getElem? hw)
          rw [hp] at hknows
          have := hknows.1
          omega
      | uncaught _ htried =>
          rcases hok w hw with ht | hr
          · rw [htried] at ht
            nomatch ht
          · rw [Worker.replaceable, hp] at hr
            nomatch hr
      | caught htried =>
          rw [hp] at htried
          nomatch htried
      | missing hphase =>
          rcases hphase with hphase | ⟨error, hphase⟩
          · nomatch hp.symm.trans hphase
          · nomatch hp.symm.trans hphase
      | recipientGone hphase | recipientFound hphase | delivered hphase | exhausted hphase
      | retry hphase | rejectedDelivery hphase | rejected hphase =>
          nomatch hp.symm.trans hphase
  | mailed hw hphase =>
      exact source_moved h hw fun availableAt hp => by nomatch hp.symm.trans hphase
  | recorded hw hphase =>
      exact source_moved h hw fun availableAt hp => by nomatch hp.symm.trans hphase
  | @published i w availableAt hw hphase =>
      obtain ⟨n, -, -, hknows⟩ := hc.workers w (List.mem_of_getElem? hw)
      rw [hphase] at hknows
      rcases h with ⟨m, hm, hid, ht⟩ | ⟨x, hx, hid, availableAt', hp, ht⟩
      · exact .inl ⟨m, List.mem_append_left _ hm, hid, ht⟩
      · by_cases he : x = w
        · -- the retry becomes a message
          subst he
          cases hphase.symm.trans hp
          exact .inl ⟨_, List.mem_append_right _ (List.mem_singleton_self _), hid,
            ht.trans hknows.2⟩
        · exact .inr ⟨x, Machine.mem_set_of_ne hw hx he, hid, availableAt', hp, ht⟩
  | crashed hw hphase =>
      refine source_snoc (source_moved h hw fun availableAt hp => ?_)
      have hr := hok _ hw
      rw [Worker.replaceable, hp] at hr
      nomatch hr

/-! ### A worker at work on the last attempt -/

/-- An outcome recorded over a row that is not done is legal. -/
theorem merge_legal {outcome : Outcome} {current stored : Notification}
    (hcurrent : Proper settings current) (hstored : Proper settings stored)
    (hlater : Later current stored) (hs : stored.status.terminal = false) :
    (current.merge (outcome.apply current) stored).Legal := by
  have hopen := hlater.open_before hs
  obtain ⟨hd, hf⟩ := legal_open hstored.legal hs
  obtain ⟨hd', hf'⟩ := legal_open hcurrent.legal hopen
  refine ⟨hstored.legal.1, (merge_attemptCount outcome current stored).trans_le hstored.legal.2, ?_⟩
  cases outcome with
  | delivered now =>
      refine .inl ⟨Rows.column_changed (ne_status_of_open hopen rfl) _, ?_, ?_⟩
      · show (Rows.column current.deliveredAt (some now) stored.deliveredAt).isSome
        rw [hd', Rows.column_changed (Option.some_ne_none now)]
        rfl
      · show (Rows.column current.failedAt current.failedAt stored.failedAt).isNone
        rw [Rows.column_kept, hf]
        rfl
  | failed now error =>
      refine .inr (.inl ⟨Rows.column_changed (ne_status_of_open hopen rfl) _, ?_, ?_⟩)
      · show (Rows.column current.failedAt (some now) stored.failedAt).isSome
        rw [hf', Rows.column_changed (Option.some_ne_none now)]
        rfl
      · show (Rows.column current.deliveredAt current.deliveredAt stored.deliveredAt).isNone
        rw [Rows.column_kept, hd]
        rfl
  | retry availableAt error =>
      refine .inr (.inr ⟨?_, ?_, ?_⟩)
      · show Rows.column current.status .retryScheduled stored.status ∈ _
        rcases Rows.column_cases current.status .retryScheduled stored.status with hc | hc
        · rw [hc]
          cases hst : stored.status with
          | pending | delivering | retryScheduled => simp
          | delivered | failed =>
              rw [hst] at hs
              nomatch hs
        · rw [hc]
          simp
      · show (Rows.column current.deliveredAt current.deliveredAt stored.deliveredAt).isNone
        rw [Rows.column_kept, hd]
        rfl
      · show (Rows.column current.failedAt current.failedAt stored.failedAt).isNone
        rw [Rows.column_kept, hf]
        rfl

/-- A commit that the database rejects was of a row that is done. -/
theorem Coherent.terminal_of_rejected (h : Coherent settings c) {i : Nat} {w : Worker}
    {current n : Notification} {outcome : Outcome} (hw : c.workers[i]? = some w)
    (hphase : w.phase = .recording current outcome) (hn : n ∈ c.notifications)
    (hid : n.id = w.notification.id)
    (hsave : current.save (outcome.apply current) c.notifications = none) :
    n.status.terminal := by
  obtain ⟨x, hx, hclaim, hknows⟩ := h.workers w (List.mem_of_getElem? hw)
  rw [h.row_eq hn hx (hid.trans hclaim.later.id.symm)]
  rw [hphase] at hknows
  obtain ⟨hproper, hlater, -, -⟩ := hknows
  cases hs : x.status.terminal with
  | true => rfl
  | false =>
      have hfind : Rows.find current.id c.notifications = some x :=
        (Rows.find_eq_some h.counted.keys).mpr ⟨hx, hlater.id⟩
      rw [Notification.save, hfind, Option.bind_some] at hsave
      simp only at hsave
      rw [if_pos (merge_legal hproper (h.proper x hx) hlater hs)] at hsave
      cases hsave

/-- The second read finds the row. -/
theorem Coherent.getForRecipient_ne_none (h : Coherent settings c) {i : Nat} {w : Worker}
    (hw : c.workers[i]? = some w) :
    getForRecipient w.notification.id w.notification.recipientId c.notifications ≠ none := by
  obtain ⟨n, hn, hclaim, -⟩ := h.workers w (List.mem_of_getElem? hw)
  intro hnone
  have := List.find?_eq_none.mp hnone n hn
  simp [hclaim.later.id, hclaim.later.recipientId] at this

/-- The worker of a last attempt has no attempt left. -/
theorem Coherent.last_claim (h : Coherent settings c) {w : Worker} {n : Notification}
    (hw : w ∈ c.workers) (hn : n ∈ c.notifications) (hclaim : w.claim = (n.id, n.attemptCount))
    (hmax : n.maxAttempts ≤ n.attemptCount) :
    w.notification.maxAttempts ≤ w.notification.attemptCount := by
  obtain ⟨x, hx, hx', -⟩ := h.workers w hw
  have hid : w.notification.id = n.id := congrArg Prod.fst hclaim
  have hcount : w.notification.attemptCount = n.attemptCount := congrArg Prod.snd hclaim
  have hmax' := hx'.later.maxAttempts
  rw [h.row_eq hx hn (hx'.later.id.trans hid)] at hmax'
  omega

/-- The worker of a last attempt stays at work until the row is done. -/
theorem Coherent.attended_moved (h : Coherent settings c) {i : Nat} {w : Worker} {phase : Phase}
    {n : Notification} (hn : n ∈ c.notifications) (hmax : n.maxAttempts ≤ n.attemptCount)
    (hat : Attended c n) (hw : c.workers[i]? = some w)
    (hphase : w.notification.id = n.id →
      w.notification.maxAttempts ≤ w.notification.attemptCount → w.atWork →
      ({ w with phase := phase } : Worker).atWork) : Attended (c.moved i w phase) n := by
  obtain ⟨x, hx, hclaim, hwork⟩ := hat
  by_cases he : x = w
  · subst he
    exact ⟨_, Machine.mem_set_self hw, hclaim,
      hphase (congrArg Prod.fst hclaim) (h.last_claim hx hn hclaim hmax) hwork⟩
  · exact ⟨x, Machine.mem_set_of_ne hw hx he, hclaim, hwork⟩

theorem Coherent.attended_turn (h : Coherent settings c) (hok : Unbroken c a) {i : Nat}
    {w : Worker} {phase : Phase} {n : Notification} (hw : c.workers[i]? = some w)
    (hturn : Turn settings c i w a phase) (hn : n ∈ c.notifications)
    (hopen : n.status.terminal = false) (hid : w.notification.id = n.id)
    (hlast : w.notification.maxAttempts ≤ w.notification.attemptCount) (hwork : w.atWork) :
    ({ w with phase := phase } : Worker).atWork := by
  cases hturn with
  | recipientGone | recipientFound | delivered | exhausted | retry | rejectedDelivery | caught =>
      rfl
  | missing _ hnone => exact absurd hnone (h.getForRecipient_ne_none hw)
  | rejected hphase _ hsave =>
      rw [h.terminal_of_rejected hw hphase hn hid.symm hsave] at hopen
      nomatch hopen
  | gaveUp hphase =>
      rw [Worker.atWork, hphase] at hwork
      nomatch hwork
  | uncaught _ htried =>
      rcases hok w hw with ht | hr
      · rw [htried] at ht
        nomatch ht
      · rw [Worker.replaceable] at hr
        rw [Worker.atWork] at hwork
        split at hr
        · rename_i hp
          rw [hp] at hwork
          nomatch hwork
        · rename_i hp
          rw [hp] at hwork
          nomatch hwork
        · have := of_decide_eq_true hr
          omega

/-! ### Every step keeps the notifications alive -/

/-- Only a retry moves the time from which a row is available. -/
theorem merge_availableAt (outcome : Outcome) (current stored : Notification) :
    (current.merge (outcome.apply current) stored).availableAt = stored.availableAt ∨
      ∃ availableAt error, outcome = .retry availableAt error ∧
        (current.merge (outcome.apply current) stored).availableAt = availableAt := by
  cases outcome with
  | delivered now => exact .inl (Rows.column_kept _ _)
  | failed now error => exact .inl (Rows.column_kept _ _)
  | retry availableAt error =>
      rcases Rows.column_cases current.availableAt availableAt stored.availableAt with h | h
      · exact .inl h
      · exact .inr ⟨availableAt, error, rfl, h⟩

theorem Live.available_step (hl : Live c) (hc : Coherent settings c) (hok : Unbroken c a)
    (hs : Steps settings c a c') :
    ∀ n ∈ c'.notifications, n.availableAt ≤ c'.clock ∨ Source c' n.id n.availableAt := by
  have hkeep : ∀ n ∈ c.notifications, n.availableAt ≤ c'.clock ∨ Source c' n.id n.availableAt := by
    intro n hn
    have hclock := (hc.follows hs).clock
    by_cases hle : n.availableAt ≤ c.clock
    · exact .inl (hle.trans hclock)
    · rcases hl.available n hn with h | h
      · exact absurd h hle
      · exact .inr (hc.source_step hok hs h fun _ _ _ _ _ heta _ => by
          exact lt_of_le_of_lt heta (Int.not_le.mp hle))
  cases hs with
  | tick | known | redelivered | ignored | turned | mailed | published | crashed => exact hkeep
  | discovered hnow hrow =>
      subst hrow
      exact Machine.forall_snoc hkeep (.inl hnow)
  | recovered hnow =>
      intro x hx
      obtain ⟨n, hn, rfl⟩ := List.mem_map.mp hx
      split
      · exact .inl hnow
      · exact hkeep n hn
  | @claimed _ _ _ n _ _ hn =>
      intro x hx
      rcases (Rows.mem_replace hn).mp hx with rfl | ⟨hx, -⟩
      · exact hkeep n hn
      · exact hkeep x hx
  | @recorded i w _ current stored outcome hw hphase hmem hid hlegal =>
      intro x hx
      obtain ⟨n, hn, rfl⟩ := Rows.mem_modify.mp hx
      split
      · obtain ⟨hclaim, -⟩ := hc.recording hw hphase hmem hid
        rcases merge_availableAt outcome current stored with he | ⟨availableAt, error, rfl, he⟩
        · rw [he]
          exact hkeep stored hmem
        · -- the worker itself is about to publish the retry
          rw [he]
          exact .inr (.inr ⟨_, Machine.mem_set_self hw, hclaim.later.id.symm, availableAt, rfl,
            Int.le_refl _⟩)
      · exact hkeep n hn

/-- A claim of a waiting row that is refused came too early. -/
theorem Coherent.early (hc : Coherent settings c) {k : Nat} {locked : Bool} {m : Message}
    {n : Notification} (hok : Unbroken c (.claim k locked)) (hm : c.broker[k]? = some m)
    (hno : claimForDelivery m.notificationId c.clock locked c.notifications = none)
    (hn : n ∈ c.notifications) (hid : n.id = m.notificationId) (hwait : waiting n) :
    c.clock < n.availableAt := by
  refine Int.not_le.mp fun hle => ?_
  have hclaim : claimable c.clock n := by
    rw [waiting, Bool.or_eq_true, decide_eq_true_eq, decide_eq_true_eq] at hwait
    exact claimable_iff.mpr ⟨hwait, hle, (hc.proper n hn).attemptCount (by
      rw [waiting, Bool.or_eq_true, decide_eq_true_eq, decide_eq_true_eq]
      exact hwait)⟩
  have hlocked : locked = false := by
    cases hlocked : locked with
    | false => rfl
    | true =>
        have := hok hlocked m hm n hn hid
        rw [hclaim] at this
        cases this
  have hfind : Rows.find m.notificationId c.notifications = some n :=
    (Rows.find_eq_some hc.counted.keys).mpr ⟨hn, hid⟩
  have hlegal := claimed_legal (hc.proper n hn).legal hclaim
  have hself : Rows.find n.id c.notifications = some n := hid ▸ hfind
  rw [claimForDelivery, hfind, Option.filter_some, hclaim, hlocked] at hno
  simp only [Bool.not_false, Bool.and_self, if_true, Option.bind_some, Option.map_eq_none_iff,
    Notification.save, hself] at hno
  rw [Notification.merge_self rfl, if_pos hlegal] at hno
  cases hno

theorem Live.supplied_step (hl : Live c) (hc : Coherent settings c) (hok : Unbroken c a)
    (hs : Steps settings c a c') :
    ∀ n ∈ c'.notifications, waiting n → ∃ t, Source c' n.id t := by
  -- unless a message for the row is used up, its source is still there
  have hkeep : ∀ n ∈ c.notifications, waiting n →
      (∀ k locked m, a = .claim k locked → c.broker[k]? = some m → m.notificationId = n.id →
        c.clock < n.availableAt) → ∃ t, Source c' n.id t := by
    intro n hn hwait hearly
    by_cases hle : n.availableAt ≤ c.clock
    · obtain ⟨t, ht⟩ := hl.supplied n hn hwait
      exact ⟨t, hc.source_step hok hs ht fun k locked m ha hm _ hid =>
        absurd hle (Int.not_le.mpr (hearly k locked m ha hm hid))⟩
    · rcases hl.available n hn with h | h
      · exact absurd h hle
      · exact ⟨_, hc.source_step hok hs h fun _ _ _ _ _ heta _ =>
          lt_of_le_of_lt heta (Int.not_le.mp hle)⟩
  cases hs with
  | tick | known | redelivered | mailed | published | crashed =>
      exact fun n hn hwait => hkeep n hn hwait fun _ _ _ ha => nomatch ha
  | turned hw hturn =>
      refine fun n hn hwait => hkeep n hn hwait fun _ _ _ ha => ?_
      subst ha
      nomatch hturn
  | @discovered _ _ _ enqueued row _ hrow hkey =>
      refine Machine.forall_snoc (fun n hn hwait => hkeep n hn hwait fun _ _ _ ha => nomatch ha) ?_
      intro _
      have henqueued : enqueued = true := by
        rcases hok with he | ⟨n, hn, he⟩
        · exact he
        · exact absurd he (hkey n hn)
      subst henqueued hrow
      exact ⟨c.clock, .inl ⟨_, List.mem_append_right _ (List.mem_singleton_self _), rfl,
        Int.le_refl _⟩⟩
  | @recovered now enqueued =>
      intro x hx hwait
      obtain ⟨n, hn, rfl⟩ := List.mem_map.mp hx
      split at hwait
      · rename_i hstale
        rw [if_pos hstale]
        refine ⟨c.clock, .inl ⟨⟨n.id, 0, c.clock⟩, ?_, rfl, Int.le_refl _⟩⟩
        refine List.mem_append_right _ (List.mem_map.mpr ⟨n.id, ?_, rfl⟩)
        rw [List.take_of_length_le (by rw [List.length_map]; exact hok)]
        exact List.mem_map_of_mem (List.mem_filter.mpr ⟨hn, hstale⟩)
      · rename_i hstale
        rw [if_neg hstale]
        exact hkeep n hn hwait fun _ _ _ ha => nomatch ha
  | ignored hm _ hno =>
      intro n hn hwait
      refine hkeep n hn hwait fun k' locked' m' ha hm' hid => ?_
      cases ha
      cases hm.symm.trans hm'
      exact hc.early hok hm hno hn hid.symm hwait
  | @claimed _ _ m n hm _ hn hid =>
      intro x hx hwait
      rcases (Rows.mem_replace hn).mp hx with rfl | ⟨hx, hne⟩
      · nomatch hwait
      · refine hkeep x hx hwait fun k' locked' m' ha hm' hid' => ?_
        cases ha
        cases hm.symm.trans hm'
        exact absurd (hid'.symm.trans hid.symm) hne
  | @recorded i w _ current stored outcome hw hphase hmem hid hlegal =>
      intro x hx hwait
      obtain ⟨n, hn, rfl⟩ := Rows.mem_modify.mp hx
      split at hwait
      · rename_i hkey
        rw [if_pos hkey]
        obtain ⟨hclaim, hproper, hlater, hle, -⟩ := hc.recording hw hphase hmem hid
        have hpos : 0 < current.attemptCount := by
          have := hclaim.retries
          omega
        rcases merge_proper hproper (hc.proper stored hmem) hlater hpos hlegal with
          ht | ⟨availableAt, error, rfl, -⟩
        · rw [waiting_open hwait] at ht
          nomatch ht
        · exact ⟨availableAt, .inr ⟨_, Machine.mem_set_self hw, hclaim.later.id.symm, availableAt,
            rfl, Int.le_refl _⟩⟩
      · rename_i hkey
        rw [if_neg hkey]
        exact hkeep n hn hwait fun _ _ _ ha => nomatch ha

theorem Live.lastAttempt_step (hl : Live c) (hc : Coherent settings c) (hok : Unbroken c a)
    (hs : Steps settings c a c') : ∀ n ∈ c'.notifications, n.status = .delivering →
      n.maxAttempts ≤ n.attemptCount → Attended c' n := by
  have hopen : ∀ {n : Notification}, n.status = .delivering → n.status.terminal = false := by
    intro n hst
    rw [hst]
    rfl
  cases hs with
  | tick | known | redelivered | ignored => exact hl.lastAttempt
  | discovered _ hrow =>
      subst hrow
      exact Machine.forall_snoc hl.lastAttempt fun hst => nomatch hst
  | @recovered now =>
      intro x hx hst hmax
      obtain ⟨n, hn, rfl⟩ := List.mem_map.mp hx
      by_cases hstale : stale (now - minutes 10) n
      · rw [if_pos hstale] at hst
        nomatch hst
      · rw [if_neg hstale] at hst hmax ⊢
        exact hl.lastAttempt n hn hst hmax
  | @claimed _ _ _ n _ _ hn =>
      intro x hx hst hmax
      rcases (Rows.mem_replace hn).mp hx with rfl | ⟨hx, -⟩
      · exact ⟨_, List.mem_append_right _ (List.mem_singleton_self _), rfl, rfl⟩
      · obtain ⟨w, hw, hat⟩ := hl.lastAttempt x hx hst hmax
        exact ⟨w, List.mem_append_left _ hw, hat⟩
  | turned hw hturn =>
      intro n hn hst hmax
      exact hc.attended_moved hn hmax (hl.lastAttempt n hn hst hmax) hw
        (hc.attended_turn hok hw hturn hn (hopen hst))
  | @mailed _ _ error _ _ _ hw =>
      intro n hn hst hmax
      refine hc.attended_moved hn hmax (hl.lastAttempt n hn hst hmax) hw fun _ _ _ => ?_
      cases error <;> rfl
  | published hw hphase =>
      intro n hn hst hmax
      refine hc.attended_moved hn hmax (hl.lastAttempt n hn hst hmax) hw fun _ _ hwork => ?_
      rw [Worker.atWork, hphase] at hwork
      nomatch hwork
  | @crashed i w hw hphase =>
      intro n hn hst hmax
      refine hc.attended_moved hn hmax (hl.lastAttempt n hn hst hmax) hw fun _ hlast hwork => ?_
      have hr := hok w hw
      rw [Worker.atWork] at hwork
      rw [Worker.replaceable] at hr
      split at hr
      · rename_i hp
        rw [hp] at hwork
        nomatch hwork
      · rename_i hp
        rw [hp] at hwork
        nomatch hwork
      · have := of_decide_eq_true hr
        omega
  | @recorded i w _ current stored outcome hw hphase hmem hid hlegal =>
      intro x hx hst hmax
      obtain ⟨n, hn, rfl⟩ := Rows.mem_modify.mp hx
      obtain ⟨hclaim, hproper, hlater, hle, hretry⟩ := hc.recording hw hphase hmem hid
      by_cases hkey : Rows.Keyed.key n = current.id
      · rw [if_pos hkey] at hst hmax ⊢
        have hpos : 0 < current.attemptCount := by
          have := hclaim.retries
          omega
        have hcount := merge_attemptCount outcome current stored
        have hkept := (merge_kept (hc.proper stored hmem).legal hlegal).maxAttempts
        rcases merge_proper hproper (hc.proper stored hmem) hlater hpos hlegal with
          ht | ⟨availableAt, error, rfl, -, ⟨hs', -⟩ | ⟨hs', -⟩⟩
        · rw [hst] at ht
          nomatch ht
        · -- a retry over the lease of another worker, who is still there
          rw [hcount, hkept] at hmax
          have hat := hl.lastAttempt stored hmem (hs' ▸ hst) hmax
          have hmoved : Attended (c.moved i w (.retrying availableAt)) stored := by
            refine hc.attended_moved hmem hmax hat hw fun _ hlast _ => ?_
            have hlt := (hretry availableAt error rfl).1
            have h₁ := hclaim.later.maxAttempts
            have h₂ := hlater.maxAttempts
            omega
          obtain ⟨x, hx', hxclaim, hxwork⟩ := hmoved
          exact ⟨x, hx', by rw [hxclaim, hcount]; rfl, hxwork⟩
        · rw [hs'] at hst
          nomatch hst
      · rw [if_neg hkey] at hst hmax ⊢
        refine hc.attended_moved hn hmax (hl.lastAttempt n hn hst hmax) hw fun hid' _ _ => ?_
        exact absurd (hid'.symm.trans (hclaim.later.id.symm.trans hid)) hkey

theorem Live.step (hl : Live c) (hc : Coherent settings c) (hok : Unbroken c a)
    (hs : Steps settings c a c') : Live c' :=
  ⟨hl.available_step hc hok hs, hl.supplied_step hc hok hs, hl.lastAttempt_step hc hok hs⟩

/-! ## Every run -/

/-- A worker that has not finished holds its message. -/
theorem Coherent.enqueued_of_worker (h : Coherent settings c) {w : Worker} (hw : w ∈ c.workers)
    (hphase : w.phase ≠ .finished) : c.Enqueued w.notification.id := by
  obtain ⟨n, -, hclaim, -⟩ := h.workers w hw
  exact .inr ⟨w, hw, hphase, hclaim.message⟩

theorem Coherent.enqueued_of_source (h : Coherent settings c) {id : UUID} {t : Datetime}
    (hs : Source c id t) : c.Enqueued id := by
  rcases hs with ⟨m, hm, hid, -⟩ | ⟨w, hw, rfl, availableAt, hphase, -⟩
  · exact .inl ⟨m, hm, hid⟩
  · refine h.enqueued_of_worker hw ?_
    rw [hphase]
    exact nofun

theorem Coherent.enqueued_of_attended (h : Coherent settings c) {n : Notification}
    (ha : Attended c n) : c.Enqueued n.id := by
  obtain ⟨w, hw, hclaim, hwork⟩ := ha
  have hid : w.notification.id = n.id := congrArg Prod.fst hclaim
  refine hid ▸ h.enqueued_of_worker hw fun hphase => ?_
  rw [Worker.atWork, hphase] at hwork
  nomatch hwork

/-- After the recovery, every lease is fresh or was for the last attempt. -/
theorem lease_of_recovered {now : Datetime} {enqueued : Nat}
    (hs : Steps settings c (.recoverStale now enqueued) c') (hc : Coherent settings c')
    {n : Notification} (hn : n ∈ c'.notifications) (hst : n.status = .delivering) :
    n.maxAttempts ≤ n.attemptCount ∨ n.deliveryStartedAt.any fun t => now - minutes 10 ≤ t := by
  cases hs with
  | turned _ hturn => nomatch hturn
  | recovered hnow =>
      obtain ⟨x, hx, hxn⟩ := List.mem_map.mp hn
      by_cases hstale : stale (now - minutes 10) x
      · rw [if_pos hstale] at hxn
        rw [← hxn] at hst
        nomatch hst
      · rw [if_neg hstale] at hxn
        subst hxn
        have hleased := ((hc.proper x hn).leased (by rw [hst]; rfl)).mpr hst
        obtain ⟨t, ht⟩ := Option.isSome_iff_exists.mp hleased
        rw [stale, hst, ht] at hstale
        rw [ht]
        by_cases hmax : x.maxAttempts ≤ x.attemptCount
        · exact .inl hmax
        · right
          simpa [Nat.not_le.mp hmax] using hstale

theorem unbroken_live {clock : Datetime}
    (h : Machine.Run (Config.step settings) Unbroken (Config.empty clock) c) :
    Coherent settings c ∧ Live c := by
  refine h.invariant (I := fun c => Coherent settings c ∧ Live c) (fun c a c' hc hok hs => ?_)
    ⟨.empty settings clock, .empty clock⟩
  have hsteps := Config.step_cases hs
  exact ⟨hc.1.step hok hsteps, hc.2.step hc.1 hok hsteps⟩

end

/-- Along every run without one of the failures, nothing is stranded right after
a recovery. -/
theorem no_notification_stranded {settings : WorkerSettings} {clock now : Datetime}
    {enqueued : Nat} {c c' : Config}
    (hrun : Machine.Run (Config.step settings) Unbroken (Config.empty clock) c)
    (hok : Unbroken c (.recoverStale now enqueued))
    (hstep : c.step settings (.recoverStale now enqueued) = some c') : Covered c' now := by
  obtain ⟨hc, hl⟩ := unbroken_live hrun
  have hs := Config.step_cases hstep
  have hc' := hc.step hok hs
  have hl' := hl.step hc hok hs
  intro n hn hopen
  rcases open_cases hopen with hwait | hst
  · obtain ⟨t, ht⟩ := hl'.supplied n hn hwait
    exact .inl (hc'.enqueued_of_source ht)
  · rcases lease_of_recovered hs hc' hn hst with hmax | hlease
    · exact .inl (hc'.enqueued_of_attended (hl'.lastAttempt n hn hst hmax))
    · exact .inr (.inr ⟨hst, hlease⟩)

/-- The first worker dies, and its message comes back too early; the recovery
sends another one. -/
def Sample.lostWorker : List Action :=
  [.discover 0 reminder 90 true, .claim 0 false, .checkRecipient 0 (some ada), .crash 0,
    .claim 0 false, .tick (minutes 11)]

theorem no_notification_stranded_sample : ∃ c c' : Config, c.step Sample.settings
      (.recoverStale (minutes 11) 1) = some c' ∧ Covered c' (minutes 11) ∧
    (c.notifications.map Notification.status, c'.notifications.map Notification.status) =
      ([.delivering], [.retryScheduled]) := by
  obtain ⟨c, hplay, h⟩ := Option.bind_eq_some_iff.mp
    (show ((Machine.play (Config.step Sample.settings) Unbroken (.empty 0) Sample.lostWorker).bind
        fun c => if Unbroken c (.recoverStale (minutes 11) 1) then
          (c.step Sample.settings (.recoverStale (minutes 11) 1)).map fun c' =>
            (c.notifications.map Notification.status, c'.notifications.map Notification.status)
          else none) = some ([.delivering], [.retryScheduled]) by decide +kernel)
  split at h
  · rename_i hok
    obtain ⟨c', hstep, hrows⟩ := Option.map_eq_some_iff.mp h
    exact ⟨c, c', hstep, no_notification_stranded (Machine.Run.of_play hplay) hok hstep, hrows⟩
  · nomatch h

/-! ## Stranded notifications -/

/-- The job fails between the insert of a reminder and its message. -/
def Sample.neverEnqueued : List Action := [.discover 0 reminder 90 false]

/-- The worker of the last of five attempts dies, and its message comes back while
the lease is still running. -/
def Sample.lastWorkerLost : List Action :=
  [.discover 0 reminder 90 true] ++
    (List.range 4).flatMap (fun i => [.claim 0 false, .crash i, .claim 0 false,
      .tick (minutes (11 * (i + 1))), .recoverStale (minutes (11 * (i + 1))) 1]) ++
    [.claim 0 false, .crash 4, .claim 0 false, .tick (minutes 60)]

/-- In some state reached, a recovery that returns leaves the one notification in
the given status, and nobody to take care of it. -/
def Stranded (status : NotificationStatus) : Prop :=
  ∃ (c c' : Config) (now : Datetime) (enqueued : Nat), Reachable Sample.settings c ∧
    (c.notifications.filter (stale (now - minutes 10))).length ≤ enqueued ∧
    c.step Sample.settings (.recoverStale now enqueued) = some c' ∧
    c'.notifications.map Notification.status = [status] ∧ ¬ Covered c' now

theorem stranded_of_play (actions : List Action) (now : Datetime) {status : NotificationStatus}
    (h : ((Machine.play (Config.step Sample.settings) (fun _ _ => True) (.empty 0) actions).bind
      fun c => if (c.notifications.filter (stale (now - minutes 10))).length ≤ 1 then
        (c.step Sample.settings (.recoverStale now 1)).map fun c' =>
          (c'.notifications.map Notification.status, decide (Covered c' now))
        else none) = some ([status], false)) : Stranded status := by
  obtain ⟨c, hplay, h⟩ := Option.bind_eq_some_iff.mp h
  split at h
  · rename_i hall
    obtain ⟨c', hstep, hrows⟩ := Option.map_eq_some_iff.mp h
    exact ⟨c, c', now, 1, ⟨0, Machine.Run.of_play hplay⟩, hall, hstep, congrArg Prod.fst hrows,
      of_decide_eq_false (congrArg Prod.snd hrows)⟩
  · nomatch h

/-- A reminder that was never enqueued stays PENDING, and a notification whose last
worker died stays DELIVERING. -/
theorem notification_stranded : Stranded .pending ∧ Stranded .delivering :=
  ⟨stranded_of_play Sample.neverEnqueued 0 (by decide +kernel),
    stranded_of_play Sample.lastWorkerLost (minutes 60) (by decide +kernel)⟩

end Delivery

end ForkRoom
