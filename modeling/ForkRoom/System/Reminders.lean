/-
# `System.Reminders` — discovery jobs among everything else

`ReminderDiscoveryService.discover` as the steps between which other processes
run: the query of a loader, then one insert for each candidate, followed by the
message for what was inserted.  Any number of jobs may be under way at once.
Around them the rows the loaders read change in any way, mentions add and delete
notifications of their own, and the workers of `System.Delivery` go about theirs.

`enqueued` is the list of all calls of `enqueue_delivery`, which the broker does
not keep.
-/
import ForkRoom.Service.Notification
import ForkRoom.System.Delivery

namespace ForkRoom

namespace Reminders

open NotificationRepository

/-! ## States -/

/-- A call of `discover`: the loaders still to run, and the candidates of the last
one still to insert. -/
structure Job where
  current : Datetime
  loaders : List Loader
  candidates : List ReminderCandidate

/-- The call has returned. -/
def Job.finished (job : Job) : Bool := job.loaders.isEmpty && job.candidates.isEmpty

structure State where
  sources : ReminderSources
  delivery : Delivery.Config
  jobs : List Job
  enqueued : List UUID

inductive Action where
  | discover (now : Datetime)
  | load (i : Nat)
  | createCandidate (i : Nat) (notificationId : UUID)
  | edit (sources : ReminderSources)
  | deliver (a : Delivery.Action)
  | mention (mentionId recipientId workspaceId notificationId : UUID)
      (displayName excerpt : String) (now : Datetime)
  | unmention (mentionId : UUID)

/-! ## Steps -/

/-- The settings of `ReminderDiscoveryService`. -/
structure Settings where
  workers : WorkerSettings
  reminderWindowMinutes : Nat

/-- `self._window` -/
def Settings.window (settings : Settings) : Datetime := minutes settings.reminderWindowMinutes

/-- `discover` up to its first query. -/
def discover (s : State) (now : Datetime) : Option State := do
  guard (now ≤ s.delivery.clock)
  pure { s with jobs := s.jobs ++ [⟨now, loaders, []⟩] }

/-- `await load(after=current, before=before)`, once the candidates before are done. -/
def load (settings : Settings) (s : State) (i : Nat) : Option State := do
  let job ← s.jobs[i]?
  match job.candidates, job.loaders with
  | [], l :: rest =>
      let found := l.load s.sources job.current (job.current + settings.window)
      pure { s with jobs := s.jobs.set i { job with loaders := rest, candidates := found } }
  | _, _ => none

/-- `create_candidate`, and `enqueue_delivery` when the row is new. -/
def createCandidate (settings : Settings) (s : State) (i : Nat) (notificationId : UUID) :
    Option State := do
  let job ← s.jobs[i]?
  match job.candidates with
  | candidate :: rest =>
      let (created, _) ← NotificationRepository.createCandidate candidate
        settings.workers.notificationMaxDeliveryAttempts job.current notificationId
        s.delivery.notifications
      let delivery ← Delivery.discover settings.workers s.delivery job.current candidate
        notificationId true
      pure { s with
        delivery := delivery
        jobs := s.jobs.set i { job with candidates := rest }
        enqueued := s.enqueued ++ created.toList }
  | [] => none

/-- The insert of `sync_for_comment`; it fails on a key that is taken. -/
def mention (s : State) (row : Notification) : Option State := do
  guard (row.id ∉ s.delivery.notifications.map Notification.id)
  guard (row.idempotencyKey ∉ s.delivery.notifications.map Notification.idempotencyKey)
  pure { s with
    delivery := { s.delivery with notifications := s.delivery.notifications ++ [row] } }

/-- `_delete_notification` -/
def unmention (s : State) (mentionId : UUID) : State :=
  { s with
    delivery := { s.delivery with
      notifications := s.delivery.notifications.filter fun n =>
        !(decide (n.kind = .mention) && decide (n.sourceId = mentionId)) } }

/-- Everything the workers do; inserting is left to the jobs. -/
def deliver (settings : Settings) (s : State) : Delivery.Action → Option State
  | .discover .. => none
  | a => (s.delivery.step settings.workers a).map fun delivery => { s with delivery := delivery }

def State.step (settings : Settings) (s : State) : Action → Option State
  | .discover now => discover s now
  | .load i => load settings s i
  | .createCandidate i notificationId => createCandidate settings s i notificationId
  | .edit sources => some { s with sources := sources }
  | .deliver a => deliver settings s a
  | .mention mentionId recipientId workspaceId notificationId displayName excerpt now =>
      mention s (MentionRepository.notification mentionId recipientId workspaceId notificationId
        displayName excerpt now)
  | .unmention mentionId => some (unmention s mentionId)

/-! ## What one step can do to the rows -/

/-- What no step changes of a notification. -/
structure Identity where
  id : UUID
  kind : NotificationKind
  sourceId : UUID
  recipientId : UUID
  idempotencyKey : String

def identity (n : Notification) : Identity :=
  ⟨n.id, n.kind, n.sourceId, n.recipientId, n.idempotencyKey⟩

def State.identities (s : State) : List Identity := s.delivery.notifications.map identity

/-- The workers change no identity. -/
theorem identities_deliver {settings : WorkerSettings} {c c' : Delivery.Config}
    {a : Delivery.Action} (h : Delivery.Steps settings c a c')
    (ha : ∀ now candidate id enqueued, a ≠ .discover now candidate id enqueued)
    (hkeys : (c.notifications.map Notification.id).Nodup) :
    c'.notifications.map identity = c.notifications.map identity := by
  cases h with
  | discovered => exact absurd rfl (ha _ _ _ _)
  | tick | known | redelivered | ignored | turned | mailed | published | crashed => rfl
  | recovered =>
      rw [List.map_map]
      refine List.map_congr_left fun n _ => ?_
      simp only [Function.comp]
      split <;> rfl
  | claimed _ _ hn _ _ => exact Rows.map_replace hkeys hn identity rfl
  | recorded _ _ hmem hid _ =>
      rw [← hid]
      exact Rows.map_replace hkeys hmem identity rfl

/-- What one step does, as far as the reminders are concerned. -/
inductive Steps (settings : Settings) (s s' : State) : Prop
  /-- a job begins -/
  | discovered {now : Datetime} : s'.jobs = s.jobs ++ [⟨now, loaders, []⟩] →
      s'.enqueued = s.enqueued → s'.identities = s.identities → Steps settings s s'
  /-- a loader is run -/
  | loaded {i : Nat} {job : Job} {l : Loader} {rest : List Loader} : s.jobs[i]? = some job →
      job.candidates = [] → job.loaders = l :: rest →
      s'.jobs = s.jobs.set i { job with
        loaders := rest
        candidates := l.load s.sources job.current (job.current + settings.window) } →
      s'.enqueued = s.enqueued → s'.identities = s.identities → Steps settings s s'
  /-- a candidate is passed over: its key is taken -/
  | known {i : Nat} {job : Job} {c : ReminderCandidate} {rest : List ReminderCandidate} :
      s.jobs[i]? = some job → job.candidates = c :: rest →
      (∃ n ∈ s.identities, n.idempotencyKey = c.idempotencyKey) →
      s'.jobs = s.jobs.set i { job with candidates := rest } →
      s'.enqueued = s.enqueued → s'.identities = s.identities → Steps settings s s'
  /-- a notification is created and enqueued -/
  | created {i : Nat} {job : Job} {c : ReminderCandidate} {rest : List ReminderCandidate}
      {id : UUID} : s.jobs[i]? = some job → job.candidates = c :: rest →
      (∀ n ∈ s.identities, n.idempotencyKey ≠ c.idempotencyKey) →
      id ∉ s.identities.map Identity.id →
      s'.jobs = s.jobs.set i { job with candidates := rest } →
      s'.enqueued = s.enqueued ++ [id] →
      s'.identities =
        s.identities ++ [⟨id, c.kind, c.sourceId, c.recipientId, c.idempotencyKey⟩] →
      Steps settings s s'
  /-- mentions come and go -/
  | mentioned {n : Identity} {mentionId : UUID} : n.kind = .mention →
      n.idempotencyKey = "mention:" ++ mentionId.str → n.id ∉ s.identities.map Identity.id →
      s'.jobs = s.jobs → s'.enqueued = s.enqueued → s'.identities = s.identities ++ [n] →
      Steps settings s s'
  | unmentioned {p : Identity → Bool} : (∀ n, n.kind ≠ .mention → p n) → s'.jobs = s.jobs →
      s'.enqueued = s.enqueued → s'.identities = s.identities.filter p → Steps settings s s'
  /-- nothing to do with reminders -/
  | other : s'.jobs = s.jobs → s'.enqueued = s.enqueued → s'.identities = s.identities →
      Steps settings s s'

theorem ids_identities (s : State) :
    s.identities.map Identity.id = s.delivery.notifications.map Notification.id := by
  rw [State.identities, List.map_map]
  rfl

section
variable {settings : Settings} {s s' : State}

theorem createCandidate_cases {i : Nat} {id : UUID}
    (h : createCandidate settings s i id = some s') : Steps settings s s' := by
  obtain ⟨job, hjob, h⟩ := Option.bind_eq_some_iff.mp h
  cases hc : job.candidates with
  | nil =>
      rw [hc] at h
      cases h
  | cons c rest =>
      rw [hc] at h
      obtain ⟨⟨created, rows⟩, hcreate, h⟩ := Option.bind_eq_some_iff.mp h
      obtain ⟨delivery, hdelivery, h⟩ := Option.bind_eq_some_iff.mp h
      cases h
      -- both insert the same row, or none
      obtain ⟨-, hdelivery⟩ := Machine.guard_bind hdelivery
      rw [hcreate] at hdelivery
      cases hdelivery
      unfold NotificationRepository.createCandidate at hcreate
      split at hcreate
      · rename_i htaken
        cases hcreate
        obtain ⟨n, hn, hkey⟩ := List.any_eq_true.mp htaken
        exact .known hjob hc ⟨identity n, List.mem_map_of_mem hn, of_decide_eq_true hkey⟩ rfl
          (List.append_nil _) rfl
      · rename_i hkey
        simp only at hcreate
        split at hcreate
        · cases hcreate
        · rename_i hfresh
          cases hcreate
          refine .created hjob hc ?_ ?_ rfl rfl ?_
          · intro n hn he
            obtain ⟨row, hrow, rfl⟩ := List.mem_map.mp hn
            exact hkey (List.any_eq_true.mpr ⟨row, hrow, by simpa [identity] using he⟩)
          · rw [ids_identities]
            exact (not_or.mp hfresh).1
          · simp [State.identities, identity, candidateRow]

/-- The workers leave the jobs, the calls and the identities as they are. -/
theorem deliver_keeps {a : Delivery.Action} (hkeys : (s.identities.map Identity.id).Nodup)
    (h : deliver settings s a = some s') :
    s'.jobs = s.jobs ∧ s'.enqueued = s.enqueued ∧ s'.identities = s.identities := by
  rw [ids_identities] at hkeys
  have hmoved : ∀ {delivery : Delivery.Config}, s.delivery.step settings.workers a = some delivery →
      (∀ now candidate id enqueued, a ≠ .discover now candidate id enqueued) →
      delivery.notifications.map identity = s.identities :=
    fun hd ha => identities_deliver (Delivery.Config.step_cases hd) ha hkeys
  cases a with
  | discover now candidate id enqueued => cases h
  | _ =>
      obtain ⟨delivery, hd, h⟩ := Option.map_eq_some_iff.mp h
      cases h
      exact ⟨rfl, rfl, hmoved hd (by simp)⟩

theorem State.step_cases {a : Action} (hkeys : (s.identities.map Identity.id).Nodup)
    (h : s.step settings a = some s') : Steps settings s s' := by
  cases a with
  | discover now =>
      obtain ⟨-, h⟩ := Machine.guard_bind h
      cases h
      exact .discovered rfl rfl rfl
  | load i =>
      obtain ⟨job, hjob, h⟩ := Option.bind_eq_some_iff.mp h
      split at h
      · rename_i hc hl
        cases h
        exact .loaded hjob hc hl rfl rfl rfl
      · cases h
  | createCandidate i id => exact createCandidate_cases h
  | edit sources =>
      cases h
      exact .other rfl rfl rfl
  | deliver a =>
      obtain ⟨hj, he, hi⟩ := deliver_keeps hkeys h
      exact .other hj he hi
  | mention mentionId recipientId workspaceId id displayName excerpt now =>
      obtain ⟨hid, h⟩ := Machine.guard_bind h
      obtain ⟨hkey, h⟩ := Machine.guard_bind h
      cases h
      refine .mentioned (n := identity (MentionRepository.notification mentionId recipientId
        workspaceId id displayName excerpt now)) rfl rfl ?_ rfl rfl ?_
      · rw [ids_identities]
        exact hid
      · simp [State.identities]
  | unmention mentionId =>
      cases h
      refine .unmentioned (p := fun n =>
        !(decide (n.kind = .mention) && decide (n.sourceId = mentionId))) ?_ rfl rfl ?_
      · intro n hn
        simp [hn]
      · rw [State.identities, State.identities, List.filter_map]
        rfl

end

end Reminders

end ForkRoom
