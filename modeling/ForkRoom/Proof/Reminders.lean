/-
# `Proof.Reminders` — every reminder is created once

Followed is one reminder `r`, eligible throughout, through any run of discovery
jobs, workers and mentions.  Its key determines it, so a row with that key is a
row for `r`, and no mention can take the key.  A job whose window holds the due
time still has the loader of `r` before it, or a candidate for `r`, or `r` has
been created: this is `Tracked`, and it survives every step.  The windows of jobs
no further apart than one window overlap, so the due time is in one of them.
-/
import ForkRoom.System.Reminders
import Mathlib.Data.List.Chain

namespace ForkRoom

namespace Reminders

open NotificationRepository

/-! ## The reminder has been created -/

/-- One row has the key of `r`, it is a row for `r`, and it was enqueued once. -/
def Created (r : Reminder) (s : State) : Prop :=
  ∃ id, s.identities.filter (fun n => n.idempotencyKey = r.key) =
      [⟨id, r.kind, r.sourceId, r.recipientId, r.key⟩] ∧
    s.enqueued.count id = 1

section
variable {r : Reminder} {s s' : State}

theorem Created.same (h : Created r s) (hi : s'.identities = s.identities)
    (he : s'.enqueued = s.enqueued) : Created r s' := by
  obtain ⟨id, hrow, hcount⟩ := h
  exact ⟨id, by rw [hi, hrow], by rw [he, hcount]⟩

theorem Created.mem (h : Created r s) : ∃ n ∈ s.identities, n.idempotencyKey = r.key := by
  obtain ⟨id, hrow, -⟩ := h
  have hm := hrow ▸ List.mem_cons_self
  exact ⟨_, (List.mem_filter.mp hm).1, rfl⟩

/-- Another row comes in, enqueued or not. -/
theorem Created.snoc {n : Identity} {new : List UUID} (h : Created r s)
    (hi : s'.identities = s.identities ++ [n]) (hkey : n.idempotencyKey ≠ r.key)
    (hfresh : n.id ∉ s.identities.map Identity.id) (hnew : new = [] ∨ new = [n.id])
    (he : s'.enqueued = s.enqueued ++ new) : Created r s' := by
  obtain ⟨id, hrow, hcount⟩ := h
  have hmem : id ∈ s.identities.map Identity.id := by
    have hm := hrow ▸ List.mem_cons_self
    exact List.mem_map.mpr ⟨_, (List.mem_filter.mp hm).1, rfl⟩
  have hne : id ∉ new := by
    rcases hnew with rfl | rfl
    · exact List.not_mem_nil
    · intro hm
      exact hfresh (List.mem_singleton.mp hm ▸ hmem)
  refine ⟨id, ?_, ?_⟩
  · rw [hi, List.filter_append, hrow, List.filter_cons_of_neg (by simpa using hkey)]
    rfl
  · rw [he, List.count_append, hcount, List.count_eq_zero_of_not_mem hne]

/-- Mentions are deleted. -/
theorem Created.filter {p : Identity → Bool} (h : Created r s) (hr : r.kind ≠ .mention)
    (hp : ∀ n : Identity, n.kind ≠ .mention → p n) (hi : s'.identities = s.identities.filter p)
    (he : s'.enqueued = s.enqueued) : Created r s' := by
  obtain ⟨id, hrow, hcount⟩ := h
  refine ⟨id, ?_, by rw [he, hcount]⟩
  rw [hi, List.filter_comm, hrow, List.filter_cons_of_pos (hp _ hr)]
  rfl

end

/-! ## Following the reminder -/

/-- The due time is in the window of the job. -/
def Job.Covers (settings : Settings) (r : Reminder) (job : Job) : Prop :=
  job.current < r.dueAt ∧ r.dueAt ≤ job.current + settings.window

structure Tracked (settings : Settings) (r : Reminder) (l : Loader) (s : State) : Prop where
  keys : (s.identities.map Identity.id).Nodup
  enqueued : ∀ id ∈ s.enqueued, ∃ n ∈ s.identities, n.id = id ∧ n.kind ≠ .mention
  kinds : ∀ job ∈ s.jobs, ∀ c ∈ job.candidates, c.kind ≠ .mention
  once : (∀ n ∈ s.identities, n.idempotencyKey ≠ r.key) ∨ Created r s
  waiting : ∀ job ∈ s.jobs, job.Covers settings r →
    l ∈ job.loaders ∨ (∃ c ∈ job.candidates, c.reminder = r) ∨ Created r s

section
variable {settings : Settings} {r : Reminder} {l : Loader} {s s' : State}

/-- The rows and messages stay, and so do the jobs but for one. -/
theorem Tracked.jobs (h : Tracked settings r l s) (hi : s'.identities = s.identities)
    (he : s'.enqueued = s.enqueued)
    (hkinds : ∀ job ∈ s'.jobs, ∀ c ∈ job.candidates, c.kind ≠ .mention)
    (hwaiting : ∀ job ∈ s'.jobs, job.Covers settings r →
      l ∈ job.loaders ∨ (∃ c ∈ job.candidates, c.reminder = r) ∨ Created r s) :
    Tracked settings r l s' where
  keys := by rw [hi]; exact h.keys
  enqueued := by rw [hi, he]; exact h.enqueued
  kinds := hkinds
  once := by
    cases h.once with
    | inl hnone => exact .inl (by rw [hi]; exact hnone)
    | inr hc => exact .inr (hc.same hi he)
  waiting := fun job hjob hcovers =>
    (hwaiting job hjob hcovers).imp_right (Or.imp_right fun hc => hc.same hi he)

/-- A row comes in that is not one for `r`, enqueued or not. -/
theorem Tracked.snoc {n : Identity} {new : List UUID} (h : Tracked settings r l s)
    (hi : s'.identities = s.identities ++ [n]) (hkey : n.idempotencyKey ≠ r.key)
    (hfresh : n.id ∉ s.identities.map Identity.id)
    (hnew : new = [] ∨ (new = [n.id] ∧ n.kind ≠ .mention)) (he : s'.enqueued = s.enqueued ++ new)
    (hkinds : ∀ job ∈ s'.jobs, ∀ c ∈ job.candidates, c.kind ≠ .mention)
    (hwaiting : ∀ job ∈ s'.jobs, job.Covers settings r →
      l ∈ job.loaders ∨ (∃ c ∈ job.candidates, c.reminder = r) ∨ Created r s) :
    Tracked settings r l s' := by
  have hstays : Created r s → Created r s' := fun hc =>
    hc.snoc hi hkey hfresh (hnew.imp_right And.left) he
  refine ⟨?_, ?_, hkinds, ?_, ?_⟩
  · rw [hi, List.map_append]
    exact List.nodup_append_comm.mp (List.nodup_cons.mpr ⟨hfresh, h.keys⟩)
  · intro id hid
    rw [hi]
    rw [he] at hid
    cases List.mem_append.mp hid with
    | inl hid =>
        obtain ⟨m, hm, hk⟩ := h.enqueued id hid
        exact ⟨m, List.mem_append_left _ hm, hk⟩
    | inr hid =>
        rcases hnew with rfl | ⟨rfl, hk⟩
        · cases hid
        · exact ⟨n, by simp, (List.mem_singleton.mp hid).symm, hk⟩
  · cases h.once with
    | inl hnone =>
        rw [hi]
        exact .inl (Machine.forall_snoc hnone hkey)
    | inr hc => exact .inr (hstays hc)
  · intro job hjob hcovers
    exact (hwaiting job hjob hcovers).imp_right (Or.imp_right hstays)

/-- The first row for `r` comes in, and is enqueued. -/
theorem Tracked.create {id : UUID} (h : Tracked settings r l s) (hmention : r.kind ≠ .mention)
    (hkey : ∀ n ∈ s.identities, n.idempotencyKey ≠ r.key) (hid : id ∉ s.identities.map Identity.id)
    (hi : s'.identities = s.identities ++ [⟨id, r.kind, r.sourceId, r.recipientId, r.key⟩])
    (he : s'.enqueued = s.enqueued ++ [id])
    (hkinds : ∀ job ∈ s'.jobs, ∀ c ∈ job.candidates, c.kind ≠ .mention) :
    Tracked settings r l s' := by
  have hcreated : Created r s' := by
    refine ⟨id, ?_, ?_⟩
    · have hnone : s.identities.filter (fun n => n.idempotencyKey = r.key) = [] :=
        List.filter_eq_nil_iff.mpr fun n hn => by simpa using hkey n hn
      rw [hi, List.filter_append, hnone, List.filter_cons_of_pos (by simp)]
      rfl
    · have hnew : id ∉ s.enqueued := by
        intro hm
        obtain ⟨n, hn, hn', -⟩ := h.enqueued id hm
        exact hid (List.mem_map.mpr ⟨n, hn, hn'⟩)
      rw [he, List.count_append, List.count_eq_zero_of_not_mem hnew, List.count_singleton_self]
  refine ⟨?_, ?_, hkinds, .inr hcreated, fun _ _ _ => .inr (.inr hcreated)⟩
  · rw [hi, List.map_append]
    exact List.nodup_append_comm.mp (List.nodup_cons.mpr ⟨hid, h.keys⟩)
  · rw [hi, he]
    refine Machine.forall_snoc (fun id' hid' => ?_) ⟨_, List.mem_append_right _ List.mem_cons_self,
      rfl, hmention⟩
    obtain ⟨n, hn, hk⟩ := h.enqueued id' hid'
    exact ⟨n, List.mem_append_left _ hn, hk⟩

/-- A job that goes past its first candidate still waits for the others. -/
theorem Tracked.waiting_tail {i : Nat} {job : Job} {c : ReminderCandidate}
    {rest : List ReminderCandidate} (h : Tracked settings r l s) (hjob : s.jobs[i]? = some job)
    (hc : job.candidates = c :: rest) (hhead : c.reminder = r → Created r s) :
    ∀ job' ∈ s.jobs.set i { job with candidates := rest }, job'.Covers settings r →
      l ∈ job'.loaders ∨ (∃ c ∈ job'.candidates, c.reminder = r) ∨ Created r s := by
  refine Machine.forall_set h.waiting fun hcovers => ?_
  rcases h.waiting job (List.mem_of_getElem? hjob) hcovers with hw | ⟨c', hw, hc'⟩ | hw
  · exact .inl hw
  · rw [hc] at hw
    cases List.mem_cons.mp hw with
    | inl hhere => exact .inr (.inr (hhead (hhere ▸ hc')))
    | inr hlater => exact .inr (.inl ⟨c', hlater, hc'⟩)
  · exact .inr (.inr hw)

theorem Tracked.kinds_tail {i : Nat} {job : Job} {c : ReminderCandidate}
    {rest : List ReminderCandidate} (h : Tracked settings r l s) (hjob : s.jobs[i]? = some job)
    (hc : job.candidates = c :: rest) :
    ∀ job' ∈ s.jobs.set i { job with candidates := rest }, ∀ c ∈ job'.candidates,
      c.kind ≠ .mention := by
  refine Machine.forall_set h.kinds fun c' hc' => ?_
  exact h.kinds job (List.mem_of_getElem? hjob) c' (hc ▸ List.mem_cons_of_mem _ hc')

/-- A step keeps track of the reminder. -/
theorem Tracked.step (h : Tracked settings r l s) (hr : datetimeMin ≤ r.dueAt)
    (hl : l.kind = r.kind) (heligible : Eligible s.sources r) (hstep : Steps settings s s') :
    Tracked settings r l s' := by
  have hmention : r.kind ≠ .mention := hl ▸ l.kind_ne_mention
  cases hstep with
  | discovered hj he hi =>
      refine h.jobs hi he ?_ ?_
      · rw [hj]
        exact Machine.forall_snoc h.kinds (fun c hc => nomatch hc)
      · rw [hj]
        exact Machine.forall_snoc h.waiting fun _ => .inl l.mem_loaders
  | @loaded i job l' rest hjob hc hloaders hj he hi =>
      have hmem := List.mem_of_getElem? hjob
      refine h.jobs hi he ?_ ?_
      · rw [hj]
        refine Machine.forall_set h.kinds fun c hc => ?_
        rw [(eligible_of_mem_load hc).2]
        exact l'.kind_ne_mention
      · rw [hj]
        refine Machine.forall_set h.waiting fun hcovers => ?_
        rcases h.waiting job hmem hcovers with hw | ⟨c, hw, -⟩ | hw
        · rw [hloaders] at hw
          cases List.mem_cons.mp hw with
          | inl hhere =>
              subst hhere
              exact .inr (.inl (mem_load heligible hl hcovers.1 hcovers.2))
          | inr hlater => exact .inl hlater
        · rw [hc] at hw
          cases hw
        · exact .inr (.inr hw)
  | @known i job c rest hjob hc htaken hj he hi =>
      refine h.jobs hi he ?_ ?_
      · rw [hj]
        exact h.kinds_tail hjob hc
      · rw [hj]
        refine h.waiting_tail hjob hc ?_
        -- the key of `r` is taken, so `r` has been created
        intro hsame
        obtain ⟨n, hn, hkey⟩ := htaken
        have hrow : n.idempotencyKey = r.key := by rw [hkey, ← hsame, c.key_reminder]
        exact h.once.resolve_left fun hnone => hnone n hn hrow
  | @created i job c rest id hjob hc hkey hid hj he hi =>
      have hhead : c ∈ job.candidates := hc ▸ List.mem_cons_self
      have hkind : c.kind ≠ .mention := h.kinds job (List.mem_of_getElem? hjob) c hhead
      have hkinds : ∀ job ∈ s'.jobs, ∀ c ∈ job.candidates, c.kind ≠ .mention := by
        rw [hj]
        exact h.kinds_tail hjob hc
      by_cases hsame : c.reminder = r
      · subst hsame
        exact h.create hmention hkey hid hi he hkinds
      · have hother : c.idempotencyKey ≠ r.key := by
          intro hk
          exact hsame (Reminder.key_inj hr (hk.symm.trans c.key_reminder.symm)).symm
        refine h.snoc hi hother hid (.inr ⟨rfl, hkind⟩) he hkinds ?_
        rw [hj]
        exact h.waiting_tail hjob hc fun he => absurd he hsame
  | mentioned hkind hkey hid hj he hi =>
      have hsilent : s'.enqueued = s.enqueued ++ [] := by rw [he, List.append_nil]
      refine h.snoc hi ?_ hid (.inl rfl) hsilent ?_ ?_
      · rw [hkey]
        exact (Reminder.key_ne_mention hmention _).symm
      · rw [hj]
        exact h.kinds
      · rw [hj]
        exact h.waiting
  | unmentioned hp hj he hi =>
      have hstays : Created r s → Created r s' := fun hc => hc.filter hmention hp hi he
      refine ⟨?_, ?_, ?_, ?_, ?_⟩
      · rw [hi]
        exact h.keys.sublist ((List.filter_sublist).map _)
      · rw [hi, he]
        intro id hid
        obtain ⟨n, hn, hn', hk⟩ := h.enqueued id hid
        exact ⟨n, List.mem_filter.mpr ⟨hn, hp n hk⟩, hn', hk⟩
      · rw [hj]
        exact h.kinds
      · cases h.once with
        | inl hnone =>
            rw [hi]
            exact .inl fun n hn => hnone n (List.mem_of_mem_filter hn)
        | inr hc => exact .inr (hstays hc)
      · rw [hj]
        intro job hjob hcovers
        exact (h.waiting job hjob hcovers).imp_right (Or.imp_right hstays)
  | other hj he hi =>
      refine h.jobs hi he ?_ ?_
      · rw [hj]
        exact h.kinds
      · rw [hj]
        exact h.waiting

/-- A run from a state without a job and without the reminder. -/
theorem tracked_of_run {s₀ : State} (hr : datetimeMin ≤ r.dueAt) (hl : l.kind = r.kind)
    (hkeys : (s₀.delivery.notifications.map Notification.id).Nodup)
    (hfresh : ∀ n ∈ s₀.delivery.notifications, n.idempotencyKey ≠ r.key)
    (hjobs : s₀.jobs = []) (henqueued : s₀.enqueued = [])
    (hrun : Machine.Run (State.step settings) (fun s _ => Eligible s.sources r) s₀ s) :
    Tracked settings r l s := by
  refine hrun.invariant (fun s a s' h hok hs => ?_) ?_
  · exact h.step hr hl hok (State.step_cases h.keys hs)
  · refine ⟨ids_identities s₀ ▸ hkeys, ?_, ?_, .inl ?_, ?_⟩
    · rw [henqueued]
      exact fun id hid => nomatch hid
    · rw [hjobs]
      exact fun job hjob => nomatch hjob
    · intro n hn
      obtain ⟨row, hrow, rfl⟩ := List.mem_map.mp hn
      exact hfresh row hrow
    · rw [hjobs]
      exact fun job hjob => nomatch hjob

/-! ## The windows overlap -/

/-- Windows of length `w` that begin no further apart than `w` leave no gap. -/
theorem covered_of_gaps {d w : Datetime} {t : Datetime} {ts : List Datetime}
    (hgaps : (t :: ts).IsChain fun a b => a ≤ b ∧ b ≤ a + w) (hafter : t < d)
    (hbefore : d ≤ (t :: ts).getLast (List.cons_ne_nil _ _) + w) :
    ∃ t' ∈ t :: ts, t' < d ∧ d ≤ t' + w := by
  induction ts generalizing t with
  | nil => exact ⟨t, List.mem_cons_self, hafter, hbefore⟩
  | cons t₂ ts ih =>
      rw [List.isChain_cons_cons] at hgaps
      by_cases hlt : t₂ < d
      · rw [List.getLast_cons (List.cons_ne_nil _ _)] at hbefore
        obtain ⟨t', hmem, h⟩ := ih hgaps.2 hlt hbefore
        exact ⟨t', List.mem_cons_of_mem _ hmem, h⟩
      · exact ⟨t, List.mem_cons_self, hafter, (not_lt.mp hlt).trans hgaps.1.2⟩

end

/-- Discovery at times no further apart than the window creates and enqueues every
reminder that stays eligible and falls due meanwhile, once; its key is that of no
other reminder and of no mention. -/
theorem reminder_created_once {settings : Settings} {s₀ s : State} {r : Reminder}
    {t₁ : Datetime} {ts : List Datetime}
    (hkeys : (s₀.delivery.notifications.map Notification.id).Nodup)
    (hfresh : ∀ n ∈ s₀.delivery.notifications, n.idempotencyKey ≠ r.key)
    (hjobs : s₀.jobs = []) (henqueued : s₀.enqueued = []) (heligible : Eligible s₀.sources r)
    (hrun : Machine.Run (State.step settings) (fun s _ => Eligible s.sources r) s₀ s)
    (hfinished : ∀ job ∈ s.jobs, job.finished) (htimes : s.jobs.map Job.current = t₁ :: ts)
    (hgaps : (t₁ :: ts).IsChain fun t t' => t ≤ t' ∧ t' ≤ t + settings.window)
    (hclock : datetimeMin ≤ t₁) (hafter : t₁ < r.dueAt)
    (hbefore : r.dueAt ≤ (t₁ :: ts).getLast (List.cons_ne_nil _ _) + settings.window) :
    (∃ n, s.delivery.notifications.filter (fun n => n.idempotencyKey = r.key) = [n] ∧
      n.kind = r.kind ∧ n.sourceId = r.sourceId ∧ n.recipientId = r.recipientId ∧
      s.enqueued.count n.id = 1) ∧
    (∀ r' : Reminder, r' ≠ r → r'.key ≠ r.key) ∧
    ∀ mentionId : UUID, r.key ≠ "mention:" ++ mentionId.str := by
  have hr : datetimeMin ≤ r.dueAt := hclock.trans hafter.le
  obtain ⟨l, hl⟩ := heligible.loader
  have htracked := tracked_of_run hr hl hkeys hfresh hjobs henqueued hrun
  -- the job whose window holds the due time is done
  obtain ⟨t, ht, hcovers⟩ := covered_of_gaps hgaps hafter hbefore
  rw [← htimes] at ht
  obtain ⟨job, hjob, rfl⟩ := List.mem_map.mp ht
  have hdone := hfinished job hjob
  rw [Job.finished, Bool.and_eq_true, List.isEmpty_iff, List.isEmpty_iff] at hdone
  have hcreated : Created r s := by
    rcases htracked.waiting job hjob hcovers with hw | ⟨c, hw, -⟩ | hw
    · rw [hdone.1] at hw
      cases hw
    · rw [hdone.2] at hw
      cases hw
    · exact hw
  obtain ⟨id, hrow, hcount⟩ := hcreated
  rw [State.identities, List.filter_map] at hrow
  obtain ⟨n, hn, hid⟩ := List.map_eq_singleton_iff.mp hrow
  refine ⟨⟨n, hn, ?_, ?_, ?_, ?_⟩, ?_, ?_⟩
  · exact congrArg Identity.kind hid
  · exact congrArg Identity.sourceId hid
  · exact congrArg Identity.recipientId hid
  · rw [show n.id = id from congrArg Identity.id hid]
    exact hcount
  · intro r' hne hkey
    exact hne (Reminder.key_inj hr hkey.symm).symm
  · exact Reminder.key_ne_mention (hl ▸ l.kind_ne_mention)

/-! ## A sample -/

def Sample.settings : Settings := ⟨.default, 60⟩

def Sample.decision : Decision :=
  ⟨30, 10, 1, "Quarry", none, .delivery, .active, none, none, none, none, none, 0, 0⟩

/-- An action due in ninety minutes. -/
def Sample.sources : ReminderSources where
  tables := { decisions := [decision] }
  implementationActions := [⟨60, 30, 1, "Quarry survey", .todo, some (minutes 90)⟩]

def Sample.reminder : Reminder := ⟨.actionDue, 60, 1, minutes 90⟩

def Sample.start : State := ⟨sources, .empty 0, [], []⟩

/-- One call of `discover` that finds the action, and one that does not. -/
def Sample.scans : List Action :=
  [.discover 0, .load 0, .load 0, .load 0, .load 0,
    .deliver (.tick (minutes 60)), .discover (minutes 60), .load 1, .createCandidate 1 90,
    .mention 70 1 10 91 "Ada" "hello" 0, .deliver (.claim 0 false),
    .deliver (.tick (minutes 80)), .discover (minutes 80), .load 2, .createCandidate 2 92,
    .load 1, .load 2, .load 1, .load 2, .load 1, .load 2]

theorem reminder_created_once_sample : ∃ s : State,
    s.jobs.map Job.current = [0, minutes 60, minutes 80] ∧
    ∃ n, s.delivery.notifications.filter (fun n => n.idempotencyKey = Sample.reminder.key) = [n] ∧
      s.enqueued.count n.id = 1 := by
  obtain ⟨s, hplay, hs⟩ := Option.map_eq_some_iff.mp
    (show (Machine.play (State.step Sample.settings)
        (fun s _ => Eligible s.sources Sample.reminder) Sample.start Sample.scans).map
          (fun s => (s.jobs.all Job.finished, s.jobs.map Job.current)) =
        some (true, [0, minutes 60, minutes 80]) by decide +kernel)
  obtain ⟨hfinished, htimes⟩ := Prod.mk.inj hs
  have hfresh : ∀ n ∈ Sample.start.delivery.notifications,
      n.idempotencyKey ≠ Sample.reminder.key := by decide
  obtain ⟨⟨n, hn, -, -, -, hcount⟩, -⟩ :=
    reminder_created_once (by decide) hfresh rfl rfl (by decide +kernel)
      (Machine.Run.of_play hplay) (List.all_eq_true.mp hfinished) htimes (by decide) (by decide)
      (by decide) (by decide)
  exact ⟨s, htimes, n, hn, hcount⟩

end Reminders

end ForkRoom
