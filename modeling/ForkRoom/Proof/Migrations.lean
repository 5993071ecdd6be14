/-
# `Proof.Migrations` — which downgrades go through on real data

The downgrade of the locks converts the decisions that the older check does not know;
it goes through on every database, and a decision that was locked is then closed, with
the time of its closing.  The other two convert nothing: a completed review keeps its
status, a mention stays among the notifications, and one such row is enough for the
check constraint to be refused (`rolled_back_iff`).
-/
import ForkRoom.Model.Migrations
import ForkRoom.Proof.Finished
import ForkRoom.Proof.Reminders

namespace ForkRoom

open Migrations

/-! ## Locks -/

theorem closeLocked_status (d : Decision) : (closeLocked d).status ≠ .locked := by
  unfold closeLocked
  split
  · exact fun h => (nomatch h)
  · rename_i h
    exact h

theorem dropLockedAt_check {d : Decision} (h : d.status ≠ .locked) :
    (dropLockedAt d).StatusCheck := by
  unfold UnlockableDecision.StatusCheck dropLockedAt
  cases hst : d.status with
  | locked => exact absurd hst h
  | draft | active | closed | archived => simp [DecisionStatus.value]

/-! ## Reviews -/

theorem dropOutcome_check {v : DecisionReview} :
    (dropOutcome v).StatusCheck ↔ v.status ≠ .completed := by
  unfold PlainReview.StatusCheck dropOutcome
  cases v.status <;> simp [ReviewStatus.value]

/-- A review that is not completed is in a state of before. -/
theorem dropOutcome_state {v : DecisionReview} (h : v.TerminalState) (hv : v.status ≠ .completed) :
    (dropOutcome v).CancelledState := by
  rcases h with ⟨hst, hat, hby, -⟩ | ⟨hst, hat, hby, -⟩ | ⟨hst, -⟩
  · exact Or.inl ⟨congrArg ReviewStatus.value hst, hat, hby⟩
  · exact Or.inr ⟨congrArg ReviewStatus.value hst, hat, hby⟩
  · exact absurd hst hv

/-! ## Mentions -/

theorem kindCheck_iff {n : Notification} : KindCheck n ↔ n.kind ≠ .mention := by
  unfold KindCheck
  cases n.kind <;> simp [NotificationKind.value]

/-! ## All three -/

/-- Each migration can be downgraded from its own revision, and the rows satisfy the
checks that are created again. -/
structure RolledBack (db : Db) (notifications : List Notification) : Prop where
  locks : ∃ rows, downgradeDecisionLocks db.decisions = .ok rows ∧
    ∀ r ∈ rows, r.StatusCheck
  outcomes : ∃ rows, downgradeReviewOutcomes db.decisionReviews = .ok rows ∧
    ∀ r ∈ rows, r.StatusCheck ∧ r.CancelledState
  mentions : ∃ rows, downgradeMentions notifications = .ok rows ∧ ∀ r ∈ rows, KindCheck r

section
variable {db : Db} {notifications : List Notification}

/-- The conversion leaves nothing for the older check to refuse. -/
theorem locks_rolled_back (decisions : List Decision) :
    ∃ rows, downgradeDecisionLocks decisions = .ok rows ∧ ∀ r ∈ rows, r.StatusCheck := by
  have hcheck : ∀ r ∈ (decisions.map closeLocked).map dropLockedAt, r.StatusCheck := by
    intro r hr
    obtain ⟨d, hd, rfl⟩ := List.mem_map.mp hr
    obtain ⟨d', -, rfl⟩ := List.mem_map.mp hd
    exact dropLockedAt_check (closeLocked_status d')
  exact ⟨_, downgradeDecisionLocks_ok.mpr ⟨hcheck, rfl⟩, hcheck⟩

/-- One completed review is enough for the downgrade of the outcomes to fail. -/
theorem outcomes_rolled_back :
    (∃ rows, downgradeReviewOutcomes db.decisionReviews = .ok rows ∧
      ∀ r ∈ rows, r.StatusCheck ∧ r.CancelledState) ↔
      ∀ v ∈ db.decisionReviews, v.status ≠ .completed := by
  constructor
  · rintro ⟨rows, hrows, hchecks⟩ v hv
    obtain ⟨-, rfl⟩ := downgradeReviewOutcomes_ok.mp hrows
    exact dropOutcome_check.mp (hchecks _ (List.mem_map_of_mem hv)).1
  · intro h
    have hchecks : ∀ r ∈ db.decisionReviews.map dropOutcome, r.StatusCheck ∧ r.CancelledState := by
      intro r hr
      obtain ⟨v, hv, rfl⟩ := List.mem_map.mp hr
      exact ⟨dropOutcome_check.mpr (h v hv),
        dropOutcome_state (db.valid.ckDecisionReviewsTerminalState v hv) (h v hv)⟩
    exact ⟨_, downgradeReviewOutcomes_ok.mpr
      ⟨⟨fun r hr => (hchecks r hr).1, fun r hr => (hchecks r hr).2⟩, rfl⟩, hchecks⟩

theorem mentions_rolled_back :
    (∃ rows, downgradeMentions notifications = .ok rows ∧ ∀ r ∈ rows, KindCheck r) ↔
      ∀ n ∈ notifications, n.kind ≠ .mention := by
  constructor
  · rintro ⟨rows, hrows, hchecks⟩ n hn
    obtain ⟨-, rfl⟩ := downgradeMentions_ok.mp hrows
    exact kindCheck_iff.mp (hchecks n hn)
  · intro h
    have hchecks : ∀ n ∈ notifications, KindCheck n := fun n hn => kindCheck_iff.mpr (h n hn)
    exact ⟨_, downgradeMentions_ok.mpr ⟨hchecks, rfl⟩, hchecks⟩

/-- What stands in the way of a downgrade is a completed review or a mention. -/
theorem rolledBack_iff : RolledBack db notifications ↔
    (∀ v ∈ db.decisionReviews, v.status ≠ .completed) ∧
      ∀ n ∈ notifications, n.kind ≠ .mention := by
  constructor
  · rintro ⟨-, houtcomes, hmentions⟩
    exact ⟨outcomes_rolled_back.mp houtcomes, mentions_rolled_back.mp hmentions⟩
  · rintro ⟨hreviews, hkinds⟩
    exact ⟨locks_rolled_back _, outcomes_rolled_back.mpr hreviews, mentions_rolled_back.mpr hkinds⟩

end

/-! ## Runs without completions and mentions -/

section
variable {dep : Deployment} {db₀ : Db} {c : Configuration}

/-- Interleavings of requests other than `complete_review` complete no review. -/
theorem Interleaving.uncompleted (hdb : ∀ v ∈ db₀.decisionReviews, v.status ≠ .completed)
    (hrun : Interleaving dep (Starts fun op => !op.completesReview)
      (Optimistic.Config.idle db₀) c) :
    ∀ v ∈ c.state.decisionReviews, v.status ≠ .completed := by
  refine (Optimistic.Run.rely_guarantee (R := fun _ _ => True)
    (I := fun db => ∀ v ∈ db.decisionReviews, v.status ≠ .completed)
    (P := fun op : Op => op.completesReview = false) (fun _ => trivial)
    (fun _ _ => trivial) (fun _ op h => ?_) (fun op ss ws f g db db' hop hI _ hends hc => ?_)
    hrun (Optimistic.Config.only_idle _) hdb (Optimistic.Config.traced_idle _)
    (Optimistic.Config.below_idle _)).1
  · simpa [Starts, Optimistic.Action.starts] using h
  · exact ⟨(Op.commit_reviewMove hends hc).uncompleted hop hI, trivial⟩

end

namespace Reminders

/-- `sync_for_comment` adds a mention. -/
def Action.mentions : Action → Bool
  | .mention .. => true
  | _ => false

/-- No notification is that of a mention, and none is on its way. -/
structure Unmentioned (s : State) : Prop where
  keys : (s.identities.map Identity.id).Nodup
  rows : ∀ n ∈ s.identities, n.kind ≠ .mention
  candidates : ∀ job ∈ s.jobs, ∀ c ∈ job.candidates, c.kind ≠ .mention

section
variable {settings : Settings} {s s' : State}

/-- Running a loader, or passing over a candidate, changes the job. -/
theorem ne_of_set {job job' : Job} {i : Nat} {jobs : List Job} (hjob : jobs[i]? = some job)
    (hne : job' ≠ job) : jobs.set i job' ≠ jobs := by
  intro h
  obtain ⟨hi, hget⟩ := List.getElem?_eq_some_iff.mp hjob
  have hset : (jobs.set i job')[i]? = some job' := by simp [hi]
  rw [h, hjob] at hset
  exact hne (Option.some.inj hset).symm

/-- A step without a mention that leaves the jobs alone brings in no notification. -/
theorem identities_of_jobs {a : Action} (hkeys : (s.identities.map Identity.id).Nodup)
    (ha : a.mentions = false) (h : s.step settings a = some s') (hj : s'.jobs = s.jobs) :
    s'.identities.length ≤ s.identities.length := by
  cases a with
  | discover now =>
      obtain ⟨-, h⟩ := Machine.guard_bind h
      cases h
      exact absurd hj (by simp)
  | load i =>
      obtain ⟨job, hjob, h⟩ := Option.bind_eq_some_iff.mp h
      split at h
      · cases h
        exact Nat.le_refl _
      · cases h
  | createCandidate i id =>
      obtain ⟨job, hjob, h⟩ := Option.bind_eq_some_iff.mp h
      split at h
      · rename_i hc
        obtain ⟨_, -, h⟩ := Option.bind_eq_some_iff.mp h
        obtain ⟨_, -, h⟩ := Option.bind_eq_some_iff.mp h
        cases h
        refine absurd hj (ne_of_set hjob fun he => ?_)
        have hrest := congrArg Job.candidates he
        rw [hc] at hrest
        exact List.cons_ne_self _ _ hrest.symm
      · cases h
  | edit sources =>
      cases h
      exact Nat.le_refl _
  | deliver a => exact (congrArg List.length (deliver_keeps hkeys h).2.2).le
  | mention => nomatch ha
  | unmention mentionId =>
      cases h
      simp only [State.identities, unmention, List.length_map]
      exact List.length_filter_le _ _

/-- The candidates that a job has left are among those it had. -/
theorem Unmentioned.tail {i : Nat} {job : Job} {c : ReminderCandidate}
    {rest : List ReminderCandidate} (h : Unmentioned s) (hjob : s.jobs[i]? = some job)
    (hc : job.candidates = c :: rest) :
    ∀ job' ∈ s.jobs.set i { job with candidates := rest }, ∀ c ∈ job'.candidates,
      c.kind ≠ .mention := by
  refine Machine.forall_set h.candidates fun c' hc' => ?_
  exact h.candidates job (List.mem_of_getElem? hjob) c' (hc ▸ List.mem_cons_of_mem _ hc')

/-- Discovery makes no notification of a mention. -/
theorem Unmentioned.step {a : Action} (h : Unmentioned s) (ha : a.mentions = false)
    (hs : s.step settings a = some s') : Unmentioned s' := by
  cases State.step_cases h.keys hs with
  | discovered hj _ hi =>
      refine ⟨hi ▸ h.keys, hi ▸ h.rows, ?_⟩
      rw [hj]
      exact Machine.forall_snoc h.candidates (fun c hc => nomatch hc)
  | @loaded i job l rest hjob _ _ hj _ hi =>
      refine ⟨hi ▸ h.keys, hi ▸ h.rows, ?_⟩
      rw [hj]
      refine Machine.forall_set h.candidates fun c hc => ?_
      rw [(NotificationRepository.eligible_of_mem_load hc).2]
      exact l.kind_ne_mention
  | known hjob hc _ hj _ hi =>
      refine ⟨hi ▸ h.keys, hi ▸ h.rows, ?_⟩
      rw [hj]
      exact h.tail hjob hc
  | @created i job c rest id hjob hc _ hid hj _ hi =>
      have hkind : c.kind ≠ .mention :=
        h.candidates job (List.mem_of_getElem? hjob) c (hc ▸ List.mem_cons_self)
      refine ⟨?_, ?_, ?_⟩
      · rw [hi, List.map_append]
        exact List.nodup_append_comm.mp (List.nodup_cons.mpr ⟨hid, h.keys⟩)
      · rw [hi]
        exact Machine.forall_snoc h.rows hkind
      · rw [hj]
        exact h.tail hjob hc
  | mentioned _ _ _ hj _ hi =>
      -- a step that adds a row and leaves the jobs alone would be a mention
      have hle := identities_of_jobs h.keys ha hs hj
      rw [hi, List.length_append] at hle
      exact absurd hle (by simp)
  | unmentioned _ hj _ hi =>
      refine ⟨?_, ?_, hj ▸ h.candidates⟩
      · rw [hi]
        exact h.keys.sublist (List.filter_sublist.map _)
      · rw [hi]
        exact fun n hn => h.rows n (List.mem_of_mem_filter hn)
  | other hj _ hi => exact ⟨hi ▸ h.keys, hi ▸ h.rows, hj ▸ h.candidates⟩

theorem Unmentioned.run (h : Unmentioned s)
    (hrun : Machine.Run (State.step settings) (fun _ a => a.mentions = false) s s') :
    Unmentioned s' :=
  hrun.invariant (fun _ _ _ hI ha hs => hI.step ha hs) h

end

end Reminders

/-- **Which databases can be downgraded**: those without a completed review and without
the notification of a mention.  Runs that complete no review and add no mention stay
among them. -/
theorem rolled_back_iff (db : Db) (notifications : List Notification) :
    (RolledBack db notifications ↔
      (∀ v ∈ db.decisionReviews, v.status ≠ .completed) ∧
        ∀ n ∈ notifications, n.kind ≠ .mention) ∧
    ∀ (dep : Deployment) (db₀ : Db) (c : Configuration) (settings : Reminders.Settings)
      (s₀ s : Reminders.State),
      (∀ v ∈ db₀.decisionReviews, v.status ≠ .completed) →
      Interleaving dep (Starts fun op => !op.completesReview) (Optimistic.Config.idle db₀) c →
      Reminders.Unmentioned s₀ →
      Machine.Run (Reminders.State.step settings) (fun _ a => a.mentions = false) s₀ s →
      RolledBack c.state s.delivery.notifications := by
  refine ⟨rolledBack_iff, ?_⟩
  intro dep db₀ c settings s₀ s hdb hrun hs₀ hrun'
  have hreviews := Interleaving.uncompleted hdb hrun
  have hrows := (hs₀.run hrun').rows
  refine rolledBack_iff.mpr ⟨hreviews, fun n hn => ?_⟩
  exact hrows _ (List.mem_map_of_mem hn)

/-- A review is cancelled, one of the actions announced. -/
def Sample.cancelled : List (Optimistic.Action Op) :=
  .start (.cancelReview (env 16 0) ada 10 20 70) :: List.replicate 5 (.advance 0)

def Sample.announces : List Reminders.Action :=
  [.deliver (.tick (minutes 60)), .discover (minutes 60), .load 0, .createCandidate 0 90]

theorem rolled_back_iff_sample : ∃ (c : Configuration) (s : Reminders.State),
    c.state.decisionReviews.map DecisionReview.status = [.cancelled] ∧
      s.delivery.notifications.map Notification.kind = [.actionDue] ∧
      RolledBack c.state s.delivery.notifications := by
  obtain ⟨c, hc, hreviews⟩ := Option.map_eq_some_iff.mp
    (show ((Optimistic.Config.idle Sample.reviewed).acts Db.commit (Op.program Sample.dep)
        (Starts fun op => !op.completesReview) Sample.cancelled).map
          (fun c => c.state.decisionReviews.map DecisionReview.status) =
        some [.cancelled] by decide +kernel)
  obtain ⟨s, hplay, hkinds⟩ := Option.map_eq_some_iff.mp
    (show (Machine.play (Reminders.State.step Reminders.Sample.settings)
        (fun _ a => a.mentions = false) Reminders.Sample.start Sample.announces).map
          (fun s => s.delivery.notifications.map Notification.kind) =
        some [.actionDue] by decide +kernel)
  have hstart : Reminders.Unmentioned Reminders.Sample.start :=
    ⟨List.nodup_nil, fun n hn => (nomatch hn), fun job hjob => (nomatch hjob)⟩
  exact ⟨c, s, hreviews, hkinds, (rolled_back_iff c.state s.delivery.notifications).2
    Sample.dep Sample.reviewed c
    Reminders.Sample.settings Reminders.Sample.start s (by decide +kernel)
    (Optimistic.Run.of_acts hc) hstart (Machine.Run.of_play hplay)⟩

/-! ## Populated databases -/

def Sample.confirms : Op :=
  .completeReview (env 30 0) ada 10 20 70 ⟨.confirmed, "Still right", none, none, none⟩

/-- The review has been confirmed. -/
def Sample.confirmed : Db := (confirms.exec dep reviewed).2

/-- Bob is mentioned in a comment. -/
def Sample.mentions : List Reminders.Action := [.mention 70 2 10 91 "Ada" "hello" 0]

/-- With a confirmed review and a mention, both of them made by the services, neither of
the two downgrades goes through. -/
theorem populated_not_rolled_back : ∃ s,
    Reachable Sample.dep Sample.confirmed ∧
      Machine.Run (Reminders.State.step Reminders.Sample.settings) (fun _ _ => True)
        Reminders.Sample.start s ∧
      downgradeReviewOutcomes Sample.confirmed.decisionReviews = .error "review_status" ∧
      downgradeMentions s.delivery.notifications = .error "notification_kind" ∧
      ¬ RolledBack Sample.confirmed s.delivery.notifications := by
  obtain ⟨s, hplay, hmentions⟩ := Option.map_eq_some_iff.mp
    (show (Machine.play (Reminders.State.step Reminders.Sample.settings) (fun _ _ => True)
        Reminders.Sample.start Sample.mentions).map
          (fun s => downgradeMentions s.delivery.notifications) =
        some (.error "notification_kind") by decide +kernel)
  have houtcomes : downgradeReviewOutcomes Sample.confirmed.decisionReviews =
      .error "review_status" := by decide +kernel
  refine ⟨s, Sample.reviewed_reachable.step _, Machine.Run.of_play hplay, houtcomes, hmentions,
    fun h => ?_⟩
  obtain ⟨rows, hrows, -⟩ := h.mentions
  rw [hmentions] at hrows
  nomatch hrows

end ForkRoom
