/-
# `Proof.Delivery` — notification delivery is bounded and terminal

What a step does to the rows is one of four things (`Change`): nothing, a new
row, a claim, or a rewriting that keeps the counters, the constraints and every
terminal status (`Kept`).  The last is where `ck_notifications_terminal_state`
comes in: an outcome sets `delivered_at` or `failed_at` and never clears one, so
a row that is done has no legal status but its own.

The invariant of a run reads the claims off the workers: for every notification
they are numbered 1, 2, … up to its `attempt_count`.
-/
import ForkRoom.Lib.Claims
import ForkRoom.System.Delivery

namespace ForkRoom

namespace Delivery

open NotificationRepository

/-! ## Rows -/

/-- What no step but a claim changes of a row, and what no step undoes. -/
structure Kept (n n' : Notification) : Prop where
  id : n'.id = n.id
  recipientId : n'.recipientId = n.recipientId
  attemptCount : n'.attemptCount = n.attemptCount
  maxAttempts : n'.maxAttempts = n.maxAttempts
  legal : n'.Legal
  terminal : n.status.terminal → n'.status = n.status

theorem Kept.refl {n : Notification} (h : n.Legal) : Kept n n :=
  ⟨rfl, rfl, rfl, rfl, h, fun _ => rfl⟩

theorem legal_delivered {n : Notification} (h : n.Legal) :
    n.deliveredAt.isSome ↔ n.status = .delivered := by
  obtain ⟨hs, hd, -⟩ | ⟨hs, -, hd⟩ | ⟨hs, hd, -⟩ := h.ckNotificationsTerminalState
  · simp [hs, hd]
  · simp_all
  · simp only [List.mem_cons, List.not_mem_nil, or_false] at hs
    rcases hs with hs | hs | hs <;> simp_all

theorem legal_failed {n : Notification} (h : n.Legal) :
    n.failedAt.isSome ↔ n.status = .failed := by
  obtain ⟨hs, -, hf⟩ | ⟨hs, hf, -⟩ | ⟨hs, -, hf⟩ := h.ckNotificationsTerminalState
  · simp_all
  · simp [hs, hf]
  · simp only [List.mem_cons, List.not_mem_nil, or_false] at hs
    rcases hs with hs | hs | hs <;> simp_all

theorem legal_open {n : Notification} (h : n.Legal) (hs : n.status.terminal = false) :
    n.deliveredAt = none ∧ n.failedAt = none := by
  have hd := legal_delivered h
  have hf := legal_failed h
  simp only [NotificationStatus.terminal, Bool.or_eq_false_iff, decide_eq_false_iff_not] at hs
  exact ⟨Option.not_isSome_iff_eq_none.mp (hs.1 ∘ hd.mp),
    Option.not_isSome_iff_eq_none.mp (hs.2 ∘ hf.mp)⟩

/-- An outcome clears neither of the two times. -/
theorem merge_times (outcome : Outcome) (current stored : Notification) :
    (stored.deliveredAt.isSome →
      (current.merge (outcome.apply current) stored).deliveredAt.isSome) ∧
      (stored.failedAt.isSome →
        (current.merge (outcome.apply current) stored).failedAt.isSome) := by
  cases outcome with
  | delivered now =>
      refine ⟨fun h => ?_, fun h => by simpa [Outcome.apply, markDelivered, Notification.merge]⟩
      show (Rows.column current.deliveredAt (some now) stored.deliveredAt).isSome
      rcases Rows.column_cases current.deliveredAt (some now) stored.deliveredAt with hc | hc
      · rw [hc]
        exact h
      · rw [hc]
        rfl
  | retry availableAt error =>
      constructor <;> intro h <;> simpa [Outcome.apply, scheduleRetry, Notification.merge]
  | failed now error =>
      refine ⟨fun h => by simpa [Outcome.apply, markFailed, Notification.merge], fun h => ?_⟩
      show (Rows.column current.failedAt (some now) stored.failedAt).isSome
      rcases Rows.column_cases current.failedAt (some now) stored.failedAt with hc | hc
      · rw [hc]
        exact h
      · rw [hc]
        rfl

/-- An outcome counts no attempt. -/
theorem merge_attemptCount (outcome : Outcome) (current stored : Notification) :
    (current.merge (outcome.apply current) stored).attemptCount = stored.attemptCount := by
  cases outcome <;> exact Rows.column_kept _ _

/-- A legal commit of an outcome keeps the row, and keeps it done if it was. -/
theorem merge_kept {outcome : Outcome} {current stored : Notification} (h : stored.Legal)
    (h' : (current.merge (outcome.apply current) stored).Legal) :
    Kept stored (current.merge (outcome.apply current) stored) := by
  refine ⟨rfl, rfl, merge_attemptCount outcome current stored, rfl, h', fun hs => ?_⟩
  obtain ⟨hdelivered, hfailed⟩ := merge_times outcome current stored
  simp only [NotificationStatus.terminal, Bool.or_eq_true, decide_eq_true_eq] at hs
  cases hs with
  | inl hs =>
      rw [hs]
      exact (legal_delivered h').mp (hdelivered ((legal_delivered h).mpr hs))
  | inr hs =>
      rw [hs]
      exact (legal_failed h').mp (hfailed ((legal_failed h).mpr hs))

theorem recovered_kept {staleBefore now : Datetime} {n : Notification} (h : n.Legal)
    (hstale : stale staleBefore n) : Kept n (NotificationRepository.recovered now n) := by
  simp only [stale, Bool.and_eq_true, decide_eq_true_eq] at hstale
  obtain ⟨⟨hs, -⟩, -⟩ := hstale
  obtain ⟨hd, hf⟩ := legal_open h (by rw [hs]; rfl)
  refine ⟨rfl, rfl, rfl, rfl, ⟨h.1, h.2, ?_⟩, fun ht => ?_⟩
  · exact .inr (.inr ⟨by simp [NotificationRepository.recovered], by
      simp [NotificationRepository.recovered, hd, hf]⟩)
  · rw [hs] at ht
    nomatch ht

theorem claimable_iff {now : Datetime} {n : Notification} :
    claimable now n ↔ (n.status = .pending ∨ n.status = .retryScheduled) ∧ n.availableAt ≤ now ∧
      n.attemptCount < n.maxAttempts := by
  simp [claimable, and_assoc]

theorem claimed_legal {now : Datetime} {n : Notification} (h : n.Legal) (hc : claimable now n) :
    (NotificationRepository.claimed now n).Legal := by
  obtain ⟨hs, -, hmax⟩ := claimable_iff.mp hc
  obtain ⟨hd, hf⟩ := legal_open h (by rcases hs with hs | hs <;> rw [hs] <;> rfl)
  refine ⟨h.1, hmax, .inr (.inr ⟨?_, ?_⟩)⟩
  · simp [NotificationRepository.claimed]
  · simp [NotificationRepository.claimed, hd, hf]

/-! ## What a step does to the rows and the claims -/

inductive Change (c c' : Config) : Prop
  | inserted {row : Notification} : row.id ∉ c.notifications.map Notification.id → row.Legal →
      row.attemptCount = 0 → c'.notifications = c.notifications ++ [row] →
      c'.claims = c.claims → Change c c'
  | claimed {n : Notification} : n ∈ c.notifications → claimable c.clock n →
      c'.notifications =
        Rows.replace n (NotificationRepository.claimed c.clock n) c.notifications →
      c'.claims = c.claims ++ [(n.id, n.attemptCount + 1)] → Change c c'
  | rewritten {f : Notification → Notification} : (∀ n ∈ c.notifications, Kept n (f n)) →
      c'.notifications = c.notifications.map f → c'.claims = c.claims → Change c c'

theorem Change.of_same {c c' : Config} (hlegal : ∀ n ∈ c.notifications, n.Legal)
    (hn : c'.notifications = c.notifications) (hc : c'.claims = c.claims) : Change c c' :=
  .rewritten (f := id) (fun n hm => .refl (hlegal n hm)) (by rw [hn, List.map_id]) hc

theorem moved_claims {c : Config} {i : Nat} {w : Worker} (hw : c.workers[i]? = some w)
    (phase : Phase) : (c.moved i w phase).claims = c.claims :=
  Machine.map_set_of_eq hw rfl

theorem Steps.change {settings : WorkerSettings} {c c' : Config} {a : Action}
    (h : Steps settings c a c') (hkeys : (c.notifications.map Notification.id).Nodup)
    (hlegal : ∀ n ∈ c.notifications, n.Legal) : Change c c' := by
  cases h with
  | tick | known | redelivered | ignored => exact .of_same hlegal rfl rfl
  | discovered _ hrow _ hfresh hok =>
      subst hrow
      exact .inserted hfresh hok rfl rfl rfl
  | recovered =>
      refine .rewritten (fun n hn => ?_) rfl rfl
      split
      · rename_i hstale
        exact recovered_kept (hlegal n hn) hstale
      · exact .refl (hlegal n hn)
  | claimed _ _ hn _ hok => exact .claimed hn hok rfl (by simp [Config.claims]; rfl)
  | turned hw _ => exact .of_same hlegal rfl (moved_claims hw _)
  | mailed hw _ _ => exact .of_same hlegal rfl (moved_claims hw _)
  | recorded hw _ hmem hid hok =>
      refine .rewritten (fun n hn => ?_) rfl (moved_claims hw _)
      split
      · rename_i hkey
        rw [Rows.eq_of_key hkeys hn hmem (hkey.trans hid.symm)]
        exact merge_kept (hlegal _ hmem) hok
      · exact .refl (hlegal n hn)
  | published hw _ => exact .of_same hlegal rfl (moved_claims hw _)
  | crashed hw _ => exact .of_same hlegal rfl (moved_claims hw _)

/-! ## The claims are numbered -/

/-- The rows with their counters. -/
def Config.counters (c : Config) : List (UUID × Nat) :=
  c.notifications.map fun n => (n.id, n.attemptCount)

structure Counted (c : Config) : Prop where
  legal : ∀ n ∈ c.notifications, n.Legal
  numbered : Claims.Numbered c.counters c.claims

theorem Counted.empty (clock : Datetime) : Counted (.empty clock) :=
  ⟨fun _ h => (nomatch h), .empty⟩

theorem counters_keys (c : Config) :
    c.counters.map Prod.fst = c.notifications.map Notification.id := by
  rw [Config.counters, List.map_map]
  rfl

theorem mem_counters {c : Config} {n : Notification} (h : n ∈ c.notifications) :
    (n.id, n.attemptCount) ∈ c.counters :=
  List.mem_map_of_mem h

theorem Counted.keys {c : Config} (h : Counted c) :
    (c.notifications.map Notification.id).Nodup :=
  counters_keys c ▸ h.numbered.keys

theorem Counted.change {c c' : Config} (h : Counted c) (hc : Change c c') : Counted c' := by
  cases hc with
  | @inserted row hfresh hlegal hzero hrows hclaims =>
      refine ⟨hrows ▸ Machine.forall_snoc h.legal hlegal, ?_⟩
      rw [hclaims, Config.counters, hrows, List.map_append, List.map_singleton, hzero]
      exact h.numbered.insert (counters_keys c ▸ hfresh)
  | @claimed n hn hok hrows hclaims =>
      refine ⟨fun x hx => ?_, ?_⟩
      · rw [hrows] at hx
        rcases (Rows.mem_replace hn).mp hx with rfl | ⟨hx, -⟩
        · exact claimed_legal (h.legal n hn) hok
        · exact h.legal x hx
      · rw [hclaims, Config.counters, hrows]
        exact h.numbered.replace hn rfl rfl
  | @rewritten f hf hrows hclaims =>
      refine ⟨fun x hx => ?_, ?_⟩
      · rw [hrows] at hx
        obtain ⟨n, hn, rfl⟩ := List.mem_map.mp hx
        exact (hf n hn).legal
      · have hcounters : c'.counters = c.counters := by
          rw [Config.counters, hrows]
          exact Claims.counters_map fun n hn => ⟨(hf n hn).id, (hf n hn).attemptCount⟩
        rw [hclaims, hcounters]
        exact h.numbered

theorem Counted.step {settings : WorkerSettings} {c c' : Config} {a : Action} (h : Counted c)
    (hs : Steps settings c a c') : Counted c' :=
  h.change (hs.change h.keys h.legal)

/-! ## Each claim sends at most one mail -/

/-- The worker is past its mail. -/
def Worker.pastMail (w : Worker) : Bool :=
  match w.phase with
  | .claimed | .sending .. => false
  | _ => true

/-- Every mail is the mail of one claim. -/
abbrev Mailed (c : Config) : Prop :=
  Claims.OnceEach Worker.claim Worker.pastMail c.workers (c.mails.map Mail.claim)

theorem Turn.pastMail {settings : WorkerSettings} {c : Config} {i : Nat} {w : Worker}
    {a : Action} {phase : Phase} (h : Turn settings c i w a phase) (hw : w.pastMail) :
    ({ w with phase := phase } : Worker).pastMail := by
  cases h with
  | recipientFound hphase =>
      rw [Worker.pastMail, hphase] at hw
      nomatch hw
  | _ => rfl

theorem Mailed.step {settings : WorkerSettings} {c c' : Config} {a : Action} (hc : Counted c)
    (h : Mailed c) (hs : Steps settings c a c') : Mailed c' := by
  cases hs with
  | tick | known | discovered | recovered | redelivered | ignored => exact h
  | claimed => exact h.snoc _
  | turned hw hturn => exact h.move hw rfl hturn.pastMail
  | @mailed i w error mail email displayName hw hphase hclaim =>
      show Claims.OnceEach Worker.claim Worker.pastMail _ ((c.mails ++ [mail]).map Mail.claim)
      rw [List.map_append, List.map_singleton, hclaim]
      refine h.send hc.numbered.distinct hw ?_ rfl ?_
      · rw [Worker.pastMail, hphase]
      · cases error <;> rfl
  | @recorded _ _ _ _ _ outcome hw => exact h.move hw rfl fun _ => by cases outcome <;> rfl
  | published hw | crashed hw => exact h.move hw rfl fun _ => rfl

/-! ## Every run -/

theorem reachable_counted {settings : WorkerSettings} {c : Config} (h : Reachable settings c) :
    Counted c ∧ Mailed c := by
  obtain ⟨clock, hrun⟩ := h
  refine hrun.invariant (I := fun c => Counted c ∧ Mailed c) (fun c a c' hc _ hs => ?_)
    ⟨.empty clock, .empty _ _ _⟩
  have hsteps := Config.step_cases hs
  exact ⟨hc.1.step hsteps, hc.2.step hc.1 hsteps⟩

/-- A notification that is done stays as it is. -/
def Terminal (c c' : Config) : Prop :=
  ∀ n ∈ c.notifications, n.status.terminal →
    ∃ n' ∈ c'.notifications, n'.id = n.id ∧ n'.status = n.status

theorem Terminal.trans {c c' c'' : Config} (h : Terminal c c') (h' : Terminal c' c'') :
    Terminal c c'' := by
  intro n hn hs
  obtain ⟨n', hn', hid, hst⟩ := h n hn hs
  obtain ⟨n'', hn'', hid', hst'⟩ := h' n' hn' (hst ▸ hs)
  exact ⟨n'', hn'', hid'.trans hid, hst'.trans hst⟩

theorem Change.terminal {c c' : Config} (hkeys : (c.notifications.map Notification.id).Nodup)
    (h : Change c c') : Terminal c c' := by
  intro n hn hs
  cases h with
  | inserted _ _ _ hrows _ => exact ⟨n, hrows ▸ List.mem_append_left _ hn, rfl, rfl⟩
  | @claimed m hm hok hrows _ =>
      -- a row that is done is not claimable
      have hne : n.id ≠ m.id := by
        intro he
        rw [Rows.eq_of_key hkeys hn hm he] at hs
        obtain ⟨hst | hst, -⟩ := claimable_iff.mp hok
        · rw [hst] at hs
          nomatch hs
        · rw [hst] at hs
          nomatch hs
      refine ⟨n, ?_, rfl, rfl⟩
      rw [hrows]
      exact (Rows.mem_replace hm).mpr (.inr ⟨hn, hne⟩)
  | rewritten hf hrows _ =>
      exact ⟨_, hrows ▸ List.mem_map_of_mem hn, (hf n hn).id, (hf n hn).terminal hs⟩

/-- What holds of the deliveries in every state reached. -/
structure Bounded (c : Config) : Prop where
  /-- one claim for each attempt that is counted, the claims numbered 1, 2, … -/
  attempts : ∀ n ∈ c.notifications,
    Claims.attempts c.claims n.id = List.range' 1 n.attemptCount
  attemptCount : ∀ n ∈ c.notifications,
    (c.workers.filter fun w => w.notification.id = n.id).length = n.attemptCount
  limit : ∀ n ∈ c.notifications, n.attemptCount ≤ n.maxAttempts
  /-- no two workers have claimed the same attempt -/
  claims : ∀ (i j : Nat) (w w' : Worker), c.workers[i]? = some w → c.workers[j]? = some w' →
    w.claim = w'.claim → i = j
  mails : ∀ n ∈ c.notifications,
    (c.mails.filter fun m => m.claim.1 = n.id).length ≤ n.maxAttempts
  deliveredAt : ∀ n ∈ c.notifications, n.deliveredAt.isSome ↔ n.status = .delivered
  failedAt : ∀ n ∈ c.notifications, n.failedAt.isSome ↔ n.status = .failed

theorem bounded_of_counted {c : Config} (hc : Counted c) (hm : Mailed c) : Bounded c where
  attempts := fun n hn => hc.numbered.attempts _ (mem_counters hn)
  attemptCount := by
    intro n hn
    have hcount := hc.numbered.length_claims (mem_counters hn)
    rwa [Config.claims, List.filter_map, List.length_map] at hcount
  limit := fun n hn => (hc.legal n hn).ckNotificationsAttemptLimit
  claims := fun i j w w' hi hj he => Machine.index_eq hc.numbered.distinct hi hj he
  mails := by
    intro n hn
    have hle := hm.length_le hc.numbered (mem_counters hn)
    rw [List.filter_map, List.length_map] at hle
    exact hle.trans (hc.legal n hn).ckNotificationsAttemptLimit
  deliveredAt := fun n hn => legal_delivered (hc.legal n hn)
  failedAt := fun n hn => legal_failed (hc.legal n hn)

/-- Delivery is bounded in every state reached, and whatever is done stays done. -/
theorem delivery_bounded {settings : WorkerSettings} {c : Config} (h : Reachable settings c) :
    Bounded c ∧
      ∀ c', Machine.Run (Config.step settings) (fun _ _ => True) c c' → Terminal c c' := by
  obtain ⟨hc, hm⟩ := reachable_counted h
  refine ⟨bounded_of_counted hc hm, fun c' hrun => ?_⟩
  refine hrun.relates (I := Counted) (fun c n hn _ => ⟨n, hn, rfl, rfl⟩) Terminal.trans
    (fun c a c' hc _ hs => hc.step (Config.step_cases hs)) (fun c a c' hc _ hs => ?_) hc
  exact ((Config.step_cases hs).change hc.keys hc.legal).terminal hc.keys

/-! ## A sample -/

def Sample.settings : WorkerSettings := .default

def Sample.ada : User := ⟨1, "ada@forkroom.test", "Ada", true⟩

def Sample.reminder : ReminderCandidate :=
  ⟨1, 10, .actionDue, 60, seconds 3600, "Action due: Quarry survey",
    "Your implementation action \"Quarry survey\" is due soon."⟩

/-- The first mail times out, the second arrives. -/
def Sample.secondAttempt : List Action :=
  [.discover 0 reminder 90 true, .claim 0 false, .checkRecipient 0 (some ada),
    .sendMail 0 (some "timed out"), .readAgain 0, .record 0 "", .publishRetry 0,
    .tick (seconds 30), .claim 0 false, .checkRecipient 1 (some ada), .sendMail 1 none,
    .readAgain 1, .record 1 ""]

theorem delivery_bounded_sample : ∃ c, Reachable Sample.settings c ∧
    (c.notifications.map fun n => (n.status, n.attemptCount)) = [(.delivered, 2)] ∧ Bounded c := by
  obtain ⟨c, hplay, hrows⟩ := Option.map_eq_some_iff.mp
    (show (Machine.play (Config.step Sample.settings) (fun _ _ => True) (.empty 0)
        Sample.secondAttempt).map
          (fun c => c.notifications.map fun n => (n.status, n.attemptCount)) =
        some [(.delivered, 2)] by decide +kernel)
  have hreach : Reachable Sample.settings c := ⟨0, Machine.Run.of_play hplay⟩
  exact ⟨c, hreach, hrows, (delivery_bounded hreach).1⟩

end Delivery

end ForkRoom
