/-
# `Proof.Leases` — what a recovered lease still allows

A claim carries no token, so a worker that comes back late records its outcome
over whatever the row has become.  Recovery gives the lease of a slow worker to
another one; from then on two workers are at work on one notification, and the
outcome of the first counts.

The leases are fenced along every run in which a notification is claimed only
when nobody is at work on it (`ClaimsInTurn`): then whoever is at work holds the
latest claim, and that is an invariant.
-/
import ForkRoom.Proof.Delivery

namespace ForkRoom

namespace Delivery

/-- The workers are in the order of their claims: nobody after `i` has claimed
the notification of `w`. -/
def Config.Latest (c : Config) (i : Nat) (w : Worker) : Prop :=
  ∀ (j : Nat) (w' : Worker), i < j → c.workers[j]? = some w' →
    w'.notification.id ≠ w.notification.id

/-- The worker is sending the mail. -/
def Worker.sending (w : Worker) : Bool :=
  match w.phase with
  | .sending .. => true
  | _ => false

/-- The lease of the worker has not expired. -/
def Config.leased (c : Config) (w : Worker) : Bool :=
  w.notification.deliveryStartedAt.any fun t => c.clock < t + minutes 10

structure Fenced (settings : WorkerSettings) (c : Config) : Prop where
  /-- only the latest claimant changes the row -/
  outcome : ∀ (i : Nat) (w : Worker) (error : String) (c' : Config), c.workers[i]? = some w →
    c.step settings (.record i error) = some c' → c'.notifications ≠ c.notifications →
    c.Latest i w
  /-- at most one worker is sending under a lease -/
  exclusive : ∀ (i j : Nat) (w w' : Worker), c.workers[i]? = some w → c.workers[j]? = some w' →
    w.notification.id = w'.notification.id → w.sending → w'.sending → c.leased w →
    c.leased w' → i = j
  /-- no outcome while a newer claimant is at work -/
  overtaken : ∀ (i j : Nat) (w w' : Worker) (error : String) (c' : Config),
    c.workers[i]? = some w → c.workers[j]? = some w' → i < j →
    w'.notification.id = w.notification.id → w'.atWork →
    c.step settings (.record i error) = some c' → c'.notifications = c.notifications

/-- A notification is claimed only when no earlier claimant is still at work on it. -/
def ClaimsInTurn (c : Config) : Action → Prop
  | .claim k _ => ∀ m ∈ c.broker[k]?, ∀ n ∈ c.notifications, n.id = m.notificationId →
      NotificationRepository.claimable c.clock n →
      ∀ w ∈ c.workers, w.atWork → w.notification.id ≠ n.id
  | _ => True

instance (c : Config) (a : Action) : Decidable (ClaimsInTurn c a) := by
  unfold ClaimsInTurn
  split <;> infer_instance

/-! ## Whoever is at work holds the latest claim -/

def Abreast (c : Config) : Prop :=
  ∀ (i : Nat) (w : Worker), c.workers[i]? = some w → w.atWork → c.Latest i w

/-- No turn puts a worker back to work. -/
theorem Turn.atWork {settings : WorkerSettings} {c : Config} {i : Nat} {w : Worker} {a : Action}
    {phase : Phase} (h : Turn settings c i w a phase) :
    ({ w with phase := phase } : Worker).atWork → w.atWork := by
  intro hwork
  unfold Worker.atWork
  cases h with
  | recipientGone hp | recipientFound hp | delivered hp | exhausted hp | retry hp =>
      rw [hp]
  | rejectedDelivery hp =>
      rw [hp]
  | missing | rejected | gaveUp | uncaught => nomatch hwork
  | caught htried =>
      unfold Phase.tried at htried
      split at htried
      · rename_i hp
        rw [hp]
      · rename_i hp
        rw [hp]
      · rename_i hp
        rw [hp]
      · nomatch htried

theorem moved_ids {c : Config} {i j : Nat} {w w' : Worker} {phase : Phase}
    (hw : c.workers[i]? = some w) (hj : (c.moved i w phase).workers[j]? = some w') :
    ∃ x, c.workers[j]? = some x ∧ x.notification = w'.notification ∧
      (i ≠ j → x = w') ∧ (i = j → w'.phase = phase) := by
  simp only [Config.moved, List.getElem?_set] at hj
  split at hj
  · rename_i hij
    split at hj
    · cases hj
      exact ⟨w, hij ▸ hw, rfl, fun hne => absurd hij hne, fun _ => rfl⟩
    · nomatch hj
  · rename_i hij
    exact ⟨w', hj, rfl, fun _ => rfl, fun he => absurd he hij⟩

theorem Abreast.moved {c c' : Config} {i : Nat} {w : Worker} {phase : Phase} (h : Abreast c)
    (hw : c.workers[i]? = some w) (hc : c'.workers = (c.moved i w phase).workers)
    (hphase : ({ w with phase := phase } : Worker).atWork → w.atWork) : Abreast c' := by
  intro j w' hj hwork k w'' hjk hk
  rw [hc] at hj hk
  obtain ⟨x, hx, hnx, hne, heq⟩ := moved_ids hw hj
  obtain ⟨y, hy, hny, -⟩ := moved_ids hw hk
  rw [← hnx, ← hny]
  refine h j x hx ?_ k y hjk hy
  by_cases hij : i = j
  · have hxw : x = w := Option.some.inj (hx.symm.trans (hij ▸ hw))
    have hphase' := heq hij
    rw [hxw]
    refine hphase ?_
    unfold Worker.atWork at hwork ⊢
    rw [← hphase']
    exact hwork
  · rw [hne hij]
    exact hwork

theorem Abreast.step {settings : WorkerSettings} {c c' : Config} {a : Action} (h : Abreast c)
    (hok : ClaimsInTurn c a) (hs : Steps settings c a c') : Abreast c' := by
  cases hs with
  | tick | known | discovered | recovered | redelivered | ignored => exact h
  | @claimed k _ m n hm _ hn hid hclaim =>
      intro i w hi hwork j w' hij hj
      simp only [List.getElem?_append] at hi hj
      split at hj
      · rename_i hlt
        rw [if_pos (hij.trans hlt)] at hi
        exact h i w hi hwork j w' hij hj
      · obtain ⟨hlt, hw'⟩ := List.getElem?_eq_some_iff.mp hj
        have hj0 : j = c.workers.length := by
          rw [List.length_singleton] at hlt
          omega
        have hnew : w'.notification.id = n.id := by
          subst hj0
          simp only [Nat.sub_self, List.getElem_cons_zero] at hw'
          rw [← hw']
          rfl
        -- nobody who was at work is on the notification of the newcomer
        rw [if_pos (hj0 ▸ hij)] at hi
        rw [hnew]
        exact (hok m hm n hn hid hclaim w (List.mem_of_getElem? hi) hwork).symm
  | turned hw hturn => exact h.moved hw rfl hturn.atWork
  | mailed hw hphase =>
      refine h.moved hw rfl fun _ => ?_
      rw [Worker.atWork, hphase]
  | recorded hw hphase =>
      refine h.moved hw rfl fun _ => ?_
      rw [Worker.atWork, hphase]
  | published hw => exact h.moved hw rfl fun hwork => nomatch hwork
  | crashed hw => exact h.moved hw rfl fun hwork => nomatch hwork

/-- A worker whose outcome changes the rows is about to record it. -/
theorem record_atWork {settings : WorkerSettings} {c c' : Config} {i : Nat} {w : Worker}
    {error : String} (hw : c.workers[i]? = some w)
    (h : c.step settings (.record i error) = some c') : w.atWork := by
  have hcases : ∀ {a : Action}, Steps settings c a c' → a = .record i error → w.atWork := by
    intro a hs ha
    cases hs with
    | turned hi hturn =>
        cases hturn with
        | rejectedDelivery hphase | rejected hphase =>
            cases ha
            cases hw.symm.trans hi
            rw [Worker.atWork, hphase]
        | _ => nomatch ha
    | recorded hi hphase =>
        cases ha
        cases hw.symm.trans hi
        rw [Worker.atWork, hphase]
    | _ => nomatch ha
  exact hcases (Config.step_cases h) rfl

theorem Abreast.fenced {settings : WorkerSettings} {c : Config} (h : Abreast c) :
    Fenced settings c where
  outcome := fun i w error c' hw hstep _ => h i w hw (record_atWork hw hstep)
  exclusive := by
    intro i j w w' hi hj hid hs hs' _ _
    have hwork : ∀ {x : Worker}, x.sending → x.atWork := by
      intro x hx
      unfold Worker.sending at hx
      split at hx
      · rename_i hphase
        rw [Worker.atWork, hphase]
      · nomatch hx
    rcases Nat.lt_trichotomy i j with hlt | heq | hlt
    · exact absurd hid.symm (h i w hi (hwork hs) j w' hlt hj)
    · exact heq
    · exact absurd hid (h j w' hj (hwork hs') i w hlt hi)
  overtaken := fun i j w w' error c' hi hj hlt hid _ hstep =>
    absurd hid (h i w hi (record_atWork hi hstep) j w' hlt hj)

/-- Leases are fenced in every state of a run whose claims come in turn. -/
theorem leases_fenced {settings : WorkerSettings} {clock : Datetime} {c : Config}
    (h : Machine.Run (Config.step settings) ClaimsInTurn (Config.empty clock) c) :
    Fenced settings c := by
  refine Abreast.fenced (h.invariant (fun c a c' hc hok hs => ?_) fun i w hi => nomatch hi)
  exact hc.step hok (Config.step_cases hs)

theorem leases_fenced_sample : ∃ c, Fenced Sample.settings c ∧
    (c.notifications.map fun n => (n.status, n.attemptCount)) = [(.delivered, 2)] := by
  obtain ⟨c, hplay, hrows⟩ := Option.map_eq_some_iff.mp
    (show (Machine.play (Config.step Sample.settings) ClaimsInTurn (.empty 0)
        Sample.secondAttempt).map
          (fun c => c.notifications.map fun n => (n.status, n.attemptCount)) =
        some [(.delivered, 2)] by decide +kernel)
  exact ⟨c, leases_fenced (Machine.Run.of_play hplay), hrows⟩

/-! ## A lease given away -/

/-- The first worker is slow: its lease is recovered, a second one claims the
notification and is sending when the mail of the first fails at last. -/
def Sample.overtaken : List Action :=
  [.discover 0 reminder 90 true, .claim 0 false, .checkRecipient 0 (some ada),
    .tick (minutes 11), .recoverStale (minutes 11) 1, .claim 0 false,
    .checkRecipient 1 (some ada), .sendMail 0 (some "timed out"), .readAgain 0]

/-- The first worker puts the notification of the second back to RETRY_SCHEDULED. -/
theorem lease_not_fenced : ¬ ∀ (settings : WorkerSettings) (c : Config),
    Reachable settings c → Fenced settings c := by
  intro h
  obtain ⟨c, hplay, hrows⟩ := Option.map_eq_some_iff.mp
    (show (Machine.play (Config.step Sample.settings) (fun _ _ => True) (.empty 0)
        Sample.overtaken).map (fun c => (c.workers.map Worker.claim,
          c.notifications.map Notification.status,
          (c.step Sample.settings (.record 0 "")).map fun c' =>
            c'.notifications.map Notification.status)) =
        some ([(90, 1), (90, 2)], [.delivering], some [.retryScheduled]) by decide +kernel)
  have hworkers : c.workers.map Worker.claim = [(90, 1), (90, 2)] := congrArg Prod.fst hrows
  have hbefore : c.notifications.map Notification.status = [.delivering] :=
    congrArg (fun p => p.2.1) hrows
  obtain ⟨c', hstep, hafter⟩ := Option.map_eq_some_iff.mp (congrArg (fun p => p.2.2) hrows)
  obtain ⟨w, rest, hcons, hw, hrest⟩ := List.map_eq_cons_iff.mp hworkers
  obtain ⟨w', rest', hcons', hw', -⟩ := List.map_eq_cons_iff.mp hrest
  have hfenced := (h Sample.settings c ⟨0, Machine.Run.of_play hplay⟩).outcome 0 w "" c'
    (by rw [hcons]; rfl) hstep fun he => by
      rw [he, hbefore] at hafter
      nomatch hafter
  refine hfenced 1 w' Nat.zero_lt_one (by rw [hcons, hcons']; rfl) ?_
  exact (congrArg Prod.fst hw').trans (congrArg Prod.fst hw).symm

end Delivery

end ForkRoom
