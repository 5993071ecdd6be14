/-
# `Proof.Recovery` — the recovery of the integration tasks leaves nothing behind

`recover` puts the stale claims back and then enqueues what is ready, a hundred
rows of each table at most.  The rows it has just put back count against that
limit, so the limit must hold of them as well (`retriableEvent`, `retriableDelivery`).
-/
import ForkRoom.Proof.FanOut

namespace ForkRoom

namespace Integration

open IntegrationRepository

/-- Something is still going to happen to the event, or nothing has to. -/
inductive EventCovered (dep : Deployment) (now : Datetime) (calls : List Published)
    (e : OutboxEvent) : Prop
  | processed : e.status = .processed → EventCovered dep now calls e
  | exhausted : dep.settings.integrationMaxRetries ≤ e.attemptCount → EventCovered dep now calls e
  | scheduled : e.status = .pending ∨ e.status = .failed → now < e.availableAt →
      EventCovered dep now calls e
  | held : e.status = .processing → now - minutes 5 < e.updatedAt → EventCovered dep now calls e
  | enqueued : .outbox e.id ∈ calls → EventCovered dep now calls e

inductive DeliveryCovered (dep : Deployment) (now : Datetime) (calls : List Published)
    (d : IntegrationDelivery) : Prop
  | delivered : d.status = .delivered → DeliveryCovered dep now calls d
  | exhausted : d.status = .failed → dep.settings.integrationMaxRetries ≤ d.attemptCount →
      DeliveryCovered dep now calls d
  | scheduled {nextRetryAt : Datetime} : d.status = .pending ∨ d.status = .retryScheduled →
      d.nextRetryAt = some nextRetryAt → now < nextRetryAt → DeliveryCovered dep now calls d
  | held : d.status = .delivering → now - minutes 5 < d.updatedAt → DeliveryCovered dep now calls d
  | enqueued : .delivery d.id ∈ calls → DeliveryCovered dep now calls d

/-- Between `c` and `c'` the publisher has been called for all that is left to do. -/
def Recovered (dep : Deployment) (now : Datetime) (c c' : Config) : Prop :=
  ∃ calls, c'.published = c.published ++ calls ∧
    (∀ e ∈ c'.outboxEvents, EventCovered dep now calls e) ∧
    ∀ d ∈ c'.deliveries, DeliveryCovered dep now calls d

/-! ## The hundred rows -/

/-- The event is ready, or will be once the stale claims are put back. -/
def retriableEvent (dep : Deployment) (now : Datetime) (e : OutboxEvent) : Bool :=
  readyEvent now dep.settings.integrationMaxRetries e ||
    (staleEvent (now - minutes 5) e && e.attemptCount < dep.settings.integrationMaxRetries)

def retriableDelivery (dep : Deployment) (now : Datetime) (d : IntegrationDelivery) : Bool :=
  readyDelivery now dep.settings.integrationMaxRetries d ||
    (staleDelivery (now - minutes 5) d && d.attemptCount < dep.settings.integrationMaxRetries)

/-- A list of no more than `n` rows is returned as a whole. -/
theorem mem_take_orderBy {α : Type} {le : α → α → Bool} {rows : List α} {n : Nat} {r : α}
    (hlen : rows.length ≤ n) (hr : r ∈ rows) : r ∈ (Rows.orderBy le rows).take n := by
  rw [List.take_of_length_le]
  · exact Rows.mem_orderBy.mpr hr
  · rw [Rows.length_orderBy]
    exact hlen

/-- As many rows satisfy `p` after an `UPDATE` as satisfied before what it makes of `p`. -/
theorem length_filter_map {α : Type} {f : α → α} {p q : α → Bool} (rows : List α)
    (h : ∀ r ∈ rows, p (f r) = q r) :
    ((rows.map f).filter p).length = (rows.filter q).length := by
  rw [List.filter_map, List.length_map]
  congr 1
  exact List.filter_congr h

section
variable {dep : Deployment} {c c' : Config} {now : Datetime}

theorem readyEvent_recovered (dbNow : Datetime) (e : OutboxEvent) :
    readyEvent now dep.settings.integrationMaxRetries
        (if staleEvent (now - minutes 5) e then recoveredEvent now dbNow e else e) =
      retriableEvent dep now e := by
  split
  · rename_i hstale
    have hst : e.status = .processing := of_decide_eq_true (Bool.and_eq_true_iff.mp hstale).1
    simp [retriableEvent, hstale, readyEvent, recoveredEvent, hst]
    rfl
  · rename_i hfresh
    simp [retriableEvent, hfresh]

theorem readyDelivery_recovered (dbNow : Datetime) (d : IntegrationDelivery) :
    readyDelivery now dep.settings.integrationMaxRetries
        (if staleDelivery (now - minutes 5) d then
          recoveredDelivery now dbNow dep.settings.integrationMaxRetries d else d) =
      retriableDelivery dep now d := by
  split
  · rename_i hstale
    have hst : d.status = .delivering := of_decide_eq_true (Bool.and_eq_true_iff.mp hstale).1
    rw [recoveredDelivery]
    split
    · rename_i hmax
      simp [retriableDelivery, hstale, readyDelivery, IntegrationRepository.dueDelivery, hst, hmax]
    · rename_i hmax
      simp [retriableDelivery, hstale, readyDelivery, IntegrationRepository.dueDelivery, hst]
  · rename_i hfresh
    simp [retriableDelivery, hfresh]

/-! ## After the stale claims are put back -/

/-- No claim that is left is stale. -/
theorem recovered_event_held {dbNow : Datetime} {e₀ e : OutboxEvent}
    (he : e = if staleEvent (now - minutes 5) e₀ then recoveredEvent now dbNow e₀ else e₀)
    (hs : e.status = .processing) : now - minutes 5 < e.updatedAt := by
  split at he
  · rw [he] at hs
    nomatch hs
  · rename_i hfresh
    rw [he] at hs ⊢
    simpa [staleEvent, hs] using hfresh

theorem recovered_delivery_held {dbNow : Datetime} {maxRetries : Nat} {d₀ d : IntegrationDelivery}
    (hd : d = if staleDelivery (now - minutes 5) d₀ then
      recoveredDelivery now dbNow maxRetries d₀ else d₀)
    (hs : d.status = .delivering) : now - minutes 5 < d.updatedAt := by
  split at hd
  · rw [hd, recoveredDelivery] at hs
    split at hs
    · cases hs
    · cases hs
  · rename_i hfresh
    rw [hd] at hs ⊢
    simpa [staleDelivery, hs] using hfresh

/-- An event that is not held is ready, or need not be. -/
theorem covered_event {calls : List Published} {e : OutboxEvent}
    (hheld : e.status = .processing → now - minutes 5 < e.updatedAt)
    (hready : readyEvent now dep.settings.integrationMaxRetries e → .outbox e.id ∈ calls) :
    EventCovered dep now calls e := by
  have open_event (hs : e.status = .pending ∨ e.status = .failed) :
      EventCovered dep now calls e := by
    by_cases hmax : dep.settings.integrationMaxRetries ≤ e.attemptCount
    · exact .exhausted hmax
    · by_cases hnow : e.availableAt ≤ now
      · refine .enqueued (hready ?_)
        simpa [readyEvent, hs, hnow] using Nat.not_le.mp hmax
      · exact .scheduled hs (not_le.mp hnow)
  cases hs : e.status with
  | pending => exact open_event (.inl hs)
  | processing => exact .held hs (hheld hs)
  | processed => exact .processed hs
  | failed => exact open_event (.inr hs)

theorem covered_delivery {calls : List Published} {d : IntegrationDelivery}
    (hlimit : WithinLimit dep.settings.integrationMaxRetries d)
    (hheld : d.status = .delivering → now - minutes 5 < d.updatedAt)
    (hready : readyDelivery now dep.settings.integrationMaxRetries d → .delivery d.id ∈ calls) :
    DeliveryCovered dep now calls d := by
  have open_delivery (hs : d.status = .pending ∨ d.status = .retryScheduled) :
      DeliveryCovered dep now calls d := by
    have hmax : d.attemptCount < dep.settings.integrationMaxRetries :=
      hlimit.attemptLeft (by simpa [claimable] using hs)
    by_cases hnow : d.nextRetryAt.all (· ≤ now)
    · refine .enqueued (hready ?_)
      simp [readyDelivery, IntegrationRepository.dueDelivery, hs, hnow, hmax]
    · cases hat : d.nextRetryAt with
      | none =>
          rw [hat] at hnow
          exact absurd rfl hnow
      | some nextRetryAt =>
          rw [hat] at hnow
          exact .scheduled hs hat (by simpa using hnow)
  cases hs : d.status with
  | pending => exact open_delivery (.inl hs)
  | delivering => exact .held hs (hheld hs)
  | retryScheduled => exact open_delivery (.inr hs)
  | delivered => exact .delivered hs
  | failed => exact .exhausted hs (hlimit.exhausted hs)

theorem recover_some {tie : UUID → Nat} (h : c.step dep (.recover now tie) = some c') :
    ∃ t, t = recoverStaleClaims (now - minutes 5) now c.clock dep.settings.integrationMaxRetries
        c.toIntegrationTables ∧
      c'.toIntegrationTables = t ∧ c'.published = c.published ++ ready dep now tie t := by
  obtain ⟨-, h⟩ := Machine.guard_bind h
  cases h
  exact ⟨_, rfl, rfl, rfl⟩

end

/-- Right after a recovery all that is left to do is under way. -/
theorem recovery_complete {dep : Deployment} {c c' : Config} {now : Datetime} {tie : UUID → Nat}
    (h : Reachable dep c) (hs : c.step dep (.recover now tie) = some c')
    (hevents : (c.outboxEvents.filter (retriableEvent dep now)).length ≤ 100)
    (hdeliveries : (c.deliveries.filter (retriableDelivery dep now)).length ≤ 100) :
    Recovered dep now c c' := by
  obtain ⟨hc, -⟩ := reachable_counted h
  have hc' := hc.step (Config.step_cases hs)
  obtain ⟨t, ht, hrows, hpublished⟩ := recover_some hs
  have ho : c'.outboxEvents = t.outboxEvents := congrArg IntegrationTables.outboxEvents hrows
  have hd : c'.deliveries = t.deliveries := congrArg IntegrationTables.deliveries hrows
  refine ⟨_, hpublished, fun e he => covered_event ?_ fun hready => ?_,
    fun d hmem => covered_delivery (hc'.withinLimit d hmem) ?_ fun hready => ?_⟩
  · rw [ho, ht] at he
    obtain ⟨e₀, -, rfl⟩ := List.mem_map.mp he
    exact recovered_event_held rfl
  · refine List.mem_append_left _ (List.mem_map.mpr ⟨e, ?_, rfl⟩)
    refine mem_take_orderBy ?_ (List.mem_filter.mpr ⟨ho ▸ he, hready⟩)
    rw [ht]
    exact (length_filter_map _ fun e _ => readyEvent_recovered c.clock e).trans_le hevents
  · rw [hd, ht] at hmem
    obtain ⟨d₀, -, rfl⟩ := List.mem_map.mp hmem
    exact recovered_delivery_held rfl
  · refine List.mem_append_right _ (List.mem_map.mpr ⟨d, ?_, rfl⟩)
    refine mem_take_orderBy ?_ (List.mem_filter.mpr ⟨hd ▸ hmem, hready⟩)
    rw [ht]
    exact (length_filter_map _ fun d _ => readyDelivery_recovered c.clock d).trans_le hdeliveries

/-! ## More than a hundred stale claims -/

/-- A hundred and one events, each claimed by a dispatcher that dies. -/
def Sample.manyStale : List Action :=
  ((List.range 101).flatMap fun i =>
    [.stage { votingOpened with id := .ofNat 128 i, eventId := .ofNat 128 i },
      .dispatchOutbox (.ofNat 128 i)]) ++ [.tick (minutes 5)]

theorem many_stale : ∃ c, Reachable Sample.deployment c ∧ c.clock = minutes 5 ∧
    c.deliveries = [] ∧ c.outboxEvents.length = 101 ∧
    ∀ e ∈ c.outboxEvents, e.status = .processing ∧ e.attemptCount = 1 ∧ e.updatedAt = 0 := by
  obtain ⟨c, hplay, hrows⟩ := Option.map_eq_some_iff.mp
    (show (Machine.play (Config.step Sample.deployment) (fun _ _ => True) (.empty 0)
        Sample.manyStale).map (fun c => (c.clock, c.deliveries.isEmpty, c.outboxEvents.length,
          c.outboxEvents.all fun e => e.status = .processing && e.attemptCount = 1 &&
            e.updatedAt = 0)) =
        some (minutes 5, true, 101, true) by decide +kernel)
  simp only [Prod.mk.injEq, List.isEmpty_iff, List.all_eq_true, Bool.and_eq_true,
    decide_eq_true_eq] at hrows
  obtain ⟨hclock, hnone, hlen, hall⟩ := hrows
  exact ⟨c, ⟨0, Machine.Run.of_play hplay⟩, hclock, hnone, hlen,
    fun e he => ⟨(hall e he).1.1, (hall e he).1.2, (hall e he).2⟩⟩

/-- No more than a hundred events are enqueued. -/
theorem length_enqueued {dep : Deployment} {now : Datetime} {tie : UUID → Nat}
    {t : IntegrationTables} {ids : List UUID} (hn : ids.Nodup)
    (h : ∀ id ∈ ids, .outbox id ∈ ready dep now tie t) : ids.length ≤ 100 := by
  have hle : ids.length ≤ ((listReadyOutboxEvents now dep.settings.integrationMaxRetries 100 tie
      t).map fun e => e.id).length := by
    refine Machine.length_le_of_nodup hn fun id hid => ?_
    rcases List.mem_append.mp (h id hid) with hmem | hmem
    · obtain ⟨e, he, heq⟩ := List.mem_map.mp hmem
      cases heq
      exact List.mem_map.mpr ⟨e, he, rfl⟩
    · obtain ⟨d, -, heq⟩ := List.mem_map.mp hmem
      nomatch heq
  rw [List.length_map] at hle
  exact hle.trans (List.length_take_le _ _)

theorem recovery_incomplete : ¬ ∀ (dep : Deployment) (c c' : Config) (now : Datetime)
    (tie : UUID → Nat), Reachable dep c → c.step dep (.recover now tie) = some c' →
    (c.outboxEvents.filter (readyEvent now dep.settings.integrationMaxRetries)).length ≤ 100 →
    (c.deliveries.filter (readyDelivery now dep.settings.integrationMaxRetries)).length ≤ 100 →
    Recovered dep now c c' := by
  intro hclaim
  obtain ⟨c, hreach, hclock, hnone, hlen, hall⟩ := many_stale
  obtain ⟨c', hs⟩ : ∃ c', c.step Sample.deployment (.recover c.clock fun _ => 0) = some c' :=
    ⟨_, by simp [Config.step, recover, guard]; rfl⟩
  have hready : c.outboxEvents.filter
      (readyEvent c.clock Sample.deployment.settings.integrationMaxRetries) = [] := by
    refine List.filter_eq_nil_iff.mpr fun e he => ?_
    rw [readyEvent, (hall e he).1]
    intro h
    cases h
  obtain ⟨calls, hpublished, hcovered, -⟩ := hclaim _ _ _ _ _ hreach hs
    (hready ▸ Nat.zero_le _) (hnone ▸ Nat.zero_le _)
  obtain ⟨t, ht, hrows, hcalls⟩ := recover_some hs
  have hcalls : calls = ready Sample.deployment c.clock (fun _ => 0) t :=
    List.append_cancel_left (hpublished.symm.trans hcalls)
  have ho : c'.outboxEvents = t.outboxEvents := congrArg IntegrationTables.outboxEvents hrows
  have hids : (c'.outboxEvents.map (Rows.Keyed.key (α := OutboxEvent))).Nodup := by
    obtain ⟨hc, hm⟩ := reachable_matched hreach
    exact (hm.step hc (Config.step_cases hs)).eventKeys
  -- every event is put back with one attempt, at the time of the recovery
  have hput : ∀ e ∈ c'.outboxEvents, e.status = .failed ∧ e.attemptCount = 1 ∧
      e.availableAt = c.clock := by
    intro e he
    rw [ho, ht] at he
    obtain ⟨e₀, he₀, rfl⟩ := List.mem_map.mp he
    obtain ⟨hst, hcount, hupdated⟩ := hall e₀ he₀
    rw [if_pos (by simp [staleEvent, hst, hupdated, hclock])]
    exact ⟨rfl, hcount, rfl⟩
  have henqueued : ∀ id ∈ c'.outboxEvents.map (Rows.Keyed.key (α := OutboxEvent)),
      .outbox id ∈ ready Sample.deployment c.clock (fun _ => 0) t := by
    intro id hid
    obtain ⟨e, he, rfl⟩ := List.mem_map.mp hid
    obtain ⟨hst, hcount, hat⟩ := hput e he
    rw [← hcalls]
    cases hcovered e he with
    | processed h => cases hst.symm.trans h
    | exhausted h =>
        rw [hcount] at h
        exact absurd h (by decide)
    | scheduled _ h => exact absurd h (by rw [hat]; exact lt_irrefl _)
    | held h _ => cases hst.symm.trans h
    | enqueued h => exact h
  have hle := length_enqueued hids henqueued
  rw [List.length_map, ho, ht, recoverStaleClaims, List.length_map, hlen] at hle
  exact absurd hle (by decide)

/-! ## A sample -/

/-- The dispatcher and the courier die; the event is due again at the recovery. -/
def Sample.interrupted : List Action :=
  [.saveConnection connection, .saveSubscription subscription, .stage votingOpened,
    .dispatchOutbox 30, .createDeliveries 0 fun _ => 70, .deliver 70,
    .stage { votingOpened with id := 31, eventId := 41 }, .dispatchOutbox 31, .tick (minutes 5)]

theorem recovery_complete_sample : ∃ c c', Reachable Sample.deployment c ∧
    c.step Sample.deployment (.recover (minutes 5) fun _ => 0) = some c' ∧
    c'.published = c.published ++ [.outbox 31, .delivery 70] ∧
    Recovered Sample.deployment (minutes 5) c c' := by
  obtain ⟨c, hplay, hrows⟩ := Option.bind_eq_some_iff.mp
    (show ((Machine.play (Config.step Sample.deployment) (fun _ _ => True) (.empty 0)
        Sample.interrupted).bind fun c =>
          (c.step Sample.deployment (.recover (minutes 5) fun _ => 0)).map fun c' =>
            ((c.outboxEvents.filter (retriableEvent Sample.deployment (minutes 5))).length,
              (c.deliveries.filter (retriableDelivery Sample.deployment (minutes 5))).length,
              decide (c'.published = c.published ++ [.outbox 31, .delivery 70]))) =
        some (1, 1, true) by decide +kernel)
  obtain ⟨c', hs, hcounts⟩ := Option.map_eq_some_iff.mp hrows
  obtain ⟨hevents, hrest⟩ := Prod.mk.inj hcounts
  obtain ⟨hdeliveries, hpublished⟩ := Prod.mk.inj hrest
  have hreach : Reachable Sample.deployment c := ⟨0, Machine.Run.of_play hplay⟩
  exact ⟨c, c', hreach, hs, of_decide_eq_true hpublished,
    recovery_complete hreach hs (hevents.trans_le (by decide)) (hdeliveries.trans_le (by decide))⟩

end Integration

end ForkRoom
