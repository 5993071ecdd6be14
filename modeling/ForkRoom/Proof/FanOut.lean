/-
# `Proof.FanOut` — every event is fanned out exactly once

Several dispatchers may hold claims on one event.  What they have in common with
the row in the outbox is its origin, which no step changes; so whoever comes
first creates the deliveries of all its connections, and the others find them.
-/
import ForkRoom.Proof.Sends

namespace ForkRoom

namespace Integration

open IntegrationRepository

/-- What no step changes of an event. -/
def origin (e : OutboxEvent) : UUID × UUID × IntegrationEventType × UUID :=
  (e.id, e.workspaceId, e.subject)

/-- What no step changes of a connection. -/
def site (x : IntegrationConnection) : UUID × UUID := (x.id, x.workspaceId)

def Config.origins (c : Config) : List (UUID × UUID × IntegrationEventType × UUID) :=
  c.outboxEvents.map origin

def Config.sites (c : Config) : List (UUID × UUID) := c.connections.map site

def Config.targets (c : Config) : List (UUID × IntegrationEventType × UUID) :=
  c.deliveries.map IntegrationDelivery.target

/-- A delivery goes to a connection of the workspace of its event. -/
def Placed (c : Config) (target : UUID × IntegrationEventType × UUID) : Prop :=
  ∃ workspaceId id, (target.1, workspaceId) ∈ c.sites ∧ (id, workspaceId, target.2) ∈ c.origins

structure Matched (c : Config) : Prop where
  eventIds : (c.origins.map Prod.fst).Nodup
  subjects : (c.origins.map fun o => o.2.2).Nodup
  connectionIds : (c.sites.map Prod.fst).Nodup
  targets : c.targets.Nodup
  dispatchers : ∀ w ∈ c.dispatchers, origin w.event ∈ c.origins
  deliveries : ∀ target ∈ c.targets, Placed c target

section
variable {dep : Deployment} {c c' : Config} {a : Action}

theorem eventIds_eq (c : Config) : c.origins.map Prod.fst = c.outboxEvents.map Rows.Keyed.key := by
  rw [Config.origins, List.map_map]
  rfl

theorem connectionIds_eq (c : Config) :
    c.sites.map Prod.fst = c.connections.map Rows.Keyed.key := by
  rw [Config.sites, List.map_map]
  rfl

theorem Matched.eventKeys (h : Matched c) :
    (c.outboxEvents.map (Rows.Keyed.key (α := OutboxEvent))).Nodup :=
  eventIds_eq c ▸ h.eventIds

theorem Matched.connectionKeys (h : Matched c) :
    (c.connections.map (Rows.Keyed.key (α := IntegrationConnection))).Nodup :=
  connectionIds_eq c ▸ h.connectionIds

/-! ## Origins and sites -/

/-- A column that gets no more than one new entry, with a new value of `g`. -/
def Grows {α β : Type} (g : α → β) (l l' : List α) : Prop :=
  l' = l ∨ ∃ a, l' = l ++ [a] ∧ g a ∉ l.map g

theorem Grows.nodup {α β : Type} {g : α → β} {l l' : List α} (h : Grows g l l')
    (hn : (l.map g).Nodup) : (l'.map g).Nodup := by
  rcases h with rfl | ⟨a, rfl, ha⟩
  · exact hn
  · rw [List.map_append, List.map_singleton]
    refine List.nodup_append.mpr ⟨hn, List.nodup_singleton _, fun x hx y hy hxy => ?_⟩
    rw [List.mem_singleton.mp hy] at hxy
    exact ha (hxy ▸ hx)

theorem Grows.mem {α β : Type} {g : α → β} {l l' : List α} (h : Grows g l l') {a : α} (ha : a ∈ l) :
    a ∈ l' := by
  rcases h with rfl | ⟨b, rfl, -⟩
  · exact ha
  · exact List.mem_append_left _ ha

/-- No step changes an origin, and a new event has an identifier and a subject of its own. -/
theorem Steps.origins (h : Steps dep c a c') (hm : Matched c) :
    Grows Prod.fst c.origins c'.origins ∧ Grows (fun o => o.2.2) c.origins c'.origins := by
  have same (he : c'.origins = c.origins) :
      Grows Prod.fst c.origins c'.origins ∧ Grows (fun o => o.2.2) c.origins c'.origins :=
    ⟨.inl he, .inl he⟩
  cases h with
  | tick | connected | reconnected | configured | rolledBack | claimed | unprepared | sent
  | marked | deliveryFailed | retried => exact same rfl
  | @staged event row hevent _ _ hfresh =>
      have hrows : ∀ o ∈ c.origins, o.1 ≠ row.id ∧ o.2.2 ≠ row.subject := by
        intro o ho
        obtain ⟨e, he, rfl⟩ := List.mem_map.mp ho
        exact hfresh e he
      refine ⟨.inr ⟨origin row, List.map_append, fun hmem => ?_⟩,
        .inr ⟨origin row, List.map_append, fun hmem => ?_⟩⟩
      · obtain ⟨o, ho, he⟩ := List.mem_map.mp hmem
        exact (hrows o ho).1 he
      · obtain ⟨o, ho, he⟩ := List.mem_map.mp hmem
        exact (hrows o ho).2 he
  | @dispatched e he _ => exact same (Rows.map_replace hm.eventKeys he origin rfl)
  | @fannedOut i fresh w new =>
      exact same (Rows.map_modify (f := processedEvent w.event w.now c.clock) origin
        (fun _ => rfl) c.outboxEvents)
  | outboxFailed =>
      refine same (Rows.map_modify origin (fun e => ?_) _)
      split
      · rfl
      · rfl
  | recovered =>
      refine same ?_
      simp only [Config.origins, recoverStaleClaims, List.map_map]
      refine List.map_congr_left fun e _ => ?_
      rw [Function.comp_apply]
      split
      · rfl
      · rfl

theorem Steps.sites (h : Steps dep c a c') (hm : Matched c) :
    Grows Prod.fst c.sites c'.sites := by
  cases h with
  | tick | staged | configured | dispatched | fannedOut | rolledBack | outboxFailed | claimed
  | unprepared | sent | marked | deliveryFailed | retried | recovered => exact .inl rfl
  | @connected connection hfresh =>
      refine .inr ⟨site connection, List.map_append, ?_⟩
      rw [connectionIds_eq]
      exact hfresh
  | @reconnected connection stored hstored hid hworkspace =>
      refine .inl ?_
      simp only [Config.sites]
      rw [← hid]
      exact Rows.map_replace hm.connectionKeys hstored site (Prod.ext hid.symm hworkspace)

theorem Placed.mono {target : UUID × IntegrationEventType × UUID}
    (ho : Grows Prod.fst c.origins c'.origins) (hs : Grows Prod.fst c.sites c'.sites)
    (h : Placed c target) : Placed c' target := by
  obtain ⟨workspaceId, id, hsite, horigin⟩ := h
  exact ⟨workspaceId, id, hs.mem hsite, ho.mem horigin⟩

/-- A dispatcher holds an event of the outbox. -/
theorem Steps.dispatchers (h : Steps dep c a c') (hm : Matched c) :
    ∀ w ∈ c'.dispatchers, origin w.event ∈ c.origins := by
  cases h with
  | tick | staged | connected | reconnected | configured | outboxFailed | claimed | unprepared
  | sent | marked | deliveryFailed | retried | recovered => exact hm.dispatchers
  | @dispatched e he _ =>
      have horigin : origin (claimedEvent c.clock e) ∈ c.origins :=
        List.mem_map.mpr ⟨e, he, rfl⟩
      exact Machine.forall_snoc hm.dispatchers horigin
  | @fannedOut i fresh w new hw =>
      exact Machine.forall_set hm.dispatchers (hm.dispatchers w (List.mem_of_getElem? hw))
  | @rolledBack i fresh w hw =>
      exact Machine.forall_set hm.dispatchers (hm.dispatchers w (List.mem_of_getElem? hw))

/-! ## Deliveries -/

theorem mem_subscribers {event : OutboxEvent} {t : IntegrationTables}
    {r : IntegrationConnection × IntegrationSubscription} : r ∈ subscribers event t ↔
      r.1 ∈ t.connections ∧ r.2 ∈ t.subscriptions ∧ subscribed event r.1 r.2 := by
  rw [subscribers, List.mem_flatMap]
  constructor
  · rintro ⟨x, hx, hr⟩
    obtain ⟨s, hs, rfl⟩ := List.mem_map.mp hr
    obtain ⟨hs, hsub⟩ := List.mem_filter.mp hs
    exact ⟨hx, hs, hsub⟩
  · rintro ⟨hx, hs, hsub⟩
    exact ⟨r.1, hx, List.mem_map.mpr ⟨r.2, List.mem_filter.mpr ⟨hs, hsub⟩, rfl⟩⟩

theorem subscribed_workspace {event : OutboxEvent} {x : IntegrationConnection}
    {s : IntegrationSubscription} (h : subscribed event x s) :
    x.workspaceId = event.workspaceId := by
  simp only [subscribed, Bool.and_eq_true, decide_eq_true_eq] at h
  exact h.1.1.1.1.2

/-- Whoever is to get the event has its delivery, from this dispatcher or an earlier one. -/
theorem newDeliveries_complete {event : OutboxEvent} {t : IntegrationTables}
    {x : IntegrationConnection} {s : IntegrationSubscription} (now dbNow : Datetime)
    (fresh : Nat → UUID) (hx : x ∈ t.connections) (hs : s ∈ t.subscriptions)
    (hsub : subscribed event x s) : (x.id, event.subject) ∈
      (t.deliveries ++ newDeliveries event now dbNow fresh t).map IntegrationDelivery.target := by
  rw [List.map_append]
  by_cases hexisting : x.id ∈ (t.deliveries.filter fun d =>
      d.eventType = event.eventType && d.eventId = event.eventId).map fun d => d.connectionId
  · refine List.mem_append_left _ ?_
    obtain ⟨d, hd, hid⟩ := List.mem_map.mp hexisting
    obtain ⟨hd, hsubject⟩ := List.mem_filter.mp hd
    simp only [Bool.and_eq_true, decide_eq_true_eq] at hsubject
    refine List.mem_map.mpr ⟨d, hd, ?_⟩
    exact Prod.ext hid (Prod.ext hsubject.1 hsubject.2)
  · refine List.mem_append_right _ ?_
    have hrow : (x, s) ∈ (subscribers event t).filter fun r => r.1.id ∉
        (t.deliveries.filter fun d =>
          d.eventType = event.eventType && d.eventId = event.eventId).map fun d =>
            d.connectionId :=
      List.mem_filter.mpr ⟨mem_subscribers.mpr ⟨hx, hs, hsub⟩, decide_eq_true hexisting⟩
    obtain ⟨i, hi, he⟩ := List.mem_iff_getElem.mp hrow
    refine List.mem_map.mpr ⟨_, List.mem_mapIdx.mpr ⟨i, hi, rfl⟩, ?_⟩
    rw [he]
    rfl

/-- The deliveries of a dispatcher are for connections of the workspace of its event. -/
theorem newDeliveries_placed {w : Dispatcher} {fresh : Nat → UUID} (hm : Matched c)
    (hw : w ∈ c.dispatchers) :
    ∀ d ∈ newDeliveries w.event w.now c.clock fresh c.toIntegrationTables, Placed c d.target := by
  intro d hd
  obtain ⟨i, r, hr, rfl⟩ := mem_newDeliveries hd
  obtain ⟨hx, -, hsub⟩ := mem_subscribers.mp hr
  refine ⟨w.event.workspaceId, w.event.id, ?_, hm.dispatchers w hw⟩
  exact subscribed_workspace hsub ▸ List.mem_map_of_mem hx

theorem Change.targets {maxRetries : Nat} (h : Change maxRetries c c')
    (hkeys : (c.deliveries.map IntegrationDelivery.id).Nodup) (hm : Matched c) :
    c'.targets.Nodup ∧ ∀ target ∈ c'.targets, Placed c target := by
  have same (he : c'.targets = c.targets) :
      c'.targets.Nodup ∧ ∀ target ∈ c'.targets, Placed c target :=
    he ▸ ⟨hm.targets, hm.deliveries⟩
  cases h with
  | inserted hw hnew _ htargets hrows _ =>
      rw [Config.targets, hrows]
      refine ⟨htargets, fun target ht => ?_⟩
      rw [List.map_append] at ht
      rcases List.mem_append.mp ht with ht | ht
      · exact hm.deliveries target ht
      · obtain ⟨d, hd, rfl⟩ := List.mem_map.mp ht
        exact newDeliveries_placed hm hw d (hnew ▸ hd)
  | claimed hd _ hrows _ =>
      refine same ?_
      rw [Config.targets, hrows]
      exact Rows.map_replace hkeys hd IntegrationDelivery.target rfl
  | rewritten hf hrows _ =>
      refine same ?_
      rw [Config.targets, hrows, List.map_map]
      exact List.map_congr_left fun d hd => (hf d hd).target

theorem Matched.step (hc : Counted dep.settings.integrationMaxRetries c) (hm : Matched c)
    (h : Steps dep c a c') : Matched c' := by
  obtain ⟨hids, hsubjects⟩ := h.origins hm
  have hsites := h.sites hm
  obtain ⟨htargets, hplaced⟩ := (h.change hc.keys).targets hc.keys hm
  exact {
    eventIds := hids.nodup hm.eventIds
    subjects := hsubjects.nodup hm.subjects
    connectionIds := hsites.nodup hm.connectionIds
    targets := htargets
    dispatchers := fun w hw => hids.mem (h.dispatchers hm w hw)
    deliveries := fun target ht => (hplaced target ht).mono hids hsites }

theorem reachable_matched (h : Reachable dep c) :
    Counted dep.settings.integrationMaxRetries c ∧ Matched c := by
  obtain ⟨clock, hrun⟩ := h
  refine hrun.invariant
    (I := fun c => Counted dep.settings.integrationMaxRetries c ∧ Matched c)
    (fun c a c' hc _ hs => ?_) ⟨⟨fun _ hd => (nomatch hd), .empty⟩, ?_⟩
  · have hsteps := Config.step_cases hs
    exact ⟨hc.1.step hsteps, hc.2.step hc.1 hsteps⟩
  · exact ⟨List.nodup_nil, List.nodup_nil, List.nodup_nil, List.nodup_nil,
      fun _ hw => (nomatch hw), fun _ ht => (nomatch ht)⟩

/-! ## PROCESSED -/

/-- An event that is PROCESSED stays so. -/
def StaysProcessed (c c' : Config) : Prop :=
  ∀ e ∈ c.outboxEvents, e.status = .processed →
    ∃ e' ∈ c'.outboxEvents, e'.id = e.id ∧ e'.status = .processed

theorem StaysProcessed.trans {c'' : Config} (h : StaysProcessed c c')
    (h' : StaysProcessed c' c'') : StaysProcessed c c'' := by
  intro e he hs
  obtain ⟨e', he', hid, hs'⟩ := h e he hs
  obtain ⟨e'', he'', hid', hs''⟩ := h' e' he' hs'
  exact ⟨e'', he'', hid'.trans hid, hs''⟩

/-- An `UPDATE` that leaves the PROCESSED events alone. -/
theorem staysProcessed_map {f : OutboxEvent → OutboxEvent}
    (hrows : c'.outboxEvents = c.outboxEvents.map f)
    (hf : ∀ e, e.status = .processed → (f e).id = e.id ∧ (f e).status = .processed) :
    StaysProcessed c c' := by
  intro e he hs
  exact ⟨f e, hrows ▸ List.mem_map_of_mem he, hf e hs⟩

theorem Steps.staysProcessed (h : Steps dep c a c') (hm : Matched c) : StaysProcessed c c' := by
  intro e he hs
  cases h with
  | tick | connected | reconnected | configured | rolledBack | claimed | unprepared | sent
  | marked | deliveryFailed | retried => exact ⟨e, he, rfl, hs⟩
  | staged => exact ⟨e, List.mem_append_left _ he, rfl, hs⟩
  | @dispatched e₀ he₀ hready =>
      have hne : e.id ≠ e₀.id := by
        intro hid
        rw [← Rows.eq_of_key hm.eventKeys he he₀ hid, readyEvent, hs] at hready
        nomatch hready
      exact ⟨e, (Rows.mem_replace he₀).mpr (.inr ⟨he, hne⟩), rfl, hs⟩
  | @fannedOut i fresh w new =>
      refine staysProcessed_map rfl (fun e hs => ?_) e he hs
      split
      · refine ⟨rfl, ?_⟩
        rcases Rows.column_cases w.event.status .processed e.status with hc | hc
        · exact hc.trans hs
        · exact hc
      · exact ⟨rfl, hs⟩
  | outboxFailed =>
      refine staysProcessed_map rfl (fun e hs => ?_) e he hs
      split
      · beta_reduce
        rw [if_pos hs]
        exact ⟨rfl, hs⟩
      · exact ⟨rfl, hs⟩
  | recovered =>
      refine staysProcessed_map rfl (fun e hs => ?_) e he hs
      rw [staleEvent, hs]
      exact ⟨rfl, hs⟩

/-- The event has just become PROCESSED. -/
structure Completed (c c' : Config) (e : OutboxEvent) : Prop where
  mem : e ∈ c'.outboxEvents
  processed : e.status = .processed
  before : ∀ e₀ ∈ c.outboxEvents, e₀.id = e.id → e₀.status ≠ .processed

/-- Only a dispatcher that creates its deliveries completes an event. -/
theorem Steps.completed (h : Steps dep c a c') {e : OutboxEvent} (he : Completed c c' e) :
    ∃ i w fresh, c.dispatchers[i]? = some w ∧ w.event.id = e.id ∧
      c' = c.fannedOut i w (newDeliveries w.event w.now c.clock fresh c.toIntegrationTables) := by
  have old {P : Prop} (hmem : e ∈ c.outboxEvents) : P :=
    absurd he.processed (he.before e hmem rfl)
  have hmem := he.mem
  have hs := he.processed
  cases h with
  | tick | connected | reconnected | configured | rolledBack | claimed | unprepared | sent
  | marked | deliveryFailed | retried => exact old hmem
  | @staged event row _ hpending =>
      rcases List.mem_append.mp hmem with hmem | hmem
      · exact old hmem
      · rw [List.mem_singleton.mp hmem, hpending] at hs
        nomatch hs
  | dispatched =>
      obtain ⟨e₀, he₀, rfl⟩ := Rows.mem_modify.mp hmem
      split at hs
      · nomatch hs
      · rename_i hne
        rw [if_neg hne] at old
        exact old he₀
  | @fannedOut i fresh w new hw hnew =>
      obtain ⟨e₀, he₀, rfl⟩ := Rows.mem_modify.mp hmem
      by_cases hid : Rows.Keyed.key e₀ = w.event.id
      · refine ⟨i, w, fresh, hw, ?_, hnew ▸ rfl⟩
        rw [if_pos hid]
        exact hid.symm
      · rw [if_neg hid] at old
        exact old he₀
  | outboxFailed =>
      obtain ⟨e₀, he₀, rfl⟩ := Rows.mem_modify.mp hmem
      split at hs
      · rename_i hkey
        rw [if_pos hkey] at old
        split at hs
        · rename_i hprocessed
          rw [if_pos hprocessed] at old
          exact old he₀
        · nomatch hs
      · rename_i hne
        rw [if_neg hne] at old
        exact old he₀
  | recovered =>
      obtain ⟨e₀, he₀, rfl⟩ := List.mem_map.mp hmem
      split at hs
      · nomatch hs
      · rename_i hfresh
        rw [if_neg hfresh] at old
        exact old he₀

/-- The connection is to get the event: it is an active one of its workspace, with an enabled
subscription to its type and a destination. -/
structure Receives (c : Config) (e : OutboxEvent) (x : IntegrationConnection) : Prop where
  mem : x ∈ c.connections
  workspace : x.workspaceId = e.workspaceId
  active : x.status = .active
  subscription : ∃ s ∈ c.subscriptions, s.connectionId = x.id ∧ s.eventType = e.eventType ∧
    s.enabled ∧ s.destinationId.isSome

/-- The deliveries of an event through a connection. -/
def Config.deliveriesOf (c : Config) (e : OutboxEvent) (x : IntegrationConnection) :
    List IntegrationDelivery :=
  c.deliveries.filter fun d => d.target = (x.id, e.subject)

theorem Steps.fansOut (h : Steps dep c a c') (hm : Matched c) (hm' : Matched c') {e : OutboxEvent}
    (he : Completed c c' e) {x : IntegrationConnection} (hx : Receives c' e x) :
    (c'.deliveriesOf e x).length = 1 := by
  obtain ⟨i, w, fresh, hw, hid, hc'⟩ := h.completed he
  -- the event as the dispatcher has claimed it is about the same
  have horigin : origin w.event = origin e := by
    refine List.inj_on_of_nodup_map hm'.eventIds ?_ (List.mem_map_of_mem he.mem) hid
    exact (h.origins hm).1.mem (hm.dispatchers w (List.mem_of_getElem? hw))
  obtain ⟨-, hrest⟩ := Prod.mk.inj horigin
  obtain ⟨hworkspace, hsubject⟩ := Prod.mk.inj hrest
  obtain ⟨s, hs, hconnection, htype, henabled, hdestination⟩ := hx.subscription
  have hmem := hx.mem
  rw [hc'] at hmem hs
  have hsub : subscribed w.event x s := by
    have heventType : s.eventType = w.event.eventType :=
      htype.trans (congrArg Prod.fst hsubject).symm
    simp [subscribed, hconnection, hx.workspace.trans hworkspace.symm, hx.active, heventType,
      henabled, hdestination]
  have hdelivered : (x.id, e.subject) ∈ c'.targets := by
    rw [← hsubject, hc']
    exact newDeliveries_complete w.now c.clock fresh hmem hs hsub
  exact (Rows.length_filter_key hm'.targets _).trans (if_pos hdelivered)

/-! ## Every run -/

/-- No delivery twice, and none for a connection of another workspace. -/
structure FannedOut (c : Config) : Prop where
  once : ∀ e x, (c.deliveriesOf e x).length ≤ 1
  workspace : ∀ e ∈ c.outboxEvents, ∀ x ∈ c.connections, x.workspaceId ≠ e.workspaceId →
    c.deliveriesOf e x = []

theorem Matched.fannedOut (h : Matched c) : FannedOut c where
  once := by
    intro e x
    rw [Config.deliveriesOf, Rows.length_filter_key h.targets]
    split
    · exact le_rfl
    · exact Nat.zero_le _
  workspace := by
    intro e he x hx hne
    refine List.filter_eq_nil_iff.mpr fun d hd htarget => hne ?_
    obtain ⟨workspaceId, id, hsite, horigin⟩ := h.deliveries _ (List.mem_map_of_mem hd)
    rw [of_decide_eq_true htarget] at hsite horigin
    -- the site is that of `x`, the origin is that of `e`
    have hxsite : (x.id, workspaceId) = site x :=
      List.inj_on_of_nodup_map h.connectionIds hsite (List.mem_map_of_mem hx) rfl
    have heorigin : (id, workspaceId, e.subject) = origin e :=
      List.inj_on_of_nodup_map h.subjects horigin (List.mem_map_of_mem he) rfl
    obtain ⟨-, hxworkspace⟩ := Prod.mk.inj hxsite
    obtain ⟨-, hrest⟩ := Prod.mk.inj heorigin
    exact hxworkspace.symm.trans (Prod.mk.inj hrest).1

end

/-- Fan-out is exact in every state reached and at every step from there. -/
theorem fan_out_exactly_once {dep : Deployment} {c : Config} (h : Reachable dep c) :
    FannedOut c ∧
      (∀ c', Machine.Run (Config.step dep) (fun _ _ => True) c c' → StaysProcessed c c') ∧
      ∀ a c', c.step dep a = some c' → ∀ e, Completed c c' e → ∀ x, Receives c' e x →
        (c'.deliveriesOf e x).length = 1 := by
  obtain ⟨hc, hm⟩ := reachable_matched h
  refine ⟨hm.fannedOut, fun c' hrun => ?_, fun a c' hs e he x hx => ?_⟩
  · refine hrun.relates
      (I := fun c => Counted dep.settings.integrationMaxRetries c ∧ Matched c)
      (fun c e he hs => ⟨e, he, rfl, hs⟩) StaysProcessed.trans (fun c a c' hc _ hs => ?_)
      (fun c a c' hc _ hs => (Config.step_cases hs).staysProcessed hc.2) ⟨hc, hm⟩
    have hsteps := Config.step_cases hs
    exact ⟨hc.1.step hsteps, hc.2.step hc.1 hsteps⟩
  · have hsteps := Config.step_cases hs
    exact hsteps.fansOut hm (hm.step hc hsteps) he hx

/-! ## A sample -/

/-- A connection of another workspace, subscribed to the same type. -/
def Sample.elsewhere : IntegrationConnection := ⟨51, 11, .slack, .active, some "gAAAA"⟩

def Sample.elsewhereSubscription : IntegrationSubscription :=
  ⟨61, 51, .votingOpened, true, some "C2", none⟩

/-- Two dispatchers hold the event: an error is recorded, though the first goes on. -/
def Sample.twoDispatchers : List Action :=
  [.saveConnection connection, .saveSubscription subscription, .saveConnection elsewhere,
    .saveSubscription elsewhereSubscription, .stage votingOpened, .dispatchOutbox 30,
    .recordOutboxError 30 "timed out", .tick (seconds 60), .dispatchOutbox 30,
    .createDeliveries 0 fun _ => 70, .createDeliveries 1 fun _ => 71]

theorem fan_out_exactly_once_sample : ∃ c, Reachable Sample.deployment c ∧
    c.dispatchers.length = 2 ∧ (c.outboxEvents.map fun e => e.status) = [.processed] ∧
    c.targets = [(50, .votingOpened, 40)] ∧ FannedOut c := by
  obtain ⟨c, hplay, hrows⟩ := Option.map_eq_some_iff.mp
    (show (Machine.play (Config.step Sample.deployment) (fun _ _ => True) (.empty 0)
        Sample.twoDispatchers).map
          (fun c => (c.dispatchers.length, c.outboxEvents.map fun e => e.status, c.targets)) =
        some (2, [.processed], [(50, .votingOpened, 40)]) by decide +kernel)
  have hreach : Reachable Sample.deployment c := ⟨0, Machine.Run.of_play hplay⟩
  obtain ⟨hdispatchers, hrest⟩ := Prod.mk.inj hrows
  obtain ⟨hevents, htargets⟩ := Prod.mk.inj hrest
  exact ⟨c, hreach, hdispatchers, hevents, htargets, (fan_out_exactly_once hreach).1⟩

end Integration

end ForkRoom
