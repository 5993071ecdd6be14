/-
# `Proof.Subscriptions` — the subscriptions of a connection

A connection has one subscription for each type of event that is supported, and none for
another: both the listing and the callback read what is there, and add what is missing in
a commit of its own (`subscriptions_complete`).  What comes in between adds the same rows, so
that one of the two commits fails, or takes them away with the connection.

No request changes the columns that are the keys (`entry`).
-/
import ForkRoom.Proof.Installations

namespace ForkRoom

namespace Installations

open InstallationRepository IntegrationService

/-- What no request changes of a subscription. -/
def entry (x : IntegrationSubscription) : UUID × UUID × IntegrationEventType :=
  (x.id, x.connectionId, x.eventType)

def entries (t : InstallationTables) : List (UUID × UUID × IntegrationEventType) :=
  t.subscriptions.map entry

/-! ## What the commits do to the entries -/

section
variable {t t' : InstallationTables}

theorem entries_updateConnection {loaded c : Installation} {db : Db}
    (h : updateConnection loaded c db t = some t') : entries t' = entries t := by
  rcases updateConnection_some h with rfl | ⟨stored, -, -, rfl⟩ <;> rfl

theorem entries_updateSubscription {loaded x : IntegrationSubscription}
    (h : updateSubscription loaded x t = some t') : entries t' = entries t := by
  unfold updateSubscription at h
  split at h
  · cases h
    rfl
  · split at h <;> cases h
    simp only [entries, List.map_map]
    refine List.map_congr_left fun r _ => ?_
    simp only [Function.comp_apply]
    split <;> rfl

theorem entries_saveSubscriptions {new : List IntegrationSubscription} :
    ∀ {changed : List (IntegrationSubscription × IntegrationSubscription)}
      {t t' : InstallationTables}, saveSubscriptions changed new t = some t' →
      entries t' = entries t ++ new.map entry ∧ ((entries t').map Prod.fst).Nodup ∧
        ((entries t').map Prod.snd).Nodup
  | [], t, t', h => by
      obtain ⟨rfl, hids, hkeys, -⟩ := insertSubscriptions_some h
      refine ⟨List.map_append, ?_, ?_⟩
      · rw [entries, List.map_map]
        exact hids
      · rw [entries, List.map_map]
        exact hkeys
  | p :: changed, t, t', h => by
      obtain ⟨t₂, hfold, h⟩ := Option.bind_eq_some_iff.mp h
      obtain ⟨t₁, hp, hfold⟩ := Option.bind_eq_some_iff.mp hfold
      rw [← entries_updateSubscription hp]
      exact entries_saveSubscriptions (Option.bind_eq_some_iff.mpr ⟨t₂, hfold, h⟩)

/-- New subscriptions go in on their own as they do with changes. -/
theorem entries_insertSubscriptions {new : List IntegrationSubscription}
    (h : insertSubscriptions new t = some t') :
    entries t' = entries t ++ new.map entry ∧ ((entries t').map Prod.fst).Nodup ∧
      ((entries t').map Prod.snd).Nodup :=
  entries_saveSubscriptions (saveSubscriptions_nil.trans h)

theorem entries_within (db : Db) (t : InstallationTables) :
    entries (within db t) = (entries t).filter fun e =>
      (within db t).connections.any fun c => c.id = e.2.1 := by
  simp only [entries, within, List.filter_map]
  rfl

end

/-! ## The types -/

/-- The types that a request is about to write are supported. -/
def Task.Supported : Task → Prop
  | .ensuring _ new _ => ∀ x ∈ new, x.eventType ∈ supportedEvents
  | .configuring _ updates => ∀ u ∈ updates.items, u.eventType ∈ supportedEvents
  | .saving _ new => ∀ x ∈ new, x.eventType ∈ supportedEvents
  | _ => True

structure EntriesInv (s : State) : Prop where
  tasks : ∀ task ∈ s.tasks, task.Supported
  supported : ∀ e ∈ entries s.toInstallationTables, e.2.2 ∈ supportedEvents
  ids : ((entries s.toInstallationTables).map Prod.fst).Nodup
  keys : ((entries s.toInstallationTables).map Prod.snd).Nodup

section
variable {dep : Deployment} {s s' : State}

theorem mem_missing {connectionId : UUID} {eventTypes : List IntegrationEventType}
    {fresh : Nat → UUID} {existing : List IntegrationSubscription} {x : IntegrationSubscription}
    (h : x ∈ InstallationRepository.missing connectionId eventTypes fresh existing) :
    x.connectionId = connectionId ∧ x.eventType ∈ eventTypes := by
  obtain ⟨i, hi, rfl⟩ := List.mem_mapIdx.mp h
  exact ⟨rfl, (List.mem_filter.mp (List.getElem_mem hi)).1⟩

theorem mem_additions {connectionId : UUID} {updates : List IntegrationSubscriptionUpdate}
    {fresh : Nat → UUID} {existing : List IntegrationSubscription} {x : IntegrationSubscription}
    (h : x ∈ additions connectionId updates fresh existing) :
    ∃ u ∈ updates, x.eventType = u.eventType := by
  obtain ⟨i, hi, rfl⟩ := List.mem_mapIdx.mp h
  exact ⟨_, (List.mem_filter.mp (List.getElem_mem hi)).1, rfl⟩

theorem Task.Ended.supported {task : Task} (h : task.Ended) : task.Supported := by
  rcases h with ⟨answer, rfl⟩ | rfl <;> trivial

theorem EntriesInv.origin (h : EntriesInv s) {a : Action} {task : Task}
    (ho : TaskOrigin dep s a s' task) : task.Supported := by
  cases ho with
  | kept hmem => exact h.tasks _ hmem
  | begun hbegins =>
      cases hbegins with
      | ended hended => exact hended.supported
      | configuring _ hall => exact hall
      | _ => trivial
  | redeemed _ => trivial
  | installed _ => trivial
  | moved hmem hmoves =>
      cases hmoves with
      | ended _ hended => exact hended.supported
      | listed => exact fun x hx => (mem_missing hx).2
      | configured =>
          intro x hx
          obtain ⟨u, hu, htype⟩ := mem_additions hx
          exact htype ▸ h.tasks _ hmem u hu
      | _ => trivial

/-- What a step does to the entries. -/
inductive EntriesChange (s s' : State) : Prop
  | same : entries s'.toInstallationTables = entries s.toInstallationTables → EntriesChange s s'
  | cut {p : UUID × UUID × IntegrationEventType → Bool} :
      entries s'.toInstallationTables = (entries s.toInstallationTables).filter p →
      (∀ e, e.2.1 ∈ s'.connections.map (fun c => c.id) → p e) → EntriesChange s s'
  | added {new : List IntegrationSubscription} : (∀ x ∈ new, x.eventType ∈ supportedEvents) →
      entries s'.toInstallationTables = entries s.toInstallationTables ++ new.map entry →
      ((entries s'.toInstallationTables).map Prod.fst).Nodup →
      ((entries s'.toInstallationTables).map Prod.snd).Nodup → EntriesChange s s'

theorem EntriesInv.change (h : EntriesInv s) {a : Action} (hsteps : Steps dep s a s') :
    EntriesChange s s' := by
  cases hsteps with
  | tick _ => exact .same rfl
  | core =>
      refine .cut (entries_within _ _) fun e he => List.any_eq_true.mpr ?_
      obtain ⟨c, hc, hid⟩ := List.mem_map.mp he
      exact ⟨c, hc, decide_eq_true hid⟩
  | begun _ => exact .same rfl
  | taken _ _ => exact .same rfl
  | issued _ _ => exact .same rfl
  | moved _ _ => exact .same rfl
  | @installed _ _ _ loaded _ _ _ _ _ hupsert =>
      cases loaded with
      | none =>
          obtain ⟨-, rfl⟩ := insertConnection_some hupsert
          exact .same rfl
      | some loaded => exact .same (entries_updateConnection hupsert)
  | committed hi hcommits =>
      have hsupported := h.tasks _ (List.mem_of_getElem? hi)
      cases hcommits with
      | ensured hinsert =>
          obtain ⟨hentries, hids, hkeys⟩ := entries_insertSubscriptions hinsert
          exact .added hsupported hentries hids hkeys
      | saved hsave =>
          obtain ⟨hentries, hids, hkeys⟩ := entries_saveSubscriptions hsave
          exact .added hsupported hentries hids hkeys
      | verified hupdate => exact .same (entries_updateConnection hupdate)
      | disconnected hupdate => exact .same (entries_updateConnection hupdate)

theorem EntriesInv.step {a : Action} (h : EntriesInv s) (hsteps : Steps dep s a s') :
    EntriesInv s' := by
  have htasks : ∀ task ∈ s'.tasks, task.Supported :=
    fun task ht => h.origin (hsteps.task_origin ht)
  cases h.change hsteps with
  | same hsame => exact ⟨htasks, hsame ▸ h.supported, hsame ▸ h.ids, hsame ▸ h.keys⟩
  | cut hcut _ =>
      have hsub := hcut ▸ List.filter_sublist
      exact ⟨htasks, fun e he => h.supported e (hsub.subset he), h.ids.sublist (hsub.map _),
        h.keys.sublist (hsub.map _)⟩
  | added hnew hadded hids hkeys =>
      refine ⟨htasks, fun e he => ?_, hids, hkeys⟩
      rw [hadded] at he
      rcases List.mem_append.mp he with he | he
      · exact h.supported e he
      · obtain ⟨x, hx, rfl⟩ := List.mem_map.mp he
        exact hnew x hx

theorem entriesInv_start (clock : Datetime) (db : Db) : EntriesInv (start clock db) :=
  ⟨fun _ h => (by cases h), fun _ h => (by cases h), .nil, .nil⟩

theorem Reachable.entriesInv (h : Reachable dep s) : EntriesInv s := by
  obtain ⟨clock, db, hrun⟩ := h
  exact hrun.invariant (fun s a s' hinv _ hs => hinv.step (State.step_cases hs))
    (entriesInv_start clock db)

end

/-! ## The keys of the tables -/

/-- The connections have identifiers of their own, and a subscription one of these. -/
structure KeysInv (s : State) : Prop where
  ids : (s.connections.map fun c => c.id).Nodup
  parents : ∀ x ∈ s.subscriptions, x.connectionId ∈ s.connections.map fun c => c.id

section
variable {dep : Deployment} {s s' : State}

theorem ids_updateConnection {loaded c : Installation} {db : Db} {t t' : InstallationTables}
    (h : updateConnection loaded c db t = some t')
    (hids : (t.connections.map fun c => c.id).Nodup) :
    t'.connections.map (fun c => c.id) = t.connections.map fun c => c.id := by
  rcases updateConnection_some h with rfl | ⟨stored, hstored, hid, rfl⟩
  · rfl
  · rw [← hid]
    have hmerged : (merge loaded c stored).id = stored.id := rfl
    exact Rows.map_replace hids hstored (fun c => c.id) hmerged

theorem parents_of_entries {t t' : InstallationTables} {ids : List UUID}
    (h : ∀ x ∈ t.subscriptions, x.connectionId ∈ ids) (he : entries t' = entries t) :
    ∀ x ∈ t'.subscriptions, x.connectionId ∈ ids := by
  intro x hx
  have hmem : entry x ∈ entries t := he ▸ List.mem_map_of_mem hx
  obtain ⟨y, hy, hsame⟩ := List.mem_map.mp hmem
  have hid : y.connectionId = x.connectionId := congrArg (fun e => e.2.1) hsame
  exact hid ▸ h y hy

theorem parents_saveSubscriptions {new : List IntegrationSubscription} {ids : List UUID} :
    ∀ {changed : List (IntegrationSubscription × IntegrationSubscription)}
      {t t' : InstallationTables}, saveSubscriptions changed new t = some t' →
      t.connections.map (fun c => c.id) = ids → (∀ x ∈ t.subscriptions, x.connectionId ∈ ids) →
      ∀ x ∈ t'.subscriptions, x.connectionId ∈ ids
  | [], t, t', h, hids, hparents => by
      obtain ⟨rfl, -, -, hnew⟩ := insertSubscriptions_some h
      intro x hx
      rcases List.mem_append.mp hx with hx | hx
      · exact hparents x hx
      · exact hids ▸ hnew x hx
  | p :: changed, t, t', h, hids, hparents => by
      obtain ⟨t₂, hfold, h⟩ := Option.bind_eq_some_iff.mp h
      obtain ⟨t₁, hp, hfold⟩ := Option.bind_eq_some_iff.mp hfold
      refine parents_saveSubscriptions (Option.bind_eq_some_iff.mpr ⟨t₂, hfold, h⟩) ?_
        (parents_of_entries hparents (entries_updateSubscription hp))
      rw [updateSubscription_connections hp]
      exact hids

theorem KeysInv.update (h : KeysInv s) {loaded c : Installation} {db : Db}
    {t : InstallationTables}
    (hupdate : updateConnection loaded c db s.toInstallationTables = some t) :
    (t.connections.map fun c => c.id).Nodup ∧
      ∀ x ∈ t.subscriptions, x.connectionId ∈ t.connections.map fun c => c.id := by
  rw [ids_updateConnection hupdate h.ids]
  exact ⟨h.ids, parents_of_entries h.parents (entries_updateConnection hupdate)⟩

theorem KeysInv.save (h : KeysInv s)
    {changed : List (IntegrationSubscription × IntegrationSubscription)}
    {new : List IntegrationSubscription} {t : InstallationTables}
    (hsave : saveSubscriptions changed new s.toInstallationTables = some t) :
    (t.connections.map fun c => c.id).Nodup ∧
      ∀ x ∈ t.subscriptions, x.connectionId ∈ t.connections.map fun c => c.id := by
  rw [saveSubscriptions_connections hsave]
  exact ⟨h.ids, parents_saveSubscriptions hsave rfl h.parents⟩

theorem KeysInv.step {a : Action} (h : KeysInv s) (hsteps : Steps dep s a s') : KeysInv s' := by
  cases hsteps with
  | tick _ => exact ⟨h.ids, h.parents⟩
  | core =>
      refine ⟨h.ids.sublist (List.filter_sublist.map _), fun x hx => ?_⟩
      obtain ⟨c, hc, hid⟩ := List.any_eq_true.mp (List.mem_filter.mp hx).2
      exact List.mem_map.mpr ⟨c, hc, of_decide_eq_true hid⟩
  | begun _ => exact ⟨h.ids, h.parents⟩
  | taken _ _ => exact ⟨h.ids, h.parents⟩
  | issued _ _ => exact ⟨h.ids, h.parents⟩
  | moved _ _ => exact ⟨h.ids, h.parents⟩
  | @installed _ _ _ loaded row t _ _ _ hupsert =>
      cases loaded with
      | none =>
          obtain ⟨hnew, rfl⟩ := insertConnection_some hupsert
          refine ⟨?_, fun x hx => ?_⟩
          · show ((s.connections ++ [row]).map fun c => c.id).Nodup
            rw [List.map_append]
            refine List.nodup_append.mpr ⟨h.ids, List.nodup_singleton _, fun i hi j hj => ?_⟩
            obtain ⟨c, hc, rfl⟩ := List.mem_map.mp hi
            rw [List.mem_singleton.mp hj]
            exact (hnew c hc).1
          · show x.connectionId ∈ (s.connections ++ [row]).map fun c => c.id
            rw [List.map_append]
            exact List.mem_append_left _ (h.parents x hx)
      | some loaded => exact ⟨(h.update hupsert).1, (h.update hupsert).2⟩
  | committed hi hcommits =>
      cases hcommits with
      | ensured hinsert =>
          have hsave := h.save (saveSubscriptions_nil.trans hinsert)
          exact ⟨hsave.1, hsave.2⟩
      | saved hsave => exact ⟨(h.save hsave).1, (h.save hsave).2⟩
      | verified hupdate => exact ⟨(h.update hupdate).1, (h.update hupdate).2⟩
      | disconnected hupdate => exact ⟨(h.update hupdate).1, (h.update hupdate).2⟩

theorem Reachable.keysInv (h : Reachable dep s) : KeysInv s := by
  obtain ⟨clock, db, hrun⟩ := h
  exact hrun.invariant (fun s a s' hinv _ hs => hinv.step (State.step_cases hs))
    ⟨.nil, fun _ h => (by cases h)⟩

end

/-! ## All types -/

/-- The connection has been there; as long as it is, it has a subscription for each of the
types. -/
structure Covers (s : State) (connectionId : UUID) (types : List IntegrationEventType) : Prop where
  installed : connectionId ∈ s.installs.map Installed.connectionId
  types : connectionId ∈ s.connections.map (fun c => c.id) → ∀ e ∈ types,
    (connectionId, e) ∈ (entries s.toInstallationTables).map Prod.snd

/-- What a listing has come to. -/
inductive Ensuring (s : State) (connectionId : UUID) : Task → Prop
  | listing {answer : Answer} : connectionId ∈ s.installs.map Installed.connectionId →
      Ensuring s connectionId (.listing connectionId answer)
  | ensuring {new : List IntegrationSubscription} {answer : Answer} :
      (∀ x ∈ new, x.connectionId = connectionId) →
      Covers s connectionId
        (supportedEvents.filter (· ∉ new.map IntegrationSubscription.eventType)) →
      Ensuring s connectionId (.ensuring connectionId new answer)
  | answered {answer : Answer} : Covers s connectionId supportedEvents →
      Ensuring s connectionId (.answered (.ok answer))
  | failed : Ensuring s connectionId .failed

section
variable {dep : Deployment} {s s' : State} {connectionId : UUID}

theorem Steps.installed_mono {a : Action} (hsteps : Steps dep s a s')
    (h : connectionId ∈ s.installs.map Installed.connectionId) :
    connectionId ∈ s'.installs.map Installed.connectionId :=
  List.map_subset _ hsteps.installs_subset h

/-- A connection that is gone does not come back. -/
theorem Steps.connection_stays {a : Action} (hsteps : Steps dep s a s')
    (hinstalled : connectionId ∈ s.installs.map Installed.connectionId)
    (h : connectionId ∈ s'.connections.map fun c => c.id) :
    connectionId ∈ s.connections.map fun c => c.id := by
  obtain ⟨c, hc, rfl⟩ := List.mem_map.mp h
  cases hsteps.connection_origin hc with
  | kept hc => exact List.mem_map_of_mem hc
  | inserted _ _ hnew => exact absurd hinstalled hnew
  | updated _ _ hstored _ => exact List.mem_map_of_mem (f := fun c => c.id) hstored
  | verified _ hstored _ => exact List.mem_map_of_mem (f := fun c => c.id) hstored
  | disconnected _ hstored _ => exact List.mem_map_of_mem (f := fun c => c.id) hstored

theorem Covers.step {types : List IntegrationEventType} {a : Action}
    (h : Covers s connectionId types) (hinv : EntriesInv s) (hsteps : Steps dep s a s') :
    Covers s' connectionId types := by
  refine ⟨hsteps.installed_mono h.installed, fun hmem e he => ?_⟩
  have hold := h.types (hsteps.connection_stays h.installed hmem) e he
  cases hinv.change hsteps with
  | same hsame => exact hsame ▸ hold
  | cut hcut hkeeps =>
      obtain ⟨x, hx, hkey⟩ := List.mem_map.mp hold
      rw [hcut]
      refine List.mem_map.mpr ⟨x, List.mem_filter.mpr ⟨hx, hkeeps x ?_⟩, hkey⟩
      rw [hkey]
      exact hmem
  | added _ hadded _ _ =>
      rw [hadded, List.map_append]
      exact List.mem_append_left _ hold

theorem Ensuring.next {task : Task} {a : Action} (h : Ensuring s connectionId task)
    (hinv : EntriesInv s) (hsteps : Steps dep s a s') : Ensuring s' connectionId task := by
  cases h with
  | listing hinstalled => exact .listing (hsteps.installed_mono hinstalled)
  | ensuring hnew hcovers => exact .ensuring hnew (hcovers.step hinv hsteps)
  | answered hcovers => exact .answered (hcovers.step hinv hsteps)
  | failed => exact .failed

theorem types_missing (connectionId : UUID) (eventTypes : List IntegrationEventType)
    (fresh : Nat → UUID) (existing : List IntegrationSubscription) :
    (InstallationRepository.missing connectionId eventTypes fresh existing).map
      IntegrationSubscription.eventType =
      eventTypes.filter fun e => e ∉ existing.map IntegrationSubscription.eventType := by
  refine List.ext_getElem (by simp [InstallationRepository.missing]) fun i _ _ => ?_
  simp only [InstallationRepository.missing, List.getElem_map, List.getElem_mapIdx]
  rfl

/-- What a listing has read and what it is about to add are all types. -/
theorem covers_listed {fresh : Nat → UUID}
    (h : connectionId ∈ s.installs.map Installed.connectionId) :
    Covers s connectionId (supportedEvents.filter
      (· ∉ (InstallationRepository.missing connectionId supportedEvents fresh
        (InstallationRepository.listSubscriptions connectionId s.toInstallationTables)).map
          IntegrationSubscription.eventType)) := by
  refine ⟨h, fun _ e he => ?_⟩
  obtain ⟨he, hnew⟩ := List.mem_filter.mp he
  rw [decide_eq_true_eq, types_missing, List.mem_filter, not_and, decide_eq_true_eq, not_not]
    at hnew
  obtain ⟨x, hx, rfl⟩ := List.mem_map.mp (hnew he)
  obtain ⟨hmem, hid⟩ := List.mem_filter.mp hx
  rw [decide_eq_true_eq] at hid
  exact List.mem_map.mpr ⟨entry x, List.mem_map_of_mem hmem, by rw [← hid]; rfl⟩

/-- What is added are the rest of the types. -/
theorem covers_ensured {new : List IntegrationSubscription} {t : InstallationTables}
    (hnew : ∀ x ∈ new, x.connectionId = connectionId)
    (h : Covers s connectionId
      (supportedEvents.filter (· ∉ new.map IntegrationSubscription.eventType)))
    (hinsert : insertSubscriptions new s.toInstallationTables = some t)
    {s' : State} (hs' : s'.toInstallationTables = t) (hinstalls : s'.installs = s.installs) :
    Covers s' connectionId supportedEvents := by
  have hconnections : s'.connections = s.connections := by
    rw [hs', (insertSubscriptions_some hinsert).1]
  refine ⟨hinstalls ▸ h.installed, fun hmem e he => ?_⟩
  rw [hs', (entries_insertSubscriptions hinsert).1, List.map_append]
  by_cases hadded : e ∈ new.map IntegrationSubscription.eventType
  · obtain ⟨x, hx, rfl⟩ := List.mem_map.mp hadded
    refine List.mem_append_right _ (List.mem_map.mpr ⟨entry x, List.mem_map_of_mem hx, ?_⟩)
    rw [← hnew x hx]
    rfl
  · refine List.mem_append_left _ (h.types (hconnections ▸ hmem) e ?_)
    exact List.mem_filter.mpr ⟨he, decide_eq_true hadded⟩

theorem begin_at {task task' : Task} {i : Nat} (hi : s.tasks[i]? = some task) :
    (s.begin task').tasks[i]? = some task := by
  rw [State.begin, List.getElem?_append_left (List.getElem?_eq_some_iff.mp hi).1]
  exact hi

/-- The request at `i` has gone on, or another one has. -/
theorem goOn_at {task task₀ : Task} {i j : Nat} (hi : s.tasks[i]? = some task)
    (hj : s.tasks[j]? = some task₀) :
    (task₀ = task ∧ ∀ task', (s.goOn j task').tasks[i]? = some task') ∨
      ∀ task', (s.goOn j task').tasks[i]? = some task := by
  by_cases hij : j = i
  · subst hij
    have hlt := (List.getElem?_eq_some_iff.mp hi).1
    exact .inl ⟨Option.some.inj (hj.symm.trans hi), fun _ => List.getElem?_set_self hlt⟩
  · exact .inr fun _ => (List.getElem?_set_ne hij).trans hi

/-- A listing goes on as one, whatever runs. -/
theorem Ensuring.step {task : Task} {i : Nat} {a : Action} (h : Ensuring s connectionId task)
    (hinv : EntriesInv s) (hi : s.tasks[i]? = some task) (hsteps : Steps dep s a s') :
    ∃ task', s'.tasks[i]? = some task' ∧ Ensuring s' connectionId task' := by
  have hnext := h.next hinv hsteps
  cases hsteps with
  | tick _ => exact ⟨task, hi, hnext⟩
  | core => exact ⟨task, hi, hnext⟩
  | begun _ => exact ⟨task, begin_at hi, hnext⟩
  | taken _ _ => exact ⟨task, begin_at hi, hnext⟩
  | issued hj _ =>
      rcases goOn_at hi hj with ⟨rfl, -⟩ | hsame
      · cases h
      · exact ⟨task, hsame _, hnext⟩
  | moved hj hmoves =>
      rcases goOn_at hi hj with ⟨rfl, hmoved⟩ | hsame
      · cases hmoves with
        | failed => exact ⟨_, hmoved _, .failed⟩
        | listed =>
            cases h with
            | listing hinstalled =>
                exact ⟨_, hmoved _, .ensuring (fun x hx => (mem_missing hx).1)
                  (covers_listed hinstalled)⟩
        | ended hrefusable _ =>
            cases h <;> cases hrefusable
        | _ => cases h
      · exact ⟨task, hsame _, hnext⟩
  | installed hj _ _ =>
      rcases goOn_at hi hj with ⟨rfl, -⟩ | hsame
      · cases h
      · exact ⟨task, hsame _, hnext⟩
  | committed hj hcommits =>
      rcases goOn_at hi hj with ⟨rfl, hmoved⟩ | hsame
      · cases hcommits with
        | ensured hinsert =>
            cases h with
            | ensuring hnew hcovers =>
                exact ⟨_, hmoved _, .answered (covers_ensured hnew hcovers hinsert rfl rfl)⟩
        | _ => cases h
      · exact ⟨task, hsame _, hnext⟩

/-- A listing is of a connection that has been there. -/
def Listed (s : State) : Prop := ∀ connectionId answer, .listing connectionId answer ∈ s.tasks →
  connectionId ∈ s.installs.map Installed.connectionId

theorem Listed.step {a : Action} (h : Listed s) (hrows : RowsInv s) (hsteps : Steps dep s a s') :
    Listed s' := by
  intro connectionId answer hmem
  cases hsteps.task_origin hmem with
  | kept hmem => exact hsteps.installed_mono (h _ _ hmem)
  | begun hbegins =>
      cases hbegins with
      | ended hended => rcases hended with ⟨_, he⟩ | he <;> cases he
      | listing hc =>
          obtain ⟨i, hi, hof⟩ := (hrows.connections _ hc).known
          exact hsteps.installed_mono (hof.id ▸ List.mem_map_of_mem hi)
  | moved _ hmoves =>
      cases hmoves with
      | ended _ hended => rcases hended with ⟨_, he⟩ | he <;> cases he
  | installed hinstalls => exact hinstalls ▸ List.mem_map_of_mem List.mem_cons_self

theorem Reachable.listed (h : Reachable dep s) : Listed s := by
  obtain ⟨clock, db, hrun⟩ := h
  have hboth : RowsInv s ∧ Listed s :=
    hrun.invariant (I := fun s => RowsInv s ∧ Listed s)
      (fun s a s' hinv _ hs => ⟨hinv.1.step (State.step_cases hs),
        hinv.2.step hinv.1 (State.step_cases hs)⟩)
      ⟨rowsInv_start clock db, fun _ _ h => (by cases h)⟩
  exact hboth.2

theorem Ensuring.run {task : Task} {i : Nat} (h : Ensuring s connectionId task)
    (hinv : EntriesInv s) (hi : s.tasks[i]? = some task) (hrun : Run dep s s') :
    ∃ task', s'.tasks[i]? = some task' ∧ Ensuring s' connectionId task' := by
  have hboth := hrun.invariant
    (I := fun s => EntriesInv s ∧ ∃ task, s.tasks[i]? = some task ∧ Ensuring s connectionId task)
    (fun s a s' hinv _ hs => by
      obtain ⟨hinv, task, hi, h⟩ := hinv
      exact ⟨hinv.step (State.step_cases hs), h.step hinv hi (State.step_cases hs)⟩)
    ⟨hinv, task, hi, h⟩
  exact hboth.2

end

/-! ## The result -/

/-- A subscription is for a supported type, one for each connection and type; and who has
listed the subscriptions of a connection, or installed it, leaves it with all of them. -/
theorem subscriptions_complete {dep : Deployment} {s s' : State} (h : Reachable dep s)
    (hrun : Run dep s s') :
    (∀ x ∈ s.subscriptions, x.eventType ∈ supportedEvents) ∧
    (s.subscriptions.map fun x => (x.connectionId, x.eventType)).Nodup ∧
    ∀ (i : Nat) (connectionId : UUID) (answer answer' : Answer),
      s.tasks[i]? = some (.listing connectionId answer) →
      s'.tasks[i]? = some (.answered (.ok answer')) →
      connectionId ∈ s'.connections.map (fun c => c.id) → ∀ e ∈ supportedEvents,
        ∃ x ∈ s'.subscriptions, x.connectionId = connectionId ∧ x.eventType = e := by
  have hinv := h.entriesInv
  refine ⟨fun x hx => hinv.supported _ (List.mem_map_of_mem hx), ?_, ?_⟩
  · have hkeys := hinv.keys
    rw [entries, List.map_map] at hkeys
    exact hkeys
  · intro i connectionId answer answer' hi hi' hmem e he
    have hlisted := h.listed _ _ (List.mem_of_getElem? hi)
    obtain ⟨task', htask', hensuring⟩ := (Ensuring.listing hlisted).run hinv hi hrun
    cases hi'.symm.trans htask'
    cases hensuring with
    | answered hcovers =>
        obtain ⟨p, hp, hkey⟩ := List.mem_map.mp (hcovers.types hmem e he)
        obtain ⟨x, hx, rfl⟩ := List.mem_map.mp hp
        exact ⟨x, hx, congrArg Prod.fst hkey, congrArg Prod.snd hkey⟩

namespace Sample

def listing : Task → Option UUID
  | .listing connectionId _ => some connectionId
  | _ => none

def succeeded : Task → Bool
  | .answered (.ok _) => true
  | _ => false

end Sample

/-- The callback of an installation, before its listing and at its end. -/
theorem subscriptions_complete_sample : ∃ s : State, s.connections ≠ [] ∧
    ∀ e ∈ supportedEvents, ∃ x ∈ s.subscriptions, x.connectionId = 60 ∧ x.eventType = e := by
  obtain ⟨⟨s, s'⟩, hplays, hs⟩ := Option.map_eq_some_iff.mp
    (show ((Machine.play (State.step Sample.deployment) (fun _ _ => True) (start 0 Sample.lab)
        ((Sample.installs 0 "fern" "gAAAA").take 7)).bind fun s =>
          (Machine.play (State.step Sample.deployment) (fun _ _ => True) s
            (List.replicate 2 (.advance 1 (Sample.outside "fern" "gAAAA")))).map
              fun s' => (s, s')).map
                (fun p => (p.1.tasks[1]?.bind Sample.listing, p.2.tasks[1]?.map Sample.succeeded,
                  p.2.connections.map fun c => c.id)) = some (some 60, some true, [60]) by
      decide +kernel)
  obtain ⟨hlisting, hs⟩ := Prod.mk.inj hs
  obtain ⟨hsucceeded, hids⟩ := Prod.mk.inj hs
  obtain ⟨s₁, hplay, hplays⟩ := Option.bind_eq_some_iff.mp hplays
  obtain ⟨s₂, hplay', hpair⟩ := Option.map_eq_some_iff.mp hplays
  cases hpair
  obtain ⟨task, htask, hlisting⟩ := Option.bind_eq_some_iff.mp hlisting
  obtain ⟨task', htask', hsucceeded⟩ := Option.map_eq_some_iff.mp hsucceeded
  cases task with
  | listing connectionId answer =>
      cases hlisting
      cases task' with
      | answered r =>
          cases r with
          | error e => cases hsucceeded
          | ok answer' =>
              have h := subscriptions_complete ⟨0, Sample.lab, Machine.Run.of_play hplay⟩
                (Machine.Run.of_play hplay')
              refine ⟨s', fun he => ?_, h.2.2 1 60 answer answer' htask htask' ?_⟩
              · rw [he] at hids
                cases hids
              · rw [hids]
                exact List.mem_singleton_self _
      | _ => cases hsucceeded
  | _ => cases hlisting

end Installations

end ForkRoom
