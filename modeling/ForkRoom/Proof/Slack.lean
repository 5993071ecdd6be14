/-
# `Proof.Slack` — from the manager to the message

Each step of the requests is a run of the workers' system in which their tables are written
(`request_runs`): an `INSERT` or an `UPDATE` of a connection is one `saveConnection`, a
flush of subscriptions one `saveSubscription` for each row.  So what was proved of the workers
alone holds of them beside the requests, and with what was proved of the requests alone:

    every message that was sent says what an event says, and the step that sent it took the
    token of a connection, active at that step, of the event's workspace, which had been
    installed by a user who might manage that workspace (`sends_authorized`)
-/
import ForkRoom.Proof.Messages
import ForkRoom.Proof.Subscriptions
import ForkRoom.System.Slack

namespace ForkRoom

namespace Slack

open InstallationRepository
open Installations (entry entries insertConnection_some updateConnection_some
  insertSubscriptions_some saveSubscriptions_nil entries_updateSubscription)

/-- A run of the workers' system. -/
abbrev Runs (workers : Integration.Deployment) : Integration.Config → Integration.Config → Prop :=
  Machine.Run (Integration.Config.step workers) fun _ _ => True

section
variable {workers : Integration.Deployment} {c : Integration.Config} {t t' : InstallationTables}

/-! ## Connections -/

/-- A connection is inserted. -/
theorem insert_runs {row : Installation} {db : Db} (h : insertConnection row db t = some t') :
    Runs workers (withTables t c) (withTables t' c) := by
  obtain ⟨hnew, rfl⟩ := insertConnection_some h
  have hfind : Rows.find row.id (connections t) = none := by
    refine Rows.find_none.mpr fun x hx => ?_
    obtain ⟨y, hy, rfl⟩ := List.mem_map.mp hx
    exact (hnew y hy).1
  refine .step (a := .saveConnection row.toIntegrationConnection) (.refl _) trivial ?_
  simp only [Integration.Config.step, IntegrationRepository.saveConnection, withTables, hfind]
  simp [connections]

theorem saveConnection_found {x stored : IntegrationConnection} {t : IntegrationTables}
    (hfind : Rows.find x.id t.connections = some stored)
    (hworkspace : x.workspaceId = stored.workspaceId) :
    IntegrationRepository.saveConnection x t =
      some { t with connections := Rows.modify x.id (fun _ => x) t.connections } := by
  simp only [IntegrationRepository.saveConnection, hfind, if_pos hworkspace]

/-- A connection is written again, or left as it is. -/
theorem update_runs {loaded row : Installation} {db : Db}
    (hids : (t.connections.map fun c => c.id).Nodup)
    (h : updateConnection loaded row db t = some t') :
    Runs workers (withTables t c) (withTables t' c) := by
  rcases updateConnection_some h with rfl | ⟨stored, hstored, hid, rfl⟩
  · exact .refl _
  · have hkeys : ((connections t).map Rows.Keyed.key).Nodup := by
      rw [connections, List.map_map]
      exact hids
    have hfind : Rows.find stored.id (connections t) = some stored.toIntegrationConnection :=
      Rows.find_of_mem hkeys (List.mem_map_of_mem hstored)
    have hsave := saveConnection_found (x := (merge loaded row stored).toIntegrationConnection)
      (t := (withTables t c).toIntegrationTables) hfind rfl
    have hmodify := Rows.map_modify_comm (k := stored.id) (f := fun _ => merge loaded row stored)
      (h := fun _ => (merge loaded row stored).toIntegrationConnection)
      (g := fun x : Installation => x.toIntegrationConnection) (fun _ => rfl) (fun _ => rfl)
      t.connections
    refine .step (a := .saveConnection (merge loaded row stored).toIntegrationConnection) (.refl _)
      trivial ?_
    rw [Integration.Config.step, hsave, Option.map_some, ← hid]
    exact congrArg (fun rows => some { withTables t c with connections := rows }) hmodify.symm

/-! ## Subscriptions -/

theorem saveSubscription_found {x stored : IntegrationSubscription} {t : IntegrationTables}
    (hfind : Rows.find (x.connectionId, x.eventType) t.subscriptions = some stored) :
    IntegrationRepository.saveSubscription x t = { t with
      subscriptions :=
        Rows.modify (x.connectionId, x.eventType) (fun _ => x) t.subscriptions } := by
  simp only [IntegrationRepository.saveSubscription, hfind]

/-- Subscriptions are written again, the row that has the key. -/
theorem change_runs {loaded x : IntegrationSubscription}
    (hids : ((entries t).map Prod.fst).Nodup) (hkeys : ((entries t).map Prod.snd).Nodup)
    (h : updateSubscription loaded x t = some t') :
    Runs workers (withTables t c) (withTables t' c) := by
  rw [entries, List.map_map] at hids hkeys
  unfold updateSubscription at h
  split at h
  · cases h
    exact .refl _
  · split at h
    · cases h
    · rename_i stored hfind
      cases h
      have hmem := List.mem_of_find?_eq_some hfind
      have hid := List.find?_some hfind
      rw [decide_eq_true_eq] at hid
      have hrows : (t.subscriptions.map fun r =>
            if r.id = x.id then mergeSubscription loaded x r else r) =
          Rows.modify (stored.connectionId, stored.eventType)
            (fun _ => mergeSubscription loaded x stored) t.subscriptions := by
        refine List.map_congr_left fun r hr => ?_
        by_cases hsame : r = stored
        · subst hsame
          rw [if_pos hid]
          exact (if_pos rfl).symm
        · have hne : r.id ≠ x.id := fun he =>
            hsame (List.inj_on_of_nodup_map hids hr hmem (he.trans hid.symm))
          have hne' : Rows.Keyed.key r ≠ (stored.connectionId, stored.eventType) := fun he =>
            hsame (List.inj_on_of_nodup_map hkeys hr hmem he)
          rw [if_neg hne, if_neg hne']
      have hstored : Rows.find (stored.connectionId, stored.eventType) t.subscriptions =
          some stored := Rows.find_of_mem hkeys hmem
      have hsave := saveSubscription_found (x := mergeSubscription loaded x stored)
        (t := (withTables t c).toIntegrationTables) hstored
      refine .step (a := .saveSubscription (mergeSubscription loaded x stored)) (.refl _) trivial ?_
      rw [Integration.Config.step, hsave, hrows]
      rfl

/-- Subscriptions are added, one after the other. -/
theorem append_runs : ∀ {new rows : List IntegrationSubscription},
    ((rows ++ new).map (Rows.Keyed.key (α := IntegrationSubscription))).Nodup →
    Runs workers { c with subscriptions := rows } { c with subscriptions := rows ++ new }
  | [], rows, _ => by
      rw [List.append_nil]
      exact .refl _
  | x :: new, rows, h => by
      have hnone : Rows.find (x.connectionId, x.eventType) rows = none := by
        refine Rows.find_none.mpr fun r hr he => ?_
        rw [List.map_append, List.map_cons] at h
        exact (List.nodup_append.mp h).2.2 _ (List.mem_map_of_mem hr) _ List.mem_cons_self he
      have hsave : Integration.Config.step workers { c with subscriptions := rows }
          (.saveSubscription x) = some { c with subscriptions := rows ++ [x] } := by
        simp only [Integration.Config.step, IntegrationRepository.saveSubscription, hnone]
      have hrest : Runs workers { c with subscriptions := rows ++ [x] }
          { c with subscriptions := rows ++ [x] ++ new } := append_runs (by
        rw [List.append_assoc]
        exact h)
      rw [List.append_assoc] at hrest
      exact (Machine.Run.step (.refl _) trivial hsave).trans hrest

/-- A flush of subscriptions. -/
theorem save_runs {new : List IntegrationSubscription} :
    ∀ {changed : List (IntegrationSubscription × IntegrationSubscription)}
      {t t' : InstallationTables}, ((entries t).map Prod.fst).Nodup →
      ((entries t).map Prod.snd).Nodup → saveSubscriptions changed new t = some t' →
      Runs workers (withTables t c) (withTables t' c)
  | [], t, t', _, _, h => by
      obtain ⟨rfl, -, hkeys, -⟩ := insertSubscriptions_some h
      exact append_runs (c := withTables t c) hkeys
  | p :: changed, t, t', hids, hkeys, h => by
      obtain ⟨t₂, hfold, h⟩ := Option.bind_eq_some_iff.mp h
      obtain ⟨t₁, hp, hfold⟩ := Option.bind_eq_some_iff.mp hfold
      have hentries := entries_updateSubscription hp
      exact (change_runs hids hkeys hp).trans (save_runs (hentries ▸ hids) (hentries ▸ hkeys)
        (Option.bind_eq_some_iff.mpr ⟨t₂, hfold, h⟩))

end

/-! ## Every step -/

section
variable {dep : Deployment} {workers : Integration.Deployment} {c : Integration.Config}

/-- What is left when no workspace with a connection is gone. -/
theorem within_eq {s : Installations.State} (hkeys : Installations.KeysInv s) {db : Db}
    (h : ∀ c ∈ s.connections, db.workspaces.any (fun w => w.id = c.workspaceId) = true) :
    Installations.within db s.toInstallationTables = s.toInstallationTables := by
  have hconnections : (s.connections.filter fun c =>
      db.workspaces.any fun w => w.id = c.workspaceId) = s.connections :=
    List.filter_eq_self.mpr h
  unfold Installations.within
  rw [hconnections]
  have hsubscriptions : (s.subscriptions.filter fun x =>
      s.connections.any fun c => c.id = x.connectionId) = s.subscriptions := by
    refine List.filter_eq_self.mpr fun x hx => List.any_eq_true.mpr ?_
    obtain ⟨c, hc, hid⟩ := List.mem_map.mp (hkeys.parents x hx)
    exact ⟨c, hc, decide_eq_true hid⟩
  dsimp only
  rw [hsubscriptions]

/-- A commit of the requests is a run of the workers' system. -/
theorem tables_run {s s' : Installations.State} (hclock : s'.clock = s.clock)
    (h : Runs workers (withTables s.toInstallationTables { c with clock := s.clock })
      (withTables s'.toInstallationTables { c with clock := s.clock })) :
    Runs workers (shown s c) (shown s' c) := by
  unfold shown
  rw [hclock]
  exact h

/-- A step of the requests is a run of the workers' system. -/
theorem request_runs {s s' : Installations.State} {a : Installations.Action}
    (hentries : Installations.EntriesInv s) (hkeys : Installations.KeysInv s)
    (hkeeps : ∀ db, a = .core db → ∀ c ∈ s.connections,
      db.workspaces.any (fun w => w.id = c.workspaceId) = true)
    (hsteps : Installations.Steps dep.requests s a s') :
    Runs workers (shown s c) (shown s' c) := by
  cases hsteps with
  | @tick clock hle => exact .step (a := .tick clock) (.refl _) trivial (if_pos hle)
  | @core db =>
      refine tables_run rfl ?_
      rw [show Installations.within db s.toInstallationTables = _ from
        within_eq hkeys (hkeeps db rfl)]
      exact .refl _
  | begun _ => exact .refl _
  | taken _ _ => exact .refl _
  | issued _ _ => exact .refl _
  | moved _ _ => exact .refl _
  | @installed _ _ _ loaded _ _ _ _ _ hupsert =>
      refine tables_run rfl ?_
      cases loaded with
      | none => exact insert_runs hupsert
      | some loaded => exact update_runs hkeys.ids hupsert
  | committed _ hcommits =>
      refine tables_run rfl ?_
      cases hcommits with
      | ensured hinsert =>
          exact save_runs hentries.ids hentries.keys (saveSubscriptions_nil.trans hinsert)
      | saved hsave => exact save_runs hentries.ids hentries.keys hsave
      | verified hupdate => exact update_runs hkeys.ids hupdate
      | disconnected hupdate => exact update_runs hkeys.ids hupdate

/-- The workers leave what the requests write as it is. -/
theorem own_frame {a : Integration.Action} {c' : Integration.Config} (hown : own a = true)
    (h : c.step workers a = some c') : c'.connections = c.connections ∧
      c'.subscriptions = c.subscriptions ∧ c'.clock = c.clock := by
  cases Integration.Config.step_cases h with
  | tick | connected | reconnected | configured => cases hown
  | _ => exact ⟨rfl, rfl, rfl⟩

/-! ## Runs -/

structure Joint (dep : Deployment) (clock : Datetime) (db : Db) (s : State) : Prop where
  requests : Installations.Run dep.requests (Installations.start clock db) s.requests
  shown : s.workers = Slack.shown s.requests s.workers
  workers : Integration.Reachable dep.workers s.workers

theorem Joint.step {clock : Datetime} {db : Db} {s s' : State} {a : Action}
    (h : Joint dep clock db s) (hkeeps : keeps s a = true) (hstep : s.step dep a = some s') :
    Joint dep clock db s' := by
  have hreach : Installations.Reachable dep.requests s.requests := ⟨clock, db, h.requests⟩
  cases a with
  | request a =>
      obtain ⟨r, hr, rfl⟩ := Option.map_eq_some_iff.mp hstep
      have hruns : Runs dep.workers (Slack.shown s.requests s.workers)
          (Slack.shown r s.workers) := by
        refine request_runs hreach.entriesInv hreach.keysInv (fun db' ha => ?_)
          (Installations.State.step_cases hr)
        subst ha
        exact List.all_eq_true.mp hkeeps
      rw [← h.shown] at hruns
      obtain ⟨clock', hrun⟩ := h.workers
      exact ⟨.step h.requests trivial hr, rfl, clock', hrun.trans hruns⟩
  | worker a =>
      rw [State.step] at hstep
      split at hstep
      · rename_i hown
        obtain ⟨c', hc', rfl⟩ := Option.map_eq_some_iff.mp hstep
        obtain ⟨hconnections, hsubscriptions, hclock⟩ := own_frame hown hc'
        obtain ⟨clock', hrun⟩ := h.workers
        refine ⟨h.requests, ?_, clock', .step hrun trivial hc'⟩
        show c' = Slack.shown s.requests c'
        have hconnections' : connections s.requests.toInstallationTables = c'.connections :=
          (congrArg (fun c => c.connections) h.shown).symm.trans hconnections.symm
        have hsubscriptions' : s.requests.subscriptions = c'.subscriptions :=
          (congrArg (fun c => c.subscriptions) h.shown).symm.trans hsubscriptions.symm
        have hclock' : s.requests.clock = c'.clock :=
          (congrArg (fun c => c.clock) h.shown).symm.trans hclock.symm
        unfold Slack.shown withTables
        rw [hconnections', hsubscriptions', hclock']
      · cases hstep

theorem joint_start (clock : Datetime) (db : Db) : Joint dep clock db (start clock db) :=
  ⟨.refl _, rfl, clock, .refl _⟩

/-- The message is sent in this step, for an event, with the token of a connection, active as
it is, of the event's workspace, which who might manage the workspace has installed. -/
structure Passes (dep : Deployment) (clock : Datetime) (db : Db) (sent : Integration.Sent)
    (s : State) (a : Action) (s' : State) : Prop where
  courier : ∃ i raised, a = .worker (.sendMessage i raised)
  sends : s'.workers.sends = s.workers.sends ++ [sent]
  authorized : ∃ e ∈ s.workers.outboxEvents, ∃ d ∈ s.workers.deliveries,
    ∃ c ∈ s.requests.connections,
      Integration.SentFor dep.workers sent e d c.toIntegrationConnection ∧
      Integration.Carries dep.workers sent c.id e.workspaceId c.toIntegrationConnection ∧
      ∃ i ∈ s.requests.installs, i.Of c ∧
        Installations.Made dep.requests (Installations.start clock db)
          (Installations.Writes dep.requests (Installations.start clock db) i) s.requests

/-- A message is sent with the token of a connection as it is in that step. -/
theorem Joint.passes {clock : Datetime} {db : Db} {s s' : State} {a : Action}
    (h : Joint dep clock db s) (hstep : s.step dep a = some s') :
    ∀ sent ∈ s'.workers.sends, sent ∈ s.workers.sends ∨ Passes dep clock db sent s a s' := by
  cases a with
  | request a =>
      obtain ⟨r, -, rfl⟩ := Option.map_eq_some_iff.mp hstep
      exact fun sent hsent => .inl hsent
  | worker a =>
      rw [State.step] at hstep
      split at hstep
      · obtain ⟨c', hc', rfl⟩ := Option.map_eq_some_iff.mp hstep
        have hinv : Integration.RunInv dep.workers s.workers := h.workers.runInv
        rcases hinv.messages.sends_cases hinv.matched hc' with
          hsame | ⟨new, k, r, ⟨i, raised, rfl⟩, hadded, hfaithful, x, hx, hcarries⟩
        · exact fun sent hsent => .inl (hsame ▸ hsent)
        · obtain ⟨e, he, d, hd, hsentFor, hworkspace⟩ :=
            hfaithful.sentFor hinv.matched hx hcarries.id
          rw [h.shown] at hx
          obtain ⟨c, hc, rfl⟩ := List.mem_map.mp hx
          have hrows := Installations.Reachable.rowsInv ⟨clock, db, h.requests⟩
          obtain ⟨j, hj, hof, -⟩ := (hrows.connections c hc).installed
          have hwritten := Installations.Run.writes h.requests j hj
          intro sent hsent
          rw [hadded] at hsent
          rcases List.mem_append.mp hsent with hsent | hsent
          · exact .inl hsent
          · cases List.mem_singleton.mp hsent
            exact .inr ⟨⟨i, raised, rfl⟩, hadded, e, he, d, hd, c, hc, hsentFor,
              ⟨rfl, hcarries.workspaceId.trans hworkspace.symm, hcarries.active, hcarries.token⟩,
              j, hj, hof, hwritten⟩
      · cases hstep

end

/-! ## The result -/

/-- Some step of the run from the start. -/
abbrev Made (dep : Deployment) (clock : Datetime) (db : Db) :
    (State → Action → State → Prop) → State → Prop :=
  Machine.Made (State.step dep) (fun s a => keeps s a = true) (start clock db)

/-- What the workers do beside the requests they could do alone; every message says what an
event of the outbox says, and was sent with the token of a connection of the event's workspace
that was active in that step, and that had been installed by who might manage the workspace. -/
theorem sends_authorized {dep : Deployment} {clock : Datetime} {db : Db} {s : State}
    (h : Machine.Run (State.step dep) (fun s a => keeps s a = true) (start clock db) s) :
    Integration.Reachable dep.workers s.workers ∧
    s.requests.issued.Nodup ∧ s.requests.takes.Nodup ∧
    ∀ sent ∈ s.workers.sends, Made dep clock db (Passes dep clock db sent) s := by
  have hstep : ∀ s a s', Joint dep clock db s → keeps s a = true →
      State.step dep s a = some s' → Joint dep clock db s' :=
    fun s a s' hinv ha hs => hinv.step ha hs
  have hjoint : Joint dep clock db s := h.invariant hstep (joint_start clock db)
  have hexclusive := Installations.Run.exclusive hjoint.requests
  refine ⟨hjoint.workers, hexclusive.issued, hexclusive.takes, ?_⟩
  exact h.each hstep (fun s a s' hinv _ hs => hinv.passes hs) (joint_start clock db) rfl

/-! ### A sample -/

namespace Sample

def deployment : Deployment := ⟨Installations.Sample.deployment, Integration.Sample.deployment⟩

/-- The opened votings are to go to a channel. -/
def channel : Installations.UpdateRequest where
  items := [⟨.votingOpened, true, some "C1", some "general", .null⟩]
  unique := List.nodup_singleton _
  destined := fun u hu _ => by
    cases List.mem_singleton.mp hu
    decide

def configures (i : Nat) : List Installations.Action :=
  .updateSubscriptions 1 10 60 channel ::
    List.replicate 2 (.advance i (Installations.Sample.outside "" ""))

/-- Ada installs the account and chooses a channel; then a voting is opened. -/
def opening : List Action :=
  ((Installations.Sample.installs 0 "fern" "gAAAA" ++ configures 2).map .request) ++
    [.stage Integration.Sample.votingOpened, .dispatchOutbox 30, .createDeliveries 0 fun _ => 80,
      .deliver 80, .sendMessage 0 false].map .worker

end Sample

theorem sends_authorized_sample : ∃ s : State, s.workers.sends.length = 1 ∧
    ∀ sent ∈ s.workers.sends, Made Sample.deployment 0 Installations.Sample.lab
      (Passes Sample.deployment 0 Installations.Sample.lab sent) s := by
  obtain ⟨s, hplay, hsends⟩ := Option.map_eq_some_iff.mp
    (show (Machine.play (State.step Sample.deployment) (fun s a => keeps s a = true)
        (start 0 Installations.Sample.lab) Sample.opening).map (fun s => s.workers.sends.length) =
      some 1 by decide +kernel)
  exact ⟨s, hsends, (sends_authorized (Machine.Run.of_play hplay)).2.2.2⟩

end Slack

end ForkRoom
