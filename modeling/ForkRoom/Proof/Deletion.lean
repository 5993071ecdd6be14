/-
# `Proof.Deletion` — when a deletion is all or an error

The guards of a deletion look at the role of the caller and at one status; the foreign
keys look at every row.  From any reachable state a deletion that the guards let through
is committed, and then removes the row with what belongs to it and nothing else, or is
rejected by a RESTRICT reference, and then the caller sees the error of the database:

    Op.MayDelete     the guards
    Op.Referenced    what is in the way
    Op.AllOrError    removed with all that belongs to it, or an error of the service

Actions and exports restrict too, but never get in the way: they are of decisions that
have a lock (`World.Inv`), and a lock comes with an offer of a session.
-/
import ForkRoom.Proof.Objections
import ForkRoom.Proof.References
import ForkRoom.Proof.Removal
import ForkRoom.Proof.Updates

namespace ForkRoom

open Optimistic Reads Rows Gateway

/-! ## What a request commits -/

section
variable {dep : Deployment} {s : World} {op : Op} {request : ActionOp}

theorem Gateway.World.exec_cases (dep : Deployment) (s : World) (request : ActionOp) :
    (s.exec dep request).2 = s ∨ ∃ w ok rejected actions,
    (request.program dep).run s.actions = .ok (.commit w ok rejected) ∧
      s.actions.commit w = .ok actions ∧ s.exportsStand actions.db ∧
      (s.exec dep request).2 = s.cascade actions := by
  have hrun : (program dep request).run s = Except.mapError id
      (Except.map (Intent.lift World.actions id id) ((request.program dep).run s.actions)) :=
    Request.run_lift _ _ _ _ _
  cases hp : (request.program dep).run s.actions with
  | error e =>
      rw [hp] at hrun
      exact Or.inl (congrArg Prod.snd (Request.exec_of_error World.commit hrun))
  | ok i =>
      rw [hp] at hrun
      cases i with
      | reply a => exact Or.inl (congrArg Prod.snd (Request.exec_reply World.commit hrun))
      | commit w ok rejected =>
          rcases Request.exec_commit World.commit hrun with ⟨s', hc, hexec⟩ | ⟨e, -, hexec⟩
          · have hs' : (s.exec dep request).2 = s' := congrArg Prod.snd hexec
            change World.commit w s = .ok s' at hc
            simp only [World.commit] at hc
            split at hc
            · nomatch hc
            · rename_i actions hactions
              split at hc
              · rename_i hexports
                cases hc
                exact Or.inr ⟨w, ok, rejected, actions, rfl, hactions, hexports, hs'⟩
              · nomatch hc
          · exact Or.inl (congrArg Prod.snd hexec)

/-- What a request of the core commits, the operation commits. -/
theorem ActionOp.run_core {a : ActionDb} {w : ActionWrite}
    {ok : ActionDb → Except ActionError (Response ⊕ ImplementationActionRow)}
    {rejected : CommitError → ActionError}
    (h : ((ActionOp.core op).program dep).run a = .ok (.commit w ok rejected)) :
    ∃ ws ok' rejected', w = .core ws ∧
      (op.program dep).run a.db = .ok (.commit ws ok' rejected') := by
  have hrun : ((ActionOp.core op).program dep).run a =
      Except.map (Intent.map Sum.inl) (Except.mapError ActionError.service
        (Except.map (Intent.lift ActionDb.db ActionError.service ActionWrite.core)
          ((op.program dep).run a.db))) := by
    rw [← Request.run_lift, ← Request.run_map]
    rfl
  rw [hrun] at h
  cases hp : (op.program dep).run a.db with
  | error e =>
      rw [hp] at h
      nomatch h
  | ok i =>
      rw [hp] at h
      cases i with
      | reply r => nomatch h
      | commit ws ok' rejected' =>
          cases h
          exact ⟨ws, ok', rejected', rfl, rfl⟩

theorem Op.exec_of_run {db db' : Db} {ws : List Write} {ok : Db → Except ServiceError Response}
    {rejected : CommitError → ServiceError}
    (h : (op.program dep).run db = .ok (.commit ws ok rejected)) (hc : db.commit ws = .ok db') :
    (op.exec dep db).2 = db' := by
  rcases Request.exec_commit Db.commit h with ⟨s', hc', hexec⟩ | ⟨e, he, -⟩
  · rw [hc] at hc'
    cases hc'
    exact congrArg Prod.snd hexec
  · rw [hc] at he
    nomatch he

/-- A new action is for a decision that is LOCKED. -/
theorem ActionReviewService.createAction_locked {env : Env} {user : User} {w d : UUID}
    {payload : ActionCreateRequest} {a : ActionDb} {i : ActionOutcome}
    (h : (ActionReviewService.createAction env user w d payload).run a = .ok i) :
    ∃ row ok rejected, i = .commit (.addAction row) ok rejected ∧
      ∃ x ∈ a.db.decisions, x.id = row.decisionId ∧ x.status = .locked := by
  simp only [createAction, inCore, requireLocked, run_bind_ok, run_lift_ok,
    ActionReviewService.context_run_iff, run_require_ok, run_pure_ok] at h
  obtain ⟨c, hc, -, -, -, hlocked, -, -, rfl⟩ := h
  obtain ⟨hd, -, -⟩ := DecisionRepository.getForWorkspace_some hc.decision
  exact ⟨_, _, _, rfl, c.decision, hd, rfl, hlocked⟩

/-- An action that is changed stays with its decision. -/
theorem ActionWrite.setAction_decision {loaded current : ImplementationActionRow} {at_ : Datetime}
    {actions : List ImplementationActionRow} :
    ∀ a ∈ (ActionWrite.setAction loaded current at_).run actions,
      ∃ a₀ ∈ actions, a₀.decisionId = a.decisionId := by
  intro a ha
  change a ∈ update loaded current (loaded.merge current at_) actions at ha
  unfold update at ha
  split at ha
  · exact ⟨a, ha, rfl⟩
  · obtain ⟨a₀, ha₀, rfl⟩ := List.mem_map.mp ha
    refine ⟨a₀, ha₀, ?_⟩
    split <;> rfl

/-- What a request does to what deletions depend on. -/
structure ActionStep (dep : Deployment) (a a' : ActionDb) : Prop where
  reachable : Reachable dep a.db → Reachable dep a'.db
  locks : ∀ l ∈ a.db.decisionLocks, l ∈ a'.db.decisionLocks
  actions : ∀ x' ∈ a'.implementationActions,
    (∃ x ∈ a.implementationActions, x.decisionId = x'.decisionId) ∨
      ∃ d ∈ a.db.decisions, d.id = x'.decisionId ∧ d.status = .locked

theorem ActionOp.step {a a' : ActionDb} {w : ActionWrite}
    {ok : ActionDb → Except ActionError (Response ⊕ ImplementationActionRow)}
    {rejected : CommitError → ActionError}
    (h : (request.program dep).run a = .ok (.commit w ok rejected)) (hc : a.commit w = .ok a') :
    ActionStep dep a a' := by
  obtain ⟨-, hcore, hrows⟩ := ActionDb.commit_ok hc
  cases request with
  | core op =>
      obtain ⟨ws, ok', rejected', rfl, hrun⟩ := ActionOp.run_core h
      have hexec : (op.exec dep a.db).2 = a'.db := Op.exec_of_run hrun hcore
      have hstep := Op.exec_step dep op a.db
      rw [hexec] at hstep
      refine ⟨fun hr => hexec ▸ hr.step op, hstep.locks_kept, fun x hx => Or.inl ⟨x, ?_, rfl⟩⟩
      rw [hrows] at hx
      exact hx
  | createAction env user w d payload =>
      obtain ⟨ss, hss, hends⟩ := run_ok_iff.mp h
      obtain ⟨ok', hends⟩ := Request.map_commits hends
      obtain ⟨row, _, _, hi, hlocked⟩ :=
        ActionReviewService.createAction_locked (run_ok_iff.mpr ⟨ss, hss, hends⟩)
      cases hi
      have hdb : a.db = a'.db := Except.ok.inj hcore
      refine ⟨fun hr => hdb ▸ hr, fun _ hl => hdb ▸ hl, fun x hx => ?_⟩
      rw [hrows] at hx
      rcases List.mem_append.mp hx with hx | hx
      · exact Or.inl ⟨x, hx, rfl⟩
      · rw [List.mem_singleton.mp hx]
        exact Or.inr hlocked
  | updateAction env user w d x payload =>
      obtain ⟨ss, -, hends⟩ := run_ok_iff.mp h
      obtain ⟨ok', hends⟩ := Request.map_commits hends
      obtain ⟨_, -, row, -, -, -, rfl⟩ := ActionReviewService.updateAction_commits hends
      have hdb : a.db = a'.db := Except.ok.inj hcore
      refine ⟨fun hr => hdb ▸ hr, fun _ hl => hdb ▸ hl, fun x hx => Or.inl ?_⟩
      rw [hrows] at hx
      exact ActionWrite.setAction_decision x hx
  | transitionAction env user w d x payload =>
      obtain ⟨ss, -, hends⟩ := run_ok_iff.mp h
      obtain ⟨ok', hends⟩ := Request.map_commits hends
      obtain ⟨_, -, row, -, -, -, rfl⟩ := ActionReviewService.transitionAction_commits hends
      have hdb : a.db = a'.db := Except.ok.inj hcore
      refine ⟨fun hr => hdb ▸ hr, fun _ hl => hdb ▸ hl, fun x hx => Or.inl ?_⟩
      rw [hrows] at hx
      exact ActionWrite.setAction_decision x hx

/-! ## The invariant -/

/-- Actions and exports are of decisions that have a lock. -/
structure Gateway.World.Inv (dep : Deployment) (s : World) : Prop where
  reachable : ForkRoom.Reachable dep s.db
  actions : ∀ a ∈ s.actions.implementationActions,
    ∃ l ∈ s.db.decisionLocks, l.decisionId = a.decisionId
  exports : ∀ e ∈ s.exports,
    ∃ l ∈ s.db.decisionLocks, l.id = e.decisionLockId ∧ l.decisionId = e.decisionId
  valid : s.Valid

theorem Gateway.World.inv_empty : World.empty.Inv dep where
  reachable := .empty
  actions _ h := nomatch h
  exports _ h := nomatch h
  valid := ⟨List.nodup_nil, List.nodup_nil, rfl, rfl⟩

theorem Gateway.World.Inv.exec (h : s.Inv dep) (request : ActionOp) :
    (s.exec dep request).2.Inv dep := by
  rcases World.exec_cases dep s request with
    hs | ⟨w, ok, rejected, actions, hrun, hc, hexports, hs⟩
  · rw [hs]
    exact h
  have hstep : ActionStep dep s.actions actions := ActionOp.step hrun hc
  rw [hs]
  refine ⟨hstep.reachable h.reachable, ?_, ?_, h.valid.of_cascade hexports⟩
  · intro x' hx'
    have hlock : ∃ l ∈ s.db.decisionLocks, l.decisionId = x'.decisionId := by
      rcases hstep.actions x' hx' with ⟨x, hx, hid⟩ | ⟨d, hd, hid, hlocked⟩
      · exact hid ▸ h.actions x hx
      · exact hid ▸ h.reachable.lockInv.locked d hd hlocked
    obtain ⟨l, hl, hid⟩ := hlock
    exact ⟨l, hstep.locks l hl, hid⟩
  · intro e he
    obtain ⟨l, hl, hid⟩ := h.exports e (List.mem_filter.mp he).1
    exact ⟨l, hstep.locks l hl, hid⟩

/-- An export that is requested has its lock. -/
theorem Gateway.World.Requests.lock {e : DecisionExport} (h : s.Requests e) :
    Kept s.db.workspaces e.workspaceId ∧
      ∃ l ∈ s.db.decisionLocks, l.id = e.decisionLockId ∧ l.decisionId = e.decisionId := by
  obtain ⟨user, w, d, lock, id, txn, hrun, rfl⟩ := h
  simp only [DecisionExportService.program, DecisionExportService.request,
    DecisionExportService.membership, run_bind_ok, run_query_ok, run_require_ok, run_orThrow_ok,
    run_pure_ok] at hrun
  obtain ⟨m, ⟨_, rfl, _, -, -, hworkspace, -⟩, -, -, _, rfl, l, hlock, -, -, _, -, htask⟩ := hrun
  have hsame : l = lock := by
    split at htask
    · split at htask <;> cases htask
    · exact ExportTask.create.inj htask
  subst hsame
  obtain ⟨hl, hid⟩ := DecisionLockRepository.getForDecision_some hlock
  exact ⟨kept_iff.mp hworkspace, l, hl, rfl, hid⟩

/-- Whatever becomes of the exports, they are of what they were. -/
theorem Gateway.World.Inv.withExports (h : s.Inv dep) {rows : List DecisionExport}
    (hrows : ∀ e ∈ rows, s.Exported e ∨ s.Requests e) :
    World.Inv dep { s with exports := rows } := by
  have hplace : ∀ e ∈ rows, Kept s.db.workspaces e.workspaceId ∧
      ∃ l ∈ s.db.decisionLocks, l.id = e.decisionLockId ∧ l.decisionId = e.decisionId := by
    intro e he
    rcases hrows e he with ⟨e₀, he₀, hw, hd, hl⟩ | hnew
    · rw [hw, hd, hl]
      refine ⟨?_, h.exports e₀ he₀⟩
      have hmem : (s.cascade s.actions).Has (.decisionExport e₀) := by
        rw [h.valid.cascade]
        exact he₀
      rw [World.cascade_beside rfl, h.valid.cascade] at hmem
      exact hmem.2 _ List.mem_cons_self
    · exact hnew.lock
  refine ⟨h.reachable, h.actions, fun e he => (hplace e he).2, ?_⟩
  refine ⟨h.valid.pkComments, h.valid.pkConnections, ?_, ?_⟩
  · have hkept : rows.filter (fun e => inWorkspace s.db.toTables e.workspaceId) = rows :=
      List.filter_eq_self.mpr fun e he => inWorkspace_iff.mpr (hplace e he).1
    show { s.cascade s.actions with
      exports := rows.filter fun e => inWorkspace s.db.toTables e.workspaceId } = _
    rw [h.valid.cascade, hkept]
  · refine List.all_eq_true.mpr fun e he => ?_
    obtain ⟨-, l, hl, hid, hdid⟩ := hplace e he
    rw [Bool.and_eq_true, kept_iff, kept_iff, ← hdid]
    exact ⟨s.db.valid.fkDecisionLocksDecision l hl, l, hl, hid⟩

theorem Gateway.World.Reachable.inv (h : World.Reachable dep s) : s.Inv dep := by
  induction h with
  | empty => exact World.inv_empty
  | request op _ ih => exact ih.exec op
  | exports rows _ hrows ih => exact ih.withExports hrows
  | @others s s' _ hactions hexports hvalid ih =>
      have hdb : s'.db = s.db := congrArg ActionDb.db hactions
      refine ⟨hdb ▸ ih.reachable, ?_, ?_, hvalid⟩
      · rw [hactions, hdb]
        exact ih.actions
      · rw [hexports, hdb]
        exact ih.exports

end

/-! ## The deletions -/

/-- The row that an operation is to delete. -/
def Op.root : Op → Option Key
  | deleteWorkspace _ w => some (.workspace w)
  | deleteDecision _ _ d => some (.decision d)
  | deleteProposal _ _ _ p => some (.proposal p)
  | _ => none

/-- The guards let the deletion through: the role, and the status DRAFT. -/
def Op.MayDelete (db : Db) : Op → Prop
  | deleteWorkspace user w => ∃ c, InWorkspace user.id w db db c ∧
      canDeleteWorkspace c.membership.role
  | deleteDecision user w d => ∃ c, InContext user.id w d db db db c ∧
      canDeleteDecisions c.membership.role ∧ c.decision.status = .draft
  | deleteProposal user w d p => ∃ c proposal, InContext user.id w d db db db c ∧
      c.decision.status ∈ ProposalService.mutableDecisionStatuses ∧
      ProposalRepository.getForDecision d p db = some proposal ∧
      canManageProposal c.membership.role proposal.createdById user.id ∧ proposal.status = .draft
  | _ => False

/-- What stops a deletion that the guards let through. -/
def Op.Referenced (db : Db) : Op → Prop
  | deleteWorkspace _ w => ∃ o ∈ db.votingSessionProposals, ∃ p ∈ db.proposals,
      p.id = o.proposalId ∧
      ∃ d ∈ db.decisions, d.id = p.decisionId ∧ d.workspaceId = w
  | deleteDecision _ _ d => ∃ r ∈ db.decisionRevisions, r.successorDecisionId = d
  | deleteProposal _ _ _ p => ∃ o ∈ db.votingSessionProposals, o.proposalId = p
  | _ => False

/-- **All or an error**: the row is removed with everything that belongs to it, or the
service has raised an error of its own and nothing has changed. -/
def Op.AllOrError (dep : Deployment) (k : Key) (s : World) (op : Op) : Prop :=
  let r := s.exec dep (.core op)
  (∃ e, r.1 = .error e ∧ e.Domain ∧ r.2 = s) ∨ (r.1 = .ok (.inl .done) ∧ s.Removed k r.2)

section
variable {dep : Deployment} {s : World} {op : Op} {k : Key} {p : Query (Outcome Unit)}

theorem Gateway.run_answering (hprogram : op.program dep = answering (fun _ => .done) p) :
    (program dep (.core op)).run s =
      Except.mapError id (Except.map (Intent.lift World.actions id id)
        (Except.map (Intent.map Sum.inl) (Except.mapError ActionError.service
          (Except.map (Intent.lift ActionDb.db ActionError.service ActionWrite.core)
            (Except.map (Intent.map fun _ => Response.done) (p.run s.db)))))) := by
  rw [← Request.run_map (fun _ => Response.done) p, ← answering, ← hprogram]
  have hlift : (Request.lift ActionDb.db ActionError.service ActionWrite.core
      (op.program dep)).run s.actions = _ := Request.run_lift _ _ _ _ _
  rw [show s.db = s.actions.db from rfl, ← hlift, ← Request.run_map]
  exact Request.run_lift _ _ _ _ _

/-- What the service raises is an error of its own. -/
theorem Op.allOrError_of_error (hprogram : op.program dep = answering (fun _ => .done) p)
    (hraises : p.Raises ServiceError.Domain) {e : ServiceError} (h : p.run s.db = .error e) :
    op.AllOrError dep k s := by
  have hrun : (Gateway.program dep (.core op)).run s = .error (.service e) := by
    rw [run_answering hprogram, h]
    rfl
  have hexec := Request.exec_of_error World.commit hrun
  exact Or.inl ⟨.service e, congrArg Prod.fst hexec, hraises s.db e h, congrArg Prod.snd hexec⟩

/-- A commit that the core rejects is no error of the service. -/
theorem Op.not_allOrError (hprogram : op.program dep = answering (fun _ => .done) p)
    {ws : List Write} (h : p.run s.db = .ok (commitOnly ws))
    (hc : s.db.commit ws = .error .integrity) : ¬ op.AllOrError dep k s := by
  have hrun := run_answering (s := s) hprogram
  rw [h] at hrun
  have hstore : World.commit (.core ws) s = .error .integrity := by
    have hcore : s.actions.db.commit ws = .error .integrity := hc
    simp [World.commit, ActionDb.commit, ActionWrite.stale, ActionWrite.commitCore, hcore]
  rcases Request.exec_commit World.commit hrun with ⟨s', hc', -⟩ | ⟨e, he, hexec⟩
  · cases hstore.symm.trans hc'
  · cases hstore.symm.trans he
    have hraised : (s.exec dep (.core op)).1 = .error (.service (.database .integrity)) :=
      congrArg Prod.fst hexec
    rintro (⟨e, he, hdomain, -⟩ | ⟨hok, -⟩)
    · rw [hraised] at he
      cases he
      exact hdomain
    · rw [hraised] at hok
      cases hok

/-- A deletion that the core commits is committed with all tables. -/
theorem Op.allOrError_of_commit (hprogram : op.program dep = answering (fun _ => .done) p)
    {ws : List Write} (h : p.run s.db = .ok (commitOnly ws)) (hinv : s.Inv dep) {db' : Db}
    (hc : s.db.commit ws = .ok db') (hroot : k.isRoot)
    (hleft : s.db.toTables.Left k db'.toTables) (hsub : s.db.toTables.Sub db'.toTables)
    (hlocks : db'.decisionLocks = s.db.decisionLocks)
    (hreviews : db'.decisionReviews = s.db.decisionReviews)
    (hrevisions : db'.decisionRevisions = s.db.decisionRevisions) : op.AllOrError dep k s := by
  have hrun := run_answering (s := s) hprogram
  rw [h] at hrun
  -- decisions with a lock stay
  have hkept : ∀ l ∈ s.db.decisionLocks, Kept db'.decisions l.decisionId := by
    intro l hl
    exact db'.valid.fkDecisionLocksDecision l (hlocks ▸ hl)
  have hvalid : ActionConstraints db'.toTables s.actions.implementationActions :=
    { s.actions.valid with
      fkImplementationActionsDecision := fun a ha => by
        obtain ⟨l, hl, hid⟩ := hinv.actions a ha
        exact hid ▸ hkept l hl
      fkImplementationActionsCreatedBy :=
        s.actions.valid.fkImplementationActionsCreatedBy.sublist (.refl _) hsub.users
      fkImplementationActionsAssignee :=
        s.actions.valid.fkImplementationActionsAssignee.sublist (.refl _) hsub.users }
  let actions : ActionDb := ⟨db', s.actions.implementationActions, s.actions.fits, hvalid⟩
  have hexports : s.exportsStand db' := by
    refine List.all_eq_true.mpr fun e he => ?_
    obtain ⟨l, hl, hid, hdid⟩ := hinv.exports e he
    rw [Bool.and_eq_true, kept_iff, kept_iff, ← hdid]
    exact ⟨hkept l hl, l, hlocks ▸ hl, hid⟩
  have hstore : World.commit (.core ws) s = .ok (s.cascade actions) := by
    have hactions : s.actions.commit (.core ws) = .ok actions := by
      have hcore : s.actions.db.commit ws = .ok db' := hc
      simp only [ActionDb.commit, ActionWrite.stale, ActionWrite.commitCore, ActionWrite.run, hcore,
        Bool.false_eq_true, if_false]
      exact (dif_pos s.actions.fits).trans (dif_pos hvalid)
    simp only [World.commit, hactions]
    exact if_pos hexports
  rcases Request.exec_commit World.commit hrun with ⟨s', hc', hexec⟩ | ⟨e, he, -⟩
  · cases hstore.symm.trans hc'
    refine Or.inr ?_
    rw [show s.exec dep (.core op) = _ from hexec]
    exact ⟨rfl, World.removed hinv.valid hroot
      ⟨hleft, hsub.users, hlocks, hreviews, hrevisions, rfl⟩⟩
  · cases hstore.symm.trans he

/-! ## The guards -/

variable {db : Db} {user : User} {w d x : UUID} {i : Outcome Unit}

theorem WorkspaceService.delete_run : (WorkspaceService.delete user w).run db = .ok i ↔
    (Op.deleteWorkspace user w).MayDelete db ∧ i = commitOnly [.deleteWorkspace w] := by
  simp only [delete, requireMembership, run_bind_ok, workspaceContext_run_iff, run_require_ok,
    run_pure_ok, Op.MayDelete]
  constructor
  · rintro ⟨c, hc, -, hrole, rfl⟩
    have hid : c.workspace.id = w := (find_some hc.workspace).2
    exact ⟨⟨c, hc, hrole⟩, by rw [hid]⟩
  · rintro ⟨⟨c, hc, hrole⟩, rfl⟩
    have hid : c.workspace.id = w := (find_some hc.workspace).2
    exact ⟨c, hc, (), hrole, by rw [hid]⟩

theorem DecisionService.delete_run : (DecisionService.delete user w d).run db = .ok i ↔
    (Op.deleteDecision user w d).MayDelete db ∧ i = commitOnly [.deleteDecision d] := by
  simp only [delete, requireMembership, requireDecision, run_bind_ok, workspaceContext_run_iff,
    run_require_ok, run_query_ok, run_orThrow_ok, run_pure_ok, Op.MayDelete]
  constructor
  · rintro ⟨c, hc, -, hrole, decision, ⟨_, rfl, hd⟩, -, hdraft, rfl⟩
    obtain ⟨-, hid, -⟩ := DecisionRepository.getForWorkspace_some hd
    exact ⟨⟨⟨c.membership, decision⟩, ⟨⟨_, hc.workspace⟩, hc.membership, hd⟩, hrole, hdraft⟩,
      by rw [hid]⟩
  · rintro ⟨⟨c, hc, hrole, hdraft⟩, rfl⟩
    obtain ⟨-, hid, -⟩ := DecisionRepository.getForWorkspace_some hc.decision
    obtain ⟨row, hrow⟩ := hc.workspace
    exact ⟨⟨row, c.membership⟩, ⟨hrow, hc.membership⟩, (), hrole, c.decision, ⟨_, rfl, hc.decision⟩,
      (), hdraft, by rw [hid]⟩

theorem ProposalService.delete_run : (ProposalService.delete user w d x).run db = .ok i ↔
    (Op.deleteProposal user w d x).MayDelete db ∧ i = commitOnly [.deleteProposal x] := by
  simp only [delete, context, requireMutableDecision, requireProposal, run_bind_ok,
    decisionContext_run_iff, run_require_ok, run_query_ok, run_orThrow_ok, run_pure_ok,
    Op.MayDelete]
  constructor
  · rintro ⟨c, hc, -, hmutable, proposal, ⟨_, rfl, hp⟩, -, hmanage, -, hdraft, rfl⟩
    obtain ⟨-, hid, -⟩ := ProposalRepository.getForDecision_some hp
    exact ⟨⟨c, proposal, hc, hmutable, hp, hmanage, hdraft⟩, by rw [hid]⟩
  · rintro ⟨⟨c, proposal, hc, hmutable, hp, hmanage, hdraft⟩, rfl⟩
    obtain ⟨-, hid, -⟩ := ProposalRepository.getForDecision_some hp
    exact ⟨c, hc, (), hmutable, proposal, ⟨_, rfl, hp⟩, (), hmanage, (), hdraft, by rw [hid]⟩

theorem WorkspaceService.delete_raises :
    (WorkspaceService.delete user w).Raises ServiceError.Domain :=
  (workspaceContext_raises trivial).bind fun _ => (raises_require trivial).bind fun _ =>
    raises_pure _

theorem DecisionService.delete_raises :
    (DecisionService.delete user w d).Raises ServiceError.Domain :=
  (workspaceContext_raises trivial).bind fun _ => (raises_require trivial).bind fun _ =>
    ((raises_query _).bind fun _ => raises_orThrow trivial).bind fun _ =>
      (raises_require trivial).bind fun _ => raises_pure _

theorem ProposalService.delete_raises :
    (ProposalService.delete user w d x).Raises ServiceError.Domain :=
  (decisionContext_raises trivial trivial).bind fun _ => (raises_require trivial).bind fun _ =>
    ((raises_query _).bind fun _ => raises_orThrow trivial).bind fun _ =>
      (raises_require trivial).bind fun _ => (raises_require trivial).bind fun _ => raises_pure _

/-! ## All or an error -/

/-- A deletion is all or an error where its write meets no RESTRICT reference. -/
theorem Op.allOrError_iff (hprogram : op.program dep = answering (fun _ => .done) p)
    (hraises : p.Raises ServiceError.Domain) {x : Write}
    (hrun : ∀ i, p.run s.db = .ok i ↔ op.MayDelete s.db ∧ i = commitOnly [x])
    (hstale : x.stale s.db.toTables = false)
    (hrestricted : op.MayDelete s.db → (x.restricted s.db.toTables ↔ op.Referenced s.db))
    (hcommit : p.run s.db = .ok (commitOnly [x]) → x.restricted s.db.toTables = false →
      op.AllOrError dep k s) :
    op.AllOrError dep k s ↔ (op.MayDelete s.db → ¬ op.Referenced s.db) := by
  cases hp : p.run s.db with
  | error e =>
      refine iff_of_true (Op.allOrError_of_error hprogram hraises hp) fun hmay => ?_
      have hok := (hrun (commitOnly [x])).mpr ⟨hmay, rfl⟩
      rw [hp] at hok
      nomatch hok
  | ok i =>
      obtain ⟨hmay, rfl⟩ := (hrun i).mp hp
      constructor
      · intro hall _ hreferenced
        have hr : x.restricted s.db.toTables := (hrestricted hmay).mpr hreferenced
        have hc : s.db.commit [x] = .error .integrity := by simp [Db.commit, hstale, hr]
        exact Op.not_allOrError hprogram hp hc hall
      · intro h
        have hr : ¬ x.restricted s.db.toTables := fun hr => h hmay ((hrestricted hmay).mp hr)
        exact hcommit hp (Bool.eq_false_iff.mpr hr)

theorem deleteWorkspace_allOrError_iff (hs : s.Inv dep) :
    (Op.deleteWorkspace user w).AllOrError dep (.workspace w) s ↔
      ((Op.deleteWorkspace user w).MayDelete s.db →
        ¬ (Op.deleteWorkspace user w).Referenced s.db) := by
  refine Op.allOrError_iff (x := .deleteWorkspace w) rfl WorkspaceService.delete_raises
    (fun _ => WorkspaceService.delete_run) rfl ?_ ?_
  · intro _
    refine hs.reachable.restricts_workspace_iff.trans ?_
    simp only [Db.OffersIn, Tables.decisionsOf, List.any_eq_true, Bool.and_eq_true,
      decide_eq_true_eq, Op.Referenced]
  · intro hp hr
    obtain ⟨db', hc, ht⟩ := Db.commit_deleteWorkspace hr
    refine Op.allOrError_of_commit rfl hp hs hc rfl ?_ ?_ ?_ ?_ ?_
    · exact ht ▸ withoutWorkspace_left s.db.valid
    · exact ht ▸ withoutWorkspace_sub
    all_goals rw [ht]; rfl

theorem deleteDecision_allOrError_iff (hs : s.Inv dep) :
    (Op.deleteDecision user w d).AllOrError dep (.decision d) s ↔
      ((Op.deleteDecision user w d).MayDelete s.db →
        ¬ (Op.deleteDecision user w d).Referenced s.db) := by
  refine Op.allOrError_iff (x := .deleteDecision d) rfl DecisionService.delete_raises
    (fun _ => DecisionService.delete_run) rfl ?_ ?_
  · rintro ⟨c, hc, -, hdraft⟩
    obtain ⟨hd, rfl, -⟩ := DecisionRepository.getForWorkspace_some hc.decision
    exact hs.reachable.restricts_draft_iff hd hdraft
  · intro hp hr
    obtain ⟨db', hc, ht⟩ := Db.commit_deleteDecision hr
    refine Op.allOrError_of_commit rfl hp hs hc rfl ?_ ?_ ?_ ?_ ?_
    · exact ht ▸ withoutDecisions_left s.db.valid
    · exact ht ▸ withoutDecisions_sub
    all_goals rw [ht]; rfl

theorem deleteProposal_allOrError_iff (hs : s.Inv dep) :
    (Op.deleteProposal user w d x).AllOrError dep (.proposal x) s ↔
      ((Op.deleteProposal user w d x).MayDelete s.db →
        ¬ (Op.deleteProposal user w d x).Referenced s.db) := by
  refine Op.allOrError_iff (x := .deleteProposal x) rfl ProposalService.delete_raises
    (fun _ => ProposalService.delete_run) rfl ?_ ?_
  · rintro ⟨c, proposal, -, -, hp, -, hdraft⟩
    obtain ⟨hmem, rfl, -⟩ := ProposalRepository.getForDecision_some hp
    exact hs.reachable.restricts_proposal_iff hmem hdraft
  · intro hp hr
    obtain ⟨db', hc, ht⟩ := Db.commit_deleteProposal hr
    refine Op.allOrError_of_commit rfl hp hs hc rfl ?_ ?_ ?_ ?_ ?_
    · exact ht ▸ withoutProposals_left s.db.valid
    · exact ht ▸ withoutProposals_sub
    all_goals rw [ht]; rfl

/-- **A deletion is all or an error unless the guards let it through and something refers
to what it deletes**: a revision to the draft, an offer of a session to the proposal that was
reopened, or any offer into the workspace. -/
theorem deletion_allOrError_iff (dep : Deployment) (s : World) (op : Op) (k : Key)
    (hs : World.Reachable dep s) (hop : op.root = some k) :
    op.AllOrError dep k s ↔ (op.MayDelete s.db → ¬ op.Referenced s.db) := by
  cases op with
  | deleteWorkspace user w =>
      cases hop
      exact deleteWorkspace_allOrError_iff hs.inv
  | deleteDecision user w d =>
      cases hop
      exact deleteDecision_allOrError_iff hs.inv
  | deleteProposal user w d p =>
      cases hop
      exact deleteProposal_allOrError_iff hs.inv
  | _ => nomatch hop

end

namespace Sample

/-- All tables after the requests, one after the other. -/
def worldAfter (ops : List Op) : World :=
  ops.foldl (fun s op => (s.exec dep (.core op)).2) World.empty

theorem worldAfter_reachable (ops : List Op) : World.Reachable dep (worldAfter ops) := by
  suffices h : ∀ s, World.Reachable dep s →
      World.Reachable dep (ops.foldl (fun s op => (s.exec dep (.core op)).2) s) from h _ .empty
  induction ops with
  | nil => exact fun _ hs => hs
  | cons op ops ih => exact fun _ hs => ih _ (hs.request (.core op))

/-- The proposal is a draft again, and has never been voted on. -/
def takenBack : World := worldAfter (setUp ++ [reopenProposal])

/-- The proposal is a draft again, and the open session offers it. -/
def takenBackLate : World := worldAfter (setUp ++ [openVote, reopenProposal])

/-- Ada may delete her draft where she is a member and the decision is active. -/
theorem mayDelete {db : Db} (hw : (WorkspaceRepository.getById 10 db).isSome)
    (hm : (WorkspaceRepository.getMembership 10 1 db).map WorkspaceMember.role = some .owner)
    (hd : (DecisionRepository.getForWorkspace 10 20 db).map Decision.status = some .active)
    (hp : (ProposalRepository.getForDecision 20 30 db).map Proposal.status = some .draft) :
    deleteDraft.MayDelete db := by
  obtain ⟨m, hm, hrole⟩ := Option.map_eq_some_iff.mp hm
  obtain ⟨d, hd, hstatus⟩ := Option.map_eq_some_iff.mp hd
  obtain ⟨p, hp, hdraft⟩ := Option.map_eq_some_iff.mp hp
  refine ⟨⟨m, d⟩, p, ⟨Option.isSome_iff_exists.mp hw, hm, hd⟩, ?_, hp, ?_, hdraft⟩
  · rw [hstatus]
    decide
  · rw [hrole]
    rfl

end Sample

/-- The deletion of a draft that an open session offers ends in a commit that is rejected. -/
theorem deletion_rejected : World.Reachable Sample.dep Sample.takenBackLate ∧
    Sample.deleteDraft.root = some (.proposal 30) ∧
      Sample.deleteDraft.MayDelete Sample.takenBackLate.db ∧
        ¬ Sample.deleteDraft.AllOrError Sample.dep (.proposal 30) Sample.takenBackLate := by
  have hreachable : World.Reachable Sample.dep Sample.takenBackLate := Sample.worldAfter_reachable _
  have hmay : Sample.deleteDraft.MayDelete Sample.takenBackLate.db :=
    Sample.mayDelete (by decide +kernel) (by decide +kernel) (by decide +kernel) (by decide +kernel)
  refine ⟨hreachable, rfl, hmay, fun hall => ?_⟩
  exact (deleteProposal_allOrError_iff hreachable.inv).mp hall hmay
    (show ∃ o ∈ Sample.takenBackLate.db.votingSessionProposals, o.proposalId = 30 by decide +kernel)

/-- A draft that nothing refers to is deleted with all that belongs to it. -/
theorem deletion_sample : World.Reachable Sample.dep Sample.takenBack ∧
    Sample.deleteDraft.MayDelete Sample.takenBack.db ∧
      Sample.deleteDraft.AllOrError Sample.dep (.proposal 30) Sample.takenBack := by
  have hreachable : World.Reachable Sample.dep Sample.takenBack := Sample.worldAfter_reachable _
  refine ⟨hreachable, Sample.mayDelete (by decide +kernel) (by decide +kernel) (by decide +kernel)
    (by decide +kernel), ?_⟩
  refine (deletion_allOrError_iff Sample.dep Sample.takenBack Sample.deleteDraft (.proposal 30)
    hreachable rfl).mpr fun _ => ?_
  show ¬ ∃ o ∈ Sample.takenBack.db.votingSessionProposals, o.proposalId = 30
  decide +kernel

end ForkRoom
