/-
# `Proof.ObjectionLog` — the status events of an objection tell its story

    open ──→ resolved ──→ open ──→ dismissed ──→ …
         e₁           e₂       e₃

One method writes the row and the event, in one commit.  The events of an objection
are a path of legal transitions from `open` to the status of the row, in the order in
which they were inserted; the columns of the resolution are those of the last one.
What takes an objection away takes its events along, so a later objection starts with
none.
-/
import ForkRoom.System.Steps

namespace ForkRoom

open Optimistic Rows

/-! ## The log -/

/-- The events lead from one status to another, each by a legal transition. -/
inductive EventPath : ObjectionStatus → List ObjectionStatusEvent → ObjectionStatus → Prop
  | nil (s : ObjectionStatus) : EventPath s [] s
  | cons {e : ObjectionStatusEvent} {es : List ObjectionStatusEvent} {s : ObjectionStatus}
      (hstep : e.toStatus ∈ ObjectionService.objectionTransitions e.fromStatus)
      (hrest : EventPath e.toStatus es s) : EventPath e.fromStatus (e :: es) s

/-- One more event at the end. -/
theorem EventPath.snoc {s : ObjectionStatus} {es : List ObjectionStatusEvent}
    {e : ObjectionStatusEvent} (h : EventPath s es e.fromStatus)
    (hstep : e.toStatus ∈ ObjectionService.objectionTransitions e.fromStatus) :
    EventPath s (es ++ [e]) e.toStatus := by
  generalize hs : e.fromStatus = s' at h
  induction h with
  | nil s => exact hs ▸ .cons hstep (.nil _)
  | cons hfirst _ ih => exact .cons hfirst (ih hs)

/-- The events of an objection, as they were inserted. -/
def Tables.eventsOf (t : Tables) (objectionId : UUID) : List ObjectionStatusEvent :=
  t.objectionStatusEvents.filter fun e => e.objectionId = objectionId

theorem Tables.mem_eventsOf {t : Tables} {objectionId : UUID} {e : ObjectionStatusEvent} :
    e ∈ t.eventsOf objectionId ↔ e ∈ t.objectionStatusEvents ∧ e.objectionId = objectionId := by
  simp [eventsOf]

/-- The columns of the resolution, as the last event has them. -/
structure Objection.ResolvedBy (o : Objection) (e : ObjectionStatusEvent) : Prop where
  resolutionNote : o.resolutionNote = if e.toStatus ≠ .open then some e.note else none
  resolvedById : o.resolvedById = if e.toStatus ≠ .open then some e.actorId else none

/-- The log of the objection is faithful. -/
structure Objection.Logged (t : Tables) (o : Objection) : Prop where
  path : EventPath .open (t.eventsOf o.id) o.status
  last : ∀ e ∈ (t.eventsOf o.id).getLast?, o.ResolvedBy e

/-! ## The steps -/

/-- The text of an objection and its severity are the same. -/
def Objection.SameText (o o' : Objection) : Prop :=
  o'.severity = o.severity ∧ o'.title = o.title ∧ o'.description = o.description

/-- The columns of the status and of the resolution are the same. -/
structure Objection.SameStatus (o o' : Objection) : Prop where
  id : o'.id = o.id
  status : o'.status = o.status
  resolutionNote : o'.resolutionNote = o.resolutionNote
  resolvedById : o'.resolvedById = o.resolvedById

/-- The objection is moved, and the event says how. -/
structure Objection.MovedBy (e : ObjectionStatusEvent) (o o' : Objection) : Prop where
  id : o'.id = o.id
  objectionId : e.objectionId = o.id
  from_ : e.fromStatus = o.status
  to_ : o'.status = e.toStatus
  legal : e.toStatus ∈ ObjectionService.objectionTransitions e.fromStatus
  resolved : o'.ResolvedBy e
  text : o.SameText o'

/-- The actor of the event is a member of the workspace of the objection, with a role that
permits the move. -/
def Db.Permits (db : Db) (o : Objection) (e : ObjectionStatusEvent) : Prop :=
  ∃ p ∈ db.proposals, p.id = o.proposalId ∧ ∃ d ∈ db.decisions, d.id = p.decisionId ∧
    ∃ m ∈ db.workspaceMembers, m.workspaceId = d.workspaceId ∧ m.userId = e.actorId ∧
      canTransitionObjection m.role o.createdById e.actorId e.toStatus = true

/-- What an atomic operation can do to objections and their events. -/
inductive LogStep (db db' : Db) : Prop where
  | same (ho : db'.objections = db.objections)
      (he : db'.objectionStatusEvents = db.objectionStatusEvents)
  | add (row : Objection) (hs : row.status = .open) (ho : db'.objections = db.objections ++ [row])
      (he : db'.objectionStatusEvents = db.objectionStatusEvents)
  | edit (o o' : Objection) (hmem : o ∈ db.objections) (hopen : o.status = .open)
      (hsame : o.SameStatus o') (ho : db'.objections = replace o o' db.objections)
      (he : db'.objectionStatusEvents = db.objectionStatusEvents)
  | move (o o' : Objection) (e : ObjectionStatusEvent) (hmem : o ∈ db.objections)
      (hmove : o.MovedBy e o') (hpermits : db.Permits o e)
      (ho : db'.objections = replace o o' db.objections)
      (he : db'.objectionStatusEvents = db.objectionStatusEvents ++ [e])
  | delete (gone : Objection → Bool) (ho : db'.objections = db.objections.filter fun o => !gone o)
      (he : db'.objectionStatusEvents = db.objectionStatusEvents.filter fun e =>
        !(db.objections.any fun o => o.id = e.objectionId && gone o))

/-- A changed objection is written as it is, up to `updated_at`. -/
theorem Db.setObjection_written {db : Db} {o : Objection} (ho : o ∈ db.objections)
    (current : Objection) (at_ : Datetime) (hid : current.id = o.id)
    (hp : current.proposalId = o.proposalId) (hu : current.createdById = o.createdById)
    (hc : current.createdAt = o.createdAt) :
    ∃ t, (Write.setObjection o current at_).run db.toTables =
      { db.toTables with
        objections := replace o { current with updatedAt := t } db.objections } := by
  obtain ⟨o', ho', heq⟩ := update_fresh db.valid.pkObjections ho current (o.merge current at_)
  rcases ho' with ⟨rfl, rfl⟩ | rfl
  · refine ⟨current.updatedAt, ?_⟩
    rw [Write.run, heq]
  · refine ⟨at_, ?_⟩
    have hmerge : o.merge current at_ o = { current with updatedAt := at_ } := by
      simp only [Objection.merge, column_fresh, ← hid, ← hp, ← hu, ← hc]
    rw [Write.run, heq, hmerge]

/-- Writes that leave objections and their events alone. -/
def Write.sparesObjections : Write → Bool
  | deleteWorkspace _ | deleteDecision _ | deleteProposal _ | addObjection _ | setObjection _ _ _
  | addStatusEvent _ => false
  | _ => true

theorem Tables.write_objections {ws : List Write} (t : Tables)
    (h : ∀ w ∈ ws, w.sparesObjections) :
    ((t.write ws).objections, (t.write ws).objectionStatusEvents) =
      (t.objections, t.objectionStatusEvents) := by
  refine Tables.write_keeps (fun t => (t.objections, t.objectionStatusEvents)) ?_ t h
  intro w t hw
  cases w <;> first | rfl | nomatch hw

/-- Targets of which no write takes objections along. -/
def Target.sparesObjections : Target → Bool
  | workspaces | decisions | proposals | objections | objectionStatusEvents => false
  | _ => true

theorem Write.sparesObjections_of_target {w : Write} (h : w.target.sparesObjections) :
    w.sparesObjections := by
  cases w <;> first | rfl | nomatch h

section
variable {dep : Deployment} {op : Op} {db db' : Db} {ss : List Db} {ws : List Write}
  {rejected : CommitError → ServiceError} {env : Env} {user : User} {w d p o : UUID}

theorem LogStep.of_spares (hc : db.commit ws = .ok db') (h : ∀ w ∈ ws, w.sparesObjections) :
    LogStep db db' := by
  obtain ⟨ho, he⟩ := Prod.mk.inj (Tables.write_objections db.toTables h)
  have heq := (Db.commit_ok hc).1
  exact .same (by rw [heq, ho]) (by rw [heq, he])

theorem ObjectionService.update_log {payload : ObjectionUpdateRequest}
    {ok : Db → Except ServiceError Objection}
    (h : (ObjectionService.update env user w d p o payload).Ends ss
      (.ok (.commit ws ok rejected)))
    (hss : ∀ s ∈ ss, db = s) (hc : db.commit ws = .ok db') : LogStep db db' := by
  obtain ⟨_, _, _, _, _, c, ob, rfl, -, -, ho, -, hopen, rfl⟩ := ObjectionService.update_commits h
  simp only [List.forall_mem_cons] at hss
  obtain ⟨rfl, rfl, rfl, rfl, rfl, -⟩ := hss
  obtain ⟨ho, -, -⟩ := ObjectionRepository.getForProposal_some ho
  obtain ⟨t, hrun⟩ := Db.setObjection_written ho (ObjectionService.assign payload ob) env.dbNow
    rfl rfl rfl rfl
  have heq := (Db.commit_ok hc).1
  rw [Tables.write, List.foldl, hrun] at heq
  exact .edit ob { ObjectionService.assign payload ob with updatedAt := t } ho hopen
    ⟨rfl, rfl, rfl, rfl⟩ (by rw [heq]; rfl) (by rw [heq]; rfl)

theorem ObjectionService.transition_log {payload : ObjectionTransitionRequest}
    {ok : Db → Except ServiceError Objection}
    (h : (ObjectionService.transition env user w d p o payload).Ends ss
      (.ok (.commit ws ok rejected)))
    (hss : ∀ s ∈ ss, db = s) (hc : db.commit ws = .ok db') : LogStep db db' := by
  obtain ⟨_, _, _, _, _, c, ob, rfl, hctx, -, ho, hlegal, hpermits, rfl⟩ :=
    ObjectionService.transition_commits h
  simp only [List.forall_mem_cons] at hss
  obtain ⟨rfl, rfl, rfl, rfl, rfl, -⟩ := hss
  obtain ⟨ho, -, hproposal⟩ := ObjectionRepository.getForProposal_some ho
  obtain ⟨hd, hdid, hdw⟩ := DecisionRepository.getForWorkspace_some hctx.decision
  obtain ⟨hp, hpid, hpd⟩ := ProposalRepository.getForDecision_some hctx.proposal
  obtain ⟨hm, hmw, hmu⟩ := WorkspaceRepository.getMembership_some hctx.membership
  obtain ⟨t, hrun⟩ := Db.setObjection_written ho
    (ObjectionService.moved ob user.id payload.status payload.note env.now)
    env.dbNow rfl rfl rfl rfl
  have heq := (Db.commit_ok hc).1
  rw [Tables.write, List.foldl, List.foldl, hrun] at heq
  refine .move ob
    { ObjectionService.moved ob user.id payload.status payload.note env.now with updatedAt := t }
    ⟨env.newId, ob.id, user.id, ob.status, payload.status, payload.note, env.dbNow⟩ ho
    ⟨rfl, rfl, rfl, rfl, hlegal, ⟨rfl, rfl⟩, rfl, rfl, rfl⟩ ?_ (by rw [heq]; rfl) (by rw [heq]; rfl)
  exact ⟨c.proposal, hp, hpid.trans hproposal.symm, c.decision, hd, hdid.trans hpd.symm,
    c.membership, hm, hmw.trans hdw.symm, hmu, hpermits⟩

/-- What a commit of an operation does to objections and their events. -/
theorem Op.commit_log {ok : Db → Except ServiceError Response}
    (hends : (op.program dep).Ends ss (.ok (.commit ws ok rejected))) (hss : ∀ s ∈ ss, db = s)
    (hc : db.commit ws = .ok db') : LogStep db db' := by
  have hfoot := Op.commits_footprint hends
  have heq := (Db.commit_ok hc).1
  by_cases hspares : ∀ x ∈ op.footprint, x.sparesObjections
  · exact .of_spares hc fun x hx => Write.sparesObjections_of_target (hspares _ (hfoot x hx))
  simp only [footprint] at hspares
  cases op <;> (try (exfalso; simp [Target.sparesObjections] at hspares; done)) <;>
    obtain ⟨_, h⟩ := Request.map_commits hends
  case createWorkspace =>
    exact .of_spares hc (by simp [WorkspaceService.create_commits h, Write.sparesObjections])
  case updateWorkspace =>
    obtain ⟨_, _, _, -, -, -, rfl⟩ := WorkspaceService.update_commits h
    exact .of_spares hc (by simp [Write.sparesObjections])
  case deleteWorkspace =>
    obtain ⟨_, _, c, -, -, -, rfl⟩ := WorkspaceService.delete_commits h
    exact .delete (fun o => db.proposalsOf (db.decisionsOf c.workspace.id) o.proposalId)
      (by rw [heq]; rfl) (by rw [heq]; rfl)
  case createDecision =>
    obtain ⟨_, _, _, _, -, -, -, rfl, -⟩ := DecisionService.create_commits h
    exact .of_spares hc (by simp [Write.sparesObjections])
  case updateDecision =>
    obtain ⟨_, _, _, _, -, -, -, -, -, rfl⟩ := DecisionService.update_commits h
    exact .of_spares hc (by simp [Write.sparesObjections])
  case transitionDecision =>
    obtain ⟨_, _, _, _, _, -, -, -, -, rfl⟩ := DecisionService.transition_commits h
    refine .of_spares hc fun x hx => ?_
    rcases List.mem_append.mp hx with hx | hx
    · split at hx
      · rw [mem_stage hx]
        rfl
      · cases hx
    · rw [List.mem_singleton.mp hx]
      rfl
  case deleteDecision =>
    obtain ⟨_, _, _, c, -, -, -, -, rfl⟩ := DecisionService.delete_commits h
    exact .delete (fun o => db.proposalsOf (fun d => d = c.decision.id) o.proposalId)
      (by rw [heq]; rfl) (by rw [heq]; rfl)
  case createProposal =>
    obtain ⟨_, _, _, _, _, -, -, -, -, rfl, -⟩ := ProposalService.create_commits h
    exact .of_spares hc (by simp [Write.sparesObjections])
  case updateProposal =>
    obtain ⟨_, _, _, _, _, _, -, -, -, -, -, -, rfl⟩ := ProposalService.update_commits h
    exact .of_spares hc (by simp [Write.sparesObjections])
  case transitionProposal =>
    obtain ⟨_, _, _, _, _, _, -, -, -, -, -, -, rfl⟩ := ProposalService.transition_commits h
    exact .of_spares hc (by simp [Write.sparesObjections])
  case deleteProposal =>
    obtain ⟨_, _, _, _, _, pr, -, -, -, -, -, -, rfl⟩ := ProposalService.delete_commits h
    exact .delete (fun o => o.proposalId = pr.id) (by rw [heq]; rfl) (by rw [heq]; rfl)
  case createObjection =>
    obtain ⟨_, _, _, _, _, row, -, -, -, -, -, rfl, -, -, -, -, hs⟩ :=
      ObjectionService.create_commits h
    exact .add row hs (by rw [heq]; rfl) (by rw [heq]; rfl)
  case updateObjection => exact ObjectionService.update_log h hss hc
  case transitionObjection => exact ObjectionService.transition_log h hss hc
  case createLock =>
    obtain ⟨_, _, _, _, _, _, _, _, _, _, _, _, _, _, _, _, _, _, _, -, -, rfl⟩ :=
      DecisionLockService.create_commits h
    refine .of_spares hc fun x hx => ?_
    rcases List.mem_append.mp hx with hx | hx
    · rw [mem_stage hx]
      rfl
    · simp only [List.mem_cons, List.not_mem_nil, or_false] at hx
      rcases hx with rfl | rfl <;> rfl
  case completeReview =>
    obtain ⟨_, _, _, _, _, _, _, -, -, -, -, -, -,
      ⟨-, -, rfl⟩ | ⟨-, _, _, _, _, _, -, -, -, rfl⟩⟩ :=
      ActionReviewService.completeReview_commits h <;>
      exact .of_spares hc (by simp [Write.sparesObjections])

theorem Op.exec_log (dep : Deployment) (op : Op) (db : Db) : LogStep db (op.exec dep db).2 := by
  rcases Request.exec_cases Db.commit (op.program dep) db with h | ⟨_, _, _, _, hss, hends, hc⟩
  · rw [Op.exec, h]
    exact .same rfl rfl
  · exact Op.commit_log hends hss hc

end

/-! ## The invariant -/

section
variable {t t' : Tables} {db db' : Db} {o o' : Objection} {e : ObjectionStatusEvent}

/-- A log that has not changed, of an objection whose status has not. -/
theorem Objection.Logged.of_sameStatus (h : o.Logged t) (hsame : o.SameStatus o')
    (hev : t'.eventsOf o.id = t.eventsOf o.id) : o'.Logged t' := by
  constructor
  · rw [hsame.id, hev, hsame.status]
    exact h.path
  · rw [hsame.id, hev]
    intro e he
    have hlast := h.last e he
    exact ⟨hsame.resolutionNote ▸ hlast.resolutionNote, hsame.resolvedById ▸ hlast.resolvedById⟩

theorem Objection.Logged.of_eventsOf (h : o.Logged t) (hev : t'.eventsOf o.id = t.eventsOf o.id) :
    o.Logged t' :=
  h.of_sameStatus ⟨rfl, rfl, rfl, rfl⟩ hev

/-- The move adds its event at the end. -/
theorem Objection.Logged.moved (h : o.Logged t) (hmove : o.MovedBy e o')
    (he : t'.objectionStatusEvents = t.objectionStatusEvents ++ [e]) : o'.Logged t' := by
  have hev : t'.eventsOf o.id = t.eventsOf o.id ++ [e] := by
    simp [Tables.eventsOf, he, List.filter_append, hmove.objectionId]
  constructor
  · rw [hmove.id, hev, hmove.to_]
    exact EventPath.snoc (hmove.from_ ▸ h.path) hmove.legal
  · rw [hmove.id, hev]
    intro e' he'
    rw [List.getLast?_concat, Option.mem_some] at he'
    exact he' ▸ hmove.resolved

/-- **One step keeps every log faithful.** -/
theorem LogStep.logged (hstep : LogStep db db')
    (h : ∀ o ∈ db.objections, o.Logged db.toTables) :
    ∀ o ∈ db'.objections, o.Logged db'.toTables := by
  have hkept : db'.objectionStatusEvents = db.objectionStatusEvents →
      ∀ id, db'.eventsOf id = db.eventsOf id := by
    intro he id
    rw [Tables.eventsOf, he, Tables.eventsOf]
  intro x hx
  cases hstep with
  | same ho he => exact (h x (ho ▸ hx)).of_eventsOf (hkept he x.id)
  | add row hs ho he =>
      rw [ho] at hx
      rcases List.mem_append.mp hx with hold | hnew
      · exact (h x hold).of_eventsOf (hkept he x.id)
      · rw [List.mem_singleton.mp hnew]
        -- an event of the new objection would refer to one that was there before
        have hnone : db'.eventsOf row.id = [] := by
          rw [hkept he, List.eq_nil_iff_forall_not_mem]
          intro e hmem
          obtain ⟨hmem, hid⟩ := Tables.mem_eventsOf.mp hmem
          obtain ⟨y, hy, hkey⟩ := db.valid.fkObjectionStatusEventsObjection e hmem
          have hrows : Unique Objection.id (db.objections ++ [row]) := ho ▸ db'.valid.pkObjections
          exact hrows.ne_of_append y hy (hkey.trans hid)
        constructor
        · rw [hnone, hs]
          exact .nil _
        · rw [hnone]
          intro e hmem
          nomatch hmem
  | edit o o' hmem _ hsame ho he =>
      rcases (mem_replace hmem).mp (ho ▸ hx) with rfl | ⟨hx, -⟩
      · exact (h o hmem).of_sameStatus hsame (hkept he o.id)
      · exact (h x hx).of_eventsOf (hkept he x.id)
  | move o o' e hmem hmove _ ho he =>
      rcases (mem_replace hmem).mp (ho ▸ hx) with rfl | ⟨hx, hne⟩
      · exact (h o hmem).moved hmove he
      · refine (h x hx).of_eventsOf ?_
        have hother : e.objectionId ≠ x.id := fun hid => hne (hid.symm.trans hmove.objectionId)
        simp [Tables.eventsOf, he, List.filter_append, hother]
  | delete gone ho he =>
      obtain ⟨hx, hstay⟩ := List.mem_filter.mp (ho ▸ hx)
      refine (h x hx).of_eventsOf ?_
      rw [Tables.eventsOf, he, List.filter_filter, Tables.eventsOf]
      refine List.filter_congr fun e _ => ?_
      by_cases hid : e.objectionId = x.id
      · -- the only objection with this id stays
        have hnot : (db.objections.any fun o => o.id = e.objectionId && gone o) = false := by
          rw [List.any_eq_false]
          intro o hmem hgone
          simp only [Bool.and_eq_true, decide_eq_true_eq] at hgone
          rw [eq_of_key db.valid.pkObjections hmem hx (hgone.1.trans hid)] at hgone
          simp [hgone.2] at hstay
        rw [hnot]
        simp
      · simp [hid]

theorem Reachable.logged {dep : Deployment} (h : Reachable dep db) :
    ∀ o ∈ db.objections, o.Logged db.toTables := by
  induction h with
  | empty =>
      intro o ho
      nomatch ho
  | step op _ ih => exact (Op.exec_log dep op _).logged ih

/-! ## What one step does -/

/-- The text of an objection changes while it is open. -/
theorem LogStep.text (hstep : LogStep db db') (ho : o ∈ db.objections) (ho' : o' ∈ db'.objections)
    (hid : o'.id = o.id) : o.SameText o' ∨ o.status = .open := by
  have hsame : o' ∈ db.objections → o.SameText o' ∨ o.status = .open := fun hmem =>
    .inl (eq_of_key db.valid.pkObjections hmem ho hid ▸ ⟨rfl, rfl, rfl⟩)
  -- a replaced row is this one, or another one
  have hreplaced : ∀ {x x' : Objection}, x ∈ db.objections → x'.id = x.id →
      x.SameText x' ∨ x.status = .open → db'.objections = replace x x' db.objections →
      o.SameText o' ∨ o.status = .open := by
    intro x x' hx hxid htext hrows
    rcases (mem_replace hx).mp (hrows ▸ ho') with rfl | ⟨hmem, -⟩
    · exact eq_of_key db.valid.pkObjections hx ho (hxid.symm.trans hid) ▸ htext
    · exact hsame hmem
  cases hstep with
  | same hrows _ => exact hsame (hrows ▸ ho')
  | add row _ hrows _ =>
      have hmem : o ∈ db'.objections := hrows ▸ List.mem_append_left _ ho
      exact .inl (eq_of_key db'.valid.pkObjections ho' hmem hid ▸ ⟨rfl, rfl, rfl⟩)
  | edit x x' hx hopen hedit hrows _ => exact hreplaced hx hedit.id (.inr hopen) hrows
  | move x x' e hx hmove _ hrows _ => exact hreplaced hx hmove.id (.inl hmove.text) hrows
  | delete gone hrows _ => exact hsame (List.mem_filter.mp (hrows ▸ ho')).1

/-- Nobody else dismisses an objection. -/
theorem canTransitionObjection_dismissed {role : WorkspaceRole} {author actor : UUID}
    (h : canTransitionObjection role author actor .dismissed = true) :
    role = .owner ∨ role = .admin := by
  cases role <;> simp [canTransitionObjection] at h ⊢

/-- A new event is permitted at the moment it is made. -/
theorem LogStep.permits (hstep : LogStep db db') (he : e ∈ db'.objectionStatusEvents)
    (hnew : e ∉ db.objectionStatusEvents) :
    ∃ o ∈ db.objections, o.id = e.objectionId ∧ db.Permits o e := by
  cases hstep with
  | same _ hrows => exact absurd (hrows ▸ he) hnew
  | add _ _ _ hrows => exact absurd (hrows ▸ he) hnew
  | edit _ _ _ _ _ _ hrows => exact absurd (hrows ▸ he) hnew
  | move o o' e' hmem hmove hpermits _ hrows =>
      rw [hrows] at he
      rcases List.mem_append.mp he with hold | hlast
      · exact absurd hold hnew
      · rw [List.mem_singleton.mp hlast]
        exact ⟨o, hmem, hmove.objectionId.symm, hpermits⟩
  | delete _ _ hrows => exact absurd (List.mem_filter.mp (hrows ▸ he)).1 hnew

/-- Where the log leads is where it ends. -/
theorem EventPath.last {s s' : ObjectionStatus} {es : List ObjectionStatusEvent}
    (h : EventPath s es s') : s' = (es.getLast?.map (·.toStatus)).getD s := by
  induction h with
  | nil s => rfl
  | @cons e es s hstep hrest ih =>
      rw [ih, List.getLast?_cons]
      cases es.getLast? <;> rfl

end

/-- **The log of an objection.**  In every state that atomic operations reach, the status
events of every objection lead, by legal transitions, from `open` to its status; it has the
columns of a resolution unless it is open, and then those of the last event.  An operation
that dismisses an objection is one of an owner or admin of its workspace at that moment,
and its severity, title and description change in an operation only while it is open. -/
theorem objection_log {dep : Deployment} {db : Db} (hrun : Reachable dep db) :
    (∀ o ∈ db.objections,
      EventPath .open (db.eventsOf o.id) o.status ∧
      (((db.eventsOf o.id).getLast?.map (·.toStatus)).getD .open = o.status) ∧
      (o.resolutionNote.isSome ↔ o.status ≠ .open) ∧
      (o.resolvedById.isSome ↔ o.status ≠ .open) ∧
      (o.resolvedAt.isSome ↔ o.status ≠ .open) ∧
      (o.status ≠ .open → ∃ e ∈ (db.eventsOf o.id).getLast?,
        o.resolutionNote = some e.note ∧ o.resolvedById = some e.actorId)) ∧
    (∀ op : Op, ∀ e ∈ (op.exec dep db).2.objectionStatusEvents, e ∉ db.objectionStatusEvents →
      e.toStatus = .dismissed →
      ∃ o ∈ db.objections, o.id = e.objectionId ∧ ∃ p ∈ db.proposals, p.id = o.proposalId ∧
        ∃ d ∈ db.decisions, d.id = p.decisionId ∧ ∃ m ∈ db.workspaceMembers,
          m.workspaceId = d.workspaceId ∧ m.userId = e.actorId ∧
          (m.role = .owner ∨ m.role = .admin)) ∧
    ∀ op : Op, ∀ o ∈ db.objections, ∀ o' ∈ (op.exec dep db).2.objections, o'.id = o.id →
      (o'.severity = o.severity ∧ o'.title = o.title ∧ o'.description = o.description) ∨
        o.status = .open := by
  refine ⟨fun o ho => ?_, fun op e he hnew hdismissed => ?_, fun op o ho o' ho' hid =>
    (Op.exec_log dep op db).text ho ho' hid⟩
  · have hlog := hrun.logged o ho
    refine ⟨hlog.path, hlog.path.last.symm, ?_, ?_, ?_, ?_⟩
    · rcases db.valid.ckObjectionsResolutionState o ho with ⟨hs, hn, -, -⟩ | ⟨hs, hn, -, -⟩
      · simp [hs, hn]
      · rw [Option.isSome_iff_ne_none]
        exact iff_of_true hn (by rcases hs with hs | hs <;> simp [hs])
    · rcases db.valid.ckObjectionsResolutionState o ho with ⟨hs, -, hu, -⟩ | ⟨hs, -, hu, -⟩
      · simp [hs, hu]
      · rw [Option.isSome_iff_ne_none]
        exact iff_of_true hu (by rcases hs with hs | hs <;> simp [hs])
    · rcases db.valid.ckObjectionsResolutionState o ho with ⟨hs, -, -, ht⟩ | ⟨hs, -, -, ht⟩
      · simp [hs, ht]
      · rw [Option.isSome_iff_ne_none]
        exact iff_of_true ht (by rcases hs with hs | hs <;> simp [hs])
    · intro hs
      have hlast := hlog.path.last
      cases hget : (db.eventsOf o.id).getLast? with
      | none =>
          rw [hget] at hlast
          exact absurd hlast hs
      | some e =>
          rw [hget] at hlast
          have hto : e.toStatus ≠ .open := fun h => hs (hlast.trans h)
          have hby := hlog.last e hget
          exact ⟨e, rfl, by rw [hby.resolutionNote, if_pos hto], by
            rw [hby.resolvedById, if_pos hto]⟩
  · obtain ⟨o, ho, hoid, p, hp, hpid, d, hd, hdid, m, hm, hmw, hmu, hrole⟩ :=
      (Op.exec_log dep op db).permits he hnew
    rw [hdismissed] at hrole
    exact ⟨o, ho, hoid, p, hp, hpid, d, hd, hdid, m, hm, hmw, hmu,
      canTransitionObjection_dismissed hrole⟩

/-! ## A sample -/

namespace Sample

/-- The author of the objection has it resolved and opens it again, the owner dismisses it. -/
def dismissed : Db :=
  runAll dep [.createObjection (env 10 80) bob 10 20 30 ⟨.blocking, "Cost", "Too much"⟩,
    .transitionObjection (env 11 81) bob 10 20 30 80 ⟨.resolved, "Cheaper now"⟩,
    .transitionObjection (env 12 82) bob 10 20 30 80 ⟨.open, "Dear again"⟩,
    .transitionObjection (env 13 83) ada 10 20 30 80 ⟨.dismissed, "Not for us"⟩] drafted

end Sample

theorem objection_log_sample : ∃ o ∈ Sample.dismissed.objections,
    (Sample.dismissed.eventsOf o.id).length = 3 ∧
    EventPath .open (Sample.dismissed.eventsOf o.id) .dismissed ∧ o.resolvedAt.isSome := by
  have hrun : Reachable Sample.dep Sample.dismissed := Sample.drafted_reachable.runAll _
  obtain ⟨o, ho, hs, hlen⟩ := show ∃ o ∈ Sample.dismissed.objections, o.status = .dismissed ∧
    (Sample.dismissed.eventsOf o.id).length = 3 by decide +kernel
  obtain ⟨hpath, -, -, -, hat, -⟩ := (objection_log hrun).1 o ho
  rw [hs] at hpath hat
  exact ⟨o, ho, hlen, hpath, hat.mpr (by simp)⟩

end ForkRoom
