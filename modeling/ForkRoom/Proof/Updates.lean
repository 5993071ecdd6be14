/-
# `Proof.Updates` — partial updates and nulls

Each field of an update request is absent, an explicit null, or a value.  Seven
services take it from there, each in its own way:

    workspace, decision, proposal,    field by field: a null is set where the
    criterion, objection              column may be null, and ignored elsewhere
    review                            every field that was sent; a null schedule
                                      is refused
    action                            every field that was sent, null or not

So an update either raises one of the service's own errors and changes nothing, or
it changes the fields that were sent and no others, unless something that was sent gets
as far as the table and is stopped there (`null_safe_iff`):

    the null title and the null assignee of an action   NOT NULL
    a text with U+0000, a time out of range in UTC      the type of the column
-/
import ForkRoom.System.Constraints
import ForkRoom.System.Gates
import ForkRoom.Proof.Finished

namespace ForkRoom

open Optimistic Reads Rows

/-! ## What an update may do -/

/-- A column that may be null: what was sent is stored, null or not. -/
def Sets {α : Type} (field : Option (Option α)) (old new : Option α) : Prop :=
  match field with
  | none => new = old
  | some sent => new = sent

/-- A NOT NULL column: a value that was sent is stored, a null is not. -/
def SetsRequired {α : Type} (field : Option (Option α)) (old new : α) : Prop :=
  match field with
  | some (some value) => new = value
  | some none | none => new = old

structure Workspace.Patched (payload : WorkspaceUpdateRequest) (old new : Workspace) : Prop where
  name : SetsRequired payload.name old.name new.name
  description : Sets payload.description old.description new.description
  others : new = { old with name := new.name, description := new.description }

/-- `updated_at` is the table's own. -/
structure Decision.Patched (payload : DecisionUpdateRequest) (old new : Decision) : Prop where
  title : SetsRequired payload.title old.title new.title
  summary : Sets payload.summary old.summary new.summary
  category : SetsRequired payload.category old.category new.category
  dueAt : Sets payload.dueAt old.dueAt new.dueAt
  reviewAt : Sets payload.reviewAt old.reviewAt new.reviewAt
  others : new = { old with
    title := new.title, summary := new.summary, category := new.category, dueAt := new.dueAt,
    reviewAt := new.reviewAt, updatedAt := new.updatedAt }

structure Proposal.Patched (payload : ProposalUpdateRequest) (old new : Proposal) : Prop where
  title : SetsRequired payload.title old.title new.title
  summary : Sets payload.summary old.summary new.summary
  content : Sets payload.content old.content new.content
  others : new = { old with
    title := new.title, summary := new.summary, content := new.content,
    updatedAt := new.updatedAt }

structure DecisionCriterion.Patched (payload : CriterionUpdateRequest)
    (old new : DecisionCriterion) : Prop where
  name : SetsRequired payload.name old.name new.name
  description : Sets payload.description old.description new.description
  weight : SetsRequired payload.weight old.weight new.weight
  others : new = { old with
    name := new.name, description := new.description, weight := new.weight }

structure Objection.Patched (payload : ObjectionUpdateRequest) (old new : Objection) : Prop where
  severity : SetsRequired payload.severity old.severity new.severity
  title : SetsRequired payload.title old.title new.title
  description : SetsRequired payload.description old.description new.description
  others : new = { old with
    severity := new.severity, title := new.title, description := new.description,
    updatedAt := new.updatedAt }

structure DecisionReview.Patched (payload : ReviewUpdateRequest) (old new : DecisionReview) :
    Prop where
  scheduledFor : SetsRequired payload.scheduledFor old.scheduledFor new.scheduledFor
  notes : Sets payload.notes old.notes new.notes
  others : new = { old with scheduledFor := new.scheduledFor, notes := new.notes }

/-- The columns of the title and the assignee are NOT NULL. -/
structure ImplementationActionRow.Patched (payload : ActionUpdateRequest)
    (old new : ImplementationActionRow) : Prop where
  title : SetsRequired (payload.title.map (Option.map some)) old.title new.title
  description : Sets payload.description old.description new.description
  assigneeId : SetsRequired (payload.assigneeId.map (Option.map some)) old.assigneeId
    new.assigneeId
  dueAt : Sets payload.dueAt old.dueAt new.dueAt
  others : new = { old with
    title := new.title, description := new.description, assigneeId := new.assigneeId,
    dueAt := new.dueAt, updatedAt := new.updatedAt }

theorem Workspace.Patched.id_eq {payload : WorkspaceUpdateRequest} {old new : Workspace}
    (h : old.Patched payload new) : new.id = old.id := by rw [h.others]

theorem Decision.Patched.id_eq {payload : DecisionUpdateRequest} {old new : Decision}
    (h : old.Patched payload new) : new.id = old.id := by rw [h.others]

theorem Proposal.Patched.id_eq {payload : ProposalUpdateRequest} {old new : Proposal}
    (h : old.Patched payload new) : new.id = old.id := by rw [h.others]

theorem DecisionCriterion.Patched.id_eq {payload : CriterionUpdateRequest}
    {old new : DecisionCriterion}
    (h : old.Patched payload new) : new.id = old.id := by rw [h.others]

theorem Objection.Patched.id_eq {payload : ObjectionUpdateRequest} {old new : Objection}
    (h : old.Patched payload new) : new.id = old.id := by rw [h.others]

theorem DecisionReview.Patched.id_eq {payload : ReviewUpdateRequest} {old new : DecisionReview}
    (h : old.Patched payload new) : new.id = old.id := by rw [h.others]

theorem ImplementationActionRow.Patched.id_eq {payload : ActionUpdateRequest}
    {old new : ImplementationActionRow}
    (h : old.Patched payload new) : new.id = old.id := by rw [h.others]

/-- The update has replaced the row that the path names, and nothing else: `s'` is
`s` with that row patched. -/
def ActionOp.Patches (s s' : ActionDb) : ActionOp → Prop
  | core (.updateWorkspace _ w payload) => ∃ old ∈ s.db.workspaces, ∃ new, old.id = w ∧
      old.Patched payload new ∧ s'.implementationActions = s.implementationActions ∧
      s'.db.toTables = { s.db.toTables with workspaces := replace old new s.db.workspaces }
  | core (.updateDecision _ _ w d payload) => ∃ old ∈ s.db.decisions, ∃ new,
      (old.id = d ∧ old.workspaceId = w) ∧
      old.Patched payload new ∧ s'.implementationActions = s.implementationActions ∧
      s'.db.toTables = { s.db.toTables with decisions := replace old new s.db.decisions }
  | core (.updateProposal _ _ _ d p payload) => ∃ old ∈ s.db.proposals, ∃ new,
      (old.id = p ∧ old.decisionId = d) ∧
      old.Patched payload new ∧ s'.implementationActions = s.implementationActions ∧
      s'.db.toTables = { s.db.toTables with proposals := replace old new s.db.proposals }
  | core (.updateCriterion _ _ d c payload) => ∃ old ∈ s.db.decisionCriteria, ∃ new,
      (old.id = c ∧ old.decisionId = d) ∧
      old.Patched payload new ∧ s'.implementationActions = s.implementationActions ∧
      s'.db.toTables = { s.db.toTables with
        decisionCriteria := replace old new s.db.decisionCriteria }
  | core (.updateObjection _ _ _ _ p o payload) => ∃ old ∈ s.db.objections, ∃ new,
      (old.id = o ∧ old.proposalId = p) ∧
      old.Patched payload new ∧ s'.implementationActions = s.implementationActions ∧
      s'.db.toTables = { s.db.toTables with objections := replace old new s.db.objections }
  | core (.updateReview _ _ _ d r payload) => ∃ old ∈ s.db.decisionReviews, ∃ new,
      (old.id = r ∧ old.decisionId = d) ∧
      old.Patched payload new ∧ s'.implementationActions = s.implementationActions ∧
      s'.db.toTables = { s.db.toTables with
        decisionReviews := replace old new s.db.decisionReviews }
  | updateAction _ _ _ d a payload => ∃ old ∈ s.implementationActions, ∃ new,
      (old.id = a ∧ old.decisionId = d) ∧
      old.Patched payload new ∧ s'.db = s.db ∧
      s'.implementationActions = replace old new s.implementationActions
  | _ => False

def ActionOp.isUpdate : ActionOp → Bool
  | core (.updateWorkspace ..) | core (.updateDecision ..) | core (.updateProposal ..)
  | core (.updateCriterion ..) | core (.updateObjection ..) | core (.updateReview ..)
  | updateAction .. => true
  | _ => false

/-- The request schema accepts the payload.  Of what the schemas ask, only the
bounds of a weight matter to a constraint of the tables. -/
def ActionOp.Accepted : ActionOp → Prop
  | core (.updateCriterion _ _ _ _ payload) =>
      ∀ weight, payload.weight = some (some weight) → 1 ≤ weight ∧ weight ≤ 100
  | _ => True

/-! The columns take the values that were sent. -/

def WorkspaceUpdateRequest.fits (payload : WorkspaceUpdateRequest) : Bool :=
  payload.name.join.all isText && payload.description.join.all isText

def DecisionUpdateRequest.fits (payload : DecisionUpdateRequest) : Bool :=
  payload.title.join.all isText && payload.summary.join.all isText &&
    payload.dueAt.join.all isTimestamp && payload.reviewAt.join.all isTimestamp

def ProposalUpdateRequest.fits (payload : ProposalUpdateRequest) : Bool :=
  payload.title.join.all isText && payload.summary.join.all isText &&
    payload.content.join.all isText

def CriterionUpdateRequest.fits (payload : CriterionUpdateRequest) : Bool :=
  payload.name.join.all isText && payload.description.join.all isText

def ObjectionUpdateRequest.fits (payload : ObjectionUpdateRequest) : Bool :=
  payload.title.join.all isText && payload.description.join.all isText

def ReviewUpdateRequest.fits (payload : ReviewUpdateRequest) : Bool :=
  payload.scheduledFor.join.all isTimestamp && payload.notes.join.all isText

def ActionUpdateRequest.fits (payload : ActionUpdateRequest) : Bool :=
  payload.title.join.all isText && payload.description.join.all isText &&
    payload.dueAt.join.all isTimestamp

def Op.fits : Op → Bool
  | updateWorkspace _ _ payload => payload.fits
  | updateDecision _ _ _ _ payload => payload.fits
  | updateProposal _ _ _ _ _ payload => payload.fits
  | updateCriterion _ _ _ _ payload => payload.fits
  | updateObjection _ _ _ _ _ _ payload => payload.fits
  | updateReview _ _ _ _ _ payload => payload.fits
  | _ => true

/-- One of the services' own errors: not a rejected commit, and not a failed `refresh`. -/
def ServiceError.Domain : ServiceError → Prop
  | .database _ | .refreshFailed => False
  | _ => True

def ActionError.Domain : ActionError → Prop
  | .service e => e.Domain
  | _ => True

/-- **Null-safe**: an error of the service and no change, or the fields that were sent. -/
def ActionOp.NullSafe (dep : Deployment) (op : ActionOp) (s : ActionDb) : Prop :=
  let r := Request.exec ActionDb.commit (op.program dep) s
  (∃ e, r.1 = .error e ∧ e.Domain ∧ r.2 = s) ∨ (r.1.isOk ∧ op.Patches s r.2)

/-- The guards let the update through: the role, and the status of the row and of its decision. -/
def Op.MayUpdate (db : Db) : Op → Prop
  | updateWorkspace user w _ => ∃ c, InWorkspace user.id w db db c ∧
      canManageWorkspace c.membership.role
  | updateDecision _ user w d payload => ∃ decision c, InWorkspace user.id w db db c ∧
      canWriteDecisions c.membership.role ∧
      DecisionRepository.getForWorkspace w d db = some decision ∧
      decision.status ∈ DecisionService.editableStatuses ∧
      DecisionService.reviewAfterDue (provided payload.dueAt decision.dueAt)
        (provided payload.reviewAt decision.reviewAt)
  | updateProposal _ user w d p _ => ∃ proposal c, InContext user.id w d db db db c ∧
      c.decision.status ∈ ProposalService.mutableDecisionStatuses ∧
      ProposalRepository.getForDecision d p db = some proposal ∧
      canManageProposal c.membership.role proposal.createdById user.id ∧ proposal.status = .draft
  | updateCriterion user w d id _ => ∃ criterion c, InContext user.id w d db db db c ∧
      c.decision.status ∈ ProposalService.mutableDecisionStatuses ∧
      canManageCriteria c.membership.role ∧
      ProposalRepository.getCriterion d id db = some criterion
  | updateObjection _ user w d p o _ => ∃ objection c, InContext user.id w d db db db c ∧
      (∃ proposal, ProposalRepository.getForDecision d p db = some proposal) ∧
      c.decision.status ∈ ObjectionService.mutableDecisionStatuses ∧
      ObjectionRepository.getForProposal p o db = some objection ∧
      canEditObjection c.membership.role objection.createdById user.id ∧ objection.status = .open
  | updateReview env user w d r payload => ∃ review c, InContext user.id w d db db db c ∧
      canManageReviews c.membership.role ∧ c.decision.status = .locked ∧
      ActionReviewRepository.getReview d r db = some review ∧ review.status = .scheduled ∧
      ActionReviewService.schedulable env.now payload.scheduledFor
  | _ => False

/-- The guards of `update_action` let the request through. -/
def MayUpdateAction (user : User) (w d a : UUID) (assigneeId : Option UUID) (s : ActionDb) : Prop :=
  ∃ c action, InContext user.id w d s.db s.db s.db c ∧ canManageActions c.membership.role ∧
    c.decision.status = .locked ∧ ActionReviewRepository.getAction d a s = some action ∧
    action.status ∉ [ActionStatus.completed, .cancelled] ∧
    ∀ assignee, assigneeId = some assignee →
      ∃ m, WorkspaceRepository.getMembership w assignee s.db = some m ∧ m.role ≠ .viewer

/-- What a column refuses gets past the guards: a value that is none of its type, or a null
for the title or the assignee of an action. -/
def ActionOp.WritesRefused (s : ActionDb) : ActionOp → Prop
  | core op => op.fits = false ∧ op.MayUpdate s.db
  | updateAction _ user w d a payload =>
      (payload.title = some none ∨ payload.assigneeId = some none ∨ payload.fits = false) ∧
        MayUpdateAction user w d a payload.assigneeId.join s
  | _ => False

/-! ## Fields -/

section
variable {α : Type}

theorem sets_provided (field : Option (Option α)) (old : Option α) :
    Sets field old (provided field old) := by
  cases field <;> rfl

theorem setsRequired_providedNonNull (field : Option (Option α)) (old : α) :
    SetsRequired field old (providedNonNull field old) := by
  rcases field with _ | _ | _ <;> rfl

/-- A column with values that fit takes a field exactly if its value fits. -/
theorem all_provided {p : α → Bool} (field : Option (Option α)) {old : Option α}
    (hold : old.all p = true) : (provided field old).all p = field.join.all p := by
  cases field with
  | none => exact hold
  | some sent => rfl

theorem providedNonNull_fits {p : α → Bool} (field : Option (Option α)) {old : α}
    (hold : p old = true) : p (providedNonNull field old) = field.join.all p := by
  rcases field with _ | _ | value
  · exact hold
  · exact hold
  · rfl

end

/-! ## The updated rows

The object that is flushed is the loaded row with the fields that were sent; the
row that is stored is that object, and `updated_at` as the table sets it. -/

section

/-- What is stored of a changed object: the object itself, or its merge with the row. -/
theorem update_stored {α : Type} [DecidableEq α] [Keyed α UUID] {rows : List α} {P : α → Prop}
    (hn : PrimaryKey rows) {old current merged : α} (hold : old ∈ rows) {merge : α → α}
    (hmerge : merge old = merged) (hcurrent : P current) (hmerged : P merged) :
    ∃ new, P new ∧ update old current merge rows = replace old new rows := by
  obtain ⟨new, hnew, hupdate⟩ := update_fresh hn hold current merge
  refine ⟨new, ?_, hupdate⟩
  rcases hnew with ⟨rfl, rfl⟩ | rfl
  · exact hcurrent
  · exact hmerge ▸ hmerged

theorem WorkspaceService.assign_patched (payload : WorkspaceUpdateRequest) (old : Workspace) :
    old.Patched payload (WorkspaceService.assign payload old) :=
  ⟨setsRequired_providedNonNull _ _, sets_provided _ _, rfl⟩

theorem DecisionService.assign_patched (payload : DecisionUpdateRequest) (old : Decision)
    (at_ : Datetime) :
    old.Patched payload { DecisionService.assign payload old with updatedAt := at_ } :=
  ⟨setsRequired_providedNonNull _ _, sets_provided _ _, setsRequired_providedNonNull _ _,
    sets_provided _ _, sets_provided _ _, rfl⟩

theorem ProposalService.assign_patched (payload : ProposalUpdateRequest) (old : Proposal)
    (at_ : Datetime) :
    old.Patched payload { ProposalService.assign payload old with updatedAt := at_ } :=
  ⟨setsRequired_providedNonNull _ _, sets_provided _ _, sets_provided _ _, rfl⟩

theorem ProposalService.assignCriterion_patched (payload : CriterionUpdateRequest)
    (old : DecisionCriterion) :
    old.Patched payload (ProposalService.assignCriterion payload old) :=
  ⟨setsRequired_providedNonNull _ _, sets_provided _ _, setsRequired_providedNonNull _ _, rfl⟩

theorem ObjectionService.assign_patched (payload : ObjectionUpdateRequest) (old : Objection)
    (at_ : Datetime) :
    old.Patched payload { ObjectionService.assign payload old with updatedAt := at_ } :=
  ⟨setsRequired_providedNonNull _ _, setsRequired_providedNonNull _ _,
    setsRequired_providedNonNull _ _, rfl⟩

theorem ActionReviewService.assign_patched (payload : ReviewUpdateRequest) (old : DecisionReview) :
    old.Patched payload (ActionReviewService.assign payload old) :=
  ⟨setsRequired_providedNonNull _ _, sets_provided _ _, rfl⟩

/-! A row that fits takes a payload exactly if the payload fits. -/

theorem WorkspaceService.assign_fits (payload : WorkspaceUpdateRequest) {old : Workspace}
    (hold : old.fits = true) : (WorkspaceService.assign payload old).fits = payload.fits := by
  simp only [Workspace.fits, Bool.and_eq_true] at hold
  rw [Workspace.fits, WorkspaceService.assign, providedNonNull_fits _ hold.1,
    all_provided _ hold.2, WorkspaceUpdateRequest.fits]

theorem DecisionService.assign_fits (payload : DecisionUpdateRequest) {old : Decision}
    (hold : old.fits = true) (at_ : Datetime) :
    ({ DecisionService.assign payload old with updatedAt := at_ } : Decision).fits =
      payload.fits := by
  simp only [Decision.fits, Bool.and_eq_true] at hold
  obtain ⟨⟨⟨htitle, hsummary⟩, hdue⟩, hreview⟩ := hold
  rw [Decision.fits, DecisionService.assign, providedNonNull_fits _ htitle,
    all_provided _ hsummary, all_provided _ hdue, all_provided _ hreview,
    DecisionUpdateRequest.fits]

theorem ProposalService.assign_fits (payload : ProposalUpdateRequest) {old : Proposal}
    (hold : old.fits = true) (at_ : Datetime) :
    ({ ProposalService.assign payload old with updatedAt := at_ } : Proposal).fits =
      payload.fits := by
  simp only [Proposal.fits, Bool.and_eq_true] at hold
  obtain ⟨⟨htitle, hsummary⟩, hcontent⟩ := hold
  rw [Proposal.fits, ProposalService.assign, providedNonNull_fits _ htitle,
    all_provided _ hsummary, all_provided _ hcontent, ProposalUpdateRequest.fits]

theorem ProposalService.assignCriterion_fits (payload : CriterionUpdateRequest)
    {old : DecisionCriterion} (hold : old.fits = true) :
    (ProposalService.assignCriterion payload old).fits = payload.fits := by
  simp only [DecisionCriterion.fits, Bool.and_eq_true] at hold
  rw [DecisionCriterion.fits, ProposalService.assignCriterion, providedNonNull_fits _ hold.1,
    all_provided _ hold.2, CriterionUpdateRequest.fits]

theorem ObjectionService.assign_fits (payload : ObjectionUpdateRequest) {old : Objection}
    (hold : old.fits = true) (at_ : Datetime) :
    ({ ObjectionService.assign payload old with updatedAt := at_ } : Objection).fits =
      payload.fits := by
  simp only [Objection.fits, Bool.and_eq_true] at hold
  obtain ⟨⟨htitle, hdescription⟩, hnote⟩ := hold
  rw [Objection.fits, ObjectionService.assign, providedNonNull_fits _ htitle,
    providedNonNull_fits _ hdescription, hnote, Bool.and_true, ObjectionUpdateRequest.fits]

theorem ActionReviewService.assign_fits (payload : ReviewUpdateRequest) {old : DecisionReview}
    (hold : old.fits = true) : (ActionReviewService.assign payload old).fits = payload.fits := by
  simp only [DecisionReview.fits, Bool.and_eq_true] at hold
  obtain ⟨⟨hscheduled, hnotes⟩, hrationale⟩ := hold
  rw [DecisionReview.fits, ActionReviewService.assign, providedNonNull_fits _ hscheduled,
    all_provided _ hnotes, hrationale, Bool.and_true, ReviewUpdateRequest.fits]

end

/-! ## The commits

An update of a stored row succeeds, patches the row, and changes nothing else, if the columns
take what was sent; else it is refused. -/

/-- The rows fit after a replacement exactly if the new one does. -/
theorem forall_replace_iff {α : Type} [Keyed α UUID] {rows : List α} {P : α → Prop} {old : α}
    (new : α) (hold : old ∈ rows) (h : ∀ r ∈ rows, P r) :
    (∀ r ∈ replace old new rows, P r) ↔ P new := by
  constructor
  · intro hall
    exact hall new ((mem_replace hold).mpr (Or.inl rfl))
  · intro hnew r hr
    rcases (mem_replace hold).mp hr with rfl | ⟨hr, -⟩
    · exact hnew
    · exact h r hr

section
variable {db : Db}

/-- A write of one row that finds its row and breaks no constraint. -/
theorem Db.commit_fits {x : Write} {t : Tables} {fits : Bool} (hrun : x.run db.toTables = t)
    (hstale : x.stale db.toTables = false) (hrestricted : x.restricted db.toTables = false)
    (hdangling : x.dangling db.toTables = false) (hfits : Fits t ↔ fits = true)
    (hvalid : Constraints t) :
    (fits = true → ∃ db', db.commit [x] = .ok db' ∧ db'.toTables = t) ∧
      (fits = false → db.commit [x] = .error .data) := by
  refine ⟨fun h => Db.commit_write hrun hstale hrestricted hdangling (hfits.mpr h) hvalid,
    fun h => ?_⟩
  have hwrite : ¬ Fits (db.toTables.write [x]) := by
    rw [show db.toTables.write [x] = t from hrun, hfits, h]
    exact Bool.false_ne_true
  have hfirst : db.toTables.dangling [x] = false := by
    rw [Tables.dangling, hdangling]
    rfl
  have h₁ : [x].any (Write.stale db.toTables) = false := by simpa using hstale
  have h₂ : [x].any (Write.restricted db.toTables) = false := by simpa using hrestricted
  rw [Db.commit, h₁, h₂, hfirst, dif_neg hwrite]
  rfl

theorem Db.commit_patchWorkspace {old : Workspace} (hold : old ∈ db.workspaces)
    (payload : WorkspaceUpdateRequest) : ∃ new, old.Patched payload new ∧
      (payload.fits = true → ∃ db',
        db.commit [.setWorkspace old (WorkspaceService.assign payload old)] = .ok db' ∧
        db'.toTables = { db.toTables with workspaces := replace old new db.workspaces }) ∧
      (payload.fits = false →
        db.commit [.setWorkspace old (WorkspaceService.assign payload old)] = .error .data) := by
  have hmerge : old.merge (WorkspaceService.assign payload old) old =
      WorkspaceService.assign payload old := by
    simp [Workspace.merge, WorkspaceService.assign]
  have hassign := WorkspaceService.assign_patched payload old
  have hfits := WorkspaceService.assign_fits payload (db.fits.workspaces old hold)
  obtain ⟨new, ⟨hnew, hnewfits⟩, hupdate⟩ := update_stored
    (P := fun new => old.Patched payload new ∧ new.fits = payload.fits) db.valid.pkWorkspaces hold
    hmerge ⟨hassign, hfits⟩ ⟨hassign, hfits⟩
  have hrun : (Write.setWorkspace old (WorkspaceService.assign payload old)).run db.toTables =
      { db.toTables with workspaces := replace old new db.workspaces } := by
    rw [Write.run, hupdate]
  have hvalid := db.valid.setWorkspace hold hnew.id_eq
    (by rw [hnew.others])
  have hrows := forall_replace_iff new hold db.fits.workspaces
  refine ⟨new, hnew, Db.commit_fits hrun (missing_of_mem db.valid.pkWorkspaces hold _) rfl rfl
    ⟨fun h => ?_, fun h => ?_⟩ hvalid⟩
  · exact hnewfits ▸ hrows.mp h.workspaces
  · exact { db.fits with workspaces := hrows.mpr (hnewfits.trans h) }

theorem Db.commit_patchDecision {old : Decision} (hold : old ∈ db.decisions)
    (payload : DecisionUpdateRequest) (at_ : Datetime) : ∃ new, old.Patched payload new ∧
      (payload.fits = true → ∃ db',
        db.commit [.setDecision old (DecisionService.assign payload old) at_] = .ok db' ∧
        db'.toTables = { db.toTables with decisions := replace old new db.decisions }) ∧
      (payload.fits = false →
        db.commit [.setDecision old (DecisionService.assign payload old) at_] = .error .data) := by
  have hassign : old.Patched payload (DecisionService.assign payload old) :=
    DecisionService.assign_patched payload old old.updatedAt
  have hfits := DecisionService.assign_fits payload (db.fits.decisions old hold)
  have hmerge : old.merge (DecisionService.assign payload old) at_ old =
      { DecisionService.assign payload old with updatedAt := at_ } := by
    simp [Decision.merge, DecisionService.assign]
  obtain ⟨new, ⟨hnew, hnewfits⟩, hupdate⟩ := update_stored
    (P := fun new => old.Patched payload new ∧ new.fits = payload.fits) db.valid.pkDecisions hold
    hmerge ⟨hassign, hfits old.updatedAt⟩
      ⟨DecisionService.assign_patched payload old at_, hfits at_⟩
  have hrun : (Write.setDecision old (DecisionService.assign payload old) at_).run db.toTables =
      { db.toTables with decisions := replace old new db.decisions } := by
    rw [Write.run, hupdate]
  have hvalid := db.valid.setDecision hold hnew.id_eq
    (by rw [hnew.others]) (by rw [hnew.others])
    (by rw [hnew.others]; exact db.valid.ckDecisionsLockedState old hold)
  have hrows := forall_replace_iff new hold db.fits.decisions
  refine ⟨new, hnew, Db.commit_fits hrun (missing_of_mem db.valid.pkDecisions hold _) rfl rfl
    ⟨fun h => ?_, fun h => ?_⟩ hvalid⟩
  · exact hnewfits ▸ hrows.mp h.decisions
  · exact { db.fits with decisions := hrows.mpr (hnewfits.trans h) }

theorem Db.commit_patchProposal {old : Proposal} (hold : old ∈ db.proposals)
    (payload : ProposalUpdateRequest) (at_ : Datetime) : ∃ new, old.Patched payload new ∧
      (payload.fits = true → ∃ db',
        db.commit [.setProposal old (ProposalService.assign payload old) at_] = .ok db' ∧
        db'.toTables = { db.toTables with proposals := replace old new db.proposals }) ∧
      (payload.fits = false →
        db.commit [.setProposal old (ProposalService.assign payload old) at_] = .error .data) := by
  have hassign : old.Patched payload (ProposalService.assign payload old) :=
    ProposalService.assign_patched payload old old.updatedAt
  have hfits := ProposalService.assign_fits payload (db.fits.proposals old hold)
  have hmerge : old.merge (ProposalService.assign payload old) at_ old =
      { ProposalService.assign payload old with updatedAt := at_ } := by
    simp [Proposal.merge, ProposalService.assign]
  obtain ⟨new, ⟨hnew, hnewfits⟩, hupdate⟩ := update_stored
    (P := fun new => old.Patched payload new ∧ new.fits = payload.fits) db.valid.pkProposals hold
    hmerge ⟨hassign, hfits old.updatedAt⟩
      ⟨ProposalService.assign_patched payload old at_, hfits at_⟩
  have hrun : (Write.setProposal old (ProposalService.assign payload old) at_).run db.toTables =
      { db.toTables with proposals := replace old new db.proposals } := by
    rw [Write.run, hupdate]
  have hvalid := db.valid.setProposal hold hnew.id_eq
    (by rw [hnew.others]) (by rw [hnew.others])
  have hrows := forall_replace_iff new hold db.fits.proposals
  refine ⟨new, hnew, Db.commit_fits hrun (missing_of_mem db.valid.pkProposals hold _) rfl rfl
    ⟨fun h => ?_, fun h => ?_⟩ hvalid⟩
  · exact hnewfits ▸ hrows.mp h.proposals
  · exact { db.fits with proposals := hrows.mpr (hnewfits.trans h) }

theorem Db.commit_patchObjection {old : Objection} (hold : old ∈ db.objections)
    (payload : ObjectionUpdateRequest) (at_ : Datetime) : ∃ new, old.Patched payload new ∧
      (payload.fits = true → ∃ db',
        db.commit [.setObjection old (ObjectionService.assign payload old) at_] = .ok db' ∧
        db'.toTables = { db.toTables with objections := replace old new db.objections }) ∧
      (payload.fits = false →
        db.commit [.setObjection old (ObjectionService.assign payload old) at_] =
          .error .data) := by
  have hassign : old.Patched payload (ObjectionService.assign payload old) :=
    ObjectionService.assign_patched payload old old.updatedAt
  have hfits := ObjectionService.assign_fits payload (db.fits.objections old hold)
  have hmerge : old.merge (ObjectionService.assign payload old) at_ old =
      { ObjectionService.assign payload old with updatedAt := at_ } := by
    simp [Objection.merge, ObjectionService.assign]
  obtain ⟨new, ⟨hnew, hnewfits⟩, hupdate⟩ := update_stored
    (P := fun new => old.Patched payload new ∧ new.fits = payload.fits) db.valid.pkObjections hold
    hmerge ⟨hassign, hfits old.updatedAt⟩
      ⟨ObjectionService.assign_patched payload old at_, hfits at_⟩
  have hrun : (Write.setObjection old (ObjectionService.assign payload old) at_).run db.toTables =
      { db.toTables with objections := replace old new db.objections } := by
    rw [Write.run, hupdate]
  have hvalid := db.valid.setObjection hold hnew.id_eq
    (by rw [hnew.others]) (by rw [hnew.others]) (by rw [hnew.others])
    (by rw [hnew.others]; exact db.valid.ckObjectionsResolutionState old hold)
  have hrows := forall_replace_iff new hold db.fits.objections
  refine ⟨new, hnew, Db.commit_fits hrun (missing_of_mem db.valid.pkObjections hold _) rfl rfl
    ⟨fun h => ?_, fun h => ?_⟩ hvalid⟩
  · exact hnewfits ▸ hrows.mp h.objections
  · exact { db.fits with objections := hrows.mpr (hnewfits.trans h) }

theorem Db.commit_patchCriterion {old : DecisionCriterion} (hold : old ∈ db.decisionCriteria)
    (payload : CriterionUpdateRequest)
    (haccepted : ∀ weight, payload.weight = some (some weight) → 1 ≤ weight ∧ weight ≤ 100) :
    ∃ new, old.Patched payload new ∧
      (payload.fits = true → ∃ db',
        db.commit [.setCriterion old (ProposalService.assignCriterion payload old)] = .ok db' ∧
        db'.toTables =
          { db.toTables with decisionCriteria := replace old new db.decisionCriteria }) ∧
      (payload.fits = false →
        db.commit [.setCriterion old (ProposalService.assignCriterion payload old)] =
          .error .data) := by
  have hassign := ProposalService.assignCriterion_patched payload old
  have hfits := ProposalService.assignCriterion_fits payload (db.fits.decisionCriteria old hold)
  have hmerge : old.merge (ProposalService.assignCriterion payload old) old =
      ProposalService.assignCriterion payload old := by
    simp [DecisionCriterion.merge, ProposalService.assignCriterion]
  obtain ⟨new, ⟨hnew, hnewfits⟩, hupdate⟩ := update_stored
    (P := fun new => old.Patched payload new ∧ new.fits = payload.fits)
    db.valid.pkDecisionCriteria hold hmerge ⟨hassign, hfits⟩ ⟨hassign, hfits⟩
  have hrun : (Write.setCriterion old (ProposalService.assignCriterion payload old)).run
      db.toTables =
        { db.toTables with decisionCriteria := replace old new db.decisionCriteria } := by
    rw [Write.run, hupdate]
  have hweight : 1 ≤ new.weight ∧ new.weight ≤ 100 := by
    have hsets := hnew.weight
    unfold SetsRequired at hsets
    split at hsets
    · rename_i value hvalue
      exact hsets ▸ haccepted value hvalue
    · exact hsets ▸ db.valid.ckDecisionCriteriaWeight old hold
    · exact hsets ▸ db.valid.ckDecisionCriteriaWeight old hold
  have hvalid := db.valid.setCriterion hold hnew.id_eq
    (by rw [hnew.others]) (by rw [hnew.others]) (by rw [hnew.others]) hweight
  have hrows := forall_replace_iff new hold db.fits.decisionCriteria
  refine ⟨new, hnew, Db.commit_fits hrun (missing_of_mem db.valid.pkDecisionCriteria hold _) rfl rfl
    ⟨fun h => ?_, fun h => ?_⟩ hvalid⟩
  · exact hnewfits ▸ hrows.mp h.decisionCriteria
  · exact { db.fits with decisionCriteria := hrows.mpr (hnewfits.trans h) }

theorem Db.commit_patchReview {old : DecisionReview} (hold : old ∈ db.decisionReviews)
    (payload : ReviewUpdateRequest) : ∃ new, old.Patched payload new ∧
      (payload.fits = true → ∃ db',
        db.commit [.setReview old (ActionReviewService.assign payload old)] = .ok db' ∧
        db'.toTables = { db.toTables with
          decisionReviews := replace old new db.decisionReviews }) ∧
      (payload.fits = false →
        db.commit [.setReview old (ActionReviewService.assign payload old)] = .error .data) := by
  have hassign := ActionReviewService.assign_patched payload old
  have hfits := ActionReviewService.assign_fits payload (db.fits.decisionReviews old hold)
  have hmerge : old.merge (ActionReviewService.assign payload old) old =
      ActionReviewService.assign payload old := by
    simp [DecisionReview.merge, ActionReviewService.assign]
  obtain ⟨new, ⟨hnew, hnewfits⟩, hupdate⟩ := update_stored
    (P := fun new => old.Patched payload new ∧ new.fits = payload.fits)
    db.valid.pkDecisionReviews hold hmerge ⟨hassign, hfits⟩ ⟨hassign, hfits⟩
  have hrun : (Write.setReview old (ActionReviewService.assign payload old)).run db.toTables =
      { db.toTables with decisionReviews := replace old new db.decisionReviews } := by
    rw [Write.run, hupdate]
  have hvalid := db.valid.setReview hold hnew.id_eq
    (by rw [hnew.others]) (by rw [hnew.others]) (by rw [hnew.others]) (by rw [hnew.others])
    (by rw [hnew.others])
    (by rw [hnew.others]; exact db.valid.ckDecisionReviewsTerminalState old hold)
  have hrows := forall_replace_iff new hold db.fits.decisionReviews
  refine ⟨new, hnew, Db.commit_fits hrun (missing_of_mem db.valid.pkDecisionReviews hold _) rfl rfl
    ⟨fun h => ?_, fun h => ?_⟩ hvalid⟩
  · exact hnewfits ▸ hrows.mp h.decisionReviews
  · exact { db.fits with decisionReviews := hrows.mpr (hnewfits.trans h) }

end

/-! ## The requests -/

section
variable {dep : Deployment} {s : ActionDb}

/-- What is left to show of an update: its reads raise errors of the service only, they come to
a commit where the guards let it through, and it patches the row, or is refused. -/
theorem ActionOp.nullSafe_core {α β : Type} [Keyed α UUID] {op : Op} {p : Query (Outcome α)}
    {f : α → Response} {Guards : β → Prop} (write : β → Write) (rows : Db → List α)
    (key : β → UUID) (hprogram : op.program dep = answering f p)
    (hraises : p.Raises ServiceError.Domain)
    (hrun : ∀ i, p.run s.db = .ok i ↔
      ∃ b, Guards b ∧ i = commitAndRefresh [write b] rows (key b))
    (hpatches : ∀ b, Guards b → op.fits = true → ∃ db', s.db.commit [write b] = .ok db' ∧
      (refresh rows (key b) db').isOk = true ∧
        ∃ h : ActionConstraints db'.toTables s.implementationActions,
          (ActionOp.core op).Patches s ⟨db', s.implementationActions, s.fits, h⟩)
    (hrefused : ∀ b, Guards b → op.fits = false → s.db.commit [write b] = .error .data) :
    (ActionOp.core op).NullSafe dep s ↔ ¬ (op.fits = false ∧ ∃ b, Guards b) := by
  have hprogram : ((ActionOp.core op).program dep).run s =
      Except.map (Intent.map Sum.inl) (Except.mapError ActionError.service
        (Except.map (Intent.lift ActionDb.db ActionError.service ActionWrite.core)
          (Except.map (Intent.map f) (p.run s.db)))) := by
    rw [← Request.run_map f p, ← answering, ← hprogram, ← Request.run_lift, ← Request.run_map]
    rfl
  cases hp : p.run s.db with
  | error e =>
      have hstopped : ¬ ∃ b, Guards b := by
        rintro ⟨b, hb⟩
        have hcommit := (hrun _).mpr ⟨b, hb, rfl⟩
        rw [hp] at hcommit
        cases hcommit
      rw [hp] at hprogram
      have hexec := Request.exec_of_error ActionDb.commit hprogram
      refine ⟨fun _ h => hstopped h.2, fun _ => Or.inl ⟨.service e, congrArg Prod.fst hexec, ?_,
        congrArg Prod.snd hexec⟩⟩
      exact hraises s.db e hp
  | ok i =>
      obtain ⟨b, hb, rfl⟩ := (hrun i).mp hp
      rw [hp] at hprogram
      cases hfits : op.fits with
      | true =>
          obtain ⟨db', hc, hok, hactions, hrow⟩ := hpatches b hb hfits
          have hstore : s.commit (.core [write b]) =
              .ok ⟨db', s.implementationActions, s.fits, hactions⟩ := by
            simp only [ActionDb.commit, ActionWrite.stale, ActionWrite.commitCore, ActionWrite.run,
              hc, Bool.false_eq_true, if_false]
            exact (dif_pos s.fits).trans (dif_pos hactions)
          refine ⟨fun _ h => Bool.false_ne_true h.1.symm, fun _ => Or.inr ?_⟩
          rcases Request.exec_commit ActionDb.commit hprogram with ⟨s', hc', hexec⟩ | ⟨e, he, -⟩
          · rw [hstore] at hc'
            cases hc'
            rw [hexec]
            refine ⟨?_, hrow⟩
            show (Except.map Sum.inl
              (Except.mapError _ (Except.map f (refresh rows (key b) db')))).isOk = true
            cases hanswer : refresh rows (key b) db' with
            | error e =>
                rw [hanswer] at hok
                cases hok
            | ok a => rfl
          · rw [hstore] at he
            cases he
      | false =>
          have hstore : s.commit (.core [write b]) = .error .data := by
            simp only [ActionDb.commit, ActionWrite.stale, ActionWrite.commitCore,
              hrefused b hb hfits, Bool.false_eq_true, if_false]
          refine ⟨fun hsafe => ?_, fun h => absurd ⟨rfl, b, hb⟩ h⟩
          rcases Request.exec_commit ActionDb.commit hprogram with ⟨s', hc', -⟩ | ⟨e, he, hexec⟩
          · rw [hstore] at hc'
            cases hc'
          · rcases hsafe with ⟨e', he', hdomain, -⟩ | ⟨hok, -⟩
            · rw [hexec] at he'
              cases he'
              exact absurd hdomain id
            · rw [hexec] at hok
              cases hok

/-- `refresh` finds the row that has replaced another. -/
theorem refresh_replaced {α : Type} [Keyed α UUID] (rows : Db → List α) {db db' : Db}
    {old new : α} (hn : PrimaryKey (rows db')) (hold : old ∈ rows db)
    (hrows : rows db' = replace old new (rows db)) (hid : Keyed.key new = Keyed.key old) :
    (refresh rows (Keyed.key old) db').isOk = true := by
  have hnew : new ∈ rows db' := hrows ▸ (mem_replace hold).mpr (Or.inl rfl)
  rw [← hid, refresh_of_mem rows hn hnew]
  rfl

theorem nullSafe_updateWorkspace {user : User} {w : UUID} {payload : WorkspaceUpdateRequest} :
    (ActionOp.core (.updateWorkspace user w payload)).NullSafe dep s ↔
      ¬ (ActionOp.core (.updateWorkspace user w payload)).WritesRefused s := by
  refine ActionOp.nullSafe_core (fun c : WorkspaceContext =>
    .setWorkspace c.workspace (WorkspaceService.assign payload c.workspace))
    (fun db => db.workspaces) (fun c => c.workspace.id)
    rfl ?_ (fun i => ?_) (fun c hc hfits => ?_) fun c hc hfits => ?_
  · exact (workspaceContext_raises trivial).bind fun _ => (raises_require trivial).bind fun _ =>
      raises_pure _
  · simp only [WorkspaceService.update, WorkspaceService.requireMembership, run_bind_ok,
      workspaceContext_run_iff, run_require_ok, run_pure_ok]
    constructor
    · rintro ⟨c, hc, -, hrole, rfl⟩
      exact ⟨c, ⟨hc, hrole⟩, rfl⟩
    · rintro ⟨c, ⟨hc, hrole⟩, rfl⟩
      exact ⟨c, hc, (), hrole, rfl⟩
  · obtain ⟨hold, hid⟩ := find_some hc.1.workspace
    obtain ⟨new, hnew, hcommit, -⟩ := Db.commit_patchWorkspace hold payload
    obtain ⟨db', hdb, htables⟩ := hcommit hfits
    have hrows : db'.workspaces = replace c.workspace new s.db.workspaces := by rw [htables]
    have hkey : new.id = c.workspace.id := hnew.id_eq
    refine ⟨db', hdb, ?_, ?_⟩
    · exact refresh_replaced (fun db => db.workspaces) db'.valid.pkWorkspaces hold hrows hkey
    · refine ⟨?_, c.workspace, hold, new, hid, hnew, rfl, htables⟩
      rw [htables]
      exact { s.valid with }
  · obtain ⟨hold, -⟩ := find_some hc.1.workspace
    obtain ⟨-, -, -, hrefused⟩ := Db.commit_patchWorkspace hold payload
    exact hrefused hfits

theorem nullSafe_updateDecision {env : Env} {user : User} {w d : UUID}
    {payload : DecisionUpdateRequest} :
    (ActionOp.core (.updateDecision env user w d payload)).NullSafe dep s ↔
      ¬ (ActionOp.core (.updateDecision env user w d payload)).WritesRefused s := by
  refine ActionOp.nullSafe_core (fun old : Decision =>
    .setDecision old (DecisionService.assign payload old) env.dbNow) (fun db => db.decisions)
    Decision.id
    rfl ?_ (fun i => ?_) (fun old hguards hfits => ?_) fun old hguards hfits => ?_
  · exact (workspaceContext_raises trivial).bind fun _ => (raises_require trivial).bind fun _ =>
      ((raises_query _).bind fun _ => raises_orThrow trivial).bind fun _ =>
        (raises_require trivial).bind fun _ => (raises_require trivial).bind fun _ => raises_pure _
  · simp only [DecisionService.update, DecisionService.requireMembership,
      DecisionService.requireDecision, run_bind_ok, workspaceContext_run_iff, run_query_ok,
      run_require_ok, run_orThrow_ok, run_pure_ok]
    constructor
    · rintro ⟨c, hc, -, hrole, old, ⟨_, rfl, hd⟩, -, hstatus, -, hafter, rfl⟩
      exact ⟨old, ⟨c, hc, hrole, hd, hstatus, hafter⟩, rfl⟩
    · rintro ⟨old, ⟨c, hc, hrole, hd, hstatus, hafter⟩, rfl⟩
      exact ⟨c, hc, (), hrole, old, ⟨_, rfl, hd⟩, (), hstatus, (), hafter, rfl⟩
  · obtain ⟨c, -, -, hd, -, -⟩ := hguards
    obtain ⟨hold, hid⟩ := DecisionRepository.getForWorkspace_some hd
    obtain ⟨new, hnew, hcommit, -⟩ := Db.commit_patchDecision hold payload env.dbNow
    obtain ⟨db', hdb, htables⟩ := hcommit hfits
    have hrows : db'.decisions = replace old new s.db.decisions := by rw [htables]
    have hkey : new.id = old.id := hnew.id_eq
    refine ⟨db', hdb, ?_, ?_⟩
    · exact refresh_replaced (fun db => db.decisions) db'.valid.pkDecisions hold hrows hkey
    · refine ⟨?_, old, hold, new, hid, hnew, rfl, htables⟩
      rw [htables]
      exact { s.valid with
        fkImplementationActionsDecision :=
          s.valid.fkImplementationActionsDecision.replace_target hold hkey }
  · obtain ⟨c, -, -, hd, -, -⟩ := hguards
    obtain ⟨-, -, -, hrefused⟩ := Db.commit_patchDecision
      (DecisionRepository.getForWorkspace_some hd).1 payload env.dbNow
    exact hrefused hfits

theorem nullSafe_updateProposal {env : Env} {user : User} {w d p : UUID}
    {payload : ProposalUpdateRequest} :
    (ActionOp.core (.updateProposal env user w d p payload)).NullSafe dep s ↔
      ¬ (ActionOp.core (.updateProposal env user w d p payload)).WritesRefused s := by
  refine ActionOp.nullSafe_core (fun old : Proposal =>
    .setProposal old (ProposalService.assign payload old) env.dbNow) (fun db => db.proposals)
    Proposal.id
    rfl ?_ (fun i => ?_) (fun old hguards hfits => ?_) fun old hguards hfits => ?_
  · exact (decisionContext_raises trivial trivial).bind fun _ =>
      (raises_require trivial).bind fun _ =>
        ((raises_query _).bind fun _ => raises_orThrow trivial).bind fun _ =>
          (raises_require trivial).bind fun _ => (raises_require trivial).bind fun _ =>
            raises_pure _
  · simp only [ProposalService.update, ProposalService.context, ProposalService.requireProposal,
      ProposalService.requireMutableDecision, run_bind_ok, decisionContext_run_iff, run_query_ok,
      run_require_ok, run_orThrow_ok, run_pure_ok]
    constructor
    · rintro ⟨c, hc, -, hmutable, old, ⟨_, rfl, hp⟩, -, hrole, -, hstatus, rfl⟩
      exact ⟨old, ⟨c, hc, hmutable, hp, hrole, hstatus⟩, rfl⟩
    · rintro ⟨old, ⟨c, hc, hmutable, hp, hrole, hstatus⟩, rfl⟩
      exact ⟨c, hc, (), hmutable, old, ⟨_, rfl, hp⟩, (), hrole, (), hstatus, rfl⟩
  · obtain ⟨c, -, -, hp, -, -⟩ := hguards
    obtain ⟨hold, hid⟩ := ProposalRepository.getForDecision_some hp
    obtain ⟨new, hnew, hcommit, -⟩ := Db.commit_patchProposal hold payload env.dbNow
    obtain ⟨db', hdb, htables⟩ := hcommit hfits
    have hrows : db'.proposals = replace old new s.db.proposals := by rw [htables]
    have hkey : new.id = old.id := hnew.id_eq
    refine ⟨db', hdb, ?_, ?_⟩
    · exact refresh_replaced (fun db => db.proposals) db'.valid.pkProposals hold hrows hkey
    · refine ⟨?_, old, hold, new, hid, hnew, rfl, htables⟩
      rw [htables]
      exact { s.valid with }
  · obtain ⟨c, -, -, hp, -, -⟩ := hguards
    obtain ⟨-, -, -, hrefused⟩ := Db.commit_patchProposal
      (ProposalRepository.getForDecision_some hp).1 payload env.dbNow
    exact hrefused hfits

theorem nullSafe_updateCriterion {user : User} {w d id : UUID} {payload : CriterionUpdateRequest}
    (haccepted : ∀ weight, payload.weight = some (some weight) → 1 ≤ weight ∧ weight ≤ 100) :
    (ActionOp.core (.updateCriterion user w d id payload)).NullSafe dep s ↔
      ¬ (ActionOp.core (.updateCriterion user w d id payload)).WritesRefused s := by
  refine ActionOp.nullSafe_core (fun old : DecisionCriterion =>
    .setCriterion old (ProposalService.assignCriterion payload old)) (fun db => db.decisionCriteria)
    DecisionCriterion.id
    rfl ?_ (fun i => ?_) (fun old hguards hfits => ?_) fun old hguards hfits => ?_
  · exact (decisionContext_raises trivial trivial).bind fun _ =>
      (raises_require trivial).bind fun _ => (raises_require trivial).bind fun _ =>
        ((raises_query _).bind fun _ => raises_orThrow trivial).bind fun _ => raises_pure _
  · simp only [ProposalService.updateCriterion, ProposalService.context,
      ProposalService.requireCriterion, ProposalService.requireMutableDecision, run_bind_ok,
      decisionContext_run_iff, run_query_ok, run_require_ok, run_orThrow_ok, run_pure_ok]
    constructor
    · rintro ⟨c, hc, -, hmutable, -, hrole, old, ⟨_, rfl, hold⟩, rfl⟩
      exact ⟨old, ⟨c, hc, hmutable, hrole, hold⟩, rfl⟩
    · rintro ⟨old, ⟨c, hc, hmutable, hrole, hold⟩, rfl⟩
      exact ⟨c, hc, (), hmutable, (), hrole, old, ⟨_, rfl, hold⟩, rfl⟩
  · obtain ⟨c, -, -, -, hc⟩ := hguards
    obtain ⟨hold, hid⟩ := find_and hc
    obtain ⟨new, hnew, hcommit, -⟩ := Db.commit_patchCriterion hold payload haccepted
    obtain ⟨db', hdb, htables⟩ := hcommit hfits
    have hrows : db'.decisionCriteria = replace old new s.db.decisionCriteria := by rw [htables]
    have hkey : new.id = old.id := hnew.id_eq
    refine ⟨db', hdb, ?_, ?_⟩
    · exact refresh_replaced (fun db => db.decisionCriteria) db'.valid.pkDecisionCriteria hold
        hrows hkey
    · refine ⟨?_, old, hold, new, hid, hnew, rfl, htables⟩
      rw [htables]
      exact { s.valid with }
  · obtain ⟨c, -, -, -, hc⟩ := hguards
    obtain ⟨-, -, -, hrefused⟩ := Db.commit_patchCriterion (find_and hc).1 payload haccepted
    exact hrefused hfits

theorem nullSafe_updateObjection {env : Env} {user : User} {w d p o : UUID}
    {payload : ObjectionUpdateRequest} :
    (ActionOp.core (.updateObjection env user w d p o payload)).NullSafe dep s ↔
      ¬ (ActionOp.core (.updateObjection env user w d p o payload)).WritesRefused s := by
  refine ActionOp.nullSafe_core (fun old : Objection =>
    .setObjection old (ObjectionService.assign payload old) env.dbNow) (fun db => db.objections)
    Objection.id
    rfl ?_ (fun i => ?_) (fun old hguards hfits => ?_) fun old hguards hfits => ?_
  · exact (ObjectionService.context_raises trivial trivial trivial).bind fun _ =>
      (raises_require trivial).bind fun _ =>
        ((raises_query _).bind fun _ => raises_orThrow trivial).bind fun _ =>
          (raises_require trivial).bind fun _ => (raises_require trivial).bind fun _ =>
            raises_pure _
  · simp only [ObjectionService.update, ObjectionService.context,
      ObjectionService.requireObjection, ObjectionService.requireMutableDecision, run_bind_ok,
      decisionContext_run_iff, run_query_ok, run_require_ok, run_orThrow_ok, run_pure_ok]
    constructor
    · rintro ⟨_, ⟨c, hc, _, rfl, proposal, hp, rfl⟩, -, hmutable, old, ⟨_, rfl, ho⟩, -, hrole, -,
        hstatus, rfl⟩
      exact ⟨old, ⟨c, hc, ⟨proposal, hp⟩, hmutable, ho, hrole, hstatus⟩, rfl⟩
    · rintro ⟨old, ⟨c, hc, ⟨proposal, hp⟩, hmutable, ho, hrole, hstatus⟩, rfl⟩
      exact ⟨_, ⟨c, hc, _, rfl, proposal, hp, rfl⟩, (), hmutable, old, ⟨_, rfl, ho⟩, (), hrole,
        (), hstatus, rfl⟩
  · obtain ⟨c, -, -, -, ho, -, -⟩ := hguards
    obtain ⟨hold, hid⟩ := ObjectionRepository.getForProposal_some ho
    obtain ⟨new, hnew, hcommit, -⟩ := Db.commit_patchObjection hold payload env.dbNow
    obtain ⟨db', hdb, htables⟩ := hcommit hfits
    have hrows : db'.objections = replace old new s.db.objections := by rw [htables]
    have hkey : new.id = old.id := hnew.id_eq
    refine ⟨db', hdb, ?_, ?_⟩
    · exact refresh_replaced (fun db => db.objections) db'.valid.pkObjections hold hrows hkey
    · refine ⟨?_, old, hold, new, hid, hnew, rfl, htables⟩
      rw [htables]
      exact { s.valid with }
  · obtain ⟨c, -, -, -, ho, -, -⟩ := hguards
    obtain ⟨-, -, -, hrefused⟩ := Db.commit_patchObjection
      (ObjectionRepository.getForProposal_some ho).1 payload env.dbNow
    exact hrefused hfits

theorem nullSafe_updateReview {env : Env} {user : User} {w d r : UUID}
    {payload : ReviewUpdateRequest} :
    (ActionOp.core (.updateReview env user w d r payload)).NullSafe dep s ↔
      ¬ (ActionOp.core (.updateReview env user w d r payload)).WritesRefused s := by
  refine ActionOp.nullSafe_core (fun old : DecisionReview =>
    .setReview old (ActionReviewService.assign payload old)) (fun db => db.decisionReviews)
    DecisionReview.id
    rfl ?_ (fun i => ?_) (fun old hguards hfits => ?_) fun old hguards hfits => ?_
  · exact (ActionReviewService.context_raises trivial trivial).bind fun _ =>
      (raises_require trivial).bind fun _ => (raises_require trivial).bind fun _ =>
        ((raises_query _).bind fun _ => raises_orThrow trivial).bind fun _ =>
          (raises_require trivial).bind fun _ => (raises_require trivial).bind fun _ =>
            raises_pure _
  · simp only [ActionReviewService.updateReview, ActionReviewService.requireLocked,
      ActionReviewService.requireReview, run_bind_ok, ActionReviewService.context_run_iff,
      run_query_ok, run_require_ok, run_orThrow_ok, run_pure_ok]
    constructor
    · rintro ⟨c, hc, -, hrole, -, hlocked, old, ⟨_, rfl, hr⟩, -, hstatus, -, htime, rfl⟩
      exact ⟨old, ⟨c, hc, hrole, hlocked, hr, hstatus, htime⟩, rfl⟩
    · rintro ⟨old, ⟨c, hc, hrole, hlocked, hr, hstatus, htime⟩, rfl⟩
      exact ⟨c, hc, (), hrole, (), hlocked, old, ⟨_, rfl, hr⟩, (), hstatus, (), htime, rfl⟩
  · obtain ⟨c, -, -, -, hr, -, -⟩ := hguards
    obtain ⟨hold, hid⟩ := ActionReviewRepository.getReview_some hr
    obtain ⟨new, hnew, hcommit, -⟩ := Db.commit_patchReview hold payload
    obtain ⟨db', hdb, htables⟩ := hcommit hfits
    have hrows : db'.decisionReviews = replace old new s.db.decisionReviews := by rw [htables]
    have hkey : new.id = old.id := hnew.id_eq
    refine ⟨db', hdb, ?_, ?_⟩
    · exact refresh_replaced (fun db => db.decisionReviews) db'.valid.pkDecisionReviews hold
        hrows hkey
    · refine ⟨?_, old, hold, new, hid, hnew, rfl, htables⟩
      rw [htables]
      exact { s.valid with }
  · obtain ⟨c, -, -, -, hr, -, -⟩ := hguards
    obtain ⟨-, -, -, hrefused⟩ := Db.commit_patchReview
      (ActionReviewRepository.getReview_some hr).1 payload
    exact hrefused hfits

end

/-! ## Actions -/

theorem ActionConstraints.setAction {t : Tables} {actions : List ImplementationActionRow}
    (h : ActionConstraints t actions) {old new : ImplementationActionRow} (hold : old ∈ actions)
    (hid : new.id = old.id) (hdecision : new.decisionId = old.decisionId)
    (hcreated : new.createdById = old.createdById) (hstatus : new.status = old.status)
    (hcompleted : new.completedAt = old.completedAt)
    (hcancelled : new.cancelledAt = old.cancelledAt)
    (htitle : new.title ≠ none) {assignee : UUID} (hassignee : new.assigneeId = some assignee)
    (huser : ∃ x ∈ t.users, x.id = assignee) : ActionConstraints t (replace old new actions) where
  pkImplementationActions := h.pkImplementationActions.replace hold hid
  nnAssignee := forall_mem_replace hold h.nnAssignee (by simp [hassignee])
  nnTitle := forall_mem_replace hold h.nnTitle htitle
  ckImplementationActionsCompletedState :=
    forall_mem_replace hold h.ckImplementationActionsCompletedState (by
      simpa only [ImplementationActionRow.CompletedState, hstatus, hcompleted] using
        h.ckImplementationActionsCompletedState old hold)
  ckImplementationActionsCancelledState :=
    forall_mem_replace hold h.ckImplementationActionsCancelledState (by
      simpa only [ImplementationActionRow.CancelledState, hstatus, hcancelled] using
        h.ckImplementationActionsCancelledState old hold)
  fkImplementationActionsDecision := h.fkImplementationActionsDecision.replace hold hdecision
  fkImplementationActionsCreatedBy := h.fkImplementationActionsCreatedBy.replace hold hcreated
  fkImplementationActionsAssignee := by
    refine forall_mem_replace hold h.fkImplementationActionsAssignee ?_
    intro k hk
    rw [hassignee] at hk
    rw [List.mem_singleton.mp hk]
    exact huser

section
variable {dep : Deployment} {s : ActionDb} {env : Env} {user : User} {w d a : UUID}
  {payload : ActionUpdateRequest}

theorem ActionReviewService.updateAction_raises :
    (ActionReviewService.updateAction env user w d a payload).Raises ActionError.Domain := by
  refine Raises.bind (Raises.lift (ActionReviewService.context_raises trivial trivial)) fun _ => ?_
  refine (raises_require trivial).bind fun _ => ?_
  refine Raises.bind (Raises.lift (raises_require trivial)) fun _ => ?_
  refine ((raises_query _).bind fun _ => raises_orThrow trivial).bind fun _ => ?_
  refine (raises_require trivial).bind fun _ => ?_
  refine Raises.bind ?_ fun _ => raises_pure _
  cases payload.assigneeId.join with
  | none => exact raises_pure _
  | some assignee => exact (raises_query _).bind fun _ => raises_require trivial

/-- The request comes to its commit where the guards let it through, and only there. -/
theorem ActionReviewService.updateAction_run {i : ActionOutcome} :
    (ActionReviewService.updateAction env user w d a payload).run s = .ok i ↔
      ∃ action, ActionReviewRepository.getAction d a s = some action ∧
        MayUpdateAction user w d a payload.assigneeId.join s ∧
        i = commitAction (.setAction action (assignAction payload action) env.dbNow) action.id := by
  have hassignee : ∀ k : Option UUID, (∃ u, (requireNewAssignee w k).run s = .ok u) ↔
      ∀ assignee, k = some assignee →
        ∃ m, WorkspaceRepository.getMembership w assignee s.db = some m ∧ m.role ≠ .viewer := by
    intro k
    cases k with
    | none => simp [requireNewAssignee]
    | some assignee =>
        simp only [requireNewAssignee, requireEligibleAssignee, run_bind_ok, run_query_ok,
          run_require_ok]
        simp
  simp only [updateAction, inCore, requireLocked, requireAction, run_bind_ok, run_lift_ok,
    ActionReviewService.context_run_iff, run_query_ok, run_require_ok, run_orThrow_ok, run_pure_ok,
    MayUpdateAction]
  constructor
  · rintro ⟨c, hc, -, hrole, -, hlocked, action, ⟨_, rfl, haction⟩, -, hopen, u, hu, rfl⟩
    exact ⟨action, haction, ⟨c, action, hc, hrole, hlocked, haction, hopen,
      (hassignee _).mp ⟨u, hu⟩⟩, rfl⟩
  · rintro ⟨action, haction, ⟨c, action', hc, hrole, hlocked, haction', hopen, hnew⟩, rfl⟩
    have hsame : action' = action := Option.some.inj (haction'.symm.trans haction)
    subst hsame
    obtain ⟨u, hu⟩ := (hassignee _).mpr hnew
    exact ⟨c, hc, (), hrole, (), hlocked, action', ⟨_, rfl, haction⟩, (), hopen, u, hu, rfl⟩

theorem ActionReviewService.assignAction_patched {old : ImplementationActionRow} (at_ : Datetime)
    (htitle : payload.title ≠ some none) (hassignee : payload.assigneeId ≠ some none) :
    old.Patched payload { assignAction payload old with updatedAt := at_ } := by
  refine ⟨?_, sets_provided _ _, ?_, sets_provided _ _, rfl⟩
  · rcases h : payload.title with _ | _ | title
    · simp [SetsRequired, assignAction, provided, h]
    · exact absurd h htitle
    · simp [SetsRequired, assignAction, provided, h]
  · rcases h : payload.assigneeId with _ | _ | assignee
    · simp [SetsRequired, assignAction, provided, h]
    · exact absurd h hassignee
    · simp [SetsRequired, assignAction, provided, h]

theorem ActionReviewService.assignAction_fits {old : ImplementationActionRow}
    (hold : old.fits = true) (at_ : Datetime) :
    ({ assignAction payload old with updatedAt := at_ } : ImplementationActionRow).fits =
      payload.fits := by
  simp only [ImplementationActionRow.fits, Bool.and_eq_true] at hold
  obtain ⟨⟨htitle, hdescription⟩, hdue⟩ := hold
  rw [ImplementationActionRow.fits, assignAction, all_provided _ htitle,
    all_provided _ hdescription, all_provided _ hdue, ActionUpdateRequest.fits]

/-- What the flush leaves of an action that is updated. -/
theorem ActionReviewService.setAction_run {old : ImplementationActionRow}
    (hold : old ∈ s.implementationActions) (payload : ActionUpdateRequest) (at_ : Datetime) :
    ∃ t, (ActionWrite.setAction old (assignAction payload old) at_).run s.implementationActions =
      replace old { assignAction payload old with updatedAt := t } s.implementationActions := by
  have hmerge : old.merge (assignAction payload old) at_ old =
      { assignAction payload old with updatedAt := at_ } := by
    simp [ImplementationActionRow.merge, assignAction]
  obtain ⟨new, ⟨t, rfl⟩, hupdate⟩ := update_stored (P := fun new =>
      ∃ t, new = { assignAction payload old with updatedAt := t })
    s.valid.pkImplementationActions hold hmerge ⟨old.updatedAt, rfl⟩ ⟨at_, rfl⟩
  exact ⟨t, hupdate⟩

/-- The assignee of an action that is updated has an account. -/
theorem MayUpdateAction.assignee {old : ImplementationActionRow}
    (h : MayUpdateAction user w d a payload.assigneeId.join s)
    (hold : old ∈ s.implementationActions) (hnull : payload.assigneeId ≠ some none) :
    ∃ assignee, provided payload.assigneeId old.assigneeId = some assignee ∧
      ∃ x ∈ s.db.users, x.id = assignee := by
  obtain ⟨-, -, -, -, -, -, -, hnew⟩ := h
  rcases hfield : payload.assigneeId with _ | _ | assignee
  · cases hassignee : old.assigneeId with
    | none => exact absurd hassignee (s.valid.nnAssignee old hold)
    | some assignee =>
        refine ⟨assignee, rfl, ?_⟩
        exact s.valid.fkImplementationActionsAssignee old hold assignee (by simp [hassignee])
  · exact absurd hfield hnull
  · obtain ⟨m, hm, -⟩ := hnew assignee (by simp [hfield])
    obtain ⟨hm, -, hmu⟩ := WorkspaceRepository.getMembership_some hm
    obtain ⟨x, hx, hxu⟩ := s.db.valid.fkWorkspaceMembersUser m hm
    exact ⟨assignee, rfl, x, hx, hxu.trans hmu⟩

/-- The commit of an action that is updated. -/
theorem ActionReviewService.commit_setAction {old : ImplementationActionRow}
    (hold : old ∈ s.implementationActions) (payload : ActionUpdateRequest) (at_ : Datetime) :
    ∃ t, (payload.fits = false →
        s.commit (.setAction old (assignAction payload old) at_) = .error .data) ∧
      (payload.fits = true → ¬ ActionConstraints s.db.toTables
          (replace old { assignAction payload old with updatedAt := t } s.implementationActions) →
        s.commit (.setAction old (assignAction payload old) at_) = .error .integrity) ∧
      (payload.fits = true → ∀ hvalid : ActionConstraints s.db.toTables
          (replace old { assignAction payload old with updatedAt := t } s.implementationActions),
        ∃ hfits, s.commit (.setAction old (assignAction payload old) at_) = .ok ⟨s.db,
          replace old { assignAction payload old with updatedAt := t } s.implementationActions,
          hfits, hvalid⟩) := by
  obtain ⟨t, hflush⟩ := setAction_run hold payload at_
  have hfound := missing_of_mem s.valid.pkImplementationActions hold (assignAction payload old)
  have hrow : ({ assignAction payload old with updatedAt := t } : ImplementationActionRow).fits =
      payload.fits := assignAction_fits (s.fits old hold) t
  have hrows :=
    forall_replace_iff { assignAction payload old with updatedAt := t } hold s.fits
  refine ⟨t, fun h => ?_, fun h hinvalid => ?_, fun h hvalid => ⟨hrows.mpr (hrow.trans h), ?_⟩⟩
  all_goals
    simp only [ActionDb.commit, ActionWrite.stale, ActionWrite.commitCore, hfound, hflush,
      Bool.false_eq_true, if_false]
  · refine dif_neg fun hall => ?_
    rw [h] at hrow
    exact Bool.false_ne_true (hrow.symm.trans (hrows.mp hall))
  · exact (dif_pos (hrows.mpr (hrow.trans h))).trans (dif_neg hinvalid)
  · exact (dif_pos (hrows.mpr (hrow.trans h))).trans (dif_pos hvalid)

theorem nullSafe_updateAction
    (hsafe : ¬ (ActionOp.updateAction env user w d a payload).WritesRefused s) :
    (ActionOp.updateAction env user w d a payload).NullSafe dep s := by
  have hrun : ((ActionOp.updateAction env user w d a payload).program dep).run s =
      ((ActionReviewService.updateAction env user w d a payload).run s).map (Intent.map Sum.inr) :=
    Request.run_map _ _ _
  cases hp : (ActionReviewService.updateAction env user w d a payload).run s with
  | error e =>
      rw [hp] at hrun
      have hexec := Request.exec_of_error ActionDb.commit hrun
      exact Or.inl ⟨e, congrArg Prod.fst hexec, ActionReviewService.updateAction_raises s e hp,
        congrArg Prod.snd hexec⟩
  | ok i =>
      obtain ⟨old, haction, hmay, rfl⟩ := ActionReviewService.updateAction_run.mp hp
      have htitle : payload.title ≠ some none := fun h => hsafe ⟨Or.inl h, hmay⟩
      have hassignee : payload.assigneeId ≠ some none := fun h => hsafe ⟨Or.inr (Or.inl h), hmay⟩
      have hfits : payload.fits = true :=
        Bool.not_eq_false _ |>.mp fun h => hsafe ⟨Or.inr (Or.inr h), hmay⟩
      have hold := List.mem_of_find?_eq_some haction
      have hid : old.id = a ∧ old.decisionId = d := by
        simpa using List.find?_some haction
      obtain ⟨t, -, -, hcommit⟩ := ActionReviewService.commit_setAction hold payload env.dbNow
      let new := { ActionReviewService.assignAction payload old with updatedAt := t }
      have hnew : old.Patched payload new :=
        ActionReviewService.assignAction_patched t htitle hassignee
      obtain ⟨assignee, hprovided, huser⟩ := hmay.assignee hold hassignee
      have htitled : new.title ≠ none := by
        show provided payload.title old.title ≠ none
        rcases hfield : payload.title with _ | _ | title
        · exact s.valid.nnTitle old hold
        · exact absurd hfield htitle
        · simp [provided]
      have hvalid := s.valid.setAction hold (rfl : new.id = old.id) rfl rfl rfl rfl rfl htitled
        hprovided huser
      obtain ⟨hall, hstore⟩ := hcommit hfits hvalid
      rw [hp] at hrun
      rcases Request.exec_commit ActionDb.commit hrun with ⟨s', hc, hexec⟩ | ⟨e, he, -⟩
      · rw [hstore] at hc
        cases hc
        refine Or.inr ?_
        rw [hexec]
        refine ⟨?_, old, hold, new, hid, hnew, rfl, rfl⟩
        have hmem : new ∈ replace old new s.implementationActions :=
          (mem_replace hold).mpr (Or.inl rfl)
        have hfind : find old.id (replace old new s.implementationActions) = some new :=
          find_of_mem hvalid.pkImplementationActions hmem
        show (Except.map Sum.inr (ActionReviewService.refreshAction old.id _)).isOk = true
        rw [ActionReviewService.refreshAction, hfind]
        rfl
      · rw [hstore] at he
        cases he

/-- A value that its column refuses meets the table, once past the guards. -/
theorem updateAction_refused (dep : Deployment)
    (hrefused : (ActionOp.updateAction env user w d a payload).WritesRefused s) :
    ∃ e, Request.exec ActionDb.commit ((ActionOp.updateAction env user w d a payload).program dep)
      s = (.error (.service (.database e)), s) := by
  obtain ⟨hfields, hmay⟩ := hrefused
  obtain ⟨_, old, _, _, _, haction, _⟩ := id hmay
  have hold := List.mem_of_find?_eq_some haction
  obtain ⟨t, hdata, hintegrity, -⟩ := ActionReviewService.commit_setAction hold payload env.dbNow
  let new := { ActionReviewService.assignAction payload old with updatedAt := t }
  have hmem : new ∈ replace old new s.implementationActions := (mem_replace hold).mpr (Or.inl rfl)
  have hstore : ∃ e, s.commit (.setAction old (ActionReviewService.assignAction payload old)
      env.dbNow) = .error e := by
    cases hfits : payload.fits with
    | false => exact ⟨_, hdata hfits⟩
    | true =>
        refine ⟨_, hintegrity hfits fun hvalid => ?_⟩
        rcases hfields with htitle | hassignee | hunfit
        · refine hvalid.nnTitle new hmem ?_
          show provided payload.title old.title = none
          rw [htitle]
          rfl
        · refine hvalid.nnAssignee new hmem ?_
          show provided payload.assigneeId old.assigneeId = none
          rw [hassignee]
          rfl
        · exact Bool.false_ne_true (hunfit.symm.trans hfits)
  have hrun : ((ActionOp.updateAction env user w d a payload).program dep).run s =
      ((ActionReviewService.updateAction env user w d a payload).run s).map (Intent.map Sum.inr) :=
    Request.run_map _ _ _
  rw [ActionReviewService.updateAction_run.mpr ⟨old, haction, hmay, rfl⟩] at hrun
  obtain ⟨e, he⟩ := hstore
  rcases Request.exec_commit ActionDb.commit hrun with ⟨s', hc, -⟩ | ⟨e', he', hexec⟩
  · rw [he] at hc
    cases hc
  · exact ⟨e', hexec⟩

end

/-! ## Null safety -/

/-- **An update is null-safe unless something that a column refuses gets past the guards**: a
text with U+0000, a time out of range, or a null for the title or the assignee of an action. -/
theorem null_safe_iff (dep : Deployment) (op : ActionOp) (s : ActionDb) (hop : op.isUpdate)
    (haccepted : op.Accepted) : op.NullSafe dep s ↔ ¬ op.WritesRefused s := by
  cases op with
  | updateAction env user w d a payload =>
      refine ⟨fun hsafe hrefused => ?_, nullSafe_updateAction⟩
      obtain ⟨e, hexec⟩ := updateAction_refused dep hrefused
      rcases hsafe with ⟨e', he, hdomain, -⟩ | ⟨hok, -⟩
      · rw [hexec] at he
        cases he
        exact hdomain
      · rw [hexec] at hok
        cases hok
  | createAction | transitionAction => nomatch hop
  | core op =>
      cases op
      case updateWorkspace => exact nullSafe_updateWorkspace
      case updateDecision => exact nullSafe_updateDecision
      case updateProposal => exact nullSafe_updateProposal
      case updateCriterion => exact nullSafe_updateCriterion haccepted
      case updateObjection => exact nullSafe_updateObjection
      case updateReview => exact nullSafe_updateReview
      all_goals exact absurd hop Bool.false_ne_true

/-! ## A sample -/

/-- The locked decision with an action for Bob. -/
def Sample.planned : ActionDb :=
  (Request.exec ActionDb.commit (addsAction.program dep) (.of locked)).2

/-- `{"due_at": null, "description": "by Friday"}` -/
def Sample.describes : ActionOp :=
  .updateAction (env 16 0) ada 10 20 90 ⟨none, some (some "by Friday"), none, some none⟩

/-- `{"title": null}` -/
def Sample.untitles : ActionOp :=
  .updateAction (env 16 0) ada 10 20 90 ⟨some none, none, none, none⟩

theorem null_safe_iff_sample :
    Sample.describes.NullSafe Sample.dep Sample.planned :=
  (null_safe_iff Sample.dep Sample.describes Sample.planned rfl trivial).mpr fun h => by
    rcases h.1 with h | h | h <;> nomatch h

/-- **A null title gets as far as the table.** -/
theorem null_title_reaches_table :
    ¬ Sample.untitles.NullSafe Sample.dep Sample.planned := by
  have hraised : (match (Request.exec ActionDb.commit (Sample.untitles.program Sample.dep)
      Sample.planned).1 with
      | .error e => some e
      | .ok _ => none) = some (.service (.database .integrity)) := by decide +kernel
  rintro (⟨e, he, hdomain, -⟩ | ⟨hok, -⟩)
  · rw [he] at hraised
    cases hraised
    exact hdomain
  · cases hr : (Request.exec ActionDb.commit (Sample.untitles.program Sample.dep)
      Sample.planned).1 with
    | error e =>
        rw [hr] at hok
        cases hok
    | ok r =>
        rw [hr] at hraised
        nomatch hraised

end ForkRoom
