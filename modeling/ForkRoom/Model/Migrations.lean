/-
# `Model.Migrations` — three downgrades

What `alembic/versions` does on the way back from the revisions that introduced locks,
the outcomes of reviews, and mentions.  A downgrade runs in one transaction; what it
does to a row is to drop columns and, in one case, to convert the row.  Creating a
check constraint looks at every row there is, and fails if one breaks it.

    revision        table               the older check                       conversion
    d9f2a6c4e8b1    decisions           no `locked`                           locked → closed
    f2b4c8e1a6d9    decision_reviews    no `completed`, the state of a        none
                                        cancellation
    f4c8a2d6e9b1    notifications       no `mention`                          none

Indexes, foreign keys and the tables that are dropped whole stop nothing and are left
out: at the revision itself no other table refers to them.
-/
import ForkRoom.Model.Records
import ForkRoom.Model.Notification

namespace ForkRoom

def DecisionStatus.value : DecisionStatus → String
  | draft => "draft"
  | active => "active"
  | closed => "closed"
  | locked => "locked"
  | archived => "archived"

def ReviewStatus.value : ReviewStatus → String
  | scheduled => "scheduled"
  | completed => "completed"
  | cancelled => "cancelled"

namespace Migrations

/-- `op.create_check_constraint`, on the rows of the table. -/
def createCheckConstraint {α : Type} (name : String) (check : α → Prop) [DecidablePred check]
    (rows : List α) : Except String Unit :=
  if ∀ r ∈ rows, check r then .ok () else .error name

/-! ## `create_decision_locks` -/

/-- A decision before there were locks. -/
structure UnlockableDecision where
  id : UUID
  workspaceId : UUID
  createdById : UUID
  title : String
  summary : Option String
  category : DecisionCategory
  status : String
  dueAt : Option Datetime
  reviewAt : Option Datetime
  closedAt : Option Datetime
  archivedAt : Option Datetime
  createdAt : Datetime
  updatedAt : Datetime
  deriving DecidableEq

/-- `decision_status` -/
def UnlockableDecision.StatusCheck (d : UnlockableDecision) : Prop :=
  d.status ∈ ["draft", "active", "closed", "archived"]

instance : DecidablePred UnlockableDecision.StatusCheck :=
  fun d => inferInstanceAs (Decidable (d.status ∈ _))

/-- `UPDATE decisions SET status = 'closed', closed_at = COALESCE(closed_at, locked_at)
WHERE status = 'locked'` -/
def closeLocked (d : Decision) : Decision :=
  if d.status = .locked then
    { d with status := .closed, closedAt := d.closedAt.or d.lockedAt }
  else d

/-- `DROP COLUMN locked_at` -/
def dropLockedAt (d : Decision) : UnlockableDecision :=
  { id := d.id
    workspaceId := d.workspaceId
    createdById := d.createdById
    title := d.title
    summary := d.summary
    category := d.category
    status := d.status.value
    dueAt := d.dueAt
    reviewAt := d.reviewAt
    closedAt := d.closedAt
    archivedAt := d.archivedAt
    createdAt := d.createdAt
    updatedAt := d.updatedAt }

def downgradeDecisionLocks (decisions : List Decision) :
    Except String (List UnlockableDecision) := do
  let rows := (decisions.map closeLocked).map dropLockedAt
  createCheckConstraint "decision_status" UnlockableDecision.StatusCheck rows
  pure rows

/-! ## `create_review_outcomes_and_revisions` -/

/-- A review before there were outcomes. -/
structure PlainReview where
  id : UUID
  decisionId : UUID
  scheduledById : UUID
  scheduledFor : Datetime
  status : String
  notes : Option String
  cancelledById : Option UUID
  cancelledAt : Option Datetime
  deriving DecidableEq

/-- `review_status` -/
def PlainReview.StatusCheck (r : PlainReview) : Prop := r.status ∈ ["scheduled", "cancelled"]

/-- `ck_decision_reviews_cancelled_state` -/
def PlainReview.CancelledState (r : PlainReview) : Prop :=
  (r.status = "scheduled" ∧ r.cancelledAt = none ∧ r.cancelledById = none) ∨
    (r.status = "cancelled" ∧ r.cancelledAt ≠ none ∧ r.cancelledById ≠ none)

instance : DecidablePred PlainReview.StatusCheck :=
  fun r => inferInstanceAs (Decidable (r.status ∈ _))
instance : DecidablePred PlainReview.CancelledState :=
  fun _ => inferInstanceAs (Decidable (_ ∨ _))

/-- `DROP COLUMN` of `outcome`, `outcome_rationale`, `completed_by_id` and `completed_at`. -/
def dropOutcome (r : DecisionReview) : PlainReview :=
  { id := r.id
    decisionId := r.decisionId
    scheduledById := r.scheduledById
    scheduledFor := r.scheduledFor
    status := r.status.value
    notes := r.notes
    cancelledById := r.cancelledById
    cancelledAt := r.cancelledAt }

def downgradeReviewOutcomes (reviews : List DecisionReview) : Except String (List PlainReview) := do
  let rows := reviews.map dropOutcome
  createCheckConstraint "review_status" PlainReview.StatusCheck rows
  createCheckConstraint "ck_decision_reviews_cancelled_state" PlainReview.CancelledState rows
  pure rows

/-! ## `create_comments_and_mentions` -/

/-- `notification_kind`; the columns that are dropped are not among those of the model. -/
def KindCheck (n : Notification) : Prop :=
  n.kind.value ∈ ["action_due", "decision_review", "decision_deadline", "voting_close"]

instance : DecidablePred KindCheck := fun n => inferInstanceAs (Decidable (n.kind.value ∈ _))

def downgradeMentions (notifications : List Notification) : Except String (List Notification) := do
  createCheckConstraint "notification_kind" KindCheck notifications
  pure notifications

/-! ## Checks -/

/-- A migration goes on exactly if every row satisfies the check. -/
theorem createCheckConstraint_bind {α β : Type} {name : String} {check : α → Prop}
    [DecidablePred check] {rows : List α} {f : Unit → Except String β} {b : β} :
    (createCheckConstraint name check rows >>= f) = .ok b ↔
      (∀ r ∈ rows, check r) ∧ f () = .ok b := by
  unfold createCheckConstraint
  split
  · rename_i h
    exact ⟨fun he => ⟨h, he⟩, fun he => he.2⟩
  · rename_i h
    exact ⟨fun he => (nomatch he), fun he => absurd he.1 h⟩

/-- What a downgrade leaves satisfies the checks it has created. -/
theorem downgradeDecisionLocks_ok {decisions : List Decision} {rows : List UnlockableDecision} :
    downgradeDecisionLocks decisions = .ok rows ↔
      (∀ r ∈ rows, r.StatusCheck) ∧ rows = (decisions.map closeLocked).map dropLockedAt := by
  rw [downgradeDecisionLocks, createCheckConstraint_bind]
  constructor
  · rintro ⟨hcheck, h⟩
    cases h
    exact ⟨hcheck, rfl⟩
  · rintro ⟨hcheck, rfl⟩
    exact ⟨hcheck, rfl⟩

theorem downgradeReviewOutcomes_ok {reviews : List DecisionReview} {rows : List PlainReview} :
    downgradeReviewOutcomes reviews = .ok rows ↔
      ((∀ r ∈ rows, r.StatusCheck) ∧ ∀ r ∈ rows, r.CancelledState) ∧
        rows = reviews.map dropOutcome := by
  rw [downgradeReviewOutcomes, createCheckConstraint_bind, createCheckConstraint_bind]
  constructor
  · rintro ⟨hstatus, hstate, h⟩
    cases h
    exact ⟨⟨hstatus, hstate⟩, rfl⟩
  · rintro ⟨⟨hstatus, hstate⟩, rfl⟩
    exact ⟨hstatus, hstate, rfl⟩

theorem downgradeMentions_ok {notifications rows : List Notification} :
    downgradeMentions notifications = .ok rows ↔
      (∀ n ∈ rows, KindCheck n) ∧ rows = notifications := by
  rw [downgradeMentions, createCheckConstraint_bind]
  constructor
  · rintro ⟨hcheck, h⟩
    cases h
    exact ⟨hcheck, rfl⟩
  · rintro ⟨hcheck, rfl⟩
    exact ⟨hcheck, rfl⟩

end Migrations

end ForkRoom
