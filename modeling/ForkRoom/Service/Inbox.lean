/-
# `Service.Inbox` — the two inboxes

`MentionService` and `NotificationService` show a mention twice: as a row of `mentions` and
as the notification of it.  Both keep a `read_at`.

    read, unread                        mentions    notifications
    MentionService, one mention         yes         yes
    MentionService, all of a workspace  yes         yes
    NotificationService, one            no          yes
    NotificationService, all            no          yes

Deleting a proposal or a decision deletes the comments and mentions that refer to what is
deleted, by their foreign keys; a notification refers to its source by no foreign key.
-/
import ForkRoom.Service.Comment
import ForkRoom.Service.Proposal

namespace ForkRoom

inductive InboxError where
  | workspaceNotFound | mentionNotFound | notificationNotFound
  deriving DecidableEq, Repr

/-! ## Mentions -/

namespace MentionRepository

def getOwned (workspaceId mentionId userId : UUID) (t : CommentTables) : Option Mention :=
  t.mentions.find? fun m => decide (m.id = mentionId) && decide (m.workspaceId = workspaceId) &&
    decide (m.mentionedUserId = userId) && m.deletedAt.isNone

def setRead (mention : Mention) (readAt : Option Datetime) (t : CommentTables) : CommentTables :=
  { t with
    mentions := t.mentions.map fun m =>
      if m.id = mention.id then { m with readAt := readAt } else m
    notifications := t.notifications.map fun n =>
      if n.kind = .mention ∧ n.sourceId = mention.id ∧ n.recipientId = mention.mentionedUserId then
        { n with readAt := readAt }
      else n }

/-- The unread mentions of a user in a workspace. -/
def unreadIds (workspaceId userId : UUID) (t : CommentTables) : List UUID :=
  (t.mentions.filter fun m => decide (m.workspaceId = workspaceId) &&
    decide (m.mentionedUserId = userId) && m.readAt.isNone && m.deletedAt.isNone).map Mention.id

def markAllRead (workspaceId userId : UUID) (now : Datetime) (t : CommentTables) : CommentTables :=
  let mentionIds := unreadIds workspaceId userId t
  { t with
    mentions := t.mentions.map fun m =>
      if m.id ∈ mentionIds then { m with readAt := some now } else m
    notifications := t.notifications.map fun n =>
      if n.kind = .mention ∧ n.sourceId ∈ mentionIds ∧ n.recipientId = userId then
        { n with readAt := some now }
      else n }

/-- `unread_count` over all workspaces; `JOIN comments ON comments.id = …`. -/
def unreadCount (userId : UUID) (t : CommentTables) : Nat :=
  (t.mentions.filter fun m => decide (m.mentionedUserId = userId) && m.readAt.isNone &&
    m.deletedAt.isNone && t.comments.any fun c => decide (c.id = m.commentId) &&
      c.deletedAt.isNone).length

end MentionRepository

namespace MentionService

def requireMembership (userId workspaceId : UUID) (db : Db) : Except InboxError Unit :=
  if (WorkspaceRepository.getById workspaceId db).isNone then .error .workspaceNotFound
  else if (WorkspaceRepository.getMembership workspaceId userId db).isNone then
    .error .workspaceNotFound
  else .ok ()

/-- `_set_read` -/
def setRead (user : User) (workspaceId mentionId : UUID) (readAt : Option Datetime) (db : Db)
    (t : CommentTables) : Except InboxError CommentTables := do
  requireMembership user.id workspaceId db
  match MentionRepository.getOwned workspaceId mentionId user.id t with
  | none => .error .mentionNotFound
  | some mention => .ok (MentionRepository.setRead mention readAt t)

def markRead (user : User) (workspaceId mentionId : UUID) (now : Datetime) (db : Db)
    (t : CommentTables) : Except InboxError CommentTables :=
  setRead user workspaceId mentionId (some now) db t

def markUnread (user : User) (workspaceId mentionId : UUID) (db : Db) (t : CommentTables) :
    Except InboxError CommentTables :=
  setRead user workspaceId mentionId none db t

def markAllRead (user : User) (workspaceId : UUID) (now : Datetime) (db : Db)
    (t : CommentTables) : Except InboxError CommentTables := do
  requireMembership user.id workspaceId db
  .ok (MentionRepository.markAllRead workspaceId user.id now t)

end MentionService

/-! ## Notifications -/

namespace NotificationRepository

/-- `get_for_recipient`, with the columns of the inbox. -/
def getOwnNotification (notificationId recipientId : UUID) (t : CommentTables) :
    Option InboxNotification :=
  t.notifications.find? fun n => decide (n.id = notificationId) &&
    decide (n.recipientId = recipientId)

def markRead (notification : InboxNotification) (now : Datetime) (t : CommentTables) :
    CommentTables :=
  if notification.readAt = none then
    { t with
      notifications := t.notifications.map fun n =>
        if n.id = notification.id then { n with readAt := some now } else n }
  else t

def markAllRead (recipientId : UUID) (now : Datetime) (t : CommentTables) : CommentTables :=
  { t with
    notifications := t.notifications.map fun n =>
      if n.recipientId = recipientId ∧ n.readAt = none then { n with readAt := some now } else n }

/-- What `unread_count` counts, of one kind. -/
def unreadCountOf (kind : NotificationKind) (recipientId : UUID) (t : CommentTables) : Nat :=
  (t.notifications.filter fun n => decide (n.kind = kind) &&
    decide (n.recipientId = recipientId) && n.readAt.isNone).length

end NotificationRepository

namespace NotificationService

def markRead (user : User) (notificationId : UUID) (now : Datetime) (t : CommentTables) :
    Except InboxError CommentTables :=
  match NotificationRepository.getOwnNotification notificationId user.id t with
  | none => .error .notificationNotFound
  | some notification => .ok (NotificationRepository.markRead notification now t)

def markAllRead (user : User) (now : Datetime) (t : CommentTables) : CommentTables :=
  NotificationRepository.markAllRead user.id now t

end NotificationService

/-! ## Cascades -/

/-- The identifiers of the rows that are deleted. -/
structure Deleted where
  decisions : List UUID
  proposals : List UUID
  objections : List UUID

/-- `ON DELETE CASCADE` from the proposal to its objections. -/
def Deleted.ofProposal (db : Db) (proposalId : UUID) : Deleted where
  decisions := []
  proposals := [proposalId]
  objections := (db.objections.filter fun o => o.proposalId = proposalId).map Objection.id

/-- `ON DELETE CASCADE` from the decision to its proposals, and to their objections. -/
def Deleted.ofDecision (db : Db) (decisionId : UUID) : Deleted :=
  let proposals := (db.proposals.filter fun p => p.decisionId = decisionId).map Proposal.id
  { decisions := [decisionId]
    proposals := proposals
    objections := (db.objections.filter fun o => proposals.contains o.proposalId).map Objection.id }

/-- A foreign key leads to a deleted row. -/
def Deleted.reaches (x : Deleted) (decisionId : UUID) (proposalId objectionId : Option UUID) :
    Bool :=
  x.decisions.contains decisionId || proposalId.any x.proposals.contains ||
    objectionId.any x.objections.contains

/-- The mention is deleted with what it refers to, or with its comment. -/
def Deleted.takes (x : Deleted) (t : CommentTables) (m : Mention) : Bool :=
  x.reaches m.decisionId m.proposalId m.objectionId || t.comments.any fun c =>
    decide (c.id = m.commentId) && x.reaches c.decisionId c.proposalId c.objectionId

def CommentTables.cascade (t : CommentTables) (x : Deleted) : CommentTables :=
  { t with
    comments := t.comments.filter fun c => !x.reaches c.decisionId c.proposalId c.objectionId
    mentions := t.mentions.filter fun m => !x.takes t m }

end ForkRoom
