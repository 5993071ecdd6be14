/-
# `Service.Comment` — comments, mentions, and the notifications of mentions

`CommentService` and `CommentRepository`, with the half of `MentionRepository` that they
call.  Each operation is one transaction: what it reads of the workspace is the database
`db`, what it reads and writes of its own are the three tables `CommentTables`, and an
exception before the commit leaves them as they were.

    comment           mention of a user      its notification
    lists the user    new row                new row
    lists him again   the old row, active    new row, under the same key
    no longer         kept, deleted          deleted

Keys are checked where a row is inserted.  The rows that a new row refers to have been read
in the same transaction, and the columns hold every text that is put into them, so no
other constraint can refuse it.  A `set` is the list of its members, each once; nothing
depends on their order.
-/
import ForkRoom.Model.Repositories
import ForkRoom.Service.Notification

namespace ForkRoom

/-! ## Rows -/

structure Comment where
  id : UUID
  workspaceId : UUID
  decisionId : UUID
  proposalId : Option UUID
  objectionId : Option UUID
  authorId : UUID
  body : String
  structuredBody : Json
  deletedAt : Option Datetime

structure Mention where
  id : UUID
  workspaceId : UUID
  commentId : UUID
  mentionedUserId : UUID
  mentionedById : UUID
  decisionId : UUID
  proposalId : Option UUID
  objectionId : Option UUID
  createdAt : Datetime
  readAt : Option Datetime
  deletedAt : Option Datetime
  deriving DecidableEq

/-- A notification with the columns of the inbox. -/
structure InboxNotification extends Notification where
  actorId : Option UUID
  entityType : Option String
  entityId : Option UUID
  actionUrl : Option String
  readAt : Option Datetime
  deriving DecidableEq

instance : Rows.Keyed Comment UUID := ⟨Comment.id⟩
instance : Rows.Keyed Mention UUID := ⟨Mention.id⟩
instance : Rows.Keyed InboxNotification UUID := ⟨fun n => n.id⟩

structure CommentTables where
  comments : List Comment
  mentions : List Mention
  notifications : List InboxNotification

/-- The keys that an `INSERT` can find taken. -/
inductive CommentConstraint where
  | commentsPkey | mentionsPkey | uqMentionsCommentUser | notificationsPkey
  | uqNotificationsIdempotencyKey
  deriving DecidableEq, Repr

inductive CommentError where
  | workspaceNotFound | decisionNotFound | commentNotFound | commentAccessDenied
  | commentContextInvalid | mentionMemberInvalid
  | integrity (constraint : CommentConstraint)
  deriving DecidableEq, Repr

def CommentTables.insertComment (t : CommentTables) (row : Comment) :
    Except CommentError CommentTables :=
  if row.id ∈ t.comments.map Comment.id then .error (.integrity .commentsPkey)
  else .ok { t with comments := t.comments ++ [row] }

def CommentTables.insertMention (t : CommentTables) (row : Mention) :
    Except CommentError CommentTables :=
  if row.id ∈ t.mentions.map Mention.id then .error (.integrity .mentionsPkey)
  else if t.mentions.any fun m => decide (m.commentId = row.commentId) &&
      decide (m.mentionedUserId = row.mentionedUserId) then
    .error (.integrity .uqMentionsCommentUser)
  else .ok { t with mentions := t.mentions ++ [row] }

def CommentTables.insertNotification (t : CommentTables) (row : InboxNotification) :
    Except CommentError CommentTables :=
  if row.id ∈ t.notifications.map (fun n => n.id) then .error (.integrity .notificationsPkey)
  else if row.idempotencyKey ∈ t.notifications.map (fun n => n.idempotencyKey) then
    .error (.integrity .uqNotificationsIdempotencyKey)
  else .ok { t with notifications := t.notifications ++ [row] }

/-! ## Requests -/

inductive CommentNode where
  | text (text : String)
  | mention (userId : UUID) (label : String)

structure StructuredCommentBody where
  content : List CommentNode

structure CommentCreateRequest where
  body : String
  structuredBody : StructuredCommentBody
  proposalId : Option UUID
  objectionId : Option UUID

structure CommentUpdateRequest where
  body : String
  structuredBody : StructuredCommentBody

structure CommentEnv where
  /-- `datetime.now(UTC)` -/
  now : Datetime
  /-- `uuid4()` of the comment -/
  commentId : UUID
  /-- `uuid4()` of the mention of a user -/
  mentionId : UUID → UUID
  /-- `uuid4()` of the notification of a user -/
  notificationId : UUID → UUID

structure CommentRecord where
  comment : Comment
  author : User

/-! ## `CommentRepository` -/

namespace CommentRepository

def proposalBelongsToDecision (proposalId decisionId : UUID) (db : Db) : Bool :=
  db.proposals.any fun p => decide (p.id = proposalId) && decide (p.decisionId = decisionId)

def objectionBelongsToDecision (objectionId decisionId : UUID) (db : Db) : Bool :=
  db.objections.any fun o => decide (o.id = objectionId) &&
    db.proposals.any fun p => decide (p.id = o.proposalId) && decide (p.decisionId = decisionId)

def activeWorkspaceUsers (workspaceId : UUID) (userIds : List UUID) (db : Db) : List User :=
  db.users.filter fun u => userIds.contains u.id && u.isActive &&
    db.workspaceMembers.any fun m =>
      decide (m.workspaceId = workspaceId) && decide (m.userId = u.id)

/-- `get_record`, deleted comments left out. -/
def getRecord (workspaceId commentId : UUID) (db : Db) (t : CommentTables) :
    Option CommentRecord := do
  let comment ← t.comments.find? fun c =>
    decide (c.id = commentId) && decide (c.workspaceId = workspaceId) && c.deletedAt.isNone
  let author ← Rows.find comment.authorId db.users
  pure ⟨comment, author⟩

end CommentRepository

/-! ## `MentionRepository` -/

namespace MentionRepository

/-- `_delete_notification` -/
def deleteNotification (t : CommentTables) (mentionId : UUID) : CommentTables :=
  { t with
    notifications := t.notifications.filter fun n =>
      !(decide (n.kind = .mention) && decide (n.sourceId = mentionId)) }

def removed (now : Datetime) (m : Mention) : Mention :=
  { m with deletedAt := some now, readAt := some now }

/-- The mention goes, and its notification. -/
def removeMention (now : Datetime) (t : CommentTables) (mention : Mention) : CommentTables :=
  deleteNotification
    { t with mentions := Rows.modify mention.id (removed now) t.mentions } mention.id

/-- The notification of a mention, with the columns of the inbox. -/
def inboxNotification (env : CommentEnv) (comment : Comment) (mentionedBy : User)
    (actionUrl excerpt : String) (mentionId userId : UUID) : InboxNotification :=
  { notification mentionId userId comment.workspaceId (env.notificationId userId)
      mentionedBy.displayName excerpt env.now with
    actorId := some mentionedBy.id
    entityType := some "comment"
    entityId := some comment.id
    actionUrl := some actionUrl
    readAt := none }

/-- The row of a user who has not been mentioned in the comment before. -/
def newMention (env : CommentEnv) (comment : Comment) (mentionedBy : User) (userId : UUID) :
    Mention :=
  { id := env.mentionId userId
    workspaceId := comment.workspaceId
    commentId := comment.id
    mentionedUserId := userId
    mentionedById := mentionedBy.id
    decisionId := comment.decisionId
    proposalId := comment.proposalId
    objectionId := comment.objectionId
    createdAt := env.now
    readAt := none
    deletedAt := none }

/-- The row of one who has been. -/
def renewed (env : CommentEnv) (comment : Comment) (mentionedBy : User) (m : Mention) : Mention :=
  { m with
    mentionedById := mentionedBy.id
    proposalId := comment.proposalId
    objectionId := comment.objectionId
    createdAt := env.now
    readAt := none
    deletedAt := none }

/-- A mention comes in, or comes back, with its notification. -/
def addMention (env : CommentEnv) (comment : Comment) (mentionedBy : User)
    (actionUrl excerpt : String) (existing : List Mention) (t : CommentTables) (userId : UUID) :
    Except CommentError CommentTables :=
  match existing.find? fun m => decide (m.mentionedUserId = userId) with
  | none => do
      let t ← t.insertMention (newMention env comment mentionedBy userId)
      t.insertNotification (inboxNotification env comment mentionedBy actionUrl excerpt
        (env.mentionId userId) userId)
  | some mention =>
      let t := { t with
        mentions := Rows.modify mention.id (renewed env comment mentionedBy) t.mentions }
      t.insertNotification (inboxNotification env comment mentionedBy actionUrl excerpt
        mention.id userId)

def syncForComment (env : CommentEnv) (comment : Comment) (mentionedBy : User)
    (mentionedUserIds : List UUID) (actionUrl excerpt : String) (t : CommentTables) :
    Except CommentError CommentTables :=
  let existing := t.mentions.filter fun m => m.commentId = comment.id
  let active := existing.filter fun m => m.deletedAt.isNone
  let removed := active.filter fun m => !mentionedUserIds.contains m.mentionedUserId
  let added := mentionedUserIds.filter fun u =>
    !(active.map Mention.mentionedUserId).contains u
  added.foldlM (addMention env comment mentionedBy actionUrl excerpt existing)
    (removed.foldl (removeMention env.now) t)

def removeAllForComment (commentId : UUID) (now : Datetime) (t : CommentTables) : CommentTables :=
  (t.mentions.filter fun m => decide (m.commentId = commentId) && m.deletedAt.isNone).foldl
    (removeMention now) t

end MentionRepository

/-! ## `CommentService` -/

namespace CommentService

def requireMembership (userId workspaceId : UUID) (db : Db) : Except CommentError WorkspaceMember :=
  match WorkspaceRepository.getById workspaceId db with
  | none => .error .workspaceNotFound
  | some _ =>
      match WorkspaceRepository.getMembership workspaceId userId db with
      | none => .error .workspaceNotFound
      | some membership => .ok membership

def requireDecision (workspaceId decisionId : UUID) (db : Db) : Except CommentError Unit :=
  match DecisionRepository.getForWorkspace workspaceId decisionId db with
  | none => .error .decisionNotFound
  | some _ => .ok ()

def requireComment (workspaceId commentId : UUID) (db : Db) (t : CommentTables) :
    Except CommentError CommentRecord :=
  match CommentRepository.getRecord workspaceId commentId db t with
  | none => .error .commentNotFound
  | some record => .ok record

def validateContext (decisionId : UUID) (proposalId objectionId : Option UUID) (db : Db) :
    Except CommentError Unit :=
  if proposalId.isSome && objectionId.isSome then .error .commentContextInvalid
  else if proposalId.any fun p => !CommentRepository.proposalBelongsToDecision p decisionId db then
    .error .commentContextInvalid
  else if objectionId.any fun o =>
    !CommentRepository.objectionBelongsToDecision o decisionId db then
    .error .commentContextInvalid
  else .ok ()

def mentionedUserIds (structuredBody : StructuredCommentBody) : List UUID :=
  (structuredBody.content.filterMap fun
    | .mention userId _ => some userId
    | .text _ => none).dedup

def validateMentionedUsers (workspaceId : UUID) (userIds : List UUID) (db : Db) :
    Except CommentError (List User) :=
  let users := CommentRepository.activeWorkspaceUsers workspaceId userIds db
  if userIds.all (users.map User.id).contains then .ok users else .error .mentionMemberInvalid

/-- `users[user_id].display_name`; every user asked for has been validated. -/
def label (users : List User) (userId : UUID) : String :=
  ((users.find? fun u => u.id = userId).map User.displayName).getD ""

def canonicalNode (users : List User) : CommentNode → Json
  | .mention userId _ => .obj [("type", .str "mention"), ("user_id", .str userId.str),
      ("label", .str (label users userId))]
  | .text text => .obj [("type", .str "text"), ("text", .str text)]

def canonicalStructuredBody (structuredBody : StructuredCommentBody) (users : List User) : Json :=
  .obj [("content", .arr (structuredBody.content.map (canonicalNode users)))]

def actionUrl (comment : Comment) : String :=
  "/w/" ++ comment.workspaceId.str ++ "/decisions/" ++ comment.decisionId.str ++
    "?comment=" ++ comment.id.str

def excerpt (body : String) : String :=
  let normalized := normalizeText body
  if normalized.length ≤ 180 then normalized
  else String.ofList (normalized.toList.take 177) ++ "..."

/-- `create` up to its commit. -/
def createTransaction (env : CommentEnv) (currentUser : User) (workspaceId decisionId : UUID)
    (payload : CommentCreateRequest) (db : Db) (t : CommentTables) :
    Except CommentError CommentTables := do
  let _ ← requireMembership currentUser.id workspaceId db
  requireDecision workspaceId decisionId db
  validateContext decisionId payload.proposalId payload.objectionId db
  let userIds := mentionedUserIds payload.structuredBody
  let users ← validateMentionedUsers workspaceId userIds db
  let comment : Comment :=
    { id := env.commentId
      workspaceId := workspaceId
      decisionId := decisionId
      proposalId := payload.proposalId
      objectionId := payload.objectionId
      authorId := currentUser.id
      body := strip payload.body
      structuredBody := canonicalStructuredBody payload.structuredBody users
      deletedAt := none }
  let t ← t.insertComment comment
  MentionRepository.syncForComment env comment currentUser userIds (actionUrl comment)
    (excerpt comment.body) t

/-- Only the author of a comment and the owner and admins may change it. -/
def requireAuthority (currentUser : User) (membership : WorkspaceMember) (comment : Comment) :
    Except CommentError Unit :=
  if comment.authorId ≠ currentUser.id ∧ membership.role ≠ .owner ∧ membership.role ≠ .admin then
    .error .commentAccessDenied
  else .ok ()

/-- `update` up to its commit. -/
def updateTransaction (env : CommentEnv) (currentUser : User) (workspaceId commentId : UUID)
    (payload : CommentUpdateRequest) (db : Db) (t : CommentTables) :
    Except CommentError (CommentRecord × CommentTables) := do
  let membership ← requireMembership currentUser.id workspaceId db
  let record ← requireComment workspaceId commentId db t
  requireAuthority currentUser membership record.comment
  let userIds := mentionedUserIds payload.structuredBody
  let users ← validateMentionedUsers workspaceId userIds db
  let comment : Comment :=
    { record.comment with
      body := strip payload.body
      structuredBody := canonicalStructuredBody payload.structuredBody users }
  let t : CommentTables :=
    { t with comments := Rows.modify comment.id (fun _ => comment) t.comments }
  let t ← MentionRepository.syncForComment env comment record.author userIds (actionUrl comment)
    (excerpt payload.body) t
  pure (⟨comment, record.author⟩, t)

/-- `delete` up to its commit. -/
def deleteTransaction (env : CommentEnv) (currentUser : User) (workspaceId commentId : UUID)
    (db : Db) (t : CommentTables) : Except CommentError CommentTables := do
  let membership ← requireMembership currentUser.id workspaceId db
  let record ← requireComment workspaceId commentId db t
  requireAuthority currentUser membership record.comment
  let t : CommentTables :=
    { t with
      comments := Rows.modify record.comment.id (fun c => { c with deletedAt := some env.now })
        t.comments }
  pure (MentionRepository.removeAllForComment record.comment.id env.now t)

/-- The new comment is read again after the commit. -/
def create (env : CommentEnv) (currentUser : User) (workspaceId decisionId : UUID)
    (payload : CommentCreateRequest) (db : Db) (t : CommentTables) :
    Except CommentError CommentRecord × CommentTables :=
  match createTransaction env currentUser workspaceId decisionId payload db t with
  | .error e => (.error e, t)
  | .ok t' => (requireComment workspaceId env.commentId db t', t')

def update (env : CommentEnv) (currentUser : User) (workspaceId commentId : UUID)
    (payload : CommentUpdateRequest) (db : Db) (t : CommentTables) :
    Except CommentError CommentRecord × CommentTables :=
  match updateTransaction env currentUser workspaceId commentId payload db t with
  | .error e => (.error e, t)
  | .ok (record, t') => (.ok record, t')

def delete (env : CommentEnv) (currentUser : User) (workspaceId commentId : UUID) (db : Db)
    (t : CommentTables) : Except CommentError Unit × CommentTables :=
  match deleteTransaction env currentUser workspaceId commentId db t with
  | .error e => (.error e, t)
  | .ok t' => (.ok (), t')

end CommentService

end ForkRoom
