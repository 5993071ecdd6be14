/-
# `Service.MentionList` — the list of mentions, page by page

`MentionService.list_mentions` with its cursor, `MentionRepository.list_for_user`, and what
the controller makes of an error.  A cursor is base64 of a JSON object

    {"created_at": "<isoformat>", "id": "<uuid>"}

and reading one back can go wrong at every step:

    encode, base64, decode    ValueError
    json.loads                ValueError, RecursionError
    payload[…]                KeyError, TypeError
    fromisoformat             ValueError, TypeError
    UUID                      ValueError, TypeError, AttributeError

`ValueError`, `TypeError` and `KeyError` are caught; `room` is how many arrays and objects
fit into the outermost one before the interpreter has no more.  What has been read back is a
parameter of the query: the driver sends its time in UTC, and has none before the year 1 or
after 9999.
-/
import ForkRoom.Lib.JsonText
import ForkRoom.Lib.Pages
import ForkRoom.Model.Parsing
import ForkRoom.Service.Inbox
import Mathlib.Data.Prod.Lex

namespace ForkRoom

open Codec JsonText

/-- The exceptions that the standard library and the driver of the database raise here. -/
inductive PyException where
  | valueError | typeError | keyError | attributeError | recursionError | dbapiError
  deriving DecidableEq, Repr

inductive MentionListError where
  | workspaceNotFound | cursorInvalid
  | raised (exception : PyException)
  deriving DecidableEq, Repr

/-! ## The cursor -/

/-- `payload[key]` -/
def Value.subscript (key : String) : Value → Except PyException Value
  | .dict fields => ((lookup (.ofString key) fields).map Except.ok).getD (.error .keyError)
  | _ => .error .typeError

/-- `datetime.fromisoformat(value)` -/
def Value.fromisoformat : Value → Except PyException PyDatetime
  | .str s => ((ForkRoom.fromisoformat (Text.chars s)).map Except.ok).getD (.error .valueError)
  | _ => .error .typeError

/-- `UUID(value)`: one of its arguments must be given, and it asks `hex` to `replace`. -/
def Value.uuid : Value → Except PyException UUID
  | .str s => ((parseUuid (Text.chars s)).map Except.ok).getD (.error .valueError)
  | .null => .error .typeError
  | _ => .error .attributeError

/-- `json.loads(text)` -/
def jsonLoads (room : Nat) (text : List Char) : Except PyException Value :=
  match loads (room + 1) text with
  | .ok value => .ok value
  | .error .value => .error .valueError
  | .error .recursion => .error .recursionError

/-- `base64.urlsafe_b64decode(cursor.encode()).decode()` -/
def cursorText (cursor : Text) : Option (List Char) := do
  let bytes ← encode cursor
  let raw ← decode64 bytes
  decode raw

namespace MentionService

/-- `_encode_cursor`; the names are in order as they are. -/
def encodeCursor (createdAt : PyDatetime) (mentionId : UUID) : Text :=
  let raw := (Json.dumps (.obj [("created_at", .str (String.ofList createdAt.isoformat)),
    ("id", .str mentionId.str)])).flatMap String.utf8EncodeChar
  (asciiChars (encode64 raw)).map .ofChar

/-- The `try` of `_decode_cursor`. -/
def readCursor (room : Nat) (cursor : Text) : Except PyException (PyDatetime × UUID) :=
  match cursorText cursor with
  | none => .error .valueError
  | some text => do
      let payload ← jsonLoads room text
      let createdAt ← Value.fromisoformat (← Value.subscript "created_at" payload)
      let mentionId ← Value.uuid (← Value.subscript "id" payload)
      pure (createdAt, mentionId)

/-- `_decode_cursor` -/
def decodeCursor (room : Nat) : Option Text → Except MentionListError (Option (PyDatetime × UUID))
  | none => .ok none
  | some cursor =>
      match readCursor room cursor with
      | .error .valueError | .error .typeError | .error .keyError => .error .cursorInvalid
      | .error exception => .error (.raised exception)
      | .ok (createdAt, mentionId) =>
          if createdAt.utcoffset = none then .error .cursorInvalid
          else .ok (some (createdAt, mentionId))

end MentionService

/-! ## `list_for_user` -/

structure MentionRecord where
  mention : Mention
  comment : Comment
  actor : User
  decision : Decision
  proposal : Option Proposal
  objection : Option Objection

inductive MentionStatus where
  | all | unread
  deriving DecidableEq, Repr

/-- The later is listed first, and of one time the greater identifier. -/
abbrev MentionKey := Datetime ×ₗ Nat

def Mention.key (m : Mention) : MentionKey := toLex (m.createdAt, m.id.toNat)

namespace MentionRepository

/-- The joins of a mention. -/
def join (db : Db) (t : CommentTables) (m : Mention) : Option MentionRecord := do
  let comment ← t.comments.find? fun c => decide (c.id = m.commentId)
  let actor ← Rows.find m.mentionedById db.users
  let decision ← Rows.find m.decisionId db.decisions
  pure ⟨m, comment, actor, decision, m.proposalId.bind fun p => Rows.find p db.proposals,
    m.objectionId.bind fun o => Rows.find o db.objections⟩

/-- The filters of a list, but for the cursor. -/
def isListed (workspaceId userId : UUID) (unreadOnly : Bool) (r : MentionRecord) : Bool :=
  decide (r.mention.workspaceId = workspaceId) && decide (r.mention.mentionedUserId = userId) &&
    r.mention.deletedAt.isNone && r.comment.deletedAt.isNone &&
    (!unreadOnly || r.mention.readAt.isNone)

/-- `created_at < :created_at OR (created_at = :created_at AND id < :id)` -/
def isBehind (cursor : Option (PyDatetime × UUID)) (r : MentionRecord) : Bool :=
  cursor.all fun c => decide (r.mention.createdAt < c.1.instant) ||
    (decide (r.mention.createdAt = c.1.instant) && decide (r.mention.id < c.2))

/-- `astimezone(utc)` of the cursor's time is a `datetime`. -/
def isSent (cursor : Option (PyDatetime × UUID)) : Bool :=
  cursor.all fun c => isTimestamp c.1.instant

def listForUser (workspaceId userId : UUID) (unreadOnly : Bool) (limit : Nat)
    (cursor : Option (PyDatetime × UUID)) (db : Db) (t : CommentTables) :
    List MentionRecord × Bool :=
  let found := (t.mentions.filterMap (join db t)).filter fun r =>
    isListed workspaceId userId unreadOnly r && isBehind cursor r
  let rows := (Rows.orderBy (fun a b => decide (b.mention.key ≤ a.mention.key)) found).take
    (limit + 1)
  (rows.take limit, decide (limit < rows.length))

/-- `unread_count` of one workspace. -/
def unreadCountIn (userId workspaceId : UUID) (t : CommentTables) : Nat :=
  (t.mentions.filter fun m => decide (m.mentionedUserId = userId) && m.readAt.isNone &&
    m.deletedAt.isNone && decide (m.workspaceId = workspaceId) &&
    t.comments.any fun c => decide (c.id = m.commentId) && c.deletedAt.isNone).length

end MentionRepository

/-! ## `list_mentions` -/

inductive MentionContextType where
  | decisionComment | proposalComment | objectionComment
  deriving DecidableEq, Repr

structure MentionContextResponse where
  type : MentionContextType
  decisionId : UUID
  decisionTitle : String
  proposalId : Option UUID
  proposalTitle : Option String
  objectionId : Option UUID
  objectionTitle : Option String

/-- An account is shown by its name; the model keeps no avatars. -/
structure MentionActorResponse where
  id : UUID
  displayName : String

structure MentionResponse where
  id : UUID
  workspaceId : UUID
  commentId : UUID
  mentionedBy : MentionActorResponse
  excerpt : String
  context : MentionContextResponse
  href : String
  createdAt : Datetime
  readAt : Option Datetime

structure MentionListResponse where
  items : List MentionResponse
  unreadCount : Nat
  nextCursor : Option Text

/-- The `datetime` of a `timestamptz`; Python reads none that is out of its range. -/
def Datetime.aware (t : Datetime) : PyDatetime where
  wall := ⟨max datetimeMin (min t datetimeMax), le_max_left _ _,
    max_le (by decide) (min_le_right _ _)⟩
  utcoffset := some ⟨0, by decide, by decide⟩

namespace MentionService

/-- `_response` -/
def response (r : MentionRecord) : MentionResponse where
  id := r.mention.id
  workspaceId := r.mention.workspaceId
  commentId := r.comment.id
  mentionedBy := ⟨r.actor.id, r.actor.displayName⟩
  excerpt := CommentService.excerpt r.comment.body
  context :=
    { type := if r.objection.isSome then .objectionComment
        else if r.proposal.isSome then .proposalComment
        else .decisionComment
      decisionId := r.decision.id
      decisionTitle := r.decision.title
      proposalId := r.proposal.map Proposal.id
      proposalTitle := r.proposal.map Proposal.title
      objectionId := r.objection.map Objection.id
      objectionTitle := r.objection.map Objection.title }
  href := "/w/" ++ r.mention.workspaceId.str ++ "/decisions/" ++ r.mention.decisionId.str ++
    "?comment=" ++ r.comment.id.str
  createdAt := r.mention.createdAt
  readAt := r.mention.readAt

def listMentions (room : Nat) (currentUser : User) (workspaceId : UUID) (status : MentionStatus)
    (limit : Nat) (db : Db) (t : CommentTables) (cursor : Option Text) :
    Except MentionListError MentionListResponse := do
  match requireMembership currentUser.id workspaceId db with
  | .error _ => .error .workspaceNotFound
  | .ok () =>
      let cursor ← decodeCursor room cursor
      if MentionRepository.isSent cursor then
        let (records, hasMore) := MentionRepository.listForUser workspaceId currentUser.id
          (status = .unread) limit cursor db t
        pure {
          items := records.map response
          unreadCount := MentionRepository.unreadCountIn currentUser.id workspaceId t
          nextCursor := if hasMore then records.getLast?.map fun final =>
            encodeCursor final.mention.createdAt.aware final.mention.id else none }
      else .error (.raised .dbapiError)

end MentionService

/-! ## The controller -/

structure HttpException where
  statusCode : Nat
  detail : String
  deriving DecidableEq, Repr

/-- What leaves the controller instead of a response. -/
inductive Escaped where
  | http (exception : HttpException)
  | raised (exception : PyException)
  deriving DecidableEq, Repr

/-- `_raise_mention_error` -/
def raiseMentionError : MentionListError → Escaped
  | .workspaceNotFound => .http ⟨404, "Workspace not found"⟩
  | .cursorInvalid => .http ⟨400, "Invalid mentions cursor"⟩
  | .raised exception => .raised exception

namespace MentionController

def listMentions (room : Nat) (workspaceId : UUID) (currentUser : User) (status : MentionStatus)
    (limit : Nat) (cursor : Option Text) (db : Db) (t : CommentTables) :
    Except Escaped MentionListResponse :=
  (MentionService.listMentions room currentUser workspaceId status limit db t cursor).mapError
    raiseMentionError

end MentionController

end ForkRoom
