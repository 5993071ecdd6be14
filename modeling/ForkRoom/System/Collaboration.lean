/-
# `System.Collaboration` — the collaborative editor beside the API

Two processes share a database.  The API serves the operations of the workspace
and `issue_token`; the editor (`collaboration/src/`) authenticates connections
with those tokens, holds the documents, applies the edits of its clients and
stores the documents.

    issue_token     four reads, then the document row is looked up or created,
                    then the token is signed
    connect         the token is verified, `readOnly` is set, the document is loaded
    edit            applied, unless the connection is read-only
    save, update    `onStoreDocument` encodes the document; its `UPDATE` comes later

A document is the list of the edits in it.  The editor and its server library may
store and unload at any time.  A permission rests on two rows that `issue_token`
has read; `outdated` records that one of them has since stopped to allow writing.
-/
import ForkRoom.Lib.Machine
import ForkRoom.Service.Collaboration
import ForkRoom.System.Operations

namespace ForkRoom

open Optimistic Reads Rows

namespace Collaboration

/-! ## Documents and tokens -/

/-- An update of a document that a client has sent; `clock` tells them apart. -/
structure Edit where
  connection : Nat
  clock : Nat
  update : List UInt8
  deriving DecidableEq

structure CollaborationDocument where
  id : UUID
  workspaceId : UUID
  decisionId : UUID
  proposalId : UUID
  documentName : String
  ydocState : Option (List Edit)
  stateVersion : Nat
  deriving DecidableEq

instance : Keyed CollaborationDocument UUID := ⟨CollaborationDocument.id⟩

/-- The edits in the stored document. -/
def CollaborationDocument.edits (row : CollaborationDocument) : List Edit := row.ydocState.getD []

def documentName (proposalId : UUID) : String := "proposal:" ++ proposalId.str

/-- The payload of a collaboration token; times in whole seconds. -/
structure CollaborationToken where
  sub : UUID
  workspaceId : UUID
  decisionId : UUID
  proposalId : UUID
  documentName : String
  permission : CollaborationPermission
  displayName : String
  iat : Int
  exp : Int
  deriving DecidableEq

structure CollaborationSettings where
  collaborationTokenExpireMinutes : Nat
  allowedOrigins : List String

/-- `create_collaboration_token` -/
def createCollaborationToken (settings : CollaborationSettings) (now : Datetime) (user : User)
    (workspaceId decisionId proposalId : UUID) (documentName : String)
    (permission : CollaborationPermission) : CollaborationToken :=
  { sub := user.id
    workspaceId := workspaceId
    decisionId := decisionId
    proposalId := proposalId
    documentName := documentName
    permission := permission
    displayName := if user.displayName = "" then user.email else user.displayName
    iat := now / 1000000
    exp := (now + settings.collaborationTokenExpireMinutes * 60000000) / 1000000 }

/-! ## States -/

/-- How far an `issue_token` request has come. -/
inductive IssuePhase where
  | deciding (rest : Query CollaborationPermission)
  | lookingUp (permission : CollaborationPermission)
  | inserting (permission : CollaborationPermission)
  | refreshing (permission : CollaborationPermission) (id : UUID)
  | lookingUpAgain (permission : CollaborationPermission)
  | signing (permission : CollaborationPermission) (documentName : String)
  | issued (token : CollaborationToken)
  | failed (e : ServiceError)

/-- The row that the request has inserted and not read again yet. -/
def IssuePhase.inserted : IssuePhase → Option UUID
  | .refreshing _ id => some id
  | _ => none

structure Issue where
  currentUser : User
  workspaceId : UUID
  decisionId : UUID
  proposalId : UUID
  seen : List Db
  phase : IssuePhase
  outdated : Bool

/-- A connection of the editor, opened with the token of the request `issue`. -/
structure Connection where
  claims : CollaborationToken
  issue : Nat
  readOnly : Bool
  isOpen : Bool

structure LoadedDocument where
  name : String
  edits : List Edit

/-- A call of `YjsPersistence.store`: what has been encoded, and whether the `UPDATE` is through. -/
structure Store where
  name : String
  edits : List Edit
  done : Bool

structure State where
  requests : Configuration
  documents : List CollaborationDocument
  issues : List Issue
  connections : List Connection
  loaded : List LoadedDocument
  stores : List Store
  /-- the edits sent so far -/
  clock : Nat
  now : Datetime

def start (db : Db) (now : Datetime) : State := ⟨Config.idle db, [], [], [], [], [], 0, now⟩

def State.db (s : State) : Db := s.requests.state

inductive Action where
  | tick (now : Datetime)
  | request (a : Optimistic.Action Op)
  | issueToken (currentUser : User) (workspaceId decisionId proposalId : UUID)
  | advance (i : Nat) (newId : UUID)
  | connect (i : Nat) (documentName : String) (origin : Option String)
  | edit (c : Nat) (update : List UInt8)
  | disconnect (c : Nat)
  | unload (name : String)
  | save (name : String)
  | update (k : Nat)

/-! ## Steps -/

section
variable (dep : Deployment) (settings : CollaborationSettings)

/-- The foreign keys of a document row. -/
def CollaborationDocument.hasParents (row : CollaborationDocument) (db : Db) : Bool :=
  (find row.workspaceId db.workspaces).isSome && (find row.decisionId db.decisions).isSome &&
    (find row.proposalId db.proposals).isSome

def getForProposal (proposalId : UUID) (documents : List CollaborationDocument) :
    Option CollaborationDocument :=
  documents.find? fun row => row.proposalId = proposalId

/-- The row of `get_or_create`. -/
def newDocument (i : Issue) (id : UUID) : CollaborationDocument :=
  ⟨id, i.workspaceId, i.decisionId, i.proposalId, documentName i.proposalId, none, 0⟩

/-- A row that was read as one to write under no longer is: from `db` to `db'` the decision, read
third, has been closed, or the proposal, read fourth, has been taken out of `draft`. -/
def Issue.outdates (i : Issue) (db db' : Db) : Bool :=
  (decide (3 ≤ i.seen.length) && db.DecisionOpen i.decisionId && !db'.DecisionOpen i.decisionId) ||
    (decide (4 ≤ i.seen.length) && db.ProposalDraft i.decisionId i.proposalId &&
      !db'.ProposalDraft i.decisionId i.proposalId)

/-- A step of the API on the shared database; deleted rows take their documents along. -/
def State.onDatabase (s : State) (requests : Configuration) : State :=
  { s with
    requests := requests
    documents := s.documents.filter fun row => row.hasParents requests.state
    issues := s.issues.map fun i =>
      { i with outdated := i.outdated || i.outdates s.db requests.state } }

/-- The request goes on to another phase. -/
def State.goOn (s : State) (i : Nat) (issue : Issue) (phase : IssuePhase) : State :=
  { s with issues := s.issues.set i { issue with phase := phase } }

/-- Where a lookup of the document goes on. -/
def lookedUp (permission : CollaborationPermission) (otherwise : IssuePhase) :
    Option CollaborationDocument → IssuePhase
  | some row => .signing permission row.documentName
  | none => otherwise

/-- The next step of the `i`-th `issue_token`. -/
def advance (s : State) (i : Nat) (newId : UUID) : Option State := do
  let issue ← s.issues[i]?
  match issue.phase with
  | .deciding (.read k) =>
      pure { s with
        issues := s.issues.set i { issue with
          seen := issue.seen ++ [s.db]
          phase := .deciding (k s.db) } }
  | .deciding (.done (.error e)) => pure (s.goOn i issue (.failed e))
  | .deciding (.done (.ok permission)) => pure (s.goOn i issue (.lookingUp permission))
  | .lookingUp permission =>
      pure (s.goOn i issue
        (lookedUp permission (.inserting permission) (getForProposal issue.proposalId s.documents)))
  | .inserting permission => do
      -- `uuid4` draws an identifier that nobody is waiting for
      guard (∀ other ∈ s.issues, other.phase.inserted ≠ some newId)
      let row := newDocument issue newId
      if row.hasParents s.db ∧ ∀ x ∈ s.documents, x.id ≠ row.id ∧ x.proposalId ≠ row.proposalId ∧
          x.documentName ≠ row.documentName then
        pure ({ s with documents := s.documents ++ [row] }.goOn i issue
          (.refreshing permission newId))
      else pure (s.goOn i issue (.lookingUpAgain permission))
  | .refreshing permission id =>
      pure (s.goOn i issue (lookedUp permission (.failed .refreshFailed) (find id s.documents)))
  | .lookingUpAgain permission =>
      pure (s.goOn i issue (lookedUp permission (.failed (.database .integrity))
        (getForProposal issue.proposalId s.documents)))
  | .signing permission name =>
      pure (s.goOn i issue (.issued (createCollaborationToken settings s.now issue.currentUser
        issue.workspaceId issue.decisionId issue.proposalId name permission)))
  | .issued _ | .failed _ => none

/-- `verifyCollaborationToken`: the tokens of the API verify, until they expire, for their
document. -/
def verify (token : CollaborationToken) (now : Datetime) (requestedDocument : String) : Bool :=
  now / 1000000 < token.exp && token.documentName = requestedDocument

/-- `YjsPersistence.fetch` -/
def fetch (name : String) (documents : List CollaborationDocument) : List Edit :=
  ((documents.find? fun row => row.documentName = name).map CollaborationDocument.edits).getD []

/-- `onLoadDocument`, if the document is not loaded yet. -/
def load (name : String) (s : State) : List LoadedDocument :=
  if s.loaded.any fun doc => doc.name = name then s.loaded
  else s.loaded ++ [⟨name, fetch name s.documents⟩]

/-- Apply an edit to a loaded document. -/
def apply (name : String) (e : Edit) (loaded : List LoadedDocument) : List LoadedDocument :=
  loaded.map fun doc => if doc.name = name then { doc with edits := doc.edits ++ [e] } else doc

/-- The `UPDATE` of `YjsPersistence.store`. -/
def write (store : Store) (documents : List CollaborationDocument) : List CollaborationDocument :=
  documents.map fun row => if row.documentName = store.name then
    { row with ydocState := some store.edits, stateVersion := row.stateVersion + 1 } else row

def step (s : State) : Action → Option State
  | .tick now => do
      guard (s.now ≤ now)
      pure { s with now := now }
  | .request a => do
      let requests ← s.requests.act Db.commit (Op.program dep) a
      pure (s.onDatabase requests)
  | .issueToken user w d p =>
      pure { s with
        issues := s.issues ++
          [⟨user, w, d, p, [], .deciding (CollaborationService.permission user w d p), false⟩] }
  | .advance i newId => advance settings s i newId
  | .connect i name origin => do
      let issue ← s.issues[i]?
      let .issued token := issue.phase | none
      guard (∃ o ∈ origin, o ∈ settings.allowedOrigins)
      guard (verify token s.now name)
      pure { s with
        connections := s.connections ++ [⟨token, i, decide (token.permission = .read), true⟩]
        loaded := load name s }
  | .edit c update => do
      let connection ← s.connections[c]?
      guard (connection.isOpen ∧ connection.readOnly = false)
      pure { s with
        loaded := apply connection.claims.documentName ⟨c, s.clock, update⟩ s.loaded
        clock := s.clock + 1 }
  | .disconnect c => do
      let connection ← s.connections[c]?
      pure { s with connections := s.connections.set c { connection with isOpen := false } }
  | .unload name => do
      guard (∀ c ∈ s.connections, c.isOpen → c.claims.documentName ≠ name)
      pure { s with loaded := s.loaded.filter fun doc => doc.name ≠ name }
  | .save name => do
      let doc ← s.loaded.find? fun doc => doc.name = name
      pure { s with stores := s.stores ++ [⟨name, doc.edits, false⟩] }
  | .update k => do
      let store ← s.stores[k]?
      guard (store.done = false)
      pure { s with
        documents := write store s.documents
        stores := s.stores.set k { store with done := true } }

end

/-! ## The condition and the property -/

/-- The permission that the connection was opened with rests on rows that still allow writing. -/
def State.current (s : State) (connection : Connection) : Prop :=
  ∀ i ∈ s.issues[connection.issue]?, i.outdated = false

/-- The edit is in the stored document of that name. -/
def State.Stored (s : State) (name : String) (e : Edit) : Prop :=
  ∃ row ∈ s.documents, row.documentName = name ∧ e ∈ row.edits

/-- No edit comes, and none is stored first, under an outdated permission. -/
def Current (s : State) : Action → Prop
  | .edit c _ => ∀ x ∈ s.connections[c]?, x.readOnly = false → s.current x
  | .update k => ∀ store ∈ s.stores[k]?, ∀ e ∈ store.edits, ¬ s.Stored store.name e →
      ∀ x ∈ s.connections[e.connection]?, s.current x
  | _ => True

/-- The proposal is a draft and its decision a draft or active. -/
def Writable (p : UUID) (db : Db) : Prop := ∃ d, db.ProposalDraft d p ∧ db.DecisionOpen d

/-- A step takes an edit into a document, loaded or stored, only while its proposal is writable. -/
structure AcceptsWhileWritable (s : State) (a : Action) (s' : State) : Prop where
  stored : ∀ row' ∈ s'.documents, ∀ e ∈ row'.edits, ¬ s.Stored row'.documentName e →
    Writable row'.proposalId s.db
  applied : ∀ c update, a = .edit c update → ∀ p, ∀ doc' ∈ s'.loaded, doc'.name = documentName p →
    ∀ e ∈ doc'.edits, (∀ doc ∈ s.loaded, doc.name = doc'.name → e ∉ doc.edits) → Writable p s.db

end Collaboration

end ForkRoom
