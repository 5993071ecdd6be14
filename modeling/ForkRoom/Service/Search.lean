/-
# `Service.Search` — the search index

`DecisionSearchDocument` of `app/models/export_search.py`, `SearchRepository`, and the
services over it: `SearchIndexService`, which a worker runs, and `SearchService`, which
answers requests.  A decision has at most one document, of its title and one text
(`body`) made of all that belongs to it:

    summary                        of the decision
    title, summary, content        of each proposal, the oldest first
    snapshot                       of the lock, as JSON

What PostgreSQL makes of a query and a document is `FullText`.
-/
import ForkRoom.Service.DecisionLock

/-! ## The readable text of a value -/

namespace Json

/-- One character of a string literal that need not be ASCII. -/
def escapeUnicode (c : Char) : List Char :=
  if c = '"' then ['\\', '"']
  else if c = '\\' then ['\\', '\\']
  else if c = '\n' then ['\\', 'n']
  else if c = '\r' then ['\\', 'r']
  else if c = '\t' then ['\\', 't']
  else if c.toNat = 12 then ['\\', 'f']
  else if c.toNat = 8 then ['\\', 'b']
  else if c.toNat < 32 then '\\' :: 'u' :: hex4 c.toNat
  else [c]

def quoteUnicode (s : String) : List Char :=
  '"' :: s.toList.flatMap escapeUnicode ++ ['"']

/-- The texts with a comma and a space between them. -/
def spaced : List (List Char) → List Char
  | [] => []
  | [t] => t
  | t :: ts => t ++ ',' :: ' ' :: spaced ts

/-- `json.dumps(value, ensure_ascii=False)` -/
def dumpsUnicode : Json → List Char
  | null => "null".toList
  | bool true => "true".toList
  | bool false => "false".toList
  | int i => (toString i).toList
  | decimal text => text.toList
  | str s => quoteUnicode s
  | arr items => '[' :: spaced (dumpsItems items) ++ [']']
  | obj fields => '\x7b' :: spaced (dumpsFields fields) ++ ['\x7d']
where
  dumpsItems : List Json → List (List Char)
    | [] => []
    | v :: vs => dumpsUnicode v :: dumpsItems vs
  dumpsFields : List (String × Json) → List (List Char)
    | [] => []
    | (k, v) :: fs => (quoteUnicode k ++ ':' :: ' ' :: dumpsUnicode v) :: dumpsFields fs

example : String.ofList (obj [("naïve", arr [int 1, str "a\nb"]), ("b", null)]).dumpsUnicode =
    "\x7b\"naïve\": [1, \"a\\nb\"], \"b\": null\x7d" := by
  decide

end Json

namespace ForkRoom

open Optimistic Reads Rows

/-! ## The documents -/

/-- The status and the category are kept as their values. -/
structure DecisionSearchDocument where
  id : UUID
  workspaceId : UUID
  decisionId : UUID
  title : String
  body : String
  decisionStatus : DecisionStatus
  category : DecisionCategory
  indexedAt : Datetime
  deriving DecidableEq

instance : Keyed DecisionSearchDocument UUID := ⟨DecisionSearchDocument.id⟩

/-- The full-text search of the database. -/
structure FullText where
  /-- `search_vector @@ websearch_to_tsquery(query)`, of a title and a body -/
  hit : String → String → String → Bool
  /-- `ts_rank_cd` -/
  rank : String → String → String → ℚ
  /-- `ts_headline` of a body -/
  headline : String → String → String

structure SearchResultRecord where
  decisionId : UUID
  title : String
  status : DecisionStatus
  category : DecisionCategory
  headline : String
  rank : ℚ
  indexedAt : Datetime

/-- What a document is made of. -/
structure IndexSource where
  decision : Decision
  proposals : List Proposal
  decisionLock : Option DecisionLock

namespace SearchRepository

def documentOf (decisionId : UUID) (documents : List DecisionSearchDocument) :
    Option DecisionSearchDocument :=
  documents.find? fun x => x.decisionId = decisionId

/-- A comparison with NULL is not true. -/
def olderThan (indexedAt : Datetime) (time : Option Datetime) : Bool :=
  time.any fun t => indexedAt < t

def latestProposal (decisionId : UUID) (db : Db) : Option Datetime :=
  ((db.proposals.filter fun p => p.decisionId = decisionId).map Proposal.updatedAt).max?

def lockedAt (decisionId : UUID) (db : Db) : Option Datetime :=
  (DecisionLockRepository.getForDecision decisionId db).map DecisionLock.lockedAt

/-- The condition of `list_stale_decision_ids` on a decision. -/
def isStale (db : Db) (documents : List DecisionSearchDocument) (decision : Decision) : Bool :=
  match documentOf decision.id documents with
  | none => true
  | some x =>
      x.indexedAt < decision.updatedAt || olderThan x.indexedAt (latestProposal decision.id db) ||
        olderThan x.indexedAt (lockedAt decision.id db)

def listStaleDecisionIds (tie : UUID → Nat) (limit : Nat) (db : Db)
    (documents : List DecisionSearchDocument) : List UUID :=
  ((earliestFirst Decision.updatedAt tie (db.decisions.filter (isStale db documents))).take
    limit).map Decision.id

/-- Three statements, each on what is committed by then. -/
def getIndexSource (tie : UUID → Nat) (decisionId : UUID) : Query (Option IndexSource) := do
  match ← query fun db : Db => find decisionId db.decisions with
  | none => pure none
  | some decision =>
      let proposals ← query fun db : Db => earliestFirst Proposal.createdAt tie
        (db.proposals.filter fun p => p.decisionId = decisionId)
      let decisionLock ← query (DecisionLockRepository.getForDecision decisionId)
      pure (some ⟨decision, proposals, decisionLock⟩)

/-- The row of `upsert`. -/
def newDocument (id : UUID) (decision : Decision) (body : String) (indexedAt : Datetime) :
    DecisionSearchDocument where
  id := id
  workspaceId := decision.workspaceId
  decisionId := decision.id
  title := decision.title
  body := body
  decisionStatus := decision.status
  category := decision.category
  indexedAt := indexedAt

/-- `INSERT … ON CONFLICT (decision_id) DO UPDATE`, of all columns but the keys; refused
when the decision or its workspace is gone by now. -/
def upsert (id : UUID) (decision : Decision) (body : String) (indexedAt : Datetime) (db : Db)
    (documents : List DecisionSearchDocument) : Option (List DecisionSearchDocument) :=
  if (find decision.id db.decisions).isNone || (find decision.workspaceId db.workspaces).isNone then
    none
  else if (documentOf decision.id documents).isSome then
    some (documents.map fun x =>
      if x.decisionId = decision.id then newDocument x.id decision body indexedAt else x)
  else if id ∈ documents.map DecisionSearchDocument.id then none
  else some (documents ++ [newDocument id decision body indexedAt])

def search (text : FullText) (tie : UUID → Nat) (workspaceId : UUID) (query : String)
    (status : Option DecisionStatus) (category : Option DecisionCategory) (limit offset : Nat)
    (documents : List DecisionSearchDocument) : List SearchResultRecord :=
  let rank (x : DecisionSearchDocument) : ℚ := text.rank x.title x.body query
  let rows := documents.filter fun x => x.workspaceId = workspaceId &&
    text.hit x.title x.body query && given status x.decisionStatus && given category x.category
  let sorted := orderBy (fun a b => rank b < rank a ||
    (rank a = rank b && (b.indexedAt < a.indexedAt ||
      (a.indexedAt = b.indexedAt && tie a.id ≤ tie b.id)))) rows
  ((sorted.drop offset).take limit).map fun x =>
    { decisionId := x.decisionId
      title := x.title
      status := x.decisionStatus
      category := x.category
      headline := text.headline x.body query
      rank := rank x
      indexedAt := x.indexedAt }

end SearchRepository

/-! ## The index -/

namespace SearchIndexService

/-- `text or ""` -/
def orEmpty (text : Option String) : String := text.getD ""

def sections (source : IndexSource) : List String :=
  orEmpty source.decision.summary ::
    (source.proposals.flatMap fun p => [p.title, orEmpty p.summary, orEmpty p.content]) ++
    (source.decisionLock.map fun l => String.ofList l.snapshot.dumpsUnicode).toList

def body (source : IndexSource) : String :=
  strip ("\n".intercalate ((sections source).filter fun s => s ≠ ""))

def stale (tie : UUID → Nat) (db : Db) (documents : List DecisionSearchDocument) : List UUID :=
  SearchRepository.listStaleDecisionIds tie 200 db documents

/-- The write of `index`, after its reads. -/
def write (id : UUID) (now : Datetime) (source : IndexSource) (db : Db)
    (documents : List DecisionSearchDocument) : Option (List DecisionSearchDocument) :=
  SearchRepository.upsert id source.decision (body source) now db documents

end SearchIndexService

/-! ## The search -/

inductive SearchError where
  | workspaceNotFound | searchAccessDenied
  deriving DecidableEq, Repr

/-- The tables that a search reads. -/
structure SearchStore where
  db : Db
  documents : List DecisionSearchDocument

structure SearchRequest where
  query : String
  status : Option DecisionStatus
  category : Option DecisionCategory
  limit : Nat
  offset : Nat

namespace SearchService

def search (text : FullText) (tie : UUID → Nat) (currentUser : User) (workspaceId : UUID)
    (request : SearchRequest) : Reads SearchStore SearchError (List SearchResultRecord) := do
  let workspace ← query fun s : SearchStore => WorkspaceRepository.getById workspaceId s.db
  let membership ← query fun s : SearchStore =>
    WorkspaceRepository.getMembership workspaceId currentUser.id s.db
  require workspace.isSome .workspaceNotFound
  require membership.isSome .searchAccessDenied
  query fun s : SearchStore => SearchRepository.search text tie workspaceId request.query
    request.status request.category request.limit request.offset s.documents

end SearchService

end ForkRoom
