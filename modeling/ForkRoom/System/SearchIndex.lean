/-
# `System.SearchIndex` — the search index beside the API

Requests commit to the database while the tasks of `index_decision` read it, three statements
each, and write a document after the last.  The scheduler starts a task for every decision
that `list_stale_decision_ids` lists; here a task may start for any decision at any time,
and several may run for one.

    queued ──→ reading ──→ ended
               decision, proposals, lock; then the document

A task that is refused raises, and is started again.
-/
import ForkRoom.Service.Search
import ForkRoom.System.Operations

namespace ForkRoom

namespace SearchIndex

open Optimistic Reads Rows

/-! ## States -/

inductive TaskPhase where
  | queued
  | reading (rest : Query (Option IndexSource))
  | ended

/-- What is left to be written when all has been read. -/
def TaskPhase.source : TaskPhase → Option IndexSource
  | reading (.done (.ok source)) => source
  | _ => none

/-- The task has begun and has not ended. -/
def TaskPhase.halfDone : TaskPhase → Bool
  | reading _ => true
  | queued | ended => false

/-- `since` are the commits since the task has begun, each with the tables it found. -/
structure IndexTask where
  decisionId : UUID
  phase : TaskPhase
  since : List (Tables × List Write) := []

def IndexTask.note (t : Tables) (ws : List Write) (task : IndexTask) : IndexTask :=
  if task.phase.halfDone then { task with since := task.since ++ [(t, ws)] } else task

structure State where
  requests : Configuration
  documents : List DecisionSearchDocument
  tasks : List IndexTask

/-- Nothing is indexed yet. -/
def start (db : Db) : State := ⟨Config.idle db, [], []⟩

def State.db (s : State) : Db := s.requests.state

inductive Action where
  | request (a : Optimistic.Action Op)
  | index (decisionId : UUID)
  /-- one statement of a task; `now` and `newId` are for the last -/
  | advance (i : Nat) (now : Datetime) (newId : UUID)

/-! ## Steps -/

/-- What a step of the API commits. -/
def committed (c : Configuration) : Optimistic.Action Op → List Write
  | .start _ => []
  | .advance i => (c.threads[i]?).elim [] fun t =>
      match t.answer, t.rest with
      | none, .done (.ok (.commit ws _ _)) => if (c.state.commit ws).isOk then ws else []
      | _, _ => []

section
variable (dep : Deployment) (tie : UUID → Nat)

/-- The foreign keys of a document: `ON DELETE CASCADE`. -/
def hasParents (x : DecisionSearchDocument) (db : Db) : Bool :=
  (find x.workspaceId db.workspaces).isSome && (find x.decisionId db.decisions).isSome

/-- A step of the API; deleted decisions take their documents along. -/
def State.onDatabase (s : State) (ws : List Write) (requests : Configuration) : State where
  requests := requests
  documents := s.documents.filter fun x => hasParents x requests.state
  tasks := s.tasks.map (IndexTask.note s.db.toTables ws)

/-- The phase after the next statement, and the documents. -/
def advance (s : State) (decisionId : UUID) (now : Datetime) (newId : UUID) :
    TaskPhase → Option (TaskPhase × List DecisionSearchDocument)
  | .queued => some (.reading (SearchRepository.getIndexSource tie decisionId), s.documents)
  | .reading (.read k) => some (.reading (k s.db), s.documents)
  | .reading (.done (.ok (some source))) =>
      some (.ended, (SearchIndexService.write newId now source s.db s.documents).getD s.documents)
  | .reading (.done _) => some (.ended, s.documents)
  | .ended => none

def step (s : State) : Action → Option State
  | .request a => (s.requests.act Db.commit (Op.program dep) a).map
      (s.onDatabase (committed s.requests a))
  | .index d => some { s with tasks := s.tasks ++ [{ decisionId := d, phase := .queued }] }
  | .advance i now newId => do
      let task ← s.tasks[i]?
      let (phase, documents) ← advance tie s task.decisionId now newId task.phase
      pure { s with documents := documents, tasks := s.tasks.set i { task with phase := phase } }

end

/-! ## What the rows of a decision say, and since when -/

/-- The columns that the index is made of. -/
@[ext] structure Words where
  decision : Option (String × Option String × DecisionStatus × DecisionCategory)
  proposals : List (String × Option String × Option String)
  decisionLock : Option (List Char)

def wordsOf (decision : Option Decision) (proposals : List Proposal)
    (decisionLock : Option DecisionLock) : Words where
  decision := decision.map fun d => (d.title, d.summary, d.status, d.category)
  proposals := proposals.map fun p => (p.title, p.summary, p.content)
  decisionLock := decisionLock.map fun l => l.snapshot.dumpsUnicode

/-- What the rows of a decision say. -/
def words (tie : UUID → Nat) (d : UUID) (t : Tables) : Words :=
  wordsOf (find d t.decisions)
    (earliestFirst Proposal.createdAt tie (t.proposals.filter fun p => p.decisionId = d))
    (t.decisionLocks.find? fun l => l.decisionId = d)

/-- When they were written last. -/
def dates (d : UUID) (t : Tables) : List Datetime :=
  ((find d t.decisions).map Decision.updatedAt).toList ++
    (t.proposals.filter fun p => p.decisionId = d).map Proposal.updatedAt ++
    ((t.decisionLocks.find? fun l => l.decisionId = d).map DecisionLock.lockedAt).toList

/-- One of the rows was written after `indexedAt`. -/
def Later (d : UUID) (indexedAt : Datetime) (t : Tables) : Prop :=
  ∃ date ∈ dates d t, indexedAt < date

/-! ## What a commit dates -/

/-- What the write puts on the rows of the decision is dated after `indexedAt`, and it
deletes no proposal of the decision. -/
def Stamped (d : UUID) (indexedAt : Datetime) (t : Tables) : Write → Prop
  | .addDecision row => row.id ≠ d
  | .setDecision l c date => c = l ∨ l.id ≠ d ∨ indexedAt < date
  | .deleteDecision id => id ≠ d ∧
      ∀ p ∈ t.proposals, t.proposalsOf (fun x => x = id) p.id → p.decisionId ≠ d
  | .deleteWorkspace id => t.decisionsOf id d = false ∧
      ∀ p ∈ t.proposals, t.proposalsOf (t.decisionsOf id) p.id → p.decisionId ≠ d
  | .addProposal row => row.decisionId ≠ d ∨ indexedAt < row.updatedAt
  | .setProposal l c date => c = l ∨ (∀ p ∈ t.proposals, p.id = l.id → p.decisionId ≠ d) ∨
      indexedAt < date
  | .deleteProposal id => ∀ p ∈ t.proposals, p.id = id → p.decisionId ≠ d
  | .addLock row => row.decisionId ≠ d ∨ indexedAt < row.lockedAt
  | _ => True

instance (d : UUID) (indexedAt : Datetime) (t : Tables) (w : Write) :
    Decidable (Stamped d indexedAt t w) := by
  cases w <;> unfold Stamped <;> infer_instance

/-- Each write of the list is stamped when its turn comes. -/
def AllStamped (d : UUID) (indexedAt : Datetime) : List Write → Tables → Prop
  | [], _ => True
  | w :: ws, t => Stamped d indexedAt t w ∧ AllStamped d indexedAt ws (w.run t)

instance (d : UUID) (indexedAt : Datetime) :
    ∀ (ws : List Write) (t : Tables), Decidable (AllStamped d indexedAt ws t)
  | [], _ => isTrue trivial
  | w :: ws, t =>
      have := instDecidableAllStamped d indexedAt ws (w.run t)
      inferInstanceAs (Decidable (_ ∧ _))

/-- What is committed after a task has begun to read a decision is dated after the
document that the task makes of it, as long as there is one. -/
def WellDated (dep : Deployment) (s : State) : Action → Prop
  | .request a => ∀ requests ∈ s.requests.act Db.commit (Op.program dep) a, ∀ x ∈ s.documents,
      hasParents x requests.state = true →
        AllStamped x.decisionId x.indexedAt (committed s.requests a) s.db.toTables
  | .index _ => True
  | .advance i now _ => ∀ task ∈ s.tasks[i]?, ∀ source ∈ task.phase.source,
      (find source.decision.id s.db.decisions).isSome →
        ∀ e ∈ task.since, AllStamped source.decision.id now e.2 e.1

instance (dep : Deployment) (s : State) (a : Action) : Decidable (WellDated dep s a) := by
  cases a <;> unfold WellDated <;> infer_instance

/-- The columns of the document but its date are those that `index` would write now. -/
def UpToDate (tie : UUID → Nat) (db : Db) (x : DecisionSearchDocument) : Prop :=
  ∃ source, (SearchRepository.getIndexSource tie x.decisionId).run db = .ok (some source) ∧
    x.title = source.decision.title ∧ x.body = SearchIndexService.body source ∧
    x.decisionStatus = source.decision.status ∧ x.category = source.decision.category

end SearchIndex

end ForkRoom
