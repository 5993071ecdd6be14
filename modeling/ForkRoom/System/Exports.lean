/-
# `System.Exports` — export requests, messages and workers

The API creates and resets exports and publishes messages for them, the periodic
recovery publishes messages for all that are incomplete, and workers run
`generate_decision_export` for the messages of the queue.

    process     claim ─ refresh ─ lock, hash, render ─ upload ─ mark_available
    on failure  get ─ mark_failed ─ retry, or reject at the limit

A message stays with its worker until it is acknowledged: if the worker is lost
before that, the message goes back to the queue.  `claims` counts the claims of an
export since its last reset; no step reads it.  The renderer is a parameter.
-/
import ForkRoom.Lib.Machine
import ForkRoom.Service.Export

namespace ForkRoom

open Optimistic Reads Rows

namespace Exports

/-! ## States -/

/-- The limit is a positive one. -/
structure ExportSettings where
  exportProcessingMaxAttempts : Nat
  exportUrlExpireMinutes : Nat
  attempts_pos : 0 < exportProcessingMaxAttempts

/-- What the code takes from outside: the hash of the wired services, and the renderer, which may
fail. -/
structure Rendering where
  dep : Deployment
  render : DecisionLock → Option (List UInt8)

inductive Answer where
  | export (e : DecisionExport)
  | url (e : DecisionExport) (expiresAt : Datetime)

inductive RequestPhase where
  | reading (rest : ExportQuery ExportTask)
  /-- the new row, or the reset one, is committed -/
  | publishing (exportId : UUID)
  | answered (answer : Answer)
  | failed (e : ExportError)

structure Request where
  currentUser : User
  workspaceId : UUID
  decisionId : UUID
  call : ExportCall
  phase : RequestPhase

structure Message where
  exportId : UUID
  retries : Nat
  deriving DecidableEq

inductive TaskPhase where
  | starting
  | refreshing
  | claimed (e : DecisionExport)
  | rendered (e : DecisionExport) (pdf : List UInt8)
  | uploaded (e : DecisionExport) (sizeBytes : Nat)
  | failing (error : String)
  | marking (e : DecisionExport) (error : String)
  /-- the handler knows the attempts -/
  | deciding (attempts : Nat)
  | acknowledging
  | done
  deriving DecidableEq

/-- A run of `generate_decision_export`. -/
structure Task where
  message : Message
  phase : TaskPhase

structure State where
  db : Db
  exports : List DecisionExport
  requests : List Request
  messages : List Message
  tasks : List Task
  /-- what each `_recover_exports` still has to publish -/
  recoveries : List (List UUID)
  claims : UUID → Nat
  now : Datetime

def start (db : Db) (now : Datetime) : State := ⟨db, [], [], [], [], [], fun _ => 0, now⟩

inductive Action where
  | tick (now : Datetime)
  | others (db : Db)
  | call (currentUser : User) (workspaceId decisionId : UUID) (call : ExportCall)
  | advance (i : Nat) (newId : UUID) (txn : Datetime)
  | requestFails (i : Nat)
  | recover
  | publish (j : Nat)
  /-- the broker delivers a message twice -/
  | duplicate (j : Nat)
  | deliver (j : Nat)
  | work (k : Nat)
  /-- the row is locked by another transaction -/
  | skipped (k : Nat)
  | taskFails (k : Nat) (error : String)
  | lost (k : Nat)

/-! ## Steps -/

/-- The foreign keys of an export. -/
def hasParents (e : DecisionExport) (db : Db) : Bool :=
  (find e.workspaceId db.workspaces).isSome && (find e.decisionId db.decisions).isSome &&
    db.decisionLocks.any (fun l => l.id = e.decisionLockId) &&
      (find e.requestedById db.users).isSome

/-- A commit of what has been changed in `current` since `loaded`, if the check constraint holds. -/
def update (loaded current : DecisionExport) (exports : List DecisionExport) :
    Option (List DecisionExport) :=
  let exports' := modify loaded.id (DecisionExport.merge loaded current) exports
  if exports'.all DecisionExport.consistent then some exports' else none

/-- The constraints that an inserted row meets. -/
def insertable (row : DecisionExport) (db : Db) (exports : List DecisionExport) : Prop :=
  (∀ e ∈ exports, e.id ≠ row.id ∧ e.decisionLockId ≠ row.decisionLockId ∧
    e.objectKey ≠ row.objectKey) ∧ hasParents row db

instance (row : DecisionExport) (db : Db) (exports : List DecisionExport) :
    Decidable (insertable row db exports) :=
  inferInstanceAs (Decidable (_ ∧ _))

section
variable (settings : ExportSettings) (rendering : Rendering)

def State.goOn (s : State) (i : Nat) (r : Request) (phase : RequestPhase) : State :=
  { s with requests := s.requests.set i { r with phase := phase } }

def State.workOn (s : State) (k : Nat) (t : Task) (phase : TaskPhase) : State :=
  { s with tasks := s.tasks.set k { t with phase := phase } }

def State.send (s : State) (m : Message) : State := { s with messages := s.messages ++ [m] }

/-- What a request does once its reads are over. -/
def perform (s : State) (i : Nat) (r : Request) (newId : UUID) (txn : Datetime) :
    ExportTask → State
  | .create lock =>
      let row := DecisionExportService.newExport r.currentUser r.workspaceId r.decisionId lock
        newId txn
      if insertable row s.db s.exports then
        { s with exports := s.exports ++ [row] }.goOn i r (.publishing newId)
      else s.goOn i r (.failed (.database .integrity))
  | .reset e =>
      match update e (DecisionExportRepository.reset e) s.exports with
      | some exports =>
          { s with
            exports := exports
            claims := Function.update s.claims e.id 0 }.goOn i r (.publishing e.id)
      | none => s.goOn i r (.failed (.database .integrity))
  | .get e => s.goOn i r (.answered (.export e))
  | .download e =>
      s.goOn i r (.answered (.url e (s.now + settings.exportUrlExpireMinutes * 60000000)))

/-- The next step of the `i`-th request. -/
def advance (s : State) (i : Nat) (newId : UUID) (txn : Datetime) : Option State := do
  let r ← s.requests[i]?
  match r.phase with
  | .reading (.read k) => pure (s.goOn i r (.reading (k ⟨s.db, s.exports⟩)))
  | .reading (.done (.error e)) => pure (s.goOn i r (.failed e))
  | .reading (.done (.ok task)) => pure (perform settings s i r newId txn task)
  | .publishing id =>
      -- the row is refreshed, then the message goes out
      match find id s.exports with
      | some e => pure ((s.send ⟨id, 0⟩).goOn i r (.answered (.export e)))
      | none => pure (s.goOn i r (.failed .internal))
  | .answered _ | .failed _ => none

/-- `claim`: the row is taken and written under its lock. -/
def claim (s : State) (k : Nat) (t : Task) : State :=
  match find t.message.exportId s.exports with
  | some e =>
      if DecisionExportRepository.claimable s.now e then
        { s with
          exports := modify e.id (fun e => DecisionExportRepository.claimed e s.now) s.exports
          claims := Function.update s.claims e.id (s.claims e.id + 1) }.workOn k t .refreshing
      else s.workOn k t .acknowledging
  | none => s.workOn k t .acknowledging

/-- The PDF of an export whose lock and hashes are as they were. -/
def pdf (e : DecisionExport) (db : Db) : Option (List UInt8) :=
  match DecisionLockRepository.getForDecision e.decisionId db with
  | some lock =>
      let computed := DecisionExportProcessingService.hashSnapshot rendering.dep lock.snapshot
      if lock.id = e.decisionLockId ∧ computed = e.documentHash ∧ computed = lock.documentHash then
        rendering.render lock
      else none
  | none => none

/-- The next step of the `k`-th run of `generate_decision_export`. -/
def work (s : State) (k : Nat) : Option State := do
  let t ← s.tasks[k]?
  match t.phase with
  | .starting => pure (claim s k t)
  | .refreshing =>
      match find t.message.exportId s.exports with
      | some e => pure (s.workOn k t (.claimed e))
      | none => pure (s.workOn k t (.failing "could not refresh"))
  | .claimed e =>
      match pdf rendering e s.db with
      | some bytes => pure (s.workOn k t (.rendered e bytes))
      | none => pure (s.workOn k t (.failing ""))
  | .rendered e bytes => pure (s.workOn k t (.uploaded e bytes.length))
  | .uploaded e size =>
      match update e (DecisionExportRepository.available e size s.now) s.exports with
      | some exports => pure ({ s with exports := exports }.workOn k t .acknowledging)
      | none => pure (s.workOn k t (.failing "ck_decision_exports_available_state"))
  | .failing error =>
      match find t.message.exportId s.exports with
      | some e => pure (s.workOn k t
          (if e.status = .processing then .marking e error else .deciding e.attemptCount))
      | none => pure (s.workOn k t (.deciding 0))
  | .marking e error =>
      match update e (DecisionExportRepository.failed e error) s.exports with
      | some exports => pure ({ s with exports := exports }.workOn k t (.deciding e.attemptCount))
      | none => pure (s.workOn k t .acknowledging)
  | .deciding attempts =>
      if settings.exportProcessingMaxAttempts ≤ attempts then pure (s.workOn k t .acknowledging)
      else if t.message.retries < settings.exportProcessingMaxAttempts - 1 then
        pure ((s.send ⟨t.message.exportId, t.message.retries + 1⟩).workOn k t .acknowledging)
      else pure (s.workOn k t .acknowledging)
  | .acknowledging => pure (s.workOn k t .done)
  | .done => none

/-- Where an exception takes a run: to its handler, or out of it. -/
def TaskPhase.raised (error : String) : TaskPhase → TaskPhase
  | .starting | .refreshing | .claimed _ | .rendered .. | .uploaded .. => .failing error
  | .failing _ | .marking .. | .deciding _ | .acknowledging => .acknowledging
  | .done => .done

def step (s : State) : Action → Option State
  | .tick now => do
      guard (s.now ≤ now)
      pure { s with now := now }
  | .others db => do
      guard (∀ e ∈ s.exports, hasParents e db)
      pure { s with db := db }
  | .call user w d c =>
      pure { s with
        requests :=
          s.requests ++ [⟨user, w, d, c, .reading (DecisionExportService.program user w d c)⟩] }
  | .advance i newId txn => advance settings s i newId txn
  | .requestFails i => do
      let r ← s.requests[i]?
      match r.phase with
      | .answered _ | .failed _ => none
      | _ => pure (s.goOn i r (.failed .internal))
  | .recover =>
      pure { s with
        recoveries := s.recoveries ++
          [(DecisionExportRepository.listIncomplete s.exports).map DecisionExport.id] }
  | .publish j => do
      let ids ← s.recoveries[j]?
      match ids with
      | [] => none
      | id :: rest =>
          pure { s.send ⟨id, 0⟩ with recoveries := s.recoveries.set j rest }
  | .duplicate j => do
      let m ← s.messages[j]?
      pure (s.send m)
  | .deliver j => do
      let m ← s.messages[j]?
      pure { s with
        messages := s.messages.eraseIdx j
        tasks := s.tasks ++ [⟨m, .starting⟩] }
  | .work k => work settings rendering s k
  | .skipped k => do
      let t ← s.tasks[k]?
      guard (t.phase = .starting)
      pure (s.workOn k t .acknowledging)
  | .taskFails k error => do
      let t ← s.tasks[k]?
      pure (s.workOn k t (t.phase.raised error))
  | .lost k => do
      let t ← s.tasks[k]?
      guard (t.phase ≠ .done)
      pure ((s.send t.message).workOn k t .done)

end

/-! ## The condition and the property -/

/-- The worker may still claim the export, fail it or send its message again. -/
def TaskPhase.atWork : TaskPhase → Bool
  | .acknowledging | .done => false
  | _ => true

/-- A message may be put into the queue: there is no other, no worker is at it, and the export is
below the limit. -/
structure Due (settings : ExportSettings) (id : UUID) (s : State) : Prop where
  messages : ∀ m ∈ s.messages, m.exportId ≠ id
  tasks : ∀ t ∈ s.tasks, t.message.exportId = id → t.phase.atWork = false
  attempts : ∀ e ∈ s.exports, e.id = id → e.attemptCount < settings.exportProcessingMaxAttempts

/-- Whoever puts a message into the queue, apart from a retry, does so when it is due. -/
def OneAtATime (settings : ExportSettings) (s : State) : Action → Prop
  | .advance i _ _ => ∀ r ∈ s.requests[i]?, ∀ id, r.phase = .publishing id → Due settings id s
  | .publish j => ∀ ids ∈ s.recoveries[j]?, ∀ id rest, ids = id :: rest → Due settings id s
  | .duplicate j => ∀ m ∈ s.messages[j]?, Due settings m.exportId s
  | .lost k => ∀ t ∈ s.tasks[k]?, Due settings t.message.exportId (s.workOn k t .done)
  | _ => True

/-- No export is claimed more often than the limit allows since its last reset, and a step claims
none that has failed at the limit. -/
structure ClaimsBounded (settings : ExportSettings) (s s' : State) : Prop where
  bound : ∀ id, s'.claims id ≤ settings.exportProcessingMaxAttempts
  failed : ∀ e ∈ s.exports, e.status = .failed →
    e.attemptCount = settings.exportProcessingMaxAttempts → s'.claims e.id ≤ s.claims e.id

end Exports

end ForkRoom
