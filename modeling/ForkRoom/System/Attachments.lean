/-
# `System.Attachments` — uploads, their processing, and the object store

Clients write objects with presigned URLs; the API serves the requests of
`AttachmentService`; workers run `process_attachment`.  Every access to a table or
to the object store is a step of its own.

    process     get ─ attempts + 1 ─ refresh ─ stat ─ sha256 ─ mark_available
    on failure  (limit reached?) ─ get ─ mark_rejected
    delete      reads ─ remove the object ─ status, deleted_at

A presigned URL is good for any number of `PUT`s until it expires.  A message that
has been published may be delivered any number of times: again after a worker is
lost, and as a retry.  The other services may commit anything that leaves the
attachments their parents.  The hash function and the text of the object store's
error are parameters.
-/
import ForkRoom.Lib.Machine
import ForkRoom.Service.Attachment

namespace ForkRoom

open Optimistic Reads Rows

namespace Attachments

/-! ## States -/

structure AttachmentSettings where
  attachmentMaxBytes : Nat
  attachmentUrlExpireMinutes : Nat
  attachmentProcessingMaxAttempts : Nat

/-- What the code takes from outside: the digest of an object, and the error for a missing one. -/
structure ObjectStorage where
  sha256 : List UInt8 → String
  missing : String → String

/-- What a request answers with. -/
inductive Answer where
  | upload (a : Attachment) (expiresAt : Datetime)
  | attachment (a : Attachment)
  | attachments (rows : List Attachment)
  | url (a : Attachment) (expiresAt : Datetime)
  | done

inductive RequestPhase where
  | reading (rest : AttachmentQuery AttachmentTask)
  /-- the upload URL is signed -/
  | inserting (row : Attachment) (expiresAt : Datetime)
  /-- `PROCESSING` is committed -/
  | publishing (attachmentId : UUID)
  /-- the object is gone -/
  | removed (a : Attachment)
  | answered (answer : Answer)
  | failed (e : AttachmentError)

structure Request where
  currentUser : User
  workspaceId : UUID
  call : AttachmentCall
  seen : List AttachmentStore
  phase : RequestPhase

inductive TaskPhase where
  | starting
  | claiming (a : Attachment)
  | refreshing
  | claimed (a : Attachment)
  /-- the size is the declared one -/
  | sized (a : Attachment)
  | hashed (a : Attachment) (sha256 : String)
  | failed (error : String)
  | rejecting (error : String)
  | marking (a : Attachment) (error : String)
  | done

/-- A run of `process_attachment`. -/
structure Task where
  attachmentId : UUID
  phase : TaskPhase

structure State where
  db : Db
  attachments : List Attachment
  objects : String → Option (List UInt8)
  requests : List Request
  tasks : List Task
  /-- the messages that have been published -/
  published : List UUID
  /-- what each `_recover_attachment_processing` still has to publish -/
  recoveries : List (List UUID)
  now : Datetime

def start (db : Db) (now : Datetime) : State := ⟨db, [], fun _ => none, [], [], [], [], now⟩

def State.store (s : State) : AttachmentStore := ⟨s.db, s.attachments⟩

inductive Action where
  | tick (now : Datetime)
  | others (db : Db)
  | call (currentUser : User) (workspaceId : UUID) (call : AttachmentCall)
  /-- a request goes on, in a transaction begun at `txn` -/
  | advance (i : Nat) (newId : UUID) (txn : Datetime)
  | requestFails (i : Nat)
  | put (i : Nat) (bytes : List UInt8)
  | recover
  | publish (j : Nat)
  | deliver (id : UUID)
  | work (k : Nat) (txn : Datetime)
  | taskFails (k : Nat) (error : String)
  | lost (k : Nat)

/-! ## Steps -/

/-- The foreign keys of an attachment. -/
def hasParents (a : Attachment) (db : Db) : Bool :=
  (find a.workspaceId db.workspaces).isSome && (find a.uploadedById db.users).isSome &&
    a.decisionId.all (fun d => (find d db.decisions).isSome) &&
    a.proposalId.all fun p => (find p db.proposals).isSome

def objectKey (workspaceId attachmentId : UUID) (filename : String) : String :=
  "workspaces/" ++ workspaceId.str ++ "/attachments/" ++ attachmentId.str ++ "/" ++ filename

/-- The row of `create_upload`. -/
def newAttachment (user : User) (w id : UUID) (payload : AttachmentCreateRequest)
    (txn : Datetime) : Attachment :=
  { id := id
    workspaceId := w
    decisionId := payload.decisionId
    proposalId := payload.proposalId
    uploadedById := user.id
    objectKey := objectKey w id payload.filename
    filename := payload.filename
    mediaType := payload.mediaType
    sizeBytes := payload.sizeBytes
    sha256 := none
    status := .pending
    processingAttempts := 0
    processingError := none
    processedAt := none
    deletedAt := none
    createdAt := txn
    updatedAt := txn }

/-- The constraints that an inserted row meets: its keys, its references, its checks. -/
def insertable (row : Attachment) (db : Db) (attachments : List Attachment) : Prop :=
  (∀ a ∈ attachments, a.id ≠ row.id ∧ a.objectKey ≠ row.objectKey) ∧ hasParents row db ∧
    0 < row.sizeBytes ∧ ¬ (row.decisionId = none ∧ row.proposalId ≠ none)

instance (row : Attachment) (db : Db) (attachments : List Attachment) :
    Decidable (insertable row db attachments) :=
  inferInstanceAs (Decidable (_ ∧ _))

/-- `update`: a commit of what has been changed in `current` since `loaded`. -/
def update (txn : Datetime) (loaded current : Attachment) (attachments : List Attachment) :
    List Attachment :=
  modify loaded.id (Attachment.merge txn loaded current) attachments

/-- `presigned_upload` and `presigned_download`: the time until which the URL is good. -/
def expiry (settings : AttachmentSettings) (now : Datetime) : Datetime :=
  now + settings.attachmentUrlExpireMinutes * 60000000

section
variable (settings : AttachmentSettings) (storage : ObjectStorage)

def State.goOn (s : State) (i : Nat) (r : Request) (phase : RequestPhase) : State :=
  { s with requests := s.requests.set i { r with phase := phase } }

def State.workOn (s : State) (k : Nat) (t : Task) (phase : TaskPhase) : State :=
  { s with tasks := s.tasks.set k { t with phase := phase } }

/-- What a request does once its reads are over. -/
def perform (s : State) (i : Nat) (r : Request) (newId : UUID) (txn : Datetime) :
    AttachmentTask → State
  | .createUpload payload =>
      s.goOn i r (.inserting (newAttachment r.currentUser r.workspaceId newId payload txn)
        (expiry settings s.now))
  | .completeUpload a =>
      { s with
        attachments := update txn a { a with status := .processing, processingError := none }
          s.attachments }.goOn i r (.publishing a.id)
  | .list rows => s.goOn i r (.answered (.attachments rows))
  | .get a => s.goOn i r (.answered (.attachment a))
  | .download a => s.goOn i r (.answered (.url a (expiry settings s.now)))
  | .delete a =>
      { s with objects := Function.update s.objects a.objectKey none }.goOn i r (.removed a)

/-- The next step of the `i`-th request. -/
def advance (s : State) (i : Nat) (newId : UUID) (txn : Datetime) : Option State := do
  let r ← s.requests[i]?
  match r.phase with
  | .reading (.read k) =>
      pure { s with
        requests := s.requests.set i
          { r with seen := r.seen ++ [s.store], phase := .reading (k s.store) } }
  | .reading (.done (.error e)) => pure (s.goOn i r (.failed e))
  | .reading (.done (.ok task)) => pure (perform settings s i r newId txn task)
  | .inserting row expiresAt =>
      if insertable row s.db s.attachments then
        pure ({ s with attachments := s.attachments ++ [row] }.goOn i r
          (.answered (.upload row expiresAt)))
      else pure (s.goOn i r (.failed (.database .integrity)))
  | .publishing id =>
      match find id s.attachments with
      | some a =>
          pure ({ s with published := s.published ++ [id] }.goOn i r (.answered (.attachment a)))
      | none => pure (s.goOn i r (.failed .internal))
  | .removed a =>
      pure ({ s with
        attachments :=
          update txn a { a with status := .deleted, deletedAt := some s.now } s.attachments
          }.goOn i r
        (.answered .done))
  | .answered _ | .failed _ => none

/-- The next step of the `k`-th run of `process_attachment`. -/
def work (s : State) (k : Nat) (txn : Datetime) : Option State := do
  let t ← s.tasks[k]?
  match t.phase with
  | .starting =>
      match find t.attachmentId s.attachments with
      | some a => pure (s.workOn k t (if a.status = .processing then .claiming a else .done))
      | none => pure (s.workOn k t .done)
  | .claiming a =>
      pure ({ s with
        attachments := update txn a { a with processingAttempts := a.processingAttempts + 1 }
          s.attachments }.workOn k t .refreshing)
  | .refreshing =>
      match find t.attachmentId s.attachments with
      | some a => pure (s.workOn k t (.claimed a))
      | none => pure (s.workOn k t (.failed "could not refresh"))
  | .claimed a =>
      match s.objects a.objectKey with
      | none => pure (s.workOn k t (.failed (storage.missing a.objectKey)))
      | some bytes =>
          if bytes.length ≠ a.sizeBytes then
            pure (s.workOn k t (.rejecting "Uploaded object size does not match the declared size"))
          else if settings.attachmentMaxBytes < bytes.length then
            pure (s.workOn k t (.rejecting "Uploaded object exceeds the configured size limit"))
          else pure (s.workOn k t (.sized a))
  | .sized a =>
      match s.objects a.objectKey with
      | none => pure (s.workOn k t (.failed (storage.missing a.objectKey)))
      | some bytes => pure (s.workOn k t (.hashed a (storage.sha256 bytes)))
  | .hashed a sha256 =>
      pure ({ s with
        attachments := update txn a
          { a with
            status := .available
            sha256 := some sha256
            processedAt := some s.now
            processingError := none } s.attachments }.workOn k t .done)
  | .failed error =>
      -- below the limit the message is retried: a later delivery of it
      match find t.attachmentId s.attachments with
      | some a => pure (s.workOn k t
          (if settings.attachmentProcessingMaxAttempts ≤ a.processingAttempts then .rejecting error
            else .done))
      | none => pure (s.workOn k t .done)
  | .rejecting error =>
      match find t.attachmentId s.attachments with
      | some a => pure (s.workOn k t (if a.status = .processing then .marking a error else .done))
      | none => pure (s.workOn k t .done)
  | .marking a error =>
      pure ({ s with
        attachments := update txn a
          { a with
            status := .rejected
            processingError := some (String.ofList (error.toList.take 1000))
            processedAt := some s.now } s.attachments }.workOn k t .done)
  | .done => none

/-- Where an exception takes a run: to its handler, or out of it. -/
def TaskPhase.raised (error : String) : TaskPhase → TaskPhase
  | .starting | .claiming _ | .refreshing | .claimed _ | .sized _ | .hashed .. => .failed error
  | .failed _ | .rejecting _ | .marking .. | .done => .done

def step (s : State) : Action → Option State
  | .tick now => do
      guard (s.now ≤ now)
      pure { s with now := now }
  | .others db => do
      guard (∀ a ∈ s.attachments, hasParents a db)
      pure { s with db := db }
  | .call user w c =>
      pure { s with
        requests := s.requests ++
          [⟨user, w, c, [],
            .reading (AttachmentService.program settings.attachmentMaxBytes user w c)⟩] }
  | .advance i newId txn => advance settings s i newId txn
  | .requestFails i => do
      let r ← s.requests[i]?
      match r.phase with
      | .answered _ | .failed _ => none
      | _ => pure (s.goOn i r (.failed .internal))
  | .put i bytes => do
      let r ← s.requests[i]?
      match r.phase with
      | .answered (.upload a expiresAt) => do
          guard (s.now < expiresAt)
          pure { s with objects := Function.update s.objects a.objectKey (some bytes) }
      | _ => none
  | .recover =>
      pure { s with
        recoveries := s.recoveries ++
          [(AttachmentRepository.listProcessing s.attachments).map Attachment.id] }
  | .publish j => do
      let ids ← s.recoveries[j]?
      match ids with
      | [] => none
      | id :: rest =>
          pure { s with
            published := s.published ++ [id]
            recoveries := s.recoveries.set j rest }
  | .deliver id => do
      guard (id ∈ s.published)
      pure { s with tasks := s.tasks ++ [⟨id, .starting⟩] }
  | .work k txn => work settings storage s k txn
  | .taskFails k error => do
      let t ← s.tasks[k]?
      pure (s.workOn k t (t.phase.raised error))
  | .lost k => do
      let t ← s.tasks[k]?
      pure (s.workOn k t .done)

end

end Attachments

end ForkRoom
