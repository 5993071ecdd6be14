/-
# `Service.Attachment` — attachments and their access

`app/models/attachment.py`, `AttachmentRepository`, the permissions, and the part
of `AttachmentService` (`app/services/attachment.py`) that reads: what a request
may go on to do.  What it then does, to the table and to the object store, is one
step after another and stands in `System.Attachments`, beside the workers.

The table of attachments is kept apart from the tables of `Db`.
-/
import ForkRoom.Model.Repositories

namespace ForkRoom

open Optimistic Reads Rows

inductive AttachmentStatus where
  | pending | processing | available | rejected | deleted
  deriving DecidableEq, Repr

structure Attachment where
  id : UUID
  workspaceId : UUID
  decisionId : Option UUID
  proposalId : Option UUID
  uploadedById : UUID
  objectKey : String
  filename : String
  mediaType : String
  sizeBytes : Nat
  sha256 : Option String
  status : AttachmentStatus
  processingAttempts : Nat
  processingError : Option String
  processedAt : Option Datetime
  deletedAt : Option Datetime
  createdAt : Datetime
  updatedAt : Datetime
  deriving DecidableEq

instance : Keyed Attachment UUID := ⟨Attachment.id⟩

/-- `UPDATE`: the columns that the session has changed since it loaded the row. -/
def Attachment.merge (txn : Datetime) (loaded current stored : Attachment) : Attachment :=
  { stored with
    sha256 := column loaded.sha256 current.sha256 stored.sha256
    status := column loaded.status current.status stored.status
    processingAttempts :=
      column loaded.processingAttempts current.processingAttempts stored.processingAttempts
    processingError := column loaded.processingError current.processingError stored.processingError
    processedAt := column loaded.processedAt current.processedAt stored.processedAt
    deletedAt := column loaded.deletedAt current.deletedAt stored.deletedAt
    updatedAt := if current = loaded then stored.updatedAt else txn }

/-- The tables that the requests read. -/
structure AttachmentStore where
  db : Db
  attachments : List Attachment

/-! ## The repository -/

namespace AttachmentRepository

def get (workspaceId attachmentId : UUID) (attachments : List Attachment) : Option Attachment :=
  attachments.find? fun a =>
    a.id = attachmentId && a.workspaceId = workspaceId && a.status ≠ .deleted

def getById (attachmentId : UUID) (attachments : List Attachment) : Option Attachment :=
  find attachmentId attachments

def listForWorkspace (workspaceId : UUID) (decisionId proposalId : Option UUID)
    (attachments : List Attachment) : List Attachment :=
  orderBy (fun a b => decide (b.createdAt ≤ a.createdAt)) (attachments.filter fun a =>
    a.workspaceId = workspaceId && a.status ≠ .deleted &&
      (decisionId.isNone || a.decisionId = decisionId) &&
      (proposalId.isNone || a.proposalId = proposalId))

def listProcessing (attachments : List Attachment) : List Attachment :=
  (orderBy (fun a b => decide (a.updatedAt ≤ b.updatedAt))
    (attachments.filter fun a => a.status = .processing)).take 100

theorem get_some {w i : UUID} {attachments : List Attachment} {a : Attachment}
    (h : get w i attachments = some a) :
    a ∈ attachments ∧ a.id = i ∧ a.workspaceId = w ∧ a.status ≠ .deleted := by
  have hp := List.find?_some h
  simp only [Bool.and_eq_true, decide_eq_true_eq] at hp
  exact ⟨List.mem_of_find?_eq_some h, hp.1.1, hp.1.2, hp.2⟩

theorem mem_listForWorkspace {w : UUID} {d p : Option UUID} {attachments : List Attachment}
    {a : Attachment} (h : a ∈ listForWorkspace w d p attachments) :
    a ∈ attachments ∧ a.status ≠ .deleted := by
  obtain ⟨hmem, hp⟩ := List.mem_filter.mp (mem_orderBy.mp h)
  simp only [Bool.and_eq_true, decide_eq_true_eq] at hp
  exact ⟨hmem, hp.1.1.2⟩

end AttachmentRepository

/-! ## Requests -/

inductive AttachmentError where
  | workspaceNotFound | attachmentNotFound | accessDenied | tooLarge | invalidTarget | invalidState
  /-- a rejected commit that no `except` clause catches -/
  | database (e : CommitError)
  /-- an error of the object store, or a connection that is lost -/
  | internal
  deriving DecidableEq, Repr

structure AttachmentCreateRequest where
  filename : String
  mediaType : String
  sizeBytes : Nat
  decisionId : Option UUID
  proposalId : Option UUID
  deriving DecidableEq

def canUploadAttachment (role : WorkspaceRole) : Bool :=
  role = .owner || role = .admin || role = .member

def canDeleteAttachment (role : WorkspaceRole) (uploadedById userId : UUID) : Bool :=
  role = .owner || role = .admin || uploadedById = userId

/-- The methods of the service. -/
inductive AttachmentCall where
  | createUpload (payload : AttachmentCreateRequest)
  | completeUpload (attachmentId : UUID)
  | listAttachments (decisionId proposalId : Option UUID)
  | get (attachmentId : UUID)
  | download (attachmentId : UUID)
  | delete (attachmentId : UUID)
  deriving DecidableEq

def AttachmentCall.deletes : AttachmentCall → Bool
  | .delete _ => true
  | _ => false

/-- What the reads of a request leave to be done, with the rows they have found. -/
inductive AttachmentTask where
  | createUpload (payload : AttachmentCreateRequest)
  | completeUpload (a : Attachment)
  | list (rows : List Attachment)
  | get (a : Attachment)
  | download (a : Attachment)
  | delete (a : Attachment)

abbrev AttachmentQuery (α : Type) := Reads AttachmentStore AttachmentError α

namespace AttachmentService

def membership (userId workspaceId : UUID) : AttachmentQuery WorkspaceMember := do
  let workspace ← query fun s => WorkspaceRepository.getById workspaceId s.db
  require workspace.isSome .workspaceNotFound
  orThrow (← query fun s => WorkspaceRepository.getMembership workspaceId userId s.db)
    .workspaceNotFound

def validateTarget (workspaceId : UUID) (decisionId proposalId : Option UUID) :
    AttachmentQuery Unit := do
  require (¬ (proposalId.isSome ∧ decisionId = none)) .invalidTarget
  match decisionId with
  | none => pure ()
  | some d => do
      let decision ← query fun s => DecisionRepository.getForWorkspace workspaceId d s.db
      require decision.isSome .invalidTarget
      match proposalId with
      | none => pure ()
      | some p => do
          let proposal ← query fun s => ProposalRepository.getForDecision d p s.db
          require proposal.isSome .invalidTarget

def requireAttachment (workspaceId attachmentId : UUID) : AttachmentQuery Attachment := do
  orThrow (← query fun s => AttachmentRepository.get workspaceId attachmentId s.attachments)
    .attachmentNotFound

def createUpload (maxBytes : Nat) (user : User) (w : UUID) (payload : AttachmentCreateRequest) :
    AttachmentQuery AttachmentTask := do
  let m ← membership user.id w
  require (canUploadAttachment m.role) .accessDenied
  require (payload.sizeBytes ≤ maxBytes) .tooLarge
  validateTarget w payload.decisionId payload.proposalId
  pure (.createUpload payload)

def completeUpload (user : User) (w attachmentId : UUID) : AttachmentQuery AttachmentTask := do
  let m ← membership user.id w
  let a ← requireAttachment w attachmentId
  require (canDeleteAttachment m.role a.uploadedById user.id) .accessDenied
  require (a.status = .pending) .invalidState
  pure (.completeUpload a)

def listAttachments (user : User) (w : UUID) (decisionId proposalId : Option UUID) :
    AttachmentQuery AttachmentTask := do
  let _ ← membership user.id w
  require (¬ (proposalId.isSome ∧ decisionId = none)) .invalidTarget
  let rows ← query fun s =>
    AttachmentRepository.listForWorkspace w decisionId proposalId s.attachments
  pure (.list rows)

def get (user : User) (w attachmentId : UUID) : AttachmentQuery Attachment := do
  let _ ← membership user.id w
  requireAttachment w attachmentId

def download (user : User) (w attachmentId : UUID) : AttachmentQuery AttachmentTask := do
  let a ← get user w attachmentId
  require (a.status = .available) .invalidState
  pure (.download a)

def delete (user : User) (w attachmentId : UUID) : AttachmentQuery AttachmentTask := do
  let m ← membership user.id w
  let a ← requireAttachment w attachmentId
  require (canDeleteAttachment m.role a.uploadedById user.id) .accessDenied
  pure (.delete a)

/-- The reads of a request. -/
def program (maxBytes : Nat) (user : User) (w : UUID) :
    AttachmentCall → AttachmentQuery AttachmentTask
  | .createUpload payload => createUpload maxBytes user w payload
  | .completeUpload i => completeUpload user w i
  | .listAttachments d p => listAttachments user w d p
  | .get i => do
      let a ← get user w i
      pure (.get a)
  | .download i => download user w i
  | .delete i => delete user w i

end AttachmentService

/-! ### What the requests have read -/

def AttachmentTask.deletes : AttachmentTask → Bool
  | .delete _ => true
  | _ => false

/-- What an attachment has to be, at the last read, for what is to be done with it. -/
def AttachmentTask.Found (rows : List Attachment) : AttachmentTask → Prop
  | .completeUpload a => a ∈ rows ∧ a.status = .pending
  | .download a => a ∈ rows ∧ a.status = .available
  | .delete a => a ∈ rows ∧ a.status ≠ .deleted
  | _ => True

section
variable {w i : UUID} {user : User} {ss : List AttachmentStore} {maxBytes : Nat}

namespace AttachmentService

theorem requireAttachment_bind {α : Type} {f : Attachment → AttachmentQuery α} {x : α} :
    (requireAttachment w i >>= f).Ends ss (.ok x) →
      ∃ s ss' a, ss = s :: ss' ∧ a ∈ s.attachments ∧ a.status ≠ .deleted ∧
        (f a).Ends ss' (.ok x) := by
  intro h
  simp only [requireAttachment, bind_assoc, ends_query_bind, ends_orThrow_bind] at h
  obtain ⟨s, ss', rfl, a, ha, h⟩ := h
  obtain ⟨hmem, -, -, hst⟩ := AttachmentRepository.get_some ha
  exact ⟨s, ss', a, rfl, hmem, hst, h⟩

/-- What is to be done with an attachment rests on the last state that was read; only a call of
`delete` comes to delete. -/
theorem program_found {call : AttachmentCall} {task : AttachmentTask}
    (h : (program maxBytes user w call).Ends ss (.ok task)) :
    (∀ s ∈ ss.getLast?, task.Found s.attachments) ∧ task.deletes = call.deletes := by
  have hlast : ∀ {ss₁ : List AttachmentStore} {s s' : AttachmentStore},
      s' ∈ (ss₁ ++ [s]).getLast? → s' = s := by
    intro ss₁ s s' hs
    rw [List.getLast?_append] at hs
    exact (Option.some.inj hs).symm
  cases call with
  | createUpload payload =>
      obtain ⟨_, _, m, -, -, h⟩ := ends_bind.mp h
      obtain ⟨-, h⟩ := ends_require_bind.mp h
      obtain ⟨-, h⟩ := ends_require_bind.mp h
      obtain ⟨_, _, _, -, -, h⟩ := ends_bind.mp h
      obtain ⟨-, rfl⟩ := ends_pure.mp h
      exact ⟨fun _ _ => trivial, rfl⟩
  | completeUpload i =>
      obtain ⟨ss₁, _, m, rfl, -, h⟩ := ends_bind.mp h
      obtain ⟨s, _, a, rfl, ha, -, h⟩ := requireAttachment_bind h
      obtain ⟨-, h⟩ := ends_require_bind.mp h
      obtain ⟨hst, h⟩ := ends_require_bind.mp h
      obtain ⟨rfl, rfl⟩ := ends_pure.mp h
      refine ⟨fun s' hs' => ?_, rfl⟩
      rw [hlast hs']
      exact ⟨ha, hst⟩
  | listAttachments d p =>
      obtain ⟨_, _, m, -, -, h⟩ := ends_bind.mp h
      obtain ⟨-, h⟩ := ends_require_bind.mp h
      obtain ⟨s, _, rfl, h⟩ := ends_query_bind.mp h
      obtain ⟨-, rfl⟩ := ends_pure.mp h
      exact ⟨fun _ _ => trivial, rfl⟩
  | get i =>
      obtain ⟨_, _, a, -, -, h⟩ := ends_bind.mp h
      obtain ⟨-, rfl⟩ := ends_pure.mp h
      exact ⟨fun _ _ => trivial, rfl⟩
  | download i =>
      simp only [program, download, get, bind_assoc] at h
      obtain ⟨ss₁, _, m, rfl, -, h⟩ := ends_bind.mp h
      obtain ⟨s, _, a, rfl, ha, -, h⟩ := requireAttachment_bind h
      obtain ⟨hst, h⟩ := ends_require_bind.mp h
      obtain ⟨rfl, rfl⟩ := ends_pure.mp h
      refine ⟨fun s' hs' => ?_, rfl⟩
      rw [hlast hs']
      exact ⟨ha, hst⟩
  | delete i =>
      obtain ⟨ss₁, _, m, rfl, -, h⟩ := ends_bind.mp h
      obtain ⟨s, _, a, rfl, ha, hst, h⟩ := requireAttachment_bind h
      obtain ⟨-, h⟩ := ends_require_bind.mp h
      obtain ⟨rfl, rfl⟩ := ends_pure.mp h
      refine ⟨fun s' hs' => ?_, rfl⟩
      rw [hlast hs']
      exact ⟨ha, hst⟩

end AttachmentService

end

end ForkRoom
