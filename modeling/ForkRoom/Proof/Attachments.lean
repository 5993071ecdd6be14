/-
# `Proof.Attachments` — what brings a deleted attachment back

A run of `process_attachment` looks at the status of its attachment once, at the
start, and writes it at the end, however much later.  `complete_upload` looks and
writes in the same way.  The row that `delete` has marked in between is marked
again.

    claim ───────── sha256 ───────── mark_available
              remove ── DELETED
    ───────────────────────────────────────────────  AVAILABLE

While nobody is between the look and the write when `delete` commits, `DELETED` is
final: everybody who comes later finds the row as it is.
-/
import ForkRoom.System.Attachments
import ForkRoom.System.Operations

namespace ForkRoom

open Optimistic Reads Rows

namespace Attachments

/-! ## Rows -/

section
variable {txn : Datetime} {loaded current row x : Attachment} {rows : List Attachment}

@[simp] theorem merge_objectKey :
    (Attachment.merge txn loaded current row).objectKey = row.objectKey := rfl

@[simp] theorem merge_sizeBytes :
    (Attachment.merge txn loaded current row).sizeBytes = row.sizeBytes := rfl

theorem merge_status : (Attachment.merge txn loaded current row).status =
    column loaded.status current.status row.status := rfl

theorem merge_sha256 : (Attachment.merge txn loaded current row).sha256 =
    column loaded.sha256 current.sha256 row.sha256 := rfl

/-- A row of an updated table: the one that was meant, with its new columns, or another. -/
theorem mem_update (h : x ∈ update txn loaded current rows) :
    (∃ row ∈ rows, row.id = loaded.id ∧ x = Attachment.merge txn loaded current row) ∨
      (x ∈ rows ∧ x.id ≠ loaded.id) := by
  obtain ⟨row, hrow, rfl⟩ := mem_modify.mp h
  split
  · rename_i hid
    exact Or.inl ⟨row, hrow, hid, rfl⟩
  · rename_i hid
    exact Or.inr ⟨hrow, hid⟩

/-- Every row is still there, with its new columns if it was meant. -/
theorem update_of_mem (txn : Datetime) (loaded current : Attachment) (h : row ∈ rows) :
    ∃ row' ∈ update txn loaded current rows,
      (row.id = loaded.id ∧ row' = Attachment.merge txn loaded current row) ∨
        (row.id ≠ loaded.id ∧ row' = row) := by
  refine ⟨_, List.mem_map_of_mem h, ?_⟩
  by_cases hid : row.id = loaded.id
  · exact Or.inl ⟨hid, if_pos hid⟩
  · exact Or.inr ⟨hid, if_neg hid⟩

theorem update_ids : (update txn loaded current rows).map Attachment.id = rows.map Attachment.id :=
  map_modify (f := Attachment.merge txn loaded current) Attachment.id (fun _ => rfl) rows

end

/-! ## What a step does -/

/-- The row that a run of the task holds. -/
def TaskPhase.held : TaskPhase → Option Attachment
  | .claiming a | .claimed a | .sized a | .hashed a _ | .marking a _ => some a
  | .starting | .refreshing | .failed _ | .rejecting _ | .done => none

/-- The run has read the attachment as `PROCESSING` and may still write its status. -/
def TaskPhase.deciding : TaskPhase → Bool
  | .claiming _ | .refreshing | .claimed _ | .sized _ | .hashed .. | .marking .. => true
  | .starting | .failed _ | .rejecting _ | .done => false

theorem TaskPhase.deciding_of_held {p : TaskPhase} {a : Attachment} (h : p.held = some a) :
    p.deciding = true := by
  cases p <;> first | rfl | cases h

section
variable (settings : AttachmentSettings) (storage : ObjectStorage)

/-- The steps of a run of the task: the rows they leave, and the next phase. -/
inductive Works (s : State) (txn : Datetime) (id : UUID) :
    TaskPhase → List Attachment → TaskPhase → Prop
  /-- the run is over, or it has failed: to its handler, and from there to the rejection -/
  | left {p p' : TaskPhase} (h : p'.deciding = false) : Works s txn id p s.attachments p'
  | claiming {a : Attachment} (h : find id s.attachments = some a) (hst : a.status = .processing) :
      Works s txn id .starting s.attachments (.claiming a)
  | counted {a : Attachment} : Works s txn id (.claiming a)
      (update txn a { a with processingAttempts := a.processingAttempts + 1 } s.attachments)
      .refreshing
  | claimed {a : Attachment} (h : find id s.attachments = some a) :
      Works s txn id .refreshing s.attachments (.claimed a)
  | sized {a : Attachment} {bytes : List UInt8} (h : s.objects a.objectKey = some bytes)
      (hlen : bytes.length = a.sizeBytes) (hmax : bytes.length ≤ settings.attachmentMaxBytes) :
      Works s txn id (.claimed a) s.attachments (.sized a)
  | hashed {a : Attachment} {bytes : List UInt8} (h : s.objects a.objectKey = some bytes) :
      Works s txn id (.sized a) s.attachments (.hashed a (storage.sha256 bytes))
  | available {a : Attachment} {sha256 : String} : Works s txn id (.hashed a sha256)
      (update txn a { a with
        status := .available
        sha256 := some sha256
        processedAt := some s.now
        processingError := none } s.attachments) .done
  | marking {a : Attachment} {error : String} (h : find id s.attachments = some a)
      (hst : a.status = .processing) :
      Works s txn id (.rejecting error) s.attachments (.marking a error)
  | rejected {a : Attachment} {error : String} : Works s txn id (.marking a error)
      (update txn a { a with
        status := .rejected
        processingError := some (String.ofList (error.toList.take 1000))
        processedAt := some s.now } s.attachments) .done

/-- The steps of a request: the state they leave, and the request. -/
inductive Requests (s : State) (r : Request) (newId : UUID) (txn : Datetime) :
    State → Request → Prop
  | read {k : AttachmentStore → AttachmentQuery AttachmentTask} (h : r.phase = .reading (.read k)) :
      Requests s r newId txn s { r with seen := r.seen ++ [s.store], phase := .reading (k s.store) }
  | failed {e : AttachmentError} : Requests s r newId txn s { r with phase := .failed e }
  | signed {payload : AttachmentCreateRequest} :
      Requests s r newId txn s { r with
        phase := .inserting (newAttachment r.currentUser r.workspaceId newId payload txn)
          (expiry settings s.now) }
  | inserted {row : Attachment} {expiresAt : Datetime} (h : r.phase = .inserting row expiresAt)
      (hrow : insertable row s.db s.attachments) :
      Requests s r newId txn { s with attachments := s.attachments ++ [row] }
        { r with phase := .answered (.upload row expiresAt) }
  | completed {a : Attachment} (h : r.phase = .reading (.done (.ok (.completeUpload a)))) :
      Requests s r newId txn { s with
        attachments := update txn a { a with status := .processing, processingError := none }
          s.attachments } { r with phase := .publishing a.id }
  | published {id : UUID} {a : Attachment} :
      Requests s r newId txn { s with published := s.published ++ [id] }
        { r with phase := .answered (.attachment a) }
  | listed {rows : List Attachment} :
      Requests s r newId txn s { r with phase := .answered (.attachments rows) }
  | got {a : Attachment} : Requests s r newId txn s { r with phase := .answered (.attachment a) }
  | downloaded {a : Attachment} (h : r.phase = .reading (.done (.ok (.download a)))) :
      Requests s r newId txn s { r with phase := .answered (.url a (expiry settings s.now)) }
  | removed {a : Attachment} (h : r.phase = .reading (.done (.ok (.delete a)))) :
      Requests s r newId txn { s with objects := Function.update s.objects a.objectKey none }
        { r with phase := .removed a }
  | deleted {a : Attachment} (h : r.phase = .removed a) :
      Requests s r newId txn { s with
        attachments :=
          update txn a { a with status := .deleted, deletedAt := some s.now } s.attachments }
        { r with phase := .answered .done }

variable {settings storage} {s s' : State} {txn : Datetime}

theorem work_cases {k : Nat} (h : work settings storage s k txn = some s') :
    ∃ t rows p, s.tasks[k]? = some t ∧ Works settings storage s txn t.attachmentId t.phase rows p ∧
      s' = { s with attachments := rows, tasks := s.tasks.set k { t with phase := p } } := by
  unfold work at h
  obtain ⟨t, ht, h⟩ := Option.bind_eq_some_iff.mp h
  rcases t with ⟨id, phase⟩
  refine ⟨⟨id, phase⟩, ?_⟩
  cases phase with
  | starting =>
      dsimp only at h
      split at h
      · rename_i a ha
        cases h
        split
        · rename_i hst
          exact ⟨_, _, ht, .claiming ha hst, rfl⟩
        · refine ⟨_, _, ht, ?_, rfl⟩
          exact .left rfl
      · cases h
        refine ⟨_, _, ht, ?_, rfl⟩
        exact .left rfl
  | claiming a =>
      cases h
      exact ⟨_, _, ht, .counted, rfl⟩
  | refreshing =>
      dsimp only at h
      split at h
      · rename_i a ha
        cases h
        exact ⟨_, _, ht, .claimed ha, rfl⟩
      · cases h
        refine ⟨_, _, ht, ?_, rfl⟩
        exact .left rfl
  | claimed a =>
      dsimp only at h
      split at h
      · cases h
        refine ⟨_, _, ht, ?_, rfl⟩
        exact .left rfl
      · rename_i bytes hbytes
        split at h
        · cases h
          refine ⟨_, _, ht, ?_, rfl⟩
          exact .left rfl
        · rename_i hlen
          split at h
          · cases h
            refine ⟨_, _, ht, ?_, rfl⟩
            exact .left rfl
          · rename_i hmax
            cases h
            exact ⟨_, _, ht, .sized hbytes (not_not.mp hlen) (not_lt.mp hmax), rfl⟩
  | sized a =>
      dsimp only at h
      split at h
      · cases h
        refine ⟨_, _, ht, ?_, rfl⟩
        exact .left rfl
      · rename_i bytes hbytes
        cases h
        exact ⟨_, _, ht, .hashed hbytes, rfl⟩
  | hashed a sha256 =>
      cases h
      exact ⟨_, _, ht, .available, rfl⟩
  | failed error =>
      dsimp only at h
      split at h
      · cases h
        refine ⟨_, _, ht, .left ?_, rfl⟩
        split <;> rfl
      · cases h
        refine ⟨_, _, ht, ?_, rfl⟩
        exact .left rfl
  | rejecting error =>
      dsimp only at h
      split at h
      · rename_i a ha
        cases h
        split
        · rename_i hst
          exact ⟨_, _, ht, .marking ha hst, rfl⟩
        · refine ⟨_, _, ht, ?_, rfl⟩
          exact .left rfl
      · cases h
        refine ⟨_, _, ht, ?_, rfl⟩
        exact .left rfl
  | marking a error =>
      cases h
      exact ⟨_, _, ht, .rejected, rfl⟩
  | done => cases h

theorem advance_cases {i : Nat} {newId : UUID} (h : advance settings s i newId txn = some s') :
    ∃ r s₁ r', s.requests[i]? = some r ∧ Requests settings s r newId txn s₁ r' ∧
      s' = { s₁ with requests := s.requests.set i r' } := by
  unfold advance at h
  obtain ⟨r, hr, h⟩ := Option.bind_eq_some_iff.mp h
  rcases r with ⟨user, w, c, seen, phase⟩
  refine ⟨⟨user, w, c, seen, phase⟩, ?_⟩
  cases phase with
  | reading rest =>
      cases rest with
      | read k =>
          cases h
          exact ⟨_, _, hr, .read rfl, rfl⟩
      | done result =>
          cases result with
          | error e =>
              cases h
              exact ⟨_, _, hr, .failed, rfl⟩
          | ok task =>
              cases h
              cases task with
              | createUpload payload => exact ⟨_, _, hr, .signed, rfl⟩
              | completeUpload a => exact ⟨_, _, hr, .completed rfl, rfl⟩
              | list rows => exact ⟨_, _, hr, .listed, rfl⟩
              | get a => exact ⟨_, _, hr, .got, rfl⟩
              | download a => exact ⟨_, _, hr, .downloaded rfl, rfl⟩
              | delete a => exact ⟨_, _, hr, .removed rfl, rfl⟩
  | inserting row expiresAt =>
      dsimp only at h
      split at h
      · rename_i hrow
        cases h
        exact ⟨_, _, hr, .inserted rfl hrow, rfl⟩
      · cases h
        exact ⟨_, _, hr, .failed, rfl⟩
  | publishing id =>
      dsimp only at h
      split at h
      · cases h
        exact ⟨_, _, hr, .published, rfl⟩
      · cases h
        exact ⟨_, _, hr, .failed, rfl⟩
  | removed a =>
      cases h
      exact ⟨_, _, hr, .deleted rfl, rfl⟩
  | answered answer => cases h
  | failed e => cases h

/-! ## Requests know what they have read -/

/-- What a phase of the request owes to its reads. -/
def Request.At (settings : AttachmentSettings) (r : Request) : RequestPhase → Prop
  | .reading rest =>
      (AttachmentService.program settings.attachmentMaxBytes r.currentUser r.workspaceId
      r.call).Leaves r.seen rest
  | .inserting row _ => row.status = .pending
  | .removed a => a.status ≠ .deleted
  | .publishing _ | .answered _ | .failed _ => True

structure Coherent (settings : AttachmentSettings) (s : State) : Prop where
  ids : (s.attachments.map Attachment.id).Nodup
  requests : ∀ r ∈ s.requests, r.At settings r.phase
  tasks : ∀ t ∈ s.tasks, ∀ a, t.phase.held = some a → a.id = t.attachmentId

theorem coherent_start (db : Db) (now : Datetime) : Coherent settings (start db now) where
  ids := List.nodup_nil
  requests _ h := nomatch h
  tasks _ h := nomatch h

/-- An attachment that a request is about to treat is what the last read has found. -/
theorem Request.At.found {r : Request} {task : AttachmentTask}
    (h : r.At settings (.reading (.done (.ok task)))) :
    ∃ store : AttachmentStore, r.seen.getLast? = some store ∧ task.Found store.attachments := by
  cases hlast : r.seen.getLast? with
  | none =>
      rw [List.getLast?_eq_none_iff] at hlast
      have hread : Ends _ r.seen (Except.ok task) := h
      rw [hlast] at hread
      have hdone : AttachmentService.program settings.attachmentMaxBytes r.currentUser r.workspaceId
        r.call = .done (.ok task) := hread
      cases hcall : r.call <;> rw [hcall] at hdone <;> nomatch hdone
  | some store => exact ⟨store, rfl, (AttachmentService.program_found h).1 store hlast⟩

/-- The same of a request that comes to it with its last read. -/
theorem Request.At.found_read {r : Request} {k : AttachmentStore → AttachmentQuery AttachmentTask}
    {task : AttachmentTask} (h : r.At settings (.reading (.read k)))
    (hk : k s.store = .done (.ok task)) : task.Found s.attachments := by
  have hends : Ends _ (r.seen ++ [s.store]) (Except.ok task) := hk ▸ leaves_snoc h s.store
  exact (AttachmentService.program_found hends).1 s.store (by simp)

/-- The rows of a table have their identifiers to themselves. -/
theorem Coherent.eq (h : Coherent settings s) {a b : Attachment} (ha : a ∈ s.attachments)
    (hb : b ∈ s.attachments) (hid : a.id = b.id) : a = b :=
  eq_of_key h.ids ha hb hid

/-! ### Runs of the task -/

section
variable {id : UUID} {p p' : TaskPhase} {rows : List Attachment}

/-- A run comes to decide by reading `PROCESSING`. -/
theorem Works.looks (h : Works settings storage s txn id p rows p') (hp : p.deciding = false)
    (hp' : p'.deciding = true) : ∃ a, find id s.attachments = some a ∧ a.status = .processing := by
  cases h with
  | left hleft =>
      rw [hleft] at hp'
      cases hp'
  | claiming ha hst => exact ⟨_, ha, hst⟩
  | marking ha hst => exact ⟨_, ha, hst⟩
  | _ => cases hp

/-- Before that, it writes nothing. -/
theorem Works.reads (h : Works settings storage s txn id p rows p') (hp : p.deciding = false) :
    rows = s.attachments := by
  cases h <;> first | rfl | cases hp

/-- It writes to no other row. -/
theorem Works.others (h : Works settings storage s txn id p rows p')
    (hheld : ∀ a, p.held = some a → a.id = id) {row : Attachment} (hrow : row ∈ s.attachments)
    (hne : row.id ≠ id) : row ∈ rows := by
  have hkeep : ∀ {a current : Attachment}, p.held = some a →
      row ∈ update txn a current s.attachments := by
    intro a current ha
    obtain ⟨row', hrow', ⟨hid, -⟩ | ⟨-, rfl⟩⟩ := update_of_mem txn a current hrow
    · exact absurd (hid.trans (hheld a ha)) hne
    · exact hrow'
  cases h with
  | counted | available | rejected => exact hkeep rfl
  | _ => exact hrow

theorem Works.ids (h : Works settings storage s txn id p rows p') :
    rows.map Attachment.id = s.attachments.map Attachment.id := by
  cases h with
  | counted | available | rejected => exact update_ids
  | _ => rfl

/-- It marks no row as deleted. -/
theorem Works.deleted (h : Works settings storage s txn id p rows p') {x : Attachment}
    (hx : x ∈ rows)
    (hst : x.status = .deleted) : ∃ row ∈ s.attachments, row.id = x.id ∧ row.status = .deleted := by
  have hback : ∀ {a current : Attachment}, x ∈ update txn a current s.attachments →
      current.status ≠ .deleted ∨ current.status = a.status →
      ∃ row ∈ s.attachments, row.id = x.id ∧ row.status = .deleted := by
    intro a current hx hcurrent
    rcases mem_update hx with ⟨row, hrow, -, rfl⟩ | ⟨hx, -⟩
    · rw [merge_status] at hst
      rcases hcurrent with hne | he
      · rcases column_cases a.status current.status row.status with hc | hc
        · exact ⟨row, hrow, rfl, hc ▸ hst⟩
        · exact absurd (hc ▸ hst) hne
      · rw [he, column_kept] at hst
        exact ⟨row, hrow, rfl, hst⟩
    · exact ⟨x, hx, rfl, hst⟩
  cases h with
  | counted => exact hback hx (Or.inr rfl)
  | available => exact hback hx (Or.inl nofun)
  | rejected => exact hback hx (Or.inl nofun)
  | _ => exact ⟨x, hx, rfl, hst⟩

/-- The row it holds afterwards is its own. -/
theorem Works.held (h : Works settings storage s txn id p rows p')
    (hheld : ∀ a, p.held = some a → a.id = id) : ∀ a, p'.held = some a → a.id = id := by
  intro a ha
  cases h with
  | left hleft =>
      rw [TaskPhase.deciding_of_held ha] at hleft
      cases hleft
  | claiming hfind | claimed hfind | marking hfind =>
      cases ha
      exact (find_some hfind).2
  | sized | hashed =>
      cases ha
      exact hheld _ rfl
  | counted | available | rejected => cases ha

end

/-! ## Deletions -/

/-- The attachment that the request is about to put to work. -/
def RequestPhase.completing : RequestPhase → Option Attachment
  | .reading (.done (.ok (.completeUpload a))) => some a
  | _ => none

/-- The attachment that the request is about to mark as deleted. -/
def RequestPhase.deleting : RequestPhase → Option Attachment
  | .removed a => some a
  | _ => none

/-- Nobody else is between reading the status of the attachment and writing it. -/
structure Quiet (x : UUID) (s : State) : Prop where
  tasks : ∀ t ∈ s.tasks, t.attachmentId = x → t.phase.deciding = false
  requests : ∀ r ∈ s.requests, ∀ a ∈ r.phase.completing, a.id ≠ x

/-- `delete` commits only when nobody else is about to write the status. -/
def Undisputed (s : State) : Action → Prop
  | .advance i _ _ => ∀ r ∈ s.requests[i]?, ∀ a ∈ r.phase.deleting, Quiet a.id s
  | _ => True

/-- The status of the attachment has been committed as `DELETED`. -/
def State.Deleted (s : State) (x : UUID) : Prop :=
  ∃ row ∈ s.attachments, row.id = x ∧ row.status = .deleted

theorem completing_eq {p : RequestPhase} {a : Attachment} (h : p.completing = some a) :
    p = .reading (.done (.ok (.completeUpload a))) := by
  unfold RequestPhase.completing at h
  split at h
  · cases h
    rfl
  · cases h

/-! ### Requests -/

section
variable {r r' : Request} {newId x : UUID} {s₁ : State}

theorem Requests.tasks (h : Requests settings s r newId txn s₁ r') : s₁.tasks = s.tasks := by
  cases h <;> rfl

theorem Requests.ids (h : Requests settings s r newId txn s₁ r')
    (hids : (s.attachments.map Attachment.id).Nodup) :
    (s₁.attachments.map Attachment.id).Nodup := by
  cases h with
  | inserted _ hrow =>
      rw [List.map_append]
      refine List.Nodup.append hids (List.nodup_singleton _) ?_
      intro i hi hnew
      obtain ⟨a, ha, rfl⟩ := List.mem_map.mp hi
      exact (hrow.1 a ha).1 (List.mem_singleton.mp hnew)
  | completed | deleted => exact update_ids.symm ▸ hids
  | _ => exact hids

theorem Requests.at (h : Requests settings s r newId txn s₁ r') (hat : r.At settings r.phase) :
    r'.At settings r'.phase := by
  cases h with
  | read hp =>
      rw [hp] at hat
      exact leaves_snoc hat s.store
  | signed => rfl
  | removed hp =>
      rw [hp] at hat
      obtain ⟨store, -, -, hst⟩ := hat.found
      exact hst
  | _ => trivial

/-- A request marks another row as deleted only as the last step of a deletion. -/
theorem Requests.deleted_before (h : Requests settings s r newId txn s₁ r')
    (hat : r.At settings r.phase) (hx : s₁.Deleted x) :
    s.Deleted x ∨ ∃ a ∈ r.phase.deleting, a.id = x := by
  obtain ⟨row', hrow', rfl, hst⟩ := hx
  cases h with
  | inserted hp _ =>
      rcases List.mem_append.mp hrow' with hrow' | hrow'
      · exact Or.inl ⟨row', hrow', rfl, hst⟩
      · rw [hp] at hat
        have hpending : row'.status = .pending := List.mem_singleton.mp hrow' ▸ hat
        rw [hst] at hpending
        cases hpending
  | @completed a hp =>
      rcases mem_update hrow' with ⟨row, hrow, -, rfl⟩ | ⟨hrow', -⟩
      · rw [merge_status] at hst
        rcases column_cases a.status .processing row.status with hc | hc
        · exact Or.inl ⟨row, hrow, rfl, hc ▸ hst⟩
        · rw [hc] at hst
          cases hst
      · exact Or.inl ⟨row', hrow', rfl, hst⟩
  | @deleted a hp =>
      rcases mem_update hrow' with ⟨row, hrow, hid, rfl⟩ | ⟨hrow', -⟩
      · refine Or.inr ⟨a, ?_, hid.symm⟩
        rw [hp]
        rfl
      · exact Or.inl ⟨row', hrow', rfl, hst⟩
  | _ => exact Or.inl ⟨row', hrow', rfl, hst⟩

/-- Where nobody else is about to write the status, a request leaves `DELETED` as it is. -/
theorem Requests.deleted_after (h : Requests settings s r newId txn s₁ r')
    (hat : r.At settings r.phase) (hx : s.Deleted x) (hquiet : ∀ a ∈ r.phase.completing, a.id ≠ x) :
    s₁.Deleted x := by
  obtain ⟨row, hrow, hid, hst⟩ := hx
  cases h with
  | inserted => exact ⟨row, List.mem_append_left _ hrow, hid, hst⟩
  | @completed a hp =>
      have hne : a.id ≠ x := hquiet a (by rw [hp]; rfl)
      obtain ⟨row', hrow', ⟨he, -⟩ | ⟨-, rfl⟩⟩ := update_of_mem txn a
        { a with status := .processing, processingError := none } hrow
      · exact absurd (he.symm.trans hid) hne
      · exact ⟨_, hrow', hid, hst⟩
  | @deleted a hp =>
      rw [hp] at hat
      obtain ⟨row', hrow', ⟨-, rfl⟩ | ⟨-, rfl⟩⟩ := update_of_mem txn a
        { a with status := .deleted, deletedAt := some s.now } hrow
      · exact ⟨_, hrow', hid, column_changed (Ne.symm hat) row.status⟩
      · exact ⟨_, hrow', hid, hst⟩
  | _ => exact ⟨row, hrow, hid, hst⟩

/-- A request comes to put an attachment to work by reading it as `PENDING`. -/
theorem Requests.completing (h : Requests settings s r newId txn s₁ r')
    (hat : r.At settings r.phase) {a : Attachment} (ha : r'.phase.completing = some a) :
    s₁ = s ∧ a ∈ s.attachments ∧ a.status = .pending := by
  have hphase := completing_eq ha
  cases h with
  | read hp =>
      rw [hp] at hat
      exact ⟨rfl, hat.found_read (RequestPhase.reading.inj hphase)⟩
  | _ => cases hphase

end

/-! ### Steps -/

structure Inv (settings : AttachmentSettings) (s : State) : Prop extends Coherent settings s where
  quiet : ∀ x, s.Deleted x → Quiet x s

theorem inv_start (db : Db) (now : Datetime) : Inv settings (start db now) where
  toCoherent := coherent_start db now
  quiet x h := by
    obtain ⟨_, hrow, -⟩ := h
    nomatch hrow

theorem Inv.advance {i : Nat} {newId : UUID} (h : Inv settings s)
    (hok : Undisputed s (.advance i newId txn)) (hstep : advance settings s i newId txn = some s') :
    Inv settings s' ∧ ∀ x, s.Deleted x → s'.Deleted x := by
  obtain ⟨r, s₁, r', hr, hreq, rfl⟩ := advance_cases hstep
  have hmem := List.mem_of_getElem? hr
  have hat := h.requests r hmem
  have hstays : ∀ x, s.Deleted x → s₁.Deleted x := fun x hx =>
    hreq.deleted_after hat hx ((h.quiet x hx).requests r hmem)
  refine ⟨⟨⟨hreq.ids h.ids, Machine.forall_set h.requests (hreq.at hat), hreq.tasks ▸ h.tasks⟩, ?_⟩,
    hstays⟩
  intro x hx
  have hquiet : Quiet x s := by
    rcases hreq.deleted_before hat hx with hx | ⟨a, ha, rfl⟩
    · exact h.quiet x hx
    · exact hok r hr a ha
  refine ⟨hreq.tasks ▸ hquiet.tasks, Machine.forall_set hquiet.requests ?_⟩
  rintro a ha rfl
  obtain ⟨rfl, ha, hpending⟩ := hreq.completing hat ha
  obtain ⟨row, hrow, hid, hst⟩ := hx
  rw [h.eq hrow ha hid, hpending] at hst
  cases hst

theorem Inv.work {k : Nat} (h : Inv settings s) (hstep : work settings storage s k txn = some s') :
    Inv settings s' ∧ ∀ x, s.Deleted x → s'.Deleted x := by
  obtain ⟨t, rows, p, ht, hwork, rfl⟩ := work_cases hstep
  have hmem := List.mem_of_getElem? ht
  have hheld := h.tasks t hmem
  have hstays : ∀ x, s.Deleted x → ∃ row ∈ rows, row.id = x ∧ row.status = .deleted := by
    rintro x ⟨row, hrow, hid, hst⟩
    by_cases hx : t.attachmentId = x
    · have hread := (h.quiet x ⟨row, hrow, hid, hst⟩).tasks t hmem hx
      rw [hwork.reads hread]
      exact ⟨row, hrow, hid, hst⟩
    · exact ⟨row, hwork.others hheld hrow (fun he => hx (he.symm.trans hid)), hid, hst⟩
  refine ⟨⟨⟨hwork.ids ▸ h.ids, h.requests,
    Machine.forall_set h.tasks (hwork.held hheld)⟩, ?_⟩, hstays⟩
  rintro x ⟨row', hrow', rfl, hst'⟩
  obtain ⟨row, hrow, hid, hst⟩ := hwork.deleted hrow' hst'
  have hquiet := h.quiet row'.id ⟨row, hrow, hid, hst⟩
  refine ⟨Machine.forall_set hquiet.tasks ?_, hquiet.requests⟩
  intro htid
  cases hp : p.deciding with
  | false => rfl
  | true =>
      -- it would have read the deleted row as one that is being processed
      obtain ⟨a, ha, hproc⟩ := hwork.looks (hquiet.tasks t hmem htid) hp
      obtain ⟨ha, hat⟩ := find_some ha
      rw [h.eq ha hrow ((hat.trans htid).trans hid.symm), hst] at hproc
      cases hproc

/-- A run that is thrown out of its course decides nothing. -/
theorem raised_deciding (error : String) (p : TaskPhase) : (p.raised error).deciding = false := by
  cases p <;> rfl

/-- Only the phases of the tasks matter: a task that breaks off decides nothing. -/
theorem Inv.breakOff {k : Nat} {t : Task} {p : TaskPhase} (h : Inv settings s)
    (hp : p.deciding = false) : Inv settings (s.workOn k t p) where
  ids := h.ids
  requests := h.requests
  tasks := Machine.forall_set h.tasks fun a ha => by
    rw [TaskPhase.deciding_of_held ha] at hp
    cases hp
  quiet x hx :=
    ⟨Machine.forall_set (h.quiet x hx).tasks fun _ => hp, (h.quiet x hx).requests⟩

/-- The rest of the state does not matter. -/
theorem Inv.of_eq (h : Inv settings s) (ha : s'.attachments = s.attachments)
    (hr : s'.requests = s.requests) (ht : s'.tasks = s.tasks) :
    Inv settings s' ∧ ∀ x, s.Deleted x → s'.Deleted x := by
  have hdeleted : ∀ x, s'.Deleted x ↔ s.Deleted x := fun x => by
    rw [State.Deleted, State.Deleted, ha]
  refine ⟨⟨⟨ha ▸ h.ids, hr ▸ h.requests, ht ▸ h.tasks⟩, fun x hx => ?_⟩,
    fun x hx => (hdeleted x).mpr hx⟩
  have hquiet := h.quiet x ((hdeleted x).mp hx)
  exact ⟨ht ▸ hquiet.tasks, hr ▸ hquiet.requests⟩

theorem Inv.step {a : Action} (h : Inv settings s) (hok : Undisputed s a)
    (hstep : Attachments.step settings storage s a = some s') :
    Inv settings s' ∧ ∀ x, s.Deleted x → s'.Deleted x := by
  cases a with
  | tick now =>
      obtain ⟨-, hstep⟩ := Machine.guard_bind hstep
      cases hstep
      exact h.of_eq rfl rfl rfl
  | others db =>
      obtain ⟨-, hstep⟩ := Machine.guard_bind hstep
      cases hstep
      exact h.of_eq rfl rfl rfl
  | call user w c =>
      cases hstep
      refine ⟨⟨⟨h.ids, Machine.forall_snoc h.requests rfl, h.tasks⟩, fun x hx =>
        ⟨(h.quiet x hx).tasks, Machine.forall_snoc (h.quiet x hx).requests fun a ha => ?_⟩⟩,
        fun _ hx => hx⟩
      cases c <;> cases completing_eq ha
  | advance i newId txn => exact h.advance hok hstep
  | requestFails i =>
      obtain ⟨r, hr, hstep⟩ := Option.bind_eq_some_iff.mp hstep
      split at hstep
      · cases hstep
      · cases hstep
      · cases hstep
        exact ⟨⟨⟨h.ids, Machine.forall_set h.requests trivial, h.tasks⟩, fun x hx =>
          ⟨(h.quiet x hx).tasks,
            Machine.forall_set (h.quiet x hx).requests fun a ha => nomatch ha⟩⟩,
          fun _ hx => hx⟩
  | put i bytes =>
      obtain ⟨r, hr, hstep⟩ := Option.bind_eq_some_iff.mp hstep
      split at hstep
      · obtain ⟨-, hstep⟩ := Machine.guard_bind hstep
        cases hstep
        exact h.of_eq rfl rfl rfl
      · cases hstep
  | recover =>
      cases hstep
      exact h.of_eq rfl rfl rfl
  | publish j =>
      obtain ⟨ids, hids, hstep⟩ := Option.bind_eq_some_iff.mp hstep
      split at hstep
      · cases hstep
      · cases hstep
        exact h.of_eq rfl rfl rfl
  | deliver id =>
      obtain ⟨-, hstep⟩ := Machine.guard_bind hstep
      cases hstep
      have hheld : ∀ a, TaskPhase.starting.held = some a → a.id = id := by
        intro a ha
        cases ha
      exact ⟨⟨⟨h.ids, h.requests, Machine.forall_snoc h.tasks hheld⟩, fun x hx =>
        ⟨Machine.forall_snoc (h.quiet x hx).tasks fun _ => rfl, (h.quiet x hx).requests⟩⟩,
        fun _ hx => hx⟩
  | work k txn => exact h.work hstep
  | taskFails k error =>
      obtain ⟨t, ht, hstep⟩ := Option.bind_eq_some_iff.mp hstep
      cases hstep
      exact ⟨h.breakOff (raised_deciding error t.phase), fun _ hx => hx⟩
  | lost k =>
      obtain ⟨t, ht, hstep⟩ := Option.bind_eq_some_iff.mp hstep
      cases hstep
      exact ⟨h.breakOff (p := .done) rfl, fun _ hx => hx⟩

/-! ### Runs -/

theorem Inv.run (h : Inv settings s)
    (hrun : Machine.Run (Attachments.step settings storage) Undisputed s s') :
    Inv settings s' ∧ ∀ x, s.Deleted x → s'.Deleted x := by
  induction hrun with
  | refl => exact ⟨h, fun _ hx => hx⟩
  | step _ hok hstep ih =>
      obtain ⟨hinv, hstays⟩ := ih
      obtain ⟨hinv', hstays'⟩ := hinv.step hok hstep
      exact ⟨hinv', fun x hx => hstays' x (hstays x hx)⟩

/-- Nothing that reads attachments finds a deleted one. -/
theorem Coherent.unseen {x : UUID} (h : Coherent settings s) (hx : s.Deleted x) :
    (∀ w, AttachmentRepository.get w x s.attachments = none) ∧
      ∀ w d p, ∀ a ∈ AttachmentRepository.listForWorkspace w d p s.attachments, a.id ≠ x := by
  obtain ⟨row, hrow, hid, hst⟩ := hx
  constructor
  · intro w
    cases hget : AttachmentRepository.get w x s.attachments with
    | none => rfl
    | some a =>
        obtain ⟨ha, haid, -, hlive⟩ := AttachmentRepository.get_some hget
        rw [h.eq ha hrow (haid.trans hid.symm)] at hlive
        exact absurd hst hlive
  · intro w d p a ha hax
    obtain ⟨ha, hlive⟩ := AttachmentRepository.mem_listForWorkspace ha
    rw [h.eq ha hrow (hax.trans hid.symm)] at hlive
    exact hlive hst

/-- **A deleted attachment stays deleted** where deletions commit undisputed. -/
theorem deleted_stays (db : Db) (now : Datetime)
    (hrun : Machine.Run (Attachments.step settings storage) Undisputed (start db now) s)
    (hrun' : Machine.Run (Attachments.step settings storage) Undisputed s s') {x : UUID}
    (hx : s.Deleted x) :
    s'.Deleted x ∧ (∀ row ∈ s'.attachments, row.id = x → row.status = .deleted) ∧
      (∀ w, AttachmentRepository.get w x s'.attachments = none) ∧
      ∀ w d p, ∀ a ∈ AttachmentRepository.listForWorkspace w d p s'.attachments, a.id ≠ x := by
  obtain ⟨hinv, -⟩ := (inv_start db now).run hrun
  obtain ⟨hinv', hstays⟩ := hinv.run hrun'
  have hx' := hstays x hx
  refine ⟨hx', ?_, hinv'.unseen hx'⟩
  intro row hrow hid
  obtain ⟨row', hrow', hid', hst⟩ := hx'
  rw [hinv'.eq hrow hrow' (hid.trans hid'.symm), hst]

end

/-! ## A deletion in the middle of a run -/

instance (x : UUID) (s : State) : Decidable (Quiet x s) :=
  decidable_of_iff ((∀ t ∈ s.tasks, t.attachmentId = x → t.phase.deciding = false) ∧
    ∀ r ∈ s.requests, ∀ a ∈ r.phase.completing, a.id ≠ x) ⟨fun h => ⟨h.1, h.2⟩, fun h => ⟨h.1, h.2⟩⟩

instance (s : State) : ∀ a, Decidable (Undisputed s a)
  | .advance i _ _ => inferInstanceAs
      (Decidable (∀ r ∈ s.requests[i]?, ∀ a ∈ r.phase.deleting, Quiet a.id s))
  | .tick _ | .others _ | .call .. | .requestFails _ | .put .. | .recover | .publish _ | .deliver _
    | .work .. | .taskFails .. | .lost _ => isTrue trivial

instance (s : State) (x : UUID) : Decidable (s.Deleted x) :=
  inferInstanceAs (Decidable (∃ row ∈ s.attachments, row.id = x ∧ row.status = .deleted))

namespace Sample

/-- Ada has a workspace. -/
def lab : Db := runAll ForkRoom.Sample.dep (ForkRoom.Sample.setUp.take 4) Db.empty

def settings : AttachmentSettings := ⟨25 * 1024 * 1024, 15, 5⟩

/-- The digests of the two objects of one byte that are used here. -/
def storage : ObjectStorage where
  sha256 bytes :=
    if bytes = [1] then "4bf5122f344554c53bde2ebb8cd2b7e3d1600ad631c385a5d7cce23c7785459a"
    else "dbc1b4c900ffe48d575b5da5c638040125f65db0fe3e24494b76ea986457d986"
  missing key := "S3 operation failed; code: NoSuchKey, resource: " ++ key

/-- A request of Ada's, to its end. -/
def ask (i : Nat) (call : AttachmentCall) (steps : Nat) : List Action :=
  .call ForkRoom.Sample.ada 10 call :: List.replicate steps (.advance i 90 0)

/-- Ada announces a file of one byte, uploads it and completes the upload. -/
def uploaded : List Action :=
  ask 0 (.createUpload ⟨"notes.txt", "text/plain", 1, none, none⟩) 4 ++ [.put 0 [1]] ++
    ask 1 (.completeUpload 90) 5

/-- The steps of a run of the task. -/
def process (k n : Nat) : List Action := List.replicate n (.work k 0)

end Sample

/-- Ada deletes the file while it is hashed, and the worker makes it available again. -/
theorem deleted_available : ∃ s s',
    Machine.Run (Attachments.step Sample.settings Sample.storage) (fun _ _ => True)
      (start Sample.lab 0) s ∧
    Machine.Run (Attachments.step Sample.settings Sample.storage) (fun _ _ => True) s s' ∧
    s.Deleted 90 ∧ ¬ s'.Deleted 90 ∧
      (AttachmentRepository.get 10 90 s'.attachments).map Attachment.status = some .available := by
  obtain ⟨s, hplay, hs⟩ := Option.map_eq_some_iff.mp
    (show (Machine.play (Attachments.step Sample.settings Sample.storage) (fun _ _ => True)
        (start Sample.lab 0) (Sample.uploaded ++ [.deliver 90] ++ Sample.process 0 5 ++
          Sample.ask 2 (.delete 90) 5)).map (fun s => (decide (s.Deleted 90),
            (Machine.play (Attachments.step Sample.settings Sample.storage) (fun _ _ => True) s
              (Sample.process 0 1)).map fun s' => (decide (s'.Deleted 90),
                (AttachmentRepository.get 10 90 s'.attachments).map Attachment.status))) =
      some (true, some (false, some .available)) by decide +kernel)
  obtain ⟨hdeleted, hs⟩ := Prod.mk.inj hs
  obtain ⟨s', hplay', hs'⟩ := Option.map_eq_some_iff.mp hs
  obtain ⟨hback, hstatus⟩ := Prod.mk.inj hs'
  exact ⟨s, s', Machine.Run.of_play hplay, Machine.Run.of_play hplay', of_decide_eq_true hdeleted,
    of_decide_eq_false hback, hstatus⟩

/-- Ada deletes the file when it is available, and the message comes once more. -/
theorem deleted_stays_sample : ∃ s s',
    Machine.Run (Attachments.step Sample.settings Sample.storage) Undisputed s s' ∧ s.Deleted 90 ∧
    s'.tasks.length = 2 ∧ s'.Deleted 90 ∧
      (∀ row ∈ s'.attachments, row.id = 90 → row.status = .deleted) ∧
      (∀ w, AttachmentRepository.get w 90 s'.attachments = none) ∧
      ∀ w d p, ∀ a ∈ AttachmentRepository.listForWorkspace w d p s'.attachments, a.id ≠ 90 := by
  obtain ⟨s, hplay, hs⟩ := Option.map_eq_some_iff.mp
    (show (Machine.play (Attachments.step Sample.settings Sample.storage) Undisputed
        (start Sample.lab 0) (Sample.uploaded ++ [.deliver 90] ++ Sample.process 0 6 ++
          Sample.ask 2 (.delete 90) 5)).map (fun s => (decide (s.Deleted 90),
            (Machine.play (Attachments.step Sample.settings Sample.storage) Undisputed s
              (.deliver 90 :: Sample.process 1 1)).map fun s' => s'.tasks.length)) =
      some (true, some 2) by decide +kernel)
  obtain ⟨hdeleted, hs⟩ := Prod.mk.inj hs
  obtain ⟨s', hplay', htasks⟩ := Option.map_eq_some_iff.mp hs
  have hrun := Machine.Run.of_play hplay'
  have hx := of_decide_eq_true hdeleted
  exact ⟨s, s', hrun, hx, htasks,
    deleted_stays Sample.lab 0 (Machine.Run.of_play hplay) hrun hx⟩

end Attachments

end ForkRoom
