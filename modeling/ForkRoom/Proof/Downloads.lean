/-
# `Proof.Downloads` — what an upload URL outlives

The worker checks the size of an object and records its digest; after that the
attachment is available.  The URL that the object came with stays good until it
expires, and a second `PUT` replaces the object under the row that describes the
first.

A write that changes the object is harmless while nothing relies on it: no
available row, no run of the task that has taken its size or its digest, and no
download that has found it available.  Then every row that is available describes
its object, and a URL is only given for such a row.
-/
import ForkRoom.Proof.Attachments

namespace ForkRoom

open Optimistic Reads Rows

namespace Attachments

section
variable (settings : AttachmentSettings) (storage : ObjectStorage)

/-! ## The property and the condition -/

/-- The object of the attachment is the one that its row describes. -/
def State.Verified (s : State) (a : Attachment) : Prop :=
  ∃ bytes, s.objects a.objectKey = some bytes ∧ bytes.length = a.sizeBytes ∧
    bytes.length ≤ settings.attachmentMaxBytes ∧ a.sha256 = some (storage.sha256 bytes)

/-- A download that a step answers with a URL gets it for the object that the row describes. -/
def DownloadsVerified (s s' : State) : Prop :=
  ∀ (i : Nat) (r' : Request) (a : Attachment) (e : Datetime), s'.requests[i]? = some r' →
    r'.phase = .answered (.url a e) →
    (∀ r, s.requests[i]? = some r → r.phase ≠ .answered (.url a e)) →
    ∃ row ∈ s'.attachments, row.id = a.id ∧ row.objectKey = a.objectKey ∧
      s'.Verified settings storage row

end

/-- The attachment whose object a run of the task relies on: its size has been checked, or the row
had a digest from an earlier run already. -/
def TaskPhase.relies : TaskPhase → Option Attachment
  | .claimed a => if a.sha256 = none then none else some a
  | .sized a | .hashed a _ => some a
  | _ => none

/-- The attachment that a download has found available. -/
def RequestPhase.downloading : RequestPhase → Option Attachment
  | .reading (.done (.ok (.download a))) => some a
  | _ => none

theorem downloading_eq {p : RequestPhase} {a : Attachment} (h : p.downloading = some a) :
    p = .reading (.done (.ok (.download a))) := by
  unfold RequestPhase.downloading at h
  split at h
  · cases h
    rfl
  · cases h

/-- The attachment of an upload URL. -/
def RequestPhase.upload : RequestPhase → Option Attachment
  | .answered (.upload a _) => some a
  | _ => none

/-- Nothing relies on the object. -/
structure Unused (key : String) (s : State) : Prop where
  attachments : ∀ row ∈ s.attachments, row.objectKey = key → row.status ≠ .available
  tasks : ∀ t ∈ s.tasks, ∀ a ∈ t.phase.relies, a.objectKey ≠ key
  requests : ∀ r ∈ s.requests, ∀ a ∈ r.phase.downloading, a.objectKey ≠ key

/-- Without deletions, and a write changes an object only while nothing relies on it. -/
def Steady (s : State) : Action → Prop
  | .call _ _ c => c.deletes = false
  | .put i bytes => ∀ r ∈ s.requests[i]?, ∀ a ∈ r.phase.upload,
      s.objects a.objectKey = some bytes ∨ Unused a.objectKey s
  | _ => True

/-! ## The invariant -/

section
variable (settings : AttachmentSettings) (storage : ObjectStorage)

/-- The row that was loaded is still there, and if it had a digest, the stored one is that or the
current one. -/
def State.Traces (s : State) (a : Attachment) : Prop :=
  ∃ row ∈ s.attachments, row.id = a.id ∧ row.objectKey = a.objectKey ∧ row.sizeBytes = a.sizeBytes ∧
    (a.sha256 ≠ none → row.sha256 = a.sha256 ∨
      ∃ bytes, s.objects a.objectKey = some bytes ∧ row.sha256 = some (storage.sha256 bytes))

/-- The object has the declared size, which is allowed. -/
def State.Fits (s : State) (a : Attachment) (bytes : List UInt8) : Prop :=
  s.objects a.objectKey = some bytes ∧ bytes.length = a.sizeBytes ∧
    bytes.length ≤ settings.attachmentMaxBytes

/-- What a run of the task may rely on. -/
def TaskPhase.Sound (s : State) : TaskPhase → Prop
  | .claimed a => s.Traces storage a
  | .sized a => s.Traces storage a ∧ ∃ bytes, s.Fits settings a bytes
  | .hashed a sha256 => s.Traces storage a ∧
      ∃ bytes, s.Fits settings a bytes ∧ sha256 = storage.sha256 bytes
  | _ => True

structure Kept (s : State) : Prop extends Coherent settings s where
  calls : ∀ r ∈ s.requests, r.call.deletes = false ∧ r.phase.deleting = none
  available : ∀ row ∈ s.attachments, row.status = .available → s.Verified settings storage row
  sound : ∀ t ∈ s.tasks, t.phase.Sound settings storage s
  downloads : ∀ r ∈ s.requests, ∀ a ∈ r.phase.downloading,
    ∃ row ∈ s.attachments, row.id = a.id ∧ row.objectKey = a.objectKey ∧
      s.Verified settings storage row

theorem kept_start (db : Db) (now : Datetime) : Kept settings storage (start db now) where
  toCoherent := coherent_start db now
  calls _ h := nomatch h
  available _ h := nomatch h
  sound _ h := nomatch h
  downloads _ h := nomatch h

/-! ### How rows evolve -/

/-- What a step may make of a row: its digest stays and it does not become available, or it
describes its object. -/
structure Follows (s : State) (row row' : Attachment) : Prop where
  id : row'.id = row.id
  objectKey : row'.objectKey = row.objectKey
  sizeBytes : row'.sizeBytes = row.sizeBytes
  digest : (row'.sha256 = row.sha256 ∧ (row'.status = .available → row.status = .available)) ∨
    s.Verified settings storage row'

/-- A step that leaves the objects: every row goes on, and no available one is new. -/
structure Evolves (s s' : State) : Prop where
  objects : s'.objects = s.objects
  forward : ∀ row ∈ s.attachments, ∃ row' ∈ s'.attachments, Follows settings storage s row row'
  backward : ∀ row' ∈ s'.attachments, row'.status = .available →
    ∃ row ∈ s.attachments, Follows settings storage s row row'

variable {settings storage} {s s' : State} {txn : Datetime} {row row' a current : Attachment}

theorem Follows.refl : Follows settings storage s row row :=
  ⟨rfl, rfl, rfl, Or.inl ⟨rfl, fun h => h⟩⟩

theorem State.Verified.of_eq {a b : Attachment} (h : s.Verified settings storage a)
    (hobjects : s'.objects = s.objects) (hk : b.objectKey = a.objectKey)
    (hsize : b.sizeBytes = a.sizeBytes) (hsha : b.sha256 = a.sha256) :
    s'.Verified settings storage b := by
  rw [State.Verified, hobjects, hk, hsize, hsha]
  exact h

theorem Follows.verified (h : Follows settings storage s row row')
    (hv : s.Verified settings storage row) : s.Verified settings storage row' := by
  rcases h.digest with ⟨hsha, -⟩ | hv'
  · exact hv.of_eq rfl h.objectKey h.sizeBytes hsha
  · exact hv'

theorem Evolves.verified (h : Evolves settings storage s s') (hv : s.Verified settings storage a) :
    s'.Verified settings storage a := hv.of_eq h.objects rfl rfl rfl

theorem Evolves.traces (h : Evolves settings storage s s') (ht : s.Traces storage a) :
    s'.Traces storage a := by
  obtain ⟨row, hrow, hid, hk, hsize, hsha⟩ := ht
  obtain ⟨row', hrow', hf⟩ := h.forward row hrow
  refine ⟨row', hrow', hf.id.trans hid, hf.objectKey.trans hk, hf.sizeBytes.trans hsize, ?_⟩
  intro hne
  rw [h.objects]
  rcases hf.digest with ⟨hsame, -⟩ | ⟨bytes, hbytes, -, -, hdigest⟩
  · rw [hsame]
    exact hsha hne
  · exact Or.inr ⟨bytes, by rw [← hk, ← hf.objectKey]; exact hbytes, hdigest⟩

theorem Evolves.fits {bytes : List UInt8} (h : Evolves settings storage s s')
    (hf : s.Fits settings a bytes) : s'.Fits settings a bytes := by
  rw [State.Fits, h.objects]
  exact hf

theorem Evolves.sound {p : TaskPhase} (h : Evolves settings storage s s')
    (hp : p.Sound settings storage s) : p.Sound settings storage s' := by
  cases p with
  | claimed a => exact h.traces hp
  | sized a =>
      obtain ⟨ht, bytes, hf⟩ := hp
      exact ⟨h.traces ht, bytes, h.fits hf⟩
  | hashed a sha256 =>
      obtain ⟨ht, bytes, hf, hsha⟩ := hp
      exact ⟨h.traces ht, bytes, h.fits hf, hsha⟩
  | _ => trivial

theorem Evolves.available (h : Evolves settings storage s s')
    (hav : ∀ row ∈ s.attachments, row.status = .available → s.Verified settings storage row) :
    ∀ row ∈ s'.attachments, row.status = .available → s'.Verified settings storage row := by
  intro row' hrow' hst
  obtain ⟨row, hrow, hf⟩ := h.backward row' hrow' hst
  refine h.verified ?_
  rcases hf.digest with ⟨-, hold⟩ | hv
  · exact hf.verified (hav row hrow (hold hst))
  · exact hv

theorem Evolves.downloads (h : Evolves settings storage s s')
    (hd : ∃ row ∈ s.attachments, row.id = a.id ∧ row.objectKey = a.objectKey ∧
      s.Verified settings storage row) :
    ∃ row ∈ s'.attachments, row.id = a.id ∧ row.objectKey = a.objectKey ∧
      s'.Verified settings storage row := by
  obtain ⟨row, hrow, hid, hk, hv⟩ := hd
  obtain ⟨row', hrow', hf⟩ := h.forward row hrow
  exact ⟨row', hrow', hf.id.trans hid, hf.objectKey.trans hk, h.verified (hf.verified hv)⟩

/-- The rows stay. -/
theorem Evolves.of_eq (ho : s'.objects = s.objects) (ha : s'.attachments = s.attachments) :
    Evolves settings storage s s' where
  objects := ho
  forward row hrow := ⟨row, ha ▸ hrow, .refl⟩
  backward row hrow _ := ⟨row, ha ▸ hrow, .refl⟩

/-- An update that makes of its row what a step may make of it. -/
theorem Evolves.update (ho : s'.objects = s.objects)
    (ha : s'.attachments = update txn a current s.attachments)
    (hrow : ∀ row ∈ s.attachments, row.id = a.id →
      Follows settings storage s row (Attachment.merge txn a current row)) :
    Evolves settings storage s s' where
  objects := ho
  forward row hmem := by
    obtain ⟨row', hrow', ⟨hid, rfl⟩ | ⟨-, rfl⟩⟩ := update_of_mem txn a current hmem
    · exact ⟨_, ha ▸ hrow', hrow row hmem hid⟩
    · exact ⟨_, ha ▸ hrow', .refl⟩
  backward row' hmem _ := by
    rw [ha] at hmem
    rcases mem_update hmem with ⟨old, hold, hid, rfl⟩ | ⟨hold, -⟩
    · exact ⟨old, hold, hrow old hold hid⟩
    · exact ⟨row', hold, .refl⟩

/-- A commit that leaves the digest alone and makes nothing available. -/
theorem Follows.merge (hsha : current.sha256 = a.sha256)
    (hst : current.status ≠ .available ∨ current.status = a.status) :
    Follows settings storage s row (Attachment.merge txn a current row) where
  id := rfl
  objectKey := rfl
  sizeBytes := rfl
  digest := by
    refine Or.inl ⟨by rw [merge_sha256, hsha, column_kept], ?_⟩
    rw [merge_status]
    intro hav
    rcases hst with hne | he
    · rcases column_cases a.status current.status row.status with hc | hc
      · exact hc ▸ hav
      · exact absurd (hc ▸ hav) hne
    · rwa [he, column_kept] at hav

/-- A row that is inserted as `PENDING` is no available one. -/
theorem Evolves.insert (ho : s'.objects = s.objects) (ha : s'.attachments = s.attachments ++ [row])
    (hst : row.status = .pending) : Evolves settings storage s s' where
  objects := ho
  forward x hx := ⟨x, ha ▸ List.mem_append_left _ hx, .refl⟩
  backward x hx hav := by
    rw [ha] at hx
    rcases List.mem_append.mp hx with hx | hx
    · exact ⟨x, hx, .refl⟩
    · rw [List.mem_singleton.mp hx, hst] at hav
      cases hav

/-! ### Runs of the task -/

theorem Works.evolves {id : UUID} {p p' : TaskPhase} {rows : List Attachment}
    (hc : Coherent settings s)
    (h : Works settings storage s txn id p rows p') (hp : p.Sound settings storage s)
    (ho : s'.objects = s.objects) (ha : s'.attachments = rows) : Evolves settings storage s s' := by
  cases h with
  | counted => exact .update ho ha fun _ _ _ => .merge rfl (Or.inr rfl)
  | rejected => exact .update ho ha fun _ _ _ => .merge rfl (Or.inl nofun)
  | @available a sha256 =>
      obtain ⟨⟨old, hold, hid, hk, hsize, hdigest⟩, bytes, ⟨hbytes, hlen, hmax⟩, hsha⟩ := hp
      refine .update ho ha fun row hrow hrid => ?_
      obtain rfl := hc.eq hold hrow (hid.trans hrid.symm)
      refine ⟨rfl, rfl, rfl,
        Or.inr ⟨bytes, by rw [merge_objectKey, hk]; exact hbytes, ?_, hmax, ?_⟩⟩
      · rw [merge_sizeBytes, hsize]
        exact hlen
      · rw [merge_sha256]
        by_cases hsame : some sha256 = a.sha256
        · -- the digest is the one that was loaded: the stored one is kept
          have hne : a.sha256 ≠ none := by
            rw [← hsame]
            nofun
          rw [hsame, column_kept]
          rcases hdigest hne with he | ⟨bytes', hbytes', he⟩
          · rw [he, ← hsame, hsha]
          · rw [hbytes] at hbytes'
            cases hbytes'
            exact he
        · rw [column_changed hsame, hsha]
  | _ => exact .of_eq ho ha

/-- The next phase of a run is sound. -/
theorem Works.sound {id : UUID} {p p' : TaskPhase} {rows : List Attachment}
    (h : Works settings storage s txn id p rows p') (hp : p.Sound settings storage s)
    (ho : s'.objects = s.objects) (ha : s'.attachments = rows) : p'.Sound settings storage s' := by
  cases h with
  | left hleft => cases p' <;> trivial
  | claimed hfind =>
      exact ⟨_, ha ▸ (find_some hfind).1, rfl, rfl, rfl, fun _ => Or.inl rfl⟩
  | sized hbytes hlen hmax =>
      exact Evolves.sound (p := .sized _) (.of_eq ho ha) ⟨hp, _, hbytes, hlen, hmax⟩
  | hashed hbytes =>
      obtain ⟨ht, bytes, ⟨hb, hlen, hmax⟩⟩ := hp
      rw [hbytes] at hb
      cases hb
      exact Evolves.sound (p := .hashed _ _) (.of_eq ho ha) ⟨ht, _, ⟨hbytes, hlen, hmax⟩, rfl⟩
  | _ => trivial

/-! ### Requests -/

section
variable {r r' : Request} {newId : UUID} {s₁ : State}

/-- Only a deletion removes an object. -/
theorem Requests.evolves (h : Requests settings s r newId txn s₁ r') (hat : r.At settings r.phase)
    (hcall : r.call.deletes = false) (hdel : r.phase.deleting = none)
    (ho : s'.objects = s₁.objects) (ha : s'.attachments = s₁.attachments) :
    Evolves settings storage s s' := by
  cases h with
  | inserted hp _ =>
      rw [hp] at hat
      exact .insert ho ha hat
  | completed hp => exact .update ho ha fun _ _ _ => .merge rfl (Or.inl nofun)
  | removed hp =>
      rw [hp] at hat
      have hd := (AttachmentService.program_found hat).2
      rw [hcall] at hd
      cases hd
  | deleted hp =>
      rw [hp] at hdel
      cases hdel
  | _ => exact .of_eq ho ha

theorem Requests.plain (h : Requests settings s r newId txn s₁ r') (hat : r.At settings r.phase)
    (hcall : r.call.deletes = false) :
    r'.call.deletes = false ∧ r'.phase.deleting = none := by
  cases h with
  | removed hp =>
      rw [hp] at hat
      have hd := (AttachmentService.program_found hat).2
      rw [hcall] at hd
      cases hd
  | _ => exact ⟨hcall, rfl⟩

/-- A request comes to download an attachment by reading it as `AVAILABLE`. -/
theorem Requests.downloading (h : Requests settings s r newId txn s₁ r')
    (hat : r.At settings r.phase)
    {a : Attachment} (ha : r'.phase.downloading = some a) :
    s₁ = s ∧ a ∈ s.attachments ∧ a.status = .available := by
  have hphase := downloading_eq ha
  cases h with
  | read hp =>
      rw [hp] at hat
      exact ⟨rfl, hat.found_read (RequestPhase.reading.inj hphase)⟩
  | _ => cases hphase

/-- It answers with a URL only as the last step of a download. -/
theorem Requests.url (h : Requests settings s r newId txn s₁ r') {a : Attachment} {e : Datetime}
    (hr' : r'.phase = .answered (.url a e)) : r.phase.downloading = some a := by
  cases h with
  | downloaded hp =>
      cases hr'
      rw [hp]
      rfl
  | _ => cases hr'

end

/-! ### Steps -/

theorem Kept.advance {i : Nat} {newId : UUID} (h : Kept settings storage s)
    (hstep : advance settings s i newId txn = some s') :
    Kept settings storage s' ∧ DownloadsVerified settings storage s s' := by
  obtain ⟨r, s₁, r', hr, hreq, rfl⟩ := advance_cases hstep
  have hmem := List.mem_of_getElem? hr
  have hat := h.requests r hmem
  obtain ⟨hcall, hdel⟩ := h.calls r hmem
  have hev : Evolves settings storage s { s₁ with requests := s.requests.set i r' } :=
    hreq.evolves hat hcall hdel rfl rfl
  refine ⟨⟨⟨hreq.ids h.ids, Machine.forall_set h.requests (hreq.at hat), hreq.tasks ▸ h.tasks⟩,
    Machine.forall_set h.calls (hreq.plain hat hcall), hev.available h.available, ?_, ?_⟩, ?_⟩
  · intro t ht
    exact hev.sound (h.sound t (hreq.tasks ▸ ht))
  · refine Machine.forall_set (fun x hx a ha => hev.downloads (h.downloads x hx a ha)) ?_
    intro a ha
    obtain ⟨rfl, hfound, hav⟩ := hreq.downloading hat ha
    exact hev.downloads ⟨a, hfound, rfl, rfl, h.available a hfound hav⟩
  · intro j x a e hj hx hnew
    rcases Machine.getElem?_set_cases hj with ⟨rfl, rfl⟩ | ⟨hne, hj⟩
    · exact hev.downloads (h.downloads r hmem a (hreq.url hx))
    · exact absurd hx (hnew x hj)

theorem Kept.work {k : Nat} (h : Kept settings storage s)
    (hstep : work settings storage s k txn = some s') : Kept settings storage s' := by
  obtain ⟨t, rows, p, ht, hwork, rfl⟩ := work_cases hstep
  have hmem := List.mem_of_getElem? ht
  have hev : Evolves settings storage s
      { s with attachments := rows, tasks := s.tasks.set k { t with phase := p } } :=
    hwork.evolves h.toCoherent (h.sound t hmem) rfl rfl
  refine ⟨⟨hwork.ids ▸ h.ids, h.requests, Machine.forall_set h.tasks (hwork.held (h.tasks t hmem))⟩,
    h.calls, hev.available h.available, ?_, fun r hr a ha => hev.downloads (h.downloads r hr a ha)⟩
  exact Machine.forall_set (fun x hx => hev.sound (h.sound x hx))
    (hwork.sound (h.sound t hmem) rfl rfl)

/-- A write under another key. -/
theorem verified_put {key : String} {bytes : List UInt8} (hk : a.objectKey ≠ key)
    (h : s.Verified settings storage a) :
    State.Verified settings storage { s with objects := Function.update s.objects key (some bytes) }
      a := by
  obtain ⟨b, hb, hrest⟩ := h
  exact ⟨b, (Function.update_of_ne hk _ _).trans hb, hrest⟩

theorem traces_put {key : String} {bytes : List UInt8} (hk : a.sha256 ≠ none → a.objectKey ≠ key)
    (h : s.Traces storage a) :
    State.Traces storage { s with objects := Function.update s.objects key (some bytes) } a := by
  obtain ⟨row, hrow, hid, hkey, hsize, hsha⟩ := h
  refine ⟨row, hrow, hid, hkey, hsize, fun hne => ?_⟩
  rcases hsha hne with he | ⟨b, hb, he⟩
  · exact Or.inl he
  · exact Or.inr ⟨b, (Function.update_of_ne (hk hne) _ _).trans hb, he⟩

theorem fits_put {key : String} {bytes b : List UInt8} (hk : a.objectKey ≠ key)
    (h : s.Fits settings a b) :
    State.Fits settings { s with objects := Function.update s.objects key (some bytes) } a b :=
  ⟨(Function.update_of_ne hk _ _).trans h.1, h.2⟩

theorem Kept.put {key : String} {bytes : List UInt8} (h : Kept settings storage s)
    (hok : s.objects key = some bytes ∨ Unused key s) :
    Kept settings storage { s with objects := Function.update s.objects key (some bytes) } := by
  rcases hok with hsame | hunused
  · rw [← hsame, Function.update_eq_self]
    exact h
  · refine ⟨⟨h.ids, h.requests, h.tasks⟩, h.calls, ?_, ?_, ?_⟩
    · intro row hrow hav
      exact verified_put (fun hk => hunused.attachments row hrow hk hav) (h.available row hrow hav)
    · intro t ht
      have hrelies := hunused.tasks t ht
      have hsound := h.sound t ht
      cases hp : t.phase with
      | claimed a =>
          rw [hp] at hrelies hsound
          refine traces_put (fun hne => hrelies a ?_) hsound
          rw [TaskPhase.relies, if_neg hne]
          rfl
      | sized a =>
          rw [hp] at hrelies hsound
          obtain ⟨ht, b, hf⟩ := hsound
          exact ⟨traces_put (fun _ => hrelies a rfl) ht, b, fits_put (hrelies a rfl) hf⟩
      | hashed a sha256 =>
          rw [hp] at hrelies hsound
          obtain ⟨ht, b, hf, hsha⟩ := hsound
          exact ⟨traces_put (fun _ => hrelies a rfl) ht, b, fits_put (hrelies a rfl) hf, hsha⟩
      | _ => trivial
    · intro r hr a ha
      obtain ⟨row, hrow, hid, hkey, hv⟩ := h.downloads r hr a ha
      exact ⟨row, hrow, hid, hkey,
        verified_put (fun hk => hunused.requests r hr a ha (hkey.symm.trans hk)) hv⟩

/-- The rest of the state does not matter. -/
theorem Kept.of_eq (h : Kept settings storage s) (ho : s'.objects = s.objects)
    (ha : s'.attachments = s.attachments) (hr : s'.requests = s.requests)
    (ht : s'.tasks = s.tasks) : Kept settings storage s' := by
  have hev : Evolves settings storage s s' := .of_eq ho ha
  exact ⟨⟨ha ▸ h.ids, hr ▸ h.requests, ht ▸ h.tasks⟩, hr ▸ h.calls, hev.available h.available,
    fun t hmem => hev.sound (h.sound t (ht ▸ hmem)),
    fun r hmem a hd => hev.downloads (h.downloads r (hr ▸ hmem) a hd)⟩

theorem Kept.breakOff {k : Nat} {t : Task} {p : TaskPhase} (h : Kept settings storage s)
    (hp : p.deciding = false) : Kept settings storage (s.workOn k t p) where
  ids := h.ids
  requests := h.requests
  tasks := Machine.forall_set h.tasks fun a ha => by
    rw [TaskPhase.deciding_of_held ha] at hp
    cases hp
  calls := h.calls
  available := h.available
  sound := Machine.forall_set h.sound (by cases p <;> trivial)
  downloads := h.downloads

/-- No request is answered with a URL. -/
theorem DownloadsVerified.of_old (h : ∀ (i : Nat) (r' : Request), s'.requests[i]? = some r' →
      s.requests[i]? = some r' ∨ ∀ a e, r'.phase ≠ .answered (.url a e)) :
    DownloadsVerified settings storage s s' := by
  intro i r' a e hi hurl hnew
  rcases h i r' hi with hold | hno
  · exact absurd hurl (hnew r' hold)
  · exact absurd hurl (hno a e)

theorem DownloadsVerified.of_eq (h : s'.requests = s.requests) :
    DownloadsVerified settings storage s s' :=
  .of_old fun _ _ hi => Or.inl (h ▸ hi)

theorem Kept.step {b : Action} (h : Kept settings storage s) (hok : Steady s b)
    (hstep : Attachments.step settings storage s b = some s') :
    Kept settings storage s' ∧ DownloadsVerified settings storage s s' := by
  cases b with
  | tick now =>
      obtain ⟨-, hstep⟩ := Machine.guard_bind hstep
      cases hstep
      exact ⟨h.of_eq rfl rfl rfl rfl, .of_eq rfl⟩
  | others db =>
      obtain ⟨-, hstep⟩ := Machine.guard_bind hstep
      cases hstep
      exact ⟨h.of_eq rfl rfl rfl rfl, .of_eq rfl⟩
  | call user w c =>
      cases hstep
      have hdownloads : ∀ a, RequestPhase.downloading (.reading
          (AttachmentService.program settings.attachmentMaxBytes user w c)) ≠ some a := by
        intro a ha
        cases c <;> cases downloading_eq ha
      refine ⟨⟨⟨h.ids, Machine.forall_snoc h.requests rfl, h.tasks⟩,
        Machine.forall_snoc h.calls ⟨hok, rfl⟩, h.available, h.sound,
        Machine.forall_snoc h.downloads fun a ha => absurd ha (hdownloads a)⟩, .of_old ?_⟩
      intro i r' hi
      rcases Machine.getElem?_snoc_cases hi with rfl | hi
      · refine Or.inr fun a e hurl => ?_
        cases hurl
      · exact Or.inl hi
  | advance i newId txn => exact h.advance hstep
  | requestFails i =>
      obtain ⟨r, hr, hstep⟩ := Option.bind_eq_some_iff.mp hstep
      split at hstep
      · cases hstep
      · cases hstep
      · cases hstep
        refine ⟨⟨⟨h.ids, Machine.forall_set h.requests trivial, h.tasks⟩,
          Machine.forall_set h.calls ⟨(h.calls r (List.mem_of_getElem? hr)).1, rfl⟩, h.available,
          h.sound, Machine.forall_set h.downloads fun a ha => nomatch ha⟩, .of_old ?_⟩
        intro j r' hj
        rcases Machine.getElem?_set_cases hj with ⟨-, rfl⟩ | ⟨-, hj⟩
        · refine Or.inr fun a e hurl => ?_
          cases hurl
        · exact Or.inl hj
  | put i bytes =>
      obtain ⟨r, hr, hstep⟩ := Option.bind_eq_some_iff.mp hstep
      split at hstep
      · rename_i a e hphase
        obtain ⟨-, hstep⟩ := Machine.guard_bind hstep
        cases hstep
        exact ⟨h.put (hok r hr a (by rw [hphase]; rfl)), .of_eq rfl⟩
      · cases hstep
  | recover =>
      cases hstep
      exact ⟨h.of_eq rfl rfl rfl rfl, .of_eq rfl⟩
  | publish j =>
      obtain ⟨ids, hids, hstep⟩ := Option.bind_eq_some_iff.mp hstep
      split at hstep
      · cases hstep
      · cases hstep
        exact ⟨h.of_eq rfl rfl rfl rfl, .of_eq rfl⟩
  | deliver id =>
      obtain ⟨-, hstep⟩ := Machine.guard_bind hstep
      cases hstep
      have hheld : ∀ a, TaskPhase.starting.held = some a → a.id = id := by
        intro a ha
        cases ha
      exact ⟨⟨⟨h.ids, h.requests, Machine.forall_snoc h.tasks hheld⟩, h.calls, h.available,
        Machine.forall_snoc h.sound trivial, h.downloads⟩, .of_eq rfl⟩
  | work k txn =>
      obtain ⟨t, rows, p, -, -, hs'⟩ := work_cases hstep
      exact ⟨h.work hstep, .of_eq (by rw [hs'])⟩
  | taskFails k error =>
      obtain ⟨t, ht, hstep⟩ := Option.bind_eq_some_iff.mp hstep
      cases hstep
      exact ⟨h.breakOff (raised_deciding error t.phase), .of_eq rfl⟩
  | lost k =>
      obtain ⟨t, ht, hstep⟩ := Option.bind_eq_some_iff.mp hstep
      cases hstep
      exact ⟨h.breakOff (p := .done) rfl, .of_eq rfl⟩

/-! ## Runs -/

theorem Kept.run (h : Kept settings storage s)
    (hrun : Machine.Run (Attachments.step settings storage) Steady s s') :
    Kept settings storage s' :=
  hrun.invariant (fun _ _ _ hk hok hstep => (hk.step hok hstep).1) h

/-- **Downloads match the verified object** where no write changes an object that is relied on. -/
theorem downloads_verified (db : Db) (now : Datetime)
    (hrun : Machine.Run (Attachments.step settings storage) Steady (start db now) s) {b : Action}
    (hok : Steady s b) (hstep : Attachments.step settings storage s b = some s') :
    DownloadsVerified settings storage s s' :=
  (((kept_start settings storage db now).run hrun).step hok hstep).2

end

/-! ## A second upload -/

instance (key : String) (s : State) : Decidable (Unused key s) :=
  decidable_of_iff ((∀ row ∈ s.attachments, row.objectKey = key → row.status ≠ .available) ∧
      (∀ t ∈ s.tasks, ∀ a ∈ t.phase.relies, a.objectKey ≠ key) ∧
      ∀ r ∈ s.requests, ∀ a ∈ r.phase.downloading, a.objectKey ≠ key)
    ⟨fun h => ⟨h.1, h.2.1, h.2.2⟩, fun h => ⟨h.1, h.2, h.3⟩⟩

instance (s : State) : ∀ b, Decidable (Steady s b)
  | .call _ _ c => inferInstanceAs (Decidable (c.deletes = false))
  | .put i bytes => inferInstanceAs (Decidable (∀ r ∈ s.requests[i]?, ∀ a ∈ r.phase.upload,
      s.objects a.objectKey = some bytes ∨ Unused a.objectKey s))
  | .tick _ | .others _ | .advance .. | .requestFails _ | .recover | .publish _ | .deliver _
    | .work .. | .taskFails .. | .lost _ => isTrue trivial

/-- Runs without deletions. -/
def Keeps (_ : State) : Action → Prop
  | .call _ _ c => c.deletes = false
  | _ => True

instance (s : State) : ∀ b, Decidable (Keeps s b)
  | .call _ _ c => inferInstanceAs (Decidable (c.deletes = false))
  | .tick _ | .others _ | .put .. | .advance .. | .requestFails _ | .recover | .publish _
    | .deliver _ | .work .. | .taskFails .. | .lost _ => isTrue trivial

namespace Sample

/-- The file is processed. -/
def processed : List Action := uploaded ++ [.deliver 90] ++ process 0 6

/-- Ada asks for a URL, and her request has done its reads. -/
def asked : List Action := ask 2 (.download 90) 3

end Sample

/-- The request has been answered with a URL. -/
def RequestPhase.isUrl : RequestPhase → Bool
  | .answered (.url ..) => true
  | _ => false

theorem isUrl_iff {p : RequestPhase} : p.isUrl = true ↔ ∃ a e, p = .answered (.url a e) := by
  constructor
  · intro h
    unfold RequestPhase.isUrl at h
    split at h
    · exact ⟨_, _, rfl⟩
    · cases h
  · rintro ⟨a, e, rfl⟩
    rfl

set_option synthInstance.maxSize 512 in
/-- The second upload is the one that is downloaded: its digest is another. -/
theorem replaced_downloaded : ∃ s s',
    Machine.Run (Attachments.step Sample.settings Sample.storage) Keeps (start Sample.lab 0) s ∧
    Attachments.step Sample.settings Sample.storage s (.advance 2 0 0) = some s' ∧
    (s'.attachments.map fun row => (row.sha256, s'.objects row.objectKey)) =
      [(some (Sample.storage.sha256 [1]), some [2])] ∧
    ¬ DownloadsVerified Sample.settings Sample.storage s s' := by
  obtain ⟨s, hplay, hs⟩ := Option.map_eq_some_iff.mp
    (show (Machine.play (Attachments.step Sample.settings Sample.storage) Keeps (start Sample.lab 0)
        (Sample.processed ++ [.put 0 [2]] ++ Sample.asked)).map (fun s =>
          (s.requests[2]?.map fun r => r.phase.isUrl,
            (Attachments.step Sample.settings Sample.storage s (.advance 2 0 0)).map fun s' =>
              (s'.requests[2]?.map fun r => r.phase.isUrl,
                s'.attachments.map fun row => (row.sha256, s'.objects row.objectKey)))) =
      some (some false, some (some true, [(some (Sample.storage.sha256 [1]), some [2])])) by
        decide +kernel)
  obtain ⟨hbefore, hs⟩ := Prod.mk.inj hs
  obtain ⟨s', hstep, hs'⟩ := Option.map_eq_some_iff.mp hs
  obtain ⟨hafter, hrows⟩ := Prod.mk.inj hs'
  refine ⟨s, s', Machine.Run.of_play hplay, hstep, hrows, ?_⟩
  intro h
  obtain ⟨r', hr', hurl⟩ := Option.map_eq_some_iff.mp hafter
  obtain ⟨a, e, hphase⟩ := isUrl_iff.mp hurl
  have hnew : ∀ r, s.requests[2]? = some r → r.phase ≠ .answered (.url a e) := by
    intro r hr hold
    rw [hr] at hbefore
    have hno : r.phase.isUrl = false := Option.some.inj hbefore
    rw [isUrl_iff.mpr ⟨a, e, hold⟩] at hno
    cases hno
  obtain ⟨row, hrow, -, -, bytes, hbytes, -, -, hsha⟩ := h 2 r' a e hr' hphase hnew
  have hpair : (row.sha256, s'.objects row.objectKey) ∈
      s'.attachments.map fun row => (row.sha256, s'.objects row.objectKey) :=
        List.mem_map_of_mem hrow
  rw [hrows, hsha, hbytes, List.mem_singleton] at hpair
  obtain ⟨hdigest, hobject⟩ := Prod.mk.inj hpair
  cases hobject
  exact absurd hdigest (by decide)

set_option synthInstance.maxSize 512 in
/-- The upload is repeated before the file is processed, and the second object is downloaded. -/
theorem downloads_verified_sample : ∃ s s',
    Machine.Run (Attachments.step Sample.settings Sample.storage) Steady (start Sample.lab 0) s ∧
    Attachments.step Sample.settings Sample.storage s (.advance 2 0 0) = some s' ∧
    (s'.attachments.map fun row => (row.sha256, s'.objects row.objectKey)) =
      [(some (Sample.storage.sha256 [2]), some [2])] ∧
    (s'.requests[2]?.map fun r => r.phase.isUrl) = some true ∧
    DownloadsVerified Sample.settings Sample.storage s s' := by
  obtain ⟨s, hplay, hs⟩ := Option.map_eq_some_iff.mp
    (show (Machine.play (Attachments.step Sample.settings Sample.storage) Steady
        (start Sample.lab 0) (Sample.uploaded ++ [.put 0 [2], .deliver 90] ++ Sample.process 0 6 ++
          Sample.asked)).map (fun s =>
            (Attachments.step Sample.settings Sample.storage s (.advance 2 0 0)).map fun s' =>
              (s'.requests[2]?.map fun r => r.phase.isUrl,
                s'.attachments.map fun row => (row.sha256, s'.objects row.objectKey))) =
      some (some (some true, [(some (Sample.storage.sha256 [2]), some [2])])) by decide +kernel)
  obtain ⟨s', hstep, hs'⟩ := Option.map_eq_some_iff.mp hs
  obtain ⟨hurl, hrows⟩ := Prod.mk.inj hs'
  have hrun := Machine.Run.of_play hplay
  exact ⟨s, s', hrun, hstep, hrows, hurl,
    downloads_verified (b := .advance 2 0 0) Sample.lab 0 hrun trivial hstep⟩

end Attachments

end ForkRoom
