/-
# `Proof.Collaboration` — what a write token outlives

`issue_token` permits to write if it reads the decision open and the proposal as a
draft.  The permission goes into a token that verifies until it expires, from the
token into the connection, and stays there as long as the connection does.  Nothing
takes it back when the proposal is submitted, or the decision closed or locked.

    rows read ──→ token ──→ connection ──→ edits ──→ stored document
         └ still as they were read: the permission is not outdated

The invariant follows the permission along this chain: every edit, wherever it is,
has come over a connection that may write, to the document of its token; and a
permission to write that is not outdated rests on rows that allow it now.
-/
import ForkRoom.Model.Keys
import ForkRoom.System.Collaboration

namespace ForkRoom

open Optimistic Reads Rows

namespace Collaboration

theorem documentName_inj {p q : UUID} (h : documentName p = documentName q) : p = q := by
  have hl := congrArg String.toList h
  simp only [documentName, String.toList_append] at hl
  exact UUID.str_inj (String.toList_inj.mp (List.append_cancel_left hl))

/-! ## The invariant -/

/-- The reads of the request. -/
abbrev Issue.program (i : Issue) : Query CollaborationPermission :=
  CollaborationService.permission i.currentUser i.workspaceId i.decisionId i.proposalId

/-- What a phase of the request owes to its reads and to the documents. -/
def Issue.At (i : Issue) (documents : List CollaborationDocument) : IssuePhase → Prop
  | .deciding rest => i.program.Leaves i.seen rest
  | .lookingUp permission | .inserting permission | .lookingUpAgain permission =>
      i.program.Ends i.seen (.ok permission)
  | .refreshing permission id => i.program.Ends i.seen (.ok permission) ∧
      ∀ row ∈ documents, row.id = id → row.proposalId = i.proposalId
  | .signing permission name => i.program.Ends i.seen (.ok permission) ∧
      name = documentName i.proposalId
  | .issued token => i.program.Ends i.seen (.ok token.permission) ∧
      token.documentName = documentName i.proposalId
  | .failed _ => True

def Issue.Honest (i : Issue) (documents : List CollaborationDocument) : Prop :=
  i.At documents i.phase

/-- A permission that is not outdated rests on rows that are as they were read. -/
def Issue.Standing (i : Issue) (db : Db) : Prop := i.outdated = false →
  (∀ s ∈ i.seen[2]?, s.DecisionOpen i.decisionId → db.DecisionOpen i.decisionId) ∧
    ∀ s ∈ i.seen[3]?, s.ProposalDraft i.decisionId i.proposalId →
      db.ProposalDraft i.decisionId i.proposalId

/-- The connection has the permission of an issued token. -/
def Connection.Honest (c : Connection) (issues : List Issue) : Prop :=
  ∃ i, issues[c.issue]? = some i ∧ i.phase = .issued c.claims ∧
    (c.readOnly = true ↔ c.claims.permission = .read)

/-- The edit has come over a connection to the document that may write. -/
def Edit.Honest (e : Edit) (name : String) (connections : List Connection) : Prop :=
  ∃ c, connections[e.connection]? = some c ∧ c.readOnly = false ∧ c.claims.documentName = name

structure Inv (s : State) : Prop where
  issues : ∀ i ∈ s.issues, i.Honest s.documents ∧ i.Standing s.db
  connections : ∀ c ∈ s.connections, c.Honest s.issues
  names : ∀ row ∈ s.documents, row.documentName = documentName row.proposalId
  stored : ∀ row ∈ s.documents, ∀ e ∈ row.edits, e.Honest row.documentName s.connections
  loaded : ∀ doc ∈ s.loaded, ∀ e ∈ doc.edits, e.Honest doc.name s.connections
  stores : ∀ store ∈ s.stores, ∀ e ∈ store.edits, e.Honest store.name s.connections

theorem inv_start (db : Db) (now : Datetime) : Inv (start db now) where
  issues _ h := nomatch h
  connections _ h := nomatch h
  names _ h := nomatch h
  stored _ h := nomatch h
  loaded _ h := nomatch h
  stores _ h := nomatch h

section
variable {dep : Deployment} {settings : CollaborationSettings} {s s' : State} {i : Issue}
  {documents documents' : List CollaborationDocument} {db db' : Db}

/-! ### Requests for tokens -/

/-- Only a request that waits for its row looks at the documents. -/
theorem Issue.At.mono {phase : IssuePhase} (h : i.At documents phase)
    (hrows : ∀ id, phase.inserted = some id → ∀ row ∈ documents', row.id = id →
      row.proposalId = i.proposalId) : i.At documents' phase := by
  cases phase with
  | refreshing permission id => exact ⟨h.1, hrows id rfl⟩
  | _ => exact h

theorem Issue.Honest.inserted {id : UUID} (h : i.Honest documents)
    (hid : i.phase.inserted = some id) :
    ∀ row ∈ documents, row.id = id → row.proposalId = i.proposalId := by
  rw [Issue.Honest] at h
  cases hp : i.phase with
  | refreshing permission id' =>
      rw [hp] at h hid
      cases hid
      exact h.2
  | _ =>
      rw [hp] at hid
      cases hid

/-- A step of the database outdates a permission or leaves the rows it rests on. -/
theorem Issue.Standing.outdate (h : i.Standing db) :
    Issue.Standing { i with outdated := i.outdated || i.outdates db db' } db' := by
  intro hout
  obtain ⟨hold, hnew⟩ := Bool.or_eq_false_iff.mp hout
  obtain ⟨hdecision, hproposal⟩ := h hold
  simp only [Issue.outdates, Bool.or_eq_false_iff, Bool.and_eq_false_iff, decide_eq_false_iff_not,
    Bool.not_eq_false', decide_eq_true_eq] at hnew
  constructor
  · intro t ht hopen
    have hlen : 3 ≤ i.seen.length := (List.getElem?_eq_some_iff.mp ht).1
    rcases hnew.1 with (hshort | hclosed) | hopen'
    · exact absurd hlen hshort
    · exact absurd (hdecision t ht hopen) hclosed
    · exact hopen'
  · intro t ht hdraft
    have hlen : 4 ≤ i.seen.length := (List.getElem?_eq_some_iff.mp ht).1
    rcases hnew.2 with (hshort | hclosed) | hdraft'
    · exact absurd hlen hshort
    · exact absurd (hproposal t ht hdraft) hclosed
    · exact hdraft'

/-- A read adds the current state to what the request has seen. -/
theorem Issue.Standing.read (h : i.Standing db) (phase : IssuePhase) :
    Issue.Standing { i with seen := i.seen ++ [db], phase := phase } db := by
  have hlast : ∀ {k : Nat} {P : Db → Prop}, (∀ t ∈ i.seen[k]?, P t → P db) →
      ∀ t ∈ (i.seen ++ [db])[k]?, P t → P db := by
    intro k P hold t ht hP
    rcases Machine.getElem?_snoc_cases ht with rfl | ht
    · exact hP
    · exact hold t ht hP
  intro hout
  exact ⟨hlast (h hout).1, hlast (h hout).2⟩

/-- A current permission to write is one to a writable proposal. -/
theorem Issue.writable {token : CollaborationToken} (h : i.Honest documents) (hs : i.Standing db)
    (hout : i.outdated = false) (hp : i.phase = .issued token) (hw : token.permission ≠ .read) :
    Writable i.proposalId db ∧ token.documentName = documentName i.proposalId := by
  rw [Issue.Honest, hp] at h
  obtain ⟨hends, hname⟩ := h
  have hwrite : token.permission = .write := by
    cases hperm : token.permission with
    | read => exact absurd hperm hw
    | write => rfl
  rw [hwrite] at hends
  obtain ⟨s₁, s₂, s₃, s₄, hseen, hopen, hdraft⟩ := CollaborationService.permission_write hends
  obtain ⟨hdecision, hproposal⟩ := hs hout
  rw [hseen] at hdecision hproposal
  exact ⟨⟨i.decisionId, hproposal s₄ rfl hdraft, hdecision s₃ rfl hopen⟩, hname⟩

/-- Where a lookup goes on, if the row it has found is that of the proposal. -/
theorem lookedUp_at {permission : CollaborationPermission} {otherwise : IssuePhase}
    {found : Option CollaborationDocument} (hends : i.program.Ends i.seen (.ok permission))
    (hfound : ∀ row ∈ found, row.documentName = documentName i.proposalId)
    (hnot : i.At documents otherwise) : i.At documents (lookedUp permission otherwise found) := by
  cases found with
  | none => exact hnot
  | some row => exact ⟨hends, hfound row rfl⟩

theorem getForProposal_some {p : UUID} {row : CollaborationDocument}
    (h : getForProposal p documents = some row) : row ∈ documents ∧ row.proposalId = p :=
  ⟨List.mem_of_find?_eq_some h, by simpa using List.find?_some h⟩

/-- What a step of a request for a token does: it moves that request on, and may add its row. -/
structure Advances (s s' : State) (i : Nat) : Prop where
  moved : ∃ issue issue', s.issues[i]? = some issue ∧ s'.issues = s.issues.set i issue' ∧
    (∀ token, issue.phase ≠ .issued token) ∧
    (issue.Honest s.documents → issue'.Honest s'.documents) ∧
    (issue.Standing s.db → issue'.Standing s.db)
  rest : s'.requests = s.requests ∧ s'.connections = s.connections ∧ s'.loaded = s.loaded ∧
    s'.stores = s.stores
  documents : s'.documents = s.documents ∨ ∃ row, s'.documents = s.documents ++ [row] ∧
    row.documentName = documentName row.proposalId ∧ row.edits = [] ∧
    ∀ other ∈ s.issues, other.phase.inserted ≠ some row.id

/-- The request moves on and the documents stay. -/
theorem Advances.goOn {i : Nat} {issue : Issue} {phase : IssuePhase}
    (hi : s.issues[i]? = some issue)
    (hp : ∀ token, issue.phase ≠ .issued token)
    (hat : issue.Honest s.documents → issue.At s.documents phase) :
    Advances s (s.goOn i issue phase) i where
  moved := ⟨issue, { issue with phase := phase }, hi, rfl, hp, hat, id⟩
  rest := ⟨rfl, rfl, rfl, rfl⟩
  documents := Or.inl rfl

theorem advance_advances {i : Nat} {newId : UUID} (hnames : ∀ row ∈ s.documents,
      row.documentName = documentName row.proposalId)
    (h : advance settings s i newId = some s') : Advances s s' i := by
  unfold advance at h
  obtain ⟨issue, hi, h⟩ := Option.bind_eq_some_iff.mp h
  have hlookup : ∀ row ∈ getForProposal issue.proposalId s.documents,
      row.documentName = documentName issue.proposalId := by
    intro row hrow
    obtain ⟨hmem, hp⟩ := getForProposal_some hrow
    rw [hnames row hmem, hp]
  rcases issue with ⟨user, w, d, p, seen, phase, outdated⟩
  cases phase with
  | deciding rest =>
      cases rest with
      | read k =>
          cases h
          refine ⟨⟨_, _, hi, rfl, nofun, fun hh => leaves_snoc hh _, fun hs => hs.read _⟩,
            ⟨rfl, rfl, rfl, rfl⟩, Or.inl rfl⟩
      | done r =>
          cases r with
          | error e =>
              cases h
              exact .goOn hi nofun fun _ => trivial
          | ok permission =>
              cases h
              exact .goOn hi nofun id
  | lookingUp permission =>
      cases h
      exact .goOn hi nofun fun hh => lookedUp_at hh hlookup hh
  | inserting permission =>
      obtain ⟨hunused, h⟩ := Machine.guard_bind h
      dsimp only at h
      split at h
      · rename_i hfree
        cases h
        refine ⟨⟨_, _, hi, rfl, nofun, fun hh => ⟨hh, fun row hrow hid => ?_⟩, fun hs => hs⟩,
          ⟨rfl, rfl, rfl, rfl⟩, Or.inr ⟨_, rfl, rfl, rfl, hunused⟩⟩
        rcases List.mem_append.mp hrow with hrow | hrow
        · exact absurd hid (hfree.2 row hrow).1
        · rw [List.mem_singleton.mp hrow]
          rfl
      · cases h
        exact .goOn hi nofun id
  | refreshing permission id =>
      cases h
      refine .goOn hi nofun fun hh => lookedUp_at hh.1 (fun row hrow => ?_) trivial
      obtain ⟨hmem, hid⟩ := find_some hrow
      rw [hnames row hmem, hh.2 row hmem hid]
  | lookingUpAgain permission =>
      cases h
      exact .goOn hi nofun fun hh => lookedUp_at hh hlookup trivial
  | signing permission name =>
      cases h
      exact .goOn hi nofun id
  | issued token => cases h
  | failed e => cases h

/-! ### The steps -/

theorem Edit.Honest.join {e : Edit} {name : String} {connections : List Connection}
    (h : e.Honest name connections) (c : Connection) : e.Honest name (connections ++ [c]) := by
  obtain ⟨x, hx, hw⟩ := h
  refine ⟨x, ?_, hw⟩
  rw [List.getElem?_append_left (List.getElem?_eq_some_iff.mp hx).1, hx]

theorem Edit.Honest.close {e : Edit} {name : String} {connections : List Connection} {k : Nat}
    {c : Connection} (hc : connections[k]? = some c) (h : e.Honest name connections) :
    e.Honest name (connections.set k { c with isOpen := false }) := by
  obtain ⟨x, hx, hw⟩ := h
  by_cases hk : k = e.connection
  · subst hk
    rw [hc] at hx
    cases hx
    refine ⟨{ c with isOpen := false }, ?_, hw⟩
    rw [List.getElem?_set_self (List.getElem?_eq_some_iff.mp hc).1]
  · exact ⟨x, by rw [List.getElem?_set_ne hk, hx], hw⟩

theorem Inv.request (h : Inv s) (requests : Configuration) : Inv (s.onDatabase requests) where
  issues i hi := by
    obtain ⟨j, hj, rfl⟩ := List.mem_map.mp hi
    obtain ⟨hhonest, hstanding⟩ := h.issues j hj
    exact ⟨Issue.At.mono hhonest fun id hid row hrow =>
      hhonest.inserted hid row (List.mem_of_mem_filter hrow), hstanding.outdate⟩
  connections c hc := by
    obtain ⟨i, hi, hp, hro⟩ := h.connections c hc
    refine ⟨{ i with outdated := i.outdated || i.outdates s.db requests.state }, ?_, hp, hro⟩
    show (s.issues.map _)[c.issue]? = _
    rw [List.getElem?_map, hi]
    rfl
  names row hrow := h.names row (List.mem_of_mem_filter hrow)
  stored row hrow := h.stored row (List.mem_of_mem_filter hrow)
  loaded := h.loaded
  stores := h.stores

theorem Inv.advance (h : Inv s) {i : Nat} (hadv : Advances s s' i) : Inv s' := by
  obtain ⟨⟨issue, issue', hi, hissues, hnot, hhonest, hstanding⟩, ⟨hreq, hconn, hload, hstores⟩,
    hdocs⟩ :=
    hadv
  have hdb : s'.db = s.db := congrArg Config.state hreq
  have hmem := List.mem_of_getElem? hi
  refine ⟨?_, ?_, ?_, ?_, ?_, ?_⟩
  · intro j hj
    rw [hissues] at hj
    rcases List.mem_or_eq_of_mem_set hj with hj | rfl
    · obtain ⟨hh, hs⟩ := h.issues j hj
      refine ⟨Issue.At.mono hh fun id hid row hrow hrid => ?_, hdb ▸ hs⟩
      rcases hdocs with hsame | ⟨new, hnew, -, -, hunused⟩
      · exact hh.inserted hid row (hsame ▸ hrow) hrid
      · rw [hnew] at hrow
        rcases List.mem_append.mp hrow with hrow | hrow
        · exact hh.inserted hid row hrow hrid
        · rw [List.mem_singleton.mp hrow] at hrid
          exact absurd (hid.trans (congrArg some hrid.symm)) (hunused j hj)
    · obtain ⟨hh, hs⟩ := h.issues issue hmem
      exact ⟨hhonest hh, hdb ▸ hstanding hs⟩
  · intro c hc
    rw [hconn] at hc
    obtain ⟨j, hj, hp, hro⟩ := h.connections c hc
    refine ⟨j, ?_, hp, hro⟩
    rw [hissues, List.getElem?_set_ne, hj]
    rintro rfl
    rw [hi] at hj
    cases hj
    exact hnot _ hp
  · intro row hrow
    rcases hdocs with hsame | ⟨new, hnew, hname, -, -⟩
    · exact h.names row (hsame ▸ hrow)
    · rw [hnew] at hrow
      rcases List.mem_append.mp hrow with hrow | hrow
      · exact h.names row hrow
      · rw [List.mem_singleton.mp hrow]
        exact hname
  · intro row hrow e he
    rw [hconn]
    rcases hdocs with hsame | ⟨new, hnew, -, hempty, -⟩
    · exact h.stored row (hsame ▸ hrow) e he
    · rw [hnew] at hrow
      rcases List.mem_append.mp hrow with hrow | hrow
      · exact h.stored row hrow e he
      · rw [List.mem_singleton.mp hrow, hempty] at he
        nomatch he
  · rw [hload, hconn]
    exact h.loaded
  · rw [hstores, hconn]
    exact h.stores

/-- What is fetched has been stored. -/
theorem mem_fetch {name : String} {e : Edit} (he : e ∈ fetch name documents) :
    ∃ row ∈ documents, row.documentName = name ∧ e ∈ row.edits := by
  unfold fetch at he
  cases hrow : documents.find? fun row => row.documentName = name with
  | none =>
      rw [hrow] at he
      nomatch he
  | some row =>
      rw [hrow] at he
      exact ⟨row, List.mem_of_find?_eq_some hrow, by simpa using List.find?_some hrow, he⟩

theorem Inv.connect (h : Inv s) {k : Nat} {issue : Issue} {token : CollaborationToken}
    (name : String)
    (hi : s.issues[k]? = some issue) (hp : issue.phase = .issued token) :
    Inv { s with
      connections := s.connections ++ [⟨token, k, decide (token.permission = .read), true⟩]
      loaded := load name s } where
  issues := h.issues
  connections c hc := by
    rcases List.mem_append.mp hc with hc | hc
    · exact h.connections c hc
    · rw [List.mem_singleton.mp hc]
      exact ⟨issue, hi, hp, decide_eq_true_iff⟩
  names := h.names
  stored row hrow e he := (h.stored row hrow e he).join _
  loaded doc hdoc e he := by
    have hold : ∀ doc ∈ s.loaded, ∀ e ∈ doc.edits, e.Honest doc.name s.connections := h.loaded
    have hdoc : doc ∈ load name s := hdoc
    unfold load at hdoc
    split at hdoc
    · exact (hold doc hdoc e he).join _
    · rcases List.mem_append.mp hdoc with hdoc | hdoc
      · exact (hold doc hdoc e he).join _
      · rw [List.mem_singleton.mp hdoc] at he ⊢
        obtain ⟨row, hrow, hname, he⟩ := mem_fetch he
        exact (hname ▸ h.stored row hrow e he).join _
  stores store hstore e he := (h.stores store hstore e he).join _

/-- What is in a loaded document after an edit: the edit, if it went there, or what was in it. -/
theorem mem_apply {name : String} {e x : Edit} {loaded : List LoadedDocument}
    {doc' : LoadedDocument}
    (hdoc : doc' ∈ apply name e loaded) (hx : x ∈ doc'.edits) :
    (doc'.name = name ∧ x = e) ∨ ∃ doc ∈ loaded, doc.name = doc'.name ∧ x ∈ doc.edits := by
  obtain ⟨doc, hmem, rfl⟩ := List.mem_map.mp hdoc
  split at hx
  · rename_i hname
    rw [if_pos hname]
    rcases List.mem_append.mp hx with hx | hx
    · exact Or.inr ⟨doc, hmem, rfl, hx⟩
    · exact Or.inl ⟨hname, List.mem_singleton.mp hx⟩
  · rename_i hname
    rw [if_neg hname]
    exact Or.inr ⟨doc, hmem, rfl, hx⟩

theorem Inv.edit (h : Inv s) {k : Nat} {c : Connection} (update : List UInt8) {clock : Nat}
    (hc : s.connections[k]? = some c) (hro : c.readOnly = false) :
    Inv { s with
      loaded := apply c.claims.documentName ⟨k, s.clock, update⟩ s.loaded
      clock := clock } where
  issues := h.issues
  connections := h.connections
  names := h.names
  stored := h.stored
  loaded doc' hdoc x hx := by
    rcases mem_apply hdoc hx with ⟨hname, rfl⟩ | ⟨doc, hmem, hname, hx⟩
    · exact ⟨c, hc, hro, hname.symm⟩
    · exact hname ▸ h.loaded doc hmem x hx
  stores := h.stores

theorem Inv.disconnect (h : Inv s) {k : Nat} {c : Connection} (hc : s.connections[k]? = some c) :
    Inv { s with connections := s.connections.set k { c with isOpen := false } } where
  issues := h.issues
  connections x hx := by
    rcases List.mem_or_eq_of_mem_set hx with hx | rfl
    · exact h.connections x hx
    · exact h.connections c (List.mem_of_getElem? hc)
  names := h.names
  stored row hrow e he := (h.stored row hrow e he).close hc
  loaded doc hdoc e he := (h.loaded doc hdoc e he).close hc
  stores store hstore e he := (h.stores store hstore e he).close hc

/-- What is in a stored document after an `UPDATE`: what has been encoded, or what was in it. -/
theorem mem_write {store : Store} {row' : CollaborationDocument} {e : Edit}
    (hrow : row' ∈ write store documents) (he : e ∈ row'.edits) :
    (∃ row ∈ documents, row.documentName = row'.documentName ∧ row.proposalId = row'.proposalId) ∧
    ((row'.documentName = store.name ∧ e ∈ store.edits) ∨
      ∃ row ∈ documents, row.documentName = row'.documentName ∧ e ∈ row.edits) := by
  obtain ⟨row, hmem, rfl⟩ := List.mem_map.mp hrow
  split at he
  · rename_i hname
    rw [if_pos hname]
    exact ⟨⟨row, hmem, rfl, rfl⟩, Or.inl ⟨hname, he⟩⟩
  · rename_i hname
    rw [if_neg hname]
    exact ⟨⟨row, hmem, rfl, rfl⟩, Or.inr ⟨row, hmem, rfl, he⟩⟩

theorem Inv.update (h : Inv s) {k : Nat} {store : Store} (hstore : s.stores[k]? = some store) :
    Inv { s with
      documents := write store s.documents
      stores := s.stores.set k { store with done := true } } where
  issues i hi := by
    obtain ⟨hh, hs⟩ := h.issues i hi
    refine ⟨Issue.At.mono hh fun id hid row' hrow' hrid => ?_, hs⟩
    obtain ⟨row, hmem, rfl⟩ := List.mem_map.mp hrow'
    split at hrid
    · rename_i hname
      rw [if_pos hname]
      exact hh.inserted hid row hmem hrid
    · rename_i hname
      rw [if_neg hname]
      exact hh.inserted hid row hmem hrid
  connections := h.connections
  names row' hrow' := by
    obtain ⟨row, hmem, rfl⟩ := List.mem_map.mp hrow'
    split
    · exact h.names row hmem
    · exact h.names row hmem
  stored row' hrow' e he := by
    obtain ⟨-, ⟨hname, he⟩ | ⟨row, hmem, hname, he⟩⟩ := mem_write hrow' he
    · exact hname ▸ h.stores store (List.mem_of_getElem? hstore) e he
    · exact hname ▸ h.stored row hmem e he
  loaded := h.loaded
  stores x hx := by
    rcases List.mem_or_eq_of_mem_set hx with hx | rfl
    · exact h.stores x hx
    · exact h.stores store (List.mem_of_getElem? hstore)

theorem Inv.step (h : Inv s) {a : Action} (hstep : Collaboration.step dep settings s a = some s') :
    Inv s' := by
  cases a with
  | tick now =>
      obtain ⟨-, hstep⟩ := Machine.guard_bind hstep
      cases hstep
      exact ⟨h.issues, h.connections, h.names, h.stored, h.loaded, h.stores⟩
  | request a =>
      obtain ⟨requests, -, hstep⟩ := Option.bind_eq_some_iff.mp hstep
      cases hstep
      exact h.request requests
  | issueToken user w d p =>
      cases hstep
      refine ⟨Machine.forall_snoc h.issues ⟨rfl, fun _ => ⟨nofun, nofun⟩⟩, fun c hc => ?_, h.names,
        h.stored, h.loaded, h.stores⟩
      obtain ⟨i, hi, hp⟩ := h.connections c hc
      exact ⟨i, by rw [List.getElem?_append_left (List.getElem?_eq_some_iff.mp hi).1, hi], hp⟩
  | advance i newId => exact h.advance (advance_advances h.names hstep)
  | connect k name origin =>
      obtain ⟨issue, hi, hstep⟩ := Option.bind_eq_some_iff.mp hstep
      split at hstep
      · rename_i token hp
        obtain ⟨-, hstep⟩ := Machine.guard_bind hstep
        obtain ⟨-, hstep⟩ := Machine.guard_bind hstep
        cases hstep
        exact h.connect name hi hp
      · cases hstep
  | edit k update =>
      obtain ⟨c, hc, hstep⟩ := Option.bind_eq_some_iff.mp hstep
      obtain ⟨⟨-, hro⟩, hstep⟩ := Machine.guard_bind hstep
      cases hstep
      exact h.edit update hc hro
  | disconnect k =>
      obtain ⟨c, hc, hstep⟩ := Option.bind_eq_some_iff.mp hstep
      cases hstep
      exact h.disconnect hc
  | unload name =>
      obtain ⟨-, hstep⟩ := Machine.guard_bind hstep
      cases hstep
      exact ⟨h.issues, h.connections, h.names, h.stored,
        fun doc hdoc => h.loaded doc (List.mem_of_mem_filter hdoc), h.stores⟩
  | save name =>
      obtain ⟨doc, hdoc, hstep⟩ := Option.bind_eq_some_iff.mp hstep
      cases hstep
      refine ⟨h.issues, h.connections, h.names, h.stored, h.loaded,
        Machine.forall_snoc h.stores fun e he => ?_⟩
      have hname : doc.name = name := by simpa using List.find?_some hdoc
      exact hname ▸ h.loaded doc (List.mem_of_find?_eq_some hdoc) e he
  | update k =>
      obtain ⟨store, hstore, hstep⟩ := Option.bind_eq_some_iff.mp hstep
      obtain ⟨-, hstep⟩ := Machine.guard_bind hstep
      cases hstep
      exact h.update hstore

theorem Inv.run {ok : State → Action → Prop} (h : Inv s)
    (hrun : Machine.Run (Collaboration.step dep settings) ok s s') : Inv s' :=
  hrun.invariant (fun _ _ _ hI _ hstep => hI.step hstep) h

/-! ## Where edits come from -/

/-- An edit over a connection whose permission is current goes to a writable proposal. -/
theorem Inv.writable (h : Inv s) {c : Connection} {p : UUID} (hc : c ∈ s.connections)
    (hro : c.readOnly = false) (hcurrent : s.current c)
    (hname : c.claims.documentName = documentName p) :
    Writable p s.db := by
  obtain ⟨i, hi, hphase, hread⟩ := h.connections c hc
  obtain ⟨hhonest, hstanding⟩ := h.issues i (List.mem_of_getElem? hi)
  have hwrite : c.claims.permission ≠ .read := by
    intro hr
    rw [hread.mpr hr] at hro
    cases hro
  obtain ⟨hw, htoken⟩ := Issue.writable hhonest hstanding (hcurrent i hi) hphase hwrite
  rw [hname] at htoken
  rw [documentName_inj htoken]
  exact hw

/-- Only an `UPDATE` stores edits; the other steps take rows away or add an empty one. -/
theorem stored_before {a : Action} (hinv : Inv s)
    (hstep : Collaboration.step dep settings s a = some s') (ha : ∀ k, a ≠ .update k)
    {row' : CollaborationDocument} (hrow : row' ∈ s'.documents) {e : Edit} (he : e ∈ row'.edits) :
    s.Stored row'.documentName e := by
  cases a with
  | tick now =>
      obtain ⟨-, hstep⟩ := Machine.guard_bind hstep
      cases hstep
      exact ⟨row', hrow, rfl, he⟩
  | request a =>
      obtain ⟨requests, -, hstep⟩ := Option.bind_eq_some_iff.mp hstep
      cases hstep
      exact ⟨row', List.mem_of_mem_filter hrow, rfl, he⟩
  | issueToken user w d p =>
      cases hstep
      exact ⟨row', hrow, rfl, he⟩
  | advance i newId =>
      rcases (advance_advances hinv.names hstep).documents with hsame | ⟨row, hnew, -, hempty, -⟩
      · exact ⟨row', hsame ▸ hrow, rfl, he⟩
      · rw [hnew] at hrow
        rcases List.mem_append.mp hrow with hrow | hrow
        · exact ⟨row', hrow, rfl, he⟩
        · rw [List.mem_singleton.mp hrow, hempty] at he
          nomatch he
  | connect k name origin =>
      obtain ⟨issue, hi, hstep⟩ := Option.bind_eq_some_iff.mp hstep
      split at hstep
      · obtain ⟨-, hstep⟩ := Machine.guard_bind hstep
        obtain ⟨-, hstep⟩ := Machine.guard_bind hstep
        cases hstep
        exact ⟨row', hrow, rfl, he⟩
      · cases hstep
  | edit k update =>
      obtain ⟨c, -, hstep⟩ := Option.bind_eq_some_iff.mp hstep
      obtain ⟨-, hstep⟩ := Machine.guard_bind hstep
      cases hstep
      exact ⟨row', hrow, rfl, he⟩
  | disconnect k =>
      obtain ⟨c, -, hstep⟩ := Option.bind_eq_some_iff.mp hstep
      cases hstep
      exact ⟨row', hrow, rfl, he⟩
  | unload name =>
      obtain ⟨-, hstep⟩ := Machine.guard_bind hstep
      cases hstep
      exact ⟨row', hrow, rfl, he⟩
  | save name =>
      obtain ⟨doc, -, hstep⟩ := Option.bind_eq_some_iff.mp hstep
      cases hstep
      exact ⟨row', hrow, rfl, he⟩
  | update k => exact absurd rfl (ha k)

theorem Inv.stored_writable (h : Inv s) {a : Action} (hok : Current s a)
    (hstep : Collaboration.step dep settings s a = some s') :
    ∀ row' ∈ s'.documents, ∀ e ∈ row'.edits, ¬ s.Stored row'.documentName e →
      Writable row'.proposalId s.db := by
  intro row' hrow e he hnew
  by_cases ha : ∃ k, a = .update k
  · obtain ⟨k, rfl⟩ := ha
    obtain ⟨store, hstore, hstep⟩ := Option.bind_eq_some_iff.mp hstep
    obtain ⟨-, hstep⟩ := Machine.guard_bind hstep
    cases hstep
    obtain ⟨⟨row, hmem, hrowName, hproposal⟩, ⟨hname, he⟩ | ⟨row, hmem, hname, he⟩⟩ :=
      mem_write hrow he
    · have hin := List.mem_of_getElem? hstore
      obtain ⟨c, hc, hro, htarget⟩ := h.stores store hin e he
      refine h.writable (List.mem_of_getElem? hc) hro ?_ ?_
      · exact hok store hstore e he (hname ▸ hnew) c hc
      · rw [htarget, ← hname, ← hrowName, ← hproposal]
        exact h.names row hmem
    · exact absurd ⟨row, hmem, hname, he⟩ hnew
  · exact absurd (stored_before h hstep (fun k hk => ha ⟨k, hk⟩) hrow he) hnew

theorem Inv.applied_writable (h : Inv s) {k : Nat} {update : List UInt8}
    (hok : Current s (.edit k update))
    (hstep : Collaboration.step dep settings s (.edit k update) = some s') {p : UUID} :
    ∀ doc' ∈ s'.loaded, doc'.name = documentName p → ∀ e ∈ doc'.edits,
      (∀ doc ∈ s.loaded, doc.name = doc'.name → e ∉ doc.edits) → Writable p s.db := by
  intro doc' hdoc hname e he hnew
  obtain ⟨c, hc, hstep⟩ := Option.bind_eq_some_iff.mp hstep
  obtain ⟨⟨-, hro⟩, hstep⟩ := Machine.guard_bind hstep
  cases hstep
  rcases mem_apply hdoc he with ⟨htarget, -⟩ | ⟨doc, hmem, hsame, hx⟩
  · exact h.writable (List.mem_of_getElem? hc) hro (hok c hc hro) (htarget ▸ hname)
  · exact absurd hx (hnew doc hmem hsame)

/-- Where no edit comes or is first stored under an outdated permission, edits are accepted only
while the proposal is a draft and its decision open. -/
theorem edits_only_while_writable (db : Db) (now : Datetime)
    (hrun : Machine.Run (Collaboration.step dep settings) Current (start db now) s) {a : Action}
    (hok : Current s a) (hstep : Collaboration.step dep settings s a = some s') :
    AcceptsWhileWritable s a s' := by
  have hinv : Inv s := (inv_start db now).run hrun
  refine ⟨hinv.stored_writable hok hstep, ?_⟩
  intro k update ha p
  subst ha
  exact hinv.applied_writable hok hstep

end

/-! ## A token that outlives the draft -/

instance (s : State) (c : Connection) : Decidable (s.current c) :=
  inferInstanceAs (Decidable (∀ i ∈ s.issues[c.issue]?, i.outdated = false))

instance (s : State) (name : String) (e : Edit) : Decidable (s.Stored name e) :=
  inferInstanceAs (Decidable (∃ row ∈ s.documents, row.documentName = name ∧ e ∈ row.edits))

instance (s : State) : ∀ a, Decidable (Current s a)
  | .edit c _ => inferInstanceAs
      (Decidable (∀ x ∈ s.connections[c]?, x.readOnly = false → s.current x))
  | .update k => inferInstanceAs (Decidable (∀ store ∈ s.stores[k]?, ∀ e ∈ store.edits,
      ¬ s.Stored store.name e → ∀ x ∈ s.connections[e.connection]?, s.current x))
  | .tick _ | .request _ | .issueToken .. | .advance .. | .connect .. | .disconnect _ | .unload _
    | .save _ => isTrue trivial

namespace Sample

/-- An active decision with a draft of a proposal. -/
def drafting : Db := runAll ForkRoom.Sample.dep (ForkRoom.Sample.setUp.take 7) Db.empty

def settings : CollaborationSettings := ⟨15, ["https://app"]⟩

/-- Ada asks for a token for the draft and connects with it. -/
def join : List Action :=
  [.issueToken ForkRoom.Sample.ada 10 20 30] ++ List.replicate 9 (.advance 0 90) ++
    [.connect 0 (documentName 30) (some "https://app")]

/-- Ada submits the proposal. -/
def submit : List Action :=
  (ForkRoom.Sample.oneByOne 0
    [(.transitionProposal (ForkRoom.Sample.env 8 0) ForkRoom.Sample.ada 10 20 30
      ⟨.submitted⟩, 4)]).map
      Action.request

/-- An edit over the connection, and the document is stored. -/
def write : List Action := [.edit 0 [1], .save (documentName 30), .update 0]

end Sample

/-- The proposal is submitted, and an edit over the connection is applied and stored. -/
theorem submitted_edited : ∃ s s',
    Machine.Run (Collaboration.step ForkRoom.Sample.dep Sample.settings) (fun _ _ => True)
      (start Sample.drafting 0) s ∧
    Collaboration.step ForkRoom.Sample.dep Sample.settings s (.update 0) = some s' ∧
    (s.db.proposals.map Proposal.status, s'.documents.map CollaborationDocument.edits) =
      ([.submitted], [[⟨0, 0, [1]⟩]]) ∧
    ¬ AcceptsWhileWritable s (.update 0) s' := by
  obtain ⟨s, hplay, hs⟩ := Option.map_eq_some_iff.mp
    (show (Machine.play (Collaboration.step ForkRoom.Sample.dep Sample.settings) (fun _ _ => True)
        (start Sample.drafting 0) (Sample.join ++ Sample.submit ++ Sample.write.take 2)).map
        (fun s =>
          (decide (s.db.proposals.map Proposal.status = [.submitted] ∧
              s.documents.map CollaborationDocument.edits = [[]]),
            (Collaboration.step ForkRoom.Sample.dep Sample.settings s (.update 0)).map fun s' =>
              s'.documents.map fun row => (row.proposalId, row.edits))) =
      some (true, some [(30, [⟨0, 0, [1]⟩])]) by decide +kernel)
  obtain ⟨hs, hafter⟩ := Prod.mk.inj hs
  obtain ⟨hproposals, hbefore⟩ := of_decide_eq_true hs
  obtain ⟨s', hstep, hdocuments⟩ := Option.map_eq_some_iff.mp hafter
  have hedits : s'.documents.map CollaborationDocument.edits = [[⟨0, 0, [1]⟩]] := by
    have h := congrArg (List.map Prod.snd) hdocuments
    rw [List.map_map] at h
    exact h
  refine ⟨s, s', Machine.Run.of_play hplay, hstep, by rw [hproposals, hedits], ?_⟩
  intro haccepts
  obtain ⟨row, hrow, hpair⟩ := List.mem_map.mp
    (show (30, [⟨0, 0, [1]⟩]) ∈ s'.documents.map fun row => (row.proposalId, row.edits) by
      rw [hdocuments]
      exact List.mem_singleton.mpr rfl)
  obtain ⟨hid, hedit⟩ := Prod.mk.inj hpair
  have hnew : ¬ s.Stored row.documentName ⟨0, 0, [1]⟩ := by
    rintro ⟨old, hold, -, he⟩
    have hempty : old.edits ∈ s.documents.map CollaborationDocument.edits :=
      List.mem_map_of_mem hold
    rw [hbefore, List.mem_singleton] at hempty
    rw [hempty] at he
    nomatch he
  obtain ⟨d, ⟨p, hp, -, -, hdraft⟩, -⟩ :=
    haccepts.stored row hrow ⟨0, 0, [1]⟩ (hedit ▸ List.mem_singleton.mpr rfl) hnew
  have hsubmitted : p.status ∈ s.db.proposals.map Proposal.status := List.mem_map_of_mem hp
  rw [hproposals, List.mem_singleton, hdraft] at hsubmitted
  cases hsubmitted

/-- While the proposal is a draft, the edit is stored. -/
theorem edits_only_while_writable_sample : ∃ s s',
    Machine.Run (Collaboration.step ForkRoom.Sample.dep Sample.settings) Current
      (start Sample.drafting 0) s ∧
    Collaboration.step ForkRoom.Sample.dep Sample.settings s (.update 0) = some s' ∧
    s'.documents.map CollaborationDocument.edits = [[⟨0, 0, [1]⟩]] ∧
    AcceptsWhileWritable s (.update 0) s' := by
  obtain ⟨s, hplay, hs⟩ := Option.map_eq_some_iff.mp
    (show (Machine.play (Collaboration.step ForkRoom.Sample.dep Sample.settings) Current
        (start Sample.drafting 0) (Sample.join ++ Sample.write.take 2)).map (fun s =>
          (decide (Current s (.update 0)),
            (Collaboration.step ForkRoom.Sample.dep Sample.settings s (.update 0)).map fun s' =>
              s'.documents.map CollaborationDocument.edits)) =
      some (true, some [[⟨0, 0, [1]⟩]]) by decide +kernel)
  obtain ⟨hok, hafter⟩ := Prod.mk.inj hs
  obtain ⟨s', hstep, hdocuments⟩ := Option.map_eq_some_iff.mp hafter
  have hrun := Machine.Run.of_play hplay
  exact ⟨s, s', hrun, hstep, hdocuments,
    edits_only_while_writable Sample.drafting 0 hrun (of_decide_eq_true hok) hstep⟩

end Collaboration

end ForkRoom
