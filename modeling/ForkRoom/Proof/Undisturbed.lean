/-
# `Proof.Undisturbed` — a lock and the requests that run beside it

A lock checks its guards with several reads and commits later, without a lock on
any row.  A request on the same decision that commits in between can undo a
guard: raise a blocking objection, close or edit the decision, take the winning
proposal back.  The lock is then committed all the same (`lock_past_objection`).

    read     what it is for                what disturbs it until the commit
    3rd      the decision, ACTIVE          an update, or a transition out of ACTIVE
    5th      no open blocking objection    a blocking objection raised or reopened
    12th     the winner, SUBMITTED         its transition out of SUBMITTED

If no such commit comes between a read of a lock and its own commit, every guard
still holds in the state after it (`lock_guards_hold`).  Everything else that may
run beside it is harmless, whatever it has read and however late it writes.
-/
import ForkRoom.Proof.FinalBallots

namespace ForkRoom

open Optimistic Rows

/-! ## The requests -/

/-- Requests on a decision, its proposals and objections, locks, and requests that
only read. -/
def Op.isBesideLock : Op → Bool
  | updateDecision .. | transitionDecision .. | transitionProposal .. => true
  | createObjection .. | transitionObjection .. | createLock .. => true
  | op => op.footprint.isEmpty

/-- The winner of the session `s`, as things stand, is `p`. -/
def winnerIn (db : Db) (s p : UUID) : Bool :=
  db.votingSessions.any fun x => x.id = s && (x.resultIn db).winnerProposalId = some p

/-- The request edits the decision `d` or takes it out of `active`. -/
def Op.unsettlesDecision (d : UUID) : Op → Bool
  | updateDecision _ _ _ d' _ => d' = d
  | transitionDecision _ _ _ d' payload => d' = d && payload.status ≠ .active
  | _ => false

/-- The request raises a blocking objection in the decision `d`, or reopens one. -/
def Op.blocks (db : Db) (d : UUID) : Op → Bool
  | createObjection _ _ _ d' _ payload => d' = d && payload.severity = .blocking
  | transitionObjection _ _ _ d' _ o payload => d' = d && payload.status = .open &&
      db.objections.any fun x => x.id = o && x.severity = .blocking
  | _ => false

/-- The request takes back the winner of the session `s`. -/
def Op.takesBack (db : Db) (s : UUID) : Op → Bool
  | transitionProposal _ _ _ _ p payload => payload.status ≠ .submitted && winnerIn db s p
  | _ => false

/-- A commit of `op` disturbs the lock request `t` in what it has read so far. -/
def Op.disturbs (db : Db) (op : Op) (t : InFlight) : Bool :=
  match t.op with
  | createLock _ _ _ d payload =>
      (3 ≤ t.seen.length && op.unsettlesDecision d) || (5 ≤ t.seen.length && op.blocks db d) ||
        (12 ≤ t.seen.length && op.takesBack db payload.votingSessionId)
  | _ => false

/-- A commit that does not disturb a lock leaves each of the reads it has made as it was. -/
theorem Op.not_disturbs {db : Db} {op : Op} {t : InFlight} {env : Env} {user : User} {w d : UUID}
    {payload : DecisionLockCreateRequest} (hop : t.op = .createLock env user w d payload)
    (h : op.disturbs db t = false) :
    (3 ≤ t.seen.length → op.unsettlesDecision d = false) ∧
      (5 ≤ t.seen.length → op.blocks db d = false) ∧
      (12 ≤ t.seen.length → op.takesBack db payload.votingSessionId = false) := by
  simp only [Op.disturbs, hop, Bool.or_eq_false_iff, Bool.and_eq_false_iff,
    decide_eq_false_iff_not] at h
  obtain ⟨⟨hdecision, hblocks⟩, hwinner⟩ := h
  exact ⟨fun hlen => hdecision.resolve_left (not_not.mpr hlen),
    fun hlen => hblocks.resolve_left (not_not.mpr hlen),
    fun hlen => hwinner.resolve_left (not_not.mpr hlen)⟩

/-- The step is a commit that disturbs a lock request in flight. -/
def Disturbs (c : Configuration) : Action Op → Prop
  | .start _ => False
  | .advance i => ∃ t ∈ c.threads[i]?, t.committing ∧
      ∃ t' ∈ c.threads, t'.answer.isNone ∧ t.op.disturbs c.state t'

instance (c : Configuration) : ∀ a, Decidable (Disturbs c a)
  | .start _ => isFalse id
  | .advance i => inferInstanceAs (Decidable (∃ t ∈ c.threads[i]?, t.committing ∧
      ∃ t' ∈ c.threads, t'.answer.isNone ∧ t.op.disturbs c.state t'))

/-- Interleavings of such requests in which no commit disturbs a lock. -/
def Undisturbed (c : Configuration) (a : Action Op) : Prop :=
  Starts Op.isBesideLock c a ∧ ¬ Disturbs c a

instance (c : Configuration) (a : Action Op) : Decidable (Undisturbed c a) :=
  inferInstanceAs (Decidable (_ ∧ _))

/-! ## What a commit does -/

/-- What the commit of such a request does to the core. -/
inductive BesideCommit (dep : Deployment) (op : Op) (db : Db) : Core → Prop where
  | same : BesideCommit dep op db db.core
  | updateDecision (env : Env) (user : User) (w : UUID) (payload : DecisionUpdateRequest)
      (x x' : Decision) (hop : op = .updateDecision env user w x.id payload)
      (hx : x ∈ db.decisions) (hid : x'.id = x.id) :
      BesideCommit dep op db { db.core with decisions := replace x x' db.decisions }
  | moveDecision (env : Env) (user : User) (w : UUID) (payload : DecisionTransitionRequest)
      (x x' : Decision) (hop : op = .transitionDecision env user w x.id payload)
      (hx : x ∈ db.decisions) (hr : x.SameRecord x')
      (hs : x'.status = x.status ∨ x'.status = payload.status) :
      BesideCommit dep op db { db.core with decisions := replace x x' db.decisions }
  | moveProposal (env : Env) (user : User) (w d : UUID) (payload : ProposalTransitionRequest)
      (x x' : Proposal) (hop : op = .transitionProposal env user w d x.id payload)
      (hx : x ∈ db.proposals) (hid : x'.id = x.id) (hd : x'.decisionId = x.decisionId)
      (hs : x'.status = x.status ∨ x'.status = payload.status) :
      BesideCommit dep op db { db.core with proposals := replace x x' db.proposals }
  | addObjection (env : Env) (user : User) (w d p : UUID) (payload : ObjectionCreateRequest)
      (row : Objection) (hop : op = .createObjection env user w d p payload)
      (hp : ∀ x ∈ db.proposals, x.id = p → x.decisionId = d) (hrow : row.proposalId = p)
      (hv : row.severity = payload.severity) :
      BesideCommit dep op db { db.core with objections := db.objections ++ [row] }
  | moveObjection (env : Env) (user : User) (w d p : UUID) (payload : ObjectionTransitionRequest)
      (x x' : Objection) (hop : op = .transitionObjection env user w d p x.id payload)
      (hx : x ∈ db.objections) (hp : ∀ y ∈ db.proposals, y.id = x.proposalId → y.decisionId = d)
      (hid : x'.id = x.id) (hxp : x'.proposalId = x.proposalId) (hv : x'.severity = x.severity)
      (hs : x'.status = x.status ∨ x'.status = payload.status) :
      BesideCommit dep op db { db.core with objections := replace x x' db.objections }
  | lock (env : Env) (user : User) (w : UUID) (payload : DecisionLockCreateRequest)
      (d x x' : Decision) (winning : UUID) (snapshot : Snapshot)
      (hop : op = .createLock env user w d.id payload) (hx : x ∈ db.decisions) (hid : x.id = d.id)
      (hx' : x' = d.merge (DecisionLockService.locked d env.now) env.dbNow x) :
      BesideCommit dep op db { db.core with
        decisions := replace x x' db.decisions
        decisionLocks := db.decisionLocks ++
          [DecisionLockService.lockRow dep env user d payload.votingSessionId winning snapshot] }

/-- Proposals stay under their decision, objections under their proposal, and the
tables of the sessions and the ballots stay as they are. -/
structure Still (c c' : Core) : Prop where
  sessions : c'.votingSessions = c.votingSessions
  offers : c'.votingSessionProposals = c.votingSessionProposals
  votes : c'.votes = c.votes
  locks : ∀ l ∈ c.decisionLocks, l ∈ c'.decisionLocks
  proposals : c'.proposals.map (fun p => (p.id, p.decisionId)) =
    c.proposals.map fun p => (p.id, p.decisionId)
  objections : ∀ o ∈ c.objections, ∃ o' ∈ c'.objections, o'.id = o.id ∧
    o'.proposalId = o.proposalId ∧ o'.severity = o.severity

theorem Still.refl (c : Core) : Still c c where
  sessions := rfl
  offers := rfl
  votes := rfl
  locks _ h := h
  proposals := rfl
  objections o ho := ⟨o, ho, rfl, rfl, rfl⟩

theorem Still.trans {c₁ c₂ c₃ : Core} (h : Still c₁ c₂) (h' : Still c₂ c₃) : Still c₁ c₃ where
  sessions := h'.sessions.trans h.sessions
  offers := h'.offers.trans h.offers
  votes := h'.votes.trans h.votes
  locks l hl := h'.locks l (h.locks l hl)
  proposals := h'.proposals.trans h.proposals
  objections o ho := by
    obtain ⟨o', ho', h₁, h₂, h₃⟩ := h.objections o ho
    obtain ⟨o'', ho'', h₁', h₂', h₃'⟩ := h'.objections o' ho'
    exact ⟨o'', ho'', h₁'.trans h₁, h₂'.trans h₂, h₃'.trans h₃⟩

section
variable {db db' : Db}

/-- A proposal that is still there belongs to the same decision. -/
theorem Still.proposal_decision (h : Still db.core db'.core) {p q : Proposal}
    (hp : p ∈ db.proposals) (hq : q ∈ db'.proposals) (hid : q.id = p.id) :
    q.decisionId = p.decisionId := by
  have hmem : (q.id, q.decisionId) ∈ db'.core.proposals.map fun p => (p.id, p.decisionId) :=
    List.mem_map_of_mem hq
  rw [h.proposals] at hmem
  obtain ⟨x, hx, he⟩ := List.mem_map.mp hmem
  obtain ⟨hxid, hxd⟩ := Prod.mk.inj he
  rw [← hxd, eq_of_key db.valid.pkProposals hx hp (hxid.trans hid)]

variable {dep : Deployment} {env : Env} {user : User} {w d p o : UUID} {ss : List Db}
  {ws : List Write} {rejected : CommitError → ServiceError}

theorem DecisionService.update_beside {payload : DecisionUpdateRequest}
    {ok : Db → Except ServiceError Decision}
    (h : (DecisionService.update env user w d payload).Ends ss (.ok (.commit ws ok rejected)))
    (hc : db.commit ws = .ok db') :
    BesideCommit dep (.updateDecision env user w d payload) db db'.core := by
  obtain ⟨_, _, _, c, -, hctx, -, -, -, rfl⟩ := DecisionService.update_commits h
  obtain ⟨-, rfl, -⟩ := DecisionRepository.getForWorkspace_some hctx.decision
  have hfound := Db.commit_found hc _ List.mem_cons_self
  rw [(Db.commit_ok hc).1, Tables.write, List.foldl]
  rcases Db.setDecision_cases hfound with ⟨-, hrun⟩ | ⟨x, hx, hid, hrun⟩
  · rw [hrun]
    exact .same
  · rw [hrun]
    exact .updateDecision env user w payload x _ (by rw [hid]) hx rfl

theorem DecisionService.transition_beside {payload : DecisionTransitionRequest}
    {ok : Db → Except ServiceError Decision}
    (h : (DecisionService.transition dep env user w d payload).Ends ss
      (.ok (.commit ws ok rejected)))
    (hc : db.commit ws = .ok db') :
    BesideCommit dep (.transitionDecision env user w d payload) db db'.core := by
  obtain ⟨_, _, _, c, _, -, hctx, -, -, rfl⟩ := DecisionService.transition_commits h
  obtain ⟨-, rfl, -⟩ := DecisionRepository.getForWorkspace_some hctx.decision
  have hfound := Db.commit_found hc _ (List.mem_append_right _ List.mem_cons_self)
  rw [(Db.commit_ok hc).1, Tables.core_write_after staged_aside, Tables.write, List.foldl]
  rcases Db.setDecision_cases hfound with ⟨-, hrun⟩ | ⟨x, hx, hid, hrun⟩
  · rw [hrun]
    exact .same
  · rw [hrun]
    refine .moveDecision env user w payload x _ (by rw [hid]) hx ?_ (column_cases _ _ _)
    exact ⟨rfl, rfl, rfl, column_kept _ _, column_kept _ _, column_kept _ _, column_kept _ _,
      column_kept _ _⟩

theorem ProposalService.transition_beside {payload : ProposalTransitionRequest}
    {ok : Db → Except ServiceError Proposal}
    (h : (ProposalService.transition env user w d p payload).Ends ss
      (.ok (.commit ws ok rejected)))
    (hc : db.commit ws = .ok db') :
    BesideCommit dep (.transitionProposal env user w d p payload) db db'.core := by
  obtain ⟨_, _, _, _, c, loaded, -, -, -, hp, -, -, rfl⟩ := ProposalService.transition_commits h
  obtain ⟨-, rfl, -⟩ := ProposalRepository.getForDecision_some hp
  have hfound := Db.commit_found hc _ List.mem_cons_self
  rw [(Db.commit_ok hc).1, Tables.write, List.foldl]
  rcases Db.setProposal_cases hfound with ⟨-, hrun⟩ | ⟨x, hx, hid, hrun⟩
  · rw [hrun]
    exact .same
  · rw [hrun]
    exact .moveProposal env user w d payload x _ (by rw [hid]) hx rfl rfl (column_cases _ _ _)

theorem ObjectionService.create_beside {payload : ObjectionCreateRequest}
    {ok : Db → Except ServiceError Objection}
    (h : (ObjectionService.create env user w d p payload).Ends ss (.ok (.commit ws ok rejected)))
    (hss : ∀ s₀ ∈ ss, Still s₀.core db.core) (hc : db.commit ws = .ok db') :
    BesideCommit dep (.createObjection env user w d p payload) db db'.core := by
  obtain ⟨_, _, _, s₄, c, row, rfl, hctx, -, -, -, rfl, -, hrow, -, hv, -⟩ :=
    ObjectionService.create_commits h
  simp only [List.forall_mem_cons] at hss
  obtain ⟨-, -, -, h₄, -⟩ := hss
  obtain ⟨hp, rfl, rfl⟩ := ProposalRepository.getForDecision_some hctx.proposal
  rw [(Db.commit_ok hc).1]
  exact .addObjection env user w c.proposal.decisionId c.proposal.id payload row rfl
    (fun x hx hid => h₄.proposal_decision hp hx hid) hrow hv

theorem ObjectionService.transition_beside {payload : ObjectionTransitionRequest}
    {ok : Db → Except ServiceError Objection}
    (h : (ObjectionService.transition env user w d p o payload).Ends ss
      (.ok (.commit ws ok rejected)))
    (hss : ∀ s₀ ∈ ss, Still s₀.core db.core) (hc : db.commit ws = .ok db') :
    BesideCommit dep (.transitionObjection env user w d p o payload) db db'.core := by
  obtain ⟨_, _, _, s₄, s₅, c, loaded, rfl, hctx, -, ho, -, -, rfl⟩ :=
    ObjectionService.transition_commits h
  simp only [List.forall_mem_cons] at hss
  obtain ⟨-, -, -, h₄, h₅, -⟩ := hss
  obtain ⟨hp, rfl, rfl⟩ := ProposalRepository.getForDecision_some hctx.proposal
  obtain ⟨hmem, rfl, hop⟩ := ObjectionRepository.getForProposal_some ho
  have hfound := Db.commit_found hc _ List.mem_cons_self
  have hcore : db'.core = ((Write.setObjection loaded (ObjectionService.moved loaded user.id
      payload.status payload.note env.now) env.dbNow).run db.toTables).core := by
    rw [(Db.commit_ok hc).1]
    rfl
  rw [hcore]
  rcases Db.setObjection_cases hfound with ⟨-, hrun⟩ | ⟨x, hx, hid, hrun⟩
  · rw [hrun]
    exact .same
  · rw [hrun]
    -- the stored objection is still raised against the same proposal
    obtain ⟨x', hx', hid', hxp, -⟩ := h₅.objections loaded hmem
    have hsame : x' = x := eq_of_key db.valid.pkObjections hx' hx (hid'.trans hid.symm)
    refine .moveObjection env user w c.proposal.decisionId c.proposal.id payload x _
      (by rw [hid]) hx
      (fun y hy hyp => h₄.proposal_decision hp hy ?_) rfl rfl (column_kept _ _) (column_cases _ _ _)
    rw [hyp, ← hsame, hxp, hop]

theorem DecisionLockService.create_beside {payload : DecisionLockCreateRequest}
    {ok : Db → Except ServiceError DecisionLock}
    (h : (DecisionLockService.create dep env user w d payload).Ends ss
      (.ok (.commit ws ok rejected)))
    (hc : db.commit ws = .ok db') :
    BesideCommit dep (.createLock env user w d payload) db db'.core := by
  obtain ⟨_, _, _, _, _, _, _, _, _, _, _, _, _, c, _, _, winning, snapshot, x, -, hg, hx, hid,
    hcore⟩ := DecisionLockService.create_locks h hc
  obtain ⟨-, rfl, -⟩ := DecisionRepository.getForWorkspace_some hg.context.decision
  rw [hcore]
  exact .lock env user w payload c.decision x _ winning.id snapshot rfl hx hid rfl

theorem Op.commit_beside {op : Op} {ok : Db → Except ServiceError Response}
    (hop : op.isBesideLock) (hss : ∀ s₀ ∈ ss, Still s₀.core db.core)
    (hends : (op.program dep).Ends ss (.ok (.commit ws ok rejected)))
    (hc : db.commit ws = .ok db') : BesideCommit dep op db db'.core := by
  by_cases hread : op.footprint = []
  · exact absurd hends (Op.read_commits_nothing hread)
  cases op <;> (try exact absurd rfl hread) <;>
    (try (exfalso; simp [isBesideLock, footprint] at hop; done)) <;>
    obtain ⟨_, h⟩ := Request.map_commits hends
  case updateDecision => exact DecisionService.update_beside h hc
  case transitionDecision => exact DecisionService.transition_beside h hc
  case transitionProposal => exact ProposalService.transition_beside h hc
  case createObjection => exact ObjectionService.create_beside h hss hc
  case transitionObjection => exact ObjectionService.transition_beside h hss hc
  case createLock => exact DecisionLockService.create_beside h hc

theorem BesideCommit.still {op : Op} {c : Core} (h : BesideCommit dep op db c) :
    Still db.core c := by
  have hrefl := Still.refl db.core
  cases h with
  | same => exact hrefl
  | updateDecision => exact { hrefl with }
  | moveDecision => exact { hrefl with }
  | moveProposal env user w d payload x x' hop hx hid hd =>
      refine { hrefl with proposals := ?_ }
      exact map_replace db.valid.pkProposals hx _ (by rw [hid, hd])
  | addObjection env user w d p payload row =>
      refine { hrefl with objections := fun o ho => ?_ }
      exact ⟨o, List.mem_append_left _ ho, rfl, rfl, rfl⟩
  | moveObjection env user w d p payload x x' hop hx hpd hid hxp hsev =>
      refine { hrefl with objections := fun o ho => ?_ }
      by_cases hk : o.id = x.id
      · rw [eq_of_key db.valid.pkObjections ho hx hk]
        exact ⟨x', (mem_replace hx).mpr (Or.inl rfl), hid, hxp, hsev⟩
      · exact ⟨o, (mem_replace hx).mpr (Or.inr ⟨ho, hk⟩), rfl, rfl, rfl⟩
  | lock => exact { hrefl with locks := fun l hl => List.mem_append_left _ hl }

end

/-! ## What a lock relies on -/

/-- The decision `d` keeps its record and stays active, or is locked. -/
structure KeepsDecision (d : UUID) (db db' : Db) : Prop where
  locks : ∀ l ∈ db.decisionLocks, l ∈ db'.decisionLocks
  record : (∃ l ∈ db'.decisionLocks, l.decisionId = d) ∨ ∀ x ∈ db.decisions, x.id = d →
    ∃ x' ∈ db'.decisions, x.SameRecord x' ∧ (x.status = .active → x'.status = .active)

/-- The decision `d` gets no open blocking objection. -/
def KeepsUnblocked (d : UUID) (db db' : Db) : Prop :=
  ObjectionRepository.hasOpenBlockingForDecision d db = false →
    ObjectionRepository.hasOpenBlockingForDecision d db' = false

/-- The winner of the session `s` stays submitted. -/
structure KeepsWinner (s : UUID) (db db' : Db) : Prop where
  still : Still db.core db'.core
  winner : ∀ p ∈ db.proposals, winnerIn db s p.id → p.status = .submitted →
    ∃ p' ∈ db'.proposals, p'.id = p.id ∧ p'.status = .submitted

/-- A relation that the lock requests rely on, each for its decision and session. -/
def LockRelies (keeps : UUID → UUID → Db → Db → Prop) : Op → Db → Db → Prop
  | .createLock _ _ _ d payload, db, db' => keeps d payload.votingSessionId db db'
  | _, _, _ => True

section
variable {keeps : UUID → UUID → Db → Db → Prop} {op : Op} {db db₁ db₂ db₃ : Db} {d s : UUID}

theorem LockRelies.refl (hrefl : ∀ d s db, keeps d s db db) : LockRelies keeps op db db := by
  cases op with
  | createLock => exact hrefl _ _ _
  | _ => trivial

theorem LockRelies.trans
    (htrans : ∀ d s {db₁ db₂ db₃}, keeps d s db₁ db₂ → keeps d s db₂ db₃ → keeps d s db₁ db₃)
    (h : LockRelies keeps op db₁ db₂) (h' : LockRelies keeps op db₂ db₃) :
    LockRelies keeps op db₁ db₃ := by
  cases op with
  | createLock => exact htrans _ _ h h'
  | _ => trivial

theorem KeepsDecision.refl : KeepsDecision d db db where
  locks _ h := h
  record := Or.inr fun x hx _ => ⟨x, hx, ⟨rfl, rfl, rfl, rfl, rfl, rfl, rfl, rfl⟩, id⟩

theorem Decision.SameRecord.trans {x y z : Decision} (h : x.SameRecord y) (h' : y.SameRecord z) :
    x.SameRecord z where
  id := h'.id.trans h.id
  workspaceId := h'.workspaceId.trans h.workspaceId
  createdById := h'.createdById.trans h.createdById
  title := h'.title.trans h.title
  summary := h'.summary.trans h.summary
  category := h'.category.trans h.category
  dueAt := h'.dueAt.trans h.dueAt
  reviewAt := h'.reviewAt.trans h.reviewAt

theorem KeepsDecision.trans (h : KeepsDecision d db₁ db₂) (h' : KeepsDecision d db₂ db₃) :
    KeepsDecision d db₁ db₃ where
  locks l hl := h'.locks l (h.locks l hl)
  record := by
    rcases h'.record with hlock | hrec'
    · exact Or.inl hlock
    rcases h.record with ⟨l, hl, hd⟩ | hrec
    · exact Or.inl ⟨l, h'.locks l hl, hd⟩
    · refine Or.inr fun x hx hid => ?_
      obtain ⟨x', hx', hr, hactive⟩ := hrec x hx hid
      obtain ⟨x'', hx'', hr', hactive'⟩ := hrec' x' hx' (hr.id.trans hid)
      exact ⟨x'', hx'', hr.trans hr', fun h => hactive' (hactive h)⟩

/-- The ballots of a session are counted in one table. -/
theorem countVotes_congr (hvotes : db₂.votes = db₁.votes) :
    VotingRepository.countVotes s db₂ = VotingRepository.countVotes s db₁ := by
  rw [VotingRepository.countVotes, VotingRepository.countVotes, hvotes]

/-- The tallies of a session are counted in two tables. -/
theorem tallies_congr (hvotes : db₂.votes = db₁.votes)
    (hoffers : db₂.votingSessionProposals = db₁.votingSessionProposals) :
    VotingRepository.listTallies s db₂ = VotingRepository.listTallies s db₁ := by
  rw [VotingRepository.listTallies, VotingRepository.listTallies, hvotes, hoffers]

/-- Sessions, snapshots and ballots that stay give the same results. -/
theorem Still.winnerIn_eq (h : Still db₁.core db₂.core) (s p : UUID) :
    winnerIn db₂ s p = winnerIn db₁ s p := by
  have hsessions : db₂.votingSessions = db₁.votingSessions := h.sessions
  have hresult : ∀ x : VotingSession, x.resultIn db₂ = x.resultIn db₁ := fun x =>
    result_congr rfl rfl rfl (countVotes_congr h.votes) (tallies_congr h.votes h.offers)
  simp only [winnerIn, hsessions, hresult]

theorem KeepsWinner.refl : KeepsWinner s db db where
  still := Still.refl _
  winner p hp _ hsub := ⟨p, hp, rfl, hsub⟩

theorem KeepsWinner.trans (h : KeepsWinner s db₁ db₂) (h' : KeepsWinner s db₂ db₃) :
    KeepsWinner s db₁ db₃ where
  still := h.still.trans h'.still
  winner p hp hwin hsub := by
    obtain ⟨p', hp', hid, hsub'⟩ := h.winner p hp hwin hsub
    have hwin' : winnerIn db₂ s p'.id := by
      rw [hid, h.still.winnerIn_eq]
      exact hwin
    obtain ⟨p'', hp'', hid', hsub''⟩ := h'.winner p' hp' hwin' hsub'
    exact ⟨p'', hp'', hid'.trans hid, hsub''⟩

end

/-! ### What a commit that disturbs nothing keeps -/

section
variable {dep : Deployment} {op : Op} {db db' : Db} {d s : UUID}

/-- A decision whose row is replaced by another one of the same record. -/
theorem keeps_replace {x x' : Decision} (hx : x ∈ db.decisions)
    (h : x.id = d → x.SameRecord x' ∧ (x.status = .active → x'.status = .active)) :
    ∀ y ∈ db.decisions, y.id = d →
      ∃ y' ∈ replace x x' db.decisions, y.SameRecord y' ∧
        (y.status = .active → y'.status = .active) := by
  intro y hy hid
  by_cases hk : y.id = x.id
  · rw [eq_of_key db.valid.pkDecisions hy hx hk]
    obtain ⟨hr, hactive⟩ := h (hk.symm.trans hid)
    exact ⟨x', (mem_replace hx).mpr (Or.inl rfl), hr, hactive⟩
  · exact ⟨y, (mem_replace hx).mpr (Or.inr ⟨hy, hk⟩), ⟨rfl, rfl, rfl, rfl, rfl, rfl, rfl, rfl⟩, id⟩

theorem BesideCommit.keepsDecision (h : BesideCommit dep op db db'.core)
    (hquiet : op.unsettlesDecision d = false) : KeepsDecision d db db' := by
  refine ⟨h.still.locks, ?_⟩
  generalize hc : db'.core = c at h
  have hdecisions : db'.decisions = c.decisions := congrArg Core.decisions hc
  have hlocks : db'.decisionLocks = c.decisionLocks := congrArg Core.decisionLocks hc
  rw [hdecisions, hlocks]
  cases h with
  | same => exact KeepsDecision.refl.record
  | updateDecision env user w payload x x' hop hx hid =>
      subst hop
      refine Or.inr (keeps_replace hx fun hxd => ?_)
      simp [Op.unsettlesDecision, hxd] at hquiet
  | moveDecision env user w payload x x' hop hx hr hst =>
      subst hop
      refine Or.inr (keeps_replace hx fun hxd => ⟨hr, fun hactive => ?_⟩)
      have htarget : payload.status = .active := by
        simpa [Op.unsettlesDecision, hxd] using hquiet
      rcases hst with hst | hst
      · exact hst.trans hactive
      · exact hst.trans htarget
  | moveProposal => exact KeepsDecision.refl.record
  | addObjection => exact KeepsDecision.refl.record
  | moveObjection => exact KeepsDecision.refl.record
  | lock env user w payload e x x' winning snapshot hop hx hid hx' =>
      by_cases hed : e.id = d
      · exact Or.inl ⟨_, List.mem_append_right _ List.mem_cons_self, hed⟩
      · exact Or.inr (keeps_replace hx fun hxd => absurd (hid.symm.trans hxd) hed)

theorem BesideCommit.keepsUnblocked (h : BesideCommit dep op db db'.core)
    (hquiet : op.blocks db d = false) : KeepsUnblocked d db db' := by
  intro hfree
  have hstill := h.still
  rw [unblocked_iff] at hfree ⊢
  -- a proposal of the decision after the commit was one of it before
  have hbefore :
      ∀ p ∈ db'.proposals, ∃ q ∈ db.proposals, q.id = p.id ∧ q.decisionId = p.decisionId := by
    intro p hp
    have hmem : (p.id, p.decisionId) ∈ db'.core.proposals.map fun p => (p.id, p.decisionId) :=
      List.mem_map_of_mem hp
    rw [hstill.proposals] at hmem
    obtain ⟨q, hq, he⟩ := List.mem_map.mp hmem
    exact ⟨q, hq, (Prod.mk.inj he).1, (Prod.mk.inj he).2⟩
  intro o ho hsev hopen p hp hid hd
  obtain ⟨q, hq, hqid, hqd⟩ := hbefore p hp
  have hold : o ∈ db.objections → False := fun hmem =>
    hfree o hmem hsev hopen q hq (hqid.trans hid) (hqd.trans hd)
  generalize hc : db'.core = c at h
  have hobjections : db'.objections = c.objections := congrArg Core.objections hc
  rw [hobjections] at ho
  cases h with
  | same => exact hold ho
  | updateDecision => exact hold ho
  | moveDecision => exact hold ho
  | moveProposal => exact hold ho
  | addObjection env user w e r payload row hop hr hrow hv =>
      subst hop
      rcases List.mem_append.mp ho with ho | ho
      · exact hold ho
      · rw [List.mem_singleton.mp ho] at hsev hid
        have hed : e = d :=
          (hr q hq (hqid.trans (hid.trans hrow))).symm.trans (hqd.trans hd)
        simp [Op.blocks, hed, ← hv, hsev] at hquiet
  | moveObjection env user w e r payload x x' hop hx hr hxid hxp hv hst =>
      subst hop
      rcases (mem_replace hx).mp ho with rfl | ⟨ho, -⟩
      · rw [hv] at hsev
        rcases hst with hst | hst
        · exact hfree x hx hsev (hst.symm.trans hopen) q hq (hqid.trans (hid.trans hxp))
            (hqd.trans hd)
        · have hed : e = d :=
            (hr q hq (hqid.trans (hid.trans hxp))).symm.trans (hqd.trans hd)
          have hany : (db.objections.any fun y => y.id = x.id && y.severity = .blocking) = true :=
            List.any_eq_true.mpr ⟨x, hx, by simp [hsev]⟩
          simp [Op.blocks, hed, ← hst, hopen, hany] at hquiet
      · exact hold ho
  | lock => exact hold ho

theorem BesideCommit.keepsWinner (h : BesideCommit dep op db db'.core)
    (hquiet : op.takesBack db s = false) : KeepsWinner s db db' := by
  refine ⟨h.still, ?_⟩
  intro p hp hwin hsub
  generalize hc : db'.core = c at h
  have hproposals : db'.proposals = c.proposals := congrArg Core.proposals hc
  rw [hproposals]
  cases h with
  | same => exact ⟨p, hp, rfl, hsub⟩
  | updateDecision => exact ⟨p, hp, rfl, hsub⟩
  | moveDecision => exact ⟨p, hp, rfl, hsub⟩
  | moveProposal env user w e payload x x' hop hx hid hd hst =>
      subst hop
      by_cases hk : p.id = x.id
      · have htarget : payload.status = .submitted := by
          rw [hk] at hwin
          simpa [Op.takesBack, hwin] using hquiet
        refine ⟨x', (mem_replace hx).mpr (Or.inl rfl), hid.trans hk.symm, ?_⟩
        rcases hst with hst | hst
        · rw [hst, ← eq_of_key db.valid.pkProposals hp hx hk]
          exact hsub
        · exact hst.trans htarget
      · exact ⟨p, (mem_replace hx).mpr (Or.inr ⟨hp, hk⟩), rfl, hsub⟩
  | addObjection => exact ⟨p, hp, rfl, hsub⟩
  | moveObjection => exact ⟨p, hp, rfl, hsub⟩
  | lock => exact ⟨p, hp, rfl, hsub⟩

end

/-! ## The runs -/

section
variable {dep : Deployment} {db₀ : Db} {c c' : Configuration} {a : Action Op}

/-- What holds of a configuration of such an interleaving: since its third, fifth
and twelfth read, what a lock request relies on has been kept. -/
structure BesideConfig (dep : Deployment) (c : Configuration) : Prop where
  only : c.Only fun op => op.isBesideLock
  traced : c.Traced (Op.program dep)
  below : c.Below (fun _ => True) fun db db' => Still db.core db'.core
  ordered : c.Ordered fun db db' => Still db.core db'.core
  decision : c.Since 2 (LockRelies fun d _ => KeepsDecision d)
  unblocked : c.Since 4 (LockRelies fun d _ => KeepsUnblocked d)
  winner : c.Since 11 (LockRelies fun _ s => KeepsWinner s)

theorem besideConfig_idle (dep : Deployment) (db₀ : Db) : BesideConfig dep (Config.idle db₀) where
  only := Config.only_idle _
  traced := Config.traced_idle _
  below := Config.below_idle _
  ordered := Config.ordered_idle _
  decision := Config.since_idle _
  unblocked := Config.since_idle _
  winner := Config.since_idle _

/-- A commit of a request of the configuration. -/
theorem BesideConfig.commit (h : BesideConfig dep c) {t : InFlight} (ht : t ∈ c.threads)
    {w : List Write} {f : Db → Except ServiceError Response} {g : CommitError → ServiceError}
    (hr : t.rest = .done (.ok (.commit w f g))) {db' : Db} (hw : Db.commit w c.state = .ok db') :
    BesideCommit dep t.op c.state db'.core := by
  have hends := h.traced t ht
  rw [hr] at hends
  exact Op.commit_beside (h.only t ht) (fun s₀ hs₀ => (h.below t ht s₀ hs₀).2) hends hw

/-- A step that disturbs no lock keeps what the lock requests in flight rely on,
if every commit that does not disturb it in this respect does. -/
theorem BesideConfig.relies (h : BesideConfig dep c) (hok : Undisturbed c a)
    (hact : c.act Db.commit (Op.program dep) a = some c') {k : Nat}
    {keeps : UUID → UUID → Db → Db → Prop} (hrefl : ∀ d s db, keeps d s db db)
    (hkeeps : ∀ {op env user w d payload} {t : InFlight}, k < t.seen.length →
      t.op = .createLock env user w d payload → op.disturbs c.state t = false →
      BesideCommit dep op c.state c'.state.core →
      keeps d payload.votingSessionId c.state c'.state) :
    ∀ t ∈ c.threads, t.answer = none → k < t.seen.length →
      LockRelies keeps t.op c.state c'.state := by
  intro t ht hnone hlen
  rcases Config.act_commit hact with hs | ⟨i, u, w, f, g, rfl, hu, hunone, hr, hw⟩
  · rw [hs]
    exact LockRelies.refl hrefl
  · have hcommit := h.commit (List.mem_of_getElem? hu) hr hw
    have hquiet : u.op.disturbs c.state t = false := by
      rw [Bool.eq_false_iff]
      intro hd
      exact hok.2 ⟨u, hu, Thread.committing_of hunone hr, t, ht,
        Option.isNone_iff_eq_none.mpr hnone, hd⟩
    generalize hop : t.op = op
    cases op with
    | createLock env user w d payload => exact hkeeps hlen hop hquiet hcommit
    | _ => trivial

theorem BesideConfig.act (h : BesideConfig dep c) (hok : Undisturbed c a)
    (hact : c.act Db.commit (Op.program dep) a = some c') : BesideConfig dep c' := by
  obtain ⟨-, hstill, hbelow⟩ := Config.act_guarantee (I := fun _ => True)
    (R := fun db db' : Db => Still db.core db'.core) (fun db => Still.refl db.core) Still.trans
    (fun i t w f g s' _ ht _ hr _ _ hw =>
      ⟨trivial, (h.commit (List.mem_of_getElem? ht) hr hw).still⟩)
    trivial h.traced h.below hact
  refine ⟨h.only.act (fun op ha => ?_) hact, h.traced.act hact, hbelow, h.ordered.act h.below hact,
    ?_, ?_, ?_⟩
  · rw [ha] at hok
    exact hok.1
  · refine h.decision.act (fun _ _ => LockRelies.refl fun _ _ _ => KeepsDecision.refl)
      (fun _ => LockRelies.trans fun _ _ => KeepsDecision.trans)
      (h.relies hok hact (fun _ _ _ => KeepsDecision.refl) ?_) hact
    intro op env user w d payload t hlen hop hquiet hcommit
    exact hcommit.keepsDecision ((Op.not_disturbs hop hquiet).1 hlen)
  · refine h.unblocked.act (fun _ _ => LockRelies.refl fun _ _ _ => id)
      (fun _ => LockRelies.trans fun _ _ _ _ _ h h' hfree => h' (h hfree))
      (h.relies hok hact (fun _ _ _ => id) ?_) hact
    intro op env user w d payload t hlen hop hquiet hcommit
    exact hcommit.keepsUnblocked ((Op.not_disturbs hop hquiet).2.1 hlen)
  · refine h.winner.act (fun _ _ => LockRelies.refl fun _ _ _ => KeepsWinner.refl)
      (fun _ => LockRelies.trans fun _ _ => KeepsWinner.trans)
      (h.relies hok hact (fun _ _ _ => KeepsWinner.refl) ?_) hact
    intro op env user w d payload t hlen hop hquiet hcommit
    exact hcommit.keepsWinner ((Op.not_disturbs hop hquiet).2.2 hlen)

theorem BesideConfig.run (h : BesideConfig dep c) (hrun : Interleaving dep Undisturbed c c') :
    BesideConfig dep c' := by
  induction hrun with
  | refl => exact h
  | step _ hok hact ih => exact ih.act hok hact

/-- A snapshot of a decision is that of its record. -/
theorem Decision.SameRecord.decisionSnapshot {d d' : Decision} (h : d.SameRecord d') :
    DecisionLockService.decisionSnapshot d' = DecisionLockService.decisionSnapshot d := by
  rw [DecisionLockService.decisionSnapshot, DecisionLockService.decisionSnapshot, h.id,
    h.workspaceId, h.createdById, h.title, h.summary, h.category, h.dueAt, h.reviewAt]

/-- The guards of a lock `l` hold in the state `db'` that its commit on `db` leaves. -/
structure GuardsHold (db db' : Db) (l : DecisionLock) : Prop where
  active : ∃ x ∈ db.decisions, x.id = l.decisionId ∧ x.status = .active
  unblocked : ObjectionRepository.hasOpenBlockingForDecision l.decisionId db' = false
  session : ∃ x ∈ db'.votingSessions, x.id = l.votingSessionId ∧ x.decisionId = l.decisionId ∧
    x.status = .closed ∧ (x.resultIn db').resultValid = true ∧
    (x.resultIn db').winnerProposalId = some l.winningProposalId
  winner : ∃ p ∈ db'.proposals, p.id = l.winningProposalId ∧ p.decisionId = l.decisionId ∧
    p.status = .submitted
  recorded : ∃ x ∈ db'.decisions, x.id = l.decisionId ∧ x.status = .locked ∧ ∃ snapshot,
    l.snapshot = Snapshot.toJson snapshot ∧
    snapshot.decision = DecisionLockService.decisionSnapshot x

/-- A lock writes the status of the decision, and nothing of its record. -/
theorem DecisionLockService.locked_recorded {env : Env} {decision x : Decision}
    (hr : decision.SameRecord x) (hactive : decision.status = .active) :
    (decision.merge (DecisionLockService.locked decision env.now) env.dbNow x).status = .locked ∧
      DecisionLockService.decisionSnapshot
          (decision.merge (DecisionLockService.locked decision env.now) env.dbNow x) =
        DecisionLockService.decisionSnapshot decision := by
  constructor
  · refine column_changed ?_ _
    intro hst
    rw [hactive] at hst
    nomatch hst
  · refine Decision.SameRecord.decisionSnapshot ?_
    refine ⟨hr.id, hr.workspaceId, hr.createdById, ?_, ?_, ?_, ?_, ?_⟩
    · exact (column_kept _ _).trans hr.title
    · exact (column_kept _ _).trans hr.summary
    · exact (column_kept _ _).trans hr.category
    · exact (column_kept _ _).trans hr.dueAt
    · exact (column_kept _ _).trans hr.reviewAt

/-- The commit of a lock on which it has been able to rely. -/
theorem DecisionLockService.create_guarded {env : Env} {user : User} {w d : UUID} {ss : List Db}
    {ws : List Write} {payload : DecisionLockCreateRequest}
    {ok : Db → Except ServiceError DecisionLock} {rejected : CommitError → ServiceError}
    {db db' : Db}
    (h : (DecisionLockService.create dep env user w d payload).Ends ss
      (.ok (.commit ws ok rejected)))
    (hc : db.commit ws = .ok db') (hss : ∀ s₀ ∈ ss, Still s₀.core db.core)
    (hdec : ∀ s₀ ∈ ss[2]?, KeepsDecision d s₀ db) (hblock : ∀ s₀ ∈ ss[4]?, KeepsUnblocked d s₀ db)
    (hwin : ∀ s₀ ∈ ss[11]?, KeepsWinner payload.votingSessionId s₀ db) :
    ∀ l ∈ db'.decisionLocks, l ∈ db.decisionLocks ∨ GuardsHold db db' l := by
  obtain ⟨_, _, s₃, _, s₅, _, _, _, r₄, r₅, r₆, sw, _, c, session, result, winning,
    snapshot, x, rfl,
    hg, hx, hid, hcore⟩ := DecisionLockService.create_locks h hc
  simp only [List.forall_mem_cons] at hss
  obtain ⟨-, -, -, -, -, -, -, -, h₄, h₅, h₆, hw, -⟩ := hss
  have hlocks : db'.decisionLocks = db.decisionLocks ++
      [DecisionLockService.lockRow dep env user c.decision payload.votingSessionId winning.id
        snapshot] := congrArg Core.decisionLocks hcore
  have hdecisions : db'.decisions = replace x
      (c.decision.merge (DecisionLockService.locked c.decision env.now) env.dbNow x) db.decisions :=
    congrArg Core.decisions hcore
  have hproposals : db'.proposals = db.proposals := congrArg Core.proposals hcore
  have hobjections : db'.objections = db.objections := congrArg Core.objections hcore
  have hsessions : db'.votingSessions = db.votingSessions := congrArg Core.votingSessions hcore
  have hoffers : db'.votingSessionProposals = db.votingSessionProposals :=
    congrArg Core.votingSessionProposals hcore
  have hvotes : db'.votes = db.votes := congrArg Core.votes hcore
  intro l hl
  rw [hlocks] at hl
  rcases List.mem_append.mp hl with hl | hl
  · exact Or.inl hl
  rw [List.mem_singleton.mp hl]
  right
  obtain ⟨hdm, hdid, -⟩ := DecisionRepository.getForWorkspace_some hg.context.decision
  obtain ⟨hsm, hsid, hsd⟩ := VotingRepository.getForDecision_some hg.readSession
  obtain ⟨hwm, -, hwd⟩ := ProposalRepository.getForDecision_some hg.readWinning
  -- no other lock of the decision: the unique constraint has let this one through
  have hfree : ∀ l ∈ db.decisionLocks, l.decisionId ≠ c.decision.id := by
    have hunique := db'.valid.uqDecisionLocksDecisionId
    rw [hlocks] at hunique
    exact hunique.ne_of_append
  -- the decision read is the stored one as far as its record goes, and that is active
  have hstored : c.decision.SameRecord x ∧ x.status = .active := by
    rcases (hdec s₃ rfl).record with ⟨l, hl, hld⟩ | hrec
    · exact absurd (hld.trans hdid.symm) (hfree l hl)
    · obtain ⟨x', hx', hr, hactive⟩ := hrec c.decision hdm hdid
      have hsame : x' = x := eq_of_key db.valid.pkDecisions hx' hx (hr.id.trans hid.symm)
      rw [← hsame]
      exact ⟨hr, hactive hg.active⟩
  -- the result counted is the one of the session now
  have hresult : session.resultIn db = result :=
    (hg.counted.trans (result_congr rfl rfl rfl (countVotes_congr h₅.votes).symm
      (tallies_congr h₆.votes h₆.offers).symm)).symm
  have hresult' : session.resultIn db' = result :=
    (result_congr rfl rfl rfl (countVotes_congr hvotes)
      (tallies_congr hvotes hoffers)).trans hresult
  have hsdb : session ∈ db.votingSessions := by
    have hsame : db.votingSessions = r₄.votingSessions := h₄.sessions
    rw [hsame]
    exact hsm
  have hwinner : winnerIn sw payload.votingSessionId winning.id := by
    rw [← hw.winnerIn_eq, winnerIn, List.any_eq_true]
    refine ⟨session, hsdb, ?_⟩
    rw [hresult, hg.winner, hsid]
    simp
  obtain ⟨p, hp, hpid, hsub⟩ := (hwin sw rfl).winner winning hwm hwinner hg.submitted
  refine ⟨⟨x, hx, hid, hstored.2⟩, ?_, ?_, ?_, ?_⟩
  · show ObjectionRepository.hasOpenBlockingForDecision c.decision.id db' = false
    rw [ObjectionRepository.hasOpenBlockingForDecision, hobjections, hproposals, hdid]
    exact hblock s₅ rfl hg.unblocked
  · refine ⟨session, hsessions.symm ▸ hsdb, hsid, hsd.trans hdid.symm, hg.closed, ?_, ?_⟩
    · rw [hresult']
      exact hg.valid
    · rw [hresult']
      exact hg.winner
  · refine ⟨p, hproposals.symm ▸ hp, hpid, ?_, hsub⟩
    rw [hw.proposal_decision hwm hp hpid, hwd]
    exact hdid.symm
  · have hmem : c.decision.merge (DecisionLockService.locked c.decision env.now) env.dbNow x ∈
        db'.decisions := by
      rw [hdecisions]
      exact (mem_replace hx).mpr (Or.inl rfl)
    obtain ⟨hlocked, hsnapshot⟩ := DecisionLockService.locked_recorded hstored.1 hg.active
    refine ⟨_, hmem, hid, hlocked, snapshot, rfl, ?_⟩
    rw [(DecisionLockService.buildSnapshot_ends hg.built).1]
    exact hsnapshot.symm

/-- **A lock keeps its guards** in every interleaving of locks, objections, transitions
and edits in which no commit disturbs a lock: when a step commits a lock, the decision
was active just before, and right after it no blocking objection is open, the result of
the closed session is valid with the recorded winner, that is submitted, and the
recorded decision is the committed one. -/
theorem lock_guards_hold (hrun : Interleaving dep Undisturbed (Config.idle db₀) c)
    (hact : c.act Db.commit (Op.program dep) a = some c') :
    ∀ l ∈ c'.state.decisionLocks, l ∉ c.state.decisionLocks →
      (∃ x ∈ c.state.decisions, x.id = l.decisionId ∧ x.status = .active) ∧
      (ObjectionRepository.hasOpenBlockingForDecision l.decisionId c'.state = false) ∧
      (∃ x ∈ c'.state.votingSessions, x.id = l.votingSessionId ∧ x.decisionId = l.decisionId ∧
        x.status = .closed ∧ ∃ r, r = VotingService.result x
            (VotingRepository.countVotes x.id c'.state)
            (VotingRepository.listTallies x.id c'.state) ∧
          r.resultValid = true ∧ r.winnerProposalId = some l.winningProposalId) ∧
      (∃ p ∈ c'.state.proposals, p.id = l.winningProposalId ∧ p.decisionId = l.decisionId ∧
        p.status = .submitted) ∧
      ∃ x ∈ c'.state.decisions, x.id = l.decisionId ∧ x.status = .locked ∧ ∃ snapshot,
        l.snapshot = Snapshot.toJson snapshot ∧
        snapshot.decision = DecisionLockService.decisionSnapshot x := by
  have h := (besideConfig_idle dep db₀).run hrun
  intro l hl hnew
  rcases Config.act_commit hact with hs | ⟨i, t, w, f, g, -, ht, hnone, hr, hw⟩
  · rw [hs] at hl
    exact absurd hl hnew
  have htm : t ∈ c.threads := List.mem_of_getElem? ht
  have hends := h.traced t htm
  have hdec := h.decision t htm hnone
  have hblock := h.unblocked t htm hnone
  have hwin := h.winner t htm hnone
  have hcommit := h.commit htm hr hw
  rw [hr] at hends
  generalize hop : t.op = op at hends hdec hblock hwin hcommit
  cases op with
  | createLock env user w₀ d payload =>
      obtain ⟨_, hends⟩ := Request.map_commits hends
      obtain hold | hg := DecisionLockService.create_guarded hends hw
        (fun s₀ hs₀ => (h.below t htm s₀ hs₀).2) hdec hblock hwin l hl
      · exact absurd hold hnew
      · obtain ⟨x, hx, hid, hd, hclosed, hvalid, hwinner⟩ := hg.session
        exact ⟨hg.active, hg.unblocked, ⟨x, hx, hid, hd, hclosed, _, rfl, hvalid, hwinner⟩,
          hg.winner,
          hg.recorded⟩
  | _ =>
      -- no other request adds a lock
      exfalso
      generalize hc : c'.state.core = core at hcommit
      have hlocks : c'.state.decisionLocks = core.decisionLocks := congrArg Core.decisionLocks hc
      rw [hlocks] at hl
      cases hcommit with
      | lock => contradiction
      | _ => exact hnew hl

/-- A lock with a harmless request beside it: an objection that does not block. -/
def Sample.undisturbed : List (Action Op) :=
  .start lock :: List.replicate 6 (.advance 0) ++
    .start (.createObjection (env 13 70) bob 10 20 30 ⟨.major, "Cost", "Too dear"⟩) ::
      List.replicate 5 (.advance 1) ++ List.replicate 9 (.advance 0)

theorem lock_guards_hold_sample : ∃ c c',
    Interleaving Sample.dep Undisturbed (Config.idle Sample.closed) c ∧
      c.act Db.commit (Op.program Sample.dep) (.advance 0) = some c' ∧
      c.state.decisionLocks.length = 0 ∧ c'.state.objections.length = 1 ∧
      ∃ l ∈ c'.state.decisionLocks,
        ObjectionRepository.hasOpenBlockingForDecision l.decisionId c'.state = false := by
  obtain ⟨c, hc, h⟩ := Option.map_eq_some_iff.mp (show ((Config.idle Sample.closed).acts
    Db.commit (Op.program Sample.dep) Undisturbed Sample.undisturbed).map (fun c =>
      (c.state.decisionLocks.length,
        (c.act Db.commit (Op.program Sample.dep) (.advance 0)).map fun c' =>
        (c'.state.objections.length, c'.state.decisionLocks.length))) =
          some (0, some (1, 1)) by decide +kernel)
  obtain ⟨hbefore, h⟩ := Prod.mk.inj h
  obtain ⟨c', hc', h⟩ := Option.map_eq_some_iff.mp h
  obtain ⟨hobjections, hafter⟩ := Prod.mk.inj h
  have hrun : Interleaving Sample.dep Undisturbed (Config.idle Sample.closed) c := Run.of_acts hc
  obtain ⟨l, hl⟩ := List.exists_mem_of_length_pos (hafter.symm ▸ Nat.one_pos)
  have hnew : l ∉ c.state.decisionLocks := by
    rw [List.length_eq_zero_iff.mp hbefore]
    exact List.not_mem_nil
  exact ⟨c, c', hrun, hc', hbefore, hobjections, l, hl, (lock_guards_hold hrun hc' l hl hnew).2.1⟩

/-- A blocking objection that is committed between the checks of a lock and its commit. -/
def Sample.disturbed : List (Action Op) :=
  .start lock :: List.replicate 6 (.advance 0) ++
    .start (.createObjection (env 13 70) bob 10 20 30 ⟨.blocking, "Cost", "Too dear"⟩) ::
      List.replicate 5 (.advance 1) ++ List.replicate 9 (.advance 0)

/-- A decision is locked although a blocking objection is open. -/
theorem lock_past_objection : ∃ c c',
    Interleaving Sample.dep (Starts Op.isBesideLock) (Config.idle Sample.closed) c ∧
      c.act Db.commit (Op.program Sample.dep) (.advance 0) = some c' ∧
      c.state.decisionLocks.length = 0 ∧
      ∃ l ∈ c'.state.decisionLocks,
        ObjectionRepository.hasOpenBlockingForDecision l.decisionId c'.state = true := by
  obtain ⟨c, hc, h⟩ := Option.map_eq_some_iff.mp (show ((Config.idle Sample.closed).acts
    Db.commit (Op.program Sample.dep) (Starts Op.isBesideLock) Sample.disturbed).map (fun c =>
      (c.state.decisionLocks.length,
        (c.act Db.commit (Op.program Sample.dep) (.advance 0)).map fun c' =>
        c'.state.decisionLocks.map fun l =>
          ObjectionRepository.hasOpenBlockingForDecision l.decisionId c'.state)) =
            some (0, some [true]) by decide +kernel)
  obtain ⟨hbefore, h⟩ := Prod.mk.inj h
  obtain ⟨c', hc', h⟩ := Option.map_eq_some_iff.mp h
  have hmem : true ∈ c'.state.decisionLocks.map fun l =>
      ObjectionRepository.hasOpenBlockingForDecision l.decisionId c'.state := by
    rw [h]
    exact List.mem_cons_self
  obtain ⟨l, hl, hopen⟩ := List.mem_map.mp hmem
  exact ⟨c, c', Run.of_acts hc, hc', hbefore, l, hl, hopen⟩

end

end ForkRoom
