/-
# `System.Steps` — what an atomic operation can do

The tables that a lock depends on are the *core*: decisions, proposals,
objections, sessions, the two snapshots, ballots and locks.  `CoreStep` lists
what one atomic operation can do to the core, with the guards it has checked;
`Op.exec_step` derives it from the service methods, and every invariant of
atomic runs is then a case analysis over it.

An `UPDATE` of an atomic operation replaces the stored row: the row it has
loaded is the stored one, so that no column is left behind.
-/
import ForkRoom.System.Footprint

namespace ForkRoom

open Optimistic Rows

/-! ## The core -/

structure Core where
  decisions : List Decision
  proposals : List Proposal
  objections : List Objection
  votingSessions : List VotingSession
  votingEligibleVoters : List VotingEligibleVoter
  votingSessionProposals : List VotingSessionProposal
  votes : List Vote
  decisionLocks : List DecisionLock

def Tables.core (t : Tables) : Core :=
  { decisions := t.decisions
    proposals := t.proposals
    objections := t.objections
    votingSessions := t.votingSessions
    votingEligibleVoters := t.votingEligibleVoters
    votingSessionProposals := t.votingSessionProposals
    votes := t.votes
    decisionLocks := t.decisionLocks }

/-- Writes to tables outside the core. -/
def Write.aside : Write → Bool
  | addUser _ | addWorkspace _ | setWorkspace _ _ | addMember _ | setMember _ _ | deleteMember _
  | addCriterion _ | setCriterion _ _ | deleteCriterion _ | addScore _ | setScore _ _
  | addStatusEvent _ | addReview _ | setReview _ _ | addRevision _ | addOutboxEvent _ => true
  | _ => false

/-- Tables outside the core whose rows are not deleted by a cascade into it. -/
def Target.aside : Target → Bool
  | users | workspaceMembers | decisionCriteria | proposalScores | objectionStatusEvents
  | decisionReviews | decisionRevisions | integrationOutboxEvents => true
  | _ => false

theorem Write.aside_of_target {w : Write} (h : w.target.aside) : w.aside := by
  cases w <;> first | rfl | nomatch h

theorem Write.core_run_aside {w : Write} (h : w.aside) (t : Tables) :
    (w.run t).core = t.core := by
  cases w <;> first | rfl | nomatch h

/-- What each of the writes leaves alone, all of them leave alone. -/
theorem Tables.write_keeps {β : Type} (f : Tables → β) {p : Write → Prop}
    (hf : ∀ w t, p w → f (w.run t) = f t) :
    ∀ {ws : List Write} (t : Tables), (∀ w ∈ ws, p w) → f (t.write ws) = f t := by
  intro ws
  induction ws with
  | nil =>
      intro t _
      rfl
  | cons w ws ih =>
      intro t h
      have hrest : f ((w.run t).write ws) = f (w.run t) :=
        ih _ fun x hx => h x (List.mem_cons_of_mem _ hx)
      exact hrest.trans (hf w t (h w List.mem_cons_self))

theorem Tables.core_write_aside {ws : List Write} (t : Tables) (h : ∀ w ∈ ws, w.aside) :
    (t.write ws).core = t.core :=
  Tables.write_keeps Tables.core (fun _ t hw => Write.core_run_aside hw t) t h

/-- Revisions are only ever inserted. -/
theorem Tables.revisions_write {ws : List Write} (t : Tables)
    (h : ∀ w ∈ ws, w.target ≠ .decisionRevisions) :
    (t.write ws).decisionRevisions = t.decisionRevisions := by
  refine Tables.write_keeps Tables.decisionRevisions ?_ t h
  intro w t hw
  cases w <;> first | rfl | exact absurd rfl hw

/-- Reviews are inserted and updated, and go with nothing else. -/
theorem Tables.reviews_write {ws : List Write} (t : Tables)
    (h : ∀ w ∈ ws, w.target ≠ .decisionReviews) :
    (t.write ws).decisionReviews = t.decisionReviews := by
  refine Tables.write_keeps Tables.decisionReviews ?_ t h
  intro w t hw
  cases w <;> first | rfl | exact absurd rfl hw

theorem Tables.write_append (ws ws' : List Write) (t : Tables) :
    t.write (ws ++ ws') = (t.write ws).write ws' :=
  List.foldl_append

/-- The core after a write depends on the core before it. -/
theorem Write.core_run_congr (w : Write) {t t' : Tables} (h : t.core = t'.core) :
    (w.run t).core = (w.run t').core := by
  cases t
  cases t'
  simp only [Tables.core, Core.mk.injEq] at h
  obtain ⟨rfl, rfl, rfl, rfl, rfl, rfl, rfl, rfl⟩ := h
  cases w <;> rfl

theorem Tables.core_write_congr : ∀ (ws : List Write) {t t' : Tables}, t.core = t'.core →
    (t.write ws).core = (t'.write ws).core
  | [], _, _, h => h
  | w :: ws, _, _, h => core_write_congr ws (w.core_run_congr h)

/-- Proposals change by writes to their table and by cascades. -/
theorem Tables.proposals_write {ws : List Write} (t : Tables)
    (h : ∀ w ∈ ws, w.target ≠ .proposals ∧ w.cascades = false) :
    (t.write ws).proposals = t.proposals := by
  refine Tables.write_keeps Tables.proposals ?_ t h
  rintro w t ⟨hw, hcascades⟩
  cases w <;> first | rfl | exact absurd rfl hw | nomatch hcascades

/-- What is staged aside from the core makes no difference to it. -/
theorem Tables.core_write_after {ws ws' : List Write} (h : ∀ w ∈ ws, w.aside) (t : Tables) :
    (t.write (ws ++ ws')).core = (t.write ws').core := by
  rw [Tables.write_append]
  exact core_write_congr ws' (core_write_aside t h)

theorem stage_aside {dep : Deployment} {env : Env} {w id : UUID} {e : IntegrationEventType}
    {p : Json} : ∀ x ∈ stage dep env w e id p, x.aside := by
  intro x hx
  rw [mem_stage hx]
  rfl

theorem staged_aside {c : Prop} [Decidable c] {dep : Deployment} {env : Env} {w id : UUID}
    {e : IntegrationEventType} {p : Json} :
    ∀ x ∈ (if c then stage dep env w e id p else []), x.aside := by
  intro x hx
  split at hx
  · exact stage_aside x hx
  · nomatch hx

/-! ## Updates of the stored row -/

/-- The same decision as far as its snapshot goes. -/
structure Decision.SameRecord (d d' : Decision) : Prop where
  id : d'.id = d.id
  workspaceId : d'.workspaceId = d.workspaceId
  createdById : d'.createdById = d.createdById
  title : d'.title = d.title
  summary : d'.summary = d.summary
  category : d'.category = d.category
  dueAt : d'.dueAt = d.dueAt
  reviewAt : d'.reviewAt = d.reviewAt

/-- The decision written is the current object, up to `updated_at`. -/
theorem Db.setDecision_run {db : Db} {d : Decision} (hd : d ∈ db.decisions) (current : Decision)
    (at_ : Datetime) (hid : current.id = d.id) (hw : current.workspaceId = d.workspaceId)
    (hu : current.createdById = d.createdById) :
    ∃ d', current.SameRecord d' ∧ d'.status = current.status ∧
      (Write.setDecision d current at_).run db.toTables =
        { db.toTables with decisions := replace d d' db.decisions } := by
  obtain ⟨d', hd', heq⟩ := update_fresh db.valid.pkDecisions hd current (d.merge current at_)
  refine ⟨d', ?_, ?_, by rw [← heq]; rfl⟩
  · rcases hd' with ⟨rfl, rfl⟩ | rfl
    · exact ⟨rfl, rfl, rfl, rfl, rfl, rfl, rfl, rfl⟩
    · constructor <;> simp only [Decision.merge, column_fresh, hid, hw, hu]
  · rcases hd' with ⟨rfl, rfl⟩ | rfl
    · rfl
    · simp only [Decision.merge, column_fresh]

theorem Db.setProposal_run {db : Db} {p : Proposal} (hp : p ∈ db.proposals) (current : Proposal)
    (at_ : Datetime) :
    ∃ p', p'.id = p.id ∧ p'.decisionId = p.decisionId ∧ p'.title = current.title ∧
      p'.summary = current.summary ∧ p'.content = current.content ∧ p'.status = current.status ∧
      (Write.setProposal p current at_).run db.toTables =
        { db.toTables with proposals := replace p p' db.proposals } := by
  obtain ⟨p', hp', heq⟩ := update_fresh db.valid.pkProposals hp current (p.merge current at_)
  have hrun : (Write.setProposal p current at_).run db.toTables =
      { db.toTables with proposals := replace p p' db.proposals } := by
    rw [← heq]
    rfl
  refine ⟨p', ?_, ?_, ?_, ?_, ?_, ?_, hrun⟩ <;> rcases hp' with ⟨rfl, rfl⟩ | rfl <;>
    simp only [Proposal.merge, column_fresh]

theorem Db.setObjection_run {db : Db} {o : Objection} (ho : o ∈ db.objections)
    (current : Objection) (at_ : Datetime) :
    ∃ o', o'.id = o.id ∧ o'.proposalId = o.proposalId ∧
      (Write.setObjection o current at_).run db.toTables =
        { db.toTables with objections := replace o o' db.objections } := by
  obtain ⟨o', ho', heq⟩ := update_fresh db.valid.pkObjections ho current (o.merge current at_)
  have hrun : (Write.setObjection o current at_).run db.toTables =
      { db.toTables with objections := replace o o' db.objections } := by
    rw [← heq]
    rfl
  refine ⟨o', ?_, ?_, hrun⟩ <;> rcases ho' with ⟨rfl, rfl⟩ | rfl <;> rfl

theorem Db.setSession_run {db : Db} {s : VotingSession} (hs : s ∈ db.votingSessions)
    (current : VotingSession) (at_ : Datetime) :
    ∃ s', s'.id = s.id ∧ s'.decisionId = s.decisionId ∧
      s'.quorumPercentage = s.quorumPercentage ∧ s'.status = current.status ∧
      s'.eligibleVoterCount = current.eligibleVoterCount ∧ s'.openedAt = current.openedAt ∧
      (Write.setSession s current at_).run db.toTables =
        { db.toTables with votingSessions := replace s s' db.votingSessions } := by
  obtain ⟨s', hs', heq⟩ := update_fresh db.valid.pkVotingSessions hs current (s.merge current at_)
  have hrun : (Write.setSession s current at_).run db.toTables =
      { db.toTables with votingSessions := replace s s' db.votingSessions } := by
    rw [← heq]
    rfl
  refine ⟨s', ?_, ?_, ?_, ?_, ?_, ?_, hrun⟩ <;> rcases hs' with ⟨rfl, rfl⟩ | rfl <;>
    simp only [VotingSession.merge, column_fresh]

/-- A changed session is written over the stored row, column by column. -/
theorem Db.setSession_stale {db : Db} {loaded x : VotingSession} (hx : x ∈ db.votingSessions)
    (hid : x.id = loaded.id) (current : VotingSession) (hne : current ≠ loaded) (at_ : Datetime) :
    (Write.setSession loaded current at_).run db.toTables =
      { db.toTables with
        votingSessions := replace x (loaded.merge current at_ x) db.votingSessions } := by
  have hrows := update_stale db.valid.pkVotingSessions hx hid hne (loaded.merge current at_)
  rw [← hrows]
  rfl

/-! ### Updates of a row that may have changed since it was loaded -/

section
variable {db : Db} {at_ : Datetime}

theorem Db.setDecision_cases {loaded current : Decision}
    (hfound : (Write.setDecision loaded current at_).stale db.toTables = false) :
    (current = loaded ∧ (Write.setDecision loaded current at_).run db.toTables = db.toTables) ∨
      ∃ x ∈ db.decisions, x.id = loaded.id ∧
        (Write.setDecision loaded current at_).run db.toTables =
          { db.toTables with
            decisions := replace x (loaded.merge current at_ x) db.decisions } := by
  rcases update_cases db.valid.pkDecisions hfound (loaded.merge current at_) with
    ⟨hsame, hrows⟩ | ⟨x, hx, hid, hrows⟩
  · exact Or.inl ⟨hsame, by rw [Write.run, hrows]⟩
  · exact Or.inr ⟨x, hx, hid, by rw [Write.run, hrows]⟩

theorem Db.setProposal_cases {loaded current : Proposal}
    (hfound : (Write.setProposal loaded current at_).stale db.toTables = false) :
    (current = loaded ∧ (Write.setProposal loaded current at_).run db.toTables = db.toTables) ∨
      ∃ x ∈ db.proposals, x.id = loaded.id ∧
        (Write.setProposal loaded current at_).run db.toTables =
          { db.toTables with
            proposals := replace x (loaded.merge current at_ x) db.proposals } := by
  rcases update_cases db.valid.pkProposals hfound (loaded.merge current at_) with
    ⟨hsame, hrows⟩ | ⟨x, hx, hid, hrows⟩
  · exact Or.inl ⟨hsame, by rw [Write.run, hrows]⟩
  · exact Or.inr ⟨x, hx, hid, by rw [Write.run, hrows]⟩

theorem Db.setObjection_cases {loaded current : Objection}
    (hfound : (Write.setObjection loaded current at_).stale db.toTables = false) :
    (current = loaded ∧ (Write.setObjection loaded current at_).run db.toTables = db.toTables) ∨
      ∃ x ∈ db.objections, x.id = loaded.id ∧
        (Write.setObjection loaded current at_).run db.toTables =
          { db.toTables with
            objections := replace x (loaded.merge current at_ x) db.objections } := by
  rcases update_cases db.valid.pkObjections hfound (loaded.merge current at_) with
    ⟨hsame, hrows⟩ | ⟨x, hx, hid, hrows⟩
  · exact Or.inl ⟨hsame, by rw [Write.run, hrows]⟩
  · exact Or.inr ⟨x, hx, hid, by rw [Write.run, hrows]⟩

theorem Db.setReview_cases {loaded current : DecisionReview}
    (hfound : (Write.setReview loaded current).stale db.toTables = false) :
    (current = loaded ∧ (Write.setReview loaded current).run db.toTables = db.toTables) ∨
      ∃ x ∈ db.decisionReviews, x.id = loaded.id ∧
        (Write.setReview loaded current).run db.toTables =
          { db.toTables with
            decisionReviews := replace x (loaded.merge current x) db.decisionReviews } := by
  rcases update_cases db.valid.pkDecisionReviews hfound (loaded.merge current) with
    ⟨hsame, hrows⟩ | ⟨x, hx, hid, hrows⟩
  · exact Or.inl ⟨hsame, by rw [Write.run, hrows]⟩
  · exact Or.inr ⟨x, hx, hid, by rw [Write.run, hrows]⟩

end

/-! ## The steps -/

/-- What an atomic lock has checked, all at the state `db`. -/
structure CanLock (env : Env) (db : Db) (decision : Decision) (session : VotingSession)
    (result : VotingResultResponse) (winning : Proposal) (snapshot : Snapshot) : Prop where
  decision_mem : decision ∈ db.decisions
  active : decision.status = .active
  unlocked : ∀ l ∈ db.decisionLocks, l.decisionId ≠ decision.id
  unblocked : ObjectionRepository.hasOpenBlockingForDecision decision.id db = false
  session_mem : session ∈ db.votingSessions
  session_decision : session.decisionId = decision.id
  closed : session.status = .closed
  counted : result = VotingService.result session (VotingRepository.countVotes session.id db)
    (VotingRepository.listTallies session.id db)
  valid : result.resultValid = true
  winner : result.winnerProposalId = some winning.id
  winning_mem : winning ∈ db.proposals
  winning_decision : winning.decisionId = decision.id
  submitted : winning.status = .submitted
  built : (DecisionLockService.buildSnapshot env decision winning result).run db = .ok snapshot

/-- A decision that proposals and objections of its may be changed under. -/
def Decision.Mutable (d : Decision) : Prop := d.status = .draft ∨ d.status = .active

theorem Decision.mutable_iff {d : Decision} :
    d.status ∈ [DecisionStatus.draft, DecisionStatus.active] ↔ d.Mutable := by
  simp only [List.mem_cons, List.not_mem_nil, or_false, Decision.Mutable]

/-- What one atomic operation can do to the core. -/
inductive CoreStep (dep : Deployment) (op : Op) (db : Db) : Core → Prop where
  | same : CoreStep dep op db db.core
  | addDecision (row : Decision) (hs : row.status = .draft) :
      CoreStep dep op db { db.core with decisions := db.decisions ++ [row] }
  | editDecision (d d' : Decision) (hd : d ∈ db.decisions) (hid : d'.id = d.id)
      (hw : d'.workspaceId = d.workspaceId) (hm : d.Mutable) (hs : d'.status = d.status) :
      CoreStep dep op db { db.core with decisions := replace d d' db.decisions }
  | moveDecision (d d' : Decision) (hd : d ∈ db.decisions) (hr : d.SameRecord d')
      (hop : ∃ env user w, op = .transitionDecision env user w d.id ⟨d'.status⟩)
      (hs : d'.status ∈ DecisionService.allowedTransitions d.status) :
      CoreStep dep op db { db.core with decisions := replace d d' db.decisions }
  | deleteDecisions (gone : UUID → Bool) (hr : db.restrictsDecisions gone = false) :
      CoreStep dep op db (db.withoutDecisions gone).core
  | addProposal (d : Decision) (row : Proposal) (hd : d ∈ db.decisions)
      (hrow : row.decisionId = d.id) (hm : d.Mutable) (hs : row.status = .draft) :
      CoreStep dep op db { db.core with proposals := db.proposals ++ [row] }
  | editProposal (d : Decision) (p p' : Proposal) (hd : d ∈ db.decisions) (hp : p ∈ db.proposals)
      (hdp : p.decisionId = d.id) (hm : d.Mutable) (hid : p'.id = p.id)
      (hdp' : p'.decisionId = p.decisionId) (hs : p.status = .draft) (hs' : p'.status = .draft) :
      CoreStep dep op db { db.core with proposals := replace p p' db.proposals }
  | moveProposal (d : Decision) (p p' : Proposal) (hd : d ∈ db.decisions) (hp : p ∈ db.proposals)
      (hdp : p.decisionId = d.id) (hm : d.Mutable) (hid : p'.id = p.id)
      (hdp' : p'.decisionId = p.decisionId)
      (htext : p'.title = p.title ∧ p'.summary = p.summary ∧ p'.content = p.content)
      (hop : ∃ env user w, op = .transitionProposal env user w d.id p.id ⟨p'.status⟩)
      (hs : p'.status ∈ ProposalService.proposalTransitions p.status) :
      CoreStep dep op db { db.core with proposals := replace p p' db.proposals }
  | deleteProposal (d : Decision) (p : Proposal) (hd : d ∈ db.decisions) (hp : p ∈ db.proposals)
      (hdp : p.decisionId = d.id) (hm : d.Mutable) (hs : p.status = .draft)
      (hr : db.restrictsProposals (fun id => id = p.id) = false) :
      CoreStep dep op db (db.withoutProposals fun id => id = p.id).core
  | addObjection (d : Decision) (p : Proposal) (row : Objection) (hd : d ∈ db.decisions)
      (hp : p ∈ db.proposals) (hdp : p.decisionId = d.id) (hrow : row.proposalId = p.id)
      (hm : d.Mutable) (hs : p.status = .submitted) :
      CoreStep dep op db { db.core with objections := db.objections ++ [row] }
  | setObjection (d : Decision) (p : Proposal) (o o' : Objection) (hd : d ∈ db.decisions)
      (hp : p ∈ db.proposals) (hdp : p.decisionId = d.id) (ho : o ∈ db.objections)
      (hop : o.proposalId = p.id) (hm : d.Mutable) (hid : o'.id = o.id)
      (hop' : o'.proposalId = o.proposalId) :
      CoreStep dep op db { db.core with objections := replace o o' db.objections }
  | addSession (d : Decision) (row : VotingSession) (hd : d ∈ db.decisions)
      (ha : d.status = .active) (hrow : row.decisionId = d.id) (hs : row.status = .draft)
      (hc : row.eligibleVoterCount = 0) (ho : row.openedAt = none) :
      CoreStep dep op db { db.core with votingSessions := db.votingSessions ++ [row] }
  | openSession (env : Env) (d : Decision) (s s' : VotingSession) (voters : List UUID)
      (proposals : List Proposal) (hd : d ∈ db.decisions) (ha : d.status = .active)
      (hs : s ∈ db.votingSessions) (hds : s.decisionId = d.id) (hdraft : s.status = .draft)
      (hid : s'.id = s.id) (hds' : s'.decisionId = s.decisionId) (hopen : s'.status = .open)
      (hcount : s'.eligibleVoterCount = voters.length) (hne : voters ≠ [])
      (ho : s'.openedAt ≠ none)
      (hvoters : voters =
        WorkspaceRepository.listVotingEligibleUserIds env.tie d.workspaceId db)
      (hproposals : proposals =
        ProposalRepository.listForDecision env.tie d.id (some .submitted) db) :
      CoreStep dep op db { db.core with
        votingSessions := replace s s' db.votingSessions
        votingEligibleVoters := db.votingEligibleVoters ++ voters.map fun u => ⟨s.id, u⟩
        votingSessionProposals :=
          db.votingSessionProposals ++ proposals.map fun p => ⟨s.id, p.id⟩ }
  | castVote (s : VotingSession) (row : Vote) (hs : s ∈ db.votingSessions)
      (hopen : s.status = .open) (hrow : row.votingSessionId = s.id)
      (hv : VotingRepository.isEligibleVoter s.id row.voterId db)
      (hp : VotingRepository.isSessionProposal s.id row.proposalId db)
      (hop : ∃ env user w, op = .castVote env user w s.decisionId s.id ⟨row.proposalId⟩) :
      CoreStep dep op db { db.core with votes := db.votes ++ [row] }
  | finishSession (s s' : VotingSession) (hs : s ∈ db.votingSessions) (hid : s'.id = s.id)
      (hds : s'.decisionId = s.decisionId) (hc : s'.eligibleVoterCount = s.eligibleVoterCount)
      (hq : s'.quorumPercentage = s.quorumPercentage) (ho : s'.openedAt = s.openedAt)
      (hst : (s.status = .open ∧ s'.status = .closed ∧
          ∃ env user w, op = .closeSession env user w s.decisionId s.id) ∨
        ((s.status = .draft ∨ s.status = .open) ∧ s'.status = .cancelled ∧
          ∃ env user w, op = .cancelSession env user w s.decisionId s.id)) :
      CoreStep dep op db { db.core with votingSessions := replace s s' db.votingSessions }
  | lock (env : Env) (user : User) (w : UUID) (d d' : Decision) (session : VotingSession)
      (result : VotingResultResponse) (winning : Proposal) (snapshot : Snapshot)
      (hop : op = .createLock env user w d.id ⟨session.id⟩)
      (hl : CanLock env db d session result winning snapshot) (hr : d.SameRecord d')
      (hs : d'.status = .locked) :
      CoreStep dep op db { db.core with
        decisions := replace d d' db.decisions
        decisionLocks := db.decisionLocks ++
          [DecisionLockService.lockRow dep env user d session.id winning.id snapshot] }

/-! ## From the service methods to the steps -/

section
variable {dep : Deployment} {op : Op} {db db' : Db} {ss : List Db} {ws : List Write}
  {rejected : CommitError → ServiceError} {env : Env} {user : User} {w d p o s : UUID}

/-- A commit that writes aside from the core. -/
theorem CoreStep.of_aside (hc : db.commit ws = .ok db') (h : ∀ w ∈ ws, w.aside) :
    CoreStep dep op db db'.core := by
  rw [(Db.commit_ok hc).1, Tables.core_write_aside _ h]
  exact .same

theorem DecisionService.create_step {payload : DecisionCreateRequest}
    {ok : Db → Except ServiceError Decision}
    (h : (DecisionService.create env user w payload).Ends ss (.ok (.commit ws ok rejected)))
    (hc : db.commit ws = .ok db') : CoreStep dep op db db'.core := by
  obtain ⟨_, _, _, row, -, -, -, rfl, -, -, -, hs, -⟩ := DecisionService.create_commits h
  rw [(Db.commit_ok hc).1]
  exact .addDecision row hs

theorem DecisionService.update_step {payload : DecisionUpdateRequest}
    {ok : Db → Except ServiceError Decision}
    (h : (DecisionService.update env user w d payload).Ends ss (.ok (.commit ws ok rejected)))
    (hss : ∀ s ∈ ss, db = s) (hc : db.commit ws = .ok db') : CoreStep dep op db db'.core := by
  obtain ⟨_, _, _, c, rfl, hctx, -, hm, -, rfl⟩ := DecisionService.update_commits h
  simp only [List.forall_mem_cons] at hss
  obtain ⟨rfl, rfl, rfl, -⟩ := hss
  obtain ⟨hd, -, -⟩ := DecisionRepository.getForWorkspace_some hctx.decision
  obtain ⟨d', hr, hs, hrun⟩ := Db.setDecision_run hd (DecisionService.assign payload c.decision)
    env.dbNow rfl rfl rfl
  rw [(Db.commit_ok hc).1, Tables.write, List.foldl, hrun]
  refine .editDecision c.decision d' hd hr.id hr.workspaceId ?_ hs
  exact Decision.mutable_iff.mp hm

theorem DecisionService.transition_step {payload : DecisionTransitionRequest}
    {ok : Db → Except ServiceError Decision}
    (h : (DecisionService.transition dep env user w d payload).Ends ss
      (.ok (.commit ws ok rejected)))
    (hss : ∀ s ∈ ss, db = s) (hc : db.commit ws = .ok db') :
    CoreStep dep (.transitionDecision env user w d payload) db db'.core := by
  obtain ⟨_, _, _, c, _, rfl, hctx, -, ht, rfl⟩ := DecisionService.transition_commits h
  simp only [List.forall_mem_cons] at hss
  obtain ⟨rfl, rfl, rfl, -⟩ := hss
  obtain ⟨hd, rfl, -⟩ := DecisionRepository.getForWorkspace_some hctx.decision
  obtain ⟨d', hr, hs, hrun⟩ := Db.setDecision_run hd
    (DecisionService.moved c.decision payload.status env.now) env.dbNow rfl rfl rfl
  have hs' : d'.status = payload.status := hs
  rw [(Db.commit_ok hc).1, Tables.core_write_after staged_aside, Tables.write, List.foldl, hrun]
  refine .moveDecision c.decision d' hd ?_ ⟨env, user, w, hs' ▸ rfl⟩ (hs' ▸ ht)
  exact ⟨hr.id, hr.workspaceId, hr.createdById, hr.title, hr.summary, hr.category, hr.dueAt,
    hr.reviewAt⟩

theorem DecisionService.delete_step {ok : Db → Except ServiceError Unit}
    (h : (DecisionService.delete user w d).Ends ss (.ok (.commit ws ok rejected)))
    (hc : db.commit ws = .ok db') : CoreStep dep op db db'.core := by
  obtain ⟨_, _, _, c, -, -, -, -, rfl⟩ := DecisionService.delete_commits h
  obtain ⟨heq, hr⟩ := Db.commit_ok hc
  rw [heq]
  exact .deleteDecisions _ (hr _ List.mem_cons_self)

theorem WorkspaceService.delete_step {ok : Db → Except ServiceError Unit}
    (h : (WorkspaceService.delete user w).Ends ss (.ok (.commit ws ok rejected)))
    (hc : db.commit ws = .ok db') : CoreStep dep op db db'.core := by
  obtain ⟨_, _, c, -, -, -, rfl⟩ := WorkspaceService.delete_commits h
  obtain ⟨heq, hr⟩ := Db.commit_ok hc
  rw [heq]
  exact .deleteDecisions _ (hr _ List.mem_cons_self)

theorem ProposalService.create_step {payload : ProposalCreateRequest}
    {ok : Db → Except ServiceError Proposal}
    (h : (ProposalService.create env user w d payload).Ends ss (.ok (.commit ws ok rejected)))
    (hss : ∀ s ∈ ss, db = s) (hc : db.commit ws = .ok db') : CoreStep dep op db db'.core := by
  obtain ⟨_, _, _, c, row, rfl, hctx, hm, -, rfl, -, hrow, -, hs, -⟩ :=
    ProposalService.create_commits h
  simp only [List.forall_mem_cons] at hss
  obtain ⟨rfl, rfl, rfl, -⟩ := hss
  obtain ⟨hd, rfl, -⟩ := DecisionRepository.getForWorkspace_some hctx.decision
  rw [(Db.commit_ok hc).1]
  exact .addProposal c.decision row hd hrow (Decision.mutable_iff.mp hm) hs

theorem ProposalService.update_step {payload : ProposalUpdateRequest}
    {ok : Db → Except ServiceError Proposal}
    (h : (ProposalService.update env user w d p payload).Ends ss (.ok (.commit ws ok rejected)))
    (hss : ∀ s ∈ ss, db = s) (hc : db.commit ws = .ok db') : CoreStep dep op db db'.core := by
  obtain ⟨_, _, _, _, c, pr, rfl, hctx, hm, hp, -, hdraft, rfl⟩ := ProposalService.update_commits h
  simp only [List.forall_mem_cons] at hss
  obtain ⟨rfl, rfl, rfl, rfl, -⟩ := hss
  obtain ⟨hd, rfl, -⟩ := DecisionRepository.getForWorkspace_some hctx.decision
  obtain ⟨hp, -, hpd⟩ := ProposalRepository.getForDecision_some hp
  obtain ⟨p', hid, hd', -, -, -, hs, hrun⟩ := Db.setProposal_run hp
    (ProposalService.assign payload pr) env.dbNow
  rw [(Db.commit_ok hc).1, Tables.write, List.foldl, hrun]
  exact .editProposal c.decision pr p' hd hp hpd (Decision.mutable_iff.mp hm) hid hd' hdraft
    (hs.trans hdraft)

theorem ProposalService.transition_step {payload : ProposalTransitionRequest}
    {ok : Db → Except ServiceError Proposal}
    (h : (ProposalService.transition env user w d p payload).Ends ss
      (.ok (.commit ws ok rejected)))
    (hss : ∀ s ∈ ss, db = s) (hc : db.commit ws = .ok db') :
    CoreStep dep (.transitionProposal env user w d p payload) db db'.core := by
  obtain ⟨_, _, _, _, c, pr, rfl, hctx, hm, hp, -, ht, rfl⟩ := ProposalService.transition_commits h
  simp only [List.forall_mem_cons] at hss
  obtain ⟨rfl, rfl, rfl, rfl, -⟩ := hss
  obtain ⟨hd, rfl, -⟩ := DecisionRepository.getForWorkspace_some hctx.decision
  obtain ⟨hpm, rfl, hpd⟩ := ProposalRepository.getForDecision_some hp
  obtain ⟨p', hid, hd', ht₁, ht₂, ht₃, hs, hrun⟩ := Db.setProposal_run hpm
    (ProposalService.moved pr payload.status env.now) env.dbNow
  have hs' : p'.status = payload.status := hs
  rw [(Db.commit_ok hc).1, Tables.write, List.foldl, hrun]
  exact .moveProposal c.decision pr p' hd hpm hpd (Decision.mutable_iff.mp hm) hid hd'
    ⟨ht₁, ht₂, ht₃⟩ ⟨env, user, w, hs' ▸ rfl⟩ (hs' ▸ ht)

theorem ProposalService.delete_step {ok : Db → Except ServiceError Unit}
    (h : (ProposalService.delete user w d p).Ends ss (.ok (.commit ws ok rejected)))
    (hss : ∀ s ∈ ss, db = s) (hc : db.commit ws = .ok db') : CoreStep dep op db db'.core := by
  obtain ⟨_, _, _, _, c, pr, rfl, hctx, hm, hp, -, hdraft, rfl⟩ := ProposalService.delete_commits h
  simp only [List.forall_mem_cons] at hss
  obtain ⟨rfl, rfl, rfl, rfl, -⟩ := hss
  obtain ⟨hd, rfl, -⟩ := DecisionRepository.getForWorkspace_some hctx.decision
  obtain ⟨hp, -, hpd⟩ := ProposalRepository.getForDecision_some hp
  obtain ⟨heq, hr⟩ := Db.commit_ok hc
  rw [heq]
  exact .deleteProposal c.decision pr hd hp hpd (Decision.mutable_iff.mp hm) hdraft
    (hr _ List.mem_cons_self)

theorem ObjectionService.create_step {payload : ObjectionCreateRequest}
    {ok : Db → Except ServiceError Objection}
    (h : (ObjectionService.create env user w d p payload).Ends ss (.ok (.commit ws ok rejected)))
    (hss : ∀ s ∈ ss, db = s) (hc : db.commit ws = .ok db') : CoreStep dep op db db'.core := by
  obtain ⟨_, _, _, _, c, row, rfl, hctx, hm, -, hsub, rfl, -, hrow, -, -⟩ :=
    ObjectionService.create_commits h
  simp only [List.forall_mem_cons] at hss
  obtain ⟨rfl, rfl, rfl, rfl, -⟩ := hss
  obtain ⟨hd, rfl, -⟩ := DecisionRepository.getForWorkspace_some hctx.decision
  obtain ⟨hp, rfl, hpd⟩ := ProposalRepository.getForDecision_some hctx.proposal
  rw [(Db.commit_ok hc).1]
  exact .addObjection c.decision c.proposal row hd hp hpd hrow (Decision.mutable_iff.mp hm) hsub

theorem ObjectionService.update_step {payload : ObjectionUpdateRequest}
    {ok : Db → Except ServiceError Objection}
    (h : (ObjectionService.update env user w d p o payload).Ends ss (.ok (.commit ws ok rejected)))
    (hss : ∀ s ∈ ss, db = s) (hc : db.commit ws = .ok db') : CoreStep dep op db db'.core := by
  obtain ⟨_, _, _, _, _, c, ob, rfl, hctx, hm, ho, -, -, rfl⟩ := ObjectionService.update_commits h
  simp only [List.forall_mem_cons] at hss
  obtain ⟨rfl, rfl, rfl, rfl, rfl, -⟩ := hss
  obtain ⟨hd, rfl, -⟩ := DecisionRepository.getForWorkspace_some hctx.decision
  obtain ⟨hp, rfl, hpd⟩ := ProposalRepository.getForDecision_some hctx.proposal
  obtain ⟨ho, -, hop⟩ := ObjectionRepository.getForProposal_some ho
  obtain ⟨o', hid, hp', hrun⟩ := Db.setObjection_run ho (ObjectionService.assign payload ob)
    env.dbNow
  rw [(Db.commit_ok hc).1, Tables.write, List.foldl, hrun]
  exact .setObjection c.decision c.proposal ob o' hd hp hpd ho hop (Decision.mutable_iff.mp hm)
    hid hp'

theorem ObjectionService.transition_step {payload : ObjectionTransitionRequest}
    {ok : Db → Except ServiceError Objection}
    (h : (ObjectionService.transition env user w d p o payload).Ends ss
      (.ok (.commit ws ok rejected)))
    (hss : ∀ s ∈ ss, db = s) (hc : db.commit ws = .ok db') : CoreStep dep op db db'.core := by
  obtain ⟨_, _, _, _, _, c, ob, rfl, hctx, hm, ho, -, -, rfl⟩ :=
    ObjectionService.transition_commits h
  simp only [List.forall_mem_cons] at hss
  obtain ⟨rfl, rfl, rfl, rfl, rfl, -⟩ := hss
  obtain ⟨hd, rfl, -⟩ := DecisionRepository.getForWorkspace_some hctx.decision
  obtain ⟨hp, rfl, hpd⟩ := ProposalRepository.getForDecision_some hctx.proposal
  obtain ⟨ho, -, hop⟩ := ObjectionRepository.getForProposal_some ho
  obtain ⟨o', hid, hp', hrun⟩ := Db.setObjection_run ho
    (ObjectionService.moved ob user.id payload.status payload.note env.now) env.dbNow
  rw [(Db.commit_ok hc).1, Tables.write, List.foldl, hrun]
  exact .setObjection c.decision c.proposal ob o' hd hp hpd ho hop (Decision.mutable_iff.mp hm)
    hid hp'

theorem VotingService.createSession_step {payload : VotingSessionCreateRequest}
    {ok : Db → Except ServiceError VotingSession}
    (h : (VotingService.createSession env user w d payload).Ends ss (.ok (.commit ws ok rejected)))
    (hss : ∀ s ∈ ss, db = s) (hc : db.commit ws = .ok db') : CoreStep dep op db db'.core := by
  obtain ⟨_, _, _, _, c, row, rfl, hctx, ha, -, -, rfl, -, hrow, hs, hcount, ho⟩ :=
    VotingService.createSession_commits h
  simp only [List.forall_mem_cons] at hss
  obtain ⟨rfl, rfl, rfl, rfl, -⟩ := hss
  obtain ⟨hd, rfl, -⟩ := DecisionRepository.getForWorkspace_some hctx.decision
  rw [(Db.commit_ok hc).1]
  exact .addSession c.decision row hd ha hrow hs hcount ho

theorem VotingService.openSession_step {ok : Db → Except ServiceError VotingSession}
    (h : (VotingService.openSession dep env user w d s).Ends ss (.ok (.commit ws ok rejected)))
    (hss : ∀ s ∈ ss, db = s) (hc : db.commit ws = .ok db') : CoreStep dep op db db'.core := by
  obtain ⟨_, _, _, _, _, _, _, c, session, proposals, voters, _, rfl, hctx, ha, -, hs, hdraft, -, -,
    hproposals, -, hvoters, hne, rfl⟩ := VotingService.openSession_commits h
  simp only [List.forall_mem_cons] at hss
  obtain ⟨rfl, rfl, rfl, rfl, rfl, rfl, rfl, -⟩ := hss
  obtain ⟨hd, rfl, rfl⟩ := DecisionRepository.getForWorkspace_some hctx.decision
  obtain ⟨hs, -, hsd⟩ := VotingRepository.getForDecision_some hs
  obtain ⟨s', hid, hd', -, hst, hcount, ho, hrun⟩ := Db.setSession_run hs
    (VotingService.opened session voters env.now) env.dbNow
  rw [(Db.commit_ok hc).1, Tables.core_write_after stage_aside, Tables.write, List.foldl, hrun]
  exact .openSession env c.decision session s' voters proposals hd ha hs hsd hdraft hid hd' hst
    hcount hne (by rw [ho]; exact Option.some_ne_none _) hvoters hproposals

theorem VotingService.castVote_step {payload : VoteCastRequest}
    {ok : Db → Except ServiceError Vote}
    (h : (VotingService.castVote env user w d s payload).Ends ss (.ok (.commit ws ok rejected)))
    (hss : ∀ s ∈ ss, db = s) (hc : db.commit ws = .ok db') :
    CoreStep dep (.castVote env user w d s payload) db db'.core := by
  obtain ⟨_, _, _, _, _, _, c, session, rfl, -, hs, hopen, -, hv, hp, rfl⟩ :=
    VotingService.castVote_commits h
  simp only [List.forall_mem_cons] at hss
  obtain ⟨rfl, rfl, rfl, rfl, rfl, rfl, -⟩ := hss
  obtain ⟨hsm, rfl, rfl⟩ := VotingRepository.getForDecision_some hs
  rw [(Db.commit_ok hc).1]
  exact .castVote session _ hsm hopen rfl hv hp ⟨env, user, w, rfl⟩

theorem VotingService.closeSession_step {ok : Db → Except ServiceError VotingSession}
    (h : (VotingService.closeSession dep env user w d s).Ends ss (.ok (.commit ws ok rejected)))
    (hss : ∀ s ∈ ss, db = s) (hc : db.commit ws = .ok db') :
    CoreStep dep (.closeSession env user w d s) db db'.core := by
  obtain ⟨_, _, _, _, c, session, _, rfl, -, -, hs, hopen, rfl⟩ :=
    VotingService.closeSession_commits h
  simp only [List.forall_mem_cons] at hss
  obtain ⟨rfl, rfl, rfl, rfl, -⟩ := hss
  obtain ⟨hsm, rfl, rfl⟩ := VotingRepository.getForDecision_some hs
  obtain ⟨s', hid, hd', hq, hst, hcount, ho, hrun⟩ := Db.setSession_run hsm
    (VotingService.closed session env.now) env.dbNow
  rw [(Db.commit_ok hc).1, Tables.core_write_after stage_aside, Tables.write, List.foldl, hrun]
  exact .finishSession session s' hsm hid hd' hcount hq ho
    (Or.inl ⟨hopen, hst, env, user, w, rfl⟩)

theorem VotingService.cancelSession_step {ok : Db → Except ServiceError VotingSession}
    (h : (VotingService.cancelSession env user w d s).Ends ss (.ok (.commit ws ok rejected)))
    (hss : ∀ s ∈ ss, db = s) (hc : db.commit ws = .ok db') :
    CoreStep dep (.cancelSession env user w d s) db db'.core := by
  obtain ⟨_, _, _, _, c, session, rfl, -, -, hs, hst, rfl⟩ := VotingService.cancelSession_commits h
  simp only [List.forall_mem_cons] at hss
  obtain ⟨rfl, rfl, rfl, rfl, -⟩ := hss
  obtain ⟨hsm, rfl, rfl⟩ := VotingRepository.getForDecision_some hs
  obtain ⟨s', hid, hd', hq, hst', hcount, ho, hrun⟩ := Db.setSession_run hsm
    (VotingService.cancelled session env.now) env.dbNow
  rw [(Db.commit_ok hc).1, Tables.write, List.foldl, hrun]
  exact .finishSession session s' hsm hid hd' hcount hq ho
    (Or.inr ⟨hst, hst', env, user, w, rfl⟩)

/-- What a lock has checked when it is committed, whenever that was, and what it
writes. -/
theorem DecisionLockService.create_locks {payload : DecisionLockCreateRequest}
    {ok : Db → Except ServiceError DecisionLock}
    (h : (DecisionLockService.create dep env user w d payload).Ends ss
      (.ok (.commit ws ok rejected)))
    (hc : db.commit ws = .ok db') :
    ∃ s₁ s₂ s₃ s₄ s₅ r₁ r₂ r₃ r₄ r₅ r₆ sw ss' c session result winning snapshot x,
      ss = s₁ :: s₂ :: s₃ :: s₄ :: s₅ :: r₁ :: r₂ :: r₃ :: r₄ :: r₅ :: r₆ :: sw :: ss' ∧
      LockGuards env user w d payload.votingSessionId s₁ s₂ s₃ s₄ s₅ r₁ r₂ r₃ r₄ r₅ r₆ sw ss'
        c session result winning snapshot ∧
      x ∈ db.decisions ∧ x.id = c.decision.id ∧ db'.core = { db.core with
        decisions := replace x
          (c.decision.merge (DecisionLockService.locked c.decision env.now) env.dbNow x)
          db.decisions
        decisionLocks := db.decisionLocks ++
          [DecisionLockService.lockRow dep env user c.decision payload.votingSessionId winning.id
            snapshot] } := by
  obtain ⟨_, _, _, _, _, _, _, _, _, _, _, _, _, c, _, _, winning, snapshot, _, hseen, hg, rfl⟩ :=
    DecisionLockService.create_commits h
  have hfound := Db.commit_found hc _ (List.mem_append_right _ List.mem_cons_self)
  rcases Db.setDecision_cases hfound with ⟨hsame, -⟩ | ⟨x, hx, hid, hrun⟩
  · -- the status changes
    have hst : DecisionStatus.locked = c.decision.status := congrArg Decision.status hsame
    rw [hg.active] at hst
    nomatch hst
  · refine ⟨_, _, _, _, _, _, _, _, _, _, _, _, _, c, _, _, winning, snapshot, x, hseen,
      hg, hx, hid,
      ?_⟩
    rw [(Db.commit_ok hc).1, Tables.core_write_after stage_aside, Tables.write, List.foldl, hrun]
    rfl

/-- What the commit of a lock has checked, and what it writes. -/
theorem DecisionLockService.create_core {payload : DecisionLockCreateRequest}
    {ok : Db → Except ServiceError DecisionLock}
    (h : (DecisionLockService.create dep env user w d payload).Ends ss
      (.ok (.commit ws ok rejected)))
    (hss : ∀ s ∈ ss, db = s) (hc : db.commit ws = .ok db') :
    ∃ dec dec' session result winning snapshot, CanLock env db dec session result winning snapshot ∧
      dec.id = d ∧ session.id = payload.votingSessionId ∧ dec.SameRecord dec' ∧
      dec'.status = .locked ∧ db'.core = { db.core with
        decisions := replace dec dec' db.decisions
        decisionLocks := db.decisionLocks ++
          [DecisionLockService.lockRow dep env user dec session.id winning.id snapshot] } := by
  obtain ⟨_, _, _, _, _, _, _, _, _, _, _, _, ss', c, session, result, winning, snapshot,
    _, rfl, hg,
    rfl⟩ := DecisionLockService.create_commits h
  simp only [List.forall_mem_cons] at hss
  obtain ⟨rfl, rfl, rfl, rfl, rfl, rfl, rfl, rfl, rfl, rfl, rfl, rfl, hss'⟩ := hss
  obtain ⟨hd, rfl, -⟩ := DecisionRepository.getForWorkspace_some hg.context.decision
  obtain ⟨hs, hid, hsd⟩ := VotingRepository.getForDecision_some hg.readSession
  obtain ⟨hw, -, hwd⟩ := ProposalRepository.getForDecision_some hg.readWinning
  obtain ⟨d', hr, hst, hrun⟩ := Db.setDecision_run hd
    (DecisionLockService.locked c.decision env.now) env.dbNow rfl rfl rfl
  have hcan : CanLock env db c.decision session result winning snapshot :=
    ⟨hd, hg.active, DecisionLockRepository.getForDecision_none hg.unlocked, hg.unblocked, hs, hsd,
      hg.closed, hg.counted, hg.valid, hg.winner, hw, hwd, hg.submitted, hg.built.run_eq hss'⟩
  have hr' : c.decision.SameRecord d' :=
    ⟨hr.id, hr.workspaceId, hr.createdById, hr.title, hr.summary, hr.category, hr.dueAt,
      hr.reviewAt⟩
  refine ⟨c.decision, d', session, result, winning, snapshot, hcan, rfl, hid, hr', hst, ?_⟩
  rw [(Db.commit_ok hc).1, Tables.core_write_after stage_aside, Tables.write, List.foldl, hrun, hid]
  rfl

theorem DecisionLockService.create_step {payload : DecisionLockCreateRequest}
    {ok : Db → Except ServiceError DecisionLock}
    (h : (DecisionLockService.create dep env user w d payload).Ends ss
      (.ok (.commit ws ok rejected)))
    (hss : ∀ s ∈ ss, db = s) (hc : db.commit ws = .ok db') :
    CoreStep dep (.createLock env user w d payload) db db'.core := by
  obtain ⟨dec, dec', session, result, winning, snapshot, hcan, rfl, hid, hr, hst, hcore⟩ :=
    DecisionLockService.create_core h hss hc
  rw [hcore]
  exact .lock env user w dec dec' session result winning snapshot (by rw [hid]) hcan hr hst

/-- A lock request that answers has locked: the answer is the new row. -/
theorem Op.createLock_ok {payload : DecisionLockCreateRequest} {l : DecisionLock}
    (h : ((Op.createLock env user w d payload).exec dep db).1 = .ok (.lock l)) :
    ∃ dec dec' session result winning snapshot, CanLock env db dec session result winning snapshot ∧
      dec.id = d ∧ session.id = payload.votingSessionId ∧ dec.SameRecord dec' ∧
      dec'.status = .locked ∧
      l = DecisionLockService.lockRow dep env user dec session.id winning.id snapshot ∧
      ((Op.createLock env user w d payload).exec dep db).2.core = { db.core with
        decisions := replace dec dec' db.decisions
        decisionLocks := db.decisionLocks ++ [l] } := by
  obtain ⟨ss, hss, ⟨hends, -⟩ | ⟨ws, ok, rejected, hends, hc, hok⟩⟩ := Request.exec_ok Db.commit h
  · obtain ⟨r, hends', -⟩ := Request.map_replies hends
    obtain ⟨_, hr⟩ := DecisionLockService.create_answers hends'
    nomatch hr
  · obtain ⟨ok', hends', rfl⟩ := Request.map_commits_ok hends
    obtain ⟨ws', hi⟩ := DecisionLockService.create_answers hends'
    cases hi
    obtain ⟨dec, dec', session, result, winning, snapshot, hcan, hid, hsid, hr, hst, hcore⟩ :=
      DecisionLockService.create_core hends' hss hc
    -- the answer is the row with the new key
    have hl : l = DecisionLockService.lockRow dep env user dec session.id winning.id snapshot := by
      generalize (Request.exec Db.commit _ db).2 = db' at hcore hok
      have heq : db'.decisionLocks = _ := congrArg Core.decisionLocks hcore
      have hmem : DecisionLockService.lockRow dep env user dec session.id winning.id snapshot ∈
          db'.decisionLocks := by
        rw [heq]
        exact List.mem_append_right _ List.mem_cons_self
      have hrow := refresh_of_mem (fun db => db.decisionLocks) db'.valid.pkDecisionLocks hmem
      have hanswer : (refresh (fun db => db.decisionLocks) env.newId db').map Response.lock =
          .ok (.lock l) := hok
      rw [show refresh (fun db => db.decisionLocks) env.newId db' = _ from hrow] at hanswer
      cases hanswer
      rfl
    exact ⟨dec, dec', session, result, winning, snapshot, hcan, hid, hsid, hr, hst, hl, hl ▸ hcore⟩

theorem ActionReviewService.completeReview_step {r : UUID} {payload : ReviewOutcomeRequest}
    {ok : Db → Except ServiceError ReviewOutcomeResult}
    (h : (ActionReviewService.completeReview env user w d r payload).Ends ss
      (.ok (.commit ws ok rejected)))
    (hc : db.commit ws = .ok db') : CoreStep dep op db db'.core := by
  obtain ⟨_, _, _, _, _, _, -, -, -, -, -, -, -, rfl⟩ :=
    ActionReviewService.completeReview_confirms h hc
  exact .of_aside hc fun x hx => by rw [List.mem_singleton.mp hx]; rfl

/-- What a commit of an operation does to the core, if the operation has read
only the state it commits on. -/
theorem Op.commit_step {ok : Db → Except ServiceError Response}
    (hends : (op.program dep).Ends ss (.ok (.commit ws ok rejected))) (hss : ∀ s ∈ ss, db = s)
    (hc : db.commit ws = .ok db') : CoreStep dep op db db'.core := by
  have hfoot := Op.commits_footprint hends
  -- operations with nothing of the core in their footprint
  by_cases haside : ∀ x ∈ op.footprint, x.aside
  · exact .of_aside hc fun x hx => Write.aside_of_target (haside _ (hfoot x hx))
  simp only [footprint] at haside
  cases op <;> (try (exfalso; simp [Target.aside] at haside; done)) <;>
    obtain ⟨_, h⟩ := Request.map_commits hends
  case createWorkspace =>
    exact .of_aside hc (by simp [WorkspaceService.create_commits h, Write.aside])
  case updateWorkspace =>
    obtain ⟨_, _, _, -, -, -, rfl⟩ := WorkspaceService.update_commits h
    exact .of_aside hc (by simp [Write.aside])
  case deleteWorkspace => exact WorkspaceService.delete_step h hc
  case createDecision => exact DecisionService.create_step h hc
  case updateDecision => exact DecisionService.update_step h hss hc
  case transitionDecision => exact DecisionService.transition_step h hss hc
  case deleteDecision => exact DecisionService.delete_step h hc
  case createProposal => exact ProposalService.create_step h hss hc
  case updateProposal => exact ProposalService.update_step h hss hc
  case transitionProposal => exact ProposalService.transition_step h hss hc
  case deleteProposal => exact ProposalService.delete_step h hss hc
  case createObjection => exact ObjectionService.create_step h hss hc
  case updateObjection => exact ObjectionService.update_step h hss hc
  case transitionObjection => exact ObjectionService.transition_step h hss hc
  case createSession => exact VotingService.createSession_step h hss hc
  case openSession => exact VotingService.openSession_step h hss hc
  case castVote => exact VotingService.castVote_step h hss hc
  case closeSession => exact VotingService.closeSession_step h hss hc
  case cancelSession => exact VotingService.cancelSession_step h hss hc
  case createLock => exact DecisionLockService.create_step h hss hc
  case completeReview => exact ActionReviewService.completeReview_step h hc

/-- **What an atomic operation can do to the core.** -/
theorem Op.exec_step (dep : Deployment) (op : Op) (db : Db) :
    CoreStep dep op db (op.exec dep db).2.core := by
  rcases Request.exec_cases Db.commit (op.program dep) db with h | ⟨_, _, _, _, hss, hends, hc⟩
  · rw [Op.exec, h]
    exact .same
  · exact Op.commit_step hends hss hc

end

end ForkRoom
