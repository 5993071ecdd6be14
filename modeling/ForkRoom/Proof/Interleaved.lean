/-
# `Proof.Interleaved` — voting requests under every interleaving

Any number of requests on voting sessions, of membership changes and of reads,
interleaved, from a state that an atomic run reaches.  A request writes over what
it has read without looking again; that nothing goes wrong rests on the
constraints that the commit meets:

    stale open      the owner's eligible-voter row is there already
                    (open), or a time stamp of the end is (closed, cancelled)
    stale close     a cancelled session has its cancelled_at
    stale cancel    a closed session has its closed_at
    stale ballot    snapshots do not shrink

so that every commit is a `VotingStep` (`Op.commit_voting`).  The state moves
along `Forward`; the rule of rely and guarantee then does the rest.
-/
import ForkRoom.Proof.Voting

namespace ForkRoom

open Optimistic Rows

/-! ## The requests -/

/-- Requests on voting sessions, membership changes, and requests that only read. -/
def Op.isVoting : Op → Bool
  | createSession .. | openSession .. | castVote .. | closeSession .. | cancelSession .. => true
  | addMember .. | updateMemberRole .. | removeMember .. => true
  | op => op.footprint.isEmpty

/-! ## How the state moves -/

/-- What voting requests and membership changes leave in place. -/
structure Forward (db db' : Db) : Prop where
  workspaces : db'.workspaces = db.workspaces
  owners : ∀ m, m.role = .owner → (m ∈ db'.workspaceMembers ↔ m ∈ db.workspaceMembers)
  decisions : db'.decisions = db.decisions
  proposals : db'.proposals = db.proposals
  sessions : ∀ s ∈ db.votingSessions, ∃ s' ∈ db'.votingSessions, s'.id = s.id ∧
    s'.decisionId = s.decisionId ∧ (s.openedAt ≠ none → s'.openedAt ≠ none)
  voters : ∀ v ∈ db.votingEligibleVoters, v ∈ db'.votingEligibleVoters
  offers : ∀ p ∈ db.votingSessionProposals, p ∈ db'.votingSessionProposals
  snapshots : ∀ s ∈ db.votingSessions, s.openedAt ≠ none →
    db'.core.voterRows s.id = db.core.voterRows s.id ∧
      db'.core.offerRows s.id = db.core.offerRows s.id

theorem Forward.refl (db : Db) : Forward db db where
  workspaces := rfl
  owners _ _ := Iff.rfl
  decisions := rfl
  proposals := rfl
  sessions s hs := ⟨s, hs, rfl, rfl, id⟩
  voters _ h := h
  offers _ h := h
  snapshots _ _ _ := ⟨rfl, rfl⟩

theorem Forward.trans {db₁ db₂ db₃ : Db} (h : Forward db₁ db₂) (h' : Forward db₂ db₃) :
    Forward db₁ db₃ where
  workspaces := h'.workspaces.trans h.workspaces
  owners m hm := (h'.owners m hm).trans (h.owners m hm)
  decisions := h'.decisions.trans h.decisions
  proposals := h'.proposals.trans h.proposals
  sessions s hs := by
    obtain ⟨s', hs', hid, hd, ho⟩ := h.sessions s hs
    obtain ⟨s'', hs'', hid', hd', ho'⟩ := h'.sessions s' hs'
    exact ⟨s'', hs'', hid'.trans hid, hd'.trans hd, ho' ∘ ho⟩
  voters v hv := h'.voters v (h.voters v hv)
  offers p hp := h'.offers p (h.offers p hp)
  snapshots s hs ho := by
    obtain ⟨s', hs', hid, -, ho'⟩ := h.sessions s hs
    obtain ⟨h₁, h₂⟩ := h.snapshots s hs ho
    obtain ⟨h₃, h₄⟩ := h'.snapshots s' hs' (ho' ho)
    rw [hid] at h₃ h₄
    exact ⟨h₃.trans h₁, h₄.trans h₂⟩

/-- What holds of every state of such an interleaving. -/
structure VotingState (db : Db) : Prop where
  owner : OwnerInv db
  voting : VotingInv db.core
  ownerEligible : OwnerEligible db

theorem Reachable.votingState {dep : Deployment} {db : Db} (h : Reachable dep db) :
    VotingState db :=
  ⟨h.ownerInv, h.votingInv, h.ownerEligible⟩

/-- What a commit of such a request does. -/
structure VotingCommit (db db' : Db) : Prop where
  workspaces : db'.workspaces = db.workspaces
  owners : ∀ m, m.role = .owner → (m ∈ db'.workspaceMembers ↔ m ∈ db.workspaceMembers)
  core : db'.core = db.core ∨ VotingStep db db'.core

section
variable {db db' : Db}

theorem VotingStep.same (h : VotingStep db db'.core) : db'.decisions = db.decisions ∧
    db'.proposals = db.proposals := by
  have hd : db'.decisions = db'.core.decisions := rfl
  have hp : db'.proposals = db'.core.proposals := rfl
  rw [hd, hp]
  generalize db'.core = c at h
  cases h <;> exact ⟨rfl, rfl⟩

/-- A step of a voting request keeps each session, with at most one move of its
status, and the snapshots of those that have been opened. -/
theorem VotingStep.sessions {c : Core} (h : VotingStep db c) : ∀ s ∈ db.votingSessions,
    ∃ s' ∈ c.votingSessions, s'.id = s.id ∧ s'.decisionId = s.decisionId ∧
      (s.openedAt ≠ none → s'.openedAt ≠ none) ∧ s.status.Advances s'.status := by
  intro x hx
  cases h with
  | addSession row => exact ⟨x, List.mem_append_left _ hx, rfl, rfl, id, Or.inl rfl⟩
  | openSession s s' voters proposals hs hdraft hid hd hopen ho =>
      by_cases hk : x.id = s.id
      · rw [eq_of_key db.valid.pkVotingSessions hx hs hk]
        refine ⟨s', (mem_replace_session hs).mpr (Or.inl rfl), hid, hd, fun _ => ho, ?_⟩
        rw [hdraft, hopen]
        exact Or.inr (by decide)
      · exact ⟨x, (mem_replace_session hs).mpr (Or.inr ⟨hx, hk⟩), rfl, rfl, id, Or.inl rfl⟩
  | castVote => exact ⟨x, hx, rfl, rfl, id, Or.inl rfl⟩
  | finishSession s s' hs hid hd hc ho hst =>
      by_cases hk : x.id = s.id
      · rw [eq_of_key db.valid.pkVotingSessions hx hs hk]
        exact ⟨s', (mem_replace_session hs).mpr (Or.inl rfl), hid, hd, fun h => ho ▸ h, hst⟩
      · exact ⟨x, (mem_replace_session hs).mpr (Or.inr ⟨hx, hk⟩), rfl, rfl, id, Or.inl rfl⟩

theorem VotingStep.snapshots {c : Core} (h : VotingStep db c) : ∀ s ∈ db.votingSessions,
    s.openedAt ≠ none →
      c.voterRows s.id = db.core.voterRows s.id ∧ c.offerRows s.id = db.core.offerRows s.id := by
  intro x hx hsome
  cases h with
  | openSession s s' voters proposals hs hdraft =>
      have hk : x.id ≠ s.id := by
        intro hk
        rw [eq_of_key db.valid.pkVotingSessions hx hs hk] at hsome
        exact hsome (db.openedAt_of_draft hs hdraft)
      exact ⟨Core.voterRows_opening_ne hk, Core.offerRows_opening_ne hk⟩
  | addSession => exact ⟨rfl, rfl⟩
  | castVote => exact ⟨rfl, rfl⟩
  | finishSession => exact ⟨rfl, rfl⟩

theorem VotingStep.grows {c : Core} (h : VotingStep db c) :
    (∀ v ∈ db.votingEligibleVoters, v ∈ c.votingEligibleVoters) ∧
      ∀ p ∈ db.votingSessionProposals, p ∈ c.votingSessionProposals := by
  cases h with
  | openSession => exact ⟨fun _ h => List.mem_append_left _ h, fun _ h => List.mem_append_left _ h⟩
  | addSession => exact ⟨fun _ h => h, fun _ h => h⟩
  | castVote => exact ⟨fun _ h => h, fun _ h => h⟩
  | finishSession => exact ⟨fun _ h => h, fun _ h => h⟩

/-- Every commit moves the state forward. -/
theorem VotingCommit.forward (h : VotingCommit db db') : Forward db db' := by
  rcases h.core with hsame | hstep
  · have hv : ∀ x, db'.core.voterRows x = db.core.voterRows x := fun x => by rw [hsame]
    have ho : ∀ x, db'.core.offerRows x = db.core.offerRows x := fun x => by rw [hsame]
    have hs : db'.votingSessions = db.votingSessions := congrArg Core.votingSessions hsame
    have he : db'.votingEligibleVoters = db.votingEligibleVoters :=
      congrArg Core.votingEligibleVoters hsame
    have hp : db'.votingSessionProposals = db.votingSessionProposals :=
      congrArg Core.votingSessionProposals hsame
    exact
      { workspaces := h.workspaces
        owners := h.owners
        decisions := congrArg Core.decisions hsame
        proposals := congrArg Core.proposals hsame
        sessions := fun s hmem => ⟨s, hs.symm ▸ hmem, rfl, rfl, id⟩
        voters := fun v hv => he.symm ▸ hv
        offers := fun p hmem => hp.symm ▸ hmem
        snapshots := fun s _ _ => ⟨hv s.id, ho s.id⟩ }
  · exact
      { workspaces := h.workspaces
        owners := h.owners
        decisions := hstep.same.1
        proposals := hstep.same.2
        sessions := fun s hs => by
          obtain ⟨s', hs', hid, hd, ho, -⟩ := hstep.sessions s hs
          exact ⟨s', hs', hid, hd, ho⟩
        voters := hstep.grows.1
        offers := hstep.grows.2
        snapshots := hstep.snapshots }

/-- The owner of a workspace keeps the membership. -/
theorem OwnerInv.of_owners (h : OwnerInv db) (hw : db'.workspaces = db.workspaces)
    (hm : ∀ m, m.role = .owner → (m ∈ db'.workspaceMembers ↔ m ∈ db.workspaceMembers)) :
    OwnerInv db' := by
  constructor
  · intro w hmem
    obtain ⟨m, hm', ho⟩ := h.owned w (hw ▸ hmem)
    exact ⟨m, (hm m ho.2.2).mpr hm', ho⟩
  · intro m hmem hrole
    obtain ⟨w, hw', ho⟩ := h.owner m ((hm m hrole).mp hmem) hrole
    exact ⟨w, hw.symm ▸ hw', ho⟩

/-- Every commit keeps the invariant. -/
theorem VotingCommit.votingState (h : VotingCommit db db') (hI : VotingState db) :
    VotingState db' := by
  have hown : ∀ s ∈ db.votingSessions, ∀ voters, db.OwnerAmong s.decisionId voters →
      db'.OwnerAmong s.decisionId voters := by
    intro s hs voters hamong d hd hid w hw
    rw [h.forward.decisions] at hd
    rw [h.workspaces] at hw
    exact hamong d hd hid w hw
  refine ⟨hI.owner.of_owners h.workspaces h.owners, ?_, hI.ownerEligible.of_kept ?_ hown⟩
  · rcases h.core with hsame | hstep
    · rw [hsame]
      exact hI.voting
    · exact hI.voting.votingStep hstep
  · intro s hs hsome
    rcases h.core with hsame | hstep
    · have heq : db'.votingSessions = db.votingSessions := congrArg Core.votingSessions hsame
      rw [hsame]
      exact ⟨s, heq ▸ hs, rfl, rfl, Or.inl ⟨hsome, fun _ h => h⟩⟩
    · exact hstep.keepsVoters s hs hsome

/-! ## The commits -/

/-- The time stamps let a stale close or cancellation through only where the
status has it coming, or has it already. -/
theorem VotingStep.of_finish {x x' : VotingSession} (hx : x ∈ db.votingSessions)
    (hcore : db'.core = { db.core with votingSessions := replace x x' db.votingSessions })
    (hid : x'.id = x.id) (hd : x'.decisionId = x.decisionId)
    (hc : x'.eligibleVoterCount = x.eligibleVoterCount) (ho : x'.openedAt = x.openedAt)
    (hst : (x'.status = .closed ∧ x'.cancelledAt = x.cancelledAt) ∨
      (x'.status = .cancelled ∧ x'.closedAt = x.closedAt)) : VotingStep db db'.core := by
  have hmem : x' ∈ db'.votingSessions := by
    have heq : db'.votingSessions = replace x x' db.votingSessions :=
      congrArg Core.votingSessions hcore
    rw [heq]
    exact (mem_replace_session hx).mpr (Or.inl rfl)
  have hstamps := db.valid.ckVotingSessionsStatusTimestamps x hx
  have hstamps' := db'.valid.ckVotingSessionsStatusTimestamps x' hmem
  rw [hcore]
  rcases hst with ⟨hst, hca⟩ | ⟨hst, hcl⟩
  · refine .finishSession x x' hx hid hd hc ho ?_ (Or.inl hst)
    -- the stored row is not cancelled, and has been opened
    obtain ⟨hopened, -, hnone⟩ : x'.openedAt ≠ none ∧ x'.closedAt ≠ none ∧
      x'.cancelledAt = none := by
      rcases hstamps' with h | h | h | h
      · exact absurd (hst.symm.trans h.1) (by decide)
      · exact absurd (hst.symm.trans h.1) (by decide)
      · exact h.2
      · exact absurd (hst.symm.trans h.1) (by decide)
    rw [hst]
    rcases hstamps with h | h | h | h
    · exact absurd (ho.trans h.2.1) hopened
    · rw [h.1]
      exact Or.inr (by decide)
    · exact Or.inl h.1.symm
    · exact absurd (hca.symm.trans hnone) h.2.2
  · refine .finishSession x x' hx hid hd hc ho ?_ (Or.inr hst)
    -- the stored row is not closed
    have hnone : x'.closedAt = none := by
      rcases hstamps' with h | h | h | h
      · exact h.2.2.1
      · exact h.2.2.1
      · exact absurd (hst.symm.trans h.1) (by decide)
      · exact h.2.1
    rw [hst]
    rcases hstamps with h | h | h | h
    · rw [h.1]
      exact Or.inr (by decide)
    · rw [h.1]
      exact Or.inr (by decide)
    · exact absurd (hcl.symm.trans hnone) h.2.2.1
    · exact Or.inl h.1.symm

/-- What the other tables of a voting request's commit look like. -/
theorem VotingCommit.of_voting {op : Op} {dep : Deployment} {ss : List Db} {ws : List Write}
    {ok : Db → Except ServiceError Response} {rejected : CommitError → ServiceError}
    (hends : (op.program dep).Ends ss (.ok (.commit ws ok rejected)))
    (haway : ∀ t ∈ op.footprint, t.awayFromMembers) (hc : db.commit ws = .ok db')
    (hcore : db'.core = db.core ∨ VotingStep db db'.core) : VotingCommit db db' := by
  have hfoot := Op.commits_footprint hends
  obtain ⟨h₁, h₂⟩ := Tables.write_members db.toTables fun x hx => haway _ (hfoot x hx)
  rw [← (Db.commit_ok hc).1] at h₁ h₂
  exact ⟨h₁, fun m _ => by rw [h₂], hcore⟩

variable {dep : Deployment} {env : Env} {user : User} {w d s : UUID} {ss : List Db}
  {ws : List Write} {rejected : CommitError → ServiceError}

theorem VotingService.createSession_voting {payload : VotingSessionCreateRequest}
    {ok : Db → Except ServiceError VotingSession}
    (h : (VotingService.createSession env user w d payload).Ends ss
      (.ok (.commit ws ok rejected)))
    (hc : db.commit ws = .ok db') : VotingStep db db'.core := by
  obtain ⟨_, _, _, _, c, row, -, -, -, -, -, rfl, -, hrow, hs, hcount, ho⟩ :=
    VotingService.createSession_commits h
  have hpk := db'.valid.pkVotingSessions
  have heq := (Db.commit_ok hc).1
  rw [heq] at hpk ⊢
  exact .addSession row (Unique.ne_of_append hpk) hs ho hcount

/-- A ballot is within the snapshots, which have not shrunk since. -/
theorem VotingService.castVote_voting {payload : VoteCastRequest}
    {ok : Db → Except ServiceError Vote}
    (h : (VotingService.castVote env user w d s payload).Ends ss (.ok (.commit ws ok rejected)))
    (hss : ∀ s ∈ ss, VotingState s ∧ Forward s db) (hc : db.commit ws = .ok db') :
    VotingStep db db'.core := by
  obtain ⟨_, _, _, _, s₅, s₆, c, session, rfl, -, -, -, -, hv, hp, rfl⟩ :=
    VotingService.castVote_commits h
  simp only [List.forall_mem_cons] at hss
  obtain ⟨-, -, -, -, h₅, h₆, -⟩ := hss
  rw [(Db.commit_ok hc).1]
  refine .castVote _ ?_ ?_
  · exact isEligibleVoter_iff.mpr (h₅.2.voters _ (isEligibleVoter_iff.mp hv))
  · exact isSessionProposal_iff.mpr (h₆.2.offers _ (isSessionProposal_iff.mp hp))

theorem VotingService.closeSession_voting {ok : Db → Except ServiceError VotingSession}
    (h : (VotingService.closeSession dep env user w d s).Ends ss (.ok (.commit ws ok rejected)))
    (hss : ∀ s ∈ ss, VotingState s ∧ Forward s db) (hc : db.commit ws = .ok db') :
    VotingStep db db'.core := by
  obtain ⟨_, _, _, s₄, c, session, _, rfl, -, -, hs, hopen, rfl⟩ :=
    VotingService.closeSession_commits h
  simp only [List.forall_mem_cons] at hss
  obtain ⟨-, -, -, h₄, -⟩ := hss
  obtain ⟨hsm, -, -⟩ := VotingRepository.getForDecision_some hs
  obtain ⟨x, hx, hid, hd, -⟩ := h₄.2.sessions session hsm
  have hstatus : VotingSessionStatus.closed ≠ session.status := by rw [hopen]; decide
  have hrun := Db.setSession_stale hx hid (VotingService.closed session env.now)
    (fun he => hstatus (congrArg VotingSession.status he)) env.dbNow
  have hcore : db'.core = { db.core with
      votingSessions := replace x
        (session.merge (VotingService.closed session env.now) env.dbNow x) db.votingSessions } := by
    rw [(Db.commit_ok hc).1, Tables.core_write_after stage_aside, Tables.write, List.foldl, hrun]
    rfl
  exact VotingStep.of_finish hx hcore rfl rfl (column_kept _ _) (column_kept _ _)
    (Or.inl ⟨column_changed hstatus _, column_kept _ _⟩)

theorem VotingService.cancelSession_voting {ok : Db → Except ServiceError VotingSession}
    (h : (VotingService.cancelSession env user w d s).Ends ss (.ok (.commit ws ok rejected)))
    (hss : ∀ s ∈ ss, VotingState s ∧ Forward s db) (hc : db.commit ws = .ok db') :
    VotingStep db db'.core := by
  obtain ⟨_, _, _, s₄, c, session, rfl, -, -, hs, hst, rfl⟩ := VotingService.cancelSession_commits h
  simp only [List.forall_mem_cons] at hss
  obtain ⟨-, -, -, h₄, -⟩ := hss
  obtain ⟨hsm, -, -⟩ := VotingRepository.getForDecision_some hs
  obtain ⟨x, hx, hid, hd, -⟩ := h₄.2.sessions session hsm
  have hstatus : VotingSessionStatus.cancelled ≠ session.status := by
    rcases hst with hst | hst <;> rw [hst] <;> decide
  have hrun := Db.setSession_stale hx hid (VotingService.cancelled session env.now)
    (fun he => hstatus (congrArg VotingSession.status he)) env.dbNow
  have hcore : db'.core = { db.core with
      votingSessions := replace x
        (session.merge (VotingService.cancelled session env.now) env.dbNow x)
        db.votingSessions } := by
    rw [(Db.commit_ok hc).1, Tables.write, List.foldl, hrun]
    rfl
  exact VotingStep.of_finish hx hcore rfl rfl (column_kept _ _) (column_kept _ _)
    (Or.inr ⟨column_changed hstatus _, column_kept _ _⟩)

/-- The owner is among the voters that an opening has read, whenever it has. -/
theorem VotingState.owner_among {s₁ s₃ s₇ : Db} {c : Context} {tie : UUID → Nat}
    (hctx : ∃ s₂, InContext user.id w d s₁ s₂ s₃ c) (h₃ : Forward s₃ db)
    (h₇ : VotingState s₇ ∧ Forward s₇ db) :
    db.OwnerAmong d (WorkspaceRepository.listVotingEligibleUserIds tie w s₇) := by
  obtain ⟨_, hctx⟩ := hctx
  obtain ⟨hd, hdid, hdw⟩ := DecisionRepository.getForWorkspace_some hctx.decision
  intro d' hd' hid w' hw' hwd
  rw [h₃.decisions] at hd'
  have heq : d' = c.decision := eq_of_key s₃.valid.pkDecisions hd' hd (hid.trans hdid.symm)
  rw [h₇.2.workspaces] at hw'
  rw [← hdw, ← heq, ← hwd]
  exact h₇.1.owner.owner_eligible hw' tie

/-- An opening that the constraints let through finds the session a draft: the
owner's eligible-voter row would be there twice otherwise. -/
theorem VotingService.openSession_voting {ok : Db → Except ServiceError VotingSession}
    (h : (VotingService.openSession dep env user w d s).Ends ss (.ok (.commit ws ok rejected)))
    (hI : VotingState db) (hss : ∀ s ∈ ss, VotingState s ∧ Forward s db)
    (hc : db.commit ws = .ok db') : VotingStep db db'.core := by
  obtain ⟨s₁, s₂, s₃, s₄, _, s₆, s₇, c, session, proposals, voters, _, rfl, hctx, -, -, hs,
    hdraft, -,
    -, hproposals, -, hvoters, hne, rfl⟩ := VotingService.openSession_commits h
  simp only [List.forall_mem_cons] at hss
  obtain ⟨-, -, h₃, h₄, -, h₆, h₇, -⟩ := hss
  obtain ⟨hsm, -, hsd⟩ := VotingRepository.getForDecision_some hs
  obtain ⟨x, hx, hid, hd, -⟩ := h₄.2.sessions session hsm
  have hstatus : VotingSessionStatus.open ≠ session.status := by rw [hdraft]; decide
  have hrun := Db.setSession_stale hx hid (VotingService.opened session voters env.now)
    (fun he => hstatus (congrArg VotingSession.status he)) env.dbNow
  generalize hx' : session.merge (VotingService.opened session voters env.now) env.dbNow x = x'
    at hrun
  -- the columns that the opening writes, and those it leaves alone
  have hst : x'.status = .open := by rw [← hx']; exact column_changed hstatus _
  have hcl : x'.closedAt = x.closedAt := by rw [← hx']; exact column_kept _ _
  have hca : x'.cancelledAt = x.cancelledAt := by rw [← hx']; exact column_kept _ _
  have hunopened := s₄.openedAt_of_draft hsm hdraft
  have hcount₀ : session.eligibleVoterCount = 0 := by
    rw [h₄.1.voting.count session hsm, (h₄.1.voting.unopened session hsm hunopened).1]
    rfl
  have hcount : x'.eligibleVoterCount = voters.length := by
    rw [← hx']
    refine column_changed ?_ _
    rw [hcount₀]
    show (voters.length : Int) ≠ 0
    exact_mod_cast fun hz => hne (List.length_eq_zero_iff.mp hz)
  have hcore : db'.core = db.core.opening x x' voters proposals := by
    rw [(Db.commit_ok hc).1, Tables.core_write_after stage_aside]
    simp only [Tables.write, List.foldl_cons, List.foldl_nil, hrun]
    rw [Core.opening, hid]
    rfl
  have hmem : x' ∈ db'.votingSessions := by
    have heq : db'.votingSessions = replace x x' db.votingSessions :=
      congrArg Core.votingSessions hcore
    rw [heq]
    exact (mem_replace_session hx).mpr (Or.inl rfl)
  obtain ⟨hopened, hcl', hca'⟩ : x'.openedAt ≠ none ∧ x'.closedAt = none ∧
    x'.cancelledAt = none := by
    rcases db'.valid.ckVotingSessionsStatusTimestamps x' hmem with h' | h' | h' | h'
    · exact absurd (hst.symm.trans h'.1) (by decide)
    · exact h'.2
    · exact absurd (hst.symm.trans h'.1) (by decide)
    · exact absurd (hst.symm.trans h'.1) (by decide)
  have howner : db.OwnerAmong x.decisionId voters := by
    rw [hd, hsd, hvoters]
    exact VotingState.owner_among ⟨s₂, hctx⟩ h₃.2 h₇
  have hxdraft : x.status = .draft := by
    rcases db.valid.ckVotingSessionsStatusTimestamps x hx with h' | h' | h' | h'
    · exact h'.1
    · -- open already: the owner's row is there twice
      exfalso
      obtain ⟨dec, hdec, hdk⟩ := db.valid.fkVotingSessionsDecision x hx
      obtain ⟨ws, hws, hwk⟩ := db.valid.fkDecisionsWorkspace dec hdec
      obtain ⟨v, hv, hvu⟩ := List.mem_map.mp (hI.ownerEligible x hx h'.2.1 dec hdec hdk ws hws hwk)
      obtain ⟨hv, hvs⟩ := mem_voterRows.mp hv
      have hnew : (⟨x.id, ws.ownerId⟩ : VotingEligibleVoter) ∈
          voters.map fun u => ⟨x.id, u⟩ :=
        List.mem_map_of_mem (howner dec hdec hdk ws hws hwk)
      have hveq : v = ⟨x.id, ws.ownerId⟩ := by
        cases v
        cases hvs
        cases hvu
        rfl
      have hpk : PrimaryKey db'.core.votingEligibleVoters :=
        db'.valid.uqVotingEligibleVotersSessionUser
      rw [hcore] at hpk
      have hdisj := List.disjoint_of_nodup_append (List.Nodup.of_map _ hpk)
      exact hdisj hv (hveq ▸ hnew)
    · exact absurd (hcl.symm.trans hcl') h'.2.2.1
    · exact absurd (hca.symm.trans hca') h'.2.2
  rw [hcore]
  refine .openSession x x' voters proposals hx hxdraft (by rw [← hx']; rfl) (by rw [← hx']; rfl) hst
    hopened hcount hne howner fun p hp => ?_
  rw [hproposals] at hp
  obtain ⟨hp, hpd⟩ := List.mem_filter.mp (mem_orderBy.mp hp)
  simp only [Bool.and_eq_true, decide_eq_true_eq] at hpd
  refine ⟨?_, hpd.1.trans (hsd.symm.trans hd.symm)⟩
  rw [h₆.2.proposals]
  exact hp

/-- A membership change leaves the owners alone: the row it has read is no
owner's, and no row has become one since. -/
theorem Op.commit_member {op : Op} {ok : Db → Except ServiceError Response}
    (hop : op.footprint = [.workspaceMembers]) (hss : ∀ s ∈ ss, VotingState s ∧ Forward s db)
    (hends : (op.program dep).Ends ss (.ok (.commit ws ok rejected)))
    (hc : db.commit ws = .ok db') : VotingCommit db db' := by
  have hfoot := Op.commits_footprint hends
  have heq := (Db.commit_ok hc).1
  -- a row with the key of a row that was no owner's is no owner's
  have hold : ∀ {s₃ : Db} {m x : WorkspaceMember}, Forward s₃ db → m ∈ s₃.workspaceMembers →
      m.role ≠ .owner → x ∈ db.workspaceMembers → x.id = m.id → x.role ≠ .owner := by
    intro s₃ m x h₃ hm hrole hx hid howner
    have hx₃ := (h₃.owners x howner).mp hx
    exact hrole (eq_of_key s₃.valid.pkWorkspaceMembers hx₃ hm hid ▸ howner)
  have hcore : db'.core = db.core := by
    rw [heq]
    refine Tables.core_write_aside _ fun x hx => Write.aside_of_target ?_
    have ht := hfoot x hx
    rw [hop, List.mem_singleton] at ht
    rw [ht]
    rfl
  cases op <;> simp only [footprint, reduceCtorEq, List.cons.injEq, and_false, false_and] at hop <;>
    obtain ⟨_, h⟩ := Request.map_commits hends
  case addMember =>
    obtain ⟨_, _, _, _, _, -, -, -, -, -, rfl⟩ := WorkspaceService.addMember_commits h
    refine ⟨by rw [heq]; rfl, fun m hm => ?_, Or.inl hcore⟩
    obtain ⟨row, hrows, hrole⟩ : ∃ row, db'.workspaceMembers = db.workspaceMembers ++ [row] ∧
        row.role ≠ .owner :=
      ⟨_, by rw [heq]; rfl, AssignableWorkspaceRole.toRole_ne_owner _⟩
    rw [hrows, List.mem_append, List.mem_singleton]
    constructor
    · rintro (hmem | rfl)
      · exact hmem
      · exact absurd hm hrole
    · exact Or.inl
  case updateMemberRole =>
    obtain ⟨_, _, s₃, _, _, m, rfl, -, hm, hrole, -, rfl⟩ :=
      WorkspaceService.updateMemberRole_commits h
    simp only [List.forall_mem_cons] at hss
    obtain ⟨-, -, h₃, -, -⟩ := hss
    obtain ⟨hmem, -, -⟩ := WorkspaceRepository.getMembership_some hm
    refine ⟨by rw [heq]; rfl, fun x hx => ?_, Or.inl hcore⟩
    obtain ⟨m', hrole', hrows⟩ : ∃ m', m'.role ≠ .owner ∧
        db'.workspaceMembers = update m m' (m.merge m') db.workspaceMembers :=
      ⟨_, AssignableWorkspaceRole.toRole_ne_owner _, by rw [heq]; rfl⟩
    rw [hrows, update]
    split
    · exact Iff.rfl
    · rw [mem_modify]
      constructor
      · rintro ⟨r, hr, he⟩
        split at he
        · rename_i hk
          have hold' := hold h₃.2 hmem hrole hr hk
          rw [← he] at hx
          simp only [WorkspaceMember.merge, column] at hx
          split at hx
          · exact absurd hx hold'
          · exact absurd hx hrole'
        · exact he ▸ hr
      · intro hxm
        exact ⟨x, hxm, if_neg fun hk => hold h₃.2 hmem hrole hxm hk hx⟩
  case removeMember =>
    obtain ⟨_, _, s₃, _, m, rfl, -, hm, hrole, -, rfl⟩ := WorkspaceService.removeMember_commits h
    simp only [List.forall_mem_cons] at hss
    obtain ⟨-, -, h₃, -⟩ := hss
    obtain ⟨hmem, -, -⟩ := WorkspaceRepository.getMembership_some hm
    refine ⟨by rw [heq]; rfl, fun x hx => ?_, Or.inl hcore⟩
    have hrows : db'.workspaceMembers = db.workspaceMembers.filter fun y => y.id ≠ m.id := by
      rw [heq]; rfl
    rw [hrows, List.mem_filter]
    exact ⟨And.left, fun hxm => ⟨hxm, decide_eq_true fun hk => hold h₃.2 hmem hrole hxm hk hx⟩⟩

/-- **Every commit of a voting request or a membership change**, whatever the
request has read and whatever has been committed since. -/
theorem Op.commit_voting {op : Op} {ok : Db → Except ServiceError Response}
    (hop : op.isVoting) (hI : VotingState db) (hss : ∀ s ∈ ss, VotingState s ∧ Forward s db)
    (hends : (op.program dep).Ends ss (.ok (.commit ws ok rejected)))
    (hc : db.commit ws = .ok db') : VotingCommit db db' := by
  by_cases hread : op.footprint = []
  · exact absurd hends (Op.read_commits_nothing hread)
  by_cases hmember : op.footprint = [.workspaceMembers]
  · exact Op.commit_member hmember hss hends hc
  have hends' := hends
  cases op <;> (try exact absurd rfl hread) <;> (try exact absurd rfl hmember) <;>
    (try (exfalso; simp [isVoting, footprint] at hop; done)) <;>
    obtain ⟨_, h⟩ := Request.map_commits hends <;>
    refine VotingCommit.of_voting hends' (by simp [footprint, Target.awayFromMembers]) hc
      (Or.inr ?_)
  case createSession => exact VotingService.createSession_voting h hc
  case openSession => exact VotingService.openSession_voting h hI hss hc
  case castVote => exact VotingService.castVote_voting h hss hc
  case closeSession => exact VotingService.closeSession_voting h hss hc
  case cancelSession => exact VotingService.cancelSession_voting h hss hc

end

/-! ## The runs -/

section
variable {dep : Deployment} {db₀ : Db} {c c' : Configuration}

/-- A configuration of such an interleaving: the invariant holds, of the committed
state and of all that the requests have read, and the state is ahead of that. -/
structure VotingConfig (dep : Deployment) (c : Configuration) : Prop where
  state : VotingState c.state
  only : c.Only fun op => op.isVoting
  traced : c.Traced (Op.program dep)
  below : c.Below VotingState Forward

theorem Reachable.votingConfig (h : Reachable dep db₀) : VotingConfig dep (Config.idle db₀) :=
  ⟨h.votingState, Config.only_idle _, Config.traced_idle _, Config.below_idle _⟩

theorem VotingConfig.run (h : VotingConfig dep c)
    (hrun : Interleaving dep (Starts Op.isVoting) c c') :
    VotingConfig dep c' ∧ Forward c.state c'.state := by
  obtain ⟨hI, hR, hP, hT, hB⟩ := Run.rely_guarantee Forward.refl Forward.trans (fun _ _ h => h)
    (fun op ss w f g s s' hop hI hss hends hw =>
      have hcommit := Op.commit_voting hop hI hss hends hw
      ⟨hcommit.votingState hI, hcommit.forward⟩)
    hrun h.only h.state h.traced h.below
  exact ⟨⟨hI, hP, hT, hB⟩, hR⟩

/-- One more step leaves the state alone or is such a commit. -/
theorem VotingConfig.act (h : VotingConfig dep c) {a : Action Op}
    (hact : c.act Db.commit (Op.program dep) a = some c') :
    c'.state = c.state ∨ VotingCommit c.state c'.state := by
  rcases Config.act_commit hact with hs | ⟨i, t, w, f, g, -, ht, -, hr, hw⟩
  · exact Or.inl hs
  · have htm : t ∈ c.threads := List.mem_of_getElem? ht
    have hends := h.traced t htm
    rw [hr] at hends
    exact Or.inr (Op.commit_voting (h.only t htm) h.state (h.below t htm) hends hw)

/-! ### Ballots -/

/-- A session has no more ballots than eligible voters. -/
theorem VotingInv.countVotes_le {db : Db} (h : VotingInv db.core) {s : VotingSession}
    (hs : s ∈ db.votingSessions) :
    (VotingRepository.countVotes s.id db : Int) ≤ s.eligibleVoterCount := by
  have hcast : (db.votes.map Keyed.key).Nodup := db.valid.uqVotesSessionVoter
  -- the voters of the ballots are distinct, and are among the eligible ones
  have hnodup : ((db.votes.filter fun v => v.votingSessionId = s.id).map Vote.voterId).Nodup := by
    refine List.Nodup.map_on ?_ ((List.Nodup.of_map _ hcast).filter _)
    intro v hv v' hv' hu
    obtain ⟨hv, hvs⟩ := List.mem_filter.mp hv
    obtain ⟨hv', hvs'⟩ := List.mem_filter.mp hv'
    have hsame : v.votingSessionId = v'.votingSessionId :=
      (of_decide_eq_true hvs).trans (of_decide_eq_true hvs').symm
    exact eq_of_key hcast hv hv' (Prod.ext hsame hu)
  have hsub : (db.votes.filter fun v => v.votingSessionId = s.id).map Vote.voterId ⊆
      (db.core.voterRows s.id).map VotingEligibleVoter.userId := by
    intro u hu
    obtain ⟨v, hv, rfl⟩ := List.mem_map.mp hu
    obtain ⟨hv, hvs⟩ := List.mem_filter.mp hv
    have hvs : v.votingSessionId = s.id := of_decide_eq_true hvs
    refine List.mem_map.mpr ⟨⟨s.id, v.voterId⟩, mem_voterRows.mpr ⟨?_, rfl⟩, rfl⟩
    rw [← hvs]
    exact (h.ballots v hv).1
  have hle := (List.subperm_of_subset hnodup hsub).length_le
  rw [List.length_map, List.length_map] at hle
  rw [h.count s hs]
  exact_mod_cast hle

/-- A session that has not been opened has no ballots. -/
theorem VotingInv.countVotes_unopened {db : Db} (h : VotingInv db.core) {s : VotingSession}
    (hs : s ∈ db.votingSessions) (ho : s.openedAt = none) :
    VotingRepository.countVotes s.id db = 0 := by
  refine List.length_eq_zero_iff.mpr (List.filter_eq_nil_iff.mpr fun v hv hvs => ?_)
  have hrow := mem_voterRows.mpr ⟨(h.ballots v hv).1, of_decide_eq_true hvs⟩
  rw [(h.unopened s hs ho).1] at hrow
  nomatch hrow

/-- **Ballots are conserved.**  In every state of every interleaving of voting
requests and membership changes the ballots are within the two snapshots, no
voter has two, the counts agree and are within `eligible_voter_count`, drafts
have no ballots; and the snapshots of a session that has been opened are the same
in every later state. -/
theorem ballots_conserved (h : Reachable dep db₀)
    (hrun : Interleaving dep (Starts Op.isVoting) (Config.idle db₀) c) :
    (∀ v ∈ c.state.votes,
      VotingRepository.isEligibleVoter v.votingSessionId v.voterId c.state ∧
      VotingRepository.isSessionProposal v.votingSessionId v.proposalId c.state) ∧
    (c.state.votes.map fun v => (v.votingSessionId, v.voterId)).Nodup ∧
    (∀ s ∈ c.state.votingSessions,
      s.eligibleVoterCount =
        (c.state.votingEligibleVoters.filter fun v => v.votingSessionId = s.id).length ∧
      ((VotingRepository.listTallies s.id c.state).map ProposalVoteTally.votes).sum =
        VotingRepository.countVotes s.id c.state ∧
      VotingRepository.countVotes s.id c.state ≤ s.eligibleVoterCount ∧
      (s.status = .draft → VotingRepository.countVotes s.id c.state = 0)) ∧
    ∀ c', Interleaving dep (Starts Op.isVoting) c c' →
      ∀ s ∈ c.state.votingSessions, s.openedAt ≠ none →
        (c'.state.votingEligibleVoters.filter fun v => v.votingSessionId = s.id) =
            (c.state.votingEligibleVoters.filter fun v => v.votingSessionId = s.id) ∧
          (c'.state.votingSessionProposals.filter fun p => p.votingSessionId = s.id) =
            c.state.votingSessionProposals.filter fun p => p.votingSessionId = s.id := by
  obtain ⟨hc, -⟩ := h.votingConfig.run hrun
  have hinv := hc.state.voting
  refine ⟨?_, c.state.valid.uqVotesSessionVoter, ?_, ?_⟩
  · intro v hv
    obtain ⟨h₁, h₂⟩ := hinv.ballots v hv
    exact ⟨isEligibleVoter_iff.mpr h₁, isSessionProposal_iff.mpr h₂⟩
  · intro s hs
    refine ⟨hinv.count s hs, ?_, hinv.countVotes_le hs, ?_⟩
    · refine sum_listTallies fun v hv hvs => ?_
      rw [← hvs]
      exact isSessionProposal_iff.mpr (hinv.ballots v hv).2
    · intro hdraft
      exact hinv.countVotes_unopened hs (c.state.openedAt_of_draft hs hdraft)
  · intro c' hrun' s hs ho
    exact (hc.run hrun').2.snapshots s hs ho

/-- Two openings of one session, in flight together, and a ballot. -/
def Sample.doubleOpening : List (Action Op) :=
  [.start openVote, .start openVote] ++ List.replicate 7 (.advance 0) ++
    List.replicate 7 (.advance 1) ++ [.advance 0, .advance 1, .start adaVotes] ++
    List.replicate 7 (.advance 2)

theorem ballots_conserved_sample : ∃ c,
    Interleaving Sample.dep (Starts Op.isVoting) (Config.idle Sample.drafted) c ∧
      c.state.votes.length = 1 ∧ ∀ s ∈ c.state.votingSessions,
        VotingRepository.countVotes s.id c.state ≤ s.eligibleVoterCount := by
  obtain ⟨c, hc, hvotes⟩ := Option.map_eq_some_iff.mp
    (show ((Config.idle Sample.drafted).acts Db.commit (Op.program Sample.dep)
        (Starts Op.isVoting) Sample.doubleOpening).map (fun c => c.state.votes.length) = some 1 by
      decide +kernel)
  have hrun : Interleaving Sample.dep (Starts Op.isVoting) (Config.idle Sample.drafted) c :=
    Run.of_acts hc
  obtain ⟨-, -, h, -⟩ := ballots_conserved Sample.drafted_reachable hrun
  exact ⟨c, hrun, hvotes, fun s hs => (h s hs).2.2.1⟩

/-! ### Sessions -/

/-- **The state machine of voting sessions.**  Every step of every interleaving
keeps the status of a session or makes one of the moves draft to open, draft to
cancelled, open to closed, open to cancelled; the time stamps match the status;
and a decision has at most one session that is a draft or open. -/
theorem session_state_machine (h : Reachable dep db₀)
    (hrun : Interleaving dep (Starts Op.isVoting) (Config.idle db₀) c) :
    (∀ a c', c.act Db.commit (Op.program dep) a = some c' → ∀ s ∈ c.state.votingSessions,
      ∃ s' ∈ c'.state.votingSessions, s'.id = s.id ∧ (s'.status = s.status ∨
        (s.status, s'.status) ∈ [(.draft, .open), (.draft, .cancelled), (.open, .closed),
          (.open, .cancelled)])) ∧
    (∀ s ∈ c.state.votingSessions, s.StatusTimestamps) ∧
    ∀ s ∈ c.state.votingSessions, ∀ s' ∈ c.state.votingSessions, s.decisionId = s'.decisionId →
      (s.status = .draft ∨ s.status = .open) → (s'.status = .draft ∨ s'.status = .open) →
      s = s' := by
  obtain ⟨hc, -⟩ := h.votingConfig.run hrun
  refine ⟨?_, c.state.valid.ckVotingSessionsStatusTimestamps, ?_⟩
  · intro a c' hact s hs
    rcases hc.act hact with hsame | hcommit
    · rw [hsame]
      exact ⟨s, hs, rfl, Or.inl rfl⟩
    · rcases hcommit.core with hsame | hstep
      · have heq : c'.state.votingSessions = c.state.votingSessions :=
          congrArg Core.votingSessions hsame
        rw [heq]
        exact ⟨s, hs, rfl, Or.inl rfl⟩
      · obtain ⟨s', hs', hid, -, -, hadv⟩ := hstep.sessions s hs
        refine ⟨s', hs', hid, hadv.imp id fun hnext => ?_⟩
        generalize s.status = b at hnext
        generalize s'.status = b' at hnext
        cases b <;> cases b' <;> first | decide | exact absurd hnext (by decide)
  · intro s hs s' hs' hd hu hu'
    have hun : ∀ x : VotingSession, x.status = .draft ∨ x.status = .open → x.unfinished = true :=
      fun x hx => by
        simp only [VotingSession.unfinished, Bool.or_eq_true, decide_eq_true_eq]
        exact hx
    exact List.inj_on_of_nodup_map c.state.valid.uqVotingSessionsOneUnfinishedPerDecision
      (List.mem_filter.mpr ⟨hs, hun s hu⟩) (List.mem_filter.mpr ⟨hs', hun s' hu'⟩) hd

theorem session_state_machine_sample : ∃ c,
    Interleaving Sample.dep (Starts Op.isVoting) (Config.idle Sample.drafted) c ∧
      (∀ s ∈ c.state.votingSessions, s.StatusTimestamps) ∧
      c.state.votingSessions.map VotingSession.status = [.open] := by
  obtain ⟨c, hc, hst⟩ := Option.map_eq_some_iff.mp (show ((Config.idle Sample.drafted).acts
    Db.commit (Op.program Sample.dep) (Starts Op.isVoting) Sample.doubleOpening).map
      (fun c => c.state.votingSessions.map VotingSession.status) = some [.open] by decide +kernel)
  have hrun : Interleaving Sample.dep (Starts Op.isVoting) (Config.idle Sample.drafted) c :=
    Run.of_acts hc
  exact ⟨c, hrun, (session_state_machine Sample.drafted_reachable hrun).2.1, hst⟩

end

end ForkRoom
