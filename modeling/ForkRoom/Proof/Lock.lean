/-
# `Proof.Lock` — what a lock stands for, then and ever after

`LockedBy` ties a lock row to its decision, its session and the winning proposal,
with everything that `create` has checked and the snapshot it has built, all of
the current state.  It holds when the lock is committed (`CanLock.lockedBy`), and
since nothing of a locked decision changes it holds ever after
(`LockedBy.frozen`).  The two main results read it off: a lock is sound
(`lock_sound`), and its record can be recomputed from the live rows
(`record_frozen`).
-/
import ForkRoom.Proof.Frozen

namespace ForkRoom

open Optimistic Rows

/-! ## What the queries read -/

section
variable {db db' : Db} {d : Decision} {s : VotingSession}

theorem Db.getForDecision_rows (db : Db) (d p : UUID) :
    ProposalRepository.getForDecision d p db =
      (db.core.proposalRows d).find? fun x => x.id = p := by
  rw [ProposalRepository.getForDecision, Core.proposalRows, List.find?_filter]
  congr 1
  funext x
  rw [Bool.and_comm]
  simp only [decide_eq_true_eq, Bool.decide_and]

theorem Db.listForProposal_rows (db : Db) (tie : UUID → Nat) (p : UUID) :
    ObjectionRepository.listForProposal tie p none none db =
      latestFirst Objection.createdAt tie (db.core.objectionRows p) := by
  simp only [ObjectionRepository.listForProposal, given, Option.elim, Bool.and_true]
  rfl

theorem Db.unblocked_rows {id : UUID} :
    ObjectionRepository.hasOpenBlockingForDecision id db = false ↔
      ∀ p ∈ db.core.proposalRows id, ∀ o ∈ db.core.objectionRows p.id,
        ¬ (o.severity = .blocking ∧ o.status = .open) := by
  simp only [ObjectionRepository.hasOpenBlockingForDecision, List.any_eq_false, Bool.and_eq_true,
    decide_eq_true_eq, List.any_eq_true, Core.proposalRows, Core.objectionRows, List.mem_filter]
  constructor
  · intro h p hp o ho hblocking
    exact h o ho.1 ⟨hblocking, p, hp.1, ho.2.symm, hp.2⟩
  · rintro h o ho ⟨hblocking, p, hp, hid, hd⟩
    exact h p ⟨hp, hd⟩ o ⟨ho, hid.symm⟩ hblocking

theorem ballots_rows (db : Db) (s p : UUID) :
    ballots db.votes s p = ((db.core.ballotRows s).filter fun v => v.proposalId = p).length := by
  rw [ballots, Core.ballotRows, List.filter_filter]
  congr 1
  refine List.filter_congr fun v _ => ?_
  rw [Bool.and_comm]

namespace Frozen

variable (h : Frozen d s db.core db'.core)
include h

theorem countVotes : VotingRepository.countVotes s.id db' = VotingRepository.countVotes s.id db :=
  congrArg List.length h.ballots

theorem ballots_eq (p : UUID) :
    ForkRoom.ballots db'.votes s.id p = ForkRoom.ballots db.votes s.id p := by
  rw [ballots_rows, ballots_rows, h.ballots]

theorem listTallies :
    VotingRepository.listTallies s.id db' = VotingRepository.listTallies s.id db := by
  have hoffers : (db'.votingSessionProposals.filter fun p => p.votingSessionId = s.id) =
      db.votingSessionProposals.filter fun p => p.votingSessionId = s.id := h.offers
  rw [listTallies_eq, listTallies_eq, hoffers]
  congr 1
  refine List.map_congr_left fun p _ => ?_
  rw [h.ballots_eq]

theorem unblocked (hb : ObjectionRepository.hasOpenBlockingForDecision d.id db = false) :
    ObjectionRepository.hasOpenBlockingForDecision d.id db' = false := by
  refine Db.unblocked_rows.mpr fun p hp o ho => ?_
  rw [h.proposals] at hp
  obtain ⟨hmem, hpd⟩ := List.mem_filter.mp hp
  rw [h.objections p hmem (of_decide_eq_true hpd)] at ho
  exact Db.unblocked_rows.mp hb p hp o ho

theorem getForDecision (p : UUID) : ProposalRepository.getForDecision d.id p db' =
    ProposalRepository.getForDecision d.id p db := by
  rw [Db.getForDecision_rows, Db.getForDecision_rows, h.proposals]

theorem listForProposal (tie : UUID → Nat) {p : Proposal} (hp : p ∈ db.proposals)
    (hpd : p.decisionId = d.id) : ObjectionRepository.listForProposal tie p.id none none db' =
      ObjectionRepository.listForProposal tie p.id none none db := by
  rw [Db.listForProposal_rows, Db.listForProposal_rows, h.objections p hp hpd]

theorem proposal_mem {p : Proposal} (hp : p ∈ db.proposals) (hpd : p.decisionId = d.id) :
    p ∈ db'.proposals := by
  have hmem : p ∈ db.core.proposalRows d.id := List.mem_filter.mpr ⟨hp, decide_eq_true hpd⟩
  rw [← h.proposals] at hmem
  exact (List.mem_filter.mp hmem).1

/-- The loop over the tallies reads the same rows. -/
theorem alternatives_run (env : Env) (w : Proposal) (tallies : List ProposalVoteTallyResponse) :
    (DecisionLockService.alternatives env d w tallies).run db' =
      (DecisionLockService.alternatives env d w tallies).run db := by
  induction tallies with
  | nil => rfl
  | cons t tallies ih =>
      rw [DecisionLockService.alternatives]
      split
      · exact ih
      · simp only [Reads.run_bind, Reads.run_query, Reads.run_orThrow, Reads.run_pure,
          Except.bind, h.getForDecision]
        cases hp : ProposalRepository.getForDecision d.id t.proposalId db with
        | none => rfl
        | some p =>
            obtain ⟨hmem, -, hpd⟩ := ProposalRepository.getForDecision_some hp
            simp only [Option.elim, h.listForProposal env.tie hmem hpd, ih]

theorem buildSnapshot_run (env : Env) {w : Proposal} (hw : w ∈ db.proposals)
    (hwd : w.decisionId = d.id) (r : VotingResultResponse) :
    (DecisionLockService.buildSnapshot env d w r).run db' =
      (DecisionLockService.buildSnapshot env d w r).run db := by
  simp only [DecisionLockService.buildSnapshot, Reads.run_bind, Reads.run_query, Reads.run_pure,
    Except.bind, h.listForProposal env.tie hw hwd, h.alternatives_run]

end Frozen

end

/-! ## The invariant of a lock -/

/-- The result of the session `s` in the state `db`. -/
def VotingSession.resultIn (s : VotingSession) (db : Db) : VotingResultResponse :=
  VotingService.result s (VotingRepository.countVotes s.id db)
    (VotingRepository.listTallies s.id db)

/-- The lock `l` locks the decision `d` on the session `s` with the winner `w`. -/
structure LockedBy (dep : Deployment) (db : Db) (l : DecisionLock) (d : Decision)
    (s : VotingSession) (w : Proposal) : Prop where
  decision_mem : d ∈ db.decisions
  decision_id : d.id = l.decisionId
  locked : d.status = .locked
  session_mem : s ∈ db.votingSessions
  session_id : s.id = l.votingSessionId
  session_decision : s.decisionId = d.id
  closed : s.status = .closed
  winning_mem : w ∈ db.proposals
  winning_id : w.id = l.winningProposalId
  winning_decision : w.decisionId = d.id
  submitted : w.status = .submitted
  unblocked : ObjectionRepository.hasOpenBlockingForDecision d.id db = false
  valid : (s.resultIn db).resultValid = true
  winner : (s.resultIn db).winnerProposalId = some w.id
  built : ∃ env snapshot,
    (DecisionLockService.buildSnapshot env d w (s.resultIn db)).run db = .ok snapshot ∧
      l.snapshot = snapshot.toJson
  hashed : l.documentHash = DecisionLockService.hashSnapshot dep l.snapshot

section
variable {dep : Deployment} {db db' : Db} {d d' : Decision} {s : VotingSession} {w : Proposal}
  {l : DecisionLock}

theorem Frozen.resultIn (h : Frozen d s db.core db'.core) : s.resultIn db' = s.resultIn db := by
  rw [VotingSession.resultIn, VotingSession.resultIn, h.countVotes, h.listTallies]

/-- What a lock stands for stays as it is. -/
theorem LockedBy.frozen (h : LockedBy dep db l d s w) (hf : Frozen d s db.core db'.core) :
    LockedBy dep db' l d s w where
  decision_mem := hf.decision
  decision_id := h.decision_id
  locked := h.locked
  session_mem := hf.session
  session_id := h.session_id
  session_decision := h.session_decision
  closed := h.closed
  winning_mem := hf.proposal_mem h.winning_mem h.winning_decision
  winning_id := h.winning_id
  winning_decision := h.winning_decision
  submitted := h.submitted
  unblocked := hf.unblocked h.unblocked
  valid := by rw [hf.resultIn]; exact h.valid
  winner := by rw [hf.resultIn]; exact h.winner
  built := by
    obtain ⟨env, snapshot, hrun, heq⟩ := h.built
    refine ⟨env, snapshot, ?_, heq⟩
    rw [hf.resultIn, hf.buildSnapshot_run env h.winning_mem h.winning_decision]
    exact hrun
  hashed := h.hashed

/-- The snapshot of a decision is that of its record. -/
theorem Decision.SameRecord.alternatives {env : Env} (hr : d.SameRecord d') :
    ∀ tallies : List ProposalVoteTallyResponse,
      DecisionLockService.alternatives env d' w tallies =
        DecisionLockService.alternatives env d w tallies
  | [] => rfl
  | t :: tallies => by
      rw [DecisionLockService.alternatives, DecisionLockService.alternatives,
        hr.alternatives tallies, hr.id]

theorem Decision.SameRecord.buildSnapshot {env : Env} {r : VotingResultResponse}
    (hr : d.SameRecord d') :
    DecisionLockService.buildSnapshot env d' w r = DecisionLockService.buildSnapshot env d w r := by
  have hdec : DecisionLockService.decisionSnapshot d' = DecisionLockService.decisionSnapshot d := by
    rw [DecisionLockService.decisionSnapshot, DecisionLockService.decisionSnapshot, hr.id,
      hr.workspaceId, hr.createdById, hr.title, hr.summary, hr.category, hr.dueAt, hr.reviewAt]
  rw [DecisionLockService.buildSnapshot, DecisionLockService.buildSnapshot, hr.alternatives, hdec]

/-- The lock that is being committed stands for what was checked. -/
theorem CanLock.lockedBy {env : Env} {user : User} {result : VotingResultResponse}
    {snapshot : Snapshot} (h : CanLock env db d s result w snapshot) (hr : d.SameRecord d')
    (hst : d'.status = .locked)
    (hcore : db'.core = { db.core with
      decisions := replace d d' db.decisions
      decisionLocks := db.decisionLocks ++
        [DecisionLockService.lockRow dep env user d s.id w.id snapshot] }) :
    LockedBy dep db' (DecisionLockService.lockRow dep env user d s.id w.id snapshot) d' s w := by
  -- apart from the decision, nothing that has been read is written
  have hdecisions : db'.decisions = replace d d' db.decisions := congrArg Core.decisions hcore
  have hproposals : db'.proposals = db.proposals := congrArg Core.proposals hcore
  have hobjections : db'.objections = db.objections := congrArg Core.objections hcore
  have hsessions : db'.votingSessions = db.votingSessions := congrArg Core.votingSessions hcore
  have hoffers : db'.votingSessionProposals = db.votingSessionProposals :=
    congrArg Core.votingSessionProposals hcore
  have hvotes : db'.votes = db.votes := congrArg Core.votes hcore
  have hblocked : ObjectionRepository.hasOpenBlockingForDecision d.id db' = false := by
    rw [ObjectionRepository.hasOpenBlockingForDecision, hobjections, hproposals]
    exact h.unblocked
  have hresult : s.resultIn db' = result := by
    rw [h.counted, VotingSession.resultIn, VotingRepository.countVotes,
      VotingRepository.listTallies,
      hvotes, hoffers]
    rfl
  have hrun : ∀ tallies, (DecisionLockService.alternatives env d w tallies).run db' =
      (DecisionLockService.alternatives env d w tallies).run db := by
    intro tallies
    induction tallies with
    | nil => rfl
    | cons t tallies ih =>
        rw [DecisionLockService.alternatives]
        split
        · exact ih
        · simp only [Reads.run_bind, Reads.run_query, Reads.run_orThrow, Reads.run_pure, ih,
            ProposalRepository.getForDecision, ObjectionRepository.listForProposal, hproposals,
            hobjections]
  exact
    { decision_mem := by rw [hdecisions]; exact (mem_replace h.decision_mem).mpr (Or.inl rfl)
      decision_id := hr.id
      locked := hst
      session_mem := hsessions.symm ▸ h.session_mem
      session_id := rfl
      session_decision := h.session_decision.trans hr.id.symm
      closed := h.closed
      winning_mem := hproposals.symm ▸ h.winning_mem
      winning_id := rfl
      winning_decision := h.winning_decision.trans hr.id.symm
      submitted := h.submitted
      unblocked := by rw [hr.id]; exact hblocked
      valid := by rw [hresult]; exact h.valid
      winner := by rw [hresult]; exact h.winner
      built := by
        refine ⟨env, snapshot, ?_, rfl⟩
        have hbuilt := h.built
        rw [hresult, hr.buildSnapshot]
        simp only [DecisionLockService.buildSnapshot, Reads.run_bind, Reads.run_query,
          Reads.run_pure, ObjectionRepository.listForProposal, hobjections, hrun] at hbuilt ⊢
        exact hbuilt
      hashed := rfl }

/-- Every lock stands for what `LockedBy` says, and what is locked has a lock. -/
structure LockInv (dep : Deployment) (db : Db) : Prop where
  locks : ∀ l ∈ db.decisionLocks, ∃ d s w, LockedBy dep db l d s w
  locked : ∀ d ∈ db.decisions, d.status = .locked → ∃ l ∈ db.decisionLocks, l.decisionId = d.id

theorem lockInv_empty : LockInv dep Db.empty where
  locks _ h := nomatch h
  locked _ h := nomatch h

/-- Where the locks come from. -/
theorem CoreStep.locks_origin {op : Op} {c : Core} (hstep : CoreStep dep op db c) :
    c.decisionLocks = db.decisionLocks ∨
      ∃ env user d d' session result winning snapshot,
        CanLock env db d session result winning snapshot ∧
        d.SameRecord d' ∧ d'.status = .locked ∧ c = { db.core with
          decisions := replace d d' db.decisions
          decisionLocks := db.decisionLocks ++
            [DecisionLockService.lockRow dep env user d session.id winning.id snapshot] } := by
  cases hstep with
  | lock env user w d d' session result winning snapshot hop hl hr hs =>
      exact Or.inr ⟨env, user, d, d', session, result, winning, snapshot, hl, hr, hs, rfl⟩
  | _ => exact Or.inl rfl

/-- A decision is locked by a lock only. -/
theorem CoreStep.locked_origin {op : Op} {c : Core} (hstep : CoreStep dep op db c) :
    ∀ d ∈ c.decisions, d.status = .locked →
      (∃ d₀ ∈ db.decisions, d₀.id = d.id ∧ d₀.status = .locked) ∨
        ∃ l ∈ c.decisionLocks, l.decisionId = d.id := by
  intro x hx hlocked
  cases hstep with
  | addDecision row hs =>
      rcases List.mem_append.mp hx with hx | hx
      · exact Or.inl ⟨x, hx, rfl, hlocked⟩
      · rw [List.mem_singleton.mp hx, hs] at hlocked
        nomatch hlocked
  | editDecision d d' hd hid hw hm hs =>
      rcases (mem_replace hd).mp hx with rfl | ⟨hx, -⟩
      · exact absurd (hs.symm.trans hlocked) hm.ne_locked
      · exact Or.inl ⟨x, hx, rfl, hlocked⟩
  | moveDecision d d' hd hr hop hs =>
      rcases (mem_replace hd).mp hx with rfl | ⟨hx, -⟩
      · rw [hlocked] at hs
        generalize d.status = b at hs
        cases b <;> exact absurd hs (by decide)
      · exact Or.inl ⟨x, hx, rfl, hlocked⟩
  | deleteDecisions gone => exact Or.inl ⟨x, (List.mem_filter.mp hx).1, rfl, hlocked⟩
  | lock env user w d d' session result winning snapshot hop hl hr hs =>
      rcases (mem_replace hl.decision_mem).mp hx with rfl | ⟨hx, -⟩
      · exact Or.inr ⟨_, List.mem_append_right _ List.mem_cons_self, hr.id.symm⟩
      · exact Or.inl ⟨x, hx, rfl, hlocked⟩
  | _ => exact Or.inl ⟨x, hx, rfl, hlocked⟩

/-- Every atomic operation keeps the invariant. -/
theorem LockInv.step {op : Op} (h : LockInv dep db) (hstep : CoreStep dep op db db'.core) :
    LockInv dep db' := by
  have hold : ∀ l ∈ db.decisionLocks, ∃ d s w, LockedBy dep db' l d s w := by
    intro l hl
    obtain ⟨d, s, w, hb⟩ := h.locks l hl
    exact ⟨d, s, w, hb.frozen (hstep.frozen hb.decision_mem hb.locked
      ⟨l, hl, hb.decision_id.symm⟩ hb.session_mem hb.session_decision hb.closed)⟩
  constructor
  · intro l hl
    rcases hstep.locks_origin with
      hsame | ⟨env, user, d, d', session, result, winning, snapshot, hcan,
      hr, hst, hcore⟩
    · have heq : db'.decisionLocks = db.decisionLocks := hsame
      exact hold l (heq ▸ hl)
    · have heq : db'.decisionLocks = _ := congrArg Core.decisionLocks hcore
      rw [heq] at hl
      rcases List.mem_append.mp hl with hl | hl
      · exact hold l hl
      · rw [List.mem_singleton.mp hl]
        exact ⟨d', session, winning, hcan.lockedBy hr hst hcore⟩
  · intro d hd hlocked
    rcases hstep.locked_origin d hd hlocked with ⟨d₀, hd₀, hid, hlocked₀⟩ | hlock
    · obtain ⟨l, hl, hld⟩ := h.locked d₀ hd₀ hlocked₀
      exact ⟨l, hstep.locks_kept l hl, hld.trans hid⟩
    · exact hlock

theorem Reachable.lockInv (h : Reachable dep db) : LockInv dep db := by
  induction h with
  | empty => exact lockInv_empty
  | step op _ ih => exact ih.step (Op.exec_step dep op _)

/-! ## Lock soundness -/

/-- Somebody may vote in a session that is closed. -/
theorem VotingInv.eligible_pos (h : VotingInv db.core) (hs : s ∈ db.votingSessions)
    (hclosed : s.status = .closed) : 0 < s.eligibleVoterCount := by
  have hne := h.opened s hs (db.openedAt_of_opened hs (Or.inr hclosed))
  rw [h.count s hs]
  exact_mod_cast List.length_pos_iff.mpr hne

/-- A valid result has at least one ballot. -/
theorem VotingInv.countVotes_pos (h : VotingInv db.core) (hs : s ∈ db.votingSessions)
    (hclosed : s.status = .closed) (hvalid : (s.resultIn db).resultValid = true) :
    0 < VotingRepository.countVotes s.id db := by
  have hreq := result_valid.mp hvalid
  rw [session_requiredVotes hs] at hreq
  have hn : (1 : ℚ) ≤ s.eligibleVoterCount := by exact_mod_cast h.eligible_pos hs hclosed
  have hq : (1 : ℚ) ≤ s.quorumPercentage := by
    exact_mod_cast (db.valid.ckVotingSessionsQuorumPercentage s hs).1
  have hpos : (0 : ℚ) < s.eligibleVoterCount * s.quorumPercentage / 100 := by positivity
  have hceil := Int.ceil_pos.mpr hpos
  omega

/-- A proposal that is offered has a tally of its ballots. -/
theorem mem_tallies_of_offered {p : UUID} (hp : VotingRepository.isSessionProposal s.id p db) :
    ⟨p, ballots db.votes s.id p⟩ ∈ VotingRepository.listTallies s.id db :=
  mem_listTallies.mpr ⟨⟨s.id, p⟩, isSessionProposal_iff.mp hp, rfl, rfl⟩

/-- The winner is offered, has a ballot, and has more than every other proposal. -/
theorem LockedBy.winner_unique (h : LockedBy dep db l d s w) (hinv : VotingInv db.core) :
    VotingRepository.isSessionProposal s.id w.id db ∧ 1 ≤ ballots db.votes s.id w.id ∧
      ∀ p, VotingRepository.isSessionProposal s.id p db → p ≠ w.id →
        ballots db.votes s.id p < ballots db.votes s.id w.id := by
  obtain ⟨t, ht, htw, hmax⟩ := result_winner h.winner
  obtain ⟨⟨s', p⟩, hp, rfl, rfl⟩ := mem_listTallies.mp ht
  have hless : ∀ q, VotingRepository.isSessionProposal s.id q db →
      ballots db.votes s.id q ≤ ballots db.votes s.id p := fun q hq =>
    (hmax _ (mem_tallies_of_offered hq)).1
  subst htw
  refine ⟨isSessionProposal_iff.mpr hp, ?_, fun q hq hne =>
    (hmax _ (mem_tallies_of_offered hq)).2 hne⟩
  -- were the most ballots none, there would be none at all
  by_contra hzero
  have hsum : ((VotingRepository.listTallies s.id db).map ProposalVoteTally.votes).sum = 0 := by
    refine List.sum_eq_zero fun n hn => ?_
    obtain ⟨t', ht', rfl⟩ := List.mem_map.mp hn
    have hle := (hmax t' ht').1
    simp only at hle
    omega
  have hcount := hinv.countVotes_pos h.session_mem h.closed h.valid
  rw [← sum_listTallies fun v hv hvs => hvs ▸ isSessionProposal_iff.mpr (hinv.ballots v hv).2,
    hsum] at hcount
  exact absurd hcount (by decide)

/-- **Lock soundness.**  In every state that an atomic run reaches: the decision
of a lock is locked; its session is of that decision, closed, and has the ballots
that the quorum asks for, exactly computed; the winning proposal is the only one
with the most ballots, and has at least one; it is of that decision, and
submitted; no proposal of the decision has an open blocking objection.  A locked
decision has exactly one lock, and no operation removes a lock. -/
theorem lock_sound (h : Reachable dep db) :
    (∀ l ∈ db.decisionLocks,
      (∃ d ∈ db.decisions, d.id = l.decisionId ∧ d.status = .locked) ∧
      (∃ s ∈ db.votingSessions, s.id = l.votingSessionId ∧ s.decisionId = l.decisionId ∧
        s.status = .closed ∧
        ⌈(s.eligibleVoterCount * s.quorumPercentage / 100 : ℚ)⌉ ≤
          VotingRepository.countVotes s.id db) ∧
      (VotingRepository.isSessionProposal l.votingSessionId l.winningProposalId db ∧
        1 ≤ ballots db.votes l.votingSessionId l.winningProposalId ∧
        ∀ p, VotingRepository.isSessionProposal l.votingSessionId p db → p ≠ l.winningProposalId →
          ballots db.votes l.votingSessionId p <
            ballots db.votes l.votingSessionId l.winningProposalId) ∧
      (∃ w ∈ db.proposals, w.id = l.winningProposalId ∧ w.decisionId = l.decisionId ∧
        w.status = .submitted) ∧
      ∀ p ∈ db.proposals, p.decisionId = l.decisionId → ∀ o ∈ db.objections, o.proposalId = p.id →
        ¬ (o.severity = .blocking ∧ o.status = .open)) ∧
    (∀ d ∈ db.decisions, d.status = .locked →
      (db.decisionLocks.filter fun l => l.decisionId = d.id).length = 1) ∧
    ∀ op : Op, ∀ l ∈ db.decisionLocks, l ∈ (op.exec dep db).2.decisionLocks := by
  have hinv := h.lockInv
  refine ⟨fun l hl => ?_, fun d hd hlocked => ?_, fun op => (Op.exec_step dep op db).locks_kept⟩
  · obtain ⟨d, s, w, hb⟩ := hinv.locks l hl
    refine ⟨⟨d, hb.decision_mem, hb.decision_id, hb.locked⟩, ?_, ?_, ?_, ?_⟩
    · refine ⟨s, hb.session_mem, hb.session_id, hb.session_decision.trans hb.decision_id,
        hb.closed, ?_⟩
      rw [← session_requiredVotes hb.session_mem]
      exact result_valid.mp hb.valid
    · rw [← hb.session_id, ← hb.winning_id]
      exact hb.winner_unique h.votingInv
    · exact ⟨w, hb.winning_mem, hb.winning_id, hb.winning_decision.trans hb.decision_id,
        hb.submitted⟩
    · intro p hp hpd o ho hop
      refine Db.unblocked_rows.mp hb.unblocked p ?_ o ?_
      · exact List.mem_filter.mpr ⟨hp, decide_eq_true (hpd.trans hb.decision_id.symm)⟩
      · exact List.mem_filter.mpr ⟨ho, decide_eq_true hop⟩
  · have hn : (db.decisionLocks.map DecisionLock.decisionId).Nodup :=
      db.valid.uqDecisionLocksDecisionId
    rw [length_filter_key hn, if_pos]
    obtain ⟨l, hl, hld⟩ := hinv.locked d hd hlocked
    exact List.mem_map.mpr ⟨l, hl, hld⟩

theorem lock_sound_sample : Sample.locked.decisionLocks ≠ [] ∧ ∀ l ∈ Sample.locked.decisionLocks,
    ∃ d ∈ Sample.locked.decisions, d.id = l.decisionId ∧ d.status = .locked :=
  ⟨by decide +kernel, fun l hl => ((lock_sound Sample.locked_reachable).1 l hl).1⟩

end

end ForkRoom
