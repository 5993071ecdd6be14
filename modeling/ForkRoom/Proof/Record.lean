/-
# `Proof.Record` — the locked record can be recomputed

In every state after a lock, `get_result` of its session and `_build_snapshot`
on the live rows give the stored snapshot again, whoever asks and in whatever
order the database delivers objections that were created at the same time; and
`verify` answers that the stored hash is right.
-/
import ForkRoom.System.Gates
import ForkRoom.Proof.Lock

namespace ForkRoom

open Optimistic Rows

/-! ## Snapshots up to the order of objections -/

/-- The same alternative, its objections in some order. -/
structure AlternativeProposal.Same (a a' : AlternativeProposal) : Prop where
  proposal : a.proposal = a'.proposal
  votes : a.votes = a'.votes
  percentage : a.percentage = a'.percentage
  objections : a.objections.Perm a'.objections

/-- The same snapshot, the objections to each proposal in some order. -/
structure Snapshot.Same (s s' : Snapshot) : Prop where
  decision : s.decision = s'.decision
  approvedProposal : s.approvedProposal = s'.approvedProposal
  votingResult : s.votingResult = s'.votingResult
  objections : s.objectionsToApprovedProposal.Perm s'.objectionsToApprovedProposal
  alternatives :
    List.Forall₂ AlternativeProposal.Same s.alternativeProposals s'.alternativeProposals

section
variable {db : Db} {d : Decision} {w : Proposal}

theorem listForProposal_perm (tie tie' : UUID → Nat) (p : UUID) (db : Db) :
    (ObjectionRepository.listForProposal tie p none none db).Perm
      (ObjectionRepository.listForProposal tie' p none none db) :=
  (orderBy_perm _ _).trans (orderBy_perm _ _).symm

/-- The loop over the tallies does the same under every delivery order. -/
theorem alternatives_same (env env' : Env) :
    ∀ {tallies : List ProposalVoteTallyResponse} {as : List AlternativeProposal},
      (DecisionLockService.alternatives env d w tallies).run db = .ok as →
      ∃ as', (DecisionLockService.alternatives env' d w tallies).run db = .ok as' ∧
        List.Forall₂ AlternativeProposal.Same as as'
  | [], _, h => by
      cases h
      exact ⟨[], rfl, .nil⟩
  | t :: tallies, as, h => by
      rw [DecisionLockService.alternatives] at h ⊢
      by_cases ht : t.proposalId = w.id
      · rw [if_pos ht] at h ⊢
        exact alternatives_same env env' h
      · rw [if_neg ht] at h ⊢
        simp only [Reads.run_bind, Reads.run_query, Reads.run_orThrow, Reads.run_pure, Except.bind]
          at h ⊢
        cases hp : ProposalRepository.getForDecision d.id t.proposalId db with
        | none =>
            rw [hp] at h
            cases h
        | some p =>
            simp only [hp, Option.elim] at h ⊢
            cases hrest : (DecisionLockService.alternatives env d w tallies).run db with
            | error e =>
                rw [hrest] at h
                cases h
            | ok rest =>
                rw [hrest] at h
                cases h
                obtain ⟨rest', hrun, hsame⟩ := alternatives_same env env' hrest
                rw [hrun]
                exact ⟨_, rfl, .cons ⟨rfl, rfl, rfl, (listForProposal_perm _ _ _ _).map _⟩ hsame⟩

theorem buildSnapshot_same {env : Env} (env' : Env) {r : VotingResultResponse} {s : Snapshot}
    (h : (DecisionLockService.buildSnapshot env d w r).run db = .ok s) :
    ∃ s', (DecisionLockService.buildSnapshot env' d w r).run db = .ok s' ∧ s.Same s' := by
  simp only [DecisionLockService.buildSnapshot, Reads.run_bind, Reads.run_query, Reads.run_pure,
    Except.bind] at h ⊢
  cases hrun : (DecisionLockService.alternatives env d w r.tallies).run db with
  | error e =>
      rw [hrun] at h
      cases h
  | ok as =>
      rw [hrun] at h
      cases h
      obtain ⟨as', hrun', hsame⟩ := alternatives_same env env' hrun
      rw [hrun']
      exact ⟨_, rfl, rfl, rfl, rfl, (listForProposal_perm _ _ _ _).map _, hsame⟩

/-! ## Reading as a member -/

/-- `user` is a member of the workspace of `d`. -/
def Db.IsMember (db : Db) (d : Decision) (user : User) : Prop :=
  ∃ m ∈ db.workspaceMembers, m.workspaceId = d.workspaceId ∧ m.userId = user.id

/-- A member of the workspace is in the context of the decision. -/
theorem Db.inContext (hd : d ∈ db.decisions) {user : User} (hm : db.IsMember d user) :
    ∃ c, InContext user.id d.workspaceId d.id db db db c := by
  obtain ⟨m, hm, hmw, hmu⟩ := hm
  obtain ⟨ws, hws, hk⟩ := db.valid.fkDecisionsWorkspace d hd
  have hfind : (WorkspaceRepository.getMembership d.workspaceId user.id db).isSome = true := by
    refine List.find?_isSome.mpr ⟨m, hm, ?_⟩
    rw [hmw, hmu]
    simp
  obtain ⟨m', hm'⟩ := Option.isSome_iff_exists.mp hfind
  refine ⟨⟨m', d⟩, ⟨ws, ?_⟩, hm', ?_⟩
  · rw [WorkspaceRepository.getById, ← hk]
    exact find_of_mem db.valid.pkWorkspaces hws
  · exact find_and_of_mem db.valid.pkDecisions hd rfl

/-- What a member reads of a closed session. -/
theorem getResult_exec {dep : Deployment} {s : VotingSession} (hd : d ∈ db.decisions)
    (hs : s ∈ db.votingSessions) (hsd : s.decisionId = d.id) (hclosed : s.status = .closed)
    {user : User} (hm : db.IsMember d user) :
    ((Op.getResult user d.workspaceId d.id s.id).exec dep db).1 =
      .ok (.result (s.resultIn db)) := by
  obtain ⟨c, hc⟩ := Db.inContext hd hm
  have hsession : VotingRepository.getForDecision d.id s.id db = some s :=
    find_and_of_mem db.valid.pkVotingSessions hs hsd
  have hrun : (VotingService.getResult user d.workspaceId d.id s.id).run db =
      .ok (.reply (s.resultIn db)) := by
    simp only [VotingService.getResult, VotingService.readResult, VotingService.requireSession,
      Reads.run_bind, decisionContext_run_iff.mpr hc, Reads.run_query, Reads.run_orThrow,
      Reads.run_require,
      Reads.run_pure, hsession, hclosed, Option.elim, Except.bind, if_true]
    rfl
  rw [Op.exec, Request.exec_reply (a := .result (s.resultIn db))]
  show (Request.map _ _).run db = _
  rw [Request.run_map, hrun]
  rfl

/-- What a member reads of a lock: `verify` hashes the stored snapshot. -/
theorem verifyLock_exec {dep : Deployment} {l : DecisionLock} (hd : d ∈ db.decisions)
    (hl : l ∈ db.decisionLocks) (hld : l.decisionId = d.id) {user : User}
    (hm : db.IsMember d user) :
    ((Op.verifyLock user d.workspaceId d.id).exec dep db).1 =
      .ok (.verification (DecisionLockService.verification dep d.id l)) := by
  obtain ⟨c, hc⟩ := Db.inContext hd hm
  have hlock : DecisionLockRepository.getForDecision d.id db = some l := by
    cases h : DecisionLockRepository.getForDecision d.id db with
    | none =>
        exact absurd hld (DecisionLockRepository.getForDecision_none (by rw [h]; rfl) l hl)
    | some l' =>
        obtain ⟨hl', hld'⟩ := DecisionLockRepository.getForDecision_some h
        rw [List.inj_on_of_nodup_map db.valid.uqDecisionLocksDecisionId hl' hl
          (hld'.trans hld.symm)]
  have hrun : (DecisionLockService.verify dep user d.workspaceId d.id).run db =
      .ok (.reply (DecisionLockService.verification dep d.id l)) := by
    simp only [DecisionLockService.verify, DecisionLockService.readLock, Reads.run_bind,
      decisionContext_run_iff.mpr hc, Reads.run_query, Reads.run_orThrow, Reads.run_pure, hlock,
      Option.elim,
      Except.bind]
  rw [Op.exec, Request.exec_reply
    (a := .verification (DecisionLockService.verification dep d.id l))]
  show (Request.map _ _).run db = _
  rw [Request.run_map, hrun]
  rfl

end

/-! ## The record -/

section
variable {dep : Deployment} {db : Db} {l : DecisionLock}

theorem locks_kept_runAll (hl : l ∈ db.decisionLocks) :
    ∀ ops : List Op, l ∈ (runAll dep ops db).decisionLocks := by
  intro ops
  induction ops generalizing db with
  | nil => exact hl
  | cons op ops ih => exact ih ((Op.exec_step dep op db).locks_kept l hl)

/-- **The record stays frozen.**  Whatever is done after a lock, its row is still
there, and for every member of the workspace: `get_result` of its session, with
the live decision and winning proposal, rebuilds the stored snapshot up to the
order of objections, and `verify` finds the record valid. -/
theorem record_frozen (h : Reachable dep db) (hl : l ∈ db.decisionLocks) (ops : List Op) :
    l ∈ (runAll dep ops db).decisionLocks ∧
      ∃ d ∈ (runAll dep ops db).decisions, ∃ w ∈ (runAll dep ops db).proposals, ∃ s : Snapshot,
        d.id = l.decisionId ∧ w.id = l.winningProposalId ∧ l.snapshot = s.toJson ∧
        ∀ user, (runAll dep ops db).IsMember d user →
          (∃ r, ((Op.getResult user d.workspaceId d.id l.votingSessionId).exec dep
              (runAll dep ops db)).1 = .ok (.result r) ∧
            ∀ env, ∃ s', (DecisionLockService.buildSnapshot env d w r).run (runAll dep ops db) =
              .ok s' ∧ s.Same s') ∧
          ∃ v, ((Op.verifyLock user d.workspaceId d.id).exec dep (runAll dep ops db)).1 =
            .ok (.verification v) ∧ v.valid = true := by
  have hl' : l ∈ (runAll dep ops db).decisionLocks := locks_kept_runAll hl ops
  refine ⟨hl', ?_⟩
  obtain ⟨d, s, w, hb⟩ := (h.runAll ops).lockInv.locks l hl'
  obtain ⟨env, snapshot, hrun, heq⟩ := hb.built
  refine ⟨d, hb.decision_mem, w, hb.winning_mem, snapshot, hb.decision_id, hb.winning_id, heq,
    fun user hm => ⟨⟨s.resultIn (runAll dep ops db), ?_, fun env' => buildSnapshot_same env' hrun⟩,
      _, verifyLock_exec hb.decision_mem hl' hb.decision_id.symm hm, ?_⟩⟩
  · rw [← hb.session_id]
    exact getResult_exec hb.decision_mem hb.session_mem hb.session_decision hb.closed hm
  · exact decide_eq_true hb.hashed.symm

theorem record_frozen_sample : ∃ l ∈ Sample.locked.decisionLocks,
    l ∈ (runAll Sample.dep [Sample.adaVotes, Sample.closeVote] Sample.locked).decisionLocks ∧
      ∃ d ∈ (runAll Sample.dep [Sample.adaVotes, Sample.closeVote] Sample.locked).decisions,
        d.id = l.decisionId := by
  obtain ⟨l, hl⟩ := List.exists_mem_of_ne_nil _
    (show Sample.locked.decisionLocks ≠ [] by decide +kernel)
  obtain ⟨hl', d, hd, -, -, -, hid, -⟩ := record_frozen Sample.locked_reachable hl
    [Sample.adaVotes, Sample.closeVote]
  exact ⟨l, hl, hl', d, hd, hid⟩

end

end ForkRoom
