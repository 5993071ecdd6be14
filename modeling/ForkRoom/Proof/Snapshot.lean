/-
# `Proof.Snapshot` — the snapshot of a lock is complete

    tallies          t₁   t₂   t₃        one for each proposal of the session
    snapshot     alternative  approved  alternative

The loop of `_build_snapshot` drops the winner and looks every other proposal up.  It
finds them all: the session offers proposals of its own decision, a foreign key keeps
them, and no operation moves a proposal to another decision.
-/
import ForkRoom.Proof.ResultLaw

namespace ForkRoom

open Optimistic Rows

/-! ## What is recorded -/

/-- The rows of the session's proposals, as their ids. -/
def Db.offeredIn (db : Db) (s : UUID) : List UUID :=
  (db.votingSessionProposals.filter fun p => p.votingSessionId = s).map
    VotingSessionProposal.proposalId

/-- The objections to a proposal, whatever their severity and status. -/
def Db.objectionsTo (db : Db) (p : UUID) : List Objection :=
  db.objections.filter fun o => o.proposalId = p

theorem listForProposal_objectionsTo (tie : UUID → Nat) (p : UUID) (db : Db) :
    (ObjectionRepository.listForProposal tie p none none db).Perm (db.objectionsTo p) := by
  rw [Db.listForProposal_rows]
  exact orderBy_perm _ _

/-- The tally that lost, with its proposal, is recorded in full. -/
structure Alternative (db : Db) (t : ProposalVoteTallyResponse) (p : Proposal)
    (a : AlternativeProposal) : Prop where
  proposal : a.proposal = DecisionLockService.proposalSnapshot p
  votes : a.votes = t.votes
  percentage : a.percentage = t.percentage
  objections : a.objections.Perm ((db.objectionsTo p.id).map DecisionLockService.objectionSnapshot)

section
variable {dep : Deployment} {env : Env} {db : Db} {d : Decision} {w : Proposal}
  {tallies : List ProposalVoteTallyResponse}

/-- The loop takes every tally but the winner's, and finds its proposal. -/
theorem alternatives_complete (env : Env)
    (h : ∀ t ∈ tallies, (ProposalRepository.getForDecision d.id t.proposalId db).isSome) :
    ∃ others : List (ProposalVoteTallyResponse × Proposal × AlternativeProposal),
      (DecisionLockService.alternatives env d w tallies).run db = .ok (others.map fun x => x.2.2) ∧
      (others.map fun x => x.1) = tallies.filter (fun t => t.proposalId ≠ w.id) ∧
      ∀ x ∈ others, ProposalRepository.getForDecision d.id x.1.proposalId db = some x.2.1 ∧
        Alternative db x.1 x.2.1 x.2.2 := by
  induction tallies with
  | nil => exact ⟨[], rfl, rfl, fun _ hx => nomatch hx⟩
  | cons t tallies ih =>
      obtain ⟨others, hrun, hfilter, hall⟩ := ih fun t' ht' => h t' (List.mem_cons_of_mem _ ht')
      rw [DecisionLockService.alternatives]
      by_cases ht : t.proposalId = w.id
      · rw [if_pos ht]
        exact ⟨others, hrun, by simp [hfilter, ht], hall⟩
      · obtain ⟨p, hp⟩ := Option.isSome_iff_exists.mp (h t List.mem_cons_self)
        refine ⟨(t, p, ⟨DecisionLockService.proposalSnapshot p, t.votes, t.percentage,
          (ObjectionRepository.listForProposal env.tie p.id none none db).map
            DecisionLockService.objectionSnapshot⟩) :: others, ?_, ?_, ?_⟩
        · simp only [if_neg ht, Reads.run_bind, Reads.run_query, Reads.run_orThrow, Reads.run_pure,
            Except.bind, hp, Option.elim, hrun, List.map_cons]
        · simp [hfilter, ht]
        · rw [List.forall_mem_cons]
          exact ⟨⟨hp, rfl, rfl, rfl, (listForProposal_objectionsTo _ _ _).map _⟩, hall⟩

/-- A proposal that the session offers is one of its decision. -/
theorem VotingInv.offered_found (h : VotingInv db.core) {x : VotingSession}
    (hx : x ∈ db.votingSessions) (hxd : x.decisionId = d.id) {p : UUID}
    (hp : VotingRepository.isSessionProposal x.id p db) :
    (ProposalRepository.getForDecision d.id p db).isSome := by
  have hrow := isSessionProposal_iff.mp hp
  obtain ⟨q, hq, hid⟩ := db.valid.fkVotingSessionProposalsProposal _ hrow
  have hqp : q.id = p := hid
  have hqd : q.decisionId = x.decisionId := h.offered _ hrow x hx rfl q hq hqp
  have hfound : ProposalRepository.getForDecision d.id q.id db = some q :=
    find_and_of_mem db.valid.pkProposals hq (hqd.trans hxd)
  rw [← hqp, hfound]
  rfl

theorem VotingInv.tallies_found (h : VotingInv db.core) {x : VotingSession}
    (hx : x ∈ db.votingSessions) (hxd : x.decisionId = d.id) :
    ∀ t ∈ (x.resultIn db).tallies,
      (ProposalRepository.getForDecision d.id t.proposalId db).isSome := by
  intro t ht
  obtain ⟨p, hp, rfl⟩ := VotingSession.mem_resultIn_tallies.mp ht
  exact h.offered_found hx hxd hp

/-- The tallies are the winner's and the others. -/
theorem VotingSession.tallies_split {x : VotingSession} {t : ProposalVoteTallyResponse}
    (ht : t ∈ (x.resultIn db).tallies) :
    (t :: (x.resultIn db).tallies.filter fun u => u.proposalId ≠ t.proposalId).Perm
      (x.resultIn db).tallies := by
  have hn : ((x.resultIn db).tallies.map ProposalVoteTallyResponse.proposalId).Nodup :=
    x.resultIn_tallies_ids db
  have hone : (x.resultIn db).tallies.filter (fun u => u.proposalId = t.proposalId) = [t] := by
    refine List.perm_singleton.mp ((List.perm_ext_iff_of_nodup
      ((List.Nodup.of_map _ hn).filter _) (List.nodup_singleton t)).mpr fun u => ?_)
    rw [List.mem_filter, List.mem_singleton, decide_eq_true_eq]
    constructor
    · rintro ⟨hu, hid⟩
      exact List.inj_on_of_nodup_map hn hu ht hid
    · rintro rfl
      exact ⟨ht, rfl⟩
  have hsplit := List.filter_append_perm
    (fun u : ProposalVoteTallyResponse => u.proposalId = t.proposalId) (x.resultIn db).tallies
  rw [hone] at hsplit
  simpa using hsplit

/-- The tallies are of the proposals that the session offers. -/
theorem VotingSession.tallies_offered (x : VotingSession) (db : Db) :
    ((x.resultIn db).tallies.map ProposalVoteTallyResponse.proposalId).Perm
      (db.offeredIn x.id) := by
  rw [resultIn, VotingService.result_tallies, List.map_map, listTallies_eq]
  refine ((orderBy_perm _ _).map _).trans ?_
  rw [List.map_map]
  exact List.Perm.refl _

/-! ## The lock -/

theorem decisionContext_found (u w d : UUID) (db : Db) :
    (decisionContext u w d).run db ≠ .error .proposalNotFound := by
  have hraises : (decisionContext u w d).Raises fun e => e ≠ .proposalNotFound :=
    decisionContext_raises (by decide) (by decide)
  exact fun h => hraises db _ h rfl

theorem decisionContext_decision {u w d : UUID} {c : Context}
    (h : (decisionContext u w d).run db = .ok c) : c.decision.id = d :=
  (DecisionRepository.getForWorkspace_some (decisionContext_run_iff.mp h).decision).2.1

theorem readResult_found (user : User) (w d s : UUID) (db : Db) :
    (VotingService.readResult user w d s).run db ≠ .error .proposalNotFound := by
  refine Reads.run_bind_ne (decisionContext_found _ _ _ _) fun c _ => ?_
  simp only [VotingService.requireSession, Reads.run_bind, Reads.run_query, Reads.run_orThrow,
    Reads.run_require, Reads.run_pure]
  cases VotingRepository.getForDecision d s db with
  | none => simp [Except.bind]
  | some x => by_cases hclosed : x.status = .closed <;> simp [Except.bind, hclosed]

/-- The reads of a lock request do not fail for want of a proposal. -/
theorem DecisionLockService.create_found (h : VotingInv db.core) (user : User) (w d : UUID)
    (payload : DecisionLockCreateRequest) :
    (DecisionLockService.create dep env user w d payload).run db ≠ .error .proposalNotFound := by
  have hquery : ∀ {α : Type} (q : Db → α),
      (query q : Query α).run db ≠ .error .proposalNotFound := by
    intro α q
    simp
  have hrequire : ∀ (p : Prop) [Decidable p] (e : ServiceError), e ≠ .proposalNotFound →
      (require p e : Query Unit).run db ≠ .error .proposalNotFound := by
    intro p _ e he
    rw [Reads.run_require]
    split <;> simp [he]
  have hthrow : ∀ {α : Type} (o : Option α) (e : ServiceError), e ≠ .proposalNotFound →
      (orThrow o e : Query α).run db ≠ .error .proposalNotFound := by
    intro α o e he
    cases o <;> simp [he]
  unfold DecisionLockService.create
  refine Reads.run_bind_ne (decisionContext_found _ _ _ _) fun c hc => ?_
  refine Reads.run_bind_ne (hrequire _ _ (by intro h; cases h)) fun _ _ => ?_
  refine Reads.run_bind_ne (hrequire _ _ (by intro h; cases h)) fun _ _ => ?_
  refine Reads.run_bind_ne (hquery _) fun _ _ => ?_
  refine Reads.run_bind_ne (hrequire _ _ (by intro h; cases h)) fun _ _ => ?_
  refine Reads.run_bind_ne (hquery _) fun _ _ => ?_
  refine Reads.run_bind_ne (hrequire _ _ (by intro h; cases h)) fun _ _ => ?_
  refine Reads.run_bind_ne (readResult_found _ _ _ _ _) fun r hr => ?_
  obtain ⟨x, hx, -, hxd, -, rfl⟩ := readResult_run hr
  obtain rfl : c.decision.id = d := decisionContext_decision hc
  have hfound := h.tallies_found hx hxd
  refine Reads.run_bind_ne (hrequire _ _ (by intro h; cases h)) fun _ _ => ?_
  refine Reads.run_bind_ne (hthrow _ _ (by intro h; cases h)) fun win hwin => ?_
  -- the winner is one of the tallies
  have hwin : (x.resultIn db).winnerProposalId = some win := by
    cases hw : (x.resultIn db).winnerProposalId with
    | none => simp [hw] at hwin
    | some win' => simpa [hw] using hwin
  obtain ⟨-, hoffered, -⟩ := VotingSession.resultIn_winner.mp hwin
  obtain ⟨p, hp⟩ := Option.isSome_iff_exists.mp (h.offered_found hx hxd hoffered)
  refine Reads.run_bind_ne (hquery _) fun o ho => ?_
  obtain rfl : _ = o := Except.ok.inj ho
  rw [hp]
  refine Reads.run_bind_ne (by simp) fun q hq => ?_
  refine Reads.run_bind_ne (hrequire _ _ (by intro h; cases h)) fun _ _ => ?_
  refine Reads.run_bind_ne ?_ fun _ _ => by simp
  refine Reads.run_bind_ne (hquery _) fun _ _ => ?_
  obtain ⟨others, hothers, -⟩ := alternatives_complete (w := q) env hfound
  refine Reads.run_bind_ne ?_ fun _ _ => by simp
  rw [hothers]
  intro h
  cases h

/-- No lock request fails for want of a proposal. -/
theorem Op.createLock_found (h : VotingInv db.core) (user : User) (w d : UUID)
    (payload : DecisionLockCreateRequest) :
    ((Op.createLock env user w d payload).exec dep db).1 ≠ .error .proposalNotFound := by
  intro herror
  have hreads : (DecisionLockService.create dep env user w d payload).run db ≠
      .error .proposalNotFound := DecisionLockService.create_found h user w d payload
  have hprogram : ((Op.createLock env user w d payload).program dep).run db =
      ((DecisionLockService.create dep env user w d payload).run db).map (Intent.map .lock) :=
    Request.run_map _ _ db
  rcases Request.exec_error Db.commit herror with hrun | ⟨ws, ok, rejected, hrun, hlate⟩
  · rw [hprogram] at hrun
    cases hr : (DecisionLockService.create dep env user w d payload).run db with
    | error e =>
        rw [hr] at hrun hreads
        cases hrun
        exact hreads rfl
    | ok i =>
        rw [hr] at hrun
        nomatch hrun
  · rw [hprogram] at hrun
    cases hr : (DecisionLockService.create dep env user w d payload).run db with
    | error e =>
        rw [hr] at hrun
        nomatch hrun
    | ok i =>
        -- what comes after the reads is the commit and the refresh
        obtain ⟨n, hends⟩ := Reads.ends_run (DecisionLockService.create dep env user w d payload) db
        rw [hr] at hends hrun
        obtain ⟨ws', rfl⟩ := DecisionLockService.create_answers hends
        cases hrun
        rcases hlate with ⟨e, he⟩ | ⟨db', he⟩
        · rw [integrityAs] at he
          split at he <;> nomatch he
        · simp only [refresh] at he
          cases hfound : Rows.find env.newId db'.decisionLocks <;> simp [hfound, Except.map] at he

end

/-- **Completeness of the snapshot.**  In every state that an atomic run reaches, a lock that
is created has in its snapshot the winner and one alternative for each other proposal of the
session.  The votes of the alternatives and of the winner add up to the votes cast, and each
proposal comes with all the objections to it.  No proposal is ever missing. -/
theorem snapshot_complete {dep : Deployment} {db : Db} (hrun : Reachable dep db) (env : Env)
    (user : User) (w d : UUID) (payload : DecisionLockCreateRequest) :
    (∀ l, ((Op.createLock env user w d payload).exec dep db).1 = .ok (.lock l) →
      ∃ (snapshot : Snapshot) (r : VotingResultResponse) (winning : Proposal)
        (t : ProposalVoteTallyResponse)
        (others : List (ProposalVoteTallyResponse × Proposal × AlternativeProposal)),
        l.snapshot = snapshot.toJson ∧ snapshot.votingResult = r.toJson ∧
        -- each proposal of the session, once
        (winning :: others.map fun x => x.2.1) ⊆ db.proposals ∧
        ((winning :: others.map fun x => x.2.1).map Proposal.id).Perm
          (db.offeredIn payload.votingSessionId) ∧
        (db.offeredIn payload.votingSessionId).Nodup ∧
        snapshot.approvedProposal = DecisionLockService.proposalSnapshot winning ∧
        snapshot.alternativeProposals = (others.map fun x => x.2.2) ∧
        -- with its votes and its objections
        t.proposalId = winning.id ∧ (t :: others.map fun x => x.1).Perm r.tallies ∧
        t.votes + (others.map fun x => x.2.2.votes).sum = r.votesCast ∧
        snapshot.objectionsToApprovedProposal.Perm
          ((db.objectionsTo winning.id).map DecisionLockService.objectionSnapshot) ∧
        ∀ x ∈ others, Alternative db x.1 x.2.1 x.2.2 ∧ x.1.proposalId = x.2.1.id) ∧
    ((Op.createLock env user w d payload).exec dep db).1 ≠ .error .proposalNotFound := by
  refine ⟨fun l hl => ?_, Op.createLock_found hrun.votingInv user w d payload⟩
  obtain ⟨dec, dec', x, r, winning, snapshot, hcan, rfl, hxid, -, -, rfl, -⟩ := Op.createLock_ok hl
  have hr : r = x.resultIn db := hcan.counted
  subst hr
  obtain ⟨others, hothers, hfilter, hall⟩ := alternatives_complete (w := winning) env
    (hrun.votingInv.tallies_found hcan.session_mem hcan.session_decision)
  -- the winner has its tally
  obtain ⟨-, hoffered, -⟩ := VotingSession.resultIn_winner.mp hcan.winner
  have ht : x.tallyIn db winning.id ∈ (x.resultIn db).tallies :=
    VotingSession.mem_resultIn_tallies.mpr ⟨winning.id, hoffered, rfl⟩
  have hsplit := VotingSession.tallies_split ht
  have hfilter : (others.map fun x => x.1) =
      (x.resultIn db).tallies.filter fun u => u.proposalId ≠ (x.tallyIn db winning.id).proposalId :=
    hfilter
  rw [← hfilter] at hsplit
  have hids : ∀ y ∈ others, y.1.proposalId = y.2.1.id := fun y hy =>
    (ProposalRepository.getForDecision_some (hall y hy).1).2.1.symm
  have hbuilt := hcan.built
  simp only [DecisionLockService.buildSnapshot, Reads.run_bind, Reads.run_query, Reads.run_pure,
    Except.bind, hothers] at hbuilt
  cases hbuilt
  refine ⟨_, x.resultIn db, winning, x.tallyIn db winning.id, others, rfl, rfl, ?_, ?_, ?_,
    rfl, rfl,
    rfl, hsplit, ?_, (listForProposal_objectionsTo _ _ _).map _,
    fun y hy => ⟨(hall y hy).2, hids y hy⟩⟩
  · intro p hp
    rcases List.mem_cons.mp hp with rfl | hp
    · exact hcan.winning_mem
    · obtain ⟨y, hy, rfl⟩ := List.mem_map.mp hp
      exact (ProposalRepository.getForDecision_some (hall y hy).1).1
  · rw [← hxid]
    refine List.Perm.trans ?_ ((hsplit.map _).trans (x.tallies_offered db))
    rw [List.map_cons, List.map_cons, List.map_map, List.map_map]
    exact .of_eq (congrArg (winning.id :: ·) (List.map_congr_left fun y hy => (hids y hy).symm))
  · exact nodup_session_proposals db _
  · have hvotes := (hsplit.map ProposalVoteTallyResponse.votes).sum_eq
    rw [List.map_cons, List.sum_cons, List.map_map] at hvotes
    have hsum : ((x.resultIn db).tallies.map ProposalVoteTallyResponse.votes).sum =
        (x.resultIn db).votesCast := by
      rw [VotingSession.resultIn, VotingService.result_tallies, List.map_map]
      exact sum_listTallies fun v hv hvs =>
        hvs ▸ isSessionProposal_iff.mpr (hrun.votingInv.ballots v hv).2
    rw [← hsum, ← hvotes]
    congr 2
    exact List.map_congr_left fun y hy => (hall y hy).2.votes

/-- The lock on the vote of two proposals records the one that lost. -/
theorem snapshot_complete_sample :
    ∃ l, (Sample.lock.exec Sample.dep Sample.closed).1 = .ok (.lock l) ∧
    ∃ snapshot : Snapshot, l.snapshot = snapshot.toJson ∧
      snapshot.alternativeProposals.length + 1 = (Sample.closed.offeredIn 40).length := by
  obtain ⟨l, hl⟩ := Option.isSome_iff_exists.mp
    (show (lockOf (Sample.lock.exec Sample.dep Sample.closed).1).isSome by decide +kernel)
  have hrun : Reachable Sample.dep Sample.closed := (Sample.opened_reachable.step _).step _
  obtain ⟨snapshot, _, winning, _, others, hjson, -, -, hperm, -, -, halternatives, -⟩ :=
    (snapshot_complete hrun (Sample.env 13 60) Sample.ada 10 20 ⟨40⟩).1 l (lockOf_some hl)
  refine ⟨l, lockOf_some hl, snapshot, hjson, ?_⟩
  have hlength := hperm.length_eq
  simp only [List.length_map, List.length_cons] at hlength
  rw [halternatives, List.length_map, hlength]

end ForkRoom
