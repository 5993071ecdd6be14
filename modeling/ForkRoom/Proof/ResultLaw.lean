/-
# `Proof.ResultLaw` — the outcomes of a closed session

    ballots < ⌈n·q/100⌉     no quorum   no winner, no tie, not valid
    two share the maximum   a tie       no winner
    one is ahead            a winner

`get_result` takes the maximum of the tallies and collects who has it.  A session with
an eligible voter needs at least one ballot for its quorum, so there is a tally when the
quorum is met, and the leaders are never none.
-/
import ForkRoom.Proof.Record

namespace ForkRoom

open Optimistic Rows Plurality

/-! ## The outcomes -/

namespace VotingResultResponse

/-- Too few ballots. -/
structure QuorumMissed (r : VotingResultResponse) : Prop where
  quorumMet : r.quorumMet = false
  resultValid : r.resultValid = false
  winnerProposalId : r.winnerProposalId = none
  isTie : r.isTie = false

/-- Two proposals share the maximum. -/
structure Tied (r : VotingResultResponse) : Prop where
  quorumMet : r.quorumMet = true
  resultValid : r.resultValid = true
  winnerProposalId : r.winnerProposalId = none
  isTie : r.isTie = true
  shared : ∃ t ∈ r.tallies, ∃ t' ∈ r.tallies, t.proposalId ≠ t'.proposalId ∧ t.votes = t'.votes ∧
    ∀ u ∈ r.tallies, u.votes ≤ t.votes

/-- One proposal is ahead. -/
structure Won (r : VotingResultResponse) : Prop where
  quorumMet : r.quorumMet = true
  resultValid : r.resultValid = true
  winnerProposalId : r.winnerProposalId.isSome
  isTie : r.isTie = false

end VotingResultResponse

/-! ## The winner -/

namespace VotingService

variable {tallies tallies' : List ProposalVoteTallyResponse}

/-- There is a winner, or there is a tie. -/
theorem winner_or_tie (h : tallies ≠ []) :
    (∃ w, winner tallies = (some w, false)) ∨
      (winner tallies = (none, true) ∧
        1 < (leaders ProposalVoteTallyResponse.votes tallies).length) := by
  have hne : leaders ProposalVoteTallyResponse.votes tallies ≠ [] := leaders_ne_nil h
  rw [winner_eq]
  match leaders ProposalVoteTallyResponse.votes tallies, hne with
  | [t], _ => exact .inl ⟨t.proposalId, rfl⟩
  | _ :: _ :: ls, _ =>
      have hlen : 1 < (ls.length + 1) + 1 := by omega
      exact .inr ⟨Prod.ext rfl (decide_eq_true hlen), hlen⟩

/-- The order of the tallies does not matter. -/
theorem winner_perm (h : tallies.Perm tallies') : winner tallies = winner tallies' := by
  have hleaders : (leaders ProposalVoteTallyResponse.votes tallies).Perm
      (leaders ProposalVoteTallyResponse.votes tallies') := leaders_perm h
  rw [winner_eq, winner_eq]
  match heq : leaders ProposalVoteTallyResponse.votes tallies, hleaders with
  | [t], hleaders => rw [List.singleton_perm.mp hleaders]
  | [], hleaders => rw [List.nil_perm.mp hleaders]
  | t :: t' :: ls, hleaders =>
      match heq' : leaders ProposalVoteTallyResponse.votes tallies', hleaders.length_eq with
      | u :: u' :: us, hlen => exact Prod.ext rfl (congrArg (fun n => decide (1 < n)) hlen)

end VotingService

/-! ## The required number of ballots -/

section
variable {db : Db} {x : VotingSession}

/-- The least number of ballots that is `q` percent of the voters. -/
theorem requiredVotes_le_iff (hx : x ∈ db.votingSessions) (m : Int) :
    VotingService.requiredVotes x.eligibleVoterCount x.quorumPercentage ≤ m ↔
      x.eligibleVoterCount * x.quorumPercentage ≤ 100 * m := by
  rw [session_requiredVotes hx, Int.ceil_le, div_le_iff₀ (by norm_num : (0 : ℚ) < 100),
    mul_comm (m : ℚ)]
  norm_cast

theorem requiredVotes_bounds (hx : x ∈ db.votingSessions) (hn : 1 ≤ x.eligibleVoterCount) :
    1 ≤ VotingService.requiredVotes x.eligibleVoterCount x.quorumPercentage ∧
      VotingService.requiredVotes x.eligibleVoterCount x.quorumPercentage ≤
        x.eligibleVoterCount := by
  obtain ⟨hq, hq'⟩ := db.valid.ckVotingSessionsQuorumPercentage x hx
  have hle := requiredVotes_le_iff hx
  constructor
  · by_contra hlt
    have hzero := (hle 0).mp (by omega)
    have hpos : 1 * 1 ≤ x.eligibleVoterCount * x.quorumPercentage :=
      mul_le_mul hn hq (by omega) (by omega)
    omega
  · rw [hle, mul_comm]
    exact mul_le_mul_of_nonneg_right hq' (by omega)

/-! ## The tallies of a result -/

/-- The tally of the answer, for a tally that was counted. -/
def VotingService.answered (votesCast : Nat) (tally : ProposalVoteTally) :
    ProposalVoteTallyResponse :=
  ⟨tally.proposalId, tally.votes, VotingService.percentage tally.votes votesCast⟩

theorem VotingService.result_tallies (x : VotingSession) (n : Nat) (ts : List ProposalVoteTally) :
    (VotingService.result x n ts).tallies = ts.map (VotingService.answered n) :=
  rfl

theorem VotingService.result_winner_eq (x : VotingSession) (n : Nat) (ts : List ProposalVoteTally) :
    (VotingService.result x n ts).winnerProposalId =
      if VotingService.requiredVotes x.eligibleVoterCount x.quorumPercentage ≤ n then
        (VotingService.winner (ts.map (VotingService.answered n))).1 else none := by
  simp only [VotingService.result, decide_eq_true_eq]
  split <;> rfl

theorem VotingService.result_isTie_eq (x : VotingSession) (n : Nat) (ts : List ProposalVoteTally) :
    (VotingService.result x n ts).isTie =
      if VotingService.requiredVotes x.eligibleVoterCount x.quorumPercentage ≤ n then
        (VotingService.winner (ts.map (VotingService.answered n))).2 else false := by
  simp only [VotingService.result, decide_eq_true_eq]
  split <;> rfl

variable {s p : UUID} {t : ProposalVoteTallyResponse}

/-- The tally of a proposal, as the result has it. -/
def VotingSession.tallyIn (x : VotingSession) (db : Db) (p : UUID) : ProposalVoteTallyResponse :=
  VotingService.answered (VotingRepository.countVotes x.id db) ⟨p, ballots db.votes x.id p⟩

/-- There is a tally for each proposal of the session, with its ballots. -/
theorem VotingSession.mem_resultIn_tallies : t ∈ (x.resultIn db).tallies ↔
    ∃ p, VotingRepository.isSessionProposal x.id p db ∧ x.tallyIn db p = t := by
  rw [resultIn, VotingService.result_tallies, List.mem_map]
  constructor
  · rintro ⟨tally, htally, rfl⟩
    obtain ⟨⟨_, p⟩, hrow, rfl, rfl⟩ := mem_listTallies.mp htally
    exact ⟨p, isSessionProposal_iff.mpr hrow, rfl⟩
  · rintro ⟨p, hp, rfl⟩
    exact ⟨_, mem_listTallies.mpr ⟨_, isSessionProposal_iff.mp hp, rfl, rfl⟩, rfl⟩

theorem VotingSession.resultIn_tallies_ids (x : VotingSession) (db : Db) :
    ((x.resultIn db).tallies.map ProposalVoteTallyResponse.proposalId).Nodup := by
  rw [resultIn, VotingService.result_tallies, List.map_map, listTallies_eq]
  refine (((orderBy_perm _ _).map _).nodup_iff).mpr ?_
  rw [List.map_map]
  exact nodup_session_proposals db x.id

theorem VotingSession.resultIn_tallies_nodup (x : VotingSession) (db : Db) :
    (x.resultIn db).tallies.Nodup :=
  List.Nodup.of_map _ (x.resultIn_tallies_ids db)

/-- A winner is ahead of all the other proposals, and the quorum is met. -/
theorem VotingSession.resultIn_winner : (x.resultIn db).winnerProposalId = some p ↔
    VotingService.requiredVotes x.eligibleVoterCount x.quorumPercentage ≤
        VotingRepository.countVotes x.id db ∧
      VotingRepository.isSessionProposal x.id p db ∧
      ∀ p', VotingRepository.isSessionProposal x.id p' db → p' ≠ p →
        ballots db.votes x.id p' < ballots db.votes x.id p := by
  have hmem := @mem_resultIn_tallies db x
  have hlead : ∀ {t : ProposalVoteTallyResponse},
      leaders ProposalVoteTallyResponse.votes (x.resultIn db).tallies = [t] ↔
        t ∈ (x.resultIn db).tallies ∧ ∀ u ∈ (x.resultIn db).tallies, u ≠ t → u.votes < t.votes :=
    leaders_eq_singleton (x.resultIn_tallies_nodup db)
  have hwinner : (VotingService.winner (x.resultIn db).tallies).1 = some p ↔
      VotingRepository.isSessionProposal x.id p db ∧
        ∀ p', VotingRepository.isSessionProposal x.id p' db → p' ≠ p →
          ballots db.votes x.id p' < ballots db.votes x.id p := by
    rw [VotingService.winner_some]
    constructor
    · rintro ⟨t, ht, rfl⟩
      obtain ⟨ht, hahead⟩ := hlead.mp ht
      obtain ⟨p, hp, rfl⟩ := hmem.mp ht
      refine ⟨hp, fun p' hp' hne => ?_⟩
      exact hahead (x.tallyIn db p') (hmem.mpr ⟨p', hp', rfl⟩)
        fun heq => hne (congrArg ProposalVoteTallyResponse.proposalId heq)
    · rintro ⟨hp, hahead⟩
      refine ⟨x.tallyIn db p, hlead.mpr ⟨hmem.mpr ⟨p, hp, rfl⟩, fun t ht hne => ?_⟩, rfl⟩
      obtain ⟨p', hp', rfl⟩ := hmem.mp ht
      exact hahead p' hp' fun heq => hne (heq ▸ rfl)
  rw [← hwinner, resultIn, VotingService.result_winner_eq]
  split
  · rename_i hquorum
    exact ⟨fun h => ⟨hquorum, h⟩, And.right⟩
  · rename_i hquorum
    refine ⟨fun h => ?_, fun h => absurd h.1 hquorum⟩
    cases h

/-- With a ballot, and ballots for proposals of the session only, there is a tally. -/
theorem VotingSession.resultIn_tallies_ne_nil
    (hb : ∀ v ∈ db.votes, v.votingSessionId = x.id →
      VotingRepository.isSessionProposal x.id v.proposalId db)
    (hpos : 0 < VotingRepository.countVotes x.id db) : (x.resultIn db).tallies ≠ [] := by
  obtain ⟨v, hv⟩ := List.exists_mem_of_length_pos hpos
  obtain ⟨hv, hs⟩ := List.mem_filter.mp hv
  exact List.ne_nil_of_mem
    (mem_resultIn_tallies.mpr ⟨v.proposalId, hb v hv (of_decide_eq_true hs), rfl⟩)

/-- A winner has a ballot: the quorum asks for one, and nobody has more. -/
theorem VotingSession.resultIn_winner_pos (hx : x ∈ db.votingSessions)
    (hn : 1 ≤ x.eligibleVoterCount)
    (hb : ∀ v ∈ db.votes, v.votingSessionId = x.id →
      VotingRepository.isSessionProposal x.id v.proposalId db)
    (hw : (x.resultIn db).winnerProposalId = some p) : 1 ≤ ballots db.votes x.id p := by
  obtain ⟨hquorum, hp, hahead⟩ := resultIn_winner.mp hw
  have hone := (requiredVotes_bounds hx hn).1
  obtain ⟨v, hv⟩ := List.exists_mem_of_length_pos
    (show 0 < VotingRepository.countVotes x.id db by omega)
  obtain ⟨hv, hs⟩ := List.mem_filter.mp hv
  by_cases hvp : v.proposalId = p
  · -- the ballot is for the winner
    exact List.length_pos_of_mem (List.mem_filter.mpr ⟨hv, by simp [of_decide_eq_true hs, hvp]⟩)
  · exact Nat.one_le_of_lt (hahead v.proposalId (hb v hv (of_decide_eq_true hs)) hvp)

/-- One more ballot for the winner leaves it ahead. -/
theorem VotingSession.resultIn_winner_add {db' : Db} {v : Vote}
    (hproposals : db'.votingSessionProposals = db.votingSessionProposals)
    (hvotes : db'.votes = db.votes ++ [v]) (hv : v.votingSessionId = x.id)
    (hw : (x.resultIn db).winnerProposalId = some v.proposalId) :
    (x.resultIn db').winnerProposalId = some v.proposalId := by
  obtain ⟨hquorum, hp, hahead⟩ := resultIn_winner.mp hw
  have hoffered : ∀ p, VotingRepository.isSessionProposal x.id p db' =
      VotingRepository.isSessionProposal x.id p db := by
    intro p
    rw [VotingRepository.isSessionProposal, hproposals, VotingRepository.isSessionProposal]
  have hcount : VotingRepository.countVotes x.id db' = VotingRepository.countVotes x.id db + 1 := by
    simp [VotingRepository.countVotes, hvotes, List.filter_append, hv]
  have hone : ballots db'.votes x.id v.proposalId = ballots db.votes x.id v.proposalId + 1 := by
    simp [ballots, hvotes, List.filter_append, hv]
  refine resultIn_winner.mpr ⟨by omega, by rw [hoffered]; exact hp, fun p' hp' hne => ?_⟩
  have hother : ballots db'.votes x.id p' = ballots db.votes x.id p' := by
    simp [ballots, hvotes, List.filter_append, hne.symm]
  have hlt := hahead p' (hoffered p' ▸ hp') hne
  omega

/-! ## The law -/

/-- What `get_result` has read, when it runs alone. -/
theorem readResult_run {user : User} {w d s : UUID} {r : VotingResultResponse}
    (h : (VotingService.readResult user w d s).run db = .ok r) :
    ∃ x ∈ db.votingSessions, x.id = s ∧ x.decisionId = d ∧ x.status = .closed ∧
      r = x.resultIn db := by
  obtain ⟨n, hends⟩ := Reads.ends_run (VotingService.readResult user w d s) db
  rw [h, ← Reads.bind_pure (VotingService.readResult user w d s)] at hends
  obtain ⟨_, _, _, s₄, s₅, s₆, ss', _, x, heq, -, hs, hclosed, hend⟩ :=
    VotingService.readResult_bind.mp hends
  have hss : ∀ s' ∈ List.replicate n db, db = s' := fun _ hs' => (List.eq_of_mem_replicate hs').symm
  rw [heq] at hss
  simp only [List.forall_mem_cons] at hss
  obtain ⟨-, -, -, rfl, rfl, rfl, -⟩ := hss
  obtain ⟨-, hr⟩ := Reads.ends_pure.mp hend
  obtain ⟨hx, hid, hxd⟩ := VotingRepository.getForDecision_some hs
  exact ⟨x, hx, hid, hxd, hclosed, hr.symm⟩

/-- What it has answered. -/
theorem getResult_answer {dep : Deployment} {user : User} {w d s : UUID} {r : VotingResultResponse}
    (h : ((Op.getResult user w d s).exec dep db).1 = .ok (.result r)) :
    ∃ x ∈ db.votingSessions, x.id = s ∧ x.status = .closed ∧ r = x.resultIn db := by
  obtain ⟨ss, hss, ⟨hreply, -⟩ | ⟨_, _, _, hcommit, -⟩⟩ := Request.exec_ok Db.commit h
  · obtain ⟨r', hends, hresp⟩ := Request.map_replies hreply
    cases hresp
    have hrun := hends.run_eq hss
    rw [VotingService.getResult, Reads.run_bind] at hrun
    cases hread : (VotingService.readResult user w d s).run db with
    | error e =>
        rw [hread] at hrun
        cases hrun
    | ok r' =>
        rw [hread] at hrun
        cases hrun
        obtain ⟨x, hx, hid, -, hclosed, hr⟩ := readResult_run hread
        exact ⟨x, hx, hid, hclosed, hr⟩
  · exact absurd hcommit (Op.read_commits_nothing rfl)

/-- Of the three outcomes there is exactly one. -/
theorem VotingSession.resultIn_outcome (hx : x ∈ db.votingSessions)
    (hn : 1 ≤ x.eligibleVoterCount)
    (hb : ∀ v ∈ db.votes, v.votingSessionId = x.id →
      VotingRepository.isSessionProposal x.id v.proposalId db) :
    (x.resultIn db).QuorumMissed ∨ (x.resultIn db).Tied ∨ (x.resultIn db).Won := by
  have hwinner := VotingService.result_winner_eq x (VotingRepository.countVotes x.id db)
    (VotingRepository.listTallies x.id db)
  have htie := VotingService.result_isTie_eq x (VotingRepository.countVotes x.id db)
    (VotingRepository.listTallies x.id db)
  by_cases hquorum : VotingService.requiredVotes x.eligibleVoterCount x.quorumPercentage ≤
    VotingRepository.countVotes x.id db
  · have hone := (requiredVotes_bounds hx hn).1
    have hne := resultIn_tallies_ne_nil hb (show 0 < VotingRepository.countVotes x.id db by omega)
    rw [if_pos hquorum] at hwinner htie
    rcases VotingService.winner_or_tie hne with ⟨w, hw⟩ | ⟨hw, hleaders⟩
    · refine .inr (.inr ⟨decide_eq_true hquorum, decide_eq_true hquorum, ?_,
        htie.trans (congrArg Prod.snd hw)⟩)
      exact (congrArg Option.isSome (hwinner.trans (congrArg Prod.fst hw))).trans rfl
    · refine .inr (.inl ⟨decide_eq_true hquorum, decide_eq_true hquorum,
        hwinner.trans (congrArg Prod.fst hw), htie.trans (congrArg Prod.snd hw), ?_⟩)
      obtain ⟨t, ht, t', ht', hdiff, heq, hmax⟩ :=
        (one_lt_length_leaders (x.resultIn_tallies_nodup db)).mp hleaders
      refine ⟨t, ht, t', ht', fun hid => hdiff ?_, heq, hmax⟩
      -- a proposal has one tally
      obtain ⟨p, -, rfl⟩ := mem_resultIn_tallies.mp ht
      obtain ⟨p', -, rfl⟩ := mem_resultIn_tallies.mp ht'
      exact congrArg (x.tallyIn db) hid
  · rw [if_neg hquorum] at hwinner htie
    exact .inl ⟨decide_eq_false hquorum, decide_eq_false hquorum, hwinner, htie⟩

end

/-- **Result law.**  A result that is answered for a session with an eligible voter, whose
ballots are for its proposals, is that of a closed session.  The required number is the least
that is the quorum of the voters.  There is exactly one of the three outcomes.  A winner is
reported when the quorum is met and it is ahead of all the others, and it has a ballot.  The
tallies add up, their order does not matter, and a winner that gets one more ballot wins. -/
theorem result_law {dep : Deployment} {db : Db} {user : User} {w d s : UUID}
    {r : VotingResultResponse}
    (hr : ((Op.getResult user w d s).exec dep db).1 = .ok (.result r))
    (hn : 1 ≤ r.eligibleVoterCount)
    (hb : ∀ v ∈ db.votes, v.votingSessionId = s →
      VotingRepository.isSessionProposal s v.proposalId db) :
    (∀ m : Int, r.requiredVotes ≤ m ↔ r.eligibleVoterCount * r.quorumPercentage ≤ 100 * m) ∧
    (1 ≤ r.requiredVotes ∧ r.requiredVotes ≤ r.eligibleVoterCount) ∧
    (r.QuorumMissed ∧ ¬ r.Tied ∧ ¬ r.Won ∨ ¬ r.QuorumMissed ∧ r.Tied ∧ ¬ r.Won ∨
      ¬ r.QuorumMissed ∧ ¬ r.Tied ∧ r.Won) ∧
    (∀ p, r.winnerProposalId = some p ↔
      r.requiredVotes ≤ r.votesCast ∧ VotingRepository.isSessionProposal s p db ∧
        ∀ p', VotingRepository.isSessionProposal s p' db → p' ≠ p →
          ballots db.votes s p' < ballots db.votes s p) ∧
    (∀ p, r.winnerProposalId = some p → 1 ≤ ballots db.votes s p) ∧
    (∀ t ∈ r.tallies, t.votes = ballots db.votes s t.proposalId) ∧
    (r.tallies.map ProposalVoteTallyResponse.votes).sum = r.votesCast ∧
    ∃ x ∈ db.votingSessions, x.id = s ∧ x.status = .closed ∧
      r = VotingService.result x (VotingRepository.countVotes s db)
        (VotingRepository.listTallies s db) ∧
      (∀ ts : List ProposalVoteTally, ts.Perm (VotingRepository.listTallies s db) →
        { VotingService.result x (VotingRepository.countVotes s db) ts with tallies := r.tallies } =
          r ∧
        (VotingService.result x (VotingRepository.countVotes s db) ts).tallies.Perm r.tallies) ∧
      ∀ (db' : Db) (v : Vote), db'.votingSessionProposals = db.votingSessionProposals →
        db'.votes = db.votes ++ [v] → v.votingSessionId = s →
        r.winnerProposalId = some v.proposalId →
        (VotingService.result x (VotingRepository.countVotes s db')
          (VotingRepository.listTallies s db')).winnerProposalId = some v.proposalId := by
  obtain ⟨x, hx, rfl, hclosed, rfl⟩ := getResult_answer hr
  refine ⟨requiredVotes_le_iff hx, requiredVotes_bounds hx hn, ?_, fun p =>
    VotingSession.resultIn_winner, fun p => VotingSession.resultIn_winner_pos hx hn hb, ?_, ?_,
    x, hx, rfl, hclosed, rfl, ?_, fun db' v hproposals hvotes hv hw =>
      VotingSession.resultIn_winner_add hproposals hvotes hv hw⟩
  · rcases VotingSession.resultIn_outcome hx hn hb with h | h | h
    · refine .inl ⟨h, fun h' => ?_, fun h' => ?_⟩
      · simpa [h.quorumMet] using h'.quorumMet
      · simpa [h.quorumMet] using h'.quorumMet
    · refine .inr (.inl ⟨fun h' => ?_, h, fun h' => ?_⟩)
      · simpa [h.quorumMet] using h'.quorumMet
      · simpa [h.isTie] using h'.isTie
    · refine .inr (.inr ⟨fun h' => ?_, fun h' => ?_, h⟩)
      · simpa [h.quorumMet] using h'.quorumMet
      · simpa [h.isTie] using h'.isTie
  · intro t ht
    obtain ⟨p, -, rfl⟩ := VotingSession.mem_resultIn_tallies.mp ht
    rfl
  · rw [VotingSession.resultIn, VotingService.result_tallies, List.map_map]
    exact sum_listTallies hb
  · intro ts hts
    have hperm := hts.map (VotingService.answered (VotingRepository.countVotes x.id db))
    have hwinner := VotingService.winner_perm hperm
    refine ⟨?_, hperm⟩
    -- the outcome is all that the result takes from the tallies
    exact congrArg (fun o : Option UUID × Bool =>
      { x.resultIn db with
        winnerProposalId := (if (x.resultIn db).quorumMet then o else (none, false)).1
        isTie := (if (x.resultIn db).quorumMet then o else (none, false)).2 }) hwinner

/-- Ada's ballot decides the closed vote. -/
theorem result_law_sample : ∃ r,
    ((Op.getResult Sample.ada 10 20 40).exec Sample.dep Sample.closed).1 = .ok (.result r) ∧
      r.winnerProposalId = some 30 ∧ 1 ≤ ballots Sample.closed.votes 40 30 := by
  obtain ⟨d, hd, hdid, hdw, m, hm, hmw, hmu⟩ := show ∃ d ∈ Sample.closed.decisions, d.id = 20 ∧
    d.workspaceId = 10 ∧ ∃ m ∈ Sample.closed.workspaceMembers, m.workspaceId = 10 ∧
      m.userId = Sample.ada.id by decide +kernel
  obtain ⟨x, hx, hid, hxd, hclosed, hn, hw⟩ := show ∃ x ∈ Sample.closed.votingSessions,
    x.id = 40 ∧ x.decisionId = 20 ∧ x.status = .closed ∧ 1 ≤ x.eligibleVoterCount ∧
      (x.resultIn Sample.closed).winnerProposalId = some 30 by decide +kernel
  have hr : ((Op.getResult Sample.ada d.workspaceId d.id x.id).exec Sample.dep Sample.closed).1 =
      .ok (.result (x.resultIn Sample.closed)) :=
    getResult_exec hd hx (hxd.trans hdid.symm) hclosed ⟨m, hm, hmw.trans hdw.symm, hmu⟩
  rw [hdw, hdid, hid] at hr
  obtain ⟨-, -, -, -, hpos, -⟩ := result_law hr hn (by decide +kernel)
  exact ⟨_, hr, hw, hpos 30 hw⟩

end ForkRoom
