/-
# `Proof.Results` — what a result says about the ballots

`list_tallies` is an outer join and a group-by, `count_votes` a plain count, and
the quorum a float quotient.  Here they are reduced to the ballots of the
session: a tally is the number of ballots for its proposal, the tallies add up
to the count, the required number is the exact ceiling, and a winner is the one
proposal with the most ballots.
-/
import ForkRoom.Lib.Plurality
import ForkRoom.Service.Voting

namespace ForkRoom

open Rows Plurality

/-- The number of ballots for `p` in the session `s`. -/
def ballots (votes : List Vote) (s p : UUID) : Nat :=
  (votes.filter fun v => v.votingSessionId = s && v.proposalId = p).length

section
variable {db : Db} {s : UUID}

/-! ## Tallies -/

theorem nodup_session_proposals (db : Db) (s : UUID) :
    ((db.votingSessionProposals.filter fun p => p.votingSessionId = s).map
      VotingSessionProposal.proposalId).Nodup := by
  have hn : (db.votingSessionProposals.map Keyed.key).Nodup :=
    db.valid.uqVotingSessionProposalsSessionProposal
  refine List.Nodup.map_on ?_ ((List.Nodup.of_map _ hn).filter _)
  intro p hp q hq h
  have hp' := List.mem_filter.mp hp
  have hq' := List.mem_filter.mp hq
  have hs : p.votingSessionId = q.votingSessionId :=
    (of_decide_eq_true hp'.2).trans (of_decide_eq_true hq'.2).symm
  exact eq_of_key hn hp'.1 hq'.1 (Prod.ext hs h)

/-- The tallies are the proposals of the session, each with its ballots. -/
theorem listTallies_eq (db : Db) (s : UUID) :
    VotingRepository.listTallies s db =
      orderBy (fun a b => a.proposalId.toNat ≤ b.proposalId.toNat)
        ((db.votingSessionProposals.filter fun p => p.votingSessionId = s).map fun p =>
          ⟨p.proposalId, ballots db.votes s p.proposalId⟩) := by
  simp only [VotingRepository.listTallies]
  rw [groupCount_outerJoin (nodup_session_proposals db s), List.map_map]
  congr 1
  refine List.map_congr_left fun p hp => ?_
  have hs : p.votingSessionId = s := of_decide_eq_true (List.mem_filter.mp hp).2
  simp only [Function.comp_apply, ballots, hs]

theorem mem_listTallies {t : ProposalVoteTally} :
    t ∈ VotingRepository.listTallies s db ↔
      ∃ p ∈ db.votingSessionProposals, p.votingSessionId = s ∧
        t = ⟨p.proposalId, ballots db.votes s p.proposalId⟩ := by
  rw [listTallies_eq, mem_orderBy, List.mem_map]
  constructor
  · rintro ⟨p, hp, rfl⟩
    obtain ⟨hp, hs⟩ := List.mem_filter.mp hp
    exact ⟨p, hp, of_decide_eq_true hs, rfl⟩
  · rintro ⟨p, hp, hs, rfl⟩
    exact ⟨p, List.mem_filter.mpr ⟨hp, decide_eq_true hs⟩, rfl⟩

/-- The tallies add up to the number of ballots, if every ballot is for a
proposal of the session. -/
theorem sum_listTallies (h : ∀ v ∈ db.votes, v.votingSessionId = s →
      VotingRepository.isSessionProposal s v.proposalId db) :
    ((VotingRepository.listTallies s db).map ProposalVoteTally.votes).sum =
      VotingRepository.countVotes s db := by
  rw [listTallies_eq, ((orderBy_perm _ _).map _).sum_eq, List.map_map]
  refine sum_matches_eq (fun (p : VotingSessionProposal) (v : Vote) =>
    v.votingSessionId = s && v.proposalId = p.proposalId) fun v hv => ?_
  have hn := nodup_session_proposals db s
  by_cases hs : v.votingSessionId = s
  · -- one row of the session has the proposal of the ballot
    have hmem : v.proposalId ∈ (db.votingSessionProposals.filter fun p =>
        p.votingSessionId = s).map VotingSessionProposal.proposalId := by
      obtain ⟨p, hp, h⟩ := List.any_eq_true.mp (h v hv hs)
      simp only [Bool.and_eq_true, decide_eq_true_eq] at h
      exact List.mem_map.mpr ⟨p, List.mem_filter.mpr ⟨hp, decide_eq_true h.1⟩, h.2⟩
    have hone := length_filter_key hn v.proposalId
    rw [if_pos hmem] at hone
    simp only [hs, decide_true, Bool.true_and, eq_comm (a := v.proposalId), if_true]
    exact hone
  · simp [hs]

/-! ## The required number of votes -/

/-- The float quotient does no harm: the required number is the exact ceiling. -/
theorem requiredVotes_eq {n q : Int} (hn : 0 ≤ n) (hn' : n < 2 ^ 31) (hq : 1 ≤ q) (hq' : q ≤ 100) :
    VotingService.requiredVotes n q = ⌈(n * q / 100 : ℚ)⌉ := by
  obtain ⟨m, rfl⟩ := Int.eq_ofNat_of_zero_le hn
  obtain ⟨k, rfl⟩ := Int.eq_ofNat_of_zero_le (by omega : 0 ≤ q)
  have hm : m * k < 2 ^ 45 * 100 := by
    have : m * k ≤ 2 ^ 31 * 100 := Nat.mul_le_mul (by omega) (by omega)
    omega
  have hceil := Binary64.ceil_binary64_div (m := m * k) (d := 100) (by omega) (by omega) hm
  rw [VotingService.requiredVotes]
  push_cast at hceil ⊢
  exact hceil

theorem session_requiredVotes {x : VotingSession} (hx : x ∈ db.votingSessions) :
    VotingService.requiredVotes x.eligibleVoterCount x.quorumPercentage =
      ⌈(x.eligibleVoterCount * x.quorumPercentage / 100 : ℚ)⌉ :=
  requiredVotes_eq (db.valid.ckVotingSessionsEligibleVoterCount x hx) (db.eligibleVoterCount_lt hx)
    (db.valid.ckVotingSessionsQuorumPercentage x hx).1
    (db.valid.ckVotingSessionsQuorumPercentage x hx).2

/-! ## The winner -/

/-- The winner is the one leader of the tallies. -/
theorem VotingService.winner_eq (tallies : List ProposalVoteTallyResponse) :
    VotingService.winner tallies = match leaders ProposalVoteTallyResponse.votes tallies with
      | [leader] => (some leader.proposalId, false)
      | ls => (none, decide (1 < ls.length)) :=
  rfl

theorem VotingService.winner_some {tallies : List ProposalVoteTallyResponse} {w : UUID} :
    (VotingService.winner tallies).1 = some w ↔
      ∃ t, leaders ProposalVoteTallyResponse.votes tallies = [t] ∧ t.proposalId = w := by
  rw [winner_eq]
  constructor
  · intro h
    split at h
    · rename_i leader hl
      exact ⟨leader, hl, Option.some.inj h⟩
    · nomatch h
  · rintro ⟨t, hl, rfl⟩
    rw [hl]

/-- A winner has strictly more votes than every other proposal. -/
theorem winner_spec {tallies : List ProposalVoteTallyResponse} {w : UUID}
    (h : (VotingService.winner tallies).1 = some w) :
    ∃ t ∈ tallies, t.proposalId = w ∧
      ∀ t' ∈ tallies, t'.votes ≤ t.votes ∧ (t'.proposalId ≠ w → t'.votes < t.votes) := by
  obtain ⟨t, hl, rfl⟩ := VotingService.winner_some.mp h
  obtain ⟨ht, hahead⟩ := ahead_of_singleton hl
  refine ⟨t, ht, rfl, fun t' ht' => ⟨?_, fun hne => hahead t' ht' fun heq => hne (heq ▸ rfl)⟩⟩
  exact (mem_leaders.mp (hl ▸ List.mem_singleton_self t)).2 t' ht'

theorem result_valid {x : VotingSession} {n : Nat} {ts : List ProposalVoteTally} :
    (VotingService.result x n ts).resultValid = true ↔
      VotingService.requiredVotes x.eligibleVoterCount x.quorumPercentage ≤ n :=
  decide_eq_true_iff

/-- A winner is reported only when the quorum is met. -/
theorem result_winner {x : VotingSession} {n : Nat} {ts : List ProposalVoteTally} {w : UUID}
    (h : (VotingService.result x n ts).winnerProposalId = some w) :
    ∃ t ∈ ts, t.proposalId = w ∧
      ∀ t' ∈ ts, t'.votes ≤ t.votes ∧ (t'.proposalId ≠ w → t'.votes < t.votes) := by
  simp only [VotingService.result] at h
  split at h
  · obtain ⟨t, ht, rfl, hall⟩ := winner_spec h
    obtain ⟨t₀, ht₀, rfl⟩ := List.mem_map.mp ht
    exact ⟨t₀, ht₀, rfl, fun t' ht' => hall _ (List.mem_map_of_mem ht')⟩
  · cases h

end

end ForkRoom
