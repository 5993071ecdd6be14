/-
# `Proof.Voting` — sessions, their snapshots and their ballots

What a commit of a voting request does to sessions, snapshots and ballots
(`VotingStep`), and the invariant it keeps:

    ballots     within both snapshots of their session
    count       eligible_voter_count is the number of eligible-voter rows
    unopened    a session with no opened_at has empty snapshots
    opened      a session with an opened_at has an eligible voter
    offered     a session offers proposals of its own decision

`VotingStep` says nothing of when the request has read what: the atomic
operations make such steps (`CoreStep.votingStep`), and so do the commits of
interleaved requests (`System.Interleaved`).
-/
import ForkRoom.System.Members
import ForkRoom.System.Steps
import ForkRoom.Proof.Results

namespace ForkRoom

open Optimistic Rows

/-! ## The steps of voting requests -/

/-- Where the status of a session can go. -/
def VotingSessionStatus.next : VotingSessionStatus → List VotingSessionStatus
  | .draft => [.open, .cancelled]
  | .open => [.closed, .cancelled]
  | .closed => []
  | .cancelled => []

/-- The status stays, or makes one move. -/
def VotingSessionStatus.Advances (a b : VotingSessionStatus) : Prop := b = a ∨ b ∈ a.next

/-- The eligible-voter rows of a session. -/
def Core.voterRows (c : Core) (s : UUID) : List VotingEligibleVoter :=
  c.votingEligibleVoters.filter fun v => v.votingSessionId = s

/-- The session-proposal rows of a session. -/
def Core.offerRows (c : Core) (s : UUID) : List VotingSessionProposal :=
  c.votingSessionProposals.filter fun p => p.votingSessionId = s

/-- The session `s` becomes `s'`, with `voters` and `proposals` for its snapshots. -/
def Core.opening (c : Core) (s s' : VotingSession) (voters : List UUID)
    (proposals : List Proposal) : Core :=
  { c with
    votingSessions := replace s s' c.votingSessions
    votingEligibleVoters := c.votingEligibleVoters ++ voters.map fun u => ⟨s.id, u⟩
    votingSessionProposals := c.votingSessionProposals ++ proposals.map fun p => ⟨s.id, p.id⟩ }

/-- The owner of the workspace of the decision `id` is among `voters`. -/
def Db.OwnerAmong (db : Db) (id : UUID) (voters : List UUID) : Prop :=
  ∀ d ∈ db.decisions, d.id = id → ∀ w ∈ db.workspaces, w.id = d.workspaceId → w.ownerId ∈ voters

/-- What the commit of a voting request can do to the core. -/
inductive VotingStep (db : Db) : Core → Prop where
  | addSession (row : VotingSession) (hfresh : ∀ s ∈ db.votingSessions, s.id ≠ row.id)
      (hs : row.status = .draft) (ho : row.openedAt = none) (hc : row.eligibleVoterCount = 0) :
      VotingStep db { db.core with votingSessions := db.votingSessions ++ [row] }
  | openSession (s s' : VotingSession) (voters : List UUID) (proposals : List Proposal)
      (hs : s ∈ db.votingSessions) (hdraft : s.status = .draft) (hid : s'.id = s.id)
      (hd : s'.decisionId = s.decisionId) (hopen : s'.status = .open) (ho : s'.openedAt ≠ none)
      (hc : s'.eligibleVoterCount = voters.length) (hne : voters ≠ [])
      (howner : db.OwnerAmong s.decisionId voters)
      (hproposals : ∀ p ∈ proposals, p ∈ db.proposals ∧ p.decisionId = s.decisionId) :
      VotingStep db (db.core.opening s s' voters proposals)
  | castVote (row : Vote)
      (hv : VotingRepository.isEligibleVoter row.votingSessionId row.voterId db)
      (hp : VotingRepository.isSessionProposal row.votingSessionId row.proposalId db) :
      VotingStep db { db.core with votes := db.votes ++ [row] }
  | finishSession (s s' : VotingSession) (hs : s ∈ db.votingSessions) (hid : s'.id = s.id)
      (hd : s'.decisionId = s.decisionId) (hc : s'.eligibleVoterCount = s.eligibleVoterCount)
      (ho : s'.openedAt = s.openedAt) (hst : s.status.Advances s'.status)
      (hend : s'.status = .closed ∨ s'.status = .cancelled) :
      VotingStep db { db.core with votingSessions := replace s s' db.votingSessions }

theorem mem_replace_session {rows : List VotingSession} {s s' x : VotingSession} (hs : s ∈ rows) :
    x ∈ replace s s' rows ↔ x = s' ∨ (x ∈ rows ∧ x.id ≠ s.id) :=
  mem_replace hs

/-- A draft has no `opened_at`. -/
theorem Db.openedAt_of_draft (db : Db) {s : VotingSession} (hs : s ∈ db.votingSessions)
    (hdraft : s.status = .draft) : s.openedAt = none := by
  rcases db.valid.ckVotingSessionsStatusTimestamps s hs with h | h | h | h
  · exact h.2.1
  · exact absurd (hdraft.symm.trans h.1) (by decide)
  · exact absurd (hdraft.symm.trans h.1) (by decide)
  · exact absurd (hdraft.symm.trans h.1) (by decide)

/-- What is open or closed has an `opened_at`. -/
theorem Db.openedAt_of_opened (db : Db) {s : VotingSession} (hs : s ∈ db.votingSessions)
    (h : s.status = .open ∨ s.status = .closed) : s.openedAt ≠ none := by
  rcases db.valid.ckVotingSessionsStatusTimestamps s hs with h' | h' | h' | h'
  · rw [h'.1] at h
    rcases h with h | h <;> nomatch h
  · exact h'.2.1
  · exact h'.2.1
  · rw [h'.1] at h
    rcases h with h | h <;> nomatch h

/-! ## The invariant -/

theorem isEligibleVoter_iff {s u : UUID} {db : Db} :
    VotingRepository.isEligibleVoter s u db = true ↔ ⟨s, u⟩ ∈ db.votingEligibleVoters := by
  simp only [VotingRepository.isEligibleVoter, List.any_eq_true, Bool.and_eq_true,
    decide_eq_true_eq]
  constructor
  · rintro ⟨⟨_, _⟩, hv, rfl, rfl⟩
    exact hv
  · intro h
    exact ⟨_, h, rfl, rfl⟩

theorem isSessionProposal_iff {s p : UUID} {db : Db} :
    VotingRepository.isSessionProposal s p db = true ↔ ⟨s, p⟩ ∈ db.votingSessionProposals := by
  simp only [VotingRepository.isSessionProposal, List.any_eq_true, Bool.and_eq_true,
    decide_eq_true_eq]
  constructor
  · rintro ⟨⟨_, _⟩, hv, rfl, rfl⟩
    exact hv
  · intro h
    exact ⟨_, h, rfl, rfl⟩

/-- Sessions, their snapshots and their ballots fit together. -/
structure VotingInv (c : Core) : Prop where
  ballots : ∀ v ∈ c.votes, ⟨v.votingSessionId, v.voterId⟩ ∈ c.votingEligibleVoters ∧
    ⟨v.votingSessionId, v.proposalId⟩ ∈ c.votingSessionProposals
  count : ∀ s ∈ c.votingSessions, s.eligibleVoterCount = (c.voterRows s.id).length
  unopened : ∀ s ∈ c.votingSessions, s.openedAt = none →
    c.voterRows s.id = [] ∧ c.offerRows s.id = []
  opened : ∀ s ∈ c.votingSessions, s.openedAt ≠ none → c.voterRows s.id ≠ []
  offered : ∀ p ∈ c.votingSessionProposals, ∀ s ∈ c.votingSessions, s.id = p.votingSessionId →
    ∀ q ∈ c.proposals, q.id = p.proposalId → q.decisionId = s.decisionId

theorem votingInv_empty : VotingInv Db.empty.core where
  ballots _ h := nomatch h
  count _ h := nomatch h
  unopened _ h := nomatch h
  opened _ h := nomatch h
  offered _ h := nomatch h

section
variable {db db' : Db} {c : Core}

section
variable {s s' : VotingSession} {voters : List UUID} {proposals : List Proposal} {x : UUID}

/-- Opening a session leaves the rows of the others alone. -/
theorem Core.voterRows_opening_ne (h : x ≠ s.id) :
    (c.opening s s' voters proposals).voterRows x = c.voterRows x := by
  have hnil : (voters.map fun u => (⟨s.id, u⟩ : VotingEligibleVoter)).filter
      (fun v => v.votingSessionId = x) = [] := by
    refine List.filter_eq_nil_iff.mpr fun v hv => ?_
    obtain ⟨u, -, rfl⟩ := List.mem_map.mp hv
    simpa using h.symm
  rw [Core.voterRows, Core.opening, List.filter_append, hnil, List.append_nil, Core.voterRows]

theorem Core.offerRows_opening_ne (h : x ≠ s.id) :
    (c.opening s s' voters proposals).offerRows x = c.offerRows x := by
  have hnil : (proposals.map fun p => (⟨s.id, p.id⟩ : VotingSessionProposal)).filter
      (fun v => v.votingSessionId = x) = [] := by
    refine List.filter_eq_nil_iff.mpr fun v hv => ?_
    obtain ⟨u, -, rfl⟩ := List.mem_map.mp hv
    simpa using h.symm
  rw [Core.offerRows, Core.opening, List.filter_append, hnil, List.append_nil, Core.offerRows]

theorem Core.voterRows_opening_self :
    (c.opening s s' voters proposals).voterRows s.id =
      c.voterRows s.id ++ voters.map fun u => ⟨s.id, u⟩ := by
  have hall : (voters.map fun u => (⟨s.id, u⟩ : VotingEligibleVoter)).filter
      (fun v => v.votingSessionId = s.id) = voters.map fun u => ⟨s.id, u⟩ := by
    refine List.filter_eq_self.mpr fun v hv => ?_
    obtain ⟨u, -, rfl⟩ := List.mem_map.mp hv
    simp
  rw [Core.voterRows, Core.opening, List.filter_append, hall, Core.voterRows]

end

/-- A session that does not exist has no rows. -/
theorem Db.no_rows {id : UUID} (h : ∀ s ∈ db.votingSessions, s.id ≠ id) :
    db.core.voterRows id = [] ∧ db.core.offerRows id = [] := by
  constructor
  · refine List.filter_eq_nil_iff.mpr fun v hv => ?_
    obtain ⟨s, hs, hk⟩ := db.valid.fkVotingEligibleVotersSession v hv
    intro hid
    exact h s hs (hk.trans (of_decide_eq_true hid))
  · refine List.filter_eq_nil_iff.mpr fun p hp => ?_
    obtain ⟨s, hs, hk⟩ := db.valid.fkVotingSessionProposalsSession p hp
    intro hid
    exact h s hs (hk.trans (of_decide_eq_true hid))

theorem VotingInv.votingStep (h : VotingInv db.core) (hstep : VotingStep db c) : VotingInv c := by
  cases hstep with
  | addSession row hfresh hs ho hc =>
      have hrows := db.no_rows hfresh
      refine ⟨h.ballots, ?_, ?_, ?_, ?_⟩
      · intro s hmem
        rcases List.mem_append.mp hmem with hmem | hmem
        · exact h.count s hmem
        · rw [List.mem_singleton.mp hmem, hc]
          exact (congrArg (fun l => (List.length l : Int)) hrows.1).symm
      · intro s hmem hnone
        rcases List.mem_append.mp hmem with hmem | hmem
        · exact h.unopened s hmem hnone
        · rw [List.mem_singleton.mp hmem]
          exact hrows
      · intro s hmem hsome
        rcases List.mem_append.mp hmem with hmem | hmem
        · exact h.opened s hmem hsome
        · rw [List.mem_singleton.mp hmem] at hsome
          exact absurd ho hsome
      · intro p hp s hmem hid q hq hqp
        rcases List.mem_append.mp hmem with hmem | hmem
        · exact h.offered p hp s hmem hid q hq hqp
        · obtain ⟨x, hx, hk⟩ := db.valid.fkVotingSessionProposalsSession p hp
          rw [List.mem_singleton.mp hmem] at hid
          exact absurd (hk.trans hid.symm) (hfresh x hx)
  | openSession s s' voters proposals hs hdraft hid hd hopen ho hc hne howner hproposals =>
      have hempty := h.unopened s hs (db.openedAt_of_draft hs hdraft)
      refine ⟨?_, ?_, ?_, ?_, ?_⟩
      · intro v hv
        obtain ⟨h₁, h₂⟩ := h.ballots v hv
        exact ⟨List.mem_append_left _ h₁, List.mem_append_left _ h₂⟩
      · intro x hx
        rcases (mem_replace_session hs).mp hx with rfl | ⟨hx, hk⟩
        · rw [hid, Core.voterRows_opening_self, hempty.1, List.nil_append, List.length_map, hc]
        · rw [Core.voterRows_opening_ne hk]
          exact h.count x hx
      · intro x hx hnone
        rcases (mem_replace_session hs).mp hx with rfl | ⟨hx, hk⟩
        · exact absurd hnone ho
        · obtain ⟨h₁, h₂⟩ := h.unopened x hx hnone
          rw [Core.voterRows_opening_ne hk, Core.offerRows_opening_ne hk]
          exact ⟨h₁, h₂⟩
      · intro x hx hsome
        rcases (mem_replace_session hs).mp hx with rfl | ⟨hx, hk⟩
        · rw [hid, Core.voterRows_opening_self]
          intro hnil
          exact hne (List.map_eq_nil_iff.mp (List.append_eq_nil_iff.mp hnil).2)
        · rw [Core.voterRows_opening_ne hk]
          exact h.opened x hx hsome
      · intro p hp x hx hxp q hq hqp
        have hx' : ∃ y ∈ db.votingSessions, y.id = x.id ∧ y.decisionId = x.decisionId := by
          rcases (mem_replace_session hs).mp hx with rfl | ⟨hx, -⟩
          · exact ⟨s, hs, hid.symm, hd.symm⟩
          · exact ⟨x, hx, rfl, rfl⟩
        obtain ⟨y, hy, hyid, hyd⟩ := hx'
        rcases List.mem_append.mp hp with hp | hp
        · exact (h.offered p hp y hy (hyid.trans hxp) q hq hqp).trans hyd
        · obtain ⟨r, hr, rfl⟩ := List.mem_map.mp hp
          obtain ⟨hr, hrd⟩ := hproposals r hr
          have hqr : q = r := eq_of_key db.valid.pkProposals hq hr hqp
          have hys : y = s := eq_of_key db.valid.pkVotingSessions hy hs (hyid.trans hxp)
          rw [hqr, hrd, ← hyd, hys]
  | castVote row hv hp =>
      refine ⟨?_, h.count, h.unopened, h.opened, h.offered⟩
      intro v hmem
      rcases List.mem_append.mp hmem with hmem | hmem
      · exact h.ballots v hmem
      · rw [List.mem_singleton.mp hmem]
        exact ⟨isEligibleVoter_iff.mp hv, isSessionProposal_iff.mp hp⟩
  | finishSession s s' hs hid hd hc ho hst hend =>
      refine ⟨h.ballots, ?_, ?_, ?_, ?_⟩
      · intro x hx
        rcases (mem_replace_session hs).mp hx with rfl | ⟨hx, -⟩
        · rw [hc, hid]
          exact h.count s hs
        · exact h.count x hx
      · intro x hx hnone
        rcases (mem_replace_session hs).mp hx with rfl | ⟨hx, -⟩
        · rw [hid]
          exact h.unopened s hs (ho.symm.trans hnone)
        · exact h.unopened x hx hnone
      · intro x hx hsome
        rcases (mem_replace_session hs).mp hx with rfl | ⟨hx, -⟩
        · rw [hid]
          exact h.opened s hs (ho ▸ hsome)
        · exact h.opened x hx hsome
      · intro p hp x hx hxp q hq hqp
        rcases (mem_replace_session hs).mp hx with rfl | ⟨hx, -⟩
        · rw [hd]
          exact h.offered p hp s hs (hid.symm.trans hxp) q hq hqp
        · exact h.offered p hp x hx hxp q hq hqp

/-! ## Atomic runs -/

/-- What is kept of the rows of a group when other groups are deleted. -/
theorem filter_kept {α : Type} {rows : List α} {f : α → UUID} {x : UUID} (gone : UUID → Bool)
    (hx : gone x = false) :
    (rows.filter fun r => !gone (f r)).filter (fun r => f r = x) =
      rows.filter fun r => f r = x := by
  rw [List.filter_filter]
  refine List.filter_congr fun r _ => ?_
  by_cases hr : f r = x
  · simp [hr, hx]
  · simp [hr]

/-- A session that remains when decisions are deleted was there before, and is not
one of those that go. -/
theorem Tables.mem_sessions_withoutDecisions {t : Tables} {gone : UUID → Bool} {x : VotingSession}
    (hx : x ∈ (t.withoutDecisions gone).votingSessions) :
    x ∈ t.votingSessions ∧ t.sessionsOf gone x.id = false := by
  obtain ⟨hx, hgone⟩ := List.mem_filter.mp hx
  exact ⟨hx, by simpa using hgone⟩

theorem Db.voterRows_withoutDecisions {gone : UUID → Bool} {x : VotingSession}
    (hx : x ∈ (db.withoutDecisions gone).votingSessions) :
    (db.withoutDecisions gone).core.voterRows x.id = db.core.voterRows x.id :=
  filter_kept _ (Tables.mem_sessions_withoutDecisions hx).2

theorem Db.offerRows_withoutDecisions {gone : UUID → Bool} {x : VotingSession}
    (hx : x ∈ (db.withoutDecisions gone).votingSessions) :
    (db.withoutDecisions gone).core.offerRows x.id = db.core.offerRows x.id :=
  filter_kept _ (Tables.mem_sessions_withoutDecisions hx).2

/-- Rows keep their session when decisions are deleted. -/
theorem VotingInv.withoutDecisions (h : VotingInv db.core) (gone : UUID → Bool) :
    VotingInv (db.withoutDecisions gone).core := by
  refine ⟨?_, ?_, ?_, ?_, ?_⟩
  · intro v hv
    obtain ⟨hv, hgone⟩ := List.mem_filter.mp hv
    obtain ⟨h₁, h₂⟩ := h.ballots v hv
    exact ⟨List.mem_filter.mpr ⟨h₁, hgone⟩, List.mem_filter.mpr ⟨h₂, hgone⟩⟩
  · intro x hx
    rw [Db.voterRows_withoutDecisions hx]
    exact h.count x (Tables.mem_sessions_withoutDecisions hx).1
  · intro x hx
    rw [Db.voterRows_withoutDecisions hx, Db.offerRows_withoutDecisions hx]
    exact h.unopened x (Tables.mem_sessions_withoutDecisions hx).1
  · intro x hx
    rw [Db.voterRows_withoutDecisions hx]
    exact h.opened x (Tables.mem_sessions_withoutDecisions hx).1
  · intro p hp x hx hid q hq hqp
    exact h.offered p (List.mem_filter.mp hp).1 x (Tables.mem_sessions_withoutDecisions hx).1 hid q
      (List.mem_filter.mp hq).1 hqp

variable {dep : Deployment} {op : Op}

/-- A decision that is found by id is the only one. -/
theorem Db.ownerAmong_eligible (ho : OwnerInv db) {d : Decision} (hd : d ∈ db.decisions)
    (tie : UUID → Nat) :
    db.OwnerAmong d.id (WorkspaceRepository.listVotingEligibleUserIds tie d.workspaceId db) := by
  intro d' hd' hid w hw hwd
  rw [← eq_of_key db.valid.pkDecisions hd' hd hid, ← hwd]
  exact ho.owner_eligible hw tie

/-- Sessions, snapshots and ballots are the same, and proposals keep their decision. -/
structure VotingSame (c c' : Core) : Prop where
  votes : c'.votes = c.votes
  sessions : c'.votingSessions = c.votingSessions
  voters : c'.votingEligibleVoters = c.votingEligibleVoters
  offers : c'.votingSessionProposals = c.votingSessionProposals
  proposals : ∀ q ∈ c'.proposals,
    (∃ q₀ ∈ c.proposals, q₀.id = q.id ∧ q₀.decisionId = q.decisionId) ∨
      ∀ p ∈ c.votingSessionProposals, q.id ≠ p.proposalId

theorem VotingSame.voterRows {c c' : Core} (h : VotingSame c c') (x : UUID) :
    c'.voterRows x = c.voterRows x := by
  rw [Core.voterRows, Core.voterRows, h.voters]

theorem VotingSame.offerRows {c c' : Core} (h : VotingSame c c') (x : UUID) :
    c'.offerRows x = c.offerRows x := by
  rw [Core.offerRows, Core.offerRows, h.offers]

theorem VotingInv.of_same {c c' : Core} (h : VotingInv c) (hsame : VotingSame c c') :
    VotingInv c' := by
  refine ⟨?_, ?_, ?_, ?_, ?_⟩
  · rw [hsame.votes, hsame.voters, hsame.offers]
    exact h.ballots
  · intro x hx
    rw [hsame.voterRows]
    exact h.count x (hsame.sessions ▸ hx)
  · intro x hx
    rw [hsame.voterRows, hsame.offerRows]
    exact h.unopened x (hsame.sessions ▸ hx)
  · intro x hx
    rw [hsame.voterRows]
    exact h.opened x (hsame.sessions ▸ hx)
  · intro p hp x hx hid q hq hqp
    rw [hsame.offers] at hp
    rw [hsame.sessions] at hx
    rcases hsame.proposals q hq with ⟨q₀, hq₀, h₁, h₂⟩ | hne
    · rw [← h₂]
      exact h.offered p hp x hx hid q₀ hq₀ (h₁.trans hqp)
    · exact absurd hqp (hne p hp)

/-- An atomic operation makes a step of a voting request, deletes decisions, or
leaves sessions, snapshots and ballots to themselves. -/
theorem CoreStep.voting_cases (ho : OwnerInv db) (hstep : CoreStep dep op db db'.core) :
    VotingStep db db'.core ∨ (∃ gone, db'.core = (db.withoutDecisions gone).core) ∨
      VotingSame db.core db'.core := by
  have hpk : PrimaryKey db'.core.votingSessions := db'.valid.pkVotingSessions
  have hpkp : PrimaryKey db'.core.proposals := db'.valid.pkProposals
  generalize db'.core = c at hstep hpk hpkp ⊢
  have hsame : ∀ q ∈ db.core.proposals,
      (∃ q₀ ∈ db.core.proposals, q₀.id = q.id ∧ q₀.decisionId = q.decisionId) ∨
        ∀ p ∈ db.core.votingSessionProposals, q.id ≠ p.proposalId :=
    fun q hq => Or.inl ⟨q, hq, rfl, rfl⟩
  cases hstep with
  | same => exact Or.inr (Or.inr ⟨rfl, rfl, rfl, rfl, hsame⟩)
  | addDecision => exact Or.inr (Or.inr ⟨rfl, rfl, rfl, rfl, hsame⟩)
  | editDecision => exact Or.inr (Or.inr ⟨rfl, rfl, rfl, rfl, hsame⟩)
  | moveDecision => exact Or.inr (Or.inr ⟨rfl, rfl, rfl, rfl, hsame⟩)
  | deleteDecisions gone => exact Or.inr (Or.inl ⟨gone, rfl⟩)
  | addProposal d row =>
      refine Or.inr (Or.inr ⟨rfl, rfl, rfl, rfl, fun q hq => ?_⟩)
      rcases List.mem_append.mp hq with hq | hq
      · exact Or.inl ⟨q, hq, rfl, rfl⟩
      · refine Or.inr fun p hp hqp => ?_
        obtain ⟨x, hx, hk⟩ := db.valid.fkVotingSessionProposalsProposal p hp
        rw [List.mem_singleton.mp hq] at hqp
        exact Unique.ne_of_append hpkp x hx (hk.trans hqp.symm)
  | editProposal d p p' hd hp hdp hm hid hdp' =>
      refine Or.inr (Or.inr ⟨rfl, rfl, rfl, rfl, fun q hq => Or.inl ?_⟩)
      rcases (mem_replace hp).mp hq with rfl | ⟨hq, -⟩
      · exact ⟨p, hp, hid.symm, hdp'.symm⟩
      · exact ⟨q, hq, rfl, rfl⟩
  | moveProposal d p p' hd hp hdp hm hid hdp' =>
      refine Or.inr (Or.inr ⟨rfl, rfl, rfl, rfl, fun q hq => Or.inl ?_⟩)
      rcases (mem_replace hp).mp hq with rfl | ⟨hq, -⟩
      · exact ⟨p, hp, hid.symm, hdp'.symm⟩
      · exact ⟨q, hq, rfl, rfl⟩
  | deleteProposal d p =>
      refine Or.inr (Or.inr ⟨rfl, rfl, rfl, rfl, fun q hq => Or.inl ?_⟩)
      exact ⟨q, (List.mem_filter.mp hq).1, rfl, rfl⟩
  | addObjection => exact Or.inr (Or.inr ⟨rfl, rfl, rfl, rfl, hsame⟩)
  | setObjection => exact Or.inr (Or.inr ⟨rfl, rfl, rfl, rfl, hsame⟩)
  | addSession d row hd ha hrow hs hc hopened =>
      exact Or.inl (.addSession row (Unique.ne_of_append hpk) hs hopened hc)
  | openSession env d s s' voters proposals hd ha hs hds hdraft hid hds' hopen hcount hne hopened
      hvoters hproposals =>
      refine Or.inl (.openSession s s' voters proposals hs hdraft hid hds' hopen hopened hcount
        hne ?_ ?_)
      · rw [hds, hvoters]
        exact Db.ownerAmong_eligible ho hd env.tie
      · intro p hp
        rw [hproposals] at hp
        obtain ⟨hp, hpd⟩ := List.mem_filter.mp (mem_orderBy.mp hp)
        simp only [Bool.and_eq_true, decide_eq_true_eq] at hpd
        exact ⟨hp, hpd.1.trans hds.symm⟩
  | castVote s row hs hopen hrow hv hp =>
      exact Or.inl (.castVote row (hrow ▸ hv) (hrow ▸ hp))
  | finishSession s s' hs hid hds hc hq hopened hst =>
      refine Or.inl (.finishSession s s' hs hid hds hc hopened ?_ ?_)
      · rcases hst with ⟨h₁, h₂, -⟩ | ⟨h₁ | h₁, h₂, -⟩ <;> rw [h₁, h₂] <;> exact Or.inr (by decide)
      · exact hst.imp (fun h => h.2.1) fun h => h.2.1
  | lock => exact Or.inr (Or.inr ⟨rfl, rfl, rfl, rfl, hsame⟩)

/-- Every atomic operation keeps the invariant. -/
theorem VotingInv.step (h : VotingInv db.core) (ho : OwnerInv db)
    (hstep : CoreStep dep op db db'.core) : VotingInv db'.core := by
  rcases hstep.voting_cases ho with hv | ⟨gone, hc⟩ | hsame
  · exact h.votingStep hv
  · rw [hc]
    exact h.withoutDecisions gone
  · exact h.of_same hsame

theorem Reachable.votingInv (h : Reachable dep db) : VotingInv db.core := by
  induction h with
  | empty => exact votingInv_empty
  | step op h ih => exact ih.step h.ownerInv (Op.exec_step dep op _)

/-! ## The owner is an eligible voter -/

/-- Every session that has been opened has the owner of its workspace among its
eligible voters. -/
def OwnerEligible (db : Db) : Prop :=
  ∀ s ∈ db.votingSessions, s.openedAt ≠ none →
    db.OwnerAmong s.decisionId ((db.core.voterRows s.id).map VotingEligibleVoter.userId)

theorem mem_voterRows {s : UUID} {v : VotingEligibleVoter} :
    v ∈ c.voterRows s ↔ v ∈ c.votingEligibleVoters ∧ v.votingSessionId = s := by
  rw [Core.voterRows, List.mem_filter, decide_eq_true_eq]

/-- The session `s'` of `c` was there before, and kept its voters if it had been
opened; otherwise it has just been opened, the owner among its voters. -/
def Db.KeepsVoters (db : Db) (c : Core) (s' : VotingSession) : Prop :=
  ∃ s ∈ db.votingSessions, s.id = s'.id ∧ s.decisionId = s'.decisionId ∧
    ((s.openedAt ≠ none ∧ ∀ v ∈ db.core.voterRows s.id, v ∈ c.voterRows s'.id) ∨
      db.OwnerAmong s'.decisionId ((c.voterRows s'.id).map VotingEligibleVoter.userId))

theorem VotingStep.keepsVoters (hstep : VotingStep db c) :
    ∀ s' ∈ c.votingSessions, s'.openedAt ≠ none → db.KeepsVoters c s' := by
  intro x hx hsome
  cases hstep with
  | addSession row hfresh hs ho hc =>
      rcases List.mem_append.mp hx with hx | hx
      · exact ⟨x, hx, rfl, rfl, Or.inl ⟨hsome, fun _ h => h⟩⟩
      · rw [List.mem_singleton.mp hx] at hsome
        exact absurd ho hsome
  | openSession s s' voters proposals hs hdraft hid hd hopen ho hc hne howner hproposals =>
      rcases (mem_replace_session hs).mp hx with rfl | ⟨hx, hk⟩
      · refine ⟨s, hs, hid.symm, hd.symm, Or.inr ?_⟩
        rw [hd, hid, Core.voterRows_opening_self]
        intro d hdm hds w hw hwd
        refine List.mem_map.mpr ⟨⟨s.id, w.ownerId⟩, List.mem_append_right _ ?_, rfl⟩
        exact List.mem_map_of_mem (howner d hdm hds w hw hwd)
      · refine ⟨x, hx, rfl, rfl, Or.inl ⟨hsome, fun v hv => ?_⟩⟩
        rw [Core.voterRows_opening_ne hk]
        exact hv
  | castVote => exact ⟨x, hx, rfl, rfl, Or.inl ⟨hsome, fun _ h => h⟩⟩
  | finishSession s s' hs hid hd hc ho hst hend =>
      rcases (mem_replace_session hs).mp hx with rfl | ⟨hx, -⟩
      · refine ⟨s, hs, hid.symm, hd.symm, Or.inl ⟨ho ▸ hsome, fun v hv => ?_⟩⟩
        rw [hid]
        exact hv
      · exact ⟨x, hx, rfl, rfl, Or.inl ⟨hsome, fun _ h => h⟩⟩

/-- The invariant is kept if opened sessions keep their voters, and decisions and
workspaces their owner. -/
theorem OwnerEligible.of_kept (h : OwnerEligible db)
    (hs : ∀ s' ∈ db'.votingSessions, s'.openedAt ≠ none → db.KeepsVoters db'.core s')
    (howner : ∀ s ∈ db.votingSessions, ∀ voters, db.OwnerAmong s.decisionId voters →
      db'.OwnerAmong s.decisionId voters) : OwnerEligible db' := by
  intro s' hs' hsome
  obtain ⟨s, hsm, hid, hd, ⟨ho, hv⟩ | hamong⟩ := hs s' hs' hsome
  · rw [← hd]
    refine howner s hsm _ fun d hdm hds w hw hwd => ?_
    obtain ⟨v, hvm, hvu⟩ := List.mem_map.mp (h s hsm ho d hdm hds w hw hwd)
    exact List.mem_map.mpr ⟨v, hv v hvm, hvu⟩
  · rw [← hd] at hamong ⊢
    exact howner s hsm _ hamong

/-- Decisions come from decisions of the same workspace, or are new. -/
theorem CoreStep.decision_origin (hstep : CoreStep dep op db c) :
    ∀ d' ∈ c.decisions, (∃ d ∈ db.decisions, d.id = d'.id ∧ d.workspaceId = d'.workspaceId) ∨
      c.decisions = db.decisions ++ [d'] := by
  intro x hx
  cases hstep with
  | addDecision row =>
      rcases List.mem_append.mp hx with hx | hx
      · exact Or.inl ⟨x, hx, rfl, rfl⟩
      · rw [List.mem_singleton.mp hx]
        exact Or.inr rfl
  | editDecision d d' hd hid hw =>
      rcases (mem_replace hd).mp hx with rfl | ⟨hx, -⟩
      · exact Or.inl ⟨d, hd, hid.symm, hw.symm⟩
      · exact Or.inl ⟨x, hx, rfl, rfl⟩
  | moveDecision d d' hd hr =>
      rcases (mem_replace hd).mp hx with rfl | ⟨hx, -⟩
      · exact Or.inl ⟨d, hd, hr.id.symm, hr.workspaceId.symm⟩
      · exact Or.inl ⟨x, hx, rfl, rfl⟩
  | deleteDecisions gone => exact Or.inl ⟨x, (List.mem_filter.mp hx).1, rfl, rfl⟩
  | lock env user w d d' session result winning snapshot hop hl hr =>
      rcases (mem_replace hl.decision_mem).mp hx with rfl | ⟨hx, -⟩
      · exact Or.inl ⟨d, hl.decision_mem, hr.id.symm, hr.workspaceId.symm⟩
      · exact Or.inl ⟨x, hx, rfl, rfl⟩
  | _ => exact Or.inl ⟨x, hx, rfl, rfl⟩

/-- Workspaces come from workspaces of the same owner, or are new. -/
theorem MemberStep.workspace_origin (hstep : MemberStep db db') :
    ∀ w' ∈ db'.workspaces, (∃ w ∈ db.workspaces, w.id = w'.id ∧ w.ownerId = w'.ownerId) ∨
      db'.workspaces = db.workspaces ++ [w'] := by
  intro x hx
  cases hstep with
  | create w m hw =>
      rw [hw] at hx
      rcases List.mem_append.mp hx with hx | hx
      · exact Or.inl ⟨x, hx, rfl, rfl⟩
      · rw [List.mem_singleton.mp hx]
        exact Or.inr hw
  | update w w' hmem hid howner hw =>
      rw [hw] at hx
      rcases (mem_replace hmem).mp hx with rfl | ⟨hx, -⟩
      · exact Or.inl ⟨w, hmem, hid.symm, howner.symm⟩
      · exact Or.inl ⟨x, hx, rfl, rfl⟩
  | delete id hw =>
      rw [hw] at hx
      exact Or.inl ⟨x, (List.mem_filter.mp hx).1, rfl, rfl⟩
  | same hw => exact Or.inl ⟨x, hw ▸ hx, rfl, rfl⟩
  | addMember m hw => exact Or.inl ⟨x, hw ▸ hx, rfl, rfl⟩
  | setMember m m' hmem hold hrole hw => exact Or.inl ⟨x, hw ▸ hx, rfl, rfl⟩
  | removeMember m hmem hold hw => exact Or.inl ⟨x, hw ▸ hx, rfl, rfl⟩

/-- The owner of an existing decision does not change. -/
theorem Db.OwnerAmong.step (hstep : CoreStep dep op db db'.core) (hm : MemberStep db db')
    {id : UUID} (hid : ∃ d ∈ db.decisions, d.id = id) {voters : List UUID}
    (h : db.OwnerAmong id voters) : db'.OwnerAmong id voters := by
  obtain ⟨d₀, hd₀, rfl⟩ := hid
  intro d' hd' hdid w' hw' hwd
  rcases hstep.decision_origin d' hd' with ⟨d, hd, h₁, h₂⟩ | hnew
  · rcases hm.workspace_origin w' hw' with ⟨w, hw, h₃, h₄⟩ | hnew
    · rw [← h₄]
      exact h d hd (h₁.trans hdid) w hw (h₃.trans (hwd.trans h₂.symm))
    · obtain ⟨w, hw, hk⟩ := db.valid.fkDecisionsWorkspace d hd
      have hpk := db'.valid.pkWorkspaces
      rw [hnew] at hpk
      exact absurd (hk.trans (h₂.trans hwd.symm)) (Unique.ne_of_append hpk w hw)
  · have hpk : PrimaryKey db'.core.decisions := db'.valid.pkDecisions
    rw [hnew] at hpk
    exact absurd hdid.symm (Unique.ne_of_append hpk d₀ hd₀)

/-- Atomic operations keep the voters of the sessions they leave. -/
theorem CoreStep.keepsVoters (ho : OwnerInv db) (hstep : CoreStep dep op db db'.core) :
    ∀ s' ∈ db'.votingSessions, s'.openedAt ≠ none → db.KeepsVoters db'.core s' := by
  intro x hx hsome
  rcases hstep.voting_cases ho with hv | ⟨gone, hc⟩ | hsame
  · exact hv.keepsVoters x hx hsome
  · have hx' : x ∈ (db.withoutDecisions gone).core.votingSessions := hc ▸ hx
    refine ⟨x, (Tables.mem_sessions_withoutDecisions hx').1, rfl, rfl, Or.inl ⟨hsome, ?_⟩⟩
    rw [hc, Db.voterRows_withoutDecisions hx']
    exact fun _ h => h
  · have hx' : x ∈ db.core.votingSessions := hsame.sessions ▸ hx
    refine ⟨x, hx', rfl, rfl, Or.inl ⟨hsome, ?_⟩⟩
    rw [hsame.voterRows]
    exact fun _ h => h

theorem Reachable.ownerEligible (h : Reachable dep db) : OwnerEligible db := by
  induction h with
  | empty => exact fun _ hs => nomatch hs
  | @step db op h ih =>
      have hstep := Op.exec_step dep op db
      refine ih.of_kept (hstep.keepsVoters h.ownerInv) fun s hs voters => ?_
      exact Db.OwnerAmong.step hstep (Op.exec_memberStep dep op db)
        (db.valid.fkVotingSessionsDecision s hs)

end

end ForkRoom
