/-
# `Proof.Frozen` — nothing of a locked decision changes

No mutator reaches into a locked decision: the decision itself leaves the status
`locked` by no transition, proposals and objections are changed under a draft or
an active decision only, a closed session takes no ballots and is not finished
again, and the lock row restricts the deletion of the decision.  `Frozen` is what
then stays, and `CoreStep.frozen` says that it does.
-/
import ForkRoom.Proof.Voting

namespace ForkRoom

open Optimistic Rows

/-- The proposals of a decision. -/
def Core.proposalRows (c : Core) (d : UUID) : List Proposal :=
  c.proposals.filter fun p => p.decisionId = d

/-- The objections to a proposal. -/
def Core.objectionRows (c : Core) (p : UUID) : List Objection :=
  c.objections.filter fun o => o.proposalId = p

/-- The ballots of a session. -/
def Core.ballotRows (c : Core) (s : UUID) : List Vote :=
  c.votes.filter fun v => v.votingSessionId = s

/-- From `c` to `c'` the decision `d`, its proposals and their objections, its
session `s` with the proposals offered and the ballots, and all locks stay. -/
structure Frozen (d : Decision) (s : VotingSession) (c c' : Core) : Prop where
  decision : d ∈ c'.decisions
  proposals : c'.proposalRows d.id = c.proposalRows d.id
  objections : ∀ p ∈ c.proposals, p.decisionId = d.id → c'.objectionRows p.id = c.objectionRows p.id
  session : s ∈ c'.votingSessions
  offers : c'.offerRows s.id = c.offerRows s.id
  ballots : c'.ballotRows s.id = c.ballotRows s.id

section
variable {dep : Deployment} {op : Op} {db db' : Db} {c : Core} {d : Decision} {s : VotingSession}

/-- No operation removes a lock. -/
theorem CoreStep.locks_kept (hstep : CoreStep dep op db c) :
    ∀ l ∈ db.decisionLocks, l ∈ c.decisionLocks := by
  intro l hl
  cases hstep with
  | lock => exact List.mem_append_left _ hl
  | _ => exact hl

theorem mem_replace_decision {rows : List Decision} {d d' x : Decision} (hd : d ∈ rows) :
    x ∈ replace d d' rows ↔ x = d' ∨ (x ∈ rows ∧ x.id ≠ d.id) :=
  mem_replace hd

/-- A decision that is changed has another status than one that is not. -/
theorem Db.decision_ne {d d₀ : Decision} (hd : d ∈ db.decisions) (hd₀ : d₀ ∈ db.decisions)
    (h : d.status ≠ d₀.status) : d.id ≠ d₀.id :=
  fun hid => h (congrArg Decision.status (eq_of_key db.valid.pkDecisions hd hd₀ hid))

theorem Db.session_ne {s s₀ : VotingSession} (hs : s ∈ db.votingSessions)
    (hs₀ : s₀ ∈ db.votingSessions) (h : s.status ≠ s₀.status) : s.id ≠ s₀.id :=
  fun hid => h (congrArg VotingSession.status (eq_of_key db.valid.pkVotingSessions hs hs₀ hid))

theorem Db.proposal_ne {p p₀ : Proposal} (hp : p ∈ db.proposals) (hp₀ : p₀ ∈ db.proposals)
    (h : p.decisionId ≠ p₀.decisionId) : p.id ≠ p₀.id :=
  fun hid => h (congrArg Proposal.decisionId (eq_of_key db.valid.pkProposals hp hp₀ hid))

theorem Decision.Mutable.ne_locked {d : Decision} (h : d.Mutable) : d.status ≠ .locked := by
  intro hl
  rcases h with h | h <;> exact absurd (h.symm.trans hl) (by decide)

theorem Frozen.refl (hd : d ∈ c.decisions) (hs : s ∈ c.votingSessions) : Frozen d s c c where
  decision := hd
  proposals := rfl
  objections _ _ _ := rfl
  session := hs
  offers := rfl
  ballots := rfl

/-- A `DELETE` that the lock does not restrict leaves the decision alone. -/
theorem Frozen.deleteDecisions {gone : UUID → Bool} (hr : db.restrictsDecisions gone = false)
    (hd : d ∈ db.decisions) (hlock : ∃ l ∈ db.decisionLocks, l.decisionId = d.id)
    (hs : s ∈ db.votingSessions) (hsd : s.decisionId = d.id) :
    Frozen d s db.core (db.withoutDecisions gone).core := by
  obtain ⟨l, hl, hld⟩ := hlock
  have hgone : gone d.id = false := by
    simp only [Tables.restrictsDecisions, Bool.or_eq_false_iff, List.any_eq_false] at hr
    have hl' := hr.1.1.2 l hl
    simp only [Bool.or_eq_true, not_or, Bool.not_eq_true] at hl'
    exact hld ▸ hl'.1
  have hsession : db.sessionsOf gone s.id = false := by
    refine List.any_eq_false.mpr fun x hx => ?_
    by_cases hid : x.id = s.id
    · rw [eq_of_key db.valid.pkVotingSessions hx hs hid]
      simp [hsd, hgone]
    · simp [hid]
  have hproposal : ∀ p ∈ db.proposals, p.decisionId = d.id → db.proposalsOf gone p.id = false := by
    intro p hp hpd
    refine List.any_eq_false.mpr fun x hx => ?_
    by_cases hid : x.id = p.id
    · rw [eq_of_key db.valid.pkProposals hx hp hid]
      simp [hpd, hgone]
    · simp [hid]
  refine ⟨?_, ?_, ?_, ?_, ?_, ?_⟩
  · exact List.mem_filter.mpr ⟨hd, by simp [hgone]⟩
  · show (db.proposals.filter _).filter _ = db.proposals.filter _
    rw [List.filter_filter]
    refine List.filter_congr fun p hp => ?_
    by_cases hpd : p.decisionId = d.id
    · simp [hpd, hproposal p hp hpd]
    · simp [hpd]
  · intro p hp hpd
    exact filter_kept _ (hproposal p hp hpd)
  · exact List.mem_filter.mpr ⟨hs, by simp [hsession]⟩
  · exact filter_kept _ hsession
  · exact filter_kept _ hsession

/-- **Nothing of a locked decision changes**, whatever the operation. -/
theorem CoreStep.frozen (hstep : CoreStep dep op db c) (hd : d ∈ db.decisions)
    (hlocked : d.status = .locked) (hlock : ∃ l ∈ db.decisionLocks, l.decisionId = d.id)
    (hs : s ∈ db.votingSessions) (hsd : s.decisionId = d.id) (hclosed : s.status = .closed) :
    Frozen d s db.core c := by
  have hrefl : Frozen d s db.core db.core := Frozen.refl hd hs
  -- the decision under which an operation works is another one
  have hne : ∀ {d₀ : Decision}, d₀ ∈ db.decisions → d₀.status ≠ .locked → d.id ≠ d₀.id :=
    fun hd₀ h => Db.decision_ne hd hd₀ fun he => h (he.symm.trans hlocked)
  have hnep : ∀ {d₀ : Decision} {p₀ p : Proposal}, d₀ ∈ db.decisions → d₀.Mutable →
      p₀ ∈ db.proposals → p₀.decisionId = d₀.id → p ∈ db.proposals → p.decisionId = d.id →
      p₀.id ≠ p.id := by
    intro d₀ p₀ p hd₀ hm hp₀ hp₀d hp hpd
    refine Db.proposal_ne hp₀ hp fun he => hne hd₀ hm.ne_locked ?_
    exact hpd.symm.trans (he.symm.trans hp₀d)
  cases hstep with
  | same => exact hrefl
  | addDecision row =>
      exact { hrefl with decision := List.mem_append_left _ hd }
  | editDecision d₀ d' hd₀ hid hw hm =>
      exact { hrefl with
        decision := (mem_replace_decision hd₀).mpr (Or.inr ⟨hd, hne hd₀ hm.ne_locked⟩) }
  | moveDecision d₀ d' hd₀ hr hop hst =>
      have hstatus : d₀.status ≠ .locked := by
        intro hl
        rw [hl] at hst
        nomatch hst
      exact { hrefl with
        decision := (mem_replace_decision hd₀).mpr (Or.inr ⟨hd, hne hd₀ hstatus⟩) }
  | deleteDecisions gone hr => exact Frozen.deleteDecisions hr hd hlock hs hsd
  | addProposal d₀ row hd₀ hrow hm =>
      refine { hrefl with proposals := ?_ }
      have hout : decide (row.decisionId = d.id) = false :=
        decide_eq_false fun he => hne hd₀ hm.ne_locked (he.symm.trans hrow)
      rw [Core.proposalRows, List.filter_append, List.filter_singleton, hout]
      exact List.append_nil _
  | editProposal d₀ p p' hd₀ hp hpd hm hid hpd' =>
      refine { hrefl with proposals := ?_ }
      have hout : p.decisionId ≠ d.id := fun he => hne hd₀ hm.ne_locked (he.symm.trans hpd)
      exact filter_replace db.valid.pkProposals hp (decide_eq_false hout)
        (decide_eq_false (hpd' ▸ hout))
  | moveProposal d₀ p p' hd₀ hp hpd hm hid hpd' =>
      refine { hrefl with proposals := ?_ }
      have hout : p.decisionId ≠ d.id := fun he => hne hd₀ hm.ne_locked (he.symm.trans hpd)
      exact filter_replace db.valid.pkProposals hp (decide_eq_false hout)
        (decide_eq_false (hpd' ▸ hout))
  | deleteProposal d₀ p hd₀ hp hpd hm =>
      refine { hrefl with proposals := ?_, objections := ?_ }
      · show (db.proposals.filter _).filter _ = db.proposals.filter _
        rw [List.filter_filter]
        refine List.filter_congr fun x hx => ?_
        by_cases hxd : x.decisionId = d.id
        · simp [hxd, (hnep hd₀ hm hp hpd hx hxd).symm]
        · simp [hxd]
      · intro x hx hxd
        exact filter_kept (fun id => id = p.id) (decide_eq_false (hnep hd₀ hm hp hpd hx hxd).symm)
  | addObjection d₀ p row hd₀ hp hpd hrow hm =>
      refine { hrefl with objections := ?_ }
      intro x hx hxd
      have hout : decide (row.proposalId = x.id) = false :=
        decide_eq_false fun he => hnep hd₀ hm hp hpd hx hxd (hrow.symm.trans he)
      rw [Core.objectionRows, List.filter_append, List.filter_singleton, hout]
      exact List.append_nil _
  | setObjection d₀ p o o' hd₀ hp hpd ho hop hm hid hop' =>
      refine { hrefl with objections := ?_ }
      intro x hx hxd
      have hout : o.proposalId ≠ x.id := fun he => hnep hd₀ hm hp hpd hx hxd (hop.symm.trans he)
      exact filter_replace db.valid.pkObjections ho (decide_eq_false hout)
        (decide_eq_false (hop' ▸ hout))
  | addSession d₀ row =>
      exact { hrefl with session := List.mem_append_left _ hs }
  | openSession env d₀ s₀ s' voters proposals hd₀ ha hs₀ hds hdraft =>
      have hk : s.id ≠ s₀.id := Db.session_ne hs hs₀ (by rw [hclosed, hdraft]; decide)
      exact { hrefl with
        session := (mem_replace_session hs₀).mpr (Or.inr ⟨hs, hk⟩)
        offers := Core.offerRows_opening_ne hk }
  | castVote s₀ row hs₀ hopen hrow =>
      have hk : s.id ≠ s₀.id := Db.session_ne hs hs₀ (by rw [hclosed, hopen]; decide)
      refine { hrefl with ballots := ?_ }
      have hout : decide (row.votingSessionId = s.id) = false :=
        decide_eq_false fun he => hk (he.symm.trans hrow)
      rw [Core.ballotRows, List.filter_append, List.filter_singleton, hout]
      exact List.append_nil _
  | finishSession s₀ s' hs₀ hid hds hc hq ho hst =>
      have hk : s.id ≠ s₀.id := by
        refine Db.session_ne hs hs₀ fun he => ?_
        rw [hclosed] at he
        rcases hst with ⟨h, -⟩ | ⟨h | h, -⟩ <;> exact absurd (he.trans h) (by decide)
      exact { hrefl with session := (mem_replace_session hs₀).mpr (Or.inr ⟨hs, hk⟩) }
  | lock env user w d₀ d' session result winning snapshot hop hl =>
      have hstatus : d₀.status ≠ .locked := by rw [hl.active]; decide
      exact { hrefl with
        decision := (mem_replace_decision hl.decision_mem).mpr
          (Or.inr ⟨hd, hne hl.decision_mem hstatus⟩) }

end

end ForkRoom
