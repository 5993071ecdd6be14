/-
# `Proof.References` — which rows can refer to a decision or a proposal

A deletion is stopped by the rows that refer to the deleted ones with RESTRICT.  Of a
decision these are its lock, its reviews and its revisions, and of a proposal its
offers, its ballots and the locks that it has won.  In a reachable state

    a lock                of a decision that is LOCKED, with an offer of its proposal
    a review              of a decision that has a lock
    a revision            from a decision that has a lock, as its root has, to one in
                          the same workspace
    an offer, a ballot    in a session of a decision that has left DRAFT

so that what can refer to a draft decision is a revision that leads to it
(`restricts_draft_iff`), to a draft proposal its offers (`restricts_proposal_iff`), and into
a workspace, if anything does, an offer does (`restricts_workspace_iff`).
-/
import ForkRoom.Proof.Outbox
import ForkRoom.Proof.Revisions

namespace ForkRoom

open Optimistic Rows

section
variable {dep : Deployment} {op : Op} {db db' : Db} {ss : List Db} {ws : List Write}
  {rejected : CommitError → ServiceError} {gone : UUID → Bool}

/-! ## Reviews -/

/-- A review is inserted for a decision, and stays with it. -/
theorem Write.review_origin (x : Write) (t : Tables) : ∀ v' ∈ (x.run t).decisionReviews,
    (∃ v ∈ t.decisionReviews, v.decisionId = v'.decisionId) ∨ x = .addReview v' := by
  intro v' hv'
  cases x with
  | addReview row =>
      rcases List.mem_append.mp hv' with hv' | hv'
      · exact Or.inl ⟨v', hv', rfl⟩
      · exact Or.inr (List.mem_singleton.mp hv' ▸ rfl)
  | setReview loaded current =>
      have hrows : v' ∈ update loaded current (loaded.merge current) t.decisionReviews := hv'
      unfold update at hrows
      split at hrows
      · exact Or.inl ⟨v', hrows, rfl⟩
      · obtain ⟨v, hv, rfl⟩ := List.mem_map.mp hrows
        refine Or.inl ⟨v, hv, ?_⟩
        split <;> rfl
  | _ => exact Or.inl ⟨v', hv', rfl⟩

theorem Tables.review_origin : ∀ (ws : List Write) (t : Tables),
    ∀ v' ∈ (t.write ws).decisionReviews, (∃ v ∈ t.decisionReviews, v.decisionId = v'.decisionId) ∨
      ∃ row, .addReview row ∈ ws ∧ row.decisionId = v'.decisionId := by
  intro ws
  induction ws with
  | nil => exact fun t v' hv' => Or.inl ⟨v', hv', rfl⟩
  | cons x ws ih =>
      intro t v' hv'
      rcases ih (x.run t) v' hv' with ⟨v, hv, hid⟩ | ⟨row, hrow, hid⟩
      · rcases x.review_origin t v hv with ⟨v₀, hv₀, hid₀⟩ | rfl
        · exact Or.inl ⟨v₀, hv₀, hid₀.trans hid⟩
        · exact Or.inr ⟨v, List.mem_cons_self, hid⟩
      · exact Or.inr ⟨row, List.mem_cons_of_mem _ hrow, hid⟩

/-- A review is scheduled for a decision that is LOCKED. -/
theorem Op.addReview_locked {ok : Db → Except ServiceError Response} {row : DecisionReview}
    (hss : ∀ s ∈ ss, db = s) (hends : (op.program dep).Ends ss (.ok (.commit ws ok rejected)))
    (hc : db.commit ws = .ok db') (hrow : .addReview row ∈ ws) :
    ∃ d ∈ db.decisions, d.id = row.decisionId ∧ d.status = .locked := by
  have hfoot := Op.commits_footprint hends _ hrow
  cases op <;> (try (exfalso; simp [Op.footprint, Write.target] at hfoot; done)) <;>
    obtain ⟨_, h⟩ := Request.map_commits hends
  case createReview =>
    obtain ⟨_, _, _, c, row', rfl, hctx, -, hlocked, rfl, -, hid, -⟩ :=
      ActionReviewService.createReview_commits h
    simp only [List.forall_mem_cons] at hss
    obtain ⟨rfl, rfl, rfl, -⟩ := hss
    obtain ⟨hd, -, -⟩ := DecisionRepository.getForWorkspace_some hctx.decision
    cases List.mem_singleton.mp hrow
    exact ⟨c.decision, hd, hid.symm, hlocked⟩
  case updateReview =>
    obtain ⟨_, _, _, _, _, _, -, -, -, -, -, -, rfl⟩ := ActionReviewService.updateReview_commits h
    cases List.mem_singleton.mp hrow
  case cancelReview =>
    obtain ⟨_, _, _, _, _, _, -, -, -, -, -, -, rfl⟩ := ActionReviewService.cancelReview_commits h
    cases List.mem_singleton.mp hrow
  case completeReview =>
    obtain ⟨_, _, _, _, _, _, -, -, -, -, -, -, -, rfl⟩ :=
      ActionReviewService.completeReview_confirms h hc
    cases List.mem_singleton.mp hrow

/-- A decision stays in its workspace. -/
theorem CoreStep.workspace_kept (hstep : CoreStep dep op db db'.core) {d d' : Decision}
    (hd : d ∈ db.decisions) (hd' : d' ∈ db'.decisions) (hid : d'.id = d.id) :
    d'.workspaceId = d.workspaceId := by
  rcases hstep.decision_origin d' hd' with ⟨d₀, hd₀, hid₀, hw⟩ | hnew
  · rw [← hw, eq_of_key db.valid.pkDecisions hd₀ hd (hid₀.trans hid)]
  · have hpk := db'.valid.pkDecisions
    rw [PrimaryKey, show db'.decisions = _ from hnew] at hpk
    exact absurd hid.symm (Unique.ne_of_append hpk d hd)

/-! ## The invariant -/

/-- Reviews are of decisions that have a lock; a revision leads to a decision in the
same workspace. -/
structure Anchored (db : Db) : Prop where
  reviews : ∀ v ∈ db.decisionReviews, ∃ l ∈ db.decisionLocks, l.decisionId = v.decisionId
  workspaces : ∀ r ∈ db.decisionRevisions, ∀ p ∈ db.decisions, p.id = r.predecessorDecisionId →
    ∀ s ∈ db.decisions, s.id = r.successorDecisionId → s.workspaceId = p.workspaceId

theorem anchored_empty : Anchored Db.empty where
  reviews _ h := nomatch h
  workspaces _ h := nomatch h

theorem Anchored.step (h : Anchored db) (hrevision : RevisionInv db) (op : Op) :
    Anchored (op.exec dep db).2 := by
  rcases Request.exec_cases Db.commit (op.program dep) db with hs | ⟨ss, ws, _, _, hss, hends, hc⟩
  · rw [Op.exec, hs]
    exact h
  have hstep : CoreStep dep op db (op.exec dep db).2.core := Op.exec_step dep op db
  have htables := (Db.commit_ok hc).1
  constructor
  · intro v' hv'
    have hlock : ∃ l ∈ db.decisionLocks, l.decisionId = v'.decisionId := by
      rw [Op.exec, htables] at hv'
      rcases Tables.review_origin ws _ v' hv' with ⟨v, hv, hid⟩ | ⟨row, hrow, hid⟩
      · rw [← hid]
        exact h.reviews v hv
      · obtain ⟨d, hd, hdid, hlocked⟩ := Op.addReview_locked hss hends hc hrow
        rw [← hid, ← hdid]
        exact hrevision.locked d hd hlocked
    obtain ⟨l, hl, hid⟩ := hlock
    exact ⟨l, hstep.locks_kept l hl, hid⟩
  · intro r hr p hp hpid s hs hsid
    have hold : r ∈ db.decisionRevisions := by
      rw [← Op.commit_revisions hends hc]
      exact hr
    obtain ⟨p₀, hp₀, hpk⟩ := db.valid.fkDecisionRevisionsPredecessor r hold
    obtain ⟨s₀, hs₀, hsk⟩ := db.valid.fkDecisionRevisionsSuccessor r hold
    rw [hstep.workspace_kept hp₀ hp (hpid.trans hpk.symm),
      hstep.workspace_kept hs₀ hs (hsid.trans hsk.symm)]
    exact h.workspaces r hold p₀ hp₀ hpk s₀ hs₀ hsk

theorem Reachable.anchored (h : Reachable dep db) : Anchored db := by
  induction h with
  | empty => exact anchored_empty
  | step op h ih => exact ih.step h.revisionInv op

/-! ## What can refer -/

/-- An offer of a proposal of a decision in `gone`. -/
def Db.OffersIn (db : Db) (gone : UUID → Bool) : Prop :=
  ∃ o ∈ db.votingSessionProposals, ∃ p ∈ db.proposals, p.id = o.proposalId ∧ gone p.decisionId

/-- A lock in a decision comes with an offer in it. -/
theorem Reachable.lock_offers (h : Reachable dep db) {l : DecisionLock} (hl : l ∈ db.decisionLocks)
    (hgone : gone l.decisionId) : db.OffersIn gone := by
  obtain ⟨d, s, w, hlocked⟩ := h.lockInv.locks l hl
  have hopened : s.openedAt ≠ none :=
    db.openedAt_of_opened hlocked.session_mem (Or.inr hlocked.closed)
  obtain ⟨o, ho, hos⟩ := h.underway.offered s hlocked.session_mem hopened
  obtain ⟨p, hp, hpk⟩ := db.valid.fkVotingSessionProposalsProposal o ho
  refine ⟨o, ho, p, hp, hpk, ?_⟩
  rw [h.votingInv.offered o ho s hlocked.session_mem hos.symm p hp hpk, hlocked.session_decision,
    hlocked.decision_id]
  exact hgone

/-- The root of a revision has a lock, and so has its predecessor. -/
theorem RevisionInv.locks_of_revision (h : RevisionInv db) {r : DecisionRevision}
    (hr : r ∈ db.decisionRevisions) : (∃ l ∈ db.decisionLocks, l.decisionId = r.rootDecisionId) ∧
      ∃ l ∈ db.decisionLocks, l.decisionId = r.predecessorDecisionId := by
  constructor
  · obtain ⟨first, hfirst, -, -, hpred⟩ := h.chains.first hr
    obtain ⟨l, hl, -, hid⟩ := h.source first hfirst
    exact ⟨l, hl, hid.trans hpred⟩
  · obtain ⟨l, hl, -, hid⟩ := h.source r hr
    exact ⟨l, hl, hid⟩

theorem Tables.proposalsOf_iff {t : Tables} {id : UUID} :
    t.proposalsOf gone id ↔ ∃ p ∈ t.proposals, p.id = id ∧ gone p.decisionId := by
  simp [Tables.proposalsOf]

/-- What stops a deletion of decisions is an offer of a proposal of theirs, or a revision
that leads to one of them. -/
theorem Reachable.restricts_iff (h : Reachable dep db) :
    db.restrictsDecisions gone ↔
      db.OffersIn gone ∨ ∃ r ∈ db.decisionRevisions, gone r.successorDecisionId := by
  simp only [Tables.restrictsDecisions, Tables.restrictsProposals, Bool.or_eq_true,
    List.any_eq_true]
  constructor
  · rintro (((((⟨o, ho, hgone⟩ | ⟨v, hv, hgone⟩) | ⟨l, hl, hgone⟩) | ⟨l, hl, hgone⟩) |
      ⟨v, hv, hgone⟩) | ⟨r, hr, hgone⟩)
    · exact Or.inl ⟨o, ho, Tables.proposalsOf_iff.mp hgone⟩
    · exact Or.inl ⟨_, (h.votingInv.ballots v hv).2, Tables.proposalsOf_iff.mp hgone⟩
    · -- the proposal that has won is one of the decision
      obtain ⟨d, s, w, hlocked⟩ := h.lockInv.locks l hl
      obtain ⟨p, hp, hid, hgone⟩ := Tables.proposalsOf_iff.mp hgone
      have hsame : p = w :=
        eq_of_key db.valid.pkProposals hp hlocked.winning_mem (hid.trans hlocked.winning_id.symm)
      rw [hsame, hlocked.winning_decision, hlocked.decision_id] at hgone
      exact Or.inl (h.lock_offers hl hgone)
    · rcases hgone with hgone | hgone
      · exact Or.inl (h.lock_offers hl hgone)
      · obtain ⟨d, s, w, hlocked⟩ := h.lockInv.locks l hl
        simp only [Tables.sessionsOf, List.any_eq_true, Bool.and_eq_true,
          decide_eq_true_eq] at hgone
        obtain ⟨x, hx, hid, hgone⟩ := hgone
        have hsame : x = s := eq_of_key db.valid.pkVotingSessions hx hlocked.session_mem
          (hid.trans hlocked.session_id.symm)
        rw [hsame, hlocked.session_decision, hlocked.decision_id] at hgone
        exact Or.inl (h.lock_offers hl hgone)
    · obtain ⟨l, hl, hid⟩ := h.anchored.reviews v hv
      exact Or.inl (h.lock_offers hl (hid ▸ hgone))
    · obtain ⟨⟨l, hl, hid⟩, l', hl', hid'⟩ := h.revisionInv.locks_of_revision hr
      rcases hgone with (hgone | hgone) | hgone
      · exact Or.inl (h.lock_offers hl (hid ▸ hgone))
      · exact Or.inl (h.lock_offers hl' (hid' ▸ hgone))
      · exact Or.inr ⟨r, hr, hgone⟩
  · rintro (⟨o, ho, hp⟩ | ⟨r, hr, hgone⟩)
    · exact Or.inl (Or.inl (Or.inl (Or.inl (Or.inl ⟨o, ho, Tables.proposalsOf_iff.mpr hp⟩))))
    · exact Or.inr ⟨r, hr, Or.inr hgone⟩

/-- **What can refer to a draft decision is a revision that leads to it.** -/
theorem Reachable.restricts_draft_iff (h : Reachable dep db) {d : Decision} (hd : d ∈ db.decisions)
    (hdraft : d.status = .draft) :
    db.restrictsDecisions (fun x => x = d.id) ↔
      ∃ r ∈ db.decisionRevisions, r.successorDecisionId = d.id := by
  rw [h.restricts_iff]
  constructor
  · rintro (⟨o, ho, p, hp, hid, hgone⟩ | ⟨r, hr, hgone⟩)
    · -- the session of the offer is in a decision that has left DRAFT
      obtain ⟨s, hs, hos⟩ := db.valid.fkVotingSessionProposalsSession o ho
      have hsession := h.votingInv.offered o ho s hs hos p hp hid
      exact absurd hdraft (h.underway.decided s hs d hd
        ((of_decide_eq_true hgone).symm.trans hsession))
    · exact ⟨r, hr, of_decide_eq_true hgone⟩
  · rintro ⟨r, hr, hid⟩
    exact Or.inr ⟨r, hr, decide_eq_true hid⟩

/-- **What can refer to a draft proposal are its offers.** -/
theorem Reachable.restricts_proposal_iff (h : Reachable dep db) {p : Proposal}
    (hp : p ∈ db.proposals) (hdraft : p.status = .draft) :
    db.restrictsProposals (fun x => x = p.id) ↔
      ∃ o ∈ db.votingSessionProposals, o.proposalId = p.id := by
  simp only [Tables.restrictsProposals, Bool.or_eq_true, List.any_eq_true, decide_eq_true_eq]
  constructor
  · rintro ((ho | ⟨v, hv, hid⟩) | ⟨l, hl, hid⟩)
    · exact ho
    · exact ⟨_, (h.votingInv.ballots v hv).2, hid⟩
    · -- a proposal that has won is submitted
      obtain ⟨d, s, w, hlocked⟩ := h.lockInv.locks l hl
      have hsame : p = w :=
        eq_of_key db.valid.pkProposals hp hlocked.winning_mem
          (hid.symm.trans hlocked.winning_id.symm)
      rw [hsame, hlocked.submitted] at hdraft
      cases hdraft
  · exact fun ho => Or.inl (Or.inl ho)

/-- **If anything refers into a workspace, an offer does.** -/
theorem Reachable.restricts_workspace_iff (h : Reachable dep db) {w : UUID} :
    db.restrictsDecisions (db.decisionsOf w) ↔ db.OffersIn (db.decisionsOf w) := by
  rw [h.restricts_iff]
  refine ⟨fun hr => hr.elim id fun hr => ?_, Or.inl⟩
  obtain ⟨r, hr, hgone⟩ := hr
  -- the predecessor is in the workspace too, and has a lock
  simp only [Tables.decisionsOf, List.any_eq_true, Bool.and_eq_true, decide_eq_true_eq] at hgone
  obtain ⟨s, hs, hsid, hw⟩ := hgone
  obtain ⟨p, hp, hpid⟩ := db.valid.fkDecisionRevisionsPredecessor r hr
  have hpw : p.workspaceId = w := (h.anchored.workspaces r hr p hp hpid s hs hsid).symm.trans hw
  obtain ⟨-, l, hl, hid⟩ := h.revisionInv.locks_of_revision hr
  refine h.lock_offers hl ?_
  rw [hid]
  exact List.any_eq_true.mpr ⟨p, hp, by simpa using ⟨hpid, hpw⟩⟩

end

end ForkRoom
