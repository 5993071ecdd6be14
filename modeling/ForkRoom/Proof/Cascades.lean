/-
# `Proof.Cascades` — what a deletion leaves of the core

The code of a cascade says which rows go, table by table, by looking down from the
deleted row.  `Tables.Left` says which rows stay, by looking up: a row stays iff it is
not the deleted one and the rows it refers to, with `ON DELETE CASCADE`, stay.

    withoutProposals_left     the tables without a proposal
    withoutDecisions_left     without a decision
    withoutWorkspace_left     without a workspace

If no RESTRICT reference is in the way, what is left satisfies all constraints, so
that the commit of the deletion succeeds (`Db.commit_deleteDecision` and the like).
-/
import ForkRoom.System.Constraints
import ForkRoom.System.Deletion
import ForkRoom.System.Gates

namespace ForkRoom

open Gateway Rows

/-- A row of the identifier is there. -/
def Kept {α : Type} [Keyed α UUID] (rows : List α) (id : UUID) : Prop :=
  ∃ x ∈ rows, Keyed.key x = id

/-! ## Filters -/

section
variable {α β : Type} [Keyed α UUID] [Keyed β UUID] {rows : List α} {targets : List β}
  {fk : α → UUID} {gone : UUID → Bool}

theorem kept_filter {id : UUID} :
    Kept (targets.filter fun x => !gone (Keyed.key x)) id ↔ Kept targets id ∧ gone id = false := by
  constructor
  · rintro ⟨x, hx, rfl⟩
    obtain ⟨hx, hgone⟩ := List.mem_filter.mp hx
    exact ⟨⟨x, hx, rfl⟩, by simpa using hgone⟩
  · rintro ⟨⟨x, hx, rfl⟩, hgone⟩
    exact ⟨x, List.mem_filter.mpr ⟨hx, by simpa using hgone⟩, rfl⟩

/-- The rows that refer to nothing that goes. -/
theorem mem_filter_fk {α : Type} {rows : List α} {fk : α → UUID} (gone : UUID → Bool)
    (hfk : References fk rows targets) {r : α} : r ∈ rows.filter (fun x => !gone (fk x)) ↔
      r ∈ rows ∧ Kept (targets.filter fun x => !gone (Keyed.key x)) (fk r) := by
  rw [List.mem_filter, kept_filter, Bool.not_eq_true']
  exact and_congr_right fun hr => ⟨fun h => ⟨hfk r hr, h⟩, fun h => h.2⟩

theorem any_key {g : α → Bool} (hn : PrimaryKey rows) {r : α} (hr : r ∈ rows) :
    rows.any (fun x => decide (Keyed.key x = Keyed.key r) && g x) = g r := by
  rw [Bool.eq_iff_iff, List.any_eq_true]
  constructor
  · rintro ⟨x, hx, hg⟩
    simp only [Bool.and_eq_true, decide_eq_true_eq] at hg
    exact eq_of_key hn hx hr hg.1 ▸ hg.2
  · exact fun hg => ⟨r, hr, by simpa using hg⟩

/-- The same, where what goes is given by its identifiers. -/
theorem mem_filter_of (gone : UUID → Bool) (hn : PrimaryKey rows)
    (hfk : References fk rows targets) {r : α} :
    r ∈ rows.filter (fun x => !rows.any fun y =>
      decide (Keyed.key y = Keyed.key x) && gone (fk y)) ↔
      r ∈ rows ∧ Kept (targets.filter fun x => !gone (Keyed.key x)) (fk r) := by
  rw [← mem_filter_fk gone hfk, List.mem_filter, List.mem_filter]
  exact and_congr_right fun hr => by rw [any_key hn hr]

/-- What is left where rows go by a column that is not their key. -/
theorem kept_filter_of {g : α → Bool} (hn : PrimaryKey rows) {id : UUID} (hid : Kept rows id) :
    Kept (rows.filter fun x => !g x) id ↔
      rows.any (fun x => decide (Keyed.key x = id) && g x) = false := by
  obtain ⟨x, hx, rfl⟩ := hid
  rw [any_key hn hx]
  constructor
  · rintro ⟨y, hy, hk⟩
    obtain ⟨hy, hg⟩ := List.mem_filter.mp hy
    rw [← eq_of_key hn hy hx hk]
    simpa using hg
  · exact fun hg => ⟨x, List.mem_filter.mpr ⟨hx, by simpa using hg⟩, rfl⟩

end

/-! ## What is left -/

/-- `t'` is what a deletion of the row `root` leaves of `t`. -/
structure Tables.Left (root : Key) (t t' : Tables) : Prop where
  workspaces : ∀ r, r ∈ t'.workspaces ↔ r ∈ t.workspaces ∧ .workspace r.id ≠ root
  members : ∀ r, r ∈ t'.workspaceMembers ↔ r ∈ t.workspaceMembers ∧ Kept t'.workspaces r.workspaceId
  decisions : ∀ r, r ∈ t'.decisions ↔
    r ∈ t.decisions ∧ .decision r.id ≠ root ∧ Kept t'.workspaces r.workspaceId
  proposals : ∀ r, r ∈ t'.proposals ↔
    r ∈ t.proposals ∧ .proposal r.id ≠ root ∧ Kept t'.decisions r.decisionId
  criteria : ∀ r, r ∈ t'.decisionCriteria ↔ r ∈ t.decisionCriteria ∧ Kept t'.decisions r.decisionId
  scores : ∀ r, r ∈ t'.proposalScores ↔
    r ∈ t.proposalScores ∧ Kept t'.proposals r.proposalId ∧ Kept t'.decisionCriteria r.criterionId
  objections : ∀ r, r ∈ t'.objections ↔ r ∈ t.objections ∧ Kept t'.proposals r.proposalId
  statusEvents : ∀ r, r ∈ t'.objectionStatusEvents ↔
    r ∈ t.objectionStatusEvents ∧ Kept t'.objections r.objectionId
  sessions : ∀ r, r ∈ t'.votingSessions ↔ r ∈ t.votingSessions ∧ Kept t'.decisions r.decisionId
  voters : ∀ r, r ∈ t'.votingEligibleVoters ↔
    r ∈ t.votingEligibleVoters ∧ Kept t'.votingSessions r.votingSessionId
  offers : ∀ r, r ∈ t'.votingSessionProposals ↔
    r ∈ t.votingSessionProposals ∧ Kept t'.votingSessions r.votingSessionId
  votes : ∀ r, r ∈ t'.votes ↔ r ∈ t.votes ∧ Kept t'.votingSessions r.votingSessionId
  events : ∀ r, r ∈ t'.integrationOutboxEvents ↔
    r ∈ t.integrationOutboxEvents ∧ Kept t'.workspaces r.workspaceId

section
variable {t : Tables} {gone : UUID → Bool} {id : UUID}

theorem withoutProposals_sub : t.Sub (t.withoutProposals gone) where
  users := rfl
  workspaces := .refl _
  workspaceMembers := .refl _
  decisions := .refl _
  proposals := List.filter_sublist
  decisionCriteria := .refl _
  proposalScores := List.filter_sublist
  objections := List.filter_sublist
  objectionStatusEvents := List.filter_sublist
  votingSessions := .refl _
  votingEligibleVoters := .refl _
  votingSessionProposals := .refl _
  votes := .refl _
  decisionLocks := .refl _
  decisionReviews := .refl _
  decisionRevisions := .refl _
  integrationOutboxEvents := .refl _

theorem withoutDecisions_sub : t.Sub (t.withoutDecisions gone) :=
  { (withoutProposals_sub : t.Sub (t.withoutProposals (t.proposalsOf gone))) with
    decisions := List.filter_sublist
    decisionCriteria := List.filter_sublist
    proposalScores := List.filter_sublist.trans List.filter_sublist
    votingSessions := List.filter_sublist
    votingEligibleVoters := List.filter_sublist
    votingSessionProposals := List.filter_sublist
    votes := List.filter_sublist }

theorem withoutWorkspace_sub : t.Sub (t.withoutWorkspace id) :=
  { (withoutDecisions_sub : t.Sub (t.withoutDecisions (t.decisionsOf id))) with
    workspaces := List.filter_sublist
    workspaceMembers := List.filter_sublist
    integrationOutboxEvents := List.filter_sublist }

/-- The history of an objection goes with it. -/
theorem withoutProposals_statusEvents (h : Constraints t) {r : ObjectionStatusEvent} :
    r ∈ (t.withoutProposals gone).objectionStatusEvents ↔
      r ∈ t.objectionStatusEvents ∧ Kept (t.withoutProposals gone).objections r.objectionId := by
  refine List.mem_filter.trans (and_congr_right fun hr => ?_)
  rw [Bool.not_eq_true']
  exact (kept_filter_of h.pkObjections (h.fkObjectionStatusEventsObjection r hr)).symm

theorem withoutProposals_left (h : Constraints t) :
    t.Left (.proposal id) (t.withoutProposals fun x => x = id) where
  workspaces r := by simp [Tables.withoutProposals]
  members r := ⟨fun hr => ⟨hr, h.fkWorkspaceMembersWorkspace r hr⟩, fun hr => hr.1⟩
  decisions r := ⟨fun hr => ⟨hr, by simp, h.fkDecisionsWorkspace r hr⟩, fun hr => hr.1⟩
  proposals r := by
    have hmem :
        r ∈ (t.withoutProposals fun x => x = id).proposals ↔ r ∈ t.proposals ∧ r.id ≠ id := by
      simp [Tables.withoutProposals]
    rw [hmem, ne_eq, ne_eq, Key.proposal.injEq]
    exact ⟨fun hr => ⟨hr.1, hr.2, h.fkProposalsDecision r hr.1⟩, fun hr => ⟨hr.1, hr.2.1⟩⟩
  criteria r := ⟨fun hr => ⟨hr, h.fkDecisionCriteriaDecision r hr⟩, fun hr => hr.1⟩
  scores r := by
    have hmem := mem_filter_fk (fun x => x = id) h.fkProposalScoresProposal (r := r)
    exact hmem.trans (and_congr_right fun hr =>
      ⟨fun hk => ⟨hk, h.fkProposalScoresCriterion r hr⟩, fun hk => hk.1⟩)
  objections r := mem_filter_fk (fun x => x = id) h.fkObjectionsProposal
  statusEvents r := withoutProposals_statusEvents h
  sessions r := ⟨fun hr => ⟨hr, h.fkVotingSessionsDecision r hr⟩, fun hr => hr.1⟩
  voters r := ⟨fun hr => ⟨hr, h.fkVotingEligibleVotersSession r hr⟩, fun hr => hr.1⟩
  offers r := ⟨fun hr => ⟨hr, h.fkVotingSessionProposalsSession r hr⟩, fun hr => hr.1⟩
  votes r := ⟨fun hr => ⟨hr, h.fkVotesSession r hr⟩, fun hr => hr.1⟩
  events r := ⟨fun hr => ⟨hr, h.fkIntegrationOutboxEventsWorkspace r hr⟩, fun hr => hr.1⟩

/-- The rows below the decisions, whichever of these go. -/
structure Tables.LeftBelow (t t' : Tables) : Prop where
  proposals : ∀ r, r ∈ t'.proposals ↔ r ∈ t.proposals ∧ Kept t'.decisions r.decisionId
  criteria : ∀ r, r ∈ t'.decisionCriteria ↔ r ∈ t.decisionCriteria ∧ Kept t'.decisions r.decisionId
  scores : ∀ r, r ∈ t'.proposalScores ↔
    r ∈ t.proposalScores ∧ Kept t'.proposals r.proposalId ∧ Kept t'.decisionCriteria r.criterionId
  objections : ∀ r, r ∈ t'.objections ↔ r ∈ t.objections ∧ Kept t'.proposals r.proposalId
  statusEvents : ∀ r, r ∈ t'.objectionStatusEvents ↔
    r ∈ t.objectionStatusEvents ∧ Kept t'.objections r.objectionId
  sessions : ∀ r, r ∈ t'.votingSessions ↔ r ∈ t.votingSessions ∧ Kept t'.decisions r.decisionId
  voters : ∀ r, r ∈ t'.votingEligibleVoters ↔
    r ∈ t.votingEligibleVoters ∧ Kept t'.votingSessions r.votingSessionId
  offers : ∀ r, r ∈ t'.votingSessionProposals ↔
    r ∈ t.votingSessionProposals ∧ Kept t'.votingSessions r.votingSessionId
  votes : ∀ r, r ∈ t'.votes ↔ r ∈ t.votes ∧ Kept t'.votingSessions r.votingSessionId

theorem withoutDecisions_below (h : Constraints t) : t.LeftBelow (t.withoutDecisions gone) where
  proposals r := mem_filter_of gone h.pkProposals h.fkProposalsDecision
  criteria r := mem_filter_of gone h.pkDecisionCriteria h.fkDecisionCriteriaDecision
  scores r := by
    have hproposal := mem_filter_fk (t.proposalsOf gone) h.fkProposalScoresProposal (r := r)
    have hcriterion := mem_filter_fk (t.criteriaOf gone) h.fkProposalScoresCriterion (r := r)
    refine List.mem_filter.trans ((and_congr hproposal Iff.rfl).trans ?_)
    rw [and_assoc]
    refine and_congr_right fun hr => and_congr_right fun _ => ?_
    exact ⟨fun hc => (hcriterion.mp (List.mem_filter.mpr ⟨hr, hc⟩)).2,
      fun hk => (List.mem_filter.mp (hcriterion.mpr ⟨hr, hk⟩)).2⟩
  objections r := mem_filter_fk (t.proposalsOf gone) h.fkObjectionsProposal
  statusEvents r := withoutProposals_statusEvents h
  sessions r := mem_filter_of gone h.pkVotingSessions h.fkVotingSessionsDecision
  voters r := mem_filter_fk (t.sessionsOf gone) h.fkVotingEligibleVotersSession
  offers r := mem_filter_fk (t.sessionsOf gone) h.fkVotingSessionProposalsSession
  votes r := mem_filter_fk (t.sessionsOf gone) h.fkVotesSession

theorem withoutDecisions_left (h : Constraints t) :
    t.Left (.decision id) (t.withoutDecisions fun x => x = id) :=
  { withoutDecisions_below h with
    workspaces := fun r => by simp [Tables.withoutDecisions, Tables.withoutProposals,
      Tables.withoutCriteria, Tables.withoutSessions]
    members := fun r => ⟨fun hr => ⟨hr, h.fkWorkspaceMembersWorkspace r hr⟩, fun hr => hr.1⟩
    decisions := fun r => by
      have hmem : r ∈ (t.withoutDecisions fun x => x = id).decisions ↔
          r ∈ t.decisions ∧ r.id ≠ id := by
        simp [Tables.withoutDecisions, Tables.withoutProposals, Tables.withoutCriteria,
          Tables.withoutSessions]
      rw [hmem, ne_eq, ne_eq, Key.decision.injEq]
      exact ⟨fun hr => ⟨hr.1, hr.2, h.fkDecisionsWorkspace r hr.1⟩, fun hr => ⟨hr.1, hr.2.1⟩⟩
    proposals := fun r => ((withoutDecisions_below h).proposals r).trans
      ⟨fun hr => ⟨hr.1, by simp, hr.2⟩, fun hr => ⟨hr.1, hr.2.2⟩⟩
    events := fun r =>
      ⟨fun hr => ⟨hr, h.fkIntegrationOutboxEventsWorkspace r hr⟩, fun hr => hr.1⟩ }

theorem withoutWorkspace_left (h : Constraints t) :
    t.Left (.workspace id) (t.withoutWorkspace id) :=
  have hbelow : t.LeftBelow (t.withoutDecisions (t.decisionsOf id)) := withoutDecisions_below h
  have hworkspaces : (t.withoutWorkspace id).workspaces =
      t.workspaces.filter fun w => !decide (w.id = id) :=
    List.filter_congr fun w _ => decide_not
  { hbelow with
    workspaces := fun r => by simp [hworkspaces]
    members := fun r => by
      rw [hworkspaces]
      refine Iff.trans ?_ (mem_filter_fk (fun x => x = id) h.fkWorkspaceMembersWorkspace)
      simp [Tables.withoutWorkspace, Tables.withoutDecisions, Tables.withoutProposals,
        Tables.withoutCriteria, Tables.withoutSessions]
    decisions := fun r => by
      rw [hworkspaces]
      have hmem : r ∈ (t.withoutWorkspace id).decisions ↔ _ :=
        mem_filter_of (fun x => x = id) h.pkDecisions h.fkDecisionsWorkspace
      exact hmem.trans ⟨fun hr => ⟨hr.1, by simp, hr.2⟩, fun hr => ⟨hr.1, hr.2.2⟩⟩
    proposals := fun r => (hbelow.proposals r).trans
      ⟨fun hr => ⟨hr.1, by simp, hr.2⟩, fun hr => ⟨hr.1, hr.2.2⟩⟩
    events := fun r => by
      rw [hworkspaces]
      refine Iff.trans ?_ (mem_filter_fk (fun x => x = id) h.fkIntegrationOutboxEventsWorkspace)
      simp [Tables.withoutWorkspace, Tables.withoutDecisions, Tables.withoutProposals,
        Tables.withoutCriteria, Tables.withoutSessions] }

/-! ## The commit -/

theorem Tables.Left.cascading {root : Key} {t' : Tables} (h : t.Left root t') : t'.Cascading where
  members r hr := ((h.members r).mp hr).2
  decisions r hr := ((h.decisions r).mp hr).2.2
  proposals r hr := ((h.proposals r).mp hr).2.2
  criteria r hr := ((h.criteria r).mp hr).2
  scoredProposals r hr := ((h.scores r).mp hr).2.1
  scoredCriteria r hr := ((h.scores r).mp hr).2.2
  objections r hr := ((h.objections r).mp hr).2
  statusEvents r hr := ((h.statusEvents r).mp hr).2
  sessions r hr := ((h.sessions r).mp hr).2
  voters r hr := ((h.voters r).mp hr).2
  offers r hr := ((h.offers r).mp hr).2
  votes r hr := ((h.votes r).mp hr).2
  events r hr := ((h.events r).mp hr).2

theorem withoutProposals_restricting (h : Constraints t) (hr : t.restrictsProposals gone = false) :
    (t.withoutProposals gone).Restricting := by
  simp only [Tables.restrictsProposals, Bool.or_eq_false_iff, List.any_eq_false,
    Bool.not_eq_true] at hr
  obtain ⟨⟨hoffers, hvotes⟩, hlocks⟩ := hr
  exact
    { offered := fun r hr => kept_filter.mpr ⟨h.fkVotingSessionProposalsProposal r hr, hoffers r hr⟩
      votedFor := fun r hr => kept_filter.mpr ⟨h.fkVotesProposal r hr, hvotes r hr⟩
      locked := h.fkDecisionLocksDecision
      counted := h.fkDecisionLocksVotingSession
      winners := fun r hr => kept_filter.mpr ⟨h.fkDecisionLocksWinningProposal r hr, hlocks r hr⟩
      reviewed := h.fkDecisionReviewsDecision
      roots := h.fkDecisionRevisionsRoot
      predecessors := h.fkDecisionRevisionsPredecessor
      successors := h.fkDecisionRevisionsSuccessor
      sources := h.fkDecisionRevisionsSourceLock
      concluded := h.fkDecisionRevisionsReview }

theorem withoutDecisions_restricting (h : Constraints t) (hr : t.restrictsDecisions gone = false) :
    (t.withoutDecisions gone).Restricting := by
  simp only [Tables.restrictsDecisions, Bool.or_eq_false_iff, List.any_eq_false,
    Bool.or_eq_true, not_or, Bool.not_eq_true] at hr
  obtain ⟨⟨⟨hproposals, hlocks⟩, hreviews⟩, hrevisions⟩ := hr
  have hproposals := withoutProposals_restricting h hproposals
  exact
    { hproposals with
      offered := fun r hr => hproposals.offered r (List.mem_filter.mp hr).1
      votedFor := fun r hr => hproposals.votedFor r (List.mem_filter.mp hr).1
      locked := fun r hr => kept_filter.mpr ⟨h.fkDecisionLocksDecision r hr, (hlocks r hr).1⟩
      counted := fun r hr => kept_filter.mpr ⟨h.fkDecisionLocksVotingSession r hr, (hlocks r hr).2⟩
      reviewed := fun r hr => kept_filter.mpr ⟨h.fkDecisionReviewsDecision r hr, hreviews r hr⟩
      roots := fun r hr =>
        kept_filter.mpr ⟨h.fkDecisionRevisionsRoot r hr, (hrevisions r hr).1.1⟩
      predecessors := fun r hr =>
        kept_filter.mpr ⟨h.fkDecisionRevisionsPredecessor r hr, (hrevisions r hr).1.2⟩
      successors := fun r hr =>
        kept_filter.mpr ⟨h.fkDecisionRevisionsSuccessor r hr, (hrevisions r hr).2⟩ }

theorem withoutWorkspace_restricting (h : Constraints t)
    (hr : t.restrictsDecisions (t.decisionsOf id) = false) : (t.withoutWorkspace id).Restricting :=
  { withoutDecisions_restricting h hr with }

end

section
variable {db : Db} {id : UUID}

/-- The deletion of a proposal that nothing restricts is committed. -/
theorem Db.commit_deleteProposal (hr : db.restrictsProposals (fun x => x = id) = false) :
    ∃ db', db.commit [.deleteProposal id] = .ok db' ∧
      db'.toTables = db.withoutProposals fun x => x = id :=
  Db.commit_write rfl rfl hr rfl (db.fits.of_sub withoutProposals_sub)
    (db.valid.of_sub withoutProposals_sub
      ⟨(withoutProposals_left db.valid).cascading, withoutProposals_restricting db.valid hr⟩)

theorem Db.commit_deleteDecision (hr : db.restrictsDecisions (fun x => x = id) = false) :
    ∃ db', db.commit [.deleteDecision id] = .ok db' ∧
      db'.toTables = db.withoutDecisions fun x => x = id :=
  Db.commit_write rfl rfl hr rfl (db.fits.of_sub withoutDecisions_sub)
    (db.valid.of_sub withoutDecisions_sub
      ⟨(withoutDecisions_left db.valid).cascading, withoutDecisions_restricting db.valid hr⟩)

theorem Db.commit_deleteWorkspace (hr : db.restrictsDecisions (db.decisionsOf id) = false) :
    ∃ db', db.commit [.deleteWorkspace id] = .ok db' ∧ db'.toTables = db.withoutWorkspace id :=
  Db.commit_write rfl rfl hr rfl (db.fits.of_sub withoutWorkspace_sub)
    (db.valid.of_sub withoutWorkspace_sub
      ⟨(withoutWorkspace_left db.valid).cascading, withoutWorkspace_restricting db.valid hr⟩)

end

end ForkRoom
