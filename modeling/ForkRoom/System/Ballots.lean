/-
# `System.Ballots` — what the ballots make a difference to

`Db.withoutBallots` is the committed state with every ballot taken out.

    part of a request                looks at the ballots
    its reads                        in get_result only, to count them
    a commit                         if it inserts one
    the answer to a commit           if a ballot was inserted

A ballot refers to a voter and a proposal of its session's snapshots
(`Tables.Backed`), so a RESTRICT or a foreign key that a ballot would break is
broken by the snapshot already.  Two states that differ in their ballots only
and agree on the counts of the closed sessions (`Db.Alike`) are therefore the
same to every request that casts no ballot (`Op.exec_alike`).
-/
import ForkRoom.System.Footprint
import ForkRoom.System.Steps

namespace ForkRoom

open Optimistic Rows

/-! ## The database without its ballots -/

def Tables.withVotes (t : Tables) (votes : List Vote) : Tables := { t with votes := votes }

section
variable {t : Tables} {vs : List Vote}

/-- No other constraint looks at the ballots. -/
theorem Constraints.withVotes (h : Constraints t) (hv : VoteConstraints (t.withVotes vs)) :
    Constraints (t.withVotes vs) := by
  obtain ⟨hw, hd, ho, hs, -, hl, hb⟩ := h
  refine ⟨?_, ?_, ?_, ?_, hv, ?_, ?_⟩
  · cases hw
    constructor <;> assumption
  · cases hd
    constructor <;> assumption
  · cases ho
    constructor <;> assumption
  · cases hs
    constructor <;> assumption
  · cases hl
    constructor <;> assumption
  · cases hb
    constructor <;> assumption

end

theorem VoteConstraints.none {t : Tables} (h : t.votes = []) : VoteConstraints t := by
  constructor
  · rw [PrimaryKey, Unique, h]
    exact List.nodup_nil
  all_goals
    intro v hv
    rw [h] at hv
    cases hv

theorem Fits.withVotes {t : Tables} (h : Fits t) (vs : List Vote) : Fits (t.withVotes vs) :=
  { h with }

theorem Fits.withVotes_iff {t : Tables} {vs : List Vote} : Fits (t.withVotes vs) ↔ Fits t :=
  ⟨fun h => { h with }, fun h => h.withVotes vs⟩

/-- The committed state with every ballot taken out. -/
def Db.withoutBallots (db : Db) : Db where
  toTables := db.toTables.withVotes []
  fits := db.fits.withVotes _
  valid := db.valid.withVotes (VoteConstraints.none rfl)


/-! ## Commits -/

/-- A ballot comes from both snapshots of its session. -/
def Tables.Backed (t : Tables) : Prop :=
  ∀ v ∈ t.votes, ⟨v.votingSessionId, v.voterId⟩ ∈ t.votingEligibleVoters ∧
    ⟨v.votingSessionId, v.proposalId⟩ ∈ t.votingSessionProposals

/-- A write that neither adds a ballot nor takes any along. -/
def Write.Quiet (w : Write) : Prop := w.target ≠ .votes ∧ w.cascades = false

theorem Write.stale_withVotes (w : Write) (t : Tables) (vs : List Vote) :
    w.stale (t.withVotes vs) = w.stale t := by
  cases w <;> rfl

theorem Write.dangling_withVotes (w : Write) (t : Tables) (vs : List Vote) :
    w.dangling (t.withVotes vs) = w.dangling t := by
  cases w <;> rfl

theorem Write.Quiet.run_withVotes {w : Write} (h : w.Quiet) (t : Tables) (vs : List Vote) :
    w.run (t.withVotes vs) = (w.run t).withVotes vs := by
  obtain ⟨hv, hc⟩ := h
  cases w <;> first | rfl | exact absurd rfl hv | nomatch hc

theorem Write.Quiet.run_votes {w : Write} (h : w.Quiet) (t : Tables) :
    (w.run t).votes = t.votes := by
  obtain ⟨hv, hc⟩ := h
  cases w <;> first | rfl | exact absurd rfl hv | nomatch hc

theorem Write.Quiet.run_backed {w : Write} (h : w.Quiet) {t : Tables} (hb : t.Backed) :
    (w.run t).Backed := by
  intro v hv
  rw [h.run_votes] at hv
  obtain ⟨hvoter, hoffer⟩ := hb v hv
  obtain ⟨-, hc⟩ := h
  cases w <;> first
    | exact ⟨hvoter, hoffer⟩
    | exact ⟨List.mem_append_left _ hvoter, hoffer⟩
    | exact ⟨hvoter, List.mem_append_left _ hoffer⟩
    | nomatch hc

theorem Tables.write_votes {ws : List Write} (hws : ∀ w ∈ ws, w.Quiet) (t : Tables) :
    (t.write ws).votes = t.votes :=
  Tables.write_keeps Tables.votes (fun _ t hw => hw.run_votes t) t hws

theorem Tables.write_withVotes {ws : List Write} (hws : ∀ w ∈ ws, w.Quiet) (t : Tables)
    (vs : List Vote) : (t.withVotes vs).write ws = (t.write ws).withVotes vs := by
  induction ws generalizing t with
  | nil => rfl
  | cons w ws ih =>
      show (w.run (t.withVotes vs)).write ws = ((w.run t).write ws).withVotes vs
      rw [(hws w List.mem_cons_self).run_withVotes]
      exact ih (fun x hx => hws x (List.mem_cons_of_mem _ hx)) _

theorem Tables.dangling_withVotes {ws : List Write} (hws : ∀ w ∈ ws, w.Quiet) (t : Tables)
    (vs : List Vote) : (t.withVotes vs).dangling ws = t.dangling ws := by
  induction ws generalizing t with
  | nil => rfl
  | cons w ws ih =>
      rw [Tables.dangling, Tables.dangling, w.dangling_withVotes,
        (hws w List.mem_cons_self).run_withVotes,
        ih (fun x hx => hws x (List.mem_cons_of_mem _ hx)), decide_eq_decide.mpr Fits.withVotes_iff]

theorem Tables.Backed.write {ws : List Write} {t : Tables} (h : t.Backed)
    (hws : ∀ w ∈ ws, w.Quiet) : (t.write ws).Backed := by
  induction ws generalizing t with
  | nil => exact h
  | cons w ws ih =>
      have hrun : (w.run t).Backed := (hws w List.mem_cons_self).run_backed h
      exact ih hrun fun x hx => hws x (List.mem_cons_of_mem _ hx)

/-- What the snapshots refer to, the ballots refer to. -/
theorem Tables.Backed.constraints {t : Tables} (h : t.Backed)
    (hs : VotingConstraints (t.withVotes [])) (hk : PrimaryKey t.votes) : VoteConstraints t where
  uqVotesSessionVoter := hk
  fkVotesSession v hv := hs.fkVotingEligibleVotersSession _ (h v hv).1
  fkVotesVoter v hv := hs.fkVotingEligibleVotersUser _ (h v hv).1
  fkVotesProposal v hv := hs.fkVotingSessionProposalsProposal _ (h v hv).2

/-- A ballot stops no deletion that the snapshot of its session does not stop. -/
theorem Tables.Backed.restricted {t : Tables} (h : t.Backed) {w : Write} (hw : w.Quiet) :
    w.restricted (t.withVotes []) = w.restricted t := by
  obtain ⟨-, hc⟩ := hw
  cases w <;> first | rfl | cases hc
  case deleteProposal id =>
  have hvotes : t.votes.any (fun v => decide (v.proposalId = id)) = true →
      t.votingSessionProposals.any (fun p => decide (p.proposalId = id)) = true := by
    intro hany
    obtain ⟨v, hv, hid⟩ := List.any_eq_true.mp hany
    exact List.any_eq_true.mpr ⟨_, (h v hv).2, hid⟩
  simp only [Write.restricted, Tables.restrictsProposals, Tables.withVotes, List.any_nil,
    Bool.or_false]
  cases hp : t.votingSessionProposals.any fun p => decide (p.proposalId = id) with
  | true => rfl
  | false =>
      cases hv : t.votes.any fun v => decide (v.proposalId = id) with
      | true => exact absurd (hvotes hv) (by rw [hp]; exact Bool.false_ne_true)
      | false => rfl

/-- **The ballots make no difference to a commit that does not touch them**, nor
the commit to them. -/
theorem Db.commit_withoutBallots {ws : List Write} {db : Db} (hb : db.Backed)
    (hws : ∀ w ∈ ws, w.Quiet) :
    db.withoutBallots.commit ws = (db.commit ws).map Db.withoutBallots ∧
      ∀ db', db.commit ws = .ok db' → db'.votes = db.votes := by
  have hwrite : db.withoutBallots.toTables.write ws = (db.toTables.write ws).withVotes [] :=
    Tables.write_withVotes hws _ _
  have hstale : ws.any (Write.stale db.withoutBallots.toTables) =
      ws.any (Write.stale db.toTables) :=
    congrArg ws.any (funext fun w => w.stale_withVotes _ _)
  have hrestricted : ws.any (Write.restricted db.withoutBallots.toTables) =
      ws.any (Write.restricted db.toTables) := by
    rw [Bool.eq_iff_iff, List.any_eq_true, List.any_eq_true]
    exact exists_congr fun w => and_congr_right fun hw => by
      rw [← hb.restricted (hws w hw)]
      rfl
  have hdangling : db.withoutBallots.toTables.dangling ws = db.toTables.dangling ws :=
    Tables.dangling_withVotes hws _ _
  have hfits : Fits (db.withoutBallots.toTables.write ws) ↔ Fits (db.toTables.write ws) := by
    rw [hwrite]
    exact Fits.withVotes_iff
  have hvalid : Constraints (db.withoutBallots.toTables.write ws) ↔
      Constraints (db.toTables.write ws) := by
    rw [hwrite]
    constructor
    · intro h
      have hk : PrimaryKey (db.toTables.write ws).votes := by
        rw [Tables.write_votes hws]
        exact db.valid.uqVotesSessionVoter
      have hv : VoteConstraints (((db.toTables.write ws).withVotes []).withVotes
          (db.toTables.write ws).votes) := (hb.write hws).constraints h.toVotingConstraints hk
      exact h.withVotes hv
    · exact fun h => h.withVotes (VoteConstraints.none rfl)
  simp only [Db.commit, hstale, hrestricted, hdangling]
  split
  · refine ⟨rfl, fun _ h => ?_⟩
    cases h
  split
  · refine ⟨rfl, fun _ h => ?_⟩
    cases h
  split
  · refine ⟨rfl, fun _ h => ?_⟩
    cases h
  by_cases hf : Fits (db.toTables.write ws)
  · by_cases hv : Constraints (db.toTables.write ws)
    · rw [dif_pos hf, dif_pos hv, dif_pos (hfits.mpr hf), dif_pos (hvalid.mpr hv)]
      refine ⟨congrArg Except.ok (Db.ext hwrite), ?_⟩
      intro db' h
      cases h
      exact Tables.write_votes hws _
    · rw [dif_pos hf, dif_neg hv, dif_pos (hfits.mpr hf), dif_neg (hv ∘ hvalid.mp)]
      refine ⟨rfl, fun _ h => ?_⟩
      cases h
  · rw [dif_neg hf, dif_neg (hf ∘ hfits.mp)]
    refine ⟨rfl, fun _ h => ?_⟩
    cases h

/-! ## Requests -/

/-- Who calls the proposal, objection, voting and lock services. -/
def Op.caller : Op → Option User
  | createProposal _ user .. | listProposals _ user .. | getProposal user ..
  | updateProposal _ user .. | transitionProposal _ user .. | deleteProposal user ..
  | createCriterion _ user .. | listCriteria user .. | updateCriterion user ..
  | reorderCriteria user .. | deleteCriterion user .. | upsertScore _ user ..
  | compareProposals _ user .. => some user
  | createObjection _ user .. | listObjections _ user .. | getObjection user ..
  | updateObjection _ user .. | transitionObjection _ user ..
  | listObjectionHistory _ user .. => some user
  | createSession _ user .. | listSessions _ user .. | getSession user .. | openSession _ user ..
  | castVote _ user .. | closeSession _ user .. | cancelSession _ user .. | getResult user .. =>
      some user
  | createLock _ user .. | getLock user .. | verifyLock user .. => some user
  | _ => none

/-- The operations that count ballots. -/
def Op.counts : Op → Bool
  | getResult .. | createLock .. => true
  | _ => false

section
variable {dep : Deployment} {op : Op} {user : User}

/-- A request that counts no ballots cannot tell whether there are any. -/
theorem Op.run_withoutBallots (hop : op.caller = some user) (hcounts : op.counts = false)
    (db : Db) : (op.program dep).run db.withoutBallots = (op.program dep).run db := by
  cases op <;> cases hop <;> cases hcounts
  all_goals
    simp only [Op.program, Request.run_map, ProposalService.create, ProposalService.listProposals,
      ProposalService.get, ProposalService.update, ProposalService.transition,
      ProposalService.delete, ProposalService.createCriterion, ProposalService.listCriteria,
      ProposalService.updateCriterion, ProposalService.reorderCriteria,
      ProposalService.deleteCriterion, ProposalService.upsertScore, ProposalService.compare,
      ProposalService.requireProposal, ProposalService.requireCriterion,
      ProposalService.requireMutableDecision, ObjectionService.create,
      ObjectionService.listObjections, ObjectionService.get, ObjectionService.update,
      ObjectionService.transition, ObjectionService.listHistory, ObjectionService.context,
      ObjectionService.requireObjection, ObjectionService.requireMutableDecision,
      VotingService.createSession, VotingService.listSessions, VotingService.getSession,
      VotingService.openSession, VotingService.castVote, VotingService.closeSession,
      VotingService.cancelSession, VotingService.requireSession,
      VotingService.requireActiveDecision, DecisionLockService.get, DecisionLockService.verify,
      DecisionLockService.readLock, decisionContext, workspaceContext, Reads.run_bind,
      Reads.run_query, Reads.run_require, Reads.run_orThrow, Reads.run_pure]
    rfl

/-- The answer given after a commit does not depend on the ballots. -/
def AnswersBlind {α : Type} : Outcome α → Prop
  | .reply _ => True
  | .commit _ ok _ => ∀ db : Db, ok db.withoutBallots = ok db

/-- Only a ballot is answered with a row of the ballots. -/
theorem Op.answersBlind (hop : op.caller = some user) (hf : .votes ∉ op.footprint) :
    (op.program dep).Yields AnswersBlind := by
  cases op <;> cases hop <;> first | exact absurd List.mem_cons_self hf | skip
  all_goals
    refine Request.yields_map ?_
    repeat refine Reads.Yields.bind fun _ => ?_
    refine Reads.yields_pure ?_
    first
      | exact trivial
      | exact fun _ => rfl

/-- What such a request ends with performs alike with and without the ballots. -/
theorem Op.perform_withoutBallots (hop : op.caller = some user) (hf : .votes ∉ op.footprint)
    {db : Db} (hb : db.Backed) {ss : List Db} {i : Outcome Response}
    (hends : (op.program dep).Ends ss (.ok i)) :
    i.perform Db.commit db.withoutBallots =
        ((i.perform Db.commit db).1, (i.perform Db.commit db).2.withoutBallots) ∧
      (i.perform Db.commit db).2.votes = db.votes := by
  have hblind : AnswersBlind i := Op.answersBlind hop hf ss i hends
  cases i with
  | reply a => exact ⟨rfl, rfl⟩
  | commit ws ok rejected =>
      have hcascades : op.cascades = false := by cases op <;> cases hop <;> rfl
      have hquiet : ∀ w ∈ ws, w.Quiet := fun w hw =>
        ⟨fun ht => hf (ht ▸ Op.commits_footprint hends w hw),
          Op.commits_cascades hcascades hends w hw⟩
      obtain ⟨hcommit, hvotes⟩ := Db.commit_withoutBallots hb hquiet
      simp only [Intent.perform, hcommit]
      cases hc : db.commit ws with
      | error d => exact ⟨rfl, rfl⟩
      | ok db' =>
          refine ⟨?_, hvotes db' hc⟩
          simp only [Except.map]
          rw [hblind db']


/-! ## States with the same results -/

/-- The states differ in their ballots only, and the closed sessions have the
same numbers of them. -/
structure Db.Alike (db db' : Db) : Prop where
  apart : db.withoutBallots = db'.withoutBallots
  counts : ∀ s ∈ db.votingSessions, s.status = .closed →
    VotingRepository.countVotes s.id db = VotingRepository.countVotes s.id db' ∧
      VotingRepository.listTallies s.id db = VotingRepository.listTallies s.id db'

theorem Db.Alike.refl (db : Db) : db.Alike db where
  apart := rfl
  counts _ _ _ := ⟨rfl, rfl⟩

variable {db db' : Db} {env : Env} {w d s : UUID}

/-- A program that cannot tell whether there are ballots. -/
def BallotBlind {α : Type} (p : Query α) : Prop := ∀ db : Db, p.run db.withoutBallots = p.run db

theorem Db.Alike.run_eq (h : db.Alike db') {α : Type} {p : Query α} (hp : BallotBlind p) :
    p.run db = p.run db' := by
  rw [← hp db, h.apart, hp db']

theorem require_blind {p : Prop} [Decidable p] {e : ServiceError} : BallotBlind (require p e) := by
  intro db
  rw [Reads.run_require, Reads.run_require]

theorem orThrow_blind {α : Type} {o : Option α} {e : ServiceError} :
    BallotBlind (orThrow o e) := by
  intro db
  rw [Reads.run_orThrow, Reads.run_orThrow]

theorem decisionContext_blind {u : UUID} : BallotBlind (decisionContext u w d) := by
  intro db
  simp only [decisionContext, workspaceContext, Reads.run_bind, Reads.run_query,
    Reads.run_orThrow, Reads.run_pure]
  rfl

theorem VotingService.requireSession_blind : BallotBlind (VotingService.requireSession d s) := by
  intro db
  simp only [VotingService.requireSession, Reads.run_bind, Reads.run_query, Reads.run_orThrow]
  rfl

theorem DecisionLockService.alternatives_blind {decision : Decision} {winning : Proposal} :
    ∀ tallies, BallotBlind (DecisionLockService.alternatives env decision winning tallies)
  | [] => fun _ => rfl
  | tally :: tallies => by
      have ih : BallotBlind (alternatives env decision winning tallies) :=
        alternatives_blind tallies
      intro db
      unfold DecisionLockService.alternatives
      split
      · exact ih db
      · simp only [Reads.run_bind, Reads.run_query, Reads.run_orThrow, Reads.run_pure, ih db]
        rfl

theorem DecisionLockService.buildSnapshot_blind {decision : Decision} {winning : Proposal}
    {result : VotingResultResponse} :
    BallotBlind (DecisionLockService.buildSnapshot env decision winning result) := by
  intro db
  simp only [DecisionLockService.buildSnapshot, Reads.run_bind, Reads.run_query, Reads.run_pure,
    alternatives_blind result.tallies db]
  rfl

/-- What is counted is counted in a closed session. -/
theorem VotingService.readResult_alike (h : db.Alike db') :
    (VotingService.readResult user w d s).run db =
      (VotingService.readResult user w d s).run db' := by
  refine Reads.run_bind_congr (h.run_eq decisionContext_blind) fun _ _ => ?_
  refine Reads.run_bind_congr (h.run_eq requireSession_blind) fun session hs => ?_
  refine Reads.run_bind_congr (h.run_eq require_blind) fun _ hclosed => ?_
  have hmem : session ∈ db.votingSessions := by
    simp only [VotingService.requireSession, Reads.run_bind, Reads.run_query, Reads.run_orThrow,
      Except.bind] at hs
    cases hg : VotingRepository.getForDecision d s db with
    | none => simp [hg] at hs
    | some x =>
        simp only [hg, Option.elim_some, Except.ok.injEq] at hs
        exact hs ▸ (VotingRepository.getForDecision_some hg).1
  have hstatus : session.status = .closed := by
    by_contra hne
    simp [hne] at hclosed
  obtain ⟨hcount, htallies⟩ := h.counts session hmem hstatus
  simp only [Reads.run_bind, Reads.run_query, Reads.run_pure, hcount, htallies]

theorem DecisionLockService.create_alike (h : db.Alike db') {payload : DecisionLockCreateRequest} :
    (DecisionLockService.create dep env user w d payload).run db =
      (DecisionLockService.create dep env user w d payload).run db' := by
  refine Reads.run_bind_congr (h.run_eq decisionContext_blind) fun c _ => ?_
  refine Reads.run_bind_congr (h.run_eq require_blind) fun _ _ => ?_
  refine Reads.run_bind_congr (h.run_eq require_blind) fun _ _ => ?_
  refine Reads.run_bind_congr (h.run_eq fun _ => rfl) fun existing _ => ?_
  refine Reads.run_bind_congr (h.run_eq require_blind) fun _ _ => ?_
  refine Reads.run_bind_congr (h.run_eq fun _ => rfl) fun blocked _ => ?_
  refine Reads.run_bind_congr (h.run_eq require_blind) fun _ _ => ?_
  refine Reads.run_bind_congr (VotingService.readResult_alike h) fun result _ => ?_
  refine Reads.run_bind_congr (h.run_eq require_blind) fun _ _ => ?_
  refine Reads.run_bind_congr (h.run_eq orThrow_blind) fun winner _ => ?_
  refine Reads.run_bind_congr (h.run_eq fun _ => rfl) fun found _ => ?_
  refine Reads.run_bind_congr (h.run_eq orThrow_blind) fun winning _ => ?_
  refine Reads.run_bind_congr (h.run_eq require_blind) fun _ _ => ?_
  exact Reads.run_bind_congr (h.run_eq buildSnapshot_blind) fun _ _ => rfl

/-- **The services see of the ballots the numbers of closed sessions only.** -/
theorem Op.run_alike (h : db.Alike db') (hop : op.caller = some user) :
    (op.program dep).run db = (op.program dep).run db' := by
  cases hcounts : op.counts with
  | false => exact h.run_eq (Op.run_withoutBallots hop hcounts)
  | true =>
      cases op <;> simp only [counts, reduceCtorEq] at hcounts
      case getResult =>
        refine (Request.run_map _ _ _).trans (Eq.trans ?_ (Request.run_map _ _ _).symm)
        exact congrArg _ (Reads.run_bind_congr (VotingService.readResult_alike h) fun _ _ => rfl)
      case createLock =>
        refine (Request.run_map _ _ _).trans (Eq.trans ?_ (Request.run_map _ _ _).symm)
        exact congrArg _ (DecisionLockService.create_alike h)

/-- A request that casts no ballot is answered alike, and leaves the ballots. -/
theorem Op.exec_alike (dep : Deployment) (h : db.Alike db') (hb : db.Backed) (hb' : db'.Backed)
    (hop : op.caller = some user) (hf : .votes ∉ op.footprint) :
    (op.exec dep db).1 = (op.exec dep db').1 ∧
      (op.exec dep db).2.withoutBallots = (op.exec dep db').2.withoutBallots ∧
      (op.exec dep db).2.votes = db.votes ∧ (op.exec dep db').2.votes = db'.votes := by
  have hrun : (op.program dep).run db = (op.program dep).run db' := Op.run_alike h hop
  obtain ⟨n, hends⟩ := (op.program dep).ends_run db
  unfold Op.exec Request.exec
  rw [← hrun]
  cases hr : (op.program dep).run db with
  | error e => exact ⟨rfl, h.apart, rfl, rfl⟩
  | ok i =>
      rw [hr] at hends
      obtain ⟨hp, hv⟩ := Op.perform_withoutBallots hop hf hb hends
      obtain ⟨hp', hv'⟩ := Op.perform_withoutBallots hop hf hb' hends
      rw [h.apart, hp', Prod.mk.injEq] at hp
      exact ⟨hp.1.symm, hp.2.symm, hv, hv'⟩

end
/-! ## Casting a ballot -/

section
variable {t : Tables} {row : Vote}

/-- The constraints of a new ballot, on top of those of the ballots there are. -/
theorem VoteConstraints.append_iff (h : VoteConstraints t) :
    VoteConstraints (t.withVotes (t.votes ++ [row])) ↔
      (∀ v ∈ t.votes, Keyed.key v ≠ Keyed.key row) ∧
        (∃ x ∈ t.votingSessions, x.id = row.votingSessionId) ∧
        (∃ x ∈ t.users, x.id = row.voterId) ∧
        ∃ x ∈ t.proposals, x.id = row.proposalId := by
  have hrow : row ∈ t.votes ++ [row] := List.mem_append_right _ List.mem_cons_self
  constructor
  · intro hv
    exact ⟨hv.uqVotesSessionVoter.ne_of_append, hv.fkVotesSession row hrow,
      hv.fkVotesVoter row hrow, hv.fkVotesProposal row hrow⟩
  · rintro ⟨hfresh, hsession, hvoter, hproposal⟩
    refine ⟨?_, ?_, ?_, ?_⟩
    · show ((t.votes ++ [row]).map Keyed.key).Nodup
      rw [List.map_append, List.map_singleton]
      refine List.Nodup.append h.uqVotesSessionVoter (List.nodup_singleton _) ?_
      intro k hk hk'
      obtain ⟨v, hv, rfl⟩ := List.mem_map.mp hk
      exact hfresh v hv (List.mem_singleton.mp hk')
    all_goals
      intro v hv
      rcases List.mem_append.mp hv with hv | hv
    · exact h.fkVotesSession v hv
    · exact List.mem_singleton.mp hv ▸ hsession
    · exact h.fkVotesVoter v hv
    · exact List.mem_singleton.mp hv ▸ hvoter
    · exact h.fkVotesProposal v hv
    · exact List.mem_singleton.mp hv ▸ hproposal

end

/-- The state with one ballot more. -/
def Db.withBallot (db : Db) (row : Vote)
    (h : VoteConstraints (db.toTables.withVotes (db.votes ++ [row]))) : Db where
  toTables := db.toTables.withVotes (db.votes ++ [row])
  fits := db.fits.withVotes _
  valid := db.valid.withVotes h

theorem Db.refresh_ballot (db : Db) (row : Vote)
    (h : VoteConstraints (db.toTables.withVotes (db.votes ++ [row]))) :
    refresh (fun db => db.votes) (Keyed.key row) (db.withBallot row h) = .ok row :=
  refresh_of_mem (fun db : Db => db.votes) (db.withBallot row h).valid.uqVotesSessionVoter
    (List.mem_append_right db.votes List.mem_cons_self)

/-- A ballot is rejected by the constraints of ballots only. -/
theorem Db.commit_addVote (db : Db) (row : Vote) :
    db.commit [.addVote row] =
      if h : VoteConstraints (db.toTables.withVotes (db.votes ++ [row])) then
        .ok (db.withBallot row h)
      else .error .integrity := by
  have hfits : Fits (db.toTables.write [.addVote row]) := db.fits.withVotes _
  have hstale : [Write.addVote row].any (Write.stale db.toTables) = false := rfl
  have hrestricted : [Write.addVote row].any (Write.restricted db.toTables) = false := rfl
  simp only [Db.commit, hstale, hrestricted, Bool.false_eq_true, if_false]
  rw [dif_pos hfits]
  by_cases h : VoteConstraints (db.toTables.withVotes (db.votes ++ [row]))
  · have hvalid : Constraints (db.toTables.write [.addVote row]) := db.valid.withVotes h
    have hlast : row ∈ db.votes ++ [row] := List.mem_append_right _ List.mem_cons_self
    have hsession : absent row.votingSessionId db.votingSessions = false :=
      absent_of_mem (h.fkVotesSession row hlast)
    have hvoter : absent row.voterId db.users = false := absent_of_mem (h.fkVotesVoter row hlast)
    have hproposal : absent row.proposalId db.proposals = false :=
      absent_of_mem (h.fkVotesProposal row hlast)
    have hdangling : db.toTables.dangling [.addVote row] = false := by
      rw [Tables.dangling, Write.dangling, hsession, hvoter, hproposal]
      rfl
    rw [hdangling, dif_pos h, dif_pos hvalid]
    rfl
  · have hvalid : ¬ Constraints (db.toTables.write [.addVote row]) :=
      fun hc => h hc.toVoteConstraints
    rw [dif_neg h, dif_neg hvalid, ite_self]

section
variable {db db' : Db}

/-- There is a ballot with the session and the voter `k`. -/
def Db.HasBallot (db : Db) (k : UUID × UUID) : Prop := ∃ v ∈ db.votes, Keyed.key v = k

/-- A table other than the ballots is the same in both states. -/
theorem Db.rows_eq (hapart : db.withoutBallots = db'.withoutBallots) {β : Type} (f : Tables → β)
    (hf : ∀ t, f (t.withVotes []) = f t) : f db.toTables = f db'.toTables := by
  have htables : db.toTables.withVotes [] = db'.toTables.withVotes [] :=
    congrArg Db.toTables hapart
  rw [← hf db.toTables, htables, hf db'.toTables]

/-- Whether a ballot fits depends on the other tables, and on whether its voter
has one in its session. -/
theorem Db.vote_iff {row : Vote} (hapart : db.withoutBallots = db'.withoutBallots)
    (hown : db.HasBallot (Keyed.key row) ↔ db'.HasBallot (Keyed.key row)) :
    VoteConstraints (db.toTables.withVotes (db.votes ++ [row])) ↔
      VoteConstraints (db'.toTables.withVotes (db'.votes ++ [row])) := by
  have hsessions : db.votingSessions = db'.votingSessions :=
    Db.rows_eq hapart Tables.votingSessions fun _ => rfl
  have husers : db.users = db'.users := Db.rows_eq hapart Tables.users fun _ => rfl
  have hproposals : db.proposals = db'.proposals :=
    Db.rows_eq hapart Tables.proposals fun _ => rfl
  have hfresh : (∀ v ∈ db.votes, Keyed.key v ≠ Keyed.key row) ↔
      ∀ v ∈ db'.votes, Keyed.key v ≠ Keyed.key row := by
    have hnot := not_congr hown
    simp only [HasBallot, not_exists, not_and] at hnot
    exact hnot
  rw [db.valid.toVoteConstraints.append_iff, db'.valid.toVoteConstraints.append_iff, hfresh,
    hsessions, husers, hproposals]

/-- What casting a ballot ends with. -/
theorem VotingService.castVote_yields {env : Env} {user : User} {w d s : UUID}
    {payload : VoteCastRequest} :
    (VotingService.castVote env user w d s payload).Yields fun i => ∃ row : Vote,
      row.voterId = user.id ∧ i = commitOrRaise [.addVote row] (fun db => db.votes)
        (Keyed.key row) .voteAlreadyCast := by
  repeat refine Reads.Yields.bind fun _ => ?_
  exact Reads.yields_pure ⟨_, rfl, rfl⟩

/-- **A ballot is answered alike** in states that agree on the ballots of its voter:
it is rejected in both, or it comes on top of the ballots of each. -/
theorem Op.castVote_alike (dep : Deployment) (env : Env) (user : User) (w d s : UUID)
    (payload : VoteCastRequest) (h : db.Alike db')
    (hown : ∀ v : Vote, v.voterId = user.id → (v ∈ db.votes ↔ v ∈ db'.votes)) :
    let op := Op.castVote env user w d s payload
    (op.exec dep db).1 = (op.exec dep db').1 ∧
      (((op.exec dep db).2 = db ∧ (op.exec dep db').2 = db') ∨
        ∃ row : Vote, (op.exec dep db).2.toTables = db.toTables.withVotes (db.votes ++ [row]) ∧
          (op.exec dep db').2.toTables = db'.toTables.withVotes (db'.votes ++ [row])) := by
  intro op
  have hrun : (op.program dep).run db = (op.program dep).run db' := Op.run_alike h rfl
  have hyields : (op.program dep).Yields fun i => ∃ row : Vote, row.voterId = user.id ∧
      i = (commitOrRaise [.addVote row] (fun db => db.votes) (Keyed.key row)
        .voteAlreadyCast : Outcome Vote).map Response.vote := by
    refine Request.yields_map fun ss i hends => ?_
    obtain ⟨row, hvoter, rfl⟩ := VotingService.castVote_yields ss i hends
    exact ⟨row, hvoter, rfl⟩
  obtain ⟨n, hends⟩ := (op.program dep).ends_run db
  unfold Op.exec Request.exec
  rw [← hrun]
  cases hr : (op.program dep).run db with
  | error e => exact ⟨rfl, Or.inl ⟨rfl, rfl⟩⟩
  | ok i =>
      obtain ⟨row, hvoter, rfl⟩ := hyields _ i (hr ▸ hends)
      have hballot : db.HasBallot (Keyed.key row) ↔ db'.HasBallot (Keyed.key row) := by
        constructor
        · rintro ⟨v, hv, hk⟩
          exact ⟨v, (hown v ((congrArg Prod.snd hk).trans hvoter)).mp hv, hk⟩
        · rintro ⟨v, hv, hk⟩
          exact ⟨v, (hown v ((congrArg Prod.snd hk).trans hvoter)).mpr hv, hk⟩
      have hiff := Db.vote_iff h.apart hballot
      simp only [commitOrRaise, Intent.map, Intent.perform, Db.commit_addVote]
      by_cases hv : VoteConstraints (db.toTables.withVotes (db.votes ++ [row]))
      · rw [dif_pos hv, dif_pos (hiff.mp hv)]
        refine ⟨?_, Or.inr ⟨row, rfl, rfl⟩⟩
        simp only [Db.refresh_ballot]
      · rw [dif_neg hv, dif_neg (hv ∘ hiff.mpr)]
        exact ⟨rfl, Or.inl ⟨rfl, rfl⟩⟩

end

end ForkRoom
