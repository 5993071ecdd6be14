/-
# `Proof.Secrecy` — what a member learns of the ballots of others

Two states that differ in ballots only, and what tells them apart.

    while a session is open      nothing: whoever has no part in a ballot sees
                                 the same with it and without it
    once it is closed            the totals, and not whose ballots they are

Both are statements on two runs.  The first is by induction on the calls: a
call that closes no session answers alike in states that agree on what the
caller may see, and leaves such states (`SecretFrom.step`).  The second needs
one call only.
-/
import ForkRoom.System.Ballots
import ForkRoom.Proof.Voting

namespace ForkRoom

open Optimistic Rows

section
variable {dep : Deployment} {db db' : Db} {u s : UUID}

/-! ## Counting ballots -/

theorem Db.nodup_votes (db : Db) : db.votes.Nodup :=
  List.Nodup.of_map _ db.valid.uqVotesSessionVoter

/-- A count is a matter of the ballots counted, in whatever order. -/
theorem Db.count_congr {p : Vote → Bool}
    (h : ∀ v, p v = true → (v ∈ db.votes ↔ v ∈ db'.votes)) :
    (db.votes.filter p).length = (db'.votes.filter p).length := by
  refine List.Perm.length_eq ?_
  refine (List.perm_ext_iff_of_nodup (db.nodup_votes.filter _) (db'.nodup_votes.filter _)).mpr ?_
  intro v
  rw [List.mem_filter, List.mem_filter]
  exact and_congr_left (h v)

theorem listTallies_congr (hrows : db.votingSessionProposals = db'.votingSessionProposals)
    (h : ∀ p ∈ db.votingSessionProposals, p.votingSessionId = s →
      ballots db.votes s p.proposalId = ballots db'.votes s p.proposalId) :
    VotingRepository.listTallies s db = VotingRepository.listTallies s db' := by
  rw [listTallies_eq, listTallies_eq, ← hrows]
  congr 1
  refine List.map_congr_left fun p hp => ?_
  obtain ⟨hp, hs⟩ := List.mem_filter.mp hp
  rw [h p hp (of_decide_eq_true hs)]

theorem Reachable.backed (h : Reachable dep db) : db.Backed := h.votingInv.ballots

/-! ## Open ballots -/

/-- The user may know of the ballot: it is the user's own, or in a closed session. -/
def Visible (u : UUID) (db : Db) (v : Vote) : Prop :=
  v.voterId = u ∨ ∃ s ∈ db.votingSessions, s.id = v.votingSessionId ∧ s.status = .closed

/-- The states differ only in ballots that others than `u` have cast in sessions
that are not closed. -/
structure SecretFrom (u : UUID) (db db' : Db) : Prop where
  apart : db.withoutBallots = db'.withoutBallots
  visible : ∀ v, Visible u db v → (v ∈ db.votes ↔ v ∈ db'.votes)

theorem SecretFrom.offers (h : SecretFrom u db db') :
    db.votingSessionProposals = db'.votingSessionProposals :=
  Db.rows_eq h.apart Tables.votingSessionProposals fun _ => rfl

/-- The ballots of a closed session are the same, and so are their numbers. -/
theorem SecretFrom.alike (h : SecretFrom u db db') : db.Alike db' where
  apart := h.apart
  counts s hs hclosed := by
    have hseen : ∀ v : Vote, v.votingSessionId = s.id → (v ∈ db.votes ↔ v ∈ db'.votes) :=
      fun v hv => h.visible v (Or.inr ⟨s, hs, hv.symm, hclosed⟩)
    constructor
    · exact Db.count_congr fun v hv => hseen v (of_decide_eq_true hv)
    · refine listTallies_congr h.offers fun p _ _ => Db.count_congr fun v hv => hseen v ?_
      simp only [Bool.and_eq_true, decide_eq_true_eq] at hv
      exact hv.1

/-- The operation closes no session. -/
def ClosesNone (dep : Deployment) (db : Db) (op : Op) : Prop :=
  ∀ s ∈ (op.exec dep db).2.votingSessions, s.status = .closed →
    ∃ s' ∈ db.votingSessions, s'.id = s.id ∧ s'.status = .closed

instance (dep : Deployment) (db : Db) (op : Op) : Decidable (ClosesNone dep db op) :=
  inferInstanceAs (Decidable (∀ s ∈ (op.exec dep db).2.votingSessions, s.status = .closed →
    ∃ s' ∈ db.votingSessions, s'.id = s.id ∧ s'.status = .closed))

/-- What can be seen after a step that closes no session could be seen before. -/
theorem ClosesNone.visible {op : Op} (h : ClosesNone dep db op) {v : Vote}
    (hv : Visible u (op.exec dep db).2 v) : Visible u db v := by
  rcases hv with hown | ⟨s, hs, hid, hclosed⟩
  · exact Or.inl hown
  · obtain ⟨s', hs', hid', hclosed'⟩ := h s hs hclosed
    exact Or.inr ⟨s', hs', hid'.trans hid, hclosed'⟩

/-- A state with other ballots has the same other tables. -/
theorem Db.withoutBallots_of_withVotes {votes : List Vote}
    (h : db'.toTables = db.toTables.withVotes votes) : db'.withoutBallots = db.withoutBallots := by
  refine Db.ext ?_
  show db'.toTables.withVotes [] = db.toTables.withVotes []
  rw [h]
  rfl

/-- The caller's own ballot. -/
theorem SecretFrom.castVote {env : Env} {user : User} {w d s : UUID} {payload : VoteCastRequest}
    (h : SecretFrom user.id db db') :
    let op := Op.castVote env user w d s payload
    (op.exec dep db).1 = (op.exec dep db').1 ∧
      SecretFrom user.id (op.exec dep db).2 (op.exec dep db').2 := by
  intro op
  obtain ⟨hanswer, hstates⟩ :=
    Op.castVote_alike dep env user w d s payload h.alike fun v hv => h.visible v (Or.inl hv)
  refine ⟨hanswer, ?_⟩
  rcases hstates with ⟨hn, hn'⟩ | ⟨row, hn, hn'⟩
  · rw [hn, hn']
    exact h
  · constructor
    · rw [Db.withoutBallots_of_withVotes hn, Db.withoutBallots_of_withVotes hn']
      exact h.apart
    · intro v hv
      rw [hn, hn']
      simp only [Tables.withVotes, List.mem_append]
      refine or_congr_left (h.visible v ?_)
      rcases hv with hown | hclosed
      · exact Or.inl hown
      · rw [hn] at hclosed
        exact Or.inr hclosed

/-- **One call** is answered alike, and leaves alike what the caller may see. -/
theorem SecretFrom.step {op : Op} (h : SecretFrom u db db') (hb : db.Backed) (hb' : db'.Backed)
    (hop : op.caller.map User.id = some u) (hclose : ClosesNone dep db op) :
    (op.exec dep db).1 = (op.exec dep db').1 ∧
      SecretFrom u (op.exec dep db).2 (op.exec dep db').2 := by
  obtain ⟨user, hcaller, rfl⟩ := Option.map_eq_some_iff.mp hop
  by_cases hf : .votes ∈ op.footprint
  · cases op <;> simp only [Op.footprint, List.mem_cons, List.not_mem_nil, reduceCtorEq,
      or_self] at hf
    case castVote =>
      cases hcaller
      exact h.castVote
  · obtain ⟨hanswer, hapart, hvotes, hvotes'⟩ :=
      Op.exec_alike dep h.alike hb hb' hcaller hf
    refine ⟨hanswer, hapart, ?_⟩
    intro v hv
    rw [hvotes, hvotes']
    exact h.visible v (hclose.visible hv)

/-! ### Calls one after the other -/

/-- What the operations answer, one after the other. -/
def answersOf (dep : Deployment) : List Op → Db → List (Except ServiceError Response)
  | [], _ => []
  | op :: ops, db => (op.exec dep db).1 :: answersOf dep ops (op.exec dep db).2

/-- **While no session is closed, nothing of the open ballots of others can be
learned**: in two reachable states that differ in such ballots only, every call
of the user is answered alike, and the states left differ in such ballots only. -/
theorem open_ballots_secret (hr : Reachable dep db) (hr' : Reachable dep db')
    (h : SecretFrom u db db') {ops : List Op}
    (hops : ∀ op ∈ ops, op.caller.map User.id = some u)
    (hclose : Allowed dep (ClosesNone dep) ops db) :
    answersOf dep ops db = answersOf dep ops db' ∧
      SecretFrom u (runAll dep ops db) (runAll dep ops db') := by
  induction ops generalizing db db' with
  | nil => exact ⟨rfl, h⟩
  | cons op ops ih =>
      obtain ⟨hanswer, hnext⟩ :=
        h.step hr.backed hr'.backed (hops op List.mem_cons_self) hclose.1
      obtain ⟨hrest, hlast⟩ := ih (hr.step op) (hr'.step op) hnext
        (fun x hx => hops x (List.mem_cons_of_mem _ hx)) hclose.2
      refine ⟨?_, hlast⟩
      show (op.exec dep db).1 :: _ = (op.exec dep db').1 :: _
      rw [hanswer, hrest]

/-- A ballot leaves everything else as it is. -/
theorem castVote_apart {env : Env} {user : User} {w d s : UUID} {payload : VoteCastRequest} :
    ((Op.castVote env user w d s payload).exec dep db).2.withoutBallots = db.withoutBallots := by
  obtain ⟨-, ⟨hsame, -⟩ | ⟨row, hrow, -⟩⟩ := Op.castVote_alike dep env user w d s payload
    (Db.Alike.refl db) fun _ _ => Iff.rfl
  · rw [hsame]
  · exact Db.withoutBallots_of_withVotes hrow

/-- Bob has voted, and Ada has not. -/
def Sample.bobVoted : Db :=
  ((Op.castVote (env 11 50) bob 10 20 40 ⟨30⟩).exec Sample.dep opened).2

theorem Sample.bobVoted_reachable : Reachable Sample.dep bobVoted := opened_reachable.step _

/-- Ada does not see whether Bob has voted: not when she votes, nor in the list of
sessions, nor by asking for the result, deleting a proposal or locking. -/
theorem open_ballots_secret_sample :
    Sample.bobVoted.votes ≠ Sample.opened.votes ∧
      let ops := [Sample.adaVotes, .listSessions (Sample.env 12 0) Sample.ada 10 20,
        .getResult Sample.ada 10 20 40, .deleteProposal Sample.ada 10 20 30, Sample.lock]
      answersOf Sample.dep ops Sample.opened = answersOf Sample.dep ops Sample.bobVoted ∧
        SecretFrom 1 (runAll Sample.dep ops Sample.opened)
          (runAll Sample.dep ops Sample.bobVoted) := by
  have hnone : ∀ v ∈ Sample.opened.votes, False := by decide +kernel
  have hbob : ∀ v ∈ Sample.bobVoted.votes, v.voterId ≠ 1 := by decide +kernel
  have hopen : ∀ s ∈ Sample.opened.votingSessions, s.status ≠ .closed := by decide +kernel
  have hsecret : SecretFrom 1 Sample.opened Sample.bobVoted := by
    refine ⟨castVote_apart.symm, ?_⟩
    rintro v (hown | ⟨s, hs, -, hclosed⟩)
    · exact ⟨fun hv => (hnone v hv).elim, fun hv => absurd hown (hbob v hv)⟩
    · exact absurd hclosed (hopen s hs)
  refine ⟨by decide +kernel, ?_⟩
  exact open_ballots_secret Sample.opened_reachable Sample.bobVoted_reachable hsecret
    (by decide) (by decide +kernel)

/-! ## Totals -/

/-- The states differ only in who has cast which ballot of the session `s`: each
of its proposals has the same number of them. -/
structure SameTotals (s : UUID) (db db' : Db) : Prop where
  apart : db.withoutBallots = db'.withoutBallots
  others : ∀ v : Vote, v.votingSessionId ≠ s → (v ∈ db.votes ↔ v ∈ db'.votes)
  totals : ∀ p ∈ db.votingSessionProposals, p.votingSessionId = s →
    ballots db.votes s p.proposalId = ballots db'.votes s p.proposalId

theorem SameTotals.offers (h : SameTotals s db db') :
    db.votingSessionProposals = db'.votingSessionProposals :=
  Db.rows_eq h.apart Tables.votingSessionProposals fun _ => rfl

/-- The ballots of a session are as many as its tallies add up to. -/
theorem Tables.Backed.countVotes_eq (h : db.toTables.Backed) (s : UUID) :
    VotingRepository.countVotes s db =
      ((VotingRepository.listTallies s db).map ProposalVoteTally.votes).sum := by
  refine (sum_listTallies fun v hv hs => ?_).symm
  have hoffer := (h v hv).2
  rw [hs] at hoffer
  exact isSessionProposal_iff.mpr hoffer

/-- The same totals, the same results. -/
theorem SameTotals.alike (h : SameTotals s db db') (hb : db.Backed) (hb' : db'.Backed) :
    db.Alike db' where
  apart := h.apart
  counts x _ _ := by
    have htallies : VotingRepository.listTallies x.id db =
        VotingRepository.listTallies x.id db' := by
      refine listTallies_congr h.offers fun p hp hx => ?_
      by_cases hs : x.id = s
      · rw [hs]
        exact h.totals p hp (hx.trans hs)
      · refine Db.count_congr fun v hv => h.others v ?_
        simp only [Bool.and_eq_true, decide_eq_true_eq] at hv
        exact fun he => hs (hv.1.symm.trans he)
    refine ⟨?_, htallies⟩
    rw [hb.countVotes_eq, hb'.countVotes_eq, htallies]

/-- **The record of a vote carries its totals, and nothing of who voted how**: in
two reachable states that differ in that only, the result is the same, and so
are the outcome of a lock and the lock row that is stored, with its snapshot and
its hash. -/
theorem record_anonymous (hr : Reachable dep db) (hr' : Reachable dep db')
    (h : SameTotals s db db') (env : Env) (user : User) (w d : UUID) :
    ((Op.getResult user w d s).exec dep db).1 = ((Op.getResult user w d s).exec dep db').1 ∧
      ((Op.createLock env user w d ⟨s⟩).exec dep db).1 =
        ((Op.createLock env user w d ⟨s⟩).exec dep db').1 ∧
      ((Op.createLock env user w d ⟨s⟩).exec dep db).2.decisionLocks =
        ((Op.createLock env user w d ⟨s⟩).exec dep db').2.decisionLocks := by
  have hb : db.Backed := hr.backed
  have hb' : db'.Backed := hr'.backed
  have hresult : ((Op.getResult user w d s).exec dep db).1 =
      ((Op.getResult user w d s).exec dep db').1 :=
    (Op.exec_alike dep (h.alike hb hb') hb hb' rfl List.not_mem_nil).1
  obtain ⟨hanswer, hapart, -⟩ : ((Op.createLock env user w d ⟨s⟩).exec dep db).1 = _ ∧ _ :=
    Op.exec_alike dep (h.alike hb hb') hb hb' rfl (by simp [Op.footprint])
  exact ⟨hresult, hanswer, Db.rows_eq hapart Tables.decisionLocks fun _ => rfl⟩

/-- The session is closed, and the one ballot is Bob's. -/
def Sample.bobClosed : Db := (closeVote.exec Sample.dep bobVoted).2

theorem Sample.bobClosed_reachable : Reachable Sample.dep bobClosed := bobVoted_reachable.step _

/-- Whether the one ballot for Postgres is Ada's or Bob's, the record is the same. -/
theorem record_anonymous_sample :
    Sample.closed.votes ≠ Sample.bobClosed.votes ∧
      (Sample.lock.exec Sample.dep Sample.closed).2.decisionLocks ≠ [] ∧
      ((Op.getResult Sample.ada 10 20 40).exec Sample.dep Sample.closed).1 =
        ((Op.getResult Sample.ada 10 20 40).exec Sample.dep Sample.bobClosed).1 ∧
      (Sample.lock.exec Sample.dep Sample.closed).1 =
        (Sample.lock.exec Sample.dep Sample.bobClosed).1 ∧
      (Sample.lock.exec Sample.dep Sample.closed).2.decisionLocks =
        (Sample.lock.exec Sample.dep Sample.bobClosed).2.decisionLocks := by
  have hvoted : Reachable Sample.dep Sample.voted := Sample.opened_reachable.step _
  have hvotes : Sample.voted.withoutBallots = Sample.bobVoted.withoutBallots :=
    castVote_apart.trans castVote_apart.symm
  have hopen : ∀ s ∈ Sample.voted.votingSessions, s.status ≠ .closed := by decide +kernel
  have halike : Sample.voted.Alike Sample.bobVoted :=
    ⟨hvotes, fun s hs hclosed => absurd hclosed (hopen s hs)⟩
  obtain ⟨-, hapart, -⟩ : (Sample.closeVote.exec Sample.dep Sample.voted).1 = _ ∧ _ :=
    Op.exec_alike Sample.dep halike hvoted.backed Sample.bobVoted_reachable.backed rfl (by decide)
  have hin : ∀ v ∈ Sample.closed.votes, v.votingSessionId = 40 := by decide +kernel
  have hin' : ∀ v ∈ Sample.bobClosed.votes, v.votingSessionId = 40 := by decide +kernel
  have htotals : SameTotals 40 Sample.closed Sample.bobClosed := by
    refine ⟨hapart, fun v hv => ?_, by decide +kernel⟩
    exact ⟨fun h => absurd (hin v h) hv, fun h => absurd (hin' v h) hv⟩
  have hlocked : (Sample.lock.exec Sample.dep Sample.closed).2.decisionLocks.isEmpty = false := by
    decide +kernel
  refine ⟨by decide +kernel, fun h => ?_, ?_⟩
  · exact absurd (List.isEmpty_iff.mpr h) (by rw [hlocked]; exact Bool.false_ne_true)
  · have h := record_anonymous Sample.closed_reachable Sample.bobClosed_reachable htotals
      (Sample.env 13 60) Sample.ada 10 20
    unfold Sample.lock
    exact h

end

end ForkRoom
