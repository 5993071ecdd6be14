/-
# `Proof.VotedText` — the text that is locked and the text that was voted on

Opening a session snapshots the identifiers of the proposals, not their texts.  A
submitted proposal is immutable, but a decision that is active lets its proposals
be reopened as drafts, also while they are being voted on; an edited and
resubmitted proposal is then locked with a text that no ballot was cast for
(`text_swapped`).  What holds is that the text is the same for a proposal that
has not been a draft in between (`locked_text`).
-/
import ForkRoom.Proof.Lock

namespace ForkRoom

open Optimistic Rows

/-- The same proposal with the same text. -/
structure Proposal.SameText (p p' : Proposal) : Prop where
  id : p'.id = p.id
  title : p'.title = p.title
  summary : p'.summary = p.summary
  content : p'.content = p.content

section
variable {dep : Deployment} {op : Op} {db db' : Db} {c : Core}

/-! ## What one operation does -/

/-- A proposal that is offered cannot be deleted with its decision, nor can the
session that offers it: the RESTRICT reference of the snapshot stops both. -/
theorem VotingInv.offer_kept (hinv : VotingInv db.core) {gone : UUID → Bool}
    (hr : db.restrictsDecisions gone = false) {o : VotingSessionProposal}
    (ho : o ∈ db.votingSessionProposals) :
    o ∈ (db.withoutDecisions gone).core.votingSessionProposals := by
  obtain ⟨s, hs, hsk⟩ := db.valid.fkVotingSessionProposalsSession o ho
  obtain ⟨p, hp, hpk⟩ := db.valid.fkVotingSessionProposalsProposal o ho
  have hd : p.decisionId = s.decisionId := hinv.offered o ho s hs hsk p hp hpk
  refine List.mem_filter.mpr ⟨ho, ?_⟩
  -- were the session deleted, the proposal would be, which the offer restricts
  rw [Bool.not_eq_true', Tables.sessionsOf, List.any_eq_false]
  intro x hx hgone
  simp only [Bool.and_eq_true, decide_eq_true_eq] at hgone
  have hxs : x = s := eq_of_key db.valid.pkVotingSessions hx hs (hgone.1.trans hsk.symm)
  have hpgone : db.proposalsOf gone o.proposalId = true := by
    refine List.any_eq_true.mpr ⟨p, hp, ?_⟩
    rw [hd, ← hxs, hgone.2, Bool.and_true]
    exact decide_eq_true hpk
  have hrestricted : db.restrictsProposals (db.proposalsOf gone) = true := by
    simp only [Tables.restrictsProposals, Bool.or_eq_true, List.any_eq_true]
    exact Or.inl (Or.inl ⟨o, ho, hpgone⟩)
  simp [Tables.restrictsDecisions, hrestricted] at hr

/-- No operation takes an offer back. -/
theorem CoreStep.offer_kept (hinv : VotingInv db.core) (hstep : CoreStep dep op db c)
    {o : VotingSessionProposal} (ho : o ∈ db.votingSessionProposals) :
    o ∈ c.votingSessionProposals := by
  cases hstep with
  | openSession => exact List.mem_append_left _ ho
  | deleteDecisions gone hr => exact hinv.offer_kept hr ho
  | _ => exact ho

/-- A proposal that is no draft keeps its text. -/
theorem CoreStep.text_kept (hstep : CoreStep dep op db db'.core) {p p' : Proposal}
    (hp : p ∈ db.proposals) (hdraft : p.status ≠ .draft) (hp' : p' ∈ db'.proposals)
    (hid : p'.id = p.id) : p.SameText p' := by
  have hpk : PrimaryKey db'.core.proposals := db'.valid.pkProposals
  have hmem : p' ∈ db'.core.proposals := hp'
  generalize db'.core = c at hstep hpk hmem
  have hsame : ∀ {x : Proposal}, x ∈ db.proposals → x.id = p.id → p.SameText x := by
    intro x hx hk
    rw [eq_of_key db.valid.pkProposals hx hp hk]
    exact ⟨rfl, rfl, rfl, rfl⟩
  cases hstep with
  | addProposal d row =>
      rcases List.mem_append.mp hmem with hmem | hmem
      · exact hsame hmem hid
      · rw [List.mem_singleton.mp hmem] at hid
        exact absurd hid.symm (Unique.ne_of_append hpk p hp)
  | editProposal d q q' hd hq hqd hm hqid hqd' hs =>
      rcases (mem_replace hq).mp hmem with rfl | ⟨hmem, -⟩
      · have hqp : q = p := eq_of_key db.valid.pkProposals hq hp (hqid.symm.trans hid)
        exact absurd (hqp ▸ hs) hdraft
      · exact hsame hmem hid
  | moveProposal d q q' hd hq hqd hm hqid hqd' htext =>
      rcases (mem_replace hq).mp hmem with rfl | ⟨hmem, -⟩
      · have hqp : q = p := eq_of_key db.valid.pkProposals hq hp (hqid.symm.trans hid)
        subst hqp
        exact ⟨hid, htext.1, htext.2.1, htext.2.2⟩
      · exact hsame hmem hid
  | deleteProposal d q => exact hsame (List.mem_filter.mp hmem).1 hid
  | deleteDecisions gone => exact hsame (List.mem_filter.mp hmem).1 hid
  | _ => exact hsame hmem hid

/-! ## Runs -/

/-- The proposal `p` is no draft. -/
def NotDraft (p : UUID) (db : Db) (_ : Op) : Prop :=
  ∀ q ∈ db.proposals, q.id = p → q.status ≠ .draft

/-- An offered proposal that is no draft along a run keeps its text. -/
theorem AtomicRun.text_kept {db₀ db₁ : Db} {s : UUID} {p : Proposal} (h : Reachable dep db₀)
    (hp : p ∈ db₀.proposals) (hoffer : VotingRepository.isSessionProposal s p.id db₀)
    (hrun : AtomicRun dep (NotDraft p.id) db₀ db₁) :
    VotingRepository.isSessionProposal s p.id db₁ ∧
      ∀ q ∈ db₁.proposals, q.id = p.id → p.SameText q := by
  induction hrun with
  | refl =>
      refine ⟨hoffer, fun q hq hid => ?_⟩
      rw [eq_of_key db₀.valid.pkProposals hq hp hid]
      exact ⟨rfl, rfl, rfl, rfl⟩
  | @step db₂ op hrun hok ih =>
      obtain ⟨hoffer₂, htext⟩ := ih
      have hstep := Op.exec_step dep op db₂
      have hinv := (h.run hrun).votingInv
      have hrow := isSessionProposal_iff.mp hoffer₂
      refine ⟨isSessionProposal_iff.mpr (hstep.offer_kept hinv hrow), fun q hq hid => ?_⟩
      -- the proposal is still there, since it is offered
      obtain ⟨x, hx, hk⟩ := db₂.valid.fkVotingSessionProposalsProposal _ hrow
      have h₁ := htext x hx hk
      have h₂ := hstep.text_kept hx (hok x hx hk) hq (hid.trans hk.symm)
      exact ⟨hid, h₂.title.trans h₁.title, h₂.summary.trans h₁.summary,
        h₂.content.trans h₁.content⟩

/-! ## The texts in a snapshot -/

/-- The loop over the tallies records every proposal but the winner. -/
theorem alternatives_record {env : Env} {d : Decision} {w : Proposal}
    {t : ProposalVoteTallyResponse}
    (hne : t.proposalId ≠ w.id) :
    ∀ {tallies : List ProposalVoteTallyResponse} {as : List AlternativeProposal}, t ∈ tallies →
      (DecisionLockService.alternatives env d w tallies).run db = .ok as →
      ∃ q ∈ db.proposals, q.id = t.proposalId ∧
        ∃ a ∈ as, a.proposal = DecisionLockService.proposalSnapshot q
  | t' :: tallies, as, hmem, h => by
      rw [DecisionLockService.alternatives] at h
      by_cases hw : t'.proposalId = w.id
      · rw [if_pos hw] at h
        rcases List.mem_cons.mp hmem with rfl | hmem
        · exact absurd hw hne
        · exact alternatives_record hne hmem h
      · rw [if_neg hw] at h
        simp only [Reads.run_bind, Reads.run_query, Reads.run_orThrow, Reads.run_pure, Except.bind]
          at h
        cases hp : ProposalRepository.getForDecision d.id t'.proposalId db with
        | none =>
            rw [hp] at h
            cases h
        | some q =>
            simp only [hp, Option.elim] at h
            cases hrest : (DecisionLockService.alternatives env d w tallies).run db with
            | error e =>
                rw [hrest] at h
                cases h
            | ok rest =>
                rw [hrest] at h
                cases h
                rcases List.mem_cons.mp hmem with rfl | hmem
                · obtain ⟨hq, hid, -⟩ := ProposalRepository.getForDecision_some hp
                  exact ⟨q, hq, hid, _, List.mem_cons_self, rfl⟩
                · obtain ⟨q', hq', hid', a, ha, hsnap⟩ := alternatives_record hne hmem hrest
                  exact ⟨q', hq', hid', a, List.mem_cons_of_mem _ ha, hsnap⟩

/-- The snapshot records the proposal `q`, as the winner or as an alternative. -/
def Snapshot.Records (s : Snapshot) (q : Proposal) : Prop :=
  s.approvedProposal = DecisionLockService.proposalSnapshot q ∨
    ∃ a ∈ s.alternativeProposals, a.proposal = DecisionLockService.proposalSnapshot q

/-- What is being locked records every proposal of the session as it is. -/
theorem CanLock.records {env : Env} {d : Decision} {s : VotingSession} {r : VotingResultResponse}
    {w : Proposal} {snapshot : Snapshot} (h : CanLock env db d s r w snapshot) {p : UUID}
    (hp : VotingRepository.isSessionProposal s.id p db) :
    ∃ q ∈ db.proposals, q.id = p ∧ snapshot.Records q := by
  have hbuilt := h.built
  simp only [DecisionLockService.buildSnapshot, Reads.run_bind, Reads.run_query, Reads.run_pure,
    Except.bind] at hbuilt
  cases hrun : (DecisionLockService.alternatives env d w r.tallies).run db with
  | error e =>
      rw [hrun] at hbuilt
      cases hbuilt
  | ok as =>
      rw [hrun] at hbuilt
      cases hbuilt
      by_cases hw : p = w.id
      · exact ⟨w, h.winning_mem, hw.symm, Or.inl rfl⟩
      · obtain ⟨t, ht, htp⟩ : ∃ t ∈ r.tallies, t.proposalId = p := by
          rw [h.counted]
          exact ⟨_, List.mem_map_of_mem (mem_tallies_of_offered hp), rfl⟩
        obtain ⟨q, hq, hid, a, ha, hsnap⟩ := alternatives_record (htp ▸ hw) ht hrun
        exact ⟨q, hq, hid.trans htp, Or.inr ⟨a, ha, hsnap⟩⟩

/-- **What is locked is what was voted on**, for every proposal of the session that
has not been reopened as a draft since the opening. -/
theorem locked_text {db₀ db₁ : Db} (h : Reachable dep db₀) {env env' : Env} {user user' : User}
    {w d w' d' s : UUID} {p : Proposal}
    (hp : p ∈ ((Op.openSession env user w d s).exec dep db₀).2.proposals)
    (hoffer : VotingRepository.isSessionProposal s p.id
      ((Op.openSession env user w d s).exec dep db₀).2)
    (hrun : AtomicRun dep (NotDraft p.id) ((Op.openSession env user w d s).exec dep db₀).2 db₁)
    {l : DecisionLock}
    (hlock : ((Op.createLock env' user' w' d' ⟨s⟩).exec dep db₁).1 = .ok (.lock l)) :
    ∃ snapshot q, l.snapshot = Snapshot.toJson snapshot ∧ snapshot.Records q ∧ q.id = p.id ∧
      q.title = p.title ∧ q.summary = p.summary ∧ q.content = p.content := by
  obtain ⟨hoffer₁, htext⟩ := AtomicRun.text_kept (h.step _) hp hoffer hrun
  obtain ⟨dec, dec', session, result, winning, snapshot, hcan, -, hsid, -, -, rfl, -⟩ :=
    Op.createLock_ok hlock
  obtain ⟨q, hq, hid, hrec⟩ := hcan.records (by rw [hsid]; exact hoffer₁)
  obtain ⟨-, ht, hsum, hcont⟩ := htext q hq hid
  exact ⟨snapshot, q, rfl, hrec, hid, ht, hsum, hcont⟩

theorem Sample.notDraft_opened : ∀ q ∈ Sample.opened.proposals, q.id = 30 → q.status ≠ .draft := by
  decide +kernel

theorem Sample.notDraft_voted : ∀ q ∈ Sample.voted.proposals, q.id = 30 → q.status ≠ .draft := by
  decide +kernel

theorem locked_text_sample : ∃ l snapshot q, (Sample.lock.exec Sample.dep Sample.closed).1 =
    .ok (.lock l) ∧ l.snapshot = Snapshot.toJson snapshot ∧ snapshot.Records q ∧ q.id = 30 ∧
      q.content = some "rows" := by
  obtain ⟨p, hp, hid, hcontent⟩ : ∃ p ∈ Sample.opened.proposals, p.id = 30 ∧
      p.content = some "rows" := by decide +kernel
  have hoffer : VotingRepository.isSessionProposal 40 p.id Sample.opened := by
    rw [hid]
    decide +kernel
  obtain ⟨l, hl⟩ := Option.isSome_iff_exists.mp
    (show (lockOf (Sample.lock.exec Sample.dep Sample.closed).1).isSome by decide +kernel)
  have hvoted : AtomicRun Sample.dep (NotDraft p.id) Sample.opened Sample.voted := by
    rw [hid, Sample.voted]
    exact .step Sample.adaVotes .refl Sample.notDraft_opened
  have hrun : AtomicRun Sample.dep (NotDraft p.id) Sample.opened Sample.closed := by
    rw [Sample.closed]
    exact .step Sample.closeVote hvoted (hid ▸ Sample.notDraft_voted)
  rw [Sample.opened, Sample.openVote] at hp hoffer hrun
  obtain ⟨snapshot, q, heq, hrec, hqid, -, -, hqc⟩ :=
    locked_text Sample.drafted_reachable hp hoffer hrun (lockOf_some hl)
  exact ⟨l, snapshot, q, lockOf_some hl, heq, hrec, hqid.trans hid, hqc.trans hcontent⟩

/-- The winner, voted on, is reopened, edited and submitted again. -/
def Sample.swapped : Db :=
  runAll Sample.dep [adaVotes, .transitionProposal (env 20 0) ada 10 20 30 ⟨.draft⟩,
    .updateProposal (env 21 0) ada 10 20 30 ⟨none, none, some (some "sheets")⟩,
    .transitionProposal (env 22 0) ada 10 20 30 ⟨.submitted⟩, closeVote] opened

/-- A proposal offered with one content is locked with another one. -/
theorem text_swapped :
    (∃ p ∈ Sample.opened.proposals, p.id = 30 ∧ p.content = some "rows" ∧
      VotingRepository.isSessionProposal 40 p.id Sample.opened) ∧
    ∃ l snapshot q, (Sample.lock.exec Sample.dep Sample.swapped).1 = .ok (.lock l) ∧
      l.votingSessionId = 40 ∧ l.snapshot = Snapshot.toJson snapshot ∧
      snapshot.approvedProposal = DecisionLockService.proposalSnapshot q ∧ q.id = 30 ∧
      q.content = some "sheets" := by
  refine ⟨by decide +kernel, ?_⟩
  obtain ⟨l, hl, hwin⟩ := Option.map_eq_some_iff.mp
    (show (lockOf (Sample.lock.exec Sample.dep Sample.swapped).1).map
      DecisionLock.winningProposalId = some 30 by decide +kernel)
  obtain ⟨dec, dec', session, result, winning, snapshot, hcan, -, hsid, -, -, rfl, -⟩ :=
    Op.createLock_ok (lockOf_some hl)
  have hcontent : ∀ p ∈ Sample.swapped.proposals, p.id = 30 → p.content = some "sheets" := by
    decide +kernel
  have hbuilt := hcan.built
  simp only [DecisionLockService.buildSnapshot, Reads.run_bind, Reads.run_query, Reads.run_pure,
    Except.bind] at hbuilt
  refine ⟨_, snapshot, winning, lockOf_some hl, hsid, rfl, ?_, hwin,
    hcontent winning hcan.winning_mem hwin⟩
  split at hbuilt
  · cases hbuilt
  · cases hbuilt
    rfl

end

end ForkRoom
