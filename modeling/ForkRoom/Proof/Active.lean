/-
# `Proof.Active` — voting sessions of decisions that are not active

Creating and opening a session ask for an active decision.  Casting a ballot,
closing and cancelling do not; they ask the session only.  And the transitions of
a decision and its lock do not ask for unfinished sessions.  So a session that is
a draft or open when its decision is closed, archived or locked can still be
voted in, closed or cancelled (`ballot_on_locked`).

That is the only way.  In a run that strands no session — no step takes a
decision out of `active` while it has a draft or an open session — every
unfinished session belongs to an active decision (`UnfinishedActive`), and
nothing touches the sessions of the others (`voting_on_active`).
-/
import ForkRoom.Proof.Lock

namespace ForkRoom

open Optimistic Rows

/-! ## What is not to change -/

/-- From `c` to `c'` the sessions of the decision `d` stay, with their ballots. -/
structure Untouched (d : UUID) (c c' : Core) : Prop where
  sessions : (c'.votingSessions.filter fun s => s.decisionId = d) =
    c.votingSessions.filter fun s => s.decisionId = d
  ballots : ∀ s ∈ c.votingSessions, s.decisionId = d → c'.ballotRows s.id = c.ballotRows s.id

theorem Untouched.of_same (d : UUID) {c c' : Core} (hs : c'.votingSessions = c.votingSessions)
    (hv : c'.votes = c.votes) : Untouched d c c' where
  sessions := by rw [hs]
  ballots s _ _ := by rw [Core.ballotRows, Core.ballotRows, hv]

theorem Untouched.refl (d : UUID) (c : Core) : Untouched d c c := .of_same d rfl rfl

theorem Untouched.trans {d : UUID} {c₁ c₂ c₃ : Core} (h : Untouched d c₁ c₂)
    (h' : Untouched d c₂ c₃) : Untouched d c₁ c₃ where
  sessions := h'.sessions.trans h.sessions
  ballots s hs hsd := by
    have hmem : s ∈ c₁.votingSessions.filter fun s => s.decisionId = d :=
      List.mem_filter.mpr ⟨hs, decide_eq_true hsd⟩
    rw [← h.sessions] at hmem
    exact (h'.ballots s (List.mem_filter.mp hmem).1 hsd).trans (h.ballots s hs hsd)

theorem Untouched.countVotes {d : UUID} {db db' : Db} (h : Untouched d db.core db'.core)
    {s : VotingSession} (hs : s ∈ db.votingSessions) (hsd : s.decisionId = d) :
    VotingRepository.countVotes s.id db' = VotingRepository.countVotes s.id db :=
  congrArg List.length (h.ballots s hs hsd)

/-! ## Stranded sessions -/

/-- Unfinished sessions belong to active decisions. -/
def UnfinishedActive (db : Db) : Prop :=
  ∀ d ∈ db.decisions, VotingRepository.hasUnfinishedForDecision d.id db → d.status = .active

/-- The operation takes a decision out of `active` that has an unfinished session. -/
def Strands (dep : Deployment) (db : Db) (op : Op) : Prop :=
  ∃ d ∈ db.decisions, d.status = .active ∧ VotingRepository.hasUnfinishedForDecision d.id db ∧
    ∃ d' ∈ (op.exec dep db).2.decisions, d'.id = d.id ∧ d'.status ≠ .active

instance (dep : Deployment) (db : Db) (op : Op) : Decidable (Strands dep db op) :=
  inferInstanceAs (Decidable (∃ d ∈ db.decisions, d.status = .active ∧
    VotingRepository.hasUnfinishedForDecision d.id db ∧
    ∃ d' ∈ (op.exec dep db).2.decisions, d'.id = d.id ∧ d'.status ≠ .active))

section
variable {dep : Deployment} {op : Op} {db db' : Db} {c : Core} {d : Decision}

theorem Db.unfinished_iff {id : UUID} : VotingRepository.hasUnfinishedForDecision id db = true ↔
    ∃ s ∈ db.votingSessions, s.decisionId = id ∧ (s.status = .draft ∨ s.status = .open) := by
  simp only [VotingRepository.hasUnfinishedForDecision, VotingSession.unfinished, List.any_eq_true,
    Bool.and_eq_true, Bool.or_eq_true, decide_eq_true_eq]

/-- **One operation.**  A decision whose sessions are all finished, and which is
not active, keeps its sessions and their ballots as long as it exists. -/
theorem CoreStep.untouched (hstep : CoreStep dep op db c) (hd : d ∈ db.decisions)
    (hactive : d.status ≠ .active)
    (hfinished : VotingRepository.hasUnfinishedForDecision d.id db = false)
    (hstays : ∃ d' ∈ c.decisions, d'.id = d.id) : Untouched d.id db.core c := by
  -- the decision under which a session is created or opened is another one
  have hne : ∀ {d₀ : Decision}, d₀ ∈ db.decisions → d₀.status = .active → d₀.id ≠ d.id :=
    fun hd₀ ha => Db.decision_ne hd₀ hd (ha ▸ hactive.symm)
  -- and so is the decision of a session that is voted in or finished
  have hother : ∀ s ∈ db.votingSessions, (s.status = .draft ∨ s.status = .open) →
      s.decisionId ≠ d.id := by
    intro s hs hst hsd
    rw [Db.unfinished_iff.mpr ⟨s, hs, hsd, hst⟩] at hfinished
    nomatch hfinished
  have hreplace : ∀ {s s' : VotingSession}, s ∈ db.votingSessions →
      (s.status = .draft ∨ s.status = .open) → s'.decisionId = s.decisionId →
      (replace s s' db.votingSessions).filter (fun x => x.decisionId = d.id) =
        db.votingSessions.filter fun x => x.decisionId = d.id := by
    intro s s' hs hst hds
    have hout := hother s hs hst
    exact filter_replace db.valid.pkVotingSessions hs (decide_eq_false hout)
      (decide_eq_false (hds ▸ hout))
  have hrefl := Untouched.refl d.id db.core
  cases hstep with
  | deleteDecisions gone =>
      obtain ⟨d', hd', hid⟩ := hstays
      have hgone : gone d.id = false := by
        have hkept := (List.mem_filter.mp hd').2
        rw [hid] at hkept
        simpa using hkept
      -- the sessions of the decision are not among those that go
      have hsession : ∀ s ∈ db.votingSessions, s.decisionId = d.id →
          db.sessionsOf gone s.id = false := by
        intro s hs hsd
        refine List.any_eq_false.mpr fun x hx => ?_
        by_cases hk : x.id = s.id
        · rw [eq_of_key db.valid.pkVotingSessions hx hs hk]
          simp [hsd, hgone]
        · simp [hk]
      refine ⟨?_, fun s hs hsd => filter_kept _ (hsession s hs hsd)⟩
      show (db.votingSessions.filter _).filter _ = db.votingSessions.filter _
      rw [List.filter_filter]
      refine List.filter_congr fun s hs => ?_
      by_cases hsd : s.decisionId = d.id
      · simp [hsd, hsession s hs hsd]
      · simp [hsd]
  | addSession d₀ row hd₀ ha hrow =>
      refine { hrefl with sessions := ?_ }
      have hout : decide (row.decisionId = d.id) = false :=
        decide_eq_false fun he => hne hd₀ ha (hrow.symm.trans he)
      rw [List.filter_append, List.filter_singleton, hout]
      exact List.append_nil _
  | openSession env d₀ s s' voters proposals hd₀ ha hs hds hdraft hid hds' =>
      exact { hrefl with sessions := hreplace hs (Or.inl hdraft) hds' }
  | castVote s row hs hopen hrow =>
      refine { hrefl with ballots := ?_ }
      intro x hx hxd
      have hout : decide (row.votingSessionId = x.id) = false := by
        refine decide_eq_false fun he => hother s hs (Or.inr hopen) ?_
        rw [eq_of_key db.valid.pkVotingSessions hs hx (hrow.symm.trans he)]
        exact hxd
      rw [Core.ballotRows, List.filter_append, List.filter_singleton, hout]
      exact List.append_nil _
  | finishSession s s' hs hid hds hc hq ho hst =>
      have hun : s.status = .draft ∨ s.status = .open := by
        rcases hst with ⟨h, -⟩ | ⟨h, -⟩
        · exact Or.inr h
        · exact h
      exact { hrefl with sessions := hreplace hs hun hds }
  | _ => exact .of_same d.id rfl rfl

/-! ## Runs that strand no session -/

/-- A session that is unfinished now belonged to a decision that had an unfinished
session, or to an active one. -/
theorem CoreStep.unfinished_origin (hstep : CoreStep dep op db db'.core) {id : UUID}
    (hun : VotingRepository.hasUnfinishedForDecision id db') :
    ∃ d ∈ db.decisions, d.id = id ∧
      (VotingRepository.hasUnfinishedForDecision id db ∨
        (d.status = .active ∧ d ∈ db'.decisions)) := by
  obtain ⟨x, hx, hxd, hst⟩ := Db.unfinished_iff.mp hun
  have hold : x ∈ db.votingSessions → ∃ d ∈ db.decisions, d.id = id ∧
      (VotingRepository.hasUnfinishedForDecision id db ∨
        (d.status = .active ∧ d ∈ db'.decisions)) := by
    intro hx
    obtain ⟨d, hd, hk⟩ := db.valid.fkVotingSessionsDecision x hx
    exact ⟨d, hd, hk.trans hxd, Or.inl (Db.unfinished_iff.mpr ⟨x, hx, hxd, hst⟩)⟩
  have hmem : x ∈ db'.core.votingSessions := hx
  have hdecisions : db'.decisions = db'.core.decisions := rfl
  rw [hdecisions] at hold ⊢
  generalize db'.core = c at hstep hmem hold
  cases hstep with
  | addSession d₀ row hd₀ ha hrow =>
      rcases List.mem_append.mp hmem with hmem | hmem
      · exact hold hmem
      · rw [List.mem_singleton.mp hmem] at hxd
        exact ⟨d₀, hd₀, hrow.symm.trans hxd, Or.inr ⟨ha, hd₀⟩⟩
  | openSession env d₀ s s' voters proposals hd₀ ha hs hds hdraft hid hds' =>
      rcases (mem_replace_session hs).mp hmem with rfl | ⟨hmem, -⟩
      · exact ⟨d₀, hd₀, hds.symm.trans (hds'.symm.trans hxd), Or.inr ⟨ha, hd₀⟩⟩
      · exact hold hmem
  | finishSession s s' hs hid hds hc hq ho hend =>
      rcases (mem_replace_session hs).mp hmem with rfl | ⟨hmem, -⟩
      · rcases hend with ⟨-, h, -⟩ | ⟨-, h, -⟩ <;> rw [h] at hst <;> rcases hst with h' | h' <;>
          nomatch h'
      · exact hold hmem
  | deleteDecisions gone => exact hold (List.mem_filter.mp hmem).1
  | _ => exact hold hmem

theorem unfinishedActive_empty : UnfinishedActive Db.empty :=
  fun _ h => nomatch h

/-- An operation that strands no session keeps unfinished sessions on active decisions. -/
theorem UnfinishedActive.step (h : UnfinishedActive db) (hok : ¬ Strands dep db op) :
    UnfinishedActive (op.exec dep db).2 := by
  intro d' hd' hun
  obtain ⟨d, hd, hid, hunf | ⟨ha, hmem⟩⟩ := (Op.exec_step dep op db).unfinished_origin hun
  · rw [← hid] at hunf
    by_contra hna
    exact hok ⟨d, hd, h d hd hunf, hunf, d', hd', hid.symm, hna⟩
  · rw [eq_of_key (Db.valid _).pkDecisions hd' hmem hid.symm]
    exact ha

/-- Runs that strand no session. -/
abbrev KeepsFinished (dep : Deployment) : Db → Db → Prop :=
  AtomicRun dep fun db op => ¬ Strands dep db op

theorem UnfinishedActive.run (h : UnfinishedActive db) (hrun : KeepsFinished dep db db') :
    UnfinishedActive db' := by
  induction hrun with
  | refl => exact h
  | step op _ hok ih => exact ih.step hok

theorem UnfinishedActive.finished (h : UnfinishedActive db) (hd : d ∈ db.decisions)
    (hactive : d.status ≠ .active) :
    VotingRepository.hasUnfinishedForDecision d.id db = false := by
  rw [Bool.eq_false_iff]
  exact fun hun => hactive (h d hd hun)

/-- A locked decision stays where it is. -/
theorem Reachable.locked_kept (h : Reachable dep db) (hd : d ∈ db.decisions)
    (hlocked : d.status = .locked) (op : Op) : d ∈ (op.exec dep db).2.decisions := by
  obtain ⟨l, hl, hld⟩ := h.lockInv.locked d hd hlocked
  obtain ⟨d₀, s, w, hb⟩ := h.lockInv.locks l hl
  have hsame : d₀ = d :=
    eq_of_key db.valid.pkDecisions hb.decision_mem hd (hb.decision_id.trans hld)
  exact ((Op.exec_step dep op db).frozen hd hlocked ⟨l, hl, hld⟩ hb.session_mem
    (hsame ▸ hb.session_decision) hb.closed).decision

/-- **Voting lives only on active decisions**, in every run that strands no session:
no operation touches the sessions of a decision that is not active, nor their
ballots, as long as the decision exists; and those of a locked decision are the
same in every later state. -/
theorem voting_on_active (hrun : KeepsFinished dep Db.empty db) :
    (∀ d ∈ db.decisions, d.status ≠ .active → ∀ op : Op,
      (∃ d' ∈ (op.exec dep db).2.decisions, d'.id = d.id) →
        Untouched d.id db.core (op.exec dep db).2.core) ∧
    ∀ d ∈ db.decisions, d.status = .locked → ∀ db', KeepsFinished dep db db' →
      d ∈ db'.decisions ∧ Untouched d.id db.core db'.core := by
  have hreach : Reachable dep db := Reachable.empty.run hrun
  have hinv : UnfinishedActive db := unfinishedActive_empty.run hrun
  refine ⟨fun d hd hactive op hstays => ?_, fun d hd hlocked db' hrun' => ?_⟩
  · exact (Op.exec_step dep op db).untouched hd hactive (hinv.finished hd hactive) hstays
  · have hactive : d.status ≠ .active := fun ha => nomatch hlocked.symm.trans ha
    induction hrun' with
    | refl => exact ⟨hd, Untouched.refl _ _⟩
    | @step db₁ op hrun₁ hok ih =>
        obtain ⟨hd₁, h₁⟩ := ih
        have hkept := (hreach.run hrun₁).locked_kept hd₁ hlocked op
        refine ⟨hkept, h₁.trans ?_⟩
        exact (Op.exec_step dep op db₁).untouched hd₁ hactive
          ((hinv.run hrun₁).finished hd₁ hactive) ⟨d, hkept, rfl⟩

theorem Sample.keepsFinished : KeepsFinished Sample.dep Db.empty locked := by
  have hallowed : Allowed Sample.dep (fun db op => ¬ Strands Sample.dep db op) setUp Db.empty := by
    decide +kernel
  have hrun : KeepsFinished Sample.dep Db.empty drafted := .of_allowed hallowed
  rw [locked, closed, voted, opened]
  refine .step lock (.step closeVote (.step adaVotes (.step openVote hrun ?_) ?_) ?_) ?_ <;>
    decide +kernel

theorem voting_on_active_sample : ∃ d ∈ Sample.locked.decisions, d.status = .locked ∧
    ∀ db', KeepsFinished Sample.dep Sample.locked db' →
      d ∈ db'.decisions ∧ Untouched d.id Sample.locked.core db'.core := by
  obtain ⟨d, hd, hlocked⟩ : ∃ d ∈ Sample.locked.decisions, d.status = .locked := by decide +kernel
  exact ⟨d, hd, hlocked, (voting_on_active Sample.keepsFinished).2 d hd hlocked⟩

/-- After the first session is closed a second one is opened, and the decision is
locked on the first. -/
def Sample.revote : Db :=
  runAll Sample.dep [.createSession (env 20 41) ada 10 20 ⟨50, none⟩,
    .openSession (env 21 0) ada 10 20 41, lock] closed

/-- A ballot of Bob in the second session. -/
def Sample.bobVotes : Op := .castVote (env 22 51) bob 10 20 41 ⟨31⟩

/-- A locked decision gets a ballot. -/
theorem ballot_on_locked : Reachable Sample.dep Sample.revote ∧
    ∃ d ∈ Sample.revote.decisions, d.status = .locked ∧
      (∃ d' ∈ (Sample.bobVotes.exec Sample.dep Sample.revote).2.decisions, d'.id = d.id) ∧
      ¬ Untouched d.id Sample.revote.core
        (Sample.bobVotes.exec Sample.dep Sample.revote).2.core := by
  refine ⟨Sample.closed_reachable.runAll _, ?_⟩
  obtain ⟨d, hd, hlocked, hstays, s, hs, hsd, hbefore, hafter⟩ :
      ∃ d ∈ Sample.revote.decisions, d.status = .locked ∧
        (∃ d' ∈ (Sample.bobVotes.exec Sample.dep Sample.revote).2.decisions, d'.id = d.id) ∧
        ∃ s ∈ Sample.revote.votingSessions, s.decisionId = d.id ∧
          VotingRepository.countVotes s.id Sample.revote = 0 ∧
          VotingRepository.countVotes s.id
            (Sample.bobVotes.exec Sample.dep Sample.revote).2 = 1 := by
    decide +kernel
  refine ⟨d, hd, hlocked, hstays, fun h => ?_⟩
  exact absurd (hafter.symm.trans ((h.countVotes hs hsd).trans hbefore)) (by decide)

end

end ForkRoom
