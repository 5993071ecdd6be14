/-
# `Proof.Announced` — what an operation announces

Four changes are told to the outbox: a decision leaves `draft` for `active`, a
voting session is opened, it is closed, and a decision is locked.  `Announces`
reads them off the core before and after.  An operation stages its event in the
transaction that makes the change, so the two come together or not at all
(`OutboxStep`).
-/
import ForkRoom.Proof.Lock

namespace ForkRoom

open Optimistic Rows

/-! ## Announcements -/

/-- From `c` to `c'` comes about what an event of type `t` about `id` tells of. -/
def Announces (t : IntegrationEventType) (id : UUID) (c c' : Core) : Prop :=
  match t with
  | .decisionActivated =>
      Moves (fun d => d.status = .draft) (fun d => d.status = .active) id c.decisions c'.decisions
  | .votingOpened =>
      Moves (fun s => s.status = .draft) (fun s => s.status = .open) id c.votingSessions
        c'.votingSessions
  | .votingClosed =>
      Moves (fun s => s.status = .open) (fun s => s.status = .closed) id c.votingSessions
        c'.votingSessions
  | .decisionLocked =>
      (∀ l ∈ c.decisionLocks, l.id ≠ id) ∧ ∃ l ∈ c'.decisionLocks, l.id = id
  | _ => False

theorem status_disjoint {α σ : Type} (f : α → σ) {a b : σ} (h : a ≠ b) :
    ∀ r, f r = a → ¬ f r = b :=
  fun _ ha hb => h (ha.symm.trans hb)

section
variable {dep : Deployment} {op : Op} {db db' : Db} {id : UUID} {t : IntegrationEventType}

theorem not_announces_self (db : Db) : ¬ Announces t id db.core db.core := by
  intro h
  cases t with
  | decisionActivated =>
      exact not_moves db.valid.pkDecisions (status_disjoint _ (by decide)) (fun _ hr _ => hr) h
  | votingOpened =>
      exact not_moves db.valid.pkVotingSessions (status_disjoint _ (by decide)) (fun _ hr _ => hr) h
  | votingClosed =>
      exact not_moves db.valid.pkVotingSessions (status_disjoint _ (by decide)) (fun _ hr _ => hr) h
  | decisionLocked =>
      obtain ⟨hnone, l, hl, hid⟩ := h
      exact hnone l hl hid
  | _ => exact h

/-! ### Which operation announces what -/

theorem CoreStep.activates (hstep : CoreStep dep op db db'.core)
    (h : Announces .decisionActivated id db.core db'.core) :
    ∃ env user w, op = .transitionDecision env user w id ⟨.active⟩ := by
  have hpk := db.valid.pkDecisions
  have hpq := status_disjoint Decision.status (show DecisionStatus.draft ≠ .active by decide)
  generalize db'.core = c at hstep h
  cases hstep with
  | addDecision row hs =>
      refine absurd h (not_moves hpk hpq fun d hd hactive => ?_)
      rcases List.mem_append.mp hd with hd | hd
      · exact hd
      · rw [List.mem_singleton.mp hd, hs] at hactive
        nomatch hactive
  | editDecision d d' hd hid hw hm hs =>
      obtain ⟨-, hdraft, hactive⟩ := (moves_replace hpk hpq hd hid).mp h
      exact absurd (hs.trans hdraft) fun he => hpq d' he hactive
  | moveDecision d d' hd hr hop hs =>
      obtain ⟨rfl, -, hactive⟩ := (moves_replace hpk hpq hd hr.id).mp h
      obtain ⟨env, user, w, rfl⟩ := hop
      exact ⟨env, user, w, by rw [hactive]; rfl⟩
  | deleteDecisions gone =>
      exact absurd h (not_moves hpk hpq fun d hd _ => (List.mem_filter.mp hd).1)
  | lock env user w d d' session result winning snapshot hop hl hr hs =>
      obtain ⟨-, -, hactive⟩ := (moves_replace hpk hpq hl.decision_mem hr.id).mp h
      nomatch hs.symm.trans hactive
  | _ => exact absurd h (not_moves hpk hpq fun _ hd _ => hd)

/-- A session is opened together with its voters. -/
theorem CoreStep.opens (hstep : CoreStep dep op db db'.core)
    (h : Announces .votingOpened id db.core db'.core) :
    db'.votingEligibleVoters ≠ db.votingEligibleVoters := by
  have hpk := db.valid.pkVotingSessions
  have hpq := status_disjoint VotingSession.status
    (show VotingSessionStatus.draft ≠ .open by decide)
  show db'.core.votingEligibleVoters ≠ db.votingEligibleVoters
  generalize db'.core = c at hstep h
  cases hstep with
  | addSession d row hd ha hrow hs =>
      refine absurd h (not_moves hpk hpq fun s hs' hopen => ?_)
      rcases List.mem_append.mp hs' with hs' | hs'
      · exact hs'
      · rw [List.mem_singleton.mp hs', hs] at hopen
        nomatch hopen
  | openSession env d s s' voters proposals hd ha hs hds hdraft hid hds' hopen hcount hne =>
      intro hsame
      exact hne (List.map_eq_nil_iff.mp (List.append_right_eq_self.mp hsame))
  | finishSession s s' hs hid hds hc hq ho hst =>
      obtain ⟨-, -, hopen⟩ := (moves_replace hpk hpq hs hid).mp h
      rcases hst with ⟨-, hend, -⟩ | ⟨-, hend, -⟩
      · nomatch hend.symm.trans hopen
      · nomatch hend.symm.trans hopen
  | deleteDecisions gone =>
      exact absurd h (not_moves hpk hpq fun s hs _ => (List.mem_filter.mp hs).1)
  | _ => exact absurd h (not_moves hpk hpq fun _ hs _ => hs)

theorem CoreStep.closes (hstep : CoreStep dep op db db'.core)
    (h : Announces .votingClosed id db.core db'.core) :
    ∃ env user w d, op = .closeSession env user w d id := by
  have hpk := db.valid.pkVotingSessions
  have hpq := status_disjoint VotingSession.status
    (show VotingSessionStatus.open ≠ .closed by decide)
  generalize db'.core = c at hstep h
  cases hstep with
  | addSession d row hd ha hrow hs =>
      refine absurd h (not_moves hpk hpq fun s hs' hclosed => ?_)
      rcases List.mem_append.mp hs' with hs' | hs'
      · exact hs'
      · rw [List.mem_singleton.mp hs', hs] at hclosed
        nomatch hclosed
  | openSession env d s s' voters proposals hd ha hs hds hdraft hid hds' hopen =>
      obtain ⟨-, -, hclosed⟩ := (moves_replace hpk hpq hs hid).mp h
      nomatch hopen.symm.trans hclosed
  | finishSession s s' hs hid hds hc hq ho hst =>
      obtain ⟨rfl, -, hclosed⟩ := (moves_replace hpk hpq hs hid).mp h
      rcases hst with ⟨-, -, env, user, w, rfl⟩ | ⟨-, hend, -⟩
      · exact ⟨env, user, w, s.decisionId, rfl⟩
      · nomatch hend.symm.trans hclosed
  | deleteDecisions gone =>
      exact absurd h (not_moves hpk hpq fun s hs _ => (List.mem_filter.mp hs).1)
  | _ => exact absurd h (not_moves hpk hpq fun _ hs _ => hs)

theorem CoreStep.locks (hstep : CoreStep dep op db db'.core)
    (h : Announces .decisionLocked id db.core db'.core) :
    ∃ env user w d payload, op = .createLock env user w d payload ∧ id = env.newId := by
  obtain ⟨hnone, l, hl, hid⟩ := h
  generalize db'.core = c at hstep hl
  cases hstep with
  | lock env user w d d' session result winning snapshot hop =>
      rcases List.mem_append.mp hl with hl | hl
      · exact absurd hid (hnone l hl)
      · rw [List.mem_singleton.mp hl] at hid
        exact ⟨env, user, w, d.id, _, hop, hid.symm⟩
  | _ => exact absurd hid (hnone l hl)

/-- The voters of a session are written by no other operation. -/
theorem Tables.eligibleVoters_write {ws : List Write} (t : Tables)
    (h : ∀ w ∈ ws, w.target ≠ .votingSnapshots ∧ w.cascades = false) :
    (t.write ws).votingEligibleVoters = t.votingEligibleVoters := by
  refine Tables.write_keeps Tables.votingEligibleVoters ?_ t h
  rintro w t ⟨hw, hcascades⟩
  cases w <;> first | rfl | exact absurd rfl hw | nomatch hcascades

/-- Only deletions, and writes to the table itself, change the outbox. -/
theorem Tables.outboxEvents_write {ws : List Write} (t : Tables)
    (h : ∀ w ∈ ws, w.target ≠ .integrationOutboxEvents ∧ w.cascades = false) :
    (t.write ws).integrationOutboxEvents = t.integrationOutboxEvents := by
  refine Tables.write_keeps Tables.integrationOutboxEvents ?_ t h
  rintro w t ⟨hw, hcascades⟩
  cases w <;> first | rfl | exact absurd rfl hw | nomatch hcascades

/-! ### Deletions -/

/-- What an operation that deletes decisions does, if it does anything. -/
theorem Op.exec_deletes (hop : op.cascades = true) : (op.exec dep db).2 = db ∨
    (∃ d ∈ db.decisions, d.status = .draft ∧
      db.restrictsDecisions (fun x => x = d.id) = false ∧
      (op.exec dep db).2.toTables = db.withoutDecisions fun x => x = d.id) ∨
    ∃ w, db.restrictsDecisions (db.decisionsOf w) = false ∧
      (op.exec dep db).2.toTables = db.withoutWorkspace w := by
  rcases Request.exec_cases Db.commit (op.program dep) db with h | ⟨_, _, _, _, hss, hends, hc⟩
  · exact .inl h
  · obtain ⟨heq, hr⟩ := Db.commit_ok hc
    cases op <;> (try (exfalso; simp [Op.cascades] at hop; done)) <;>
      obtain ⟨_, h⟩ := Request.map_commits hends
    case deleteWorkspace =>
      obtain ⟨_, _, _, -, -, -, rfl⟩ := WorkspaceService.delete_commits h
      exact .inr (.inr ⟨_, hr _ List.mem_cons_self, heq⟩)
    case deleteDecision =>
      obtain ⟨_, _, _, c, rfl, hctx, -, hdraft, rfl⟩ := DecisionService.delete_commits h
      simp only [List.forall_mem_cons] at hss
      obtain ⟨rfl, rfl, rfl, -⟩ := hss
      obtain ⟨hd, -, -⟩ := DecisionRepository.getForWorkspace_some hctx.decision
      exact .inr (.inl ⟨c.decision, hd, hdraft, hr _ List.mem_cons_self, heq⟩)

/-- A deletion announces nothing. -/
theorem not_announces_withoutDecisions (gone : UUID → Bool) :
    ¬ Announces t id db.core (db.withoutDecisions gone).core := by
  intro h
  cases t with
  | decisionActivated =>
      exact not_moves db.valid.pkDecisions (status_disjoint _ (by decide))
        (fun _ hr _ => (List.mem_filter.mp hr).1) h
  | votingOpened =>
      exact not_moves db.valid.pkVotingSessions (status_disjoint _ (by decide))
        (fun _ hr _ => (List.mem_filter.mp hr).1) h
  | votingClosed =>
      exact not_moves db.valid.pkVotingSessions (status_disjoint _ (by decide))
        (fun _ hr _ => (List.mem_filter.mp hr).1) h
  | decisionLocked =>
      obtain ⟨hnone, l, hl, hid⟩ := h
      exact hnone l hl hid
  | _ => exact h

/-! ## What stays -/

/-- What is left of an event's subject, and the workspace it is in. -/
def Located (t : IntegrationEventType) (id w : UUID) (c : Core) : Prop :=
  match t with
  | .decisionActivated =>
      ∃ d ∈ c.decisions, d.id = id ∧ d.workspaceId = w ∧ d.status ≠ .draft
  | .votingOpened =>
      ∃ s ∈ c.votingSessions, s.id = id ∧ s.openedAt ≠ none ∧
        ∃ d ∈ c.decisions, d.id = s.decisionId ∧ d.workspaceId = w
  | .votingClosed =>
      ∃ s ∈ c.votingSessions, s.id = id ∧ s.status = .closed ∧
        ∃ d ∈ c.decisions, d.id = s.decisionId ∧ d.workspaceId = w
  | .decisionLocked =>
      ∃ l ∈ c.decisionLocks, l.id = id ∧
        ∃ d ∈ c.decisions, d.id = l.decisionId ∧ d.workspaceId = w
  | _ => False

/-- No transition leads back to DRAFT. -/
theorem not_draft_of_transition {s s' : DecisionStatus}
    (h : s' ∈ DecisionService.allowedTransitions s) : s' ≠ .draft := by
  rintro rfl
  cases s <;> simp [DecisionService.allowedTransitions] at h

section
variable {c : Core}

theorem CoreStep.decision_kept (hstep : CoreStep dep op db c)
    (hstays : ∀ d ∈ db.decisions, ∃ d' ∈ c.decisions, d'.id = d.id) :
    ∀ d ∈ db.decisions, ∃ d' ∈ c.decisions, d'.id = d.id ∧ d'.workspaceId = d.workspaceId ∧
      (d.status ≠ .draft → d'.status ≠ .draft) := by
  -- the row is there still, or it has been replaced
  have replaced {d₀ d₀' : Decision} (hd₀ : d₀ ∈ db.decisions) (hid : d₀'.id = d₀.id)
      (hw : d₀'.workspaceId = d₀.workspaceId) (hs : d₀.status ≠ .draft → d₀'.status ≠ .draft) :
      ∀ d ∈ db.decisions, ∃ d' ∈ replace d₀ d₀' db.decisions, d'.id = d.id ∧
        d'.workspaceId = d.workspaceId ∧ (d.status ≠ .draft → d'.status ≠ .draft) := by
    intro d hd
    by_cases he : d.id = d₀.id
    · rw [eq_of_key db.valid.pkDecisions hd hd₀ he]
      exact ⟨d₀', (mem_replace_decision hd₀).mpr (Or.inl rfl), hid, hw, hs⟩
    · exact ⟨d, (mem_replace_decision hd₀).mpr (Or.inr ⟨hd, he⟩), rfl, rfl, fun h => h⟩
  cases hstep with
  | addDecision row =>
      exact fun d hd => ⟨d, List.mem_append_left _ hd, rfl, rfl, fun h => h⟩
  | editDecision d d' hd hid hw hm hs => exact replaced hd hid hw fun h => hs ▸ h
  | moveDecision d d' hd hr hop hs =>
      exact replaced hd hr.id hr.workspaceId fun _ => not_draft_of_transition hs
  | deleteDecisions gone =>
      intro d hd
      obtain ⟨d', hd', hid⟩ := hstays d hd
      have he : d' = d := eq_of_key db.valid.pkDecisions (List.mem_filter.mp hd').1 hd hid
      exact ⟨d, he ▸ hd', rfl, rfl, fun h => h⟩
  | lock env user w d d' session result winning snapshot hop hl hr hs =>
      refine replaced hl.decision_mem hr.id hr.workspaceId fun _ => ?_
      rw [hs]
      decide
  | _ => exact fun d hd => ⟨d, hd, rfl, rfl, fun h => h⟩

theorem CoreStep.session_kept (hstep : CoreStep dep op db c)
    (hstays : ∀ d ∈ db.decisions, ∃ d' ∈ c.decisions, d'.id = d.id) :
    ∀ s ∈ db.votingSessions, ∃ s' ∈ c.votingSessions, s'.id = s.id ∧
      s'.decisionId = s.decisionId ∧ (s.openedAt ≠ none → s'.openedAt ≠ none) ∧
      (s.status = .closed → s'.status = .closed) := by
  have replaced {s₀ s₀' : VotingSession} (hs₀ : s₀ ∈ db.votingSessions) (hid : s₀'.id = s₀.id)
      (hd : s₀'.decisionId = s₀.decisionId) (ho : s₀.openedAt ≠ none → s₀'.openedAt ≠ none)
      (hc : s₀.status ≠ .closed) :
      ∀ s ∈ db.votingSessions, ∃ s' ∈ replace s₀ s₀' db.votingSessions, s'.id = s.id ∧
        s'.decisionId = s.decisionId ∧ (s.openedAt ≠ none → s'.openedAt ≠ none) ∧
        (s.status = .closed → s'.status = .closed) := by
    intro s hs
    by_cases he : s.id = s₀.id
    · rw [eq_of_key db.valid.pkVotingSessions hs hs₀ he]
      exact ⟨s₀', (mem_replace_session hs₀).mpr (Or.inl rfl), hid, hd, ho, fun h => absurd h hc⟩
    · exact ⟨s, (mem_replace_session hs₀).mpr (Or.inr ⟨hs, he⟩), rfl, rfl, fun h => h, fun h => h⟩
  cases hstep with
  | addSession d row =>
      exact fun s hs => ⟨s, List.mem_append_left _ hs, rfl, rfl, fun h => h, fun h => h⟩
  | openSession env d s s' voters proposals hd ha hs hds hdraft hid hds' hopen hcount hne ho =>
      refine replaced hs hid hds' (fun _ => ho) ?_
      rw [hdraft]
      decide
  | finishSession s s' hs hid hds hc hq ho hst =>
      refine replaced hs hid hds (fun h => ho ▸ h) fun hclosed => ?_
      rcases hst with ⟨h, -⟩ | ⟨h | h, -⟩ <;> nomatch h.symm.trans hclosed
  | deleteDecisions gone =>
      intro s hs
      refine ⟨s, List.mem_filter.mpr ⟨hs, ?_⟩, rfl, rfl, fun h => h, fun h => h⟩
      have hkept : db.sessionsOf gone s.id = false := by
        refine List.any_eq_false.mpr fun x hx => ?_
        obtain ⟨d, hd, hid⟩ := db.valid.fkVotingSessionsDecision x hx
        obtain ⟨d', hd', hid'⟩ := hstays d hd
        have hgone : gone x.decisionId = false := by
          have hkept := (List.mem_filter.mp hd').2
          rw [hid', show d.id = x.decisionId from hid] at hkept
          simpa using hkept
        simp [hgone]
      rw [hkept]
      rfl
  | _ => exact fun s hs => ⟨s, hs, rfl, rfl, fun h => h, fun h => h⟩

theorem CoreStep.located (hstep : CoreStep dep op db c) {w : UUID}
    (hstays : ∀ d ∈ db.decisions, ∃ d' ∈ c.decisions, d'.id = d.id)
    (h : Located t id w db.core) : Located t id w c := by
  have hdecision {k : UUID} (h : ∃ d ∈ db.decisions, d.id = k ∧ d.workspaceId = w) :
      ∃ d ∈ c.decisions, d.id = k ∧ d.workspaceId = w := by
    obtain ⟨d, hd, hid, hw⟩ := h
    obtain ⟨d', hd', hid', hw', -⟩ := hstep.decision_kept hstays d hd
    exact ⟨d', hd', hid'.trans hid, hw'.trans hw⟩
  cases t with
  | decisionActivated =>
      obtain ⟨d, hd, hid, hw, hs⟩ := h
      obtain ⟨d', hd', hid', hw', hs'⟩ := hstep.decision_kept hstays d hd
      exact ⟨d', hd', hid'.trans hid, hw'.trans hw, hs' hs⟩
  | votingOpened =>
      obtain ⟨s, hs, hid, ho, hd⟩ := h
      obtain ⟨s', hs', hid', hsd, ho', -⟩ := hstep.session_kept hstays s hs
      exact ⟨s', hs', hid'.trans hid, ho' ho, hsd ▸ hdecision hd⟩
  | votingClosed =>
      obtain ⟨s, hs, hid, hclosed, hd⟩ := h
      obtain ⟨s', hs', hid', hsd, -, hclosed'⟩ := hstep.session_kept hstays s hs
      exact ⟨s', hs', hid'.trans hid, hclosed' hclosed, hsd ▸ hdecision hd⟩
  | decisionLocked =>
      obtain ⟨l, hl, hid, hd⟩ := h
      exact ⟨l, hstep.locks_kept l hl, hid, hdecision hd⟩
  | _ => exact h

/-! ## Where sessions and drafts come from -/

/-- A session is new, or it was there and may have moved on. -/
theorem CoreStep.session_origin (hstep : CoreStep dep op db c) : ∀ s' ∈ c.votingSessions,
    (s'.status = .draft ∧ s'.openedAt = none ∧
      ∃ d ∈ db.decisions, d.id = s'.decisionId ∧ d.status = .active) ∨
    ∃ s ∈ db.votingSessions, s.id = s'.id ∧ s.decisionId = s'.decisionId ∧
      (s'.openedAt ≠ none → s.openedAt ≠ none ∨ (s.status = .draft ∧ s'.status = .open)) ∧
      (s'.status = .closed → s.status = .closed ∨ s.status = .open) := by
  intro x hx
  have old (hx : x ∈ db.votingSessions) : ∃ s ∈ db.votingSessions, s.id = x.id ∧
      s.decisionId = x.decisionId ∧
      (x.openedAt ≠ none → s.openedAt ≠ none ∨ (s.status = .draft ∧ x.status = .open)) ∧
      (x.status = .closed → s.status = .closed ∨ s.status = .open) :=
    ⟨x, hx, rfl, rfl, .inl, .inl⟩
  cases hstep with
  | addSession d row hd ha hrow hs hc ho =>
      rcases List.mem_append.mp hx with hx | hx
      · exact .inr (old hx)
      · rw [List.mem_singleton.mp hx]
        exact .inl ⟨hs, ho, d, hd, hrow.symm, ha⟩
  | openSession env d s s' voters proposals hd ha hs hds hdraft hid hds' hopen =>
      rcases (mem_replace_session hs).mp hx with rfl | ⟨hx, -⟩
      · refine .inr ⟨s, hs, hid.symm, hds'.symm, fun _ => .inr ⟨hdraft, hopen⟩, fun hclosed => ?_⟩
        nomatch hopen.symm.trans hclosed
      · exact .inr (old hx)
  | finishSession s s' hs hid hds hc hq ho hst =>
      rcases (mem_replace_session hs).mp hx with rfl | ⟨hx, -⟩
      · refine .inr ⟨s, hs, hid.symm, hds.symm, fun h => .inl (ho ▸ h), fun hclosed => ?_⟩
        rcases hst with ⟨hopen, -⟩ | ⟨-, hend, -⟩
        · exact .inr hopen
        · nomatch hend.symm.trans hclosed
      · exact .inr (old hx)
  | deleteDecisions gone => exact .inr (old (List.mem_filter.mp hx).1)
  | _ => exact .inr (old hx)

/-- A draft was a draft, or is a new decision, and then nobody votes on it yet. -/
theorem CoreStep.draft_origin (hstep : CoreStep dep op db c) : ∀ d' ∈ c.decisions,
    d'.status = .draft → (∃ d ∈ db.decisions, d.id = d'.id ∧ d.status = .draft) ∨
      (c.decisions = db.decisions ++ [d'] ∧ c.votingSessions = db.votingSessions) := by
  intro x hx hdraft
  have old (hx : x ∈ db.decisions) : ∃ d ∈ db.decisions, d.id = x.id ∧ d.status = .draft :=
    ⟨x, hx, rfl, hdraft⟩
  cases hstep with
  | addDecision row =>
      rcases List.mem_append.mp hx with hx | hx
      · exact .inl (old hx)
      · rw [List.mem_singleton.mp hx]
        exact .inr ⟨rfl, rfl⟩
  | editDecision d d' hd hid hw hm hs =>
      rcases (mem_replace_decision hd).mp hx with rfl | ⟨hx, -⟩
      · exact .inl ⟨d, hd, hid.symm, hs.symm.trans hdraft⟩
      · exact .inl (old hx)
  | moveDecision d d' hd hr hop hs =>
      rcases (mem_replace_decision hd).mp hx with rfl | ⟨hx, -⟩
      · exact absurd hdraft (not_draft_of_transition hs)
      · exact .inl (old hx)
  | deleteDecisions gone => exact .inl (old (List.mem_filter.mp hx).1)
  | lock env user w d d' session result winning snapshot hop hl hr hs =>
      rcases (mem_replace_decision hl.decision_mem).mp hx with rfl | ⟨hx, -⟩
      · nomatch hs.symm.trans hdraft
      · exact .inl (old hx)
  | _ => exact .inl (old hx)

end

/-- Without a deletion every decision stays. -/
theorem Tables.decisions_persist : ∀ {ws : List Write} (t : Tables),
    (∀ w ∈ ws, w.cascades = false) → ∀ d ∈ t.decisions, ∃ d' ∈ (t.write ws).decisions, d'.id = d.id
  | [], _, _, d, hd => ⟨d, hd, rfl⟩
  | w :: ws, t, h, d, hd => by
      have hrun : ∃ d' ∈ (w.run t).decisions, d'.id = d.id := by
        have hcascades := h w List.mem_cons_self
        cases w with
        | addDecision row => exact ⟨d, List.mem_append_left _ hd, rfl⟩
        | setDecision l c at_ =>
            show ∃ d' ∈ update l c (l.merge c at_) t.decisions, d'.id = d.id
            rw [update]
            split
            · exact ⟨d, hd, rfl⟩
            · refine ⟨_, mem_modify.mpr ⟨d, hd, rfl⟩, ?_⟩
              split
              · rfl
              · rfl
        | deleteDecision | deleteWorkspace => cases hcascades
        | _ => exact ⟨d, hd, rfl⟩
      obtain ⟨d₁, hd₁, hid₁⟩ := hrun
      obtain ⟨d₂, hd₂, hid₂⟩ := Tables.decisions_persist (w.run t)
        (fun x hx => h x (List.mem_cons_of_mem _ hx)) d₁ hd₁
      exact ⟨d₂, hd₂, hid₂.trans hid₁⟩

/-- An operation that deletes nothing leaves every subject where it is. -/
theorem Op.exec_located (hop : op.cascades = false) {w : UUID} (h : Located t id w db.core) :
    Located t id w (op.exec dep db).2.core := by
  refine (Op.exec_step dep op db).located (fun d hd => ?_) h
  rcases Request.exec_cases Db.commit (op.program dep) db with h | ⟨_, _, _, _, -, hends, hc⟩
  · exact ⟨d, by rw [Op.exec, h]; exact hd, rfl⟩
  · have hpersist := Tables.decisions_persist db.toTables (Op.commits_cascades hop hends) d hd
    rw [← (Db.commit_ok hc).1] at hpersist
    exact hpersist

/-! ## The event comes with the change -/

/-- Between `db` and `db'` nothing is announced, or one thing is, with its event. -/
inductive OutboxStep (db db' : Db) : Prop
  | quiet (hevents : db'.integrationOutboxEvents = db.integrationOutboxEvents)
      (hnone : ∀ t id, ¬ Announces t id db.core db'.core)
  | announced (e : IntegrationOutboxEvent)
      (hevents : db'.integrationOutboxEvents = db.integrationOutboxEvents ++ [e])
      (hall : ∀ t id, Announces t id db.core db'.core ↔ e.eventType = t ∧ e.eventId = id)
      (hlocated : Located e.eventType e.eventId e.workspaceId db'.core)

theorem stage_eq {env : Env} {w : UUID} {p : Json} (hdep : dep.integrationEvents = true) :
    stage dep env w t id p = [.addOutboxEvent ⟨env.outboxId, w, t, id, p, env.now⟩] := by
  rw [stage, if_pos hdep]

/-- The type of the events an operation may stage. -/
def Op.eventType : Op → Option IntegrationEventType
  | transitionDecision .. => some .decisionActivated
  | openSession .. => some .votingOpened
  | closeSession .. => some .votingClosed
  | createLock .. => some .decisionLocked
  | _ => none

theorem Op.outboxEvents_not_mem (h : op.eventType = none) :
    .integrationOutboxEvents ∉ op.footprint := by
  cases op <;> simp [eventType, footprint] at h ⊢

theorem Op.votingSnapshots_not_mem (h : op.eventType ≠ some .votingOpened) :
    .votingSnapshots ∉ op.footprint := by
  cases op <;> simp [eventType, footprint] at h ⊢

/-- An event that is staged before the writes of the change. -/
theorem Tables.outboxEvents_staged {e : IntegrationOutboxEvent} {ws : List Write} (t : Tables)
    (h : ∀ w ∈ ws, w.target ≠ .integrationOutboxEvents ∧ w.cascades = false) :
    (t.write (.addOutboxEvent e :: ws)).integrationOutboxEvents =
      t.integrationOutboxEvents ++ [e] :=
  Tables.outboxEvents_write _ h

theorem setDecision_apart (loaded current : Decision) (at_ : Datetime) :
    ∀ x ∈ [Write.setDecision loaded current at_],
      x.target ≠ .integrationOutboxEvents ∧ x.cascades = false := by
  intro x hx
  rw [List.mem_singleton.mp hx]
  exact ⟨nofun, rfl⟩

section
variable {ss : List Db} {ws : List Write} {env : Env} {user : User} {w d s : UUID}
  {rejected : CommitError → ServiceError}

/-- An operation announces what its events are for, and nothing else. -/
theorem Op.announces_eventType {ok : Db → Except ServiceError Response}
    (hends : (op.program dep).Ends ss (.ok (.commit ws ok rejected))) (hss : ∀ s ∈ ss, db = s)
    (hc : db.commit ws = .ok db') (hop : op.cascades = false)
    (h : Announces t id db.core db'.core) : op.eventType = some t := by
  have hstep := Op.commit_step hends hss hc
  cases t with
  | decisionActivated =>
      obtain ⟨_, _, _, rfl⟩ := hstep.activates h
      rfl
  | votingOpened =>
      by_contra hne
      refine hstep.opens h ?_
      rw [(Db.commit_ok hc).1]
      refine Tables.eligibleVoters_write db.toTables fun x hx => ⟨fun ht => ?_, ?_⟩
      · exact Op.votingSnapshots_not_mem hne (ht ▸ Op.commits_footprint hends x hx)
      · exact Op.commits_cascades hop hends x hx
  | votingClosed =>
      obtain ⟨_, _, _, _, rfl⟩ := hstep.closes h
      rfl
  | decisionLocked =>
      obtain ⟨_, _, _, _, _, rfl, -⟩ := hstep.locks h
      rfl
  | _ => exact h.elim

/-- An operation without events announces nothing. -/
theorem Op.quiet_step {ok : Db → Except ServiceError Response}
    (hends : (op.program dep).Ends ss (.ok (.commit ws ok rejected))) (hss : ∀ s ∈ ss, db = s)
    (hc : db.commit ws = .ok db') (hop : op.cascades = false) (htype : op.eventType = none) :
    OutboxStep db db' := by
  refine .quiet ?_ fun t id h => ?_
  · rw [(Db.commit_ok hc).1]
    refine Tables.outboxEvents_write db.toTables fun x hx => ⟨fun ht => ?_, ?_⟩
    · exact Op.outboxEvents_not_mem htype (ht ▸ Op.commits_footprint hends x hx)
    · exact Op.commits_cascades hop hends x hx
  · nomatch htype.symm.trans (Op.announces_eventType hends hss hc hop h)

/-- The one thing an operation announces, with its event. -/
theorem OutboxStep.of_staged {ok : Db → Except ServiceError Response} {e : IntegrationOutboxEvent}
    (hends : (op.program dep).Ends ss (.ok (.commit ws ok rejected))) (hss : ∀ s ∈ ss, db = s)
    (hc : db.commit ws = .ok db') (hop : op.cascades = false)
    (htype : op.eventType = some e.eventType)
    (hevents : db'.integrationOutboxEvents = db.integrationOutboxEvents ++ [e])
    (hid : ∀ id, Announces e.eventType id db.core db'.core ↔ e.eventId = id)
    (hlocated : Located e.eventType e.eventId e.workspaceId db'.core) : OutboxStep db db' := by
  refine .announced e hevents (fun t id => ⟨fun h => ?_, ?_⟩) hlocated
  · have ht : e.eventType = t :=
      Option.some.inj (htype.symm.trans (Op.announces_eventType hends hss hc hop h))
    exact ⟨ht, (hid id).mp (ht ▸ h)⟩
  · rintro ⟨rfl, rfl⟩
    exact (hid _).mpr rfl

theorem DecisionService.transition_outbox {payload : DecisionTransitionRequest}
    {ok : Db → Except ServiceError Response}
    (hdep : dep.integrationEvents = true)
    (hends : ((Op.transitionDecision env user w d payload).program dep).Ends ss
      (.ok (.commit ws ok rejected)))
    (hss : ∀ s ∈ ss, db = s) (hc : db.commit ws = .ok db') : OutboxStep db db' := by
  obtain ⟨_, h⟩ := Request.map_commits hends
  have hseen := hss
  obtain ⟨_, _, _, c, p, rfl, hctx, -, ht, hws⟩ := DecisionService.transition_commits h
  simp only [List.forall_mem_cons] at hseen
  obtain ⟨rfl, rfl, rfl, -⟩ := hseen
  obtain ⟨hd, rfl, rfl⟩ := DecisionRepository.getForWorkspace_some hctx.decision
  obtain ⟨d', hr, hs, hrun⟩ := Db.setDecision_run hd
    (DecisionService.moved c.decision payload.status env.now) env.dbNow rfl rfl rfl
  have hpq := status_disjoint Decision.status (show DecisionStatus.draft ≠ .active by decide)
  have hcore : db'.core = { db.core with decisions := replace c.decision d' db.decisions } := by
    rw [(Db.commit_ok hc).1, hws, Tables.core_write_after staged_aside, Tables.write, List.foldl,
      hrun]
    rfl
  have hmoves : ∀ id, Announces .decisionActivated id db.core db'.core ↔
      c.decision.id = id ∧ c.decision.status = .draft ∧ d'.status = .active := by
    intro id
    rw [hcore]
    exact moves_replace db.valid.pkDecisions hpq hd hr.id
  by_cases hact : c.decision.status = .draft ∧ payload.status = .active
  · rw [if_pos hact, stage_eq hdep, List.singleton_append] at hws
    have hactive : d'.status = .active := hs.trans hact.2
    refine .of_staged hends hss hc rfl rfl ?_ (fun id => (hmoves id).trans ?_) ?_
      (e := ⟨env.outboxId, c.decision.workspaceId, .decisionActivated, c.decision.id, p, env.now⟩)
    · rw [(Db.commit_ok hc).1, hws]
      exact Tables.outboxEvents_staged _ (setDecision_apart _ _ _)
    · exact and_iff_left ⟨hact.1, hactive⟩
    · rw [hcore]
      refine ⟨d', (mem_replace_decision hd).mpr (Or.inl rfl), hr.id, hr.workspaceId, ?_⟩
      rw [hactive]
      decide
  · rw [if_neg hact, List.nil_append] at hws
    refine .quiet ?_ fun t id h => hact ?_
    · rw [(Db.commit_ok hc).1, hws]
      exact Tables.outboxEvents_write _ (setDecision_apart _ _ _)
    · have ht : t = .decisionActivated :=
        (Option.some.inj (Op.announces_eventType hends hss hc rfl h)).symm
      subst ht
      obtain ⟨-, hdraft, hactive⟩ := (hmoves id).mp h
      exact ⟨hdraft, hs.symm.trans hactive⟩

theorem VotingService.openSession_outbox {ok : Db → Except ServiceError Response}
    (hdep : dep.integrationEvents = true)
    (hends : ((Op.openSession env user w d s).program dep).Ends ss (.ok (.commit ws ok rejected)))
    (hss : ∀ s ∈ ss, db = s) (hc : db.commit ws = .ok db') : OutboxStep db db' := by
  obtain ⟨_, h⟩ := Request.map_commits hends
  have hseen := hss
  obtain ⟨_, _, _, _, _, _, _, c, session, proposals, voters, p, rfl, hctx, -, -, hsession, hdraft,
    -, -, -, -, -, -, hws⟩ := VotingService.openSession_commits h
  simp only [List.forall_mem_cons] at hseen
  obtain ⟨rfl, rfl, rfl, rfl, rfl, rfl, rfl, -⟩ := hseen
  obtain ⟨hd, rfl, rfl⟩ := DecisionRepository.getForWorkspace_some hctx.decision
  obtain ⟨hmem, -, hsd⟩ := VotingRepository.getForDecision_some hsession
  obtain ⟨s', hid, hd', -, hst, -, ho, hrun⟩ := Db.setSession_run hmem
    (VotingService.opened session voters env.now) env.dbNow
  have hcore : db'.core.votingSessions = replace session s' db.votingSessions ∧
      db'.core.decisions = db.decisions := by
    rw [(Db.commit_ok hc).1, hws, Tables.core_write_after stage_aside, Tables.write, List.foldl,
      hrun]
    exact ⟨rfl, rfl⟩
  have hopen : s'.status = .open := hst
  rw [stage_eq hdep] at hws
  refine .of_staged hends hss hc rfl rfl ?_ (fun id => ?_) ?_
    (e := ⟨env.outboxId, c.decision.workspaceId, .votingOpened, session.id, p, env.now⟩)
  · rw [(Db.commit_ok hc).1, hws, List.singleton_append]
    refine Tables.outboxEvents_staged _ fun x hx => ?_
    simp only [List.mem_cons, List.not_mem_nil, or_false] at hx
    rcases hx with rfl | rfl | rfl <;> exact ⟨(by intro h; cases h), rfl⟩
  · simp only [Announces, hcore.1]
    refine (moves_replace db.valid.pkVotingSessions (status_disjoint _ (by decide)) hmem hid).trans
      ?_
    exact and_iff_left ⟨hdraft, hopen⟩
  · refine ⟨s', ?_, hid, ?_, c.decision, hcore.2 ▸ hd, (hd'.trans hsd).symm, rfl⟩
    · rw [hcore.1]
      exact (mem_replace_session hmem).mpr (Or.inl rfl)
    · rw [ho]
      exact Option.some_ne_none _

theorem VotingService.closeSession_outbox {ok : Db → Except ServiceError Response}
    (hdep : dep.integrationEvents = true)
    (hends : ((Op.closeSession env user w d s).program dep).Ends ss (.ok (.commit ws ok rejected)))
    (hss : ∀ s ∈ ss, db = s) (hc : db.commit ws = .ok db') : OutboxStep db db' := by
  obtain ⟨_, h⟩ := Request.map_commits hends
  have hseen := hss
  obtain ⟨_, _, _, _, c, session, p, rfl, hctx, -, hsession, hopen, hws⟩ :=
    VotingService.closeSession_commits h
  simp only [List.forall_mem_cons] at hseen
  obtain ⟨rfl, rfl, rfl, rfl, -⟩ := hseen
  obtain ⟨hd, rfl, rfl⟩ := DecisionRepository.getForWorkspace_some hctx.decision
  obtain ⟨hmem, -, hsd⟩ := VotingRepository.getForDecision_some hsession
  obtain ⟨s', hid, hd', -, hst, -, -, hrun⟩ := Db.setSession_run hmem
    (VotingService.closed session env.now) env.dbNow
  have hcore : db'.core =
      { db.core with votingSessions := replace session s' db.votingSessions } := by
    rw [(Db.commit_ok hc).1, hws, Tables.core_write_after stage_aside, Tables.write, List.foldl,
      hrun]
    rfl
  have hclosed : s'.status = .closed := hst
  rw [stage_eq hdep] at hws
  refine .of_staged hends hss hc rfl rfl ?_ (fun id => ?_) ?_
    (e := ⟨env.outboxId, c.decision.workspaceId, .votingClosed, session.id, p, env.now⟩)
  · rw [(Db.commit_ok hc).1, hws, List.singleton_append]
    refine Tables.outboxEvents_staged _ fun x hx => ?_
    rw [List.mem_singleton.mp hx]
    exact ⟨(by intro h; cases h), rfl⟩
  · rw [hcore]
    refine (moves_replace db.valid.pkVotingSessions (status_disjoint _ (by decide)) hmem hid).trans
      ?_
    exact and_iff_left ⟨hopen, hclosed⟩
  · rw [hcore]
    exact ⟨s', (mem_replace_session hmem).mpr (Or.inl rfl), hid, hclosed, c.decision, hd,
      (hd'.trans hsd).symm, rfl⟩

theorem DecisionLockService.create_outbox {payload : DecisionLockCreateRequest}
    {ok : Db → Except ServiceError Response} (hdep : dep.integrationEvents = true)
    (hends : ((Op.createLock env user w d payload).program dep).Ends ss
      (.ok (.commit ws ok rejected)))
    (hss : ∀ s ∈ ss, db = s) (hc : db.commit ws = .ok db') : OutboxStep db db' := by
  obtain ⟨_, h⟩ := Request.map_commits hends
  obtain ⟨dec, dec', session, result, winning, snapshot, hcan, rfl, -, hr, hst, hcore⟩ :=
    DecisionLockService.create_core h hss hc
  have hfresh := db'.valid.pkDecisionLocks
  have hlocks : db'.decisionLocks = db.decisionLocks ++
      [DecisionLockService.lockRow dep env user dec session.id winning.id snapshot] :=
    congrArg Core.decisionLocks hcore
  rw [PrimaryKey, hlocks] at hfresh
  obtain ⟨_, _, _, _, _, _, _, _, _, _, _, _, _, c, _, _, _, _, p, rfl, hg, hws⟩ :=
    DecisionLockService.create_commits h
  simp only [List.forall_mem_cons] at hss
  have hw : dec.workspaceId = w := by
    obtain ⟨rfl, rfl, rfl, -⟩ := hss
    obtain ⟨hd, hid, hw⟩ := DecisionRepository.getForWorkspace_some hg.context.decision
    rw [← eq_of_key db.valid.pkDecisions hd hcan.decision_mem hid]
    exact hw
  rw [stage_eq hdep] at hws
  refine .of_staged hends (by simpa using hss) hc rfl rfl ?_ (fun id => ?_) ?_
    (e := ⟨env.outboxId, w, .decisionLocked, env.newId, p, env.now⟩)
  · rw [(Db.commit_ok hc).1, hws, List.singleton_append]
    refine Tables.outboxEvents_staged _ fun x hx => ?_
    simp only [List.mem_cons, List.not_mem_nil, or_false] at hx
    rcases hx with rfl | rfl <;> exact ⟨nofun, rfl⟩
  · rw [hcore]
    constructor
    · rintro ⟨hnone, l, hl, hid⟩
      rcases List.mem_append.mp hl with hl | hl
      · exact absurd hid (hnone l hl)
      · rw [List.mem_singleton.mp hl] at hid
        exact hid
    · rintro rfl
      exact ⟨fun l hl => Unique.ne_of_append hfresh l hl, _,
        List.mem_append_right _ (List.mem_singleton_self _), rfl⟩
  · rw [hcore]
    exact ⟨_, List.mem_append_right _ (List.mem_singleton_self _), rfl, dec',
      (mem_replace_decision hcan.decision_mem).mpr (Or.inl rfl), hr.id, hr.workspaceId.trans hw⟩

end

/-- **An operation that deletes nothing announces with an event, or is quiet.** -/
theorem Op.exec_outbox (hdep : dep.integrationEvents = true) (hop : op.cascades = false) :
    OutboxStep db (op.exec dep db).2 := by
  rcases Request.exec_cases Db.commit (op.program dep) db with h | ⟨_, _, _, _, hss, hends, hc⟩
  · rw [Op.exec, h]
    exact .quiet rfl fun _ _ => not_announces_self db
  · cases htype : op.eventType with
    | none => exact Op.quiet_step hends hss hc hop htype
    | some t =>
        cases op <;> (try (exfalso; simp [Op.eventType] at htype; done))
        case transitionDecision => exact DecisionService.transition_outbox hdep hends hss hc
        case openSession => exact VotingService.openSession_outbox hdep hends hss hc
        case closeSession => exact VotingService.closeSession_outbox hdep hends hss hc
        case createLock => exact DecisionLockService.create_outbox hdep hends hss hc

end

end ForkRoom
