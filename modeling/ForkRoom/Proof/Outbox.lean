/-
# `Proof.Outbox` — the outbox tells what has happened, once

A history is the list of the states of an atomic run, the last one first.  That a
decision has been activated is a fact about its history: it may be closed and
opened again since.  That a session is closed, or a decision locked, shows in the
state.

A workspace that is deleted takes its decisions and its events along.  A session
that has been opened stops the deletion, since its proposals may not be deleted.
-/
import ForkRoom.Proof.Announced
import ForkRoom.Proof.VotedText

namespace ForkRoom

open Optimistic Rows

/-! ## Histories -/

/-- A run of atomic operations, state by state; any commit may fail and be rolled back. -/
inductive History (dep : Deployment) : List Db → Prop
  | empty : History dep [Db.empty]
  | step {db : Db} {past : List Db} (op : Op) : History dep (db :: past) →
      History dep ((op.exec dep db).2 :: db :: past)
  | rolledBack {db : Db} {past : List Db} :
      History dep (db :: past) → History dep (db :: db :: past)

/-- `p` has come about in one step, and `q` holds ever since. -/
inductive Since (p : Core → Core → Prop) (q : Core → Prop) : List Db → Prop
  | now {db db' : Db} {past : List Db} : p db.core db'.core → Since p q (db' :: db :: past)
  | later {db' : Db} {past : List Db} : Since p q past → q db'.core → Since p q (db' :: past)

theorem since_cons {p : Core → Core → Prop} {q : Core → Prop} {db db' : Db} {past : List Db} :
    Since p q (db' :: db :: past) ↔ p db.core db'.core ∨ (Since p q (db :: past) ∧ q db'.core) := by
  constructor
  · intro h
    cases h with
    | now h => exact .inl h
    | later h hq => exact .inr ⟨h, hq⟩
  · rintro (h | ⟨h, hq⟩)
    · exact .now h
    · exact .later h hq

theorem not_since_empty {p : Core → Core → Prop} {q : Core → Prop} : ¬ Since p q [Db.empty] := by
  intro h
  cases h with
  | later h _ => nomatch h

/-- The decision of an activation is there. -/
def Stays (t : IntegrationEventType) (id : UUID) (c : Core) : Prop :=
  t = .decisionActivated → ∃ d ∈ c.decisions, d.id = id

/-- What an event of type `t` about `id` tells of has come about. -/
def Announced (t : IntegrationEventType) (id : UUID) (history : List Db) : Prop :=
  Since (Announces t id) (Stays t id) history

def IntegrationOutboxEvent.subject (e : IntegrationOutboxEvent) : IntegrationEventType × UUID :=
  (e.eventType, e.eventId)

/-- There is an event of type `t` about `id`. -/
def Recorded (t : IntegrationEventType) (id : UUID) (db : Db) : Prop :=
  (t, id) ∈ db.integrationOutboxEvents.map IntegrationOutboxEvent.subject

theorem recorded_iff {t : IntegrationEventType} {id : UUID} {db : Db} :
    Recorded t id db ↔ ∃ e ∈ db.integrationOutboxEvents, e.eventType = t ∧ e.eventId = id := by
  simp only [Recorded, List.mem_map, IntegrationOutboxEvent.subject, Prod.mk.injEq]

theorem Located.stays {t : IntegrationEventType} {id w : UUID} {c : Core} (h : Located t id w c) :
    Stays t id c := by
  rintro rfl
  obtain ⟨d, hd, hid, -⟩ := h
  exact ⟨d, hd, hid⟩

section
variable {dep : Deployment} {op : Op} {db db' : Db} {past : List Db} {t : IntegrationEventType}
  {id w : UUID} {gone : UUID → Bool}

/-! ## Sessions that are under way -/

/-- Sessions belong to decisions that have left DRAFT; an opened one has its offers. -/
structure Underway (db : Db) : Prop where
  decided : ∀ s ∈ db.votingSessions, ∀ d ∈ db.decisions, d.id = s.decisionId → d.status ≠ .draft
  offered : ∀ s ∈ db.votingSessions, s.openedAt ≠ none →
    ∃ p ∈ db.votingSessionProposals, p.votingSessionId = s.id

/-- The session that is opened gets its offers. -/
theorem VotingService.openSession_offers {env : Env} {user : User} {w d s : UUID} {ss : List Db}
    {ws : List Write} {rejected : CommitError → ServiceError}
    {ok : Db → Except ServiceError VotingSession}
    (h : (VotingService.openSession dep env user w d s).Ends ss (.ok (.commit ws ok rejected)))
    (hss : ∀ s ∈ ss, db = s) (hc : db.commit ws = .ok db')
    (ha : Announces .votingOpened id db.core db'.core) :
    ∃ p ∈ db'.votingSessionProposals, p.votingSessionId = id := by
  obtain ⟨_, _, _, _, _, _, _, c, session, proposals, voters, p, rfl, -, -, -, hsession, -, -, -, -,
    hlen, -, -, hws⟩ := VotingService.openSession_commits h
  simp only [List.forall_mem_cons] at hss
  obtain ⟨rfl, rfl, rfl, rfl, rfl, rfl, rfl, -⟩ := hss
  obtain ⟨hmem, -, -⟩ := VotingRepository.getForDecision_some hsession
  obtain ⟨s', hid, -, -, -, -, -, hrun⟩ := Db.setSession_run hmem
    (VotingService.opened session voters env.now) env.dbNow
  have hcore : db'.core.votingSessions = replace session s' db.votingSessions ∧
      db'.core.votingSessionProposals =
        db.votingSessionProposals ++ proposals.map fun q => ⟨session.id, q.id⟩ := by
    rw [(Db.commit_ok hc).1, hws, Tables.core_write_after stage_aside, Tables.write, List.foldl,
      hrun]
    exact ⟨rfl, rfl⟩
  have hpq := status_disjoint VotingSession.status
    (show VotingSessionStatus.draft ≠ .open by decide)
  simp only [Announces, hcore.1] at ha
  obtain ⟨rfl, -, -⟩ := (moves_replace db.valid.pkVotingSessions hpq hmem hid).mp ha
  obtain ⟨q, hq⟩ := List.exists_mem_of_length_pos (Nat.lt_of_lt_of_le Nat.zero_lt_two hlen)
  refine ⟨⟨session.id, q.id⟩, ?_, rfl⟩
  show _ ∈ db'.core.votingSessionProposals
  rw [hcore.2]
  exact List.mem_append_right _ (List.mem_map.mpr ⟨q, hq, rfl⟩)

/-- A deletion opens nothing; nor does anything but `open_session`. -/
theorem Op.opens_offers (h : Announces .votingOpened id db.core (op.exec dep db).2.core) :
    ∃ p ∈ (op.exec dep db).2.votingSessionProposals, p.votingSessionId = id := by
  rcases Request.exec_cases Db.commit (op.program dep) db with hs | ⟨_, _, _, _, hss, hends, hc⟩
  · rw [Op.exec, hs] at h
    exact absurd h (not_announces_self db)
  by_cases hop : op.cascades = true
  · rcases Op.exec_deletes hop with hs | ⟨d, -, -, -, hs⟩ | ⟨w, -, hs⟩
    · rw [hs] at h
      exact absurd h (not_announces_self db)
    · rw [hs] at h
      exact absurd h (not_announces_withoutDecisions _)
    · rw [hs] at h
      exact absurd h (not_announces_withoutDecisions _)
  have htype := Op.announces_eventType hends hss hc (by simpa using hop) h
  cases op <;> (try (exfalso; simp [Op.eventType] at htype; done))
  case openSession =>
    obtain ⟨_, hends⟩ := Request.map_commits hends
    exact VotingService.openSession_offers hends hss hc h

theorem underway_empty : Underway Db.empty where
  decided := fun _ hs => nomatch hs
  offered := fun _ hs => nomatch hs

theorem Underway.step (h : Underway db) (hinv : VotingInv db.core) (op : Op) :
    Underway (op.exec dep db).2 := by
  have hstep := Op.exec_step dep op db
  constructor
  · intro s' hs' d' hd' hid hdraft
    rcases hstep.draft_origin d' hd' hdraft with ⟨d, hd, hdid, hd⟩ | ⟨hrows, hsessions⟩
    · rcases hstep.session_origin s' hs' with ⟨-, -, d₁, hd₁, hid₁, hactive⟩ | ⟨s, hs, -, hsd, -⟩
      · have he : d = d₁ :=
          eq_of_key db.valid.pkDecisions ‹d ∈ db.decisions› hd₁ (hdid.trans (hid.trans hid₁.symm))
        rw [he, hactive] at hd
        nomatch hd
      · exact h.decided s hs d ‹d ∈ db.decisions› (hdid.trans (hid.trans hsd.symm)) hd
    · -- a new decision has no sessions
      have hs : s' ∈ db.votingSessions := hsessions ▸ hs'
      obtain ⟨d, hd, hk⟩ := db.valid.fkVotingSessionsDecision s' hs
      have hpk := (op.exec dep db).2.valid.pkDecisions
      rw [PrimaryKey, show (op.exec dep db).2.decisions = _ from hrows] at hpk
      exact Unique.ne_of_append hpk d hd (hk.trans hid.symm)
  · intro s' hs' ho
    rcases hstep.session_origin s' hs' with ⟨-, hnone, -⟩ | ⟨s, hs, hid, -, hopened, -⟩
    · exact absurd hnone ho
    · rcases hopened ho with ho | ⟨hdraft, hopen⟩
      · obtain ⟨p, hp, hpid⟩ := h.offered s hs ho
        exact ⟨p, hstep.offer_kept hinv hp, hpid.trans hid⟩
      · exact Op.opens_offers ⟨⟨s, hs, hid, hdraft⟩, s', hs', rfl, hopen⟩

theorem Reachable.underway (h : Reachable dep db) : Underway db := by
  induction h with
  | empty => exact underway_empty
  | step op h ih => exact ih.step h.votingInv op

theorem History.reachable (h : History dep (db :: past)) : Reachable dep db := by
  generalize hl : db :: past = l at h
  induction h generalizing db past with
  | empty =>
      cases hl
      exact .empty
  | step op _ ih =>
      cases hl
      exact (ih rfl).step op
  | rolledBack _ ih =>
      cases hl
      exact ih rfl

/-! ## What a deletion may take -/

theorem Db.sessionsOf_of_kept {s : VotingSession} (hs : s ∈ db.votingSessions)
    (hgone : gone s.decisionId = false) : db.sessionsOf gone s.id = false := by
  refine List.any_eq_false.mpr fun x hx => ?_
  by_cases hid : x.id = s.id
  · rw [eq_of_key db.valid.pkVotingSessions hx hs hid]
    simp [hgone]
  · simp [hid]

theorem Db.lock_kept (hr : db.restrictsDecisions gone = false) {l : DecisionLock}
    (hl : l ∈ db.decisionLocks) : gone l.decisionId = false := by
  simp only [Tables.restrictsDecisions, Bool.or_eq_false_iff, List.any_eq_false] at hr
  have hl' := hr.1.1.2 l hl
  simp only [Bool.or_eq_true, not_or, Bool.not_eq_true] at hl'
  exact hl'.1

/-- The offers of a session that has been opened stop the deletion of its decision. -/
theorem Underway.session_kept (h : Underway db) (hinv : VotingInv db.core)
    (hr : db.restrictsDecisions gone = false) {s : VotingSession} (hs : s ∈ db.votingSessions)
    (ho : s.openedAt ≠ none) : gone s.decisionId = false := by
  obtain ⟨p, hp, hid⟩ := h.offered s hs ho
  have hsession := (List.mem_filter.mp (hinv.offer_kept hr hp)).2
  rw [Bool.not_eq_true', hid, Tables.sessionsOf, List.any_eq_false] at hsession
  simpa using hsession s hs

/-- A subject stays that is in a decision that stays. -/
theorem Located.withoutDecisions (h : Located t id w db.core) (hu : Underway db)
    (hr : db.restrictsDecisions gone = false)
    (hkept : ∀ d ∈ db.decisions, d.workspaceId = w → d.status ≠ .draft → gone d.id = false) :
    Located t id w (db.withoutDecisions gone).core := by
  have hdecision {d : Decision} (hd : d ∈ db.decisions) (hgone : gone d.id = false) :
      d ∈ (db.withoutDecisions gone).core.decisions :=
    List.mem_filter.mpr ⟨hd, by rw [hgone]; rfl⟩
  have hsession {s : VotingSession} (hs : s ∈ db.votingSessions)
      (hgone : gone s.decisionId = false) :
      s ∈ (db.withoutDecisions gone).core.votingSessions :=
    List.mem_filter.mpr ⟨hs, by rw [Db.sessionsOf_of_kept hs hgone]; rfl⟩
  cases t with
  | decisionActivated =>
      obtain ⟨d, hd, hid, hw, hs⟩ := h
      exact ⟨d, hdecision hd (hkept d hd hw hs), hid, hw, hs⟩
  | votingOpened =>
      obtain ⟨s, hs, hid, ho, d, hd, hds, hw⟩ := h
      have hgone := hkept d hd hw (hu.decided s hs d hd hds)
      exact ⟨s, hsession hs (hds ▸ hgone), hid, ho, d, hdecision hd hgone, hds, hw⟩
  | votingClosed =>
      obtain ⟨s, hs, hid, hc, d, hd, hds, hw⟩ := h
      have hgone := hkept d hd hw (hu.decided s hs d hd hds)
      exact ⟨s, hsession hs (hds ▸ hgone), hid, hc, d, hdecision hd hgone, hds, hw⟩
  | decisionLocked =>
      obtain ⟨l, hl, hid, d, hd, hdl, hw⟩ := h
      exact ⟨l, hl, hid, d, hdecision hd (hdl ▸ Db.lock_kept hr hl), hdl, hw⟩
  | _ => exact h

/-- Of the subjects in a decision that goes only the activation goes along. -/
theorem Located.not_stays (h : Located t id w db.core) (hu : Underway db) (hinv : VotingInv db.core)
    (hr : db.restrictsDecisions gone = false)
    (hgone : ∀ d ∈ db.decisions, d.workspaceId = w → gone d.id = true) :
    ¬ Stays t id (db.withoutDecisions gone).core := by
  -- a decision of the workspace that stays
  have kept {d : Decision} (hd : d ∈ db.decisions) (hw : d.workspaceId = w) :
      gone d.id ≠ false := by
    rw [hgone d hd hw]
    decide
  intro hstays
  cases t with
  | decisionActivated =>
      obtain ⟨d, hd, hid, hw, -⟩ := h
      obtain ⟨d', hd', hid'⟩ := hstays rfl
      have hstay := (List.mem_filter.mp hd').2
      rw [hid', ← hid, hgone d hd hw] at hstay
      nomatch hstay
  | votingOpened =>
      obtain ⟨s, hs, hid, ho, d, hd, hds, hw⟩ := h
      exact kept hd hw (hds ▸ hu.session_kept hinv hr hs ho)
  | votingClosed =>
      obtain ⟨s, hs, hid, hc, d, hd, hds, hw⟩ := h
      exact kept hd hw (hds ▸ hu.session_kept hinv hr hs (Db.openedAt_of_opened db hs (.inr hc)))
  | decisionLocked =>
      obtain ⟨l, hl, hid, d, hd, hdl, hw⟩ := h
      exact kept hd hw (hdl ▸ Db.lock_kept hr hl)
  | _ => exact h

/-! ## The invariant -/

structure OutboxInv (db : Db) (past : List Db) : Prop where
  recorded : ∀ t id, Recorded t id db ↔ Announced t id (db :: past)
  located : ∀ e ∈ db.integrationOutboxEvents, Located e.eventType e.eventId e.workspaceId db.core
  closed : ∀ s ∈ db.votingSessions, s.status = .closed → Recorded .votingClosed s.id db
  locked : ∀ l ∈ db.decisionLocks, Recorded .decisionLocked l.id db

theorem outboxInv_empty : OutboxInv Db.empty [] where
  recorded := by
    intro t id
    constructor
    · intro h
      nomatch h
    · intro h
      exact absurd h not_since_empty
  located := fun _ h => nomatch h
  closed := fun _ h => nomatch h
  locked := fun _ h => nomatch h

theorem OutboxInv.place (h : OutboxInv db past) (hr : Recorded t id db) :
    ∃ w, Located t id w db.core := by
  obtain ⟨e, he, rfl, rfl⟩ := recorded_iff.mp hr
  exact ⟨e.workspaceId, h.located e he⟩

/-- What is announced in a step is recorded in it, and nothing else is. -/
theorem OutboxStep.recorded (h : OutboxStep db db') :
    Recorded t id db' ↔ Recorded t id db ∨ Announces t id db.core db'.core := by
  cases h with
  | quiet hevents hnone =>
      rw [Recorded, hevents]
      exact ⟨.inl, fun h => h.resolve_right (hnone t id)⟩
  | announced e hevents hall =>
      rw [Recorded, hevents, List.map_append, List.map_singleton, List.mem_append,
        List.mem_singleton, hall, IntegrationOutboxEvent.subject, Prod.mk.injEq, eq_comm (a := t),
        eq_comm (a := id)]
      rfl

/-- A step that deletes nothing. -/
theorem OutboxInv.exec (h : OutboxInv db past) (hdep : dep.integrationEvents = true)
    (hop : op.cascades = false) : OutboxInv (op.exec dep db).2 (db :: past) := by
  have hout : OutboxStep db (op.exec dep db).2 := Op.exec_outbox hdep hop
  constructor
  · intro t id
    rw [hout.recorded, Announced, since_cons, or_comm]
    refine or_congr_right ⟨fun hr => ⟨(h.recorded t id).mp hr, ?_⟩,
      fun hs => (h.recorded t id).mpr hs.1⟩
    obtain ⟨w, hw⟩ := h.place hr
    exact (Op.exec_located hop hw).stays
  · intro e he
    cases hout with
    | quiet hevents => exact Op.exec_located hop (h.located e (hevents ▸ he))
    | announced e' hevents _ hlocated =>
        rw [hevents] at he
        rcases List.mem_append.mp he with he | he
        · exact Op.exec_located hop (h.located e he)
        · rw [List.mem_singleton.mp he]
          exact hlocated
  · intro s' hs' hclosed
    refine hout.recorded.mpr ?_
    rcases (Op.exec_step dep op db).session_origin s' hs' with
      ⟨hdraft, -⟩ | ⟨s, hs, hid, -, -, hclose⟩
    · nomatch hdraft.symm.trans hclosed
    · rcases hclose hclosed with hwas | hopen
      · exact .inl (hid ▸ h.closed s hs hwas)
      · exact .inr ⟨⟨s, hs, hid, hopen⟩, s', hs', rfl, hclosed⟩
  · intro l hl
    refine hout.recorded.mpr ?_
    by_cases hold : ∃ l₀ ∈ db.decisionLocks, l₀.id = l.id
    · obtain ⟨l₀, hl₀, hid⟩ := hold
      exact .inl (hid ▸ h.locked l₀ hl₀)
    · exact .inr ⟨fun l₀ hl₀ hid => hold ⟨l₀, hl₀, hid⟩, l, hl, rfl⟩

/-- A step that deletes decisions, and of the events none whose subject stays. -/
theorem OutboxInv.delete (h : OutboxInv db past) (gone : UUID → Bool)
    (keep : IntegrationOutboxEvent → Bool) (hcore : db'.core = (db.withoutDecisions gone).core)
    (hevents : db'.integrationOutboxEvents = db.integrationOutboxEvents.filter keep)
    (hlocated : ∀ e ∈ db.integrationOutboxEvents, keep e = true →
      Located e.eventType e.eventId e.workspaceId (db.withoutDecisions gone).core)
    (hgone : ∀ e ∈ db.integrationOutboxEvents, keep e = false →
      ¬ Stays e.eventType e.eventId (db.withoutDecisions gone).core) :
    OutboxInv db' (db :: past) := by
  have hrecorded : ∀ t id, Recorded t id db' ↔
      Recorded t id db ∧ Stays t id (db.withoutDecisions gone).core := by
    intro t id
    simp only [recorded_iff, hevents, List.mem_filter]
    constructor
    · rintro ⟨e, ⟨he, hkeep⟩, rfl, rfl⟩
      exact ⟨⟨e, he, rfl, rfl⟩, (hlocated e he hkeep).stays⟩
    · rintro ⟨⟨e, he, rfl, rfl⟩, hstays⟩
      refine ⟨e, ⟨he, ?_⟩, rfl, rfl⟩
      by_contra hkeep
      exact hgone e he (by simpa using hkeep) hstays
  constructor
  · intro t id
    rw [hrecorded, Announced, since_cons, h.recorded, hcore]
    exact ⟨.inr, fun hs => hs.resolve_left (not_announces_withoutDecisions gone)⟩
  · intro e he
    rw [hevents] at he
    rw [hcore]
    exact hlocated e (List.mem_filter.mp he).1 (List.mem_filter.mp he).2
  · intro s hs hclosed
    have hs : s ∈ (db.withoutDecisions gone).core.votingSessions := hcore ▸ hs
    exact (hrecorded _ _).mpr ⟨h.closed s (List.mem_filter.mp hs).1 hclosed, nofun⟩
  · intro l hl
    have hl : l ∈ (db.withoutDecisions gone).core.decisionLocks := hcore ▸ hl
    exact (hrecorded _ _).mpr ⟨h.locked l hl, nofun⟩

/-- Nothing has happened. -/
theorem OutboxInv.stutter (h : OutboxInv db past) : OutboxInv db (db :: past) where
  recorded := by
    intro t id
    rw [Announced, since_cons]
    constructor
    · intro hr
      obtain ⟨w, hw⟩ := h.place hr
      exact .inr ⟨(h.recorded t id).mp hr, hw.stays⟩
    · intro hs
      exact (h.recorded t id).mpr (hs.resolve_left (not_announces_self db)).1
  located := h.located
  closed := h.closed
  locked := h.locked

/-- A deletion takes a draft decision, of which there are no events, or a workspace
with its events. -/
theorem OutboxInv.exec_delete (h : OutboxInv db past) (hreach : Reachable dep db)
    (hop : op.cascades = true) : OutboxInv (op.exec dep db).2 (db :: past) := by
  have hu := hreach.underway
  have hcases : (op.exec dep db).2 = db ∨ _ := Op.exec_deletes hop
  rcases hcases with hs | ⟨d, hd, hdraft, hr, hs⟩ | ⟨w, hr, hs⟩
  · rw [hs]
    exact h.stutter
  · refine h.delete (fun x => x = d.id) (fun _ => true) (by rw [hs]) ?_ (fun e he _ => ?_) nofun
    · rw [hs]
      exact (List.filter_eq_self.mpr fun _ _ => rfl).symm
    · refine (h.located e he).withoutDecisions hu hr fun d₀ hd₀ _ hleft => ?_
      exact decide_eq_false (Db.decision_ne hd₀ hd fun he => hleft (he.trans hdraft))
  · have hgone : ∀ d ∈ db.decisions, db.decisionsOf w d.id = decide (d.workspaceId = w) := by
      intro d hd
      rw [Tables.decisionsOf, Bool.eq_iff_iff, List.any_eq_true, decide_eq_true_eq]
      constructor
      · rintro ⟨x, hx, hxd⟩
        simp only [Bool.and_eq_true, decide_eq_true_eq] at hxd
        rw [← eq_of_key db.valid.pkDecisions hx hd hxd.1]
        exact hxd.2
      · intro hdw
        exact ⟨d, hd, by simp [hdw]⟩
    refine h.delete (db.decisionsOf w) (fun e => e.workspaceId ≠ w) (by rw [hs]; rfl)
      (by rw [hs]; rfl) (fun e he hkeep => ?_) fun e he hkeep => ?_
    · refine (h.located e he).withoutDecisions hu hr fun d hd hw _ => ?_
      rw [hgone d hd, hw]
      simpa using hkeep
    · refine (h.located e he).not_stays hu hreach.votingInv hr fun d hd hw => ?_
      rw [hgone d hd, hw]
      simpa using hkeep

theorem History.outboxInv (hdep : dep.integrationEvents = true) (h : History dep (db :: past)) :
    OutboxInv db past := by
  generalize hl : db :: past = l at h
  induction h generalizing db past with
  | empty =>
      cases hl
      exact outboxInv_empty
  | @step db₀ past₀ op hpast ih =>
      cases hl
      by_cases hop : op.cascades = true
      · exact (ih rfl).exec_delete hpast.reachable hop
      · exact (ih rfl).exec hdep (by simpa using hop)
  | rolledBack _ ih =>
      cases hl
      exact (ih rfl).stutter

/-! ## Exactness -/

def Db.eventsOf (db : Db) (t : IntegrationEventType) (id : UUID) : List IntegrationOutboxEvent :=
  db.integrationOutboxEvents.filter fun e => e.subject = (t, id)

/-- One event of type `t` about `id` if `p`, and none else. -/
structure Exactly (db : Db) (t : IntegrationEventType) (id : UUID) (p : Prop) : Prop where
  one : p → (db.eventsOf t id).length = 1
  none : ¬ p → db.eventsOf t id = []

/-- The unique constraint leaves one event to a subject. -/
theorem Exactly.of_recorded {p : Prop} (h : Recorded t id db ↔ p) : Exactly db t id p where
  one := by
    intro hp
    exact (length_filter_key db.valid.uqIntegrationOutboxEventsTypeId (t, id)).trans
      (if_pos (h.mpr hp))
  none := by
    intro hp
    refine List.filter_eq_nil_iff.mpr fun e he hsubject => hp (h.mp ?_)
    exact List.mem_map.mpr ⟨e, he, of_decide_eq_true hsubject⟩

/-- The outbox has one event for each thing that has happened, and no other. -/
structure OutboxExact (db : Db) (past : List Db) : Prop where
  activated : ∀ id, Exactly db .decisionActivated id
    (Since (Announces .decisionActivated id) (fun c => ∃ d ∈ c.decisions, d.id = id) (db :: past))
  opened : ∀ id, Exactly db .votingOpened id
    (Since (Announces .votingOpened id) (fun _ => True) (db :: past))
  closed : ∀ id, Exactly db .votingClosed id
    (∃ s ∈ db.votingSessions, s.id = id ∧ s.status = .closed)
  locked : ∀ id, Exactly db .decisionLocked id (∃ l ∈ db.decisionLocks, l.id = id)

theorem Since.congr {p : Core → Core → Prop} {q q' : Core → Prop} {history : List Db}
    (hq : ∀ c, q c ↔ q' c) : Since p q history ↔ Since p q' history := by
  have hqq : q = q' := funext fun c => propext (hq c)
  rw [hqq]

theorem OutboxInv.exact (h : OutboxInv db past) : OutboxExact db past where
  activated := by
    intro id
    refine .of_recorded ((h.recorded _ _).trans (Since.congr fun c => ?_))
    exact ⟨fun hs => hs rfl, fun hd _ => hd⟩
  opened := by
    intro id
    refine .of_recorded ((h.recorded _ _).trans (Since.congr fun c => ?_))
    exact ⟨fun _ => trivial, fun _ => nofun⟩
  closed := by
    intro id
    refine .of_recorded ⟨fun hr => ?_, ?_⟩
    · obtain ⟨w, s, hs, hid, hclosed, -⟩ := h.place hr
      exact ⟨s, hs, hid, hclosed⟩
    · rintro ⟨s, hs, rfl, hclosed⟩
      exact h.closed s hs hclosed
  locked := by
    intro id
    refine .of_recorded ⟨fun hr => ?_, ?_⟩
    · obtain ⟨w, l, hl, hid, -⟩ := h.place hr
      exact ⟨l, hl, hid⟩
    · rintro ⟨l, hl, rfl⟩
      exact h.locked l hl

/-! ## Reopening -/

/-- A step that reopens a decision announces nothing. -/
theorem CoreStep.reopens {c : Core} (hstep : CoreStep dep op db c) {d d' : Decision}
    (hd : d ∈ db.decisions) (hclosed : d.status = .closed) (hd' : d' ∈ c.decisions)
    (hid : d'.id = d.id) (hactive : d'.status = .active) : ¬ Announces t id db.core c := by
  -- the row is not the one that was there
  have changed {P : Prop} (hmem : d' ∈ db.decisions) : P := by
    have he : d' = d := eq_of_key db.valid.pkDecisions hmem hd hid
    rw [he, hclosed] at hactive
    nomatch hactive
  cases hstep with
  | moveDecision d₀ d₀' hd₀ hr =>
      rcases (mem_replace_decision hd₀).mp hd' with rfl | ⟨hmem, -⟩
      · have he : d₀ = d := eq_of_key db.valid.pkDecisions hd₀ hd (hr.id.symm.trans hid)
        intro h
        cases t with
        | decisionActivated =>
            obtain ⟨-, hdraft, -⟩ := (moves_replace db.valid.pkDecisions
              (status_disjoint Decision.status (by decide)) hd₀ hr.id).mp h
            rw [he, hclosed] at hdraft
            nomatch hdraft
        | votingOpened =>
            exact not_moves db.valid.pkVotingSessions (status_disjoint _ (by decide))
              (fun _ hs _ => hs) h
        | votingClosed =>
            exact not_moves db.valid.pkVotingSessions (status_disjoint _ (by decide))
              (fun _ hs _ => hs) h
        | decisionLocked =>
            obtain ⟨hnone, l, hl, hid⟩ := h
            exact hnone l hl hid
        | _ => exact h
      · exact changed hmem
  | addDecision row hs =>
      rcases List.mem_append.mp hd' with hmem | hmem
      · exact changed hmem
      · rw [List.mem_singleton.mp hmem, hs] at hactive
        nomatch hactive
  | editDecision d₀ d₀' hd₀ hid₀ hw hm hs =>
      rcases (mem_replace_decision hd₀).mp hd' with rfl | ⟨hmem, -⟩
      · have he : d₀ = d := eq_of_key db.valid.pkDecisions hd₀ hd (hid₀.symm.trans hid)
        rw [hs, he, hclosed] at hactive
        nomatch hactive
      · exact changed hmem
  | deleteDecisions gone => exact changed (List.mem_filter.mp hd').1
  | lock env user w d₀ d₀' session result winning snapshot hop hl hr hs =>
      rcases (mem_replace_decision hl.decision_mem).mp hd' with rfl | ⟨hmem, -⟩
      · nomatch hs.symm.trans hactive
      · exact changed hmem
  | _ => exact changed hd'

/-- The operation reopens a decision. -/
def Reopens (dep : Deployment) (db : Db) (op : Op) : Prop :=
  ∃ d ∈ db.decisions, d.status = .closed ∧
    ∃ d' ∈ (op.exec dep db).2.decisions, d'.id = d.id ∧ d'.status = .active

theorem Reopens.quiet (hdep : dep.integrationEvents = true) (h : Reopens dep db op) :
    (op.exec dep db).2.integrationOutboxEvents = db.integrationOutboxEvents := by
  obtain ⟨d, hd, hclosed, d', hd', hid, hactive⟩ := h
  by_cases hop : op.cascades = true
  · -- a deletion reopens nothing
    have same (hmem : d' ∈ db.decisions) : False := by
      rw [eq_of_key db.valid.pkDecisions hmem hd hid, hclosed] at hactive
      nomatch hactive
    rcases Op.exec_deletes hop with hs | ⟨x, -, -, -, hs⟩ | ⟨w, -, hs⟩
    · rw [hs]
    · rw [hs]
      rfl
    · rw [hs] at hd'
      exact (same (List.mem_filter.mp hd').1).elim
  · have hout : OutboxStep db (op.exec dep db).2 := Op.exec_outbox hdep (by simpa using hop)
    cases hout with
    | quiet hevents => exact hevents
    | announced e _ hall =>
        exact absurd ((hall _ _).mpr ⟨rfl, rfl⟩)
          ((Op.exec_step dep op db).reopens hd hclosed hd' hid hactive)

/-! ## The unique constraint -/

/-- All constraints but the one on the subjects of events. -/
structure OtherConstraints (t : Tables) : Prop extends WorkspaceConstraints t,
  DecisionConstraints t, ObjectionConstraints t, VotingConstraints t, VoteConstraints t,
  LockConstraints t where
  pkIntegrationOutboxEvents : PrimaryKey t.integrationOutboxEvents
  fkIntegrationOutboxEventsWorkspace :
    References IntegrationOutboxEvent.workspaceId t.integrationOutboxEvents t.workspaces

/-- The operation is ready to commit `ws` on `db`. -/
def Op.Stages (dep : Deployment) (op : Op) (db : Db) (ws : List Write) : Prop :=
  ∃ ss ok rejected, (∀ s ∈ ss, db = s) ∧
    (op.program dep).Ends ss (.ok (.commit ws ok rejected))

theorem unique_events (db : Db) :
    Unique IntegrationOutboxEvent.subject db.integrationOutboxEvents :=
  db.valid.uqIntegrationOutboxEventsTypeId

/-- An event of a new subject. -/
theorem unique_staged {env : Env} {p : Json} {ws : List Write} (hfresh : ¬ Recorded t id db)
    (h : ∀ x ∈ ws, x.target ≠ .integrationOutboxEvents ∧ x.cascades = false) :
    Unique IntegrationOutboxEvent.subject
      (db.toTables.write (stage dep env w t id p ++ ws)).integrationOutboxEvents := by
  rw [stage]
  split
  · rw [List.singleton_append, Tables.outboxEvents_staged _ h, Unique, List.map_append,
      List.map_singleton]
    refine List.nodup_append.mpr ⟨unique_events db, List.nodup_singleton _, fun a ha b hb hab => ?_⟩
    rw [hab, List.mem_singleton.mp hb] at ha
    exact hfresh ha
  · rw [List.nil_append, Tables.outboxEvents_write _ h]
    exact unique_events db

theorem locks_write_staged {ws : List Write} (h : ∀ x ∈ ws, x.aside) {loaded current : Decision}
    {at_ : Datetime} {row : DecisionLock} :
    (db.toTables.write (ws ++ [.setDecision loaded current at_, .addLock row])).decisionLocks =
      db.decisionLocks ++ [row] :=
  congrArg Core.decisionLocks (Tables.core_write_after h db.toTables)

/-- The rows that remain have different subjects still. -/
theorem unique_filter (db : Db) (keep : IntegrationOutboxEvent → Bool) :
    Unique IntegrationOutboxEvent.subject (db.integrationOutboxEvents.filter keep) :=
  List.Nodup.sublist (List.filter_sublist.map _) (unique_events db)

/-- The constraint on the subjects of events holds whenever the others do. -/
theorem OutboxInv.never_blocked (h : OutboxInv db past) {ws : List Write}
    (hstages : Op.Stages dep op db ws) (hother : OtherConstraints (db.toTables.write ws)) :
    Unique IntegrationOutboxEvent.subject (db.toTables.write ws).integrationOutboxEvents := by
  obtain ⟨ss, ok, rejected, hss, hends⟩ := hstages
  by_cases hquiet : op.cascades = false ∧ op.eventType = none
  · rw [Tables.outboxEvents_write db.toTables fun x hx => ⟨fun ht => ?_, ?_⟩]
    · exact unique_events db
    · exact Op.outboxEvents_not_mem hquiet.2 (ht ▸ Op.commits_footprint hends x hx)
    · exact Op.commits_cascades hquiet.1 hends x hx
  cases op <;> (try exact absurd ⟨rfl, rfl⟩ hquiet) <;>
    obtain ⟨_, hends⟩ := Request.map_commits hends
  case deleteWorkspace =>
    obtain ⟨_, _, _, -, -, -, rfl⟩ := WorkspaceService.delete_commits hends
    exact unique_filter db _
  case deleteDecision =>
    obtain ⟨_, _, _, _, -, -, -, -, rfl⟩ := DecisionService.delete_commits hends
    exact unique_events db
  case transitionDecision =>
    obtain ⟨_, _, _, c, p, rfl, hctx, -, -, rfl⟩ := DecisionService.transition_commits hends
    simp only [List.forall_mem_cons] at hss
    obtain ⟨rfl, rfl, rfl, -⟩ := hss
    obtain ⟨hd, -, -⟩ := DecisionRepository.getForWorkspace_some hctx.decision
    split
    · rename_i hact
      refine unique_staged (fun hr => ?_) (setDecision_apart _ _ _)
      -- the decision that is activated is a draft
      obtain ⟨w, d, hd', hid, -, hdraft⟩ := h.place hr
      exact hdraft (eq_of_key db.valid.pkDecisions hd' hd hid ▸ hact.1)
    · rw [List.nil_append, Tables.outboxEvents_write _ (setDecision_apart _ _ _)]
      exact unique_events db
  case openSession =>
    obtain ⟨_, _, _, _, _, _, _, c, session, proposals, voters, p, rfl, -, -, -, hs,
      hdraft, -, -, -,
      -, -, -, rfl⟩ := VotingService.openSession_commits hends
    simp only [List.forall_mem_cons] at hss
    obtain ⟨rfl, rfl, rfl, rfl, rfl, rfl, rfl, -⟩ := hss
    obtain ⟨hs, -, -⟩ := VotingRepository.getForDecision_some hs
    refine unique_staged (fun hr => ?_) fun x hx => ?_
    · obtain ⟨w, s, hs', hid, ho, -⟩ := h.place hr
      rw [eq_of_key db.valid.pkVotingSessions hs' hs hid] at ho
      exact ho (Db.openedAt_of_draft db hs hdraft)
    · simp only [List.mem_cons, List.not_mem_nil, or_false] at hx
      rcases hx with rfl | rfl | rfl <;> exact ⟨(by intro h; cases h), rfl⟩
  case closeSession =>
    obtain ⟨_, _, _, _, c, session, p, rfl, -, -, hs, hopen, rfl⟩ :=
      VotingService.closeSession_commits hends
    simp only [List.forall_mem_cons] at hss
    obtain ⟨rfl, rfl, rfl, rfl, -⟩ := hss
    obtain ⟨hs, -, -⟩ := VotingRepository.getForDecision_some hs
    refine unique_staged (fun hr => ?_) fun x hx => ?_
    · obtain ⟨w, s, hs', hid, hclosed, -⟩ := h.place hr
      rw [eq_of_key db.valid.pkVotingSessions hs' hs hid, hopen] at hclosed
      cases hclosed
    · rw [List.mem_singleton.mp hx]
      exact ⟨(by intro h; cases h), rfl⟩
  case createLock =>
    obtain ⟨_, _, _, _, _, _, _, _, _, _, _, _, _, c, _, _, winning, snapshot, p, -, hg, rfl⟩ :=
      DecisionLockService.create_commits hends
    refine unique_staged (fun hr => ?_) fun x hx => ?_
    · -- the identifier of the new lock is none of those there are
      obtain ⟨w, l, hl, hid, -⟩ := h.place hr
      have hpk := hother.pkDecisionLocks
      rw [PrimaryKey, locks_write_staged stage_aside] at hpk
      exact Unique.ne_of_append hpk l hl hid
    · simp only [List.mem_cons, List.not_mem_nil, or_false] at hx
      rcases hx with rfl | rfl <;> exact ⟨(by intro h; cases h), rfl⟩

theorem History.runAll : ∀ (ops : List Op) {db : Db} {past : List Db}, History dep (db :: past) →
    ∃ past', History dep (ForkRoom.runAll dep ops db :: past')
  | [], _, past, h => ⟨past, h⟩
  | op :: ops, _, _, h => History.runAll ops (h.step op)

end

/-- **The outbox is exact**: it has one event for each decision that has been
activated and is still there, for each session that has been opened, for each that
is closed and for each lock, and no other event of these types.  Reopening a
decision tells nothing, and the unique constraint never stops an operation. -/
theorem outbox_exact {dep : Deployment} (hdep : dep.integrationEvents = true) {db : Db}
    {past : List Db} (h : History dep (db :: past)) :
    OutboxExact db past ∧
      (∀ op, Reopens dep db op →
        (op.exec dep db).2.integrationOutboxEvents = db.integrationOutboxEvents) ∧
      ∀ op ws, Op.Stages dep op db ws → OtherConstraints (db.toTables.write ws) →
        Unique (fun e => (e.eventType, e.eventId))
          (db.toTables.write ws).integrationOutboxEvents := by
  have hinv := h.outboxInv hdep
  exact ⟨hinv.exact, fun op hreopens => hreopens.quiet hdep,
    fun op ws hstages hother => hinv.never_blocked hstages hother⟩

/-! ## Samples -/

def Sample.emitting : Deployment := { Sample.dep with integrationEvents := true }

/-- The operations up to the lock, each event with an identifier of its own. -/
def Sample.toLock : List Op :=
  setUp ++ [.openSession (env 10 1) ada 10 20 40, adaVotes, .closeSession (env 12 2) ada 10 20 40,
    lock]

theorem outbox_exact_sample : ∃ db past, History Sample.emitting (db :: past) ∧
    (db.integrationOutboxEvents.map IntegrationOutboxEvent.subject) =
      [(.decisionActivated, 20), (.votingOpened, 40), (.votingClosed, 40), (.decisionLocked, 60)] ∧
    OutboxExact db past := by
  obtain ⟨past, h⟩ := History.runAll Sample.toLock (@History.empty Sample.emitting)
  exact ⟨_, past, h, by decide +kernel, (outbox_exact (by decide) h).1⟩

/-- A draft decision in a workspace. -/
def Sample.toDraft : List Op :=
  [.register ada, .createWorkspace (env 1 10) ada ⟨"Lab", none⟩,
    .createDecision (env 3 20) ada 10 ⟨"Database", none, .technology, none, none⟩]

def Sample.draftDecision : Db := runAll emitting toDraft Db.empty

def Sample.activate : Op := .transitionDecision (env 4 0) ada 10 20 ⟨.active⟩

/-- The events of a workspace that is deleted are deleted with it. -/
theorem outbox_forgets : ¬ ∀ dep : Deployment, dep.integrationEvents = true →
    ∀ db past, History dep (db :: past) → ∀ id, Exactly db .decisionActivated id
      (Since (Announces .decisionActivated id) (fun _ => True) (db :: past)) := by
  intro hclaim
  obtain ⟨past, h⟩ := History.runAll Sample.toDraft (@History.empty Sample.emitting)
  have hactivated : Announces .decisionActivated 20 Sample.draftDecision.core
      (Sample.activate.exec Sample.emitting Sample.draftDecision).2.core := by
    show (∃ d ∈ Sample.draftDecision.decisions, d.id = 20 ∧ d.status = .draft) ∧
      ∃ d ∈ (Sample.activate.exec Sample.emitting Sample.draftDecision).2.decisions,
        d.id = 20 ∧ d.status = .active
    decide +kernel
  have hone := (hclaim _ (by decide) _ _
    ((h.step Sample.activate).step (.deleteWorkspace Sample.ada 10)) 20).one
      (.later (.now hactivated) trivial)
  exact absurd hone (by decide +kernel)

end ForkRoom
