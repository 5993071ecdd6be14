/-
# `Proof.Lifecycle` — the columns of a decision fit together

    status      closed_at   archived_at   locked_at   lock row
    draft       —           —             —           —
    active      —           —             —           —
    closed      set         —             —           —
    locked      set         —             set         one
    archived    —           set           —           —

Five operations write these columns, each in its own way: a transition always
rewrites two of the time stamps, a lock sets the other two, an update combines what
was sent with what is stored.  A draft comes from `create`, whose payload the request
schema has checked, or from the completion of a review, without dates.
-/
import ForkRoom.System.Steps

namespace ForkRoom

open Optimistic Rows

/-! ## Changes of one decision -/

/-- A decision as it is inserted. -/
structure Decision.Drafted (d : Decision) : Prop where
  status : d.status = .draft
  closedAt : d.closedAt = none
  archivedAt : d.archivedAt = none
  lockedAt : d.lockedAt = none
  schedule : DecisionService.reviewAfterDue d.dueAt d.reviewAt

/-- An update. -/
structure Decision.EditedTo (d d' : Decision) : Prop where
  id : d'.id = d.id
  mutable : d.Mutable
  status : d'.status = d.status
  closedAt : d'.closedAt = d.closedAt
  archivedAt : d'.archivedAt = d.archivedAt
  lockedAt : d'.lockedAt = d.lockedAt
  schedule : DecisionService.reviewAfterDue d'.dueAt d'.reviewAt

/-- A transition. -/
structure Decision.MovedTo (now : Datetime) (d d' : Decision) : Prop where
  same : d.SameRecord d'
  status : d'.status ∈ DecisionService.allowedTransitions d.status
  closedAt : d'.closedAt = if d'.status = .closed then some now else none
  archivedAt : d'.archivedAt = if d'.status = .archived then some now else none
  lockedAt : d'.lockedAt = d.lockedAt

/-- The creation of a lock. -/
structure Decision.LockedTo (now : Datetime) (d d' : Decision) : Prop where
  same : d.SameRecord d'
  active : d.status = .active
  status : d'.status = .locked
  closedAt : d'.closedAt = some now
  archivedAt : d'.archivedAt = d.archivedAt
  lockedAt : d'.lockedAt = some now

/-- What an atomic operation can do to decisions and locks. -/
inductive LifeStep (db db' : Db) : Prop where
  | same (hd : db'.decisions = db.decisions) (hl : db'.decisionLocks = db.decisionLocks)
  | add (row : Decision) (hrow : row.Drafted) (hd : db'.decisions = db.decisions ++ [row])
      (hl : db'.decisionLocks = db.decisionLocks)
  | edit (d d' : Decision) (hmem : d ∈ db.decisions) (hedit : d.EditedTo d')
      (hd : db'.decisions = replace d d' db.decisions) (hl : db'.decisionLocks = db.decisionLocks)
  | move (now : Datetime) (d d' : Decision) (hmem : d ∈ db.decisions) (hmove : d.MovedTo now d')
      (hd : db'.decisions = replace d d' db.decisions) (hl : db'.decisionLocks = db.decisionLocks)
  | lock (now : Datetime) (d d' : Decision) (l : DecisionLock) (hmem : d ∈ db.decisions)
      (hlock : d.LockedTo now d') (hlid : l.decisionId = d.id)
      (hd : db'.decisions = replace d d' db.decisions)
      (hl : db'.decisionLocks = db.decisionLocks ++ [l])
  | delete (gone : UUID → Bool) (hd : db'.decisions = db.decisions.filter fun d => !gone d.id)
      (hl : db'.decisionLocks = db.decisionLocks)

/-! ## The operations -/

/-- A changed decision is written as it is, up to `updated_at`. -/
theorem Db.setDecision_written {db : Db} {d : Decision} (hd : d ∈ db.decisions)
    (current : Decision) (at_ : Datetime) (hid : current.id = d.id)
    (hw : current.workspaceId = d.workspaceId) (hu : current.createdById = d.createdById)
    (hc : current.createdAt = d.createdAt) :
    ∃ t, (Write.setDecision d current at_).run db.toTables =
      { db.toTables with decisions := replace d { current with updatedAt := t } db.decisions } := by
  obtain ⟨d', hd', heq⟩ := update_fresh db.valid.pkDecisions hd current (d.merge current at_)
  rcases hd' with ⟨rfl, rfl⟩ | rfl
  · refine ⟨current.updatedAt, ?_⟩
    rw [Write.run, heq]
  · refine ⟨at_, ?_⟩
    have hmerge : d.merge current at_ d = { current with updatedAt := at_ } := by
      simp only [Decision.merge, column_fresh, ← hid, ← hw, ← hu, ← hc]
    rw [Write.run, heq, hmerge]

/-- The payload of a new decision. -/
def Op.drafts : Op → Option DecisionCreateRequest
  | createDecision _ _ _ payload => some payload
  | _ => none

/-- What the request schema has checked of an operation. -/
def Scheduled (_ : Db) (op : Op) : Prop :=
  ∀ payload ∈ op.drafts, DecisionService.reviewAfterDue payload.dueAt payload.reviewAt

instance (db : Db) (op : Op) : Decidable (Scheduled db op) :=
  inferInstanceAs (Decidable (∀ payload ∈ op.drafts, _))

/-- Writes that leave decisions and locks alone. -/
def Target.awayFromDecisions : Target → Bool
  | workspaces | decisions | decisionLocks => false
  | _ => true

theorem Tables.write_decisions {ws : List Write} (t : Tables)
    (h : ∀ w ∈ ws, w.target.awayFromDecisions) :
    ((t.write ws).decisions, (t.write ws).decisionLocks) = (t.decisions, t.decisionLocks) := by
  refine Tables.write_keeps (fun t => (t.decisions, t.decisionLocks)) ?_ t h
  intro w t hw
  cases w <;> first | rfl | nomatch hw

section
variable {dep : Deployment} {op : Op} {db db' : Db} {ss : List Db} {ws : List Write}
  {rejected : CommitError → ServiceError} {env : Env} {user : User} {w d r : UUID}

/-- The tables after a commit that has staged something aside first. -/
theorem Db.commit_after {ws' : List Write} (hc : db.commit (ws ++ ws') = .ok db')
    (h : ∀ w ∈ ws, w.aside) : db'.core = (db.toTables.write ws').core := by
  rw [(Db.commit_ok hc).1, Tables.core_write_after h]

theorem DecisionService.create_life {payload : DecisionCreateRequest}
    {ok : Db → Except ServiceError Decision} 
    (hok : DecisionService.reviewAfterDue payload.dueAt payload.reviewAt)
    (h : (DecisionService.create env user w payload).Ends ss (.ok (.commit ws ok rejected)))
    (hc : db.commit ws = .ok db') : LifeStep db db' := by
  simp only [DecisionService.create, workspaceContext_bind, Reads.ends_require_bind,
    Reads.ends_pure] at h
  obtain ⟨s₁, s₂, _, c, rfl, -, -, rfl, h⟩ := h
  cases h
  have heq := (Db.commit_ok hc).1
  exact .add _ ⟨rfl, rfl, rfl, rfl, hok⟩ (by rw [heq]; rfl) (by rw [heq]; rfl)

theorem DecisionService.update_life {payload : DecisionUpdateRequest}
    {ok : Db → Except ServiceError Decision}
    (h : (DecisionService.update env user w d payload).Ends ss (.ok (.commit ws ok rejected)))
    (hss : ∀ s ∈ ss, db = s) (hc : db.commit ws = .ok db') : LifeStep db db' := by
  obtain ⟨_, _, _, c, rfl, hctx, -, hm, hschedule, rfl⟩ := DecisionService.update_commits h
  simp only [List.forall_mem_cons] at hss
  obtain ⟨rfl, rfl, rfl, -⟩ := hss
  obtain ⟨hd, -, -⟩ := DecisionRepository.getForWorkspace_some hctx.decision
  obtain ⟨t, hrun⟩ := Db.setDecision_written hd (DecisionService.assign payload c.decision)
    env.dbNow rfl rfl rfl rfl
  have heq := (Db.commit_ok hc).1
  rw [Tables.write, List.foldl, hrun] at heq
  exact .edit c.decision { DecisionService.assign payload c.decision with updatedAt := t } hd
    ⟨rfl, Decision.mutable_iff.mp hm, rfl, rfl, rfl, rfl, hschedule⟩
    (by rw [heq]; rfl) (by rw [heq]; rfl)

theorem DecisionService.transition_life {payload : DecisionTransitionRequest}
    {ok : Db → Except ServiceError Decision}
    (h : (DecisionService.transition dep env user w d payload).Ends ss
      (.ok (.commit ws ok rejected)))
    (hss : ∀ s ∈ ss, db = s) (hc : db.commit ws = .ok db') : LifeStep db db' := by
  obtain ⟨_, _, _, c, _, rfl, hctx, -, ht, rfl⟩ := DecisionService.transition_commits h
  simp only [List.forall_mem_cons] at hss
  obtain ⟨rfl, rfl, rfl, -⟩ := hss
  obtain ⟨hd, -, -⟩ := DecisionRepository.getForWorkspace_some hctx.decision
  obtain ⟨t, hrun⟩ := Db.setDecision_written hd
    (DecisionService.moved c.decision payload.status env.now) env.dbNow rfl rfl rfl rfl
  have heq := Db.commit_after hc staged_aside
  rw [Tables.write, List.foldl, hrun] at heq
  have hrows := congrArg Core.decisions heq
  have hlocks := congrArg Core.decisionLocks heq
  exact .move env.now c.decision
    { DecisionService.moved c.decision payload.status env.now with updatedAt := t } hd
    ⟨⟨rfl, rfl, rfl, rfl, rfl, rfl, rfl, rfl⟩, ht, rfl, rfl, rfl⟩ hrows hlocks

theorem DecisionLockService.create_life {payload : DecisionLockCreateRequest}
    {ok : Db → Except ServiceError DecisionLock}
    (h : (DecisionLockService.create dep env user w d payload).Ends ss
      (.ok (.commit ws ok rejected)))
    (hss : ∀ s ∈ ss, db = s) (hc : db.commit ws = .ok db') : LifeStep db db' := by
  obtain ⟨_, _, _, _, _, _, _, _, _, _, _, _, ss', c, session, result, winning, snapshot,
    _, rfl, hg,
    rfl⟩ := DecisionLockService.create_commits h
  simp only [List.forall_mem_cons] at hss
  obtain ⟨rfl, rfl, rfl, rfl, rfl, rfl, rfl, rfl, rfl, rfl, rfl, rfl, -⟩ := hss
  obtain ⟨hd, -, -⟩ := DecisionRepository.getForWorkspace_some hg.context.decision
  obtain ⟨t, hrun⟩ := Db.setDecision_written hd
    (DecisionLockService.locked c.decision env.now) env.dbNow rfl rfl rfl rfl
  have heq := Db.commit_after hc stage_aside
  rw [Tables.write, List.foldl, hrun] at heq
  have hrows := congrArg Core.decisions heq
  have hlocks := congrArg Core.decisionLocks heq
  exact .lock env.now c.decision
    { DecisionLockService.locked c.decision env.now with updatedAt := t }
    (DecisionLockService.lockRow dep env user c.decision payload.votingSessionId winning.id
      snapshot)
    hd ⟨⟨rfl, rfl, rfl, rfl, rfl, rfl, rfl, rfl⟩, hg.active, rfl, rfl, rfl, rfl⟩ rfl hrows hlocks

theorem ActionReviewService.completeReview_life {payload : ReviewOutcomeRequest}
    {ok : Db → Except ServiceError ReviewOutcomeResult}
    (h : (ActionReviewService.completeReview env user w d r payload).Ends ss
      (.ok (.commit ws ok rejected)))
    (hc : db.commit ws = .ok db') : LifeStep db db' := by
  have heq := (Db.commit_ok hc).1
  obtain ⟨_, _, _, _, _, _, -, -, -, -, -, -, -, rfl⟩ :=
    ActionReviewService.completeReview_confirms h hc
  exact .same (by rw [heq]; rfl) (by rw [heq]; rfl)

/-- What a commit of an operation does to decisions and locks. -/
theorem Op.commit_life {ok : Db → Except ServiceError Response} (hok : Scheduled db op)
    (hends : (op.program dep).Ends ss (.ok (.commit ws ok rejected))) (hss : ∀ s ∈ ss, db = s)
    (hc : db.commit ws = .ok db') : LifeStep db db' := by
  have hfoot := Op.commits_footprint hends
  have heq := (Db.commit_ok hc).1
  by_cases haway : ∀ x ∈ op.footprint, x.awayFromDecisions
  · obtain ⟨hd, hl⟩ := Prod.mk.inj
      (Tables.write_decisions db.toTables fun x hx => haway _ (hfoot x hx))
    exact .same (by rw [heq, hd]) (by rw [heq, hl])
  simp only [footprint] at haway
  cases op <;> (try (exfalso; simp [Target.awayFromDecisions] at haway; done)) <;>
    obtain ⟨_, h⟩ := Request.map_commits hends
  case createWorkspace =>
    rw [WorkspaceService.create_commits h] at heq
    exact .same (by rw [heq]; rfl) (by rw [heq]; rfl)
  case updateWorkspace =>
    obtain ⟨_, _, _, -, -, -, rfl⟩ := WorkspaceService.update_commits h
    exact .same (by rw [heq]; rfl) (by rw [heq]; rfl)
  case deleteWorkspace =>
    obtain ⟨_, _, _, -, -, -, rfl⟩ := WorkspaceService.delete_commits h
    exact .delete _ (by rw [heq]; rfl) (by rw [heq]; rfl)
  case createDecision => exact DecisionService.create_life (hok _ rfl) h hc
  case updateDecision => exact DecisionService.update_life h hss hc
  case transitionDecision => exact DecisionService.transition_life h hss hc
  case deleteDecision =>
    obtain ⟨_, _, _, c, -, -, -, -, rfl⟩ := DecisionService.delete_commits h
    exact .delete (fun id => id = c.decision.id) (by rw [heq]; rfl) (by rw [heq]; rfl)
  case createLock => exact DecisionLockService.create_life h hss hc
  case completeReview => exact ActionReviewService.completeReview_life h hc

theorem Op.exec_life (hok : Scheduled db op) : LifeStep db (op.exec dep db).2 := by
  rcases Request.exec_cases Db.commit (op.program dep) db with h | ⟨_, _, _, _, hss, hends, hc⟩
  · rw [Op.exec, h]
    exact .same rfl rfl
  · exact Op.commit_life hok hends hss hc

end

/-! ## The invariant -/

/-- The columns of a decision fit together. -/
structure Decision.Consistent (db : Db) (d : Decision) : Prop where
  closedAt : d.closedAt.isSome ↔ d.status = .closed ∨ d.status = .locked
  archivedAt : d.archivedAt.isSome ↔ d.status = .archived
  lockedAt : d.lockedAt.isSome ↔ d.status = .locked
  lockRow : d.status = .locked ↔ ∃ l ∈ db.decisionLocks, l.decisionId = d.id
  schedule : DecisionService.reviewAfterDue d.dueAt d.reviewAt

/-- What the schema says of `locked_at`. -/
theorem Db.lockedAt_iff {db : Db} {d : Decision} (hd : d ∈ db.decisions) :
    d.lockedAt.isSome ↔ d.status = .locked := by
  rw [Option.isSome_iff_ne_none]
  rcases db.valid.ckDecisionsLockedState d hd with ⟨hs, hl⟩ | ⟨hs, hl⟩
  · exact iff_of_true hl hs
  · exact iff_of_false (not_not.mpr hl) hs

section
variable {db db' : Db} {d d' : Decision}

theorem Decision.Drafted.consistent (h : d.Drafted) (hd : d ∈ db.decisions)
    (hfree : ∀ l ∈ db.decisionLocks, l.decisionId ≠ d.id) : d.Consistent db where
  closedAt := by simp [h.closedAt, h.status]
  archivedAt := by simp [h.archivedAt, h.status]
  lockedAt := Db.lockedAt_iff hd
  lockRow := by
    rw [h.status]
    exact iff_of_false (by simp) fun ⟨l, hl, hid⟩ => hfree l hl hid
  schedule := h.schedule

theorem Decision.EditedTo.consistent (h : d.EditedTo d') (hd : d.Consistent db)
    (hl : db'.decisionLocks = db.decisionLocks) : d'.Consistent db' where
  closedAt := by rw [h.closedAt, h.status]; exact hd.closedAt
  archivedAt := by rw [h.archivedAt, h.status]; exact hd.archivedAt
  lockedAt := by rw [h.lockedAt, h.status]; exact hd.lockedAt
  lockRow := by rw [h.status, h.id, hl]; exact hd.lockRow
  schedule := h.schedule

/-- No transition leads to a lock, or starts from one. -/
theorem DecisionService.transitions_unlocked {s s' : DecisionStatus}
    (h : s' ∈ DecisionService.allowedTransitions s) : s ≠ .locked ∧ s ≠ .archived ∧ s' ≠ .locked ∧
      s' ≠ .draft := by
  cases s <;> cases s' <;> simp [DecisionService.allowedTransitions] at h ⊢

theorem Decision.MovedTo.consistent {now : Datetime} (h : d.MovedTo now d') (hd : d.Consistent db)
    (hmem : d' ∈ db'.decisions) (hl : db'.decisionLocks = db.decisionLocks) :
    d'.Consistent db' := by
  obtain ⟨hold, -, hnew, -⟩ := DecisionService.transitions_unlocked h.status
  refine ⟨?_, ?_, Db.lockedAt_iff hmem, ?_, ?_⟩
  · rw [h.closedAt]
    split
    · rename_i hs
      simp [hs]
    · rename_i hs
      simp [hs, hnew]
  · rw [h.archivedAt]
    split
    · rename_i hs
      simp [hs]
    · rename_i hs
      simp [hs]
  · rw [hl, h.same.id]
    exact iff_of_false hnew fun hrow => hold (hd.lockRow.mpr hrow)
  · rw [h.same.dueAt, h.same.reviewAt]
    exact hd.schedule

theorem Decision.LockedTo.consistent {now : Datetime} {l : DecisionLock} (h : d.LockedTo now d')
    (hd : d.Consistent db) (hlid : l.decisionId = d.id)
    (hl : db'.decisionLocks = db.decisionLocks ++ [l]) : d'.Consistent db' where
  closedAt := by simp [h.closedAt, h.status]
  archivedAt := by
    rw [h.archivedAt, hd.archivedAt, h.active, h.status]
    exact iff_of_false (by simp) (by simp)
  lockedAt := by simp [h.lockedAt, h.status]
  lockRow := by
    rw [h.status, h.same.id, hl]
    exact iff_of_true rfl ⟨l, List.mem_append_right _ List.mem_cons_self, hlid⟩
  schedule := by
    rw [h.same.dueAt, h.same.reviewAt]
    exact hd.schedule

/-- A decision that an operation leaves alone, as the locks of others change. -/
theorem Decision.Consistent.of_locks (h : d.Consistent db)
    (hl : (∃ l ∈ db'.decisionLocks, l.decisionId = d.id) ↔
      ∃ l ∈ db.decisionLocks, l.decisionId = d.id) : d.Consistent db' :=
  ⟨h.closedAt, h.archivedAt, h.lockedAt, h.lockRow.trans hl.symm, h.schedule⟩

/-- **One step keeps every decision consistent.** -/
theorem LifeStep.consistent (hstep : LifeStep db db') (h : ∀ d ∈ db.decisions, d.Consistent db) :
    ∀ d ∈ db'.decisions, d.Consistent db' := by
  have hkept : ∀ {x : Decision}, x ∈ db.decisions → db'.decisionLocks = db.decisionLocks →
      x.Consistent db' := fun hx hl => (h _ hx).of_locks (by rw [hl])
  intro x hx
  cases hstep with
  | same hd hl => exact hkept (hd ▸ hx) hl
  | add row hrow hd hl =>
      rw [hd] at hx
      rcases List.mem_append.mp hx with hold | hnew
      · exact hkept hold hl
      · rw [List.mem_singleton.mp hnew]
        have hmem : row ∈ db'.decisions := hd ▸ List.mem_append_right _ List.mem_cons_self
        refine hrow.consistent hmem fun l hlm hid => ?_
        -- the lock refers to a decision that was there before
        obtain ⟨y, hy, hkey⟩ := db.valid.fkDecisionLocksDecision l (hl ▸ hlm)
        have hrows : Unique Decision.id (db.decisions ++ [row]) := hd ▸ db'.valid.pkDecisions
        exact hrows.ne_of_append y hy (hkey.trans hid)
  | edit d d' hmem hedit hd hl =>
      rcases (mem_replace hmem).mp (hd ▸ hx) with rfl | ⟨hx, -⟩
      · exact hedit.consistent (h d hmem) hl
      · exact hkept hx hl
  | move now d d' hmem hmove hd hl =>
      rcases (mem_replace hmem).mp (hd ▸ hx) with rfl | ⟨hold, -⟩
      · exact hmove.consistent (h d hmem) hx hl
      · exact hkept hold hl
  | lock now d d' l hmem hlock hlid hd hl =>
      rcases (mem_replace hmem).mp (hd ▸ hx) with rfl | ⟨hx, hne⟩
      · exact hlock.consistent (h d hmem) hlid hl
      · refine (h x hx).of_locks ?_
        rw [hl]
        constructor
        · rintro ⟨y, hy, hid⟩
          rcases List.mem_append.mp hy with hy | hy
          · exact ⟨y, hy, hid⟩
          · rw [List.mem_singleton.mp hy] at hid
            exact absurd (hid.symm.trans hlid) hne
        · rintro ⟨y, hy, hid⟩
          exact ⟨y, List.mem_append_left _ hy, hid⟩
  | delete gone hd hl => exact hkept (List.mem_filter.mp (hd ▸ hx)).1 hl

/-! ## What one step does to a decision -/

/-- Locked and archived decisions stay so, drafts are drafts from the start, and the
text and the dates change in drafts and active decisions only. -/
structure Decision.Follows (d d' : Decision) : Prop where
  finished : d.status = .locked ∨ d.status = .archived → d'.status = d.status
  draft : d'.status = .draft → d.status = .draft
  text : d'.title = d.title ∧ d'.summary = d.summary ∧ d'.category = d.category ∧
    d'.dueAt = d.dueAt ∧ d'.reviewAt = d.reviewAt ∨ d.status = .draft ∨ d.status = .active

theorem Decision.Follows.refl (d : Decision) : d.Follows d :=
  ⟨fun _ => rfl, fun h => h, .inl ⟨rfl, rfl, rfl, rfl, rfl⟩⟩

theorem LifeStep.follows (hstep : LifeStep db db') (hd : d ∈ db.decisions)
    (hd' : d' ∈ db'.decisions) (hid : d'.id = d.id) : d.Follows d' := by
  have hsame : d' ∈ db.decisions → d.Follows d' := fun hmem =>
    eq_of_key db.valid.pkDecisions hmem hd hid ▸ .refl d
  -- a replaced row is this one, or another one
  have hreplaced : ∀ {x x' : Decision}, x ∈ db.decisions → x'.id = x.id → x.Follows x' →
      db'.decisions = replace x x' db.decisions → d.Follows d' := by
    intro x x' hx hxid hfollows hrows
    rcases (mem_replace hx).mp (hrows ▸ hd') with rfl | ⟨hmem, -⟩
    · exact eq_of_key db.valid.pkDecisions hx hd (hxid.symm.trans hid) ▸ hfollows
    · exact hsame hmem
  cases hstep with
  | same hrows => exact hsame (hrows ▸ hd')
  | add row _ hrows =>
      have hmem : d ∈ db'.decisions := hrows ▸ List.mem_append_left _ hd
      exact eq_of_key db'.valid.pkDecisions hd' hmem hid ▸ .refl d
  | edit x x' hx hedit hrows =>
      refine hreplaced hx hedit.id
        ⟨fun _ => hedit.status, fun hs => hedit.status ▸ hs, .inr ?_⟩ hrows
      exact hedit.mutable
  | move now x x' hx hmove hrows =>
      obtain ⟨hlocked, harchived, -, hdraft⟩ := DecisionService.transitions_unlocked hmove.status
      have hr := hmove.same
      exact hreplaced hx hr.id ⟨fun hs => absurd hs (not_or.mpr ⟨hlocked, harchived⟩),
        fun hs => absurd hs hdraft,
        .inl ⟨hr.title, hr.summary, hr.category, hr.dueAt, hr.reviewAt⟩⟩ hrows
  | lock now x x' l hx hlock _ hrows =>
      have hr := hlock.same
      refine hreplaced hx hr.id ⟨?_, ?_, .inr (.inr hlock.active)⟩ hrows
      · rw [hlock.active]
        intro hs
        rcases hs with hs | hs <;> nomatch hs
      · rw [hlock.status]
        intro hs
        nomatch hs
  | delete gone hrows => exact hsame (List.mem_filter.mp (hrows ▸ hd')).1

end

/-- **Lifecycle.**  In every state that atomic operations reach, the time stamps of every
decision are set as its status requires, a lock row is there for the locked ones only, and
a review date lies after the due date.  No operation leaves a locked or archived decision
in another status, makes a draft of anything else, or changes the text or the dates of a
decision that is neither draft nor active. -/
theorem decision_lifecycle {dep : Deployment} {db : Db}
    (hrun : AtomicRun dep Scheduled Db.empty db) :
    (∀ d ∈ db.decisions,
      (d.closedAt.isSome ↔ d.status = .closed ∨ d.status = .locked) ∧
      (d.archivedAt.isSome ↔ d.status = .archived) ∧
      (d.lockedAt.isSome ↔ d.status = .locked) ∧
      (d.status = .locked ↔ ∃ l ∈ db.decisionLocks, l.decisionId = d.id) ∧
      ∀ due ∈ d.dueAt, ∀ review ∈ d.reviewAt, due < review) ∧
    ∀ op, Scheduled db op → ∀ d ∈ db.decisions, ∀ d' ∈ (op.exec dep db).2.decisions, d'.id = d.id →
      (d.status = .locked ∨ d.status = .archived → d'.status = d.status) ∧
      (d'.status = .draft → d.status = .draft) ∧
      (d'.title = d.title ∧ d'.summary = d.summary ∧ d'.category = d.category ∧
        d'.dueAt = d.dueAt ∧ d'.reviewAt = d.reviewAt ∨ d.status = .draft ∨
        d.status = .active) := by
  have hall : ∀ d ∈ db.decisions, d.Consistent db := by
    induction hrun with
    | refl =>
        intro d hd
        nomatch hd
    | step op _ hok ih => exact (Op.exec_life hok).consistent ih
  refine ⟨fun d hd => ?_, fun op hok d hd d' hd' hid => ?_⟩
  · have h := hall d hd
    exact ⟨h.closedAt, h.archivedAt, h.lockedAt, h.lockRow,
      fun due hdue review hreview => not_le.mp (h.schedule due hdue review hreview)⟩
  · have h := LifeStep.follows (Op.exec_life hok) hd hd' hid
    exact ⟨h.finished, h.draft, h.text⟩

/-! ## A sample -/

/-- A decision with both dates, of which an update moves one and a later one clears the other;
then it is closed, and active again. -/
def Sample.rescheduled : List Op :=
  [.register ada, .createWorkspace (env 1 10) ada ⟨"Lab", none⟩,
    .createDecision (env 2 20) ada 10 ⟨"Database", none, .technology, some 50, some 60⟩,
    .updateDecision (env 3 0) ada 10 20 ⟨none, none, none, none, some (some 80)⟩,
    .updateDecision (env 4 0) ada 10 20 ⟨none, none, none, some none, none⟩,
    .transitionDecision (env 5 0) ada 10 20 ⟨.active⟩,
    .transitionDecision (env 6 0) ada 10 20 ⟨.closed⟩]

theorem decision_lifecycle_sample :
    let db := runAll Sample.dep Sample.rescheduled Db.empty
    ∃ d ∈ db.decisions, d.status = .closed ∧ d.closedAt.isSome ∧ ¬ d.archivedAt.isSome ∧
      ¬ ∃ l ∈ db.decisionLocks, l.decisionId = d.id := by
  have hrun : AtomicRun Sample.dep Scheduled Db.empty
      (runAll Sample.dep Sample.rescheduled Db.empty) :=
    AtomicRun.of_allowed (show Allowed Sample.dep Scheduled Sample.rescheduled Db.empty by
      decide +kernel)
  obtain ⟨d, hd, hs⟩ := show ∃ d ∈ (runAll Sample.dep Sample.rescheduled Db.empty).decisions,
    d.status = .closed by decide +kernel
  obtain ⟨hclosed, harchived, -, hlock, -⟩ := (decision_lifecycle hrun).1 d hd
  refine ⟨d, hd, hs, hclosed.mpr (.inl hs), ?_, ?_⟩
  · rw [harchived, hs]
    simp
  · rw [← hlock, hs]
    simp

end ForkRoom
