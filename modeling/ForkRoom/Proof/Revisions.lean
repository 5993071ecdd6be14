/-
# `Proof.Revisions` — chains of revisions

A review that reopens or supersedes a locked decision is meant to insert a successor
and a revision that leads to it.  No such completion is ever committed
(`completeReview_rejected`), so that a database keeps the revisions it has
(`Op.commit_revisions`): the empty one has none, and gets none.

What other requests could do to a chain is to take a decision or a lock away from
under it, or to unlock a predecessor.  RESTRICT keeps both in place, and that a
predecessor stays locked is due to a check constraint: a decision with `locked_at`
has the status `locked`, and nothing takes the time back.

| | |
| :-- | :-- |
| `Write.plain` | writes that touch no lock, no revision, and no `locked_at` |
| `RevisionInv` | the chains are linear, and start where there is a lock |
-/
import ForkRoom.Lib.Chain
import ForkRoom.System.Gates
import ForkRoom.System.Steps

namespace ForkRoom

open Optimistic Rows

instance : Chain.Link DecisionRevision UUID where
  root := DecisionRevision.rootDecisionId
  predecessor := DecisionRevision.predecessorDecisionId
  successor := DecisionRevision.successorDecisionId
  number := DecisionRevision.revisionNumber

/-! ## Completions that are refused -/

/-- PostgreSQL refuses a revision that comes before its successor, if no value is refused
before. -/
theorem Db.commit_early_error {db : Db} {loaded : DecisionReview} (current : DecisionReview)
    {row : DecisionRevision} {successor : Decision} (hl : loaded ∈ db.decisionReviews)
    (hrow : row.successorDecisionId = successor.id) :
    ∃ e, db.commit [.setReview loaded current, .addRevision row, .addDecision successor] =
      .error e ∧ (e = .integrity ∨ e = .data) := by
  cases hc : db.commit [.setReview loaded current, .addRevision row, .addDecision successor] with
  | ok db' => exact absurd hc (Db.commit_early hrow)
  | error e =>
      refine ⟨e, rfl, ?_⟩
      have hstale : [Write.setReview loaded current, .addRevision row, .addDecision successor].any
          (Write.stale db.toTables) = false := by
        simp [Write.stale, missing_of_mem db.valid.pkDecisionReviews hl]
      rw [Db.commit, if_neg (Bool.not_eq_true _ ▸ hstale)] at hc
      split at hc
      · exact .inl (Except.error.inj hc).symm
      · split at hc
        · exact .inl (Except.error.inj hc).symm
        · split at hc
          · split at hc
            · cases hc
            · exact .inl (Except.error.inj hc).symm
          · exact .inr (Except.error.inj hc).symm

theorem perform_early {db : Db} {loaded current : DecisionReview} {row : DecisionRevision}
    {successor : Decision} {ok : Db → Except ServiceError ReviewOutcomeResult}
    (hl : loaded ∈ db.decisionReviews) (hrow : row.successorDecisionId = successor.id) :
    ∃ e, (Intent.commit [.setReview loaded current, .addRevision row, .addDecision successor] ok
        (integrityAs .reviewConflict)).perform Db.commit db = (.error e, db) ∧
      (e = .reviewConflict ∨ e = .database .data) := by
  obtain ⟨e, hc, he⟩ := Db.commit_early_error current hl hrow
  refine ⟨integrityAs .reviewConflict e, ?_, ?_⟩
  · rw [Intent.perform, hc]
  · rcases he with rfl | rfl
    · exact .inl rfl
    · exact .inr rfl

/-- **A completion that reopens or supersedes the decision comes to nothing**: whatever the
database holds, the request ends in `ReviewConflictError`, or a text of it is refused. -/
theorem ActionReviewService.completeReview_rejected {env : Env} {user : User} {w d r : UUID}
    {payload : ReviewOutcomeRequest} {db : Db} {i : Outcome ReviewOutcomeResult}
    (hne : payload.outcome ≠ .confirmed)
    (h : (ActionReviewService.completeReview env user w d r payload).run db = .ok i) :
    ∃ e, i.perform Db.commit db = (.error e, db) ∧
      (e = .reviewConflict ∨ e = .database .data) := by
  obtain ⟨n, hends⟩ := Reads.ends_run (ActionReviewService.completeReview env user w d r payload) db
  rw [h] at hends
  have hall : ∀ s ∈ List.replicate n db, s = db := fun s hs => List.eq_of_mem_replicate hs
  simp only [ActionReviewService.completeReview, ActionReviewService.requireReview,
    Reads.bind_assoc, context_bind, requireLocked_bind, Reads.ends_require_bind,
    Reads.ends_query_bind, Reads.ends_orThrow_bind, if_neg hne, Reads.ends_pure] at hends
  obtain ⟨s₁, s₂, s₃, _, c, hss, -, -, -, s₄, _, rfl, review, hr, -, -, s₅, _, rfl, lock, -, s₆, _,
    rfl, s₇, _, rfl, rfl, rfl⟩ := hends
  rw [hss] at hall
  simp only [List.forall_mem_cons] at hall
  obtain ⟨-, -, -, rfl, -⟩ := hall
  exact perform_early (ActionReviewRepository.getReview_some hr).1 rfl

/-! ## Writes that leave the locks alone -/

/-- Writes that touch no lock, no revision, and the `locked_at` of no decision. -/
def Write.plain : Write → Bool
  | addDecision row => row.lockedAt = none
  | setDecision loaded current _ => current.lockedAt = loaded.lockedAt
  | deleteDecision _ | deleteWorkspace _ | addLock _ | addRevision _ => false
  | _ => true

/-- Tables that hold no decision, lock or revision, and whose rows take none along. -/
def Target.plain : Target → Bool
  | workspaces | decisions | decisionLocks | decisionRevisions => false
  | _ => true

theorem Write.plain_of_target {w : Write} (h : w.target.plain) : w.plain := by
  cases w <;> first | rfl | nomatch h

/-- The same locks and revisions; a decision that has a lock is still there, with its
`locked_at`, and none that was not has one. -/
structure SameLocks (t t' : Tables) : Prop where
  locks : t'.decisionLocks = t.decisionLocks
  revisions : t'.decisionRevisions = t.decisionRevisions
  kept : ∀ d ∈ t.decisions, (∃ l ∈ t.decisionLocks, l.decisionId = d.id) →
    ∃ d' ∈ t'.decisions, d'.id = d.id ∧ d'.lockedAt = d.lockedAt
  back : ∀ d' ∈ t'.decisions, d'.lockedAt ≠ none →
    ∃ d ∈ t.decisions, d.id = d'.id ∧ d.lockedAt ≠ none

theorem SameLocks.refl (t : Tables) : SameLocks t t where
  locks := rfl
  revisions := rfl
  kept d hd _ := ⟨d, hd, rfl, rfl⟩
  back d hd hl := ⟨d, hd, rfl, hl⟩

theorem SameLocks.trans {t₁ t₂ t₃ : Tables} (h : SameLocks t₁ t₂) (h' : SameLocks t₂ t₃) :
    SameLocks t₁ t₃ where
  locks := h'.locks.trans h.locks
  revisions := h'.revisions.trans h.revisions
  kept d hd hl := by
    obtain ⟨d', hd', hid, hat⟩ := h.kept d hd hl
    obtain ⟨d'', hd'', hid', hat'⟩ := h'.kept d' hd' (by rw [h.locks, hid]; exact hl)
    exact ⟨d'', hd'', hid'.trans hid, hat'.trans hat⟩
  back d'' hd'' hl := by
    obtain ⟨d', hd', hid', hl'⟩ := h'.back d'' hd'' hl
    obtain ⟨d, hd, hid, hl⟩ := h.back d' hd' hl'
    exact ⟨d, hd, hid.trans hid', hl⟩

/-- An `UPDATE` of a decision that leaves its `locked_at` alone. -/
theorem SameLocks.setDecision {loaded current : Decision} {at_ : Datetime}
    (h : current.lockedAt = loaded.lockedAt) (t : Tables) :
    SameLocks t ((Write.setDecision loaded current at_).run t) := by
  have hmerge : ∀ x : Decision, (loaded.merge current at_ x).lockedAt = x.lockedAt := by
    intro x
    show column loaded.lockedAt current.lockedAt x.lockedAt = x.lockedAt
    rw [h, column_kept]
  refine ⟨rfl, rfl, ?_, ?_⟩
  · intro d hd _
    show ∃ d' ∈ update loaded current (loaded.merge current at_) t.decisions, _
    unfold update
    split
    · exact ⟨d, hd, rfl, rfl⟩
    · refine ⟨_, mem_modify.mpr ⟨d, hd, rfl⟩, ?_⟩
      split
      · exact ⟨rfl, hmerge d⟩
      · exact ⟨rfl, rfl⟩
  · intro d' hd' hl
    replace hd' : d' ∈ update loaded current (loaded.merge current at_) t.decisions := hd'
    unfold update at hd'
    split at hd'
    · exact ⟨d', hd', rfl, hl⟩
    · obtain ⟨d, hd, rfl⟩ := mem_modify.mp hd'
      refine ⟨d, hd, ?_⟩
      by_cases hk : Keyed.key d = Keyed.key loaded
      · rw [if_pos hk] at hl ⊢
        exact ⟨rfl, hmerge d ▸ hl⟩
      · rw [if_neg hk] at hl ⊢
        exact ⟨rfl, hl⟩

theorem SameLocks.run_plain {w : Write} (h : w.plain) (t : Tables) : SameLocks t (w.run t) := by
  cases w with
  | addDecision row =>
      refine ⟨rfl, rfl, fun d hd _ => ⟨d, List.mem_append_left _ hd, rfl, rfl⟩, ?_⟩
      intro d hd hl
      rcases List.mem_append.mp hd with hd | hd
      · exact ⟨d, hd, rfl, hl⟩
      · rw [List.mem_singleton.mp hd] at hl
        exact absurd (of_decide_eq_true h) hl
  | setDecision loaded current at_ => exact .setDecision (of_decide_eq_true h) t
  | _ =>
      first
      | exact ⟨rfl, rfl, fun d hd _ => ⟨d, hd, rfl, rfl⟩, fun d hd hl => ⟨d, hd, rfl, hl⟩⟩
      | nomatch h

theorem SameLocks.write_plain : ∀ {ws : List Write} (t : Tables), (∀ w ∈ ws, w.plain) →
    SameLocks t (t.write ws) := by
  intro ws
  induction ws with
  | nil =>
      intro t _
      exact .refl t
  | cons w ws ih =>
      intro t h
      exact (SameLocks.run_plain (h w List.mem_cons_self) t).trans
        (ih _ fun x hx => h x (List.mem_cons_of_mem _ hx))

/-- A cascade that meets no reference from a lock. -/
theorem SameLocks.withoutDecisions {t : Tables} {gone : UUID → Bool}
    (h : t.restrictsDecisions gone = false) : SameLocks t (t.withoutDecisions gone) := by
  simp only [Tables.restrictsDecisions, Bool.or_eq_false_iff, List.any_eq_false] at h
  obtain ⟨⟨⟨-, hlocks⟩, -⟩, -⟩ := h
  refine ⟨rfl, rfl, ?_, ?_⟩
  · rintro d hd ⟨l, hl, hid⟩
    refine ⟨d, List.mem_filter.mpr ⟨hd, ?_⟩, rfl, rfl⟩
    have hfree := hlocks l hl
    simp only [Bool.or_eq_true, not_or, Bool.not_eq_true] at hfree
    rw [← hid, hfree.1]
    rfl
  · intro d hd hl
    exact ⟨d, (List.mem_filter.mp hd).1, rfl, hl⟩

section
variable {dep : Deployment} {op : Op} {db db' : Db} {ss : List Db} {ws : List Write}
  {rejected : CommitError → ServiceError}

/-- **No request adds a revision.** -/
theorem Op.commit_revisions {ok : Db → Except ServiceError Response}
    (hends : (op.program dep).Ends ss (.ok (.commit ws ok rejected)))
    (hc : db.commit ws = .ok db') : db'.decisionRevisions = db.decisionRevisions := by
  rw [(Db.commit_ok hc).1]
  by_cases haside : Target.decisionRevisions ∉ op.footprint
  · exact Tables.revisions_write _ fun x hx ht => haside (ht ▸ Op.commits_footprint hends x hx)
  cases op <;> (try (exfalso; simp [footprint] at haside; done))
  case completeReview =>
    obtain ⟨_, h⟩ := Request.map_commits hends
    obtain ⟨_, _, _, _, _, _, -, -, -, -, -, -, -, rfl⟩ :=
      ActionReviewService.completeReview_confirms h hc
    rfl

/-- The request that inserts a lock. -/
def Op.locks : Op → Bool
  | createLock .. => true
  | _ => false

/-- All other requests leave locks and revisions alone. -/
theorem Op.commit_sameLocks {ok : Db → Except ServiceError Response} (hop : op.locks = false)
    (hends : (op.program dep).Ends ss (.ok (.commit ws ok rejected)))
    (hc : db.commit ws = .ok db') : SameLocks db.toTables db'.toTables := by
  have hfoot := Op.commits_footprint hends
  obtain ⟨heq, hr⟩ := Db.commit_ok hc
  rw [heq]
  -- requests with no decision in their footprint
  by_cases hplain : ∀ x ∈ op.footprint, x.plain
  · exact .write_plain _ fun x hx => Write.plain_of_target (hplain _ (hfoot x hx))
  cases op <;> (try (exfalso; simp [footprint, Target.plain] at hplain; done)) <;>
    (try (exfalso; simp [locks] at hop; done)) <;> obtain ⟨_, h⟩ := Request.map_commits hends
  case createWorkspace =>
    exact .write_plain _ (by simp [WorkspaceService.create_commits h, Write.plain])
  case updateWorkspace =>
    obtain ⟨_, _, _, -, -, -, rfl⟩ := WorkspaceService.update_commits h
    exact .write_plain _ (by simp [Write.plain])
  case deleteWorkspace =>
    obtain ⟨_, _, _, -, -, -, rfl⟩ := WorkspaceService.delete_commits h
    have hsame := SameLocks.withoutDecisions (hr _ List.mem_cons_self)
    exact ⟨hsame.locks, hsame.revisions, hsame.kept, hsame.back⟩
  case createDecision =>
    obtain ⟨_, _, _, row, -, -, -, rfl, -, -, -, -, hl⟩ := DecisionService.create_commits h
    exact .write_plain _ (by simp [Write.plain, hl])
  case updateDecision =>
    obtain ⟨_, _, _, _, -, -, -, -, -, rfl⟩ := DecisionService.update_commits h
    exact .write_plain _ (by simp [Write.plain, DecisionService.assign])
  case transitionDecision =>
    obtain ⟨_, _, _, _, _, -, -, -, -, rfl⟩ := DecisionService.transition_commits h
    refine .write_plain _ fun x hx => ?_
    rcases List.mem_append.mp hx with hx | hx
    · split at hx
      · rw [mem_stage hx]
        rfl
      · cases hx
    · rw [List.mem_singleton.mp hx]
      exact decide_eq_true rfl
  case deleteDecision =>
    obtain ⟨_, _, _, _, -, -, -, -, rfl⟩ := DecisionService.delete_commits h
    exact .withoutDecisions (hr _ List.mem_cons_self)
  case completeReview =>
    obtain ⟨_, _, _, _, _, _, -, -, -, -, -, -, -, rfl⟩ :=
      ActionReviewService.completeReview_confirms h hc
    exact .write_plain _ (by simp [Write.plain])

/-! ## What holds of every state -/

/-- A decision is locked iff it has a lock, and revisions form linear chains that start
where there is a lock. -/
structure RevisionInv (db : Db) : Prop where
  locked : ∀ d ∈ db.decisions, d.status = .locked → ∃ l ∈ db.decisionLocks, l.decisionId = d.id
  lock : ∀ l ∈ db.decisionLocks, ∃ d ∈ db.decisions, d.id = l.decisionId ∧ d.status = .locked
  source : ∀ r ∈ db.decisionRevisions, ∃ l ∈ db.decisionLocks, l.id = r.sourceLockId ∧
    l.decisionId = r.predecessorDecisionId
  chains : Chain.Linear db.decisionRevisions

theorem revisionInv_empty : RevisionInv Db.empty where
  locked _ h := nomatch h
  lock _ h := nomatch h
  source _ h := nomatch h
  chains := by constructor <;> exact fun _ h => nomatch h

/-- The status `locked` goes with a `locked_at`. -/
theorem Db.locked_iff {d : Decision} (hd : d ∈ db.decisions) :
    d.status = .locked ↔ d.lockedAt ≠ none := by
  rcases db.valid.ckDecisionsLockedState d hd with ⟨hst, hat⟩ | ⟨hst, hat⟩
  · exact ⟨fun _ => hat, fun _ => hst⟩
  · exact ⟨fun h => absurd h hst, fun h => absurd hat h⟩

theorem RevisionInv.sameLocks (h : RevisionInv db) (hs : SameLocks db.toTables db'.toTables) :
    RevisionInv db' := by
  have hlocks : db'.decisionLocks = db.decisionLocks := hs.locks
  have hrevisions : db'.decisionRevisions = db.decisionRevisions := hs.revisions
  refine ⟨?_, ?_, ?_, hrevisions ▸ h.chains⟩
  · intro d' hd' hst
    obtain ⟨d, hd, hid, hat⟩ := hs.back d' hd' ((Db.locked_iff hd').mp hst)
    rw [hlocks, ← hid]
    exact h.locked d hd ((Db.locked_iff hd).mpr hat)
  · intro l hl
    rw [hlocks] at hl
    obtain ⟨d, hd, hid, hst⟩ := h.lock l hl
    obtain ⟨d', hd', hid', hat⟩ := hs.kept d hd ⟨l, hl, hid.symm⟩
    refine ⟨d', hd', hid'.trans hid, (Db.locked_iff hd').mpr ?_⟩
    rw [hat]
    exact (Db.locked_iff hd).mp hst
  · rw [hlocks, hrevisions]
    exact h.source

/-! ## Locks -/

variable {env : Env} {user : User} {w d r : UUID}

/-- A lock comes with a locked decision. -/
theorem Op.createLock_chains {payload : DecisionLockCreateRequest}
    {ok : Db → Except ServiceError Response} (hI : RevisionInv db)
    (hends : ((Op.createLock env user w d payload).program dep).Ends ss
      (.ok (.commit ws ok rejected)))
    (hc : db.commit ws = .ok db') : RevisionInv db' := by
  have hrevisions := Op.commit_revisions hends hc
  obtain ⟨_, h⟩ := Request.map_commits hends
  obtain ⟨_, _, _, _, _, _, _, _, _, _, _, _, _, c, _, _, winning, snapshot, x, -, hg, hx, hid,
    hcore⟩ := DecisionLockService.create_locks h hc
  have hdecisions : db'.decisions = replace x
      (c.decision.merge (DecisionLockService.locked c.decision env.now) env.dbNow x) db.decisions :=
    congrArg Core.decisions hcore
  have hlocks : db'.decisionLocks = db.decisionLocks ++
      [DecisionLockService.lockRow dep env user c.decision payload.votingSessionId winning.id
        snapshot] := congrArg Core.decisionLocks hcore
  have hst : (c.decision.merge (DecisionLockService.locked c.decision env.now) env.dbNow x).status =
      .locked := by
    refine column_changed ?_ _
    intro he
    rw [hg.active] at he
    cases he
  refine ⟨?_, ?_, ?_, hrevisions ▸ hI.chains⟩
  · intro d' hd' hl
    rw [hdecisions] at hd'
    rw [hlocks]
    rcases (mem_replace hx).mp hd' with rfl | ⟨hd', -⟩
    · exact ⟨_, List.mem_append_right _ List.mem_cons_self, hid.symm⟩
    · obtain ⟨l, hlm, hld⟩ := hI.locked d' hd' hl
      exact ⟨l, List.mem_append_left _ hlm, hld⟩
  · intro l hl
    rw [hlocks] at hl
    rw [hdecisions]
    rcases List.mem_append.mp hl with hl | hl
    · obtain ⟨d', hd', hid', hst'⟩ := hI.lock l hl
      by_cases hk : d'.id = x.id
      · exact ⟨_, (mem_replace hx).mpr (Or.inl rfl), hk.symm.trans hid', hst⟩
      · exact ⟨d', (mem_replace hx).mpr (Or.inr ⟨hd', hk⟩), hid', hst'⟩
    · rw [List.mem_singleton.mp hl]
      exact ⟨_, (mem_replace hx).mpr (Or.inl rfl), hid, hst⟩
  · intro r hr
    rw [hrevisions] at hr
    obtain ⟨l, hl, hsource⟩ := hI.source r hr
    rw [hlocks]
    exact ⟨l, List.mem_append_left _ hl, hsource⟩

/-- What every commit keeps, whatever its request has read and however late it comes. -/
theorem Op.commit_chains {ok : Db → Except ServiceError Response} (hI : RevisionInv db)
    (hends : (op.program dep).Ends ss (.ok (.commit ws ok rejected)))
    (hc : db.commit ws = .ok db') : RevisionInv db' := by
  cases op with
  | createLock => exact Op.createLock_chains hI hends hc
  | _ => exact hI.sameLocks (Op.commit_sameLocks rfl hends hc)

end

/-- `list_revisions` lists the revisions of the root it has looked up. -/
theorem ActionReviewService.listRevisions_run {user : User} {w d : UUID} {db : Db}
    {l : List DecisionRevision}
    (h : (ActionReviewService.listRevisions user w d).run db = .ok (.reply l)) :
    l = ActionReviewRepository.listRevisions (ActionReviewRepository.getRevisionRoot d db) db := by
  obtain ⟨n, hends⟩ := Reads.ends_run (ActionReviewService.listRevisions user w d) db
  rw [h] at hends
  have hall : ∀ s ∈ List.replicate n db, s = db := fun s hs => List.eq_of_mem_replicate hs
  simp only [ActionReviewService.listRevisions, ActionReviewService.context_bind,
    Reads.ends_query_bind, Reads.ends_pure] at hends
  obtain ⟨_, _, _, _, _, hss, -, s₄, _, rfl, s₅, _, rfl, rfl, hl⟩ := hends
  rw [hss] at hall
  simp only [List.forall_mem_cons] at hall
  obtain ⟨-, -, -, rfl, rfl, -⟩ := hall
  cases hl
  rfl

/-! ## The runs -/

section
variable {dep : Deployment} {db₀ db : Db} {c c' : Configuration} {a : Action Op}

theorem Reachable.revisionInv (h : Reachable dep db) : RevisionInv db := by
  induction h with
  | empty => exact revisionInv_empty
  | @step db op h ih =>
      rcases Request.exec_cases Db.commit (op.program dep) db with hs | ⟨_, _, _, _, _, hends, hc⟩
      · rw [Op.exec, hs]
        exact ih
      · exact Op.commit_chains ih hends hc

/-- **An interleaving keeps the chains**, and the revisions themselves. -/
theorem RevisionInv.run {ok : Configuration → Action Op → Prop} (h : RevisionInv db₀)
    (hrun : Interleaving dep ok (Config.idle db₀) c) :
    RevisionInv c.state ∧ c.state.decisionRevisions = db₀.decisionRevisions := by
  obtain ⟨hinv, hsame, -⟩ := Run.rely_guarantee (P := fun _ => True) (I := RevisionInv)
    (R := fun s s' => s'.decisionRevisions = s.decisionRevisions) (fun _ => rfl)
    (fun h h' => h'.trans h) (fun _ _ _ => trivial)
    (fun _ _ _ _ _ _ _ _ hI _ hends hc =>
      ⟨Op.commit_chains hI hends hc, Op.commit_revisions hends hc⟩)
    hrun (Config.only_idle _) h (Config.traced_idle _) (Config.below_idle _)
  exact ⟨hinv, hsame⟩

/-- The decisions that a revision is about. -/
def DecisionRevision.involves (r : DecisionRevision) (d : UUID) : Prop :=
  d = r.rootDecisionId ∨ d = r.predecessorDecisionId ∨ d = r.successorDecisionId

theorem RevisionInv.root_of_involves (h : RevisionInv db) {r : DecisionRevision}
    (hr : r ∈ db.decisionRevisions) {d : UUID} (hd : r.involves d) :
    ActionReviewRepository.getRevisionRoot d db = r.rootDecisionId := by
  rcases hd with hd | hd | hd
  · rw [hd]
    exact Chain.rootOf_root h.chains hr
  · rw [hd]
    exact Chain.rootOf_predecessor h.chains hr
  · rw [hd]
    exact Chain.rootOf_successor h.chains hr

/-- **Revision chains are linear**, in every interleaving of any operations that starts
from a database in which they are, as they are in the empty one: the revisions of a root
are numbered from one without a gap, each starts where the one before it ends, the first
one at the root, and at a locked decision whose lock it names.  A decision is in one chain
only; the root of that is what is looked up for it, so that `list_revisions` answers the
same list for every decision of a chain. -/
theorem revisions_linear : RevisionInv Db.empty ∧
    ∀ (dep : Deployment) (ok : Configuration → Action Op → Prop) (db₀ : Db) (c : Configuration),
      RevisionInv db₀ → Interleaving dep ok (Config.idle db₀) c → ∀ root : UUID,
    let revisions := ActionReviewRepository.listRevisions root c.state
    (∀ r, r ∈ revisions ↔ r ∈ c.state.decisionRevisions ∧ r.rootDecisionId = root) ∧
    revisions.map DecisionRevision.revisionNumber =
      (List.range revisions.length).map (fun i : Nat => (i : Int) + 1) ∧
    (∀ r ∈ revisions[0]?, r.predecessorDecisionId = root) ∧
    (∀ i, ∀ r ∈ revisions[i]?, ∀ r' ∈ revisions[i + 1]?,
      r'.predecessorDecisionId = r.successorDecisionId) ∧
    (∀ r ∈ revisions,
      (∃ d ∈ c.state.decisions, d.id = r.predecessorDecisionId ∧ d.status = .locked) ∧
      ∃ l ∈ c.state.decisionLocks, l.id = r.sourceLockId ∧ l.decisionId = r.predecessorDecisionId) ∧
    ∀ r ∈ revisions, ∀ d, r.involves d →
      (∀ r' ∈ c.state.decisionRevisions, r'.involves d → r'.rootDecisionId = root) ∧
      ActionReviewRepository.getRevisionRoot d c.state = root ∧
      ∀ user w l, (ActionReviewService.listRevisions user w d).run c.state = .ok (.reply l) →
        l = revisions := by
  refine ⟨revisionInv_empty, fun dep ok db₀ c h hrun root => ?_⟩
  have hinv := (h.run hrun).1
  have hn : c.state.decisionRevisions.Nodup := c.state.valid.pkDecisionRevisions.of_map _
  have hmem : ∀ r, r ∈ ActionReviewRepository.listRevisions root c.state ↔
      r ∈ c.state.decisionRevisions ∧ r.rootDecisionId = root := fun _ => Chain.mem_listing
  refine ⟨hmem, Chain.listing_numbers hinv.chains hn, fun r hr => ?_, fun i r hr r' hr' => ?_,
    fun r hr => ?_, fun r hr d hd => ?_⟩
  · exact Chain.listing_head hinv.chains hn hr
  · exact Chain.listing_next hinv.chains hn hr hr'
  · obtain ⟨l, hl, hid, hld⟩ := hinv.source r ((hmem r).mp hr).1
    obtain ⟨d, hd, hdid, hst⟩ := hinv.lock l hl
    exact ⟨⟨d, hd, hdid.trans hld, hst⟩, l, hl, hid, hld⟩
  · obtain ⟨hr, hroot⟩ := (hmem r).mp hr
    have hrootd : ActionReviewRepository.getRevisionRoot d c.state = root :=
      (hinv.root_of_involves hr hd).trans hroot
    refine ⟨fun r' hr' hd' => ?_, hrootd, fun user w l hl => ?_⟩
    · exact (hinv.root_of_involves hr' hd').symm.trans hrootd
    · rw [ActionReviewService.listRevisions_run hl, hrootd]

/-- The locked decision is to be reviewed. -/
def Sample.reviewed : Db :=
  ((Op.createReview (env 14 70) ada 10 20 ⟨20, none⟩).exec Sample.dep Sample.locked).2

theorem Sample.reviewed_reachable : Reachable Sample.dep Sample.reviewed :=
  Sample.locked_reachable.step _

def Sample.newFacts : ReviewOutcomeRequest := ⟨.reopened, "New facts", none, none, none⟩

/-- The tables as they would be, had the review reopened the decision. -/
def Sample.revisedTables : Tables :=
  { reviewed.toTables with
    decisions := reviewed.decisions ++
      reviewed.decisions.map fun d => ActionReviewService.successor (env 30 80) ada d newFacts
    decisionReviews := reviewed.decisionReviews.map fun v =>
      ActionReviewService.completed v newFacts 1 30
    decisionRevisions := [⟨81, 20, 20, 80, 60, 70, 1, 1, .reopened, "New facts"⟩] }

theorem Sample.revised_fits : Fits revisedTables := by decide +kernel

set_option synthInstance.maxSize 512 in
theorem Sample.revised_valid : Constraints revisedTables := by decide +kernel

def Sample.revised : Db := ⟨revisedTables, revised_fits, revised_valid⟩

/-- The database of a chain with one revision. -/
theorem Sample.revised_inv : RevisionInv revised where
  locked := by decide +kernel
  lock := by decide +kernel
  source := by decide +kernel
  chains := by constructor <;> decide +kernel

/-- The decision is reviewed again: one request is to reopen it, another to delete the
draft that succeeds it.  Both fail. -/
def Sample.reopenedAgain : List (Action Op) :=
  oneByOne 0
    [(.createReview (env 31 71) ada 10 20 ⟨40, none⟩, 3),
      (.completeReview (env 50 82) ada 10 20 71 newFacts, 7),
      (.deleteDecision ada 10 80, 3)]

theorem revisions_linear_sample : ∃ c,
    Interleaving Sample.dep (fun _ _ => True) (Config.idle Sample.revised) c ∧
      (c.state.decisionReviews.map fun v => (v.id, v.status)) =
        [(70, .completed), (71, .scheduled)] ∧
      c.state.decisionRevisions.map DecisionRevision.rootDecisionId = [20] ∧
      ∀ r ∈ ActionReviewRepository.listRevisions 20 c.state,
        ActionReviewRepository.getRevisionRoot r.successorDecisionId c.state = 20 := by
  obtain ⟨c, hc, h⟩ := Option.map_eq_some_iff.mp (show ((Config.idle Sample.revised).acts
    Db.commit (Op.program Sample.dep) (fun _ _ => True) Sample.reopenedAgain).map (fun c =>
      (c.state.decisionReviews.map (fun v => (v.id, v.status)),
        c.state.decisionRevisions.map DecisionRevision.rootDecisionId)) =
          some ([(70, .completed), (71, .scheduled)], [20]) by decide +kernel)
  obtain ⟨hreviews, hroots⟩ := Prod.mk.inj h
  have hrun : Interleaving Sample.dep (fun _ _ => True) (Config.idle Sample.revised) c :=
    Run.of_acts hc
  obtain ⟨-, -, -, -, -, hchain⟩ :=
    revisions_linear.2 Sample.dep (fun _ _ => True) Sample.revised c Sample.revised_inv hrun 20
  exact ⟨c, hrun, hreviews, hroots, fun r hr => (hchain r hr _ (Or.inr (Or.inr rfl))).2.1⟩

end

end ForkRoom
