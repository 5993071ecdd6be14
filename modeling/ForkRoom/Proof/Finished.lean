/-
# `Proof.Finished` — finished actions and reviews stay finished

No request that moves an action or a review locks the row it has read, so by the time of
its commit another request may have finished it.  What the commit then writes is the
columns that differ from the values read: the new status, and the timestamp that goes
with it.  The timestamp of the other request stays, and the check constraints compare
the two:

    stored          the stale request writes       the row would be
    completed       an open status                 open with completed_at
    completed       cancelled, cancelled_at        cancelled with completed_at
    completed       completed, completed_at        completed, the time overwritten
    completed       no status                      completed

and likewise over a cancelled row.  So every commit that gets through leaves a finished
row in its status (`ActionDb.Settles`), in any interleaving with any other requests.
-/
import ForkRoom.Proof.Reviews

namespace ForkRoom

open Optimistic Rows

/-! ## The requests -/

abbrev ActionConfiguration :=
  Config ActionDb ActionWrite CommitError ActionError (Response ⊕ ImplementationActionRow) ActionOp

/-- Any number of requests, interleaved at their reads and commits in any way. -/
abbrev ActionInterleaving (dep : Deployment) :=
  Run ActionDb.commit (ActionOp.program dep) fun _ _ => True

/-! ## Finished rows -/

def ActionStatus.finished (s : ActionStatus) : Bool := s = .completed || s = .cancelled

def ReviewStatus.finished (s : ReviewStatus) : Bool := s = .completed || s = .cancelled

theorem ActionStatus.eq_of_finished {s : ActionStatus} (h : s.finished) :
    s = .completed ∨ s = .cancelled := by
  simpa [finished] using h

theorem ReviewStatus.eq_of_finished {s : ReviewStatus} (h : s.finished) :
    s = .completed ∨ s = .cancelled := by
  simpa [finished] using h

/-- The timestamps of an action are set as its status requires. -/
structure ImplementationActionRow.Stamped (a : ImplementationActionRow) : Prop where
  completed : a.status = .completed ↔ a.completedAt ≠ none
  cancelled : a.status = .cancelled ↔ a.cancelledAt ≠ none

/-- The columns of the end of a review are set as its status requires. -/
structure DecisionReview.Stamped (v : DecisionReview) : Prop where
  completed : v.status = .completed ↔ v.completedAt ≠ none
  completedBy : v.status = .completed ↔ v.completedById ≠ none
  outcome : v.status = .completed ↔ v.outcome ≠ none
  cancelled : v.status = .cancelled ↔ v.cancelledAt ≠ none
  cancelledBy : v.status = .cancelled ↔ v.cancelledById ≠ none

theorem ActionDb.stamped (s : ActionDb) : ∀ a ∈ s.implementationActions, a.Stamped := by
  intro a ha
  have hc := s.valid.ckImplementationActionsCompletedState a ha
  have hx := s.valid.ckImplementationActionsCancelledState a ha
  exact ⟨⟨fun h => (hc.resolve_right fun h' => h'.1 h).2,
      fun h => by_contra fun h' => h (hc.resolve_left fun hl => h' hl.1).2⟩,
    ⟨fun h => (hx.resolve_right fun h' => h'.1 h).2,
      fun h => by_contra fun h' => h (hx.resolve_left fun hl => h' hl.1).2⟩⟩

theorem DecisionReview.TerminalState.stamps {v : DecisionReview} (h : v.TerminalState) :
    v.Stamped := by
  rcases h with ⟨hst, h₁, h₂, h₃, h₄, h₅⟩ | ⟨hst, h₁, h₂, h₃, h₄, h₅⟩ | ⟨hst, h₁, h₂, h₃, h₄, h₅⟩
  all_goals constructor <;> simp [hst, h₁, h₂, h₃, h₄, h₅]

/-- Finished rows are still there, in the same status. -/
structure ActionDb.Settles (s s' : ActionDb) : Prop where
  actions : ∀ a ∈ s.implementationActions, a.status.finished →
    ∃ a' ∈ s'.implementationActions, a'.id = a.id ∧ a'.status = a.status
  reviews : ∀ v ∈ s.db.decisionReviews, v.status.finished →
    ∃ v' ∈ s'.db.decisionReviews, v'.id = v.id ∧ v'.status = v.status

theorem ActionDb.Settles.refl (s : ActionDb) : s.Settles s where
  actions a ha _ := ⟨a, ha, rfl, rfl⟩
  reviews v hv _ := ⟨v, hv, rfl, rfl⟩

theorem ActionDb.Settles.trans {s₁ s₂ s₃ : ActionDb} (h : s₁.Settles s₂) (h' : s₂.Settles s₃) :
    s₁.Settles s₃ where
  actions a ha hf := by
    obtain ⟨a', ha', hid, hst⟩ := h.actions a ha hf
    obtain ⟨a'', ha'', hid', hst'⟩ := h'.actions a' ha' (hst ▸ hf)
    exact ⟨a'', ha'', hid'.trans hid, hst'.trans hst⟩
  reviews v hv hf := by
    obtain ⟨v', hv', hid, hst⟩ := h.reviews v hv hf
    obtain ⟨v'', hv'', hid', hst'⟩ := h'.reviews v' hv' (hst ▸ hf)
    exact ⟨v'', hv'', hid'.trans hid, hst'.trans hst⟩

/-- The rows finished in `rows` are in `rows'` when one of them is replaced by a row of its
own status. -/
theorem finished_replace {α σ : Type} [Keyed α UUID] {rows : List α} (hn : PrimaryKey rows)
    {status : α → σ} {finished : σ → Bool} {x x' : α} (hx : x ∈ rows)
    (hkey : Keyed.key x' = Keyed.key x) (hst : finished (status x) → status x' = status x) :
    ∀ a ∈ rows, finished (status a) →
      ∃ a' ∈ replace x x' rows, Keyed.key a' = Keyed.key a ∧ status a' = status a := by
  intro a ha hf
  by_cases hax : Keyed.key a = Keyed.key x
  · rw [eq_of_key hn ha hx hax] at hf ⊢
    exact ⟨x', (mem_replace hx).mpr (Or.inl rfl), hkey, hst hf⟩
  · exact ⟨a, (mem_replace hx).mpr (Or.inr ⟨ha, hax⟩), rfl, rfl⟩

/-! ## Actions -/

section
variable {row x : ImplementationActionRow} {status : ActionStatus} {now at_ : Datetime}

/-- An action still open has neither timestamp. -/
theorem ImplementationActionRow.Stamped.open (h : row.Stamped)
    (hopen : row.status.finished = false) :
    row.completedAt = none ∧ row.cancelledAt = none := by
  simp only [ActionStatus.finished, Bool.or_eq_false_iff, decide_eq_false_iff_not] at hopen
  exact ⟨by_contra fun hc => hopen.1 (h.completed.mpr hc),
    by_contra fun hc => hopen.2 (h.cancelled.mpr hc)⟩

/-- The status an action may go to is another one, and it goes there from an open one. -/
theorem ACTION_TRANSITIONS_spec {s s' : ActionStatus} (h : s' ∈ ACTION_TRANSITIONS s) :
    s' ≠ s ∧ s.finished = false := by
  cases s <;> cases s' <;> simp_all [ACTION_TRANSITIONS, ActionStatus.finished]

/-- What a stale transition writes: the status, and the timestamp that goes with it. -/
theorem ImplementationActionRow.merge_transitioned (x : ImplementationActionRow)
    (now at_ : Datetime) (hne : status ≠ row.status)
    (hc : row.completedAt = none) (hx : row.cancelledAt = none) :
    let y := row.merge (ActionReviewService.transitioned row status now) at_ x
    y.status = status ∧ (status ≠ .completed → y.completedAt = x.completedAt) ∧
      (status ≠ .cancelled → y.cancelledAt = x.cancelledAt) := by
  refine ⟨column_changed hne _, fun hs => ?_, fun hs => ?_⟩
  · simp only [merge, ActionReviewService.transitioned, hc, if_neg hs, column_kept]
  · simp only [merge, ActionReviewService.transitioned, hx, if_neg hs, column_kept]

/-- **The timestamp of the stored row pins its status**: no row that satisfies the check
constraints has another. -/
theorem ImplementationActionRow.Stamped.pinned {y : ImplementationActionRow} (hx : x.Stamped)
    (hy : y.Stamped) (hc : y.status ≠ .completed → y.completedAt = x.completedAt)
    (hcc : y.status ≠ .cancelled → y.cancelledAt = x.cancelledAt) (hf : x.status.finished) :
    y.status = x.status := by
  by_contra hne
  rcases ActionStatus.eq_of_finished hf with hst | hst
  · have hkept := hc (hst ▸ hne)
    exact hne ((hy.completed.mpr (hkept ▸ hx.completed.mp hst)).trans hst.symm)
  · have hkept := hcc (hst ▸ hne)
    exact hne ((hy.cancelled.mpr (hkept ▸ hx.cancelled.mp hst)).trans hst.symm)

end

/-- A request leaves the finished actions alone, whatever it has read before. -/
theorem ActionDb.setAction_settles {s s₀ s' : ActionDb} {row current : ImplementationActionRow}
    {at_ : Datetime} (hrow : row ∈ s₀.implementationActions) (hopen : row.status.finished = false)
    (hcurrent : current.status = row.status ∨
      ∃ status now, status ≠ row.status ∧
        current = ActionReviewService.transitioned row status now)
    (h : s.commit (.setAction row current at_) = .ok s') : s.Settles s' := by
  obtain ⟨hfound, hcore, hactions⟩ := ActionDb.commit_ok h
  have hdb : s.db = s'.db := Except.ok.inj hcore
  refine ⟨?_, hdb ▸ (Settles.refl s).reviews⟩
  rcases update_cases s.valid.pkImplementationActions hfound (row.merge current at_) with
    ⟨-, hsame⟩ | ⟨x, hx, hkey, hrows⟩
  · rw [hactions, ActionWrite.run, hsame]
    exact (Settles.refl s).actions
  rw [ActionWrite.run, hrows] at hactions
  rw [hactions]
  refine finished_replace s.valid.pkImplementationActions hx rfl fun hf => ?_
  rcases hcurrent with hst | ⟨status, now, hne, rfl⟩
  · rw [ImplementationActionRow.merge, hst]
    exact column_kept _ _
  -- the merged row has passed the check constraints
  have hmem : row.merge (ActionReviewService.transitioned row status now) at_ x ∈
      s'.implementationActions := by
    rw [hactions]
    exact (mem_replace hx).mpr (Or.inl rfl)
  obtain ⟨hc, hxx⟩ := (s₀.stamped row hrow).open hopen
  obtain ⟨hst, hcompleted, hcancelled⟩ :=
    ImplementationActionRow.merge_transitioned x now at_ hne hc hxx
  refine (s.stamped x hx).pinned (s'.stamped _ hmem) ?_ ?_ hf
  · rw [hst]
    exact hcompleted
  · rw [hst]
    exact hcancelled

/-! ## Reviews -/

def Op.completesReview : Op → Bool
  | completeReview .. => true
  | _ => false

/-- What a request makes of a review that it has found scheduled. -/
inductive ReviewEdit (op : Op) (loaded current : DecisionReview) : Prop where
  | kept (hst : current.status = loaded.status)
  | cancelled (hst : current.status = .cancelled)
      (hstamp : current.completedAt = loaded.completedAt)
  | completed (hop : op.completesReview) (hst : current.status = .completed)
      (hstamp : current.cancelledAt = loaded.cancelledAt)

/-- What a commit can do to the reviews: nothing, a new one, or the `UPDATE` of one that
was scheduled when it was read. -/
inductive ReviewMove (op : Op) (ss : List Db) (db db' : Db) : Prop where
  | same (h : db'.decisionReviews = db.decisionReviews)
  | add (row : DecisionReview) (hst : row.status = .scheduled)
      (h : db'.decisionReviews = db.decisionReviews ++ [row])
  | set (s₀ : Db) (hs : s₀ ∈ ss) (loaded current x : DecisionReview)
      (hloaded : loaded ∈ s₀.decisionReviews) (hsched : loaded.status = .scheduled)
      (hx : x ∈ db.decisionReviews) (hedit : ReviewEdit op loaded current)
      (h : db'.decisionReviews = replace x (loaded.merge current x) db.decisionReviews)

section
variable {dep : Deployment} {op : Op} {db db' : Db} {ss : List Db} {ws : List Write}

/-- The commit of one review that was scheduled. -/
theorem ReviewMove.of_setReview {s₀ : Db} {loaded current : DecisionReview} (hs : s₀ ∈ ss)
    (hloaded : loaded ∈ s₀.decisionReviews) (hsched : loaded.status = .scheduled)
    (hedit : ReviewEdit op loaded current) (hc : db.commit [.setReview loaded current] = .ok db') :
    ReviewMove op ss db db' := by
  have hreviews : db'.decisionReviews =
      ((Write.setReview loaded current).run db.toTables).decisionReviews := by
    rw [(Db.commit_ok hc).1]
    rfl
  rcases Db.setReview_cases (Db.commit_found hc _ List.mem_cons_self) with
    ⟨-, hrun⟩ | ⟨x, hx, -, hrun⟩
  · rw [hrun] at hreviews
    exact .same hreviews
  · rw [hrun] at hreviews
    exact .set s₀ hs loaded current x hloaded hsched hx hedit hreviews

theorem Op.commit_reviewMove {ok : Db → Except ServiceError Response}
    {rejected : CommitError → ServiceError}
    (hends : (op.program dep).Ends ss (.ok (.commit ws ok rejected)))
    (hc : db.commit ws = .ok db') : ReviewMove op ss db db' := by
  by_cases haside : Target.decisionReviews ∉ op.footprint
  · refine .same ?_
    rw [(Db.commit_ok hc).1]
    exact Tables.reviews_write _ fun x hx ht => haside (ht ▸ Op.commits_footprint hends x hx)
  cases op <;> (try (exfalso; simp [footprint] at haside; done)) <;>
    obtain ⟨_, h⟩ := Request.map_commits hends
  case createReview =>
    obtain ⟨_, _, _, _, row, -, -, -, -, rfl, -, -, hst, -⟩ :=
      ActionReviewService.createReview_commits h
    refine .add row hst ?_
    rw [(Db.commit_ok hc).1]
    rfl
  case updateReview =>
    obtain ⟨_, _, _, s₄, _, review, rfl, -, -, -, hr, hs, rfl⟩ :=
      ActionReviewService.updateReview_commits h
    refine .of_setReview ?_ (ActionReviewRepository.getReview_some hr).1 hs ?_ hc
    · simp
    · exact .kept rfl
  case cancelReview =>
    obtain ⟨_, _, _, s₄, _, review, rfl, -, -, -, hr, hs, rfl⟩ :=
      ActionReviewService.cancelReview_commits h
    refine .of_setReview ?_ (ActionReviewRepository.getReview_some hr).1 hs ?_ hc
    · simp
    · exact .cancelled rfl rfl
  case completeReview =>
    obtain ⟨_, _, _, s₄, _, review, rfl, -, -, -, hr, hs, -, rfl⟩ :=
      ActionReviewService.completeReview_confirms h hc
    refine .of_setReview ?_ (ActionReviewRepository.getReview_some hr).1 hs ?_ hc
    · simp
    · exact .completed rfl rfl rfl

/-- The check constraint stops every move out of a finished status. -/
theorem ReviewMove.settles (h : ReviewMove op ss db db') : ∀ v ∈ db.decisionReviews,
    v.status.finished → ∃ v' ∈ db'.decisionReviews, v'.id = v.id ∧ v'.status = v.status := by
  cases h with
  | same h =>
      rw [h]
      exact fun v hv _ => ⟨v, hv, rfl, rfl⟩
  | add row _ h =>
      rw [h]
      exact fun v hv _ => ⟨v, List.mem_append_left _ hv, rfl, rfl⟩
  | set s₀ hs loaded current x hloaded hsched hx hedit h =>
      have hmem : loaded.merge current x ∈ db'.decisionReviews := by
        rw [h]
        exact (mem_replace hx).mpr (Or.inl rfl)
      rw [h]
      refine finished_replace db.valid.pkDecisionReviews hx rfl fun hf => ?_
      have hold := (db.valid.ckDecisionReviewsTerminalState x hx).stamps
      have hnew := (db'.valid.ckDecisionReviewsTerminalState _ hmem).stamps
      cases hedit with
      | kept hst =>
          rw [DecisionReview.merge, hst]
          exact column_kept _ _
      | cancelled hst hstamp =>
          have hst' : (loaded.merge current x).status = .cancelled :=
            (column_changed (by rw [hst, hsched]; decide) _).trans hst
          -- `completed_at` stays what it is, so the stored review was not completed
          have hstamp' : (loaded.merge current x).completedAt = x.completedAt := by
            rw [DecisionReview.merge, hstamp]
            exact column_kept _ _
          refine hst'.trans ((ReviewStatus.eq_of_finished hf).resolve_left fun hx => ?_).symm
          have hcompleted := hnew.completed.mpr (hstamp' ▸ hold.completed.mp hx)
          rw [hst'] at hcompleted
          nomatch hcompleted
      | completed _ hst hstamp =>
          have hst' : (loaded.merge current x).status = .completed :=
            (column_changed (by rw [hst, hsched]; decide) _).trans hst
          have hstamp' : (loaded.merge current x).cancelledAt = x.cancelledAt := by
            rw [DecisionReview.merge, hstamp]
            exact column_kept _ _
          refine hst'.trans ((ReviewStatus.eq_of_finished hf).resolve_right fun hx => ?_).symm
          have hcancelled := hnew.cancelled.mpr (hstamp' ▸ hold.cancelled.mp hx)
          rw [hst'] at hcancelled
          nomatch hcancelled

/-- Only `complete_review` completes a review. -/
theorem ReviewMove.uncompleted (h : ReviewMove op ss db db') (hop : op.completesReview = false)
    (hdb : ∀ v ∈ db.decisionReviews, v.status ≠ .completed) :
    ∀ v ∈ db'.decisionReviews, v.status ≠ .completed := by
  cases h with
  | same h =>
      rw [h]
      exact hdb
  | add row hst h =>
      rw [h]
      refine Machine.forall_snoc hdb ?_
      rw [hst]
      exact nofun
  | set s₀ hs loaded current x hloaded hsched hx hedit h =>
      rw [h]
      intro v hv
      rcases (mem_replace hx).mp hv with rfl | ⟨hv, -⟩
      · cases hedit with
        | kept hst =>
            have hkept : (loaded.merge current x).status = x.status := by
              rw [DecisionReview.merge, hst]
              exact column_kept _ _
            rw [hkept]
            exact hdb x hx
        | cancelled hst _ =>
            have hst' : (loaded.merge current x).status = .cancelled :=
              (column_changed (by rw [hst, hsched]; decide) _).trans hst
            rw [hst']
            exact nofun
        | completed hop' _ _ =>
            rw [hop] at hop'
            nomatch hop'
      · exact hdb v hv

end

/-! ## Runs -/

section
variable {dep : Deployment} {op : ActionOp} {s s' : ActionDb} {ss : List ActionDb}
  {x : ActionWrite} {c c' : ActionConfiguration}

/-- **A commit that gets through moves no finished row**, whatever its request has read. -/
theorem ActionOp.commit_settles
    {ok : ActionDb → Except ActionError (Response ⊕ ImplementationActionRow)}
    {rejected : CommitError → ActionError}
    (hends : (op.program dep).Ends ss (.ok (.commit x ok rejected)))
    (hc : s.commit x = .ok s') : s.Settles s' := by
  cases op <;> obtain ⟨_, h⟩ := Request.map_commits hends
  case core =>
    obtain ⟨ws, _, _, rfl, hcommits⟩ := Request.lift_commits h
    obtain ⟨-, hcore, hactions⟩ := ActionDb.commit_ok hc
    refine ⟨?_, (Op.commit_reviewMove hcommits hcore).settles⟩
    rw [hactions]
    exact (ActionDb.Settles.refl s).actions
  case createAction =>
    obtain ⟨row, rfl, -⟩ := ActionReviewService.createAction_commits h
    obtain ⟨-, hcore, hactions⟩ := ActionDb.commit_ok hc
    have hdb : s.db = s'.db := Except.ok.inj hcore
    refine ⟨?_, hdb ▸ (ActionDb.Settles.refl s).reviews⟩
    rw [hactions]
    exact fun a ha _ => ⟨a, List.mem_append_left _ ha, rfl, rfl⟩
  case updateAction =>
    obtain ⟨s₀, -, row, hrow, -, hst, rfl⟩ := ActionReviewService.updateAction_commits h
    refine ActionDb.setAction_settles hrow ?_ (Or.inl ?_) hc
    · simpa [ActionStatus.finished] using hst
    · rfl
  case transitionAction =>
    obtain ⟨s₀, -, row, hrow, -, hst, rfl⟩ := ActionReviewService.transitionAction_commits h
    obtain ⟨hne, hopen⟩ := ACTION_TRANSITIONS_spec hst
    exact ActionDb.setAction_settles hrow hopen (Or.inr ⟨_, _, hne, rfl⟩) hc

theorem ActionInterleaving.settles (hT : c.Traced (ActionOp.program dep))
    (hrun : ActionInterleaving dep c c') :
    c.state.Settles c'.state ∧ c'.Traced (ActionOp.program dep) := by
  induction hrun with
  | refl => exact ⟨.refl _, hT⟩
  | step _ _ hact ih =>
      obtain ⟨hset, hT⟩ := ih
      refine ⟨?_, hT.act hact⟩
      rcases Config.act_commit hact with hs | ⟨i, t, w, f, g, -, ht, -, hr, hw⟩
      · rw [hs]
        exact hset
      · have hends := hT t (List.mem_of_getElem? ht)
        rw [hr] at hends
        exact hset.trans (ActionOp.commit_settles hends hw)

/-- **Finished actions and reviews stay finished**, in every interleaving of any requests. -/
theorem finished_stay_finished {s₀ : ActionDb} (h : ActionInterleaving dep (Config.idle s₀) c)
    (hrun : ActionInterleaving dep c c') :
    (∀ a ∈ c.state.implementationActions, a.status.finished →
      (∃ a' ∈ c'.state.implementationActions, a'.id = a.id) ∧
        ∀ a' ∈ c'.state.implementationActions, a'.id = a.id → a'.status = a.status) ∧
      (∀ v ∈ c.state.db.decisionReviews, v.status.finished →
        (∃ v' ∈ c'.state.db.decisionReviews, v'.id = v.id) ∧
          ∀ v' ∈ c'.state.db.decisionReviews, v'.id = v.id → v'.status = v.status) ∧
      (∀ a ∈ c'.state.implementationActions, a.Stamped) ∧
      ∀ v ∈ c'.state.db.decisionReviews, v.Stamped := by
  obtain ⟨-, hT⟩ := ActionInterleaving.settles (Config.traced_idle s₀) h
  obtain ⟨hset, -⟩ := ActionInterleaving.settles hT hrun
  refine ⟨fun a ha hf => ?_, fun v hv hf => ?_, c'.state.stamped, fun v hv =>
    (c'.state.db.valid.ckDecisionReviewsTerminalState v hv).stamps⟩
  · obtain ⟨b, hb, hid, hst⟩ := hset.actions a ha hf
    refine ⟨⟨b, hb, hid⟩, fun a' ha' hid' => ?_⟩
    rw [eq_of_key c'.state.valid.pkImplementationActions ha' hb (hid'.trans hid.symm)]
    exact hst
  · obtain ⟨b, hb, hid, hst⟩ := hset.reviews v hv hf
    refine ⟨⟨b, hb, hid⟩, fun v' hv' hid' => ?_⟩
    rw [eq_of_key c'.state.db.valid.pkDecisionReviews hv' hb (hid'.trans hid.symm)]
    exact hst

end

/-- Ada adds an action for the locked decision. -/
def Sample.addsAction : ActionOp :=
  .createAction (env 15 90) ada 10 20 ⟨"Migrate", none, 2, none⟩

def Sample.moves (t : Datetime) (status : ActionStatus) : ActionOp :=
  .transitionAction (env t 0) bob 10 20 90 ⟨status⟩

/-- The action is completed while two other requests that have read it open wait: one to
block it, one to complete it. -/
def Sample.completedOnce : List (Action ActionOp) :=
  .start addsAction :: List.replicate 5 (.advance 0) ++
    [.start (moves 16 .completed), .start (moves 17 .blocked), .start (moves 18 .completed)] ++
    List.replicate 4 (.advance 1) ++ List.replicate 4 (.advance 2) ++
    List.replicate 4 (.advance 3) ++ [.advance 1]

/-- Both go on. -/
def Sample.completedTwice : List (Action ActionOp) := [.advance 2, .advance 3]

set_option synthInstance.maxSize 512 in
theorem finished_stay_finished_sample : ∃ c c',
    ActionInterleaving Sample.dep (Config.idle (.of Sample.reviewed)) c ∧
      ActionInterleaving Sample.dep c c' ∧
      (c.state.implementationActions.map fun a => (a.id, a.status, a.completedAt)) =
        [(90, .completed, some 16)] ∧
      (c'.state.implementationActions.map fun a => (a.id, a.completedAt)) = [(90, some 18)] ∧
      ∀ a ∈ c'.state.implementationActions, a.id = 90 → a.status = .completed := by
  obtain ⟨c, hc, h⟩ := Option.map_eq_some_iff.mp (show ((Config.idle (.of Sample.reviewed)).acts
    ActionDb.commit (ActionOp.program Sample.dep) (fun _ _ => True) Sample.completedOnce).map
      (fun c => (c.state.implementationActions.map fun a => (a.id, a.status, a.completedAt),
        (c.acts ActionDb.commit (ActionOp.program Sample.dep) (fun _ _ => True)
          Sample.completedTwice).map fun c' =>
            c'.state.implementationActions.map fun a => (a.id, a.completedAt))) =
      some ([(90, .completed, some 16)], some [(90, some 18)]) by decide +kernel)
  obtain ⟨hactions, hnext⟩ := Prod.mk.inj h
  obtain ⟨c', hc', hactions'⟩ := Option.map_eq_some_iff.mp hnext
  have hrun : ActionInterleaving Sample.dep (Config.idle (.of Sample.reviewed)) c := Run.of_acts hc
  have hrun' : ActionInterleaving Sample.dep c c' := Run.of_acts hc'
  refine ⟨c, c', hrun, hrun', hactions, hactions', fun a' ha' hid => ?_⟩
  have hmem : ((90 : UUID), ActionStatus.completed, some (16 : Datetime)) ∈
      c.state.implementationActions.map fun a => (a.id, a.status, a.completedAt) := by
    rw [hactions]
    exact List.mem_cons_self
  obtain ⟨a, ha, he⟩ := List.mem_map.mp hmem
  obtain ⟨hid₀, he⟩ := Prod.mk.inj he
  obtain ⟨hst, -⟩ := Prod.mk.inj he
  have hfinished : a.status.finished := by
    rw [hst]
    rfl
  exact (((finished_stay_finished hrun hrun').1 a ha hfinished).2 a' ha'
    (hid.trans hid₀.symm)).trans hst

end ForkRoom
