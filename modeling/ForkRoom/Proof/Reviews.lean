/-
# `Proof.Reviews` — the outcome of a review and its revision

`complete_review` checks that the review is scheduled and commits later.  Of two
requests on one review that have both passed the check, each is committed in its
turn, and what the second one may do depends on the two:

    first        second       what comes of the second
    confirmed    confirmed    the rationale is overwritten
    confirmed    cancelled    the check constraint on terminal states stops it
    cancelled    confirmed    the same
    any          revision     nothing; it is not committed in any state

So an outcome other than `confirmed` is never stored by a request, and a review that
has a revision keeps its outcome: it is not scheduled, and it never was since any
request has read it (`review_outcomes_agree`).
-/
import ForkRoom.Proof.Revisions

namespace ForkRoom

open Optimistic Rows

/-! ## The invariant -/

/-- A revision has the outcome and the rationale of its review, and a review with an
outcome other than `confirmed` has a revision. -/
structure ReviewInv (db : Db) : Prop where
  revised : ∀ r ∈ db.decisionRevisions, ∃ v ∈ db.decisionReviews, v.id = r.reviewId ∧
    v.status = .completed ∧ v.outcome = some r.outcome ∧ v.outcomeRationale = some r.rationale
  outcome : ∀ v ∈ db.decisionReviews, ∀ o, v.outcome = some o → o ≠ .confirmed →
    ∃ r ∈ db.decisionRevisions, r.reviewId = v.id

theorem reviewInv_empty : ReviewInv Db.empty where
  revised _ h := nomatch h
  outcome _ h := nomatch h

section
variable {dep : Deployment} {op : Op} {db db' : Db} {ss : List Db} {ws : List Write}
  {rejected : CommitError → ServiceError}

/-- A scheduled review has no outcome. -/
theorem Db.outcome_of_scheduled {v : DecisionReview} (hv : v ∈ db.decisionReviews)
    (hst : v.status = .scheduled) : v.outcome = none := by
  rcases db.valid.ckDecisionReviewsTerminalState v hv with
    ⟨-, -, -, -, -, ho⟩ | ⟨hc, -⟩ | ⟨hc, -⟩
  · exact ho
  · rw [hst] at hc
    nomatch hc
  · rw [hst] at hc
    nomatch hc

/-- A review that is replaced. -/
theorem ReviewInv.replace (h : ReviewInv db) {x x' : DecisionReview}
    (hx : x ∈ db.decisionReviews)
    (hreviews : db'.decisionReviews = replace x x' db.decisionReviews) (hid : x'.id = x.id)
    (hrevisions : db'.decisionRevisions = db.decisionRevisions)
    (hkeep : ∀ r ∈ db.decisionRevisions, r.reviewId = x.id → x'.status = .completed ∧
      x'.outcome = some r.outcome ∧ x'.outcomeRationale = some r.rationale)
    (hback : ∀ o, x'.outcome = some o → o ≠ .confirmed →
      ∃ r ∈ db.decisionRevisions, r.reviewId = x.id) : ReviewInv db' := by
  refine ⟨?_, ?_⟩
  · intro r hr
    rw [hrevisions] at hr
    rw [hreviews]
    by_cases hrx : r.reviewId = x.id
    · exact ⟨x', (mem_replace hx).mpr (Or.inl rfl), hid.trans hrx.symm, hkeep r hr hrx⟩
    · obtain ⟨v, hv, hvid, hv'⟩ := h.revised r hr
      exact ⟨v, (mem_replace hx).mpr (Or.inr ⟨hv, fun hk => hrx (hvid.symm.trans hk)⟩), hvid, hv'⟩
  · intro v hv o ho hne
    rw [hreviews] at hv
    rw [hrevisions]
    rcases (mem_replace hx).mp hv with rfl | ⟨hv, -⟩
    · rw [hid]
      exact hback o ho hne
    · exact h.outcome v hv o ho hne

theorem ReviewInv.of_same (h : ReviewInv db) (hreviews : db'.decisionReviews = db.decisionReviews)
    (hrevisions : db'.decisionRevisions = db.decisionRevisions) : ReviewInv db' := by
  refine ⟨?_, ?_⟩
  · rw [hreviews, hrevisions]
    exact h.revised
  · rw [hreviews, hrevisions]
    exact h.outcome

/-! ## What a commit does -/

variable {env : Env} {user : User} {w d r : UUID}

theorem ActionReviewService.createReview_reviews {payload : ReviewCreateRequest}
    {ok : Db → Except ServiceError DecisionReview} (hI : ReviewInv db)
    (h : (ActionReviewService.createReview env user w d payload).Ends ss
      (.ok (.commit ws ok rejected)))
    (hc : db.commit ws = .ok db') : ReviewInv db' := by
  obtain ⟨_, _, _, _, row, -, -, -, -, rfl, -, -, -, hnone, -⟩ :=
    ActionReviewService.createReview_commits h
  have hreviews : db'.decisionReviews = db.decisionReviews ++ [row] := by
    rw [(Db.commit_ok hc).1]
    rfl
  have hrevisions : db'.decisionRevisions = db.decisionRevisions := by
    rw [(Db.commit_ok hc).1]
    rfl
  refine ⟨?_, ?_⟩
  · intro x hx
    rw [hrevisions] at hx
    obtain ⟨v, hv, hv'⟩ := hI.revised x hx
    rw [hreviews]
    exact ⟨v, List.mem_append_left _ hv, hv'⟩
  · intro v hv o ho hne
    rw [hreviews] at hv
    rw [hrevisions]
    rcases List.mem_append.mp hv with hv | hv
    · exact hI.outcome v hv o ho hne
    · rw [List.mem_singleton.mp hv, hnone] at ho
      nomatch ho

/-- The review alone is written: what is stored then. -/
theorem Db.commit_setReview {loaded current : DecisionReview}
    (hc : db.commit [.setReview loaded current] = .ok db') :
    db'.decisionRevisions = db.decisionRevisions ∧
      ((current = loaded ∧ db'.decisionReviews = db.decisionReviews) ∨
        ∃ x ∈ db.decisionReviews, x.id = loaded.id ∧
          db'.decisionReviews = replace x (loaded.merge current x) db.decisionReviews) := by
  have hfound := Db.commit_found hc _ List.mem_cons_self
  rw [(Db.commit_ok hc).1, Tables.write, List.foldl]
  refine ⟨rfl, ?_⟩
  rcases Db.setReview_cases hfound with ⟨hsame, hrun⟩ | ⟨x, hx, hid, hrun⟩
  · exact Or.inl ⟨hsame, congrArg Tables.decisionReviews hrun⟩
  · exact Or.inr ⟨x, hx, hid, congrArg Tables.decisionReviews hrun⟩

theorem ActionReviewService.updateReview_reviews {payload : ReviewUpdateRequest}
    {ok : Db → Except ServiceError DecisionReview} (hI : ReviewInv db)
    (h : (ActionReviewService.updateReview env user w d r payload).Ends ss
      (.ok (.commit ws ok rejected)))
    (hc : db.commit ws = .ok db') : ReviewInv db' := by
  obtain ⟨_, _, _, _, _, review, -, -, -, -, -, -, rfl⟩ :=
    ActionReviewService.updateReview_commits h
  obtain ⟨hrevisions, ⟨-, hreviews⟩ | ⟨x, hx, -, hreviews⟩⟩ := Db.commit_setReview hc
  · exact hI.of_same hreviews hrevisions
  -- status, outcome and rationale of the stored review stay
  have hst : (review.merge (ActionReviewService.assign payload review) x).status = x.status :=
    column_kept _ _
  have ho : (review.merge (ActionReviewService.assign payload review) x).outcome = x.outcome :=
    column_kept _ _
  have hra : (review.merge (ActionReviewService.assign payload review) x).outcomeRationale =
      x.outcomeRationale := column_kept _ _
  refine hI.replace hx hreviews rfl hrevisions ?_ ?_
  · intro y hy hyx
    obtain ⟨v, hv, hvid, hv'⟩ := hI.revised y hy
    rw [hst, ho, hra, ← eq_of_key db.valid.pkDecisionReviews hv hx (hvid.trans hyx)]
    exact hv'
  · intro o hox hne
    rw [ho] at hox
    exact hI.outcome x hx o hox hne

theorem ActionReviewService.cancelReview_reviews {ok : Db → Except ServiceError DecisionReview}
    (hI : ReviewInv db)
    (h : (ActionReviewService.cancelReview env user w d r).Ends ss (.ok (.commit ws ok rejected)))
    (hc : db.commit ws = .ok db') : ReviewInv db' := by
  obtain ⟨_, _, _, s₄, _, review, -, -, -, -, -, hsched, rfl⟩ :=
    ActionReviewService.cancelReview_commits h
  obtain ⟨hrevisions, ⟨hsame, -⟩ | ⟨x, hx, -, hreviews⟩⟩ := Db.commit_setReview hc
  · have hst : ReviewStatus.cancelled = review.status := congrArg DecisionReview.status hsame
    rw [hsched] at hst
    nomatch hst
  generalize hx' : review.merge _ x = x' at hreviews
  have hst : x'.status = .cancelled := by
    rw [← hx']
    refine column_changed ?_ _
    intro he
    rw [hsched] at he
    nomatch he
  have ho : x'.outcome = x.outcome := by
    rw [← hx']
    exact column_kept _ _
  -- the check constraint lets a cancellation through only if there is no outcome
  have hnone : x.outcome = none := by
    have hmem : x' ∈ db'.decisionReviews := by
      rw [hreviews]
      exact (mem_replace hx).mpr (Or.inl rfl)
    rcases db'.valid.ckDecisionReviewsTerminalState x' hmem with
      ⟨hc, -⟩ | ⟨-, -, -, -, -, hn⟩ | ⟨hc, -⟩
    · rw [hst] at hc
      nomatch hc
    · exact ho.symm.trans hn
    · rw [hst] at hc
      nomatch hc
  refine hI.replace hx hreviews (by rw [← hx']; rfl) hrevisions ?_ ?_
  · intro y hy hyx
    obtain ⟨v, hv, hvid, -, hvo, -⟩ := hI.revised y hy
    rw [eq_of_key db.valid.pkDecisionReviews hv hx (hvid.trans hyx), hnone] at hvo
    nomatch hvo
  · intro o hox
    rw [ho, hnone] at hox
    nomatch hox

/-- A review with a revision is not scheduled. -/
theorem ReviewInv.unrevised (h : ReviewInv db) {v : DecisionReview} (hv : v ∈ db.decisionReviews)
    (hst : v.status = .scheduled) : ∀ r ∈ db.decisionRevisions, r.reviewId ≠ v.id := by
  intro r hr he
  obtain ⟨v', hv', hid, hcompleted, -⟩ := h.revised r hr
  rw [eq_of_key db.valid.pkDecisionReviews hv' hv (hid.trans he), hst] at hcompleted
  nomatch hcompleted

/-- A confirmation has found the review scheduled, so that it has no revision now. -/
theorem ActionReviewService.completeReview_reviews {payload : ReviewOutcomeRequest}
    {ok : Db → Except ServiceError ReviewOutcomeResult} (hI : ReviewInv db)
    (hss : ∀ s ∈ ss, ReviewInv s ∧ db.decisionRevisions = s.decisionRevisions)
    (h : (ActionReviewService.completeReview env user w d r payload).Ends ss
      (.ok (.commit ws ok rejected)))
    (hc : db.commit ws = .ok db') : ReviewInv db' := by
  obtain ⟨_, _, _, s₄, _, review, rfl, -, -, -, hread, hsched, hconf, rfl⟩ :=
    ActionReviewService.completeReview_confirms h hc
  simp only [List.forall_mem_cons] at hss
  obtain ⟨-, -, -, ⟨h₄, hsame⟩, -⟩ := hss
  obtain ⟨hmem, -, -⟩ := ActionReviewRepository.getReview_some hread
  obtain ⟨hrevisions, ⟨he, -⟩ | ⟨x, hx, hid, hreviews⟩⟩ := Db.commit_setReview hc
  · have hst : ReviewStatus.completed = review.status := congrArg DecisionReview.status he
    rw [hsched] at hst
    nomatch hst
  generalize hx' : review.merge _ x = x' at hreviews
  have hst : x'.status = .completed := by
    rw [← hx']
    refine column_changed ?_ _
    intro he
    rw [hsched] at he
    nomatch he
  have ho : x'.outcome = some .confirmed := by
    rw [← hx', ← hconf]
    refine column_changed ?_ _
    intro he
    rw [Db.outcome_of_scheduled hmem hsched] at he
    nomatch he
  refine hI.replace hx hreviews (by rw [← hx']; rfl) hrevisions ?_ ?_
  · intro y hy hyx
    rw [hsame] at hy
    exact absurd (hyx.trans hid) (h₄.unrevised hmem hsched y hy)
  · intro o hox hne
    rw [ho] at hox
    exact absurd (Option.some.inj hox).symm hne

theorem Op.commit_reviews {ok : Db → Except ServiceError Response} (hI : ReviewInv db)
    (hss : ∀ s ∈ ss, ReviewInv s ∧ db.decisionRevisions = s.decisionRevisions)
    (hends : (op.program dep).Ends ss (.ok (.commit ws ok rejected)))
    (hc : db.commit ws = .ok db') : ReviewInv db' := by
  have hfoot := Op.commits_footprint hends
  by_cases haside : Target.decisionReviews ∉ op.footprint
  · refine hI.of_same ?_ (Op.commit_revisions hends hc)
    rw [(Db.commit_ok hc).1]
    exact Tables.reviews_write _ fun x hx ht => haside (ht ▸ hfoot x hx)
  cases op <;> (try (exfalso; simp [footprint] at haside; done)) <;>
    obtain ⟨_, h⟩ := Request.map_commits hends
  case createReview => exact ActionReviewService.createReview_reviews hI h hc
  case updateReview => exact ActionReviewService.updateReview_reviews hI h hc
  case cancelReview => exact ActionReviewService.cancelReview_reviews hI h hc
  case completeReview => exact ActionReviewService.completeReview_reviews hI hss h hc

end

/-! ## The runs -/

section
variable {dep : Deployment} {db₀ : Db} {c : Configuration}

/-- **An interleaving keeps the invariant.** -/
theorem ReviewInv.run {ok : Configuration → Action Op → Prop} (h : ReviewInv db₀)
    (hrun : Interleaving dep ok (Config.idle db₀) c) : ReviewInv c.state :=
  (Run.rely_guarantee (P := fun _ => True) (I := ReviewInv)
    (R := fun s s' => s'.decisionRevisions = s.decisionRevisions) (fun _ => rfl)
    (fun h h' => h'.trans h) (fun _ _ _ => trivial)
    (fun _ _ _ _ _ _ _ _ hI hss hends hc =>
      ⟨Op.commit_reviews hI hss hends hc, Op.commit_revisions hends hc⟩)
    hrun (Config.only_idle _) h (Config.traced_idle _) (Config.below_idle _)).1

/-- **Outcome and revision agree**, in every interleaving of any operations that starts
from a database in which they do, as they do in the empty one. -/
theorem review_outcomes_agree : ReviewInv Db.empty ∧
    ∀ (dep : Deployment) (ok : Configuration → Action Op → Prop) (db₀ : Db) (c : Configuration),
      ReviewInv db₀ → Interleaving dep ok (Config.idle db₀) c → ∀ v ∈ c.state.decisionReviews,
      ((v.status = .completed ∧ (v.outcome = some .reopened ∨ v.outcome = some .superseded)) ↔
        ∃! r, r ∈ c.state.decisionRevisions ∧ r.reviewId = v.id) ∧
      (∀ r ∈ c.state.decisionRevisions, r.reviewId = v.id →
        v.outcome = some r.outcome ∧ v.outcomeRationale = some r.rationale) ∧
      (v.status = .completed ∧ v.outcome = some .confirmed ∨ v.status = .cancelled →
        ∀ r ∈ c.state.decisionRevisions, r.reviewId ≠ v.id) := by
  refine ⟨reviewInv_empty, fun dep ok db₀ c h hrun v hv => ?_⟩
  have hinv := h.run hrun
  have hrevised : ∀ r ∈ c.state.decisionRevisions, r.reviewId = v.id → v.status = .completed ∧
      v.outcome = some r.outcome ∧ v.outcomeRationale = some r.rationale := by
    intro r hr he
    obtain ⟨v', hv', hid, hv''⟩ := hinv.revised r hr
    rw [← eq_of_key c.state.valid.pkDecisionReviews hv' hv (hid.trans he)]
    exact hv''
  refine ⟨⟨?_, ?_⟩, fun r hr he => (hrevised r hr he).2, ?_⟩
  · rintro ⟨-, ho⟩
    obtain ⟨o, ho, hne⟩ : ∃ o, v.outcome = some o ∧ o ≠ .confirmed := by
      rcases ho with ho | ho
      · exact ⟨_, ho, by decide⟩
      · exact ⟨_, ho, by decide⟩
    obtain ⟨r, hr, he⟩ := hinv.outcome v hv o ho hne
    refine ⟨r, ⟨hr, he⟩, fun r' hr' => ?_⟩
    exact c.state.valid.uqDecisionRevisionsReview.eq_of hr'.1 hr (hr'.2.trans he.symm)
  · rintro ⟨r, ⟨hr, he⟩, -⟩
    obtain ⟨hst, ho, -⟩ := hrevised r hr he
    refine ⟨hst, ?_⟩
    rw [ho]
    exact (c.state.valid.ckDecisionRevisionsOutcome r hr).imp (congrArg some) (congrArg some)
  · intro hcase r hr he
    obtain ⟨hst, ho, -⟩ := hrevised r hr he
    rcases hcase with ⟨-, hconf⟩ | hcancelled
    · rw [ho] at hconf
      rcases c.state.valid.ckDecisionRevisionsOutcome r hr with hr | hr <;> rw [hr] at hconf <;>
        nomatch hconf
    · rw [hst] at hcancelled
      nomatch hcancelled

end

/-- The review has led to the revision of the database. -/
theorem Sample.revised_reviewInv : ReviewInv revised where
  revised := by decide +kernel
  outcome v hv _ _ _ := by
    have hall :
        ∀ v ∈ revised.decisionReviews, ∃ r ∈ revised.decisionRevisions, r.reviewId = v.id := by
      decide +kernel
    exact hall v hv

/-- A further review: its confirmation and its reopening are both on their way. -/
def Sample.bothOutcomes : List (Action Op) :=
  oneByOne 0 [(.createReview (env 31 71) ada 10 20 ⟨40, none⟩, 3)] ++
    .start (.completeReview (env 50 0) ada 10 20 71
      ⟨.confirmed, "Still right", none, none, none⟩) ::
      List.replicate 4 (.advance 1) ++
    .start (.completeReview (env 50 82) ada 10 20 71 newFacts) :: List.replicate 8 (.advance 2) ++
    [.advance 1]

theorem review_outcomes_agree_sample : ∃ c,
    Interleaving Sample.dep (fun _ _ => True) (Config.idle Sample.revised) c ∧
      (c.state.decisionReviews.map fun v => (v.id, v.outcome)) =
        [(70, some .reopened), (71, some .confirmed)] ∧
      ∀ v ∈ c.state.decisionReviews, v.outcome = some .confirmed → v.status = .completed →
        ∀ r ∈ c.state.decisionRevisions, r.reviewId ≠ v.id := by
  obtain ⟨c, hc, hreviews⟩ := Option.map_eq_some_iff.mp (show ((Config.idle Sample.revised).acts
    Db.commit (Op.program Sample.dep) (fun _ _ => True) Sample.bothOutcomes).map (fun c =>
      c.state.decisionReviews.map fun v => (v.id, v.outcome)) =
        some [(70, some .reopened), (71, some .confirmed)] by decide +kernel)
  have hrun : Interleaving Sample.dep (fun _ _ => True) (Config.idle Sample.revised) c :=
    Run.of_acts hc
  have hagree := review_outcomes_agree.2 Sample.dep (fun _ _ => True) Sample.revised c
    Sample.revised_reviewInv hrun
  exact ⟨c, hrun, hreviews, fun v hv ho hst => (hagree v hv).2.2 (Or.inl ⟨hst, ho⟩)⟩

end ForkRoom
