/-
# `Proof.Comparison` — the weighted comparison of proposals

A proposal with a score for every criterion gets the weighted mean of its scores, rounded
to two decimals.  The quotient is a float, which is rounded in turn; the results hold for it
and for the exact quotient alike, since both roundings are monotone and leave the whole
numbers that a score can be as they are.
-/
import ForkRoom.Lib.WeightedMean
import Mathlib.Data.Finset.Max
import ForkRoom.Proof.Record

namespace ForkRoom

open Optimistic Rows WeightedMean

/-! ## Rounding -/

/-- Two decimals, ties to even, of the exact number. -/
def hundredths (q : ℚ) : Hundredths := Binary64.roundHalfEven (q * 100)

/-- Two decimals of the float that is nearest to the number. -/
def floatHundredths (q : ℚ) : Hundredths := hundredths (Binary64.binary64 q)

/-- A rounding to hundredths: monotone, and exact on what a score can be. -/
structure Rounds (round : ℚ → Hundredths) : Prop where
  mono : ∀ {x y : ℚ}, 0 < x → x ≤ y → round x ≤ round y
  whole : ∀ {n : Int}, 1 ≤ n → n ≤ 5 → round n = 100 * n

theorem hundredths_intCast (n : Int) : hundredths n = 100 * n := by
  have h : (n : ℚ) * 100 = ((100 * n : Int) : ℚ) := by
    push_cast
    ring
  rw [hundredths, h, Binary64.roundHalfEven_intCast]

theorem hundredths_rounds : Rounds hundredths where
  mono _ h := Binary64.roundHalfEven_mono (mul_le_mul_of_nonneg_right h (by norm_num))
  whole _ _ := hundredths_intCast _

theorem floatHundredths_rounds : Rounds floatHundredths where
  mono hx h := Binary64.roundHalfEven_mono
    (mul_le_mul_of_nonneg_right (Binary64.binary64_mono hx h) (by norm_num))
  whole := by
    intro n hn hn'
    obtain ⟨m, rfl⟩ := Int.eq_ofNat_of_zero_le (by omega : 0 ≤ n)
    have hm : Binary64.binary64 (m : ℚ) = m := Binary64.binary64_natCast (by omega)
    rw [floatHundredths, Int.cast_natCast, hm]
    exact_mod_cast hundredths_intCast m

/-! ## The weighted score -/

namespace ProposalService

/-- `score_by_pair` -/
def scoreByPair (scores : List ProposalScore) (p : UUID) (c : DecisionCriterion) :
    Option ProposalScore :=
  scores.find? fun s => s.proposalId = p && s.criterionId = c.id

/-- The score as a number, 0 if there is none. -/
def scoreOf (scores : List ProposalScore) (p : UUID) (c : DecisionCriterion) : Int :=
  ((scoreByPair scores p c).map ProposalScore.score).getD 0

/-- The weighted score with one rounding or the other. -/
def weightedBy (round : ℚ → Hundredths) (criteria : List DecisionCriterion)
    (scores : List ProposalScore) (p : UUID) : Option Hundredths :=
  if criteria ≠ [] ∧ (criteria.filterMap (scoreByPair scores p)).length = criteria.length ∧
      (criteria.map DecisionCriterion.weight).sum ≠ 0 then
    some (round (mean DecisionCriterion.weight (scoreOf scores p) criteria))
  else none

theorem compared_weightedScore (criteria : List DecisionCriterion) (scores : List ProposalScore)
    (p : Proposal) :
    (compared criteria scores p).weightedScore = weightedBy floatHundredths criteria scores p.id :=
  rfl

section
variable {round : ℚ → Hundredths} {criteria criteria' : List DecisionCriterion}
  {scores scores' : List ProposalScore} {p p' : UUID} {c : DecisionCriterion} {s : ProposalScore}
  {h h' : Hundredths}

/-- The proposal has a score for each criterion. -/
def Scored (criteria : List DecisionCriterion) (scores : List ProposalScore) (p : UUID) : Prop :=
  ∀ c ∈ criteria, ∃ s ∈ scores, s.proposalId = p ∧ s.criterionId = c.id

theorem scoreByPair_some (h : scoreByPair scores p c = some s) :
    s ∈ scores ∧ s.proposalId = p ∧ s.criterionId = c.id := by
  have hmem := List.mem_of_find?_eq_some h
  have hkey := List.find?_some h
  simp only [Bool.and_eq_true, decide_eq_true_eq] at hkey
  exact ⟨hmem, hkey.1, hkey.2⟩

/-- With one score for a pair at most, the order in which they come makes no difference. -/
theorem scoreByPair_iff (hu : (scores.map fun s => (s.proposalId, s.criterionId)).Nodup) :
    scoreByPair scores p c = some s ↔ s ∈ scores ∧ s.proposalId = p ∧ s.criterionId = c.id := by
  refine ⟨scoreByPair_some, fun ⟨hs, hp, hc⟩ => ?_⟩
  cases hfind : scoreByPair scores p c with
  | none =>
      have hnone := List.find?_eq_none.mp hfind s hs
      simp [hp, hc] at hnone
  | some s' =>
      obtain ⟨hs', hp', hc'⟩ := scoreByPair_some hfind
      rw [List.inj_on_of_nodup_map hu hs' hs (Prod.ext (hp'.trans hp.symm) (hc'.trans hc.symm))]

theorem scored_iff : Scored criteria scores p ↔
    (criteria.filterMap (scoreByPair scores p)).length = criteria.length := by
  rw [List.filterMap_length_eq_length]
  refine forall₂_congr fun c _ => ?_
  rw [scoreByPair, List.find?_isSome]
  simp only [Bool.and_eq_true, decide_eq_true_eq]

theorem weightedBy_eq_some (hw : ∀ c ∈ criteria, 1 ≤ c.weight) :
    weightedBy round criteria scores p = some h ↔ criteria ≠ [] ∧ Scored criteria scores p ∧
      round (mean DecisionCriterion.weight (scoreOf scores p) criteria) = h := by
  rw [scored_iff, weightedBy]
  split
  · rename_i hfull
    exact ⟨fun heq => ⟨hfull.1, hfull.2.1, Option.some.inj heq⟩, fun heq => congrArg some heq.2.2⟩
  · rename_i hfull
    refine ⟨fun heq => (nomatch heq), fun ⟨hne, hscored, _⟩ => absurd ⟨hne, hscored, ?_⟩ hfull⟩
    exact (weights_pos hne fun c hc => hw c hc).ne'

/-- A scored proposal has a score of its own for each criterion. -/
theorem Scored.scoreOf (hscored : Scored criteria scores p) (hc : c ∈ criteria) :
    ∃ s, scoreByPair scores p c = some s ∧ ProposalService.scoreOf scores p c = s.score := by
  have hsome : (scoreByPair scores p c).isSome :=
    List.filterMap_length_eq_length.mp (scored_iff.mp hscored) c hc
  obtain ⟨s, hs⟩ := Option.isSome_iff_exists.mp hsome
  exact ⟨s, hs, by rw [ProposalService.scoreOf, hs]; rfl⟩

/-- The score lies between the least and the greatest. -/
theorem weightedBy_bounds (hround : Rounds round) (hw : ∀ c ∈ criteria, 1 ≤ c.weight)
    (hs : ∀ s ∈ scores, 1 ≤ s.score ∧ s.score ≤ 5)
    (hh : weightedBy round criteria scores p = some h) :
    ∃ lo ∈ criteria.filterMap (scoreByPair scores p),
      ∃ hi ∈ criteria.filterMap (scoreByPair scores p),
        (∀ s ∈ criteria.filterMap (scoreByPair scores p), lo.score ≤ s.score ∧ s.score ≤ hi.score) ∧
        100 * lo.score ≤ h ∧ h ≤ 100 * hi.score := by
  obtain ⟨hne, hscored, rfl⟩ := (weightedBy_eq_some hw).mp hh
  have hmem : ∀ {s}, s ∈ criteria.filterMap (scoreByPair scores p) → s ∈ scores := by
    intro s h
    obtain ⟨c, -, hc⟩ := List.mem_filterMap.mp h
    exact (scoreByPair_some hc).1
  have hnil : criteria.filterMap (scoreByPair scores p) ≠ [] := by
    intro heq
    have hlength := scored_iff.mp hscored
    rw [heq] at hlength
    exact hne (List.length_eq_zero_iff.mp hlength.symm)
  obtain ⟨lo, hlo, hmin⟩ := (criteria.filterMap (scoreByPair scores p)).toFinset.exists_min_image
    ProposalScore.score (by simpa [List.toFinset_nonempty_iff] using hnil)
  obtain ⟨hi, hhi, hmax⟩ := (criteria.filterMap (scoreByPair scores p)).toFinset.exists_max_image
    ProposalScore.score (by simpa [List.toFinset_nonempty_iff] using hnil)
  simp only [List.mem_toFinset] at hlo hmin hhi hmax
  have hvalue : ∀ c ∈ criteria, lo.score ≤ scoreOf scores p c ∧ scoreOf scores p c ≤ hi.score := by
    intro c hc
    obtain ⟨s, hsome, heq⟩ := hscored.scoreOf hc
    have hs : s ∈ criteria.filterMap (scoreByPair scores p) := List.mem_filterMap.mpr ⟨c, hc, hsome⟩
    rw [heq]
    exact ⟨hmin s hs, hmax s hs⟩
  obtain ⟨hlo₁, hlo₅⟩ := hs lo (hmem hlo)
  obtain ⟨hhi₁, hhi₅⟩ := hs hi (hmem hhi)
  have hle := le_mean hne hw fun c hc => (hvalue c hc).1
  have hge := mean_le hne hw fun c hc => (hvalue c hc).2
  have hpos : (0 : ℚ) < lo.score := by exact_mod_cast hlo₁
  refine ⟨lo, hlo, hi, hhi, fun s hs => ⟨hmin s hs, hmax s hs⟩, ?_, ?_⟩
  · rw [← hround.whole hlo₁ hlo₅]
    exact hround.mono hpos hle
  · rw [← hround.whole hhi₁ hhi₅]
    exact hround.mono (hpos.trans_le hle) hge

/-- No criterion, or score, comes first. -/
theorem weightedBy_perm (hu : (scores.map fun s => (s.proposalId, s.criterionId)).Nodup)
    (hcriteria : criteria'.Perm criteria) (hscores : scores'.Perm scores) :
    weightedBy round criteria' scores' p = weightedBy round criteria scores p := by
  have hu' : (scores'.map fun s => (s.proposalId, s.criterionId)).Nodup :=
    (hscores.map _).nodup_iff.mpr hu
  have hpair : scoreByPair scores' p = scoreByPair scores p := by
    funext c
    refine Option.ext fun s => ?_
    rw [scoreByPair_iff hu', scoreByPair_iff hu, hscores.mem_iff]
  have hscore : scoreOf scores' p = scoreOf scores p := by
    funext c
    rw [scoreOf, hpair, scoreOf]
  have hnil : criteria' ≠ [] ↔ criteria ≠ [] := by
    rw [ne_eq, ne_eq, ← List.length_eq_zero_iff, hcriteria.length_eq, List.length_eq_zero_iff]
  rw [weightedBy, weightedBy, hpair, hscore, mean_perm hcriteria]
  simp only [hnil, (hcriteria.filterMap _).length_eq, hcriteria.length_eq, (hcriteria.map _).sum_eq]

/-- A common factor of the weights makes no difference. -/
theorem weightedBy_scale (hw : ∀ c ∈ criteria, 1 ≤ c.weight) {weight : DecisionCriterion → Int}
    (hw' : ∀ c ∈ criteria, 1 ≤ weight c) {a b : Int} (hb : 0 < b)
    (hfactor : ∀ c ∈ criteria, weight c * b = c.weight * a) :
    weightedBy round (criteria.map fun c => { c with weight := weight c }) scores p =
      weightedBy round criteria scores p := by
  have hw'' : ∀ c ∈ criteria.map fun c => { c with weight := weight c }, 1 ≤ c.weight := by
    intro c hc
    obtain ⟨x, hx, rfl⟩ := List.mem_map.mp hc
    exact hw' x hx
  have hscored : Scored (criteria.map fun c => { c with weight := weight c }) scores p ↔
      Scored criteria scores p := List.forall_mem_map
  refine Option.ext fun h => ?_
  rw [weightedBy_eq_some hw'', weightedBy_eq_some hw, hscored, ne_eq, List.map_eq_nil_iff]
  refine and_congr_right fun hne => and_congr_right fun _ => ?_
  have hmean : mean DecisionCriterion.weight (scoreOf scores p)
      (criteria.map fun c => { c with weight := weight c }) =
        mean weight (scoreOf scores p) criteria := by
    simp only [mean, total, List.map_map]
    rfl
  rw [hmean, mean_scale hne hw hw' hb hfactor]

/-- Better scores never make it worse. -/
theorem weightedBy_mono (hround : Rounds round) (hw : ∀ c ∈ criteria, 1 ≤ c.weight)
    (hs : ∀ s ∈ scores, 1 ≤ s.score ∧ s.score ≤ 5)
    (hle : ∀ c ∈ criteria, ∀ s ∈ scores, s.proposalId = p → s.criterionId = c.id →
      ∀ s' ∈ scores, s'.proposalId = p' → s'.criterionId = c.id → s.score ≤ s'.score)
    (hh : weightedBy round criteria scores p = some h)
    (hh' : weightedBy round criteria scores p' = some h') : h ≤ h' := by
  obtain ⟨hne, hscored, rfl⟩ := (weightedBy_eq_some hw).mp hh
  obtain ⟨-, hscored', rfl⟩ := (weightedBy_eq_some hw).mp hh'
  have hvalue :
      ∀ c ∈ criteria, 1 ≤ scoreOf scores p c ∧ scoreOf scores p c ≤ scoreOf scores p' c := by
    intro c hc
    obtain ⟨s, hsome, heq⟩ := hscored.scoreOf hc
    obtain ⟨s', hsome', heq'⟩ := hscored'.scoreOf hc
    obtain ⟨hmem, hp, hcid⟩ := scoreByPair_some hsome
    obtain ⟨hmem', hp', hcid'⟩ := scoreByPair_some hsome'
    rw [heq, heq']
    exact ⟨(hs s hmem).1, hle c hc s hmem hp hcid s' hmem' hp' hcid'⟩
  have hone : ((1 : Int) : ℚ) ≤ mean DecisionCriterion.weight (scoreOf scores p) criteria :=
    le_mean hne hw fun c hc => (hvalue c hc).1
  refine hround.mono (lt_of_lt_of_le (by norm_num) hone) ?_
  exact mean_mono hne hw fun c hc => (hvalue c hc).2

end

end ProposalService

/-! ## The comparison -/

/-- What an answered comparison has read, when it runs alone. -/
theorem compareProposals_answer {dep : Deployment} {db : Db} {env : Env} {user : User} {w d : UUID}
    {rows : List ProposalComparisonResponse}
    (h : ((Op.compareProposals env user w d).exec dep db).1 = .ok (.comparison rows)) :
    rows = (ProposalRepository.listForDecision env.tie d (some .submitted) db).map
      (ProposalService.compared (ProposalRepository.listCriteria d db)
        (ProposalRepository.listScoresForDecision d db)) := by
  obtain ⟨ss, hss, ⟨hreply, -⟩ | ⟨_, _, _, hcommit, -⟩⟩ := Request.exec_ok Db.commit h
  · obtain ⟨r', hends, hresp⟩ := Request.map_replies hreply
    cases hresp
    have hrun := hends.run_eq hss
    rw [ProposalService.compare, Reads.run_bind] at hrun
    cases hread : (ProposalService.context user.id w d).run db with
    | error e =>
        rw [hread] at hrun
        cases hrun
    | ok c =>
        rw [hread] at hrun
        cases hrun
        rfl
  · exact absurd hcommit (Op.read_commits_nothing rfl)

/-- **Weighted comparison.**  An answered comparison has a row for each submitted proposal of the
decision, with its weighted score over criteria and scores that the schema has checked.  With
either rounding, a proposal has a weighted score exactly when there is a criterion and a score
for each; it lies between the least and the greatest of the scores; the order of criteria and
scores and a common factor of the weights make no difference, and better scores never lower it. -/
theorem weighted_comparison {round : ℚ → Hundredths}
    (hround : round = hundredths ∨ round = floatHundredths)
    {criteria : List DecisionCriterion} {scores : List ProposalScore}
    (hw : ∀ c ∈ criteria, 1 ≤ c.weight ∧ c.weight ≤ 100)
    (hs : ∀ s ∈ scores, 1 ≤ s.score ∧ s.score ≤ 5)
    (hu : (scores.map fun s => (s.proposalId, s.criterionId)).Nodup) :
    (∀ (dep : Deployment) (db : Db) (env : Env) (user : User) (w d : UUID)
      (rows : List ProposalComparisonResponse),
      ((Op.compareProposals env user w d).exec dep db).1 = .ok (.comparison rows) →
      (rows.map ProposalComparisonResponse.proposal).Perm
        (db.proposals.filter fun p => p.decisionId = d && p.status = .submitted) ∧
      (rows.map fun row => row.proposal.id).Nodup ∧
      ∃ cs ss, cs.Perm (db.decisionCriteria.filter fun c => c.decisionId = d) ∧
        ss.Perm (db.proposalScores.filter fun s =>
          db.proposals.any fun p => p.id = s.proposalId && p.decisionId = d) ∧
        (∀ c ∈ cs, 1 ≤ c.weight ∧ c.weight ≤ 100) ∧ (∀ s ∈ ss, 1 ≤ s.score ∧ s.score ≤ 5) ∧
        (ss.map fun s => (s.proposalId, s.criterionId)).Nodup ∧
        ∀ row ∈ rows, row.weightedScore =
          ProposalService.weightedBy floatHundredths cs ss row.proposal.id) ∧
    (∀ p, (ProposalService.weightedBy round criteria scores p).isSome ↔
      criteria ≠ [] ∧ ProposalService.Scored criteria scores p) ∧
    (∀ p h, ProposalService.weightedBy round criteria scores p = some h →
      (∃ lo ∈ criteria.filterMap (ProposalService.scoreByPair scores p),
        ∃ hi ∈ criteria.filterMap (ProposalService.scoreByPair scores p),
          (∀ s ∈ criteria.filterMap (ProposalService.scoreByPair scores p),
            lo.score ≤ s.score ∧ s.score ≤ hi.score) ∧
          100 * lo.score ≤ h ∧ h ≤ 100 * hi.score) ∧ 100 ≤ h ∧ h ≤ 500) ∧
    (∀ p (criteria' : List DecisionCriterion) (scores' : List ProposalScore),
      criteria'.Perm criteria → scores'.Perm scores →
      ProposalService.weightedBy round criteria' scores' p =
        ProposalService.weightedBy round criteria scores p) ∧
    (∀ p (weight : DecisionCriterion → Int) (a b : Int), 0 < b →
      (∀ c ∈ criteria, 1 ≤ weight c ∧ weight c * b = c.weight * a) →
      ProposalService.weightedBy round (criteria.map fun c => { c with weight := weight c })
      scores p =
        ProposalService.weightedBy round criteria scores p) ∧
    ∀ p p' h h', (∀ c ∈ criteria, ∀ s ∈ scores, s.proposalId = p → s.criterionId = c.id →
        ∀ s' ∈ scores, s'.proposalId = p' → s'.criterionId = c.id → s.score ≤ s'.score) →
      ProposalService.weightedBy round criteria scores p = some h →
      ProposalService.weightedBy round criteria scores p' = some h' → h ≤ h' := by
  have hrounds : Rounds round := by
    rcases hround with rfl | rfl
    · exact hundredths_rounds
    · exact floatHundredths_rounds
  have hpos : ∀ c ∈ criteria, 1 ≤ c.weight := fun c hc => (hw c hc).1
  refine ⟨?_, fun p => ?_, fun p h hh => ?_, fun p criteria' scores' hcriteria hscores =>
    ProposalService.weightedBy_perm hu hcriteria hscores, fun p weight a b hb hfactor =>
    ProposalService.weightedBy_scale hpos (fun c hc => (hfactor c hc).1) hb
      fun c hc => (hfactor c hc).2, fun p p' h h' hle =>
    ProposalService.weightedBy_mono hrounds hpos hs hle⟩
  · intro dep db env user w d rows h
    have hrows := compareProposals_answer h
    have hproposals : rows.map ProposalComparisonResponse.proposal =
        ProposalRepository.listForDecision env.tie d (some .submitted) db := by
      rw [hrows, List.map_map]
      exact List.map_id _
    have hperm : (rows.map ProposalComparisonResponse.proposal).Perm
        (db.proposals.filter fun p => p.decisionId = d && p.status = .submitted) := by
      rw [hproposals]
      refine (orderBy_perm _ _).trans (.of_eq (List.filter_congr fun p _ => ?_))
      simp [given, eq_comm]
    have hscores : (ProposalRepository.listScoresForDecision d db).Perm
        (db.proposalScores.filter fun s =>
          db.proposals.any fun p => p.id = s.proposalId && p.decisionId = d) := orderBy_perm _ _
    have hcriteria : (ProposalRepository.listCriteria d db).Perm
        (db.decisionCriteria.filter fun c => c.decisionId = d) := orderBy_perm _ _
    refine ⟨hperm, ?_, _, _, hcriteria, hscores, fun c hc => ?_, fun s hs => ?_, ?_,
      fun row hrow => ?_⟩
    · have hids := (hperm.map Proposal.id).nodup_iff.mpr
        (List.Nodup.sublist (List.filter_sublist.map _) db.valid.pkProposals)
      rwa [List.map_map] at hids
    · exact db.valid.ckDecisionCriteriaWeight c (List.mem_filter.mp (hcriteria.mem_iff.mp hc)).1
    · exact db.valid.ckProposalScoresScore s (List.mem_filter.mp (hscores.mem_iff.mp hs)).1
    · exact (hscores.map _).nodup_iff.mpr
        (List.Nodup.sublist (List.filter_sublist.map _) db.valid.uqProposalScoresProposalCriterion)
    · rw [hrows] at hrow
      obtain ⟨p, -, rfl⟩ := List.mem_map.mp hrow
      exact ProposalService.compared_weightedScore _ _ p
  · rw [Option.isSome_iff_exists]
    constructor
    · rintro ⟨h, hh⟩
      obtain ⟨hne, hscored, -⟩ := (ProposalService.weightedBy_eq_some hpos).mp hh
      exact ⟨hne, hscored⟩
    · rintro ⟨hne, hscored⟩
      exact ⟨_, (ProposalService.weightedBy_eq_some hpos).mpr ⟨hne, hscored, rfl⟩⟩
  · obtain ⟨lo, hlo, hi, hhi, hall, hle, hge⟩ :=
      ProposalService.weightedBy_bounds hrounds hpos hs hh
    have hmem : ∀ {s}, s ∈ criteria.filterMap (ProposalService.scoreByPair scores p) →
        1 ≤ s.score ∧ s.score ≤ 5 := by
      intro s h
      obtain ⟨c, -, hc⟩ := List.mem_filterMap.mp h
      exact hs s (ProposalService.scoreByPair_some hc).1
    have hlo₁ := (hmem hlo).1
    have hhi₅ := (hmem hhi).2
    have hone : (100 : Int) ≤ 100 * lo.score := by omega
    have hfive : 100 * hi.score ≤ (500 : Int) := by omega
    exact ⟨⟨lo, hlo, hi, hhi, hall, hle, hge⟩, hone.trans hle, hge.trans hfive⟩

/-! ## A sample -/

namespace Sample

/-- Two criteria, one of twice the weight of the other. -/
def costAndSpeed : List DecisionCriterion :=
  [⟨1, 20, 1, "Cost", none, 2, 0⟩, ⟨2, 20, 1, "Speed", none, 1, 1⟩]

/-- Both proposals are scored. -/
def fourAndFive : List ProposalScore :=
  [⟨1, 30, 1, 1, 4, none⟩, ⟨2, 30, 2, 1, 5, none⟩, ⟨3, 31, 1, 1, 4, none⟩, ⟨4, 31, 2, 1, 3, none⟩]

end Sample

theorem weighted_comparison_sample :
    ∃ h h', ProposalService.weightedBy floatHundredths Sample.costAndSpeed Sample.fourAndFive 30 =
        some h ∧
      ProposalService.weightedBy floatHundredths Sample.costAndSpeed Sample.fourAndFive 31 =
        some h' ∧
      h' ≤ h := by
  obtain ⟨-, hsome, -, -, -, hmono⟩ := weighted_comparison (.inr rfl)
    (show ∀ c ∈ Sample.costAndSpeed, 1 ≤ c.weight ∧ c.weight ≤ 100 by decide +kernel)
    (show ∀ s ∈ Sample.fourAndFive, 1 ≤ s.score ∧ s.score ≤ 5 by decide +kernel)
    (by decide +kernel)
  have hscored : ProposalService.Scored Sample.costAndSpeed Sample.fourAndFive 30 := by
    simp [ProposalService.Scored, Sample.costAndSpeed, Sample.fourAndFive]
  have hscored' : ProposalService.Scored Sample.costAndSpeed Sample.fourAndFive 31 := by
    simp [ProposalService.Scored, Sample.costAndSpeed, Sample.fourAndFive]
  have hne : Sample.costAndSpeed ≠ [] := List.cons_ne_nil _ _
  obtain ⟨h, hh⟩ := Option.isSome_iff_exists.mp ((hsome 30).mpr ⟨hne, hscored⟩)
  obtain ⟨h', hh'⟩ := Option.isSome_iff_exists.mp ((hsome 31).mpr ⟨hne, hscored'⟩)
  refine ⟨h, h', hh, hh', hmono 31 30 h' h ?_ hh' hh⟩
  simp [Sample.costAndSpeed, Sample.fourAndFive]

end ForkRoom
