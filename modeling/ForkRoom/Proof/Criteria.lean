/-
# `Proof.Criteria` — the criteria of a decision are a list

`decision_criteria` has a column `position`, unique within a decision and never
negative.  A new criterion gets one more than the largest position, a deletion
leaves a gap, and `reorder_criteria` numbers the criteria afresh from 0: the
unique constraint is deferred, so only the state at the commit counts.

    create_criterion    append
    update_criterion    keep
    delete_criterion    erase
    reorder_criteria    arrange, if the request is a permutation

`list_criteria` answers the list that these edits make, whatever else is done in
between; deleting the decision or its workspace clears it.  No commit violates
the constraint, because every staged write set keeps each decision's criteria a
list (`Op.commit_criteria`).
-/
import ForkRoom.System.Gates
import ForkRoom.System.Steps
import ForkRoom.Lib.Positions

namespace ForkRoom

open Optimistic Rows Positions

/-! ## The lists -/

/-- The criteria of the decision, in no order. -/
def Tables.criteriaIn (d : UUID) (t : Tables) : List DecisionCriterion :=
  t.decisionCriteria.filter fun c => c.decisionId = d

/-- The identifiers that `list_criteria` finds, in its order. -/
def criterionIds (d : UUID) (db : Db) : List UUID :=
  (ProposalRepository.listCriteria d db).map DecisionCriterion.id

/-- What the operation does to the criteria of the decision when it succeeds. -/
def Op.edit (db : Db) (d : UUID) : Op → Edit UUID
  | createCriterion env _ _ d' _ => if d' = d then .append env.newId else .keep
  | deleteCriterion _ _ d' criterionId => if d' = d then .erase criterionId else .keep
  | reorderCriteria _ _ d' payload => if d' = d then .arrange payload.criterionIds else .keep
  | deleteDecision _ _ d' => if d' = d then .clear else .keep
  | deleteWorkspace _ w => if db.decisionsOf w d then .clear else .keep
  | _ => .keep

/-- The list after the operations, one after the other: an operation that raises
an error leaves it alone. -/
def listedAfter (dep : Deployment) (d : UUID) : List Op → Db → List UUID → List UUID
  | [], _, l => l
  | op :: ops, db, l =>
      listedAfter dep d ops (op.exec dep db).2
        (if (op.exec dep db).1.isOk then (op.edit db d).apply l else l)

/-- `t` keeps the list `ids` as the criteria of the decision. -/
structure Tables.Listed (d : UUID) (ids : List UUID) (t : Tables) : Prop where
  listed : ∃ l, Lists DecisionCriterion.position (t.criteriaIn d) l ∧
    l.map DecisionCriterion.id = ids
  nonneg : ∀ c ∈ t.criteriaIn d, 0 ≤ c.position

section
variable {t t' : Tables} {d d' : UUID} {ids : List UUID} {db : Db}

theorem mem_criteriaIn {c : DecisionCriterion} :
    c ∈ t.criteriaIn d ↔ c ∈ t.decisionCriteria ∧ c.decisionId = d := by
  simp [Tables.criteriaIn]

/-- The unique constraint, decision by decision. -/
theorem uqDecisionCriteria_iff :
    Unique (fun c => (c.decisionId, c.position)) t.decisionCriteria ↔
      ∀ d, ((t.criteriaIn d).map DecisionCriterion.position).Nodup := by
  simp only [Unique, List.Nodup, List.pairwise_map, Tables.criteriaIn, List.pairwise_filter,
    decide_eq_true_eq, ne_eq, Prod.mk.injEq, not_and]
  constructor
  · intro h d
    exact h.imp fun hab ha hb => hab (ha.trans hb.symm)
  · intro h
    refine List.pairwise_iff_forall_sublist.mpr fun {a b} hab hd => ?_
    exact List.pairwise_iff_forall_sublist.mp (h b.decisionId) hab hd rfl

/-- Every state of the database keeps a list, and `list_criteria` finds it. -/
theorem Db.criteria_listed (db : Db) (d : UUID) : db.toTables.Listed d (criterionIds d db) where
  listed := ⟨_, lists_orderBy
    (uqDecisionCriteria_iff.mp db.valid.uqDecisionCriteriaDecisionPosition d), rfl⟩
  nonneg c hc := db.valid.ckDecisionCriteriaPosition c (mem_criteriaIn.mp hc).1

theorem Tables.Listed.criterionIds_eq (h : db.toTables.Listed d ids) : criterionIds d db = ids := by
  obtain ⟨l, hl, rfl⟩ := h.listed
  exact congrArg (List.map DecisionCriterion.id) hl.orderBy_eq

theorem Tables.Listed.congr (h : t.Listed d ids) (heq : t'.criteriaIn d = t.criteriaIn d) :
    t'.Listed d ids := by
  refine ⟨?_, ?_⟩
  · rw [heq]
    exact h.listed
  · rw [heq]
    exact h.nonneg

theorem Tables.Listed.clear (heq : t.criteriaIn d = []) : t.Listed d [] := by
  refine ⟨⟨[], ?_, rfl⟩, ?_⟩
  · rw [heq]
    exact Lists.nil
  · rw [heq]
    intro c hc
    nomatch hc

/-! ## One write -/

theorem Tables.Listed.append (h : t.Listed d ids) {row : DecisionCriterion} {id : UUID}
    (hid : row.id = id) (hd : row.decisionId = d)
    (hp : row.position = next DecisionCriterion.position (t.criteriaIn d)) :
    ((Write.addCriterion row).run t).Listed d (ids ++ [id]) := by
  obtain ⟨l, hl, rfl⟩ := h.listed
  have hrows : ((Write.addCriterion row).run t).criteriaIn d = t.criteriaIn d ++ [row] := by
    simp [Write.run, Tables.criteriaIn, hd]
  refine ⟨⟨l ++ [row], ?_, by simp [hid]⟩, ?_⟩
  · rw [hrows]
    exact hl.append fun r hr => hp ▸ lt_next hr
  · rw [hrows]
    intro c hc
    rcases List.mem_append.mp hc with hc | hc
    · exact h.nonneg c hc
    · rw [List.mem_singleton.mp hc, hp]
      exact next_nonneg _

theorem criteriaIn_add_other {row : DecisionCriterion} (hd : row.decisionId ≠ d) :
    ((Write.addCriterion row).run t).criteriaIn d = t.criteriaIn d := by
  simp [Write.run, Tables.criteriaIn, hd]

/-- An update of a criterion keeps its place. -/
theorem Tables.Listed.update (h : t.Listed d ids) {loaded current : DecisionCriterion}
    (hpos : current.position = loaded.position) :
    ((Write.setCriterion loaded current).run t).Listed d ids := by
  obtain ⟨l, hl, rfl⟩ := h.listed
  simp only [Write.run, ForkRoom.update]
  split
  · exact h
  · -- merging keeps the identifier, the decision and the position of each row
    let f (r : DecisionCriterion) := if Keyed.key r = Keyed.key loaded then
      loaded.merge current r else r
    have hf : ∀ r, (f r).id = r.id ∧ (f r).decisionId = r.decisionId ∧
        (f r).position = r.position := by
      intro r
      simp only [f]
      split
      · refine ⟨rfl, rfl, ?_⟩
        rw [DecisionCriterion.merge, hpos, column_kept]
      · exact ⟨rfl, rfl, rfl⟩
    have hrows : (t.decisionCriteria.map f).filter (fun c => c.decisionId = d) =
        (t.criteriaIn d).map f := by
      rw [List.filter_map, Tables.criteriaIn]
      congr 1
      refine List.filter_congr fun r _ => ?_
      simp only [Function.comp_apply, (hf r).2.1]
    refine ⟨⟨l.map f, ?_, ?_⟩, ?_⟩
    · show Lists _ ((t.decisionCriteria.map f).filter _) _
      rw [hrows]
      exact hl.map fun r => (hf r).2.2
    · rw [List.map_map]
      exact List.map_congr_left fun r _ => (hf r).1
    · show ∀ c ∈ (t.decisionCriteria.map f).filter _, _
      rw [hrows]
      intro c hc
      obtain ⟨r, hr, rfl⟩ := List.mem_map.mp hc
      rw [(hf r).2.2]
      exact h.nonneg r hr

/-- Without some of the criteria, the others are in their order. -/
theorem Tables.Listed.erase (h : t.Listed d ids) (id : UUID) :
    ((Write.deleteCriterion id).run t).Listed d (ids.filter fun x => x ≠ id) := by
  obtain ⟨l, hl, rfl⟩ := h.listed
  have hrows : ((Write.deleteCriterion id).run t).criteriaIn d =
      (t.criteriaIn d).filter fun c => c.id ≠ id := by
    simp [Write.run, Tables.withoutCriteria, Tables.criteriaIn, List.filter_filter, Bool.and_comm]
  refine ⟨⟨l.filter fun c => c.id ≠ id, ?_, ?_⟩, ?_⟩
  · rw [hrows]
    exact hl.filter _
  · rw [List.filter_map]
    rfl
  · rw [hrows]
    exact fun c hc => h.nonneg c (List.mem_filter.mp hc).1

theorem criteriaIn_delete_other (hn : PrimaryKey t.decisionCriteria) {c : DecisionCriterion}
    (hc : c ∈ t.decisionCriteria) (hd : c.decisionId ≠ d) :
    ((Write.deleteCriterion c.id).run t).criteriaIn d = t.criteriaIn d := by
  have hkeep : ((Write.deleteCriterion c.id).run t).criteriaIn d =
      (t.criteriaIn d).filter fun x => x.id ≠ c.id := by
    simp [Write.run, Tables.withoutCriteria, Tables.criteriaIn, List.filter_filter, Bool.and_comm]
  rw [hkeep, List.filter_eq_self]
  intro x hx
  obtain ⟨hx, hxd⟩ := mem_criteriaIn.mp hx
  refine decide_eq_true fun hid => hd ?_
  rw [← hxd, eq_of_key hn hx hc hid]

/-- A cascade from decisions takes all criteria of a decision or none. -/
theorem criteriaIn_withoutDecisions (hn : PrimaryKey t.decisionCriteria) (gone : UUID → Bool) :
    (t.withoutDecisions gone).criteriaIn d = if gone d then [] else t.criteriaIn d := by
  have hgone : ∀ c ∈ t.decisionCriteria, t.criteriaOf gone c.id = gone c.decisionId := by
    intro c hc
    rw [Tables.criteriaOf, Bool.eq_iff_iff, List.any_eq_true]
    constructor
    · rintro ⟨x, hx, hg⟩
      simp only [Bool.and_eq_true, decide_eq_true_eq] at hg
      rw [← eq_of_key hn hx hc hg.1]
      exact hg.2
    · exact fun hg => ⟨c, hc, by simpa using hg⟩
  have hrows : (t.withoutDecisions gone).decisionCriteria =
      t.decisionCriteria.filter fun c => !gone c.decisionId :=
    List.filter_congr fun c hc => by
      show (!t.criteriaOf gone c.id) = _
      rw [hgone c hc]
  rw [Tables.criteriaIn, hrows, List.filter_filter, Tables.criteriaIn]
  split
  · rename_i hd
    refine List.filter_eq_nil_iff.mpr fun c _ hc => ?_
    simp only [Bool.and_eq_true, decide_eq_true_eq, Bool.not_eq_true'] at hc
    rw [hc.1, hd] at hc
    exact absurd hc.2 (by decide)
  · rename_i hd
    refine List.filter_congr fun c _ => ?_
    by_cases hcd : c.decisionId = d
    · simp [hcd, hd]
    · simp [hcd]

/-! ## The writes of `reorder_criteria` -/

/-- The criterion at the index `n`. -/
def DecisionCriterion.placed (n : ℕ) (c : DecisionCriterion) : DecisionCriterion :=
  { c with position := n }

/-- Flushing a criterion with its new position places the stored row. -/
theorem setCriterion_placed (hn : PrimaryKey t.decisionCriteria) {c : DecisionCriterion}
    (hc : c ∈ t.decisionCriteria) (n : ℕ) :
    (Write.setCriterion c (c.placed n)).run t =
      { t with
        decisionCriteria := Rows.modify c.id (DecisionCriterion.placed n) t.decisionCriteria } := by
  have hplaced : Rows.modify c.id (DecisionCriterion.placed n) t.decisionCriteria =
      replace c (c.placed n) t.decisionCriteria := modify_eq_replace hn hc _
  have hmerge : c.merge (c.placed n) c = c.placed n := by
    simp [DecisionCriterion.merge, DecisionCriterion.placed]
  obtain ⟨r', hr', hupdate⟩ := update_fresh hn hc (c.placed n) (c.merge (c.placed n))
  have heq : r' = c.placed n := by
    rcases hr' with ⟨rfl, hsame⟩ | rfl
    · exact hsame.symm
    · exact hmerge
  rw [hplaced, Write.run, hupdate, heq]

/-- The loop of `reorder_criteria`, from the index `n`. -/
theorem write_repositioned : ∀ {l : List DecisionCriterion} {n : ℕ} {t : Tables},
    PrimaryKey t.decisionCriteria → (∀ c ∈ l, c ∈ t.decisionCriteria) →
    (l.map DecisionCriterion.id).Nodup →
    t.write ((l.zipIdx n).map fun x => .setCriterion x.1 { x.1 with position := x.2 }) =
      { t with decisionCriteria :=
          renumber DecisionCriterion.placed n (l.map DecisionCriterion.id) t.decisionCriteria }
  | [], _, _, _, _, _ => rfl
  | c :: l, n, t, hn, hl, hd => by
      obtain ⟨hc, hd⟩ := List.nodup_cons.mp hd
      have hstep := setCriterion_placed hn (hl c List.mem_cons_self) n
      let rows := Rows.modify c.id (DecisionCriterion.placed n) t.decisionCriteria
      have hn' : PrimaryKey rows := by
        have hkeys : rows.map DecisionCriterion.id = t.decisionCriteria.map DecisionCriterion.id :=
          map_modify (f := DecisionCriterion.placed n) _ (fun _ => rfl) _
        exact (hkeys ▸ hn : (rows.map DecisionCriterion.id).Nodup)
      have hl' : ∀ x ∈ l, x ∈ rows := by
        intro x hx
        refine mem_modify.mpr ⟨x, hl x (List.mem_cons_of_mem c hx), if_neg fun hk => hc ?_⟩
        exact hk ▸ List.mem_map_of_mem hx
      have ih := write_repositioned (n := n + 1) (t := { t with decisionCriteria := rows })
        hn' hl' hd
      rw [List.zipIdx_cons, List.map_cons, Tables.write, List.foldl_cons]
      rw [show (Write.setCriterion c { c with position := (n : ℤ) }).run t = _ from hstep]
      exact ih

/-- The criteria that the request names, in its order. -/
theorem map_filterMap_find {ks : List UUID} {rows : List DecisionCriterion}
    (h : ks ⊆ rows.map DecisionCriterion.id) :
    (ks.filterMap fun id => find id rows).map DecisionCriterion.id = ks := by
  induction ks with
  | nil => rfl
  | cons k ks ih =>
      obtain ⟨r, hr, hk⟩ := List.mem_map.mp (h List.mem_cons_self)
      cases hf : find k rows with
      | none => exact absurd hk (find_none.mp hf r hr)
      | some x =>
          have hrest := ih fun y hy => h (List.mem_cons_of_mem k hy)
          simp only [List.filterMap_cons, hf, List.map_cons, hrest]
          congr 1
          exact (find_some hf).2

/-- The request names each criterion once, which is what the two inclusions say. -/
theorem arranges_iff {ks l : List UUID} (hks : ks.Nodup) (hl : l.Nodup) :
    (ks ⊆ l ∧ l ⊆ ks) ↔ ks.Perm l := by
  rw [List.perm_ext_iff_of_nodup hks hl]
  exact ⟨fun h _ => ⟨fun hx => h.1 hx, fun hx => h.2 hx⟩,
    fun h => ⟨fun _ hx => (h _).mp hx, fun _ hx => (h _).mpr hx⟩⟩

theorem criterionIds_nodup (d : UUID) (db : Db) : (criterionIds d db).Nodup := by
  have hperm : (criterionIds d db).Perm ((db.criteriaIn d).map DecisionCriterion.id) :=
    (orderBy_perm _ _).map DecisionCriterion.id
  rw [hperm.nodup_iff]
  exact List.Nodup.sublist (List.filter_sublist.map _) db.valid.pkDecisionCriteria

/-- What the request names are stored criteria. -/
theorem mem_named {ks : List UUID} {c : DecisionCriterion}
    (hc : c ∈ ks.filterMap fun id => find id (ProposalRepository.listCriteria d db)) :
    c ∈ db.decisionCriteria := by
  obtain ⟨k, -, hf⟩ := List.mem_filterMap.mp hc
  exact (mem_criteriaIn.mp (mem_orderBy.mp (find_some hf).1)).1

/-- What `reorder_criteria` stages for a permutation numbers the criteria afresh. -/
theorem Db.write_reordered {ks : List UUID} (hks : ks.Nodup)
    (hperm : ks.Perm (criterionIds d db)) :
    db.toTables.write (ProposalService.repositioned
      (ks.filterMap fun id => find id (ProposalRepository.listCriteria d db))) =
      { db.toTables with
        decisionCriteria := renumber DecisionCriterion.placed 0 ks db.decisionCriteria } := by
  have hids : (ks.filterMap fun id => find id (ProposalRepository.listCriteria d db)).map
      DecisionCriterion.id = ks := map_filterMap_find fun _ h => hperm.mem_iff.mp h
  have h := write_repositioned (n := 0) db.valid.pkDecisionCriteria (fun _ hc => mem_named hc)
    (hids ▸ hks)
  rw [hids] at h
  exact h

/-- **The writes of `reorder_criteria` make the request the list, and touch no other decision.** -/
theorem Db.reordered_listed {ks : List UUID} (hks : ks.Nodup) (hperm : ks.Perm (criterionIds d db))
    (d' : UUID) :
    (db.toTables.write (ProposalService.repositioned
      (ks.filterMap fun id => find id (ProposalRepository.listCriteria d db)))).Listed d'
      (if d = d' then ks else criterionIds d' db) := by
  have hrows : (db.toTables.write (ProposalService.repositioned
      (ks.filterMap fun id => find id (ProposalRepository.listCriteria d db)))).criteriaIn d' =
      renumber DecisionCriterion.placed 0 ks (db.criteriaIn d') := by
    have hplace : ∀ n c, decide ((DecisionCriterion.placed n c).decisionId = d') =
        decide (c.decisionId = d') := fun _ _ => rfl
    rw [Db.write_reordered hks hperm]
    exact filter_renumber hplace 0 ks _
  by_cases hd : d = d'
  · subst hd
    have hkeys : ks.Perm ((db.criteriaIn d).map DecisionCriterion.id) :=
      hperm.trans ((orderBy_perm _ _).map DecisionCriterion.id)
    obtain ⟨l, hl, hlk⟩ : ∃ l, Lists DecisionCriterion.position
        (renumber DecisionCriterion.placed 0 ks (db.criteriaIn d)) l ∧
          l.map DecisionCriterion.id = ks :=
      lists_renumber DecisionCriterion.position DecisionCriterion.placed (fun _ _ => rfl)
        (fun _ _ => rfl) hks hkeys
    rw [if_pos rfl]
    refine ⟨⟨l, hrows ▸ hl, hlk⟩, ?_⟩
    rw [hrows]
    exact renumber_nonneg DecisionCriterion.position DecisionCriterion.placed (fun _ _ => rfl)
      (db.criteria_listed d).nonneg
  · rw [if_neg hd]
    refine (db.criteria_listed d').congr (hrows.trans (renumber_eq_self fun r hr hk => hd ?_))
    -- a named criterion is one of `d`
    obtain ⟨c, hc, hid⟩ := List.mem_map.mp (hperm.mem_iff.mp hk)
    obtain ⟨hc, hcd⟩ := mem_criteriaIn.mp (mem_orderBy.mp hc)
    obtain ⟨hr, hrd⟩ := mem_criteriaIn.mp hr
    rw [← hcd, ← hrd, eq_of_key db.valid.pkDecisionCriteria hc hr hid]

end

/-! ## One operation -/

section
variable {dep : Deployment} {op : Op} {db : Db} {d : UUID} {ss : List Db}

/-- Criteria stay when no write is aimed at them and none cascades. -/
theorem Tables.criteria_write {ws : List Write} (t : Tables)
    (h : ∀ w ∈ ws, w.target ≠ .decisionCriteria ∧ w.cascades = false) :
    (t.write ws).decisionCriteria = t.decisionCriteria := by
  refine Tables.write_keeps Tables.decisionCriteria ?_ t h
  intro w t hw
  cases w <;> first | rfl | exact absurd rfl hw.1 | nomatch hw.2

/-- **Whatever an operation stages keeps each decision's criteria a list**: the
list that its edit makes. -/
theorem Op.commit_criteria {ws : List Write} {ok : Db → Except ServiceError Response}
    {rejected : CommitError → ServiceError}
    (hends : (op.program dep).Ends ss (.ok (.commit ws ok rejected))) (hss : ∀ s ∈ ss, db = s)
    (d : UUID) : (db.toTables.write ws).Listed d ((op.edit db d).apply (criterionIds d db)) := by
  have hlisted := db.criteria_listed d
  have hfoot := Op.commits_footprint hends
  by_cases htarget : .decisionCriteria ∈ op.footprint
  · cases op <;> (try (simp [footprint] at htarget; done)) <;>
      obtain ⟨_, h⟩ := Request.map_commits hends
    case createCriterion env user w d' payload answer =>
      obtain ⟨s₁, s₂, s₃, s₄, c, rfl, -, -, -, rfl⟩ := ProposalService.createCriterion_commits h
      have hs : db = s₄ := hss s₄ (by simp)
      subst hs
      simp only [edit]
      split
      · rename_i hd
        subst hd
        exact hlisted.append rfl rfl rfl
      · rename_i hd
        exact hlisted.congr (criteriaIn_add_other hd)
    case updateCriterion user w d' criterionId payload answer =>
      obtain ⟨s₁, s₂, s₃, s₄, c, x, rfl, -, -, -, hx, rfl⟩ :=
        ProposalService.updateCriterion_commits h
      exact hlisted.update rfl
    case reorderCriteria user w d' payload answer =>
      obtain ⟨s₁, s₂, s₃, s₄, c, rfl, -, -, -, hsame, rfl⟩ :=
        ProposalService.reorderCriteria_commits h
      have hs : db = s₄ := hss s₄ (by simp)
      subst hs
      have hperm := (arranges_iff payload.distinct (criterionIds_nodup d' db)).mp hsame
      have h := Db.reordered_listed payload.distinct hperm d
      simp only [edit]
      split
      · rename_i hd
        rwa [if_pos hd] at h
      · rename_i hd
        rwa [if_neg hd] at h
    case deleteCriterion user w d' criterionId answer =>
      obtain ⟨s₁, s₂, s₃, s₄, c, x, rfl, -, -, -, hx, rfl⟩ :=
        ProposalService.deleteCriterion_commits h
      have hs : db = s₄ := hss s₄ (by simp)
      subst hs
      have hkey := List.find?_some hx
      simp only [Bool.and_eq_true, decide_eq_true_eq] at hkey
      obtain ⟨rfl, hxd⟩ := hkey
      simp only [edit]
      split
      · exact hlisted.erase x.id
      · rename_i hd
        refine hlisted.congr ?_
        exact criteriaIn_delete_other db.valid.pkDecisionCriteria (List.mem_of_find?_eq_some hx)
          fun hxd' => hd (hxd.symm.trans hxd')
  · by_cases hcascades : op.cascades = false
    · -- an operation that neither writes criteria nor cascades
      have hkeep : op.edit db d = .keep := by
        cases op <;> first | rfl | (simp [footprint] at htarget; done) | cases hcascades
      have hrows : (db.toTables.write ws).decisionCriteria = db.decisionCriteria :=
        Tables.criteria_write _ fun w hw =>
          ⟨fun ht => htarget (ht ▸ hfoot w hw), Op.commits_cascades hcascades hends w hw⟩
      rw [hkeep]
      refine hlisted.congr ?_
      rw [Tables.criteriaIn, hrows]
      rfl
    · cases op <;> (try exact absurd rfl hcascades) <;>
        obtain ⟨_, h⟩ := Request.map_commits hends
      case deleteDecision user w d' answer =>
        obtain ⟨s₁, s₂, s₃, c, rfl, hc, -, -, rfl⟩ := DecisionService.delete_commits h
        obtain ⟨-, hid, -⟩ := DecisionRepository.getForWorkspace_some hc.decision
        have hrows : (db.toTables.withoutDecisions fun x => x = d').criteriaIn d =
            if decide (d = d') then [] else db.criteriaIn d :=
          criteriaIn_withoutDecisions db.valid.pkDecisionCriteria _
        rw [hid]
        simp only [edit]
        split
        · rename_i hd
          refine Tables.Listed.clear (hrows.trans (if_pos ?_))
          exact decide_eq_true hd.symm
        · rename_i hd
          refine hlisted.congr (hrows.trans (if_neg ?_))
          simpa using Ne.symm hd
      case deleteWorkspace user w answer =>
        obtain ⟨s₁, s₂, c, rfl, hc, -, rfl⟩ := WorkspaceService.delete_commits h
        obtain ⟨-, hid⟩ := find_some hc.workspace
        have hid : c.workspace.id = w := hid
        rw [hid]
        have hrows : (db.toTables.withoutWorkspace w).criteriaIn d =
            if db.decisionsOf w d then [] else db.criteriaIn d :=
          criteriaIn_withoutDecisions db.valid.pkDecisionCriteria _
        simp only [edit]
        split
        · rename_i hd
          exact Tables.Listed.clear (hrows.trans (if_pos hd))
        · rename_i hd
          exact hlisted.congr (hrows.trans (if_neg hd))

/-- A commit, after which there is an answer. -/
def AnswersCommit {α : Type} : Outcome α → Prop
  | .reply _ => False
  | .commit ws ok _ => ∀ db db' : Db, db.commit ws = .ok db' → (ok db').isOk = true

/-- An operation that edits the criteria ends with a commit, and what follows it
does not fail. -/
theorem Op.edit_yields (hedit : op.edit db d ≠ .keep) : (op.program dep).Yields AnswersCommit := by
  cases op <;> (try exact absurd rfl hedit)
  all_goals
    refine Request.yields_map ?_
    repeat refine Reads.Yields.bind fun _ => ?_
    refine Reads.yields_pure ?_
    intro db db' hc
  case createCriterion env user w d' payload c _ _ position =>
    let row : DecisionCriterion :=
      ⟨env.newId, d', user.id, payload.name, payload.description, payload.weight, position⟩
    have hrow : row ∈ db'.decisionCriteria := by
      rw [(Db.commit_ok hc).1]
      exact List.mem_append_right _ (List.mem_singleton.mpr rfl)
    have hfound := refresh_of_mem (fun db => db.decisionCriteria) db'.valid.pkDecisionCriteria hrow
    show (Except.map _ (refresh _ row.id db')).isOk = true
    rw [show refresh _ row.id db' = _ from hfound]
    rfl
  all_goals rfl

/-- **One operation makes its edit, or leaves the list alone.** -/
theorem Op.exec_criteria (dep : Deployment) (op : Op) (db : Db) (d : UUID) :
    criterionIds d (op.exec dep db).2 =
      if (op.exec dep db).1.isOk then (op.edit db d).apply (criterionIds d db)
      else criterionIds d db := by
  by_cases hedit : op.edit db d = .keep
  · rw [hedit, Edit.apply, ite_self]
    rcases Request.exec_cases Db.commit (op.program dep) db with hsame | hcommit
    · exact congrArg (criterionIds d) hsame
    · obtain ⟨ss, ws, ok, rejected, hss, hends, hc⟩ := hcommit
      have hlisted := Op.commit_criteria hends hss d
      rw [hedit, ← (Db.commit_ok hc).1] at hlisted
      exact hlisted.criterionIds_eq
  have hyields := (Op.edit_yields hedit : (op.program dep).Yields _)
  cases hrun : (op.program dep).run db with
  | error e =>
      rw [Op.exec, Request.exec_of_error Db.commit hrun]
      rfl
  | ok i =>
      obtain ⟨ss, hss, hends⟩ := Reads.run_ok_iff.mp hrun
      cases i with
      | reply a => exact (hyields _ _ hends).elim
      | commit ws ok rejected =>
          rcases Request.exec_commit Db.commit hrun with ⟨db', hc, hexec⟩ | ⟨e, -, hexec⟩
          · have hok : (ok db').isOk = true := hyields _ _ hends db db' hc
            rw [Op.exec, hexec, if_pos hok]
            refine Tables.Listed.criterionIds_eq ?_
            rw [(Db.commit_ok hc).1]
            exact Op.commit_criteria hends hss d
          · rw [Op.exec, hexec]
            rfl

/-- **Any operations, one after the other.** -/
theorem criterionIds_runAll (dep : Deployment) (d : UUID) : ∀ (ops : List Op) (db : Db),
    criterionIds d (runAll dep ops db) = listedAfter dep d ops db (criterionIds d db)
  | [], _ => rfl
  | op :: ops, db => by
      rw [runAll, criterionIds_runAll dep d ops, listedAfter, Op.exec_criteria]

end

/-! ## `reorder_criteria` -/

/-- The caller may manage the criteria of the decision, and that is a draft or active. -/
def MayManageCriteria (user : User) (w d : UUID) (db : Db) : Prop :=
  ∃ c, InContext user.id w d db db db c ∧
    c.decision.status ∈ ProposalService.mutableDecisionStatuses ∧
    canManageCriteria c.membership.role

section
variable {dep : Deployment} {db : Db} {user : User} {w d : UUID} {payload : CriterionReorderRequest}

/-- New positions for the same criteria break no other constraint. -/
theorem Constraints.repositioned {t : Tables} {rows : List DecisionCriterion} (h : Constraints t)
    (hcolumns : rows.map (fun c => (c.id, c.decisionId, c.createdById, c.weight)) =
      t.decisionCriteria.map fun c => (c.id, c.decisionId, c.createdById, c.weight))
    (huq : Unique (fun c => (c.decisionId, c.position)) rows)
    (hck : ∀ c ∈ rows, 0 ≤ c.position) : Constraints { t with decisionCriteria := rows } := by
  have hids : rows.map DecisionCriterion.id = t.decisionCriteria.map DecisionCriterion.id := by
    have h := congrArg (List.map Prod.fst) hcolumns
    rw [List.map_map, List.map_map] at h
    exact h
  have hback : ∀ c ∈ rows, ∃ x ∈ t.decisionCriteria, x.id = c.id ∧
      x.decisionId = c.decisionId ∧ x.createdById = c.createdById ∧ x.weight = c.weight := by
    intro c hc
    have hmem := List.mem_map_of_mem (f := fun c : DecisionCriterion =>
      (c.id, c.decisionId, c.createdById, c.weight)) hc
    rw [hcolumns] at hmem
    obtain ⟨x, hx, heq⟩ := List.mem_map.mp hmem
    simp only [Prod.mk.injEq] at heq
    exact ⟨x, hx, heq⟩
  refine { h with
    pkDecisionCriteria := ?_
    uqDecisionCriteriaDecisionPosition := huq
    ckDecisionCriteriaPosition := hck
    ckDecisionCriteriaWeight := ?_
    fkDecisionCriteriaDecision := ?_
    fkDecisionCriteriaCreatedBy := ?_
    fkProposalScoresCriterion := ?_ }
  · exact (hids ▸ h.pkDecisionCriteria : (rows.map DecisionCriterion.id).Nodup)
  · intro c hc
    obtain ⟨x, hx, -, -, -, hweight⟩ := hback c hc
    exact hweight ▸ h.ckDecisionCriteriaWeight x hx
  · intro c hc
    obtain ⟨x, hx, -, hdecision, -⟩ := hback c hc
    exact hdecision ▸ h.fkDecisionCriteriaDecision x hx
  · intro c hc
    obtain ⟨x, hx, -, -, hcreated, -⟩ := hback c hc
    exact hcreated ▸ h.fkDecisionCriteriaCreatedBy x hx
  · intro score hscore
    obtain ⟨x, hx, hid⟩ := h.fkProposalScoresCriterion score hscore
    have hmem : x.id ∈ rows.map DecisionCriterion.id := hids ▸ List.mem_map_of_mem hx
    obtain ⟨c, hc, hcx⟩ := List.mem_map.mp hmem
    exact ⟨c, hc, hcx.trans hid⟩

/-- The rows that `reorder_criteria` writes break no constraint. -/
theorem Db.commit_repositioned {ks : List UUID} (hks : ks.Nodup)
    (hperm : ks.Perm (criterionIds d db)) :
    ∃ db', db.commit (ProposalService.repositioned
      (ks.filterMap fun id => find id (ProposalRepository.listCriteria d db))) = .ok db' := by
  have hlisted := Db.reordered_listed hks hperm
  have hvalid : Constraints (db.toTables.write (ProposalService.repositioned
      (ks.filterMap fun id => find id (ProposalRepository.listCriteria d db)))) := by
    have huq : Unique (fun c => (c.decisionId, c.position)) (db.toTables.write
        (ProposalService.repositioned (ks.filterMap fun id =>
          find id (ProposalRepository.listCriteria d db)))).decisionCriteria := by
      refine uqDecisionCriteria_iff.mpr fun d' => ?_
      obtain ⟨l, hl, -⟩ := (hlisted d').listed
      exact hl.nodup
    rw [Db.write_reordered hks hperm] at huq ⊢
    refine db.valid.repositioned ?_ huq ?_
    · exact map_renumber DecisionCriterion.placed _ (fun _ _ => rfl) 0 ks _
    · exact renumber_nonneg DecisionCriterion.position DecisionCriterion.placed (fun _ _ => rfl)
        db.valid.ckDecisionCriteriaPosition
  refine ⟨_, Db.commit_valid ?_ ?_ ?_ ?_ hvalid⟩
  · intro x hx
    obtain ⟨⟨c, n⟩, hcn, rfl⟩ := List.mem_map.mp hx
    have hc : c ∈ db.decisionCriteria := mem_named (List.fst_mem_of_mem_zipIdx hcn)
    exact missing_of_mem db.valid.pkDecisionCriteria hc _
  · intro x hx
    obtain ⟨y, -, rfl⟩ := List.mem_map.mp hx
    rfl
  · refine Tables.dangling_of_forall (fun x hx t => ?_) _
    obtain ⟨y, -, rfl⟩ := List.mem_map.mp hx
    rfl
  · rw [Db.write_reordered hks hperm]
    refine { db.fits with decisionCriteria := fun c hc => ?_ }
    have hmem : c.fits ∈ db.decisionCriteria.map DecisionCriterion.fits := by
      rw [← map_renumber DecisionCriterion.placed DecisionCriterion.fits (fun _ _ => rfl) 0 ks]
      exact List.mem_map_of_mem hc
    obtain ⟨x, hx, hfits⟩ := List.mem_map.mp hmem
    exact hfits ▸ db.fits.decisionCriteria x hx

/-- The reads of `reorder_criteria`: the error is `CriterionConflictError` exactly when
the caller passes the gates and the request is no permutation. -/
theorem ProposalService.reorderCriteria_conflict :
    (ProposalService.reorderCriteria user w d payload).run db = .error .criterionConflict ↔
      MayManageCriteria user w d db ∧ ¬ payload.criterionIds.Perm (criterionIds d db) := by
  have hgate : (decisionContext user.id w d).Raises fun e => e ≠ .criterionConflict :=
    decisionContext_raises (by decide) (by decide)
  rw [← arranges_iff payload.distinct (criterionIds_nodup d db)]
  simp only [ProposalService.reorderCriteria, ProposalService.requireMutableDecision,
    Reads.run_bind, Reads.run_query, Reads.run_require, Reads.run_pure]
  cases hc : (decisionContext user.id w d).run db with
  | error e =>
      refine ⟨fun h => ?_, fun h => ?_⟩
      · cases h
        exact absurd rfl (hgate db _ hc)
      · obtain ⟨⟨c, hctx, _⟩, _⟩ := h
        rw [decisionContext_run_iff.mpr hctx] at hc
        cases hc
  | ok c =>
      have hctx := decisionContext_run_iff.mp hc
      have hsame : MayManageCriteria user w d db ↔
          c.decision.status ∈ ProposalService.mutableDecisionStatuses ∧
            canManageCriteria c.membership.role := by
        refine ⟨fun h => ?_, fun h => ⟨c, hctx, h⟩⟩
        obtain ⟨c', hctx', h⟩ := h
        rw [decisionContext_run_iff.mpr hctx'] at hc
        cases hc
        exact h
      rw [hsame]
      by_cases hmutable : c.decision.status ∈ ProposalService.mutableDecisionStatuses
      · by_cases hrole : canManageCriteria c.membership.role = true
        · by_cases harranges :
              payload.criterionIds ⊆
                  (ProposalRepository.listCriteria d db).map DecisionCriterion.id ∧
                (ProposalRepository.listCriteria d db).map DecisionCriterion.id ⊆
                  payload.criterionIds
          · simp only [Except.bind, hmutable, hrole, harranges, criterionIds, if_true, and_self,
              not_true_eq_false, and_false, reduceCtorEq]
          · simp only [Except.bind, hmutable, hrole, harranges, criterionIds, if_true, if_false,
              and_self, not_false_eq_true]
        · simp [Except.bind, hmutable, hrole]
      · simp [Except.bind, hmutable]

/-- A request that is refused changes nothing. -/
theorem reorderCriteria_refused (hmay : MayManageCriteria user w d db)
    (hnot : ¬ payload.criterionIds.Perm (criterionIds d db)) :
    (Op.reorderCriteria user w d payload).exec dep db = (.error .criterionConflict, db) := by
  have hmap : ((Op.reorderCriteria user w d payload).program dep).run db = _ :=
    Request.run_map Response.criteria (ProposalService.reorderCriteria user w d payload) db
  rw [ProposalService.reorderCriteria_conflict.mpr ⟨hmay, hnot⟩] at hmap
  exact Request.exec_of_error Db.commit hmap

theorem reorderCriteria_conflict :
    ((Op.reorderCriteria user w d payload).exec dep db).1 = .error .criterionConflict ↔
      MayManageCriteria user w d db ∧ ¬ payload.criterionIds.Perm (criterionIds d db) := by
  constructor
  · intro h
    rw [← ProposalService.reorderCriteria_conflict]
    have hmap : ((Op.reorderCriteria user w d payload).program dep).run db = _ :=
      Request.run_map Response.criteria (ProposalService.reorderCriteria user w d payload) db
    have hyields : (ProposalService.reorderCriteria user w d payload).Yields
        fun i => ∃ ws, ∃ f : Db → List DecisionCriterion,
          i = .commit ws (fun s => .ok (f s)) .database := by
      repeat refine Reads.Yields.bind fun _ => ?_
      exact Reads.yields_pure ⟨_, _, rfl⟩
    cases hrun : (ProposalService.reorderCriteria user w d payload).run db with
    | error e =>
        rw [hrun] at hmap
        rw [Op.exec, Request.exec_of_error Db.commit hmap] at h
        cases h
        rfl
    | ok i =>
        -- a commit is answered with the criteria, or with the error of the database
        obtain ⟨ss, -, hends⟩ := Reads.run_ok_iff.mp hrun
        obtain ⟨ws, f, rfl⟩ := hyields _ _ hends
        rw [hrun] at hmap
        rcases Request.exec_commit Db.commit hmap with ⟨_, -, hexec⟩ | ⟨_, -, hexec⟩
        · rw [Op.exec, hexec] at h
          cases h
        · rw [Op.exec, hexec] at h
          cases h
  · rintro ⟨hmay, hnot⟩
    rw [reorderCriteria_refused hmay hnot]

/-- A permutation from a caller who passes the gates becomes the list. -/
theorem reorderCriteria_arranges (hmay : MayManageCriteria user w d db)
    (hperm : payload.criterionIds.Perm (criterionIds d db)) :
    ((Op.reorderCriteria user w d payload).exec dep db).1.isOk ∧
      criterionIds d ((Op.reorderCriteria user w d payload).exec dep db).2 =
        payload.criterionIds := by
  obtain ⟨c, hctx, hmutable, hrole⟩ := hmay
  have harranges := (arranges_iff payload.distinct (criterionIds_nodup d db)).mpr hperm
  have hrun : (ProposalService.reorderCriteria user w d payload).run db =
      .ok (.commit (ProposalService.repositioned (payload.criterionIds.filterMap fun id =>
          find id (ProposalRepository.listCriteria d db)))
        (fun db' => .ok ((payload.criterionIds.filterMap fun id =>
          find id (ProposalRepository.listCriteria d db)).filterMap fun criterion =>
            find criterion.id db'.decisionCriteria)) .database) := by
    simp only [criterionIds] at harranges
    simp only [ProposalService.reorderCriteria, ProposalService.requireMutableDecision,
      Reads.run_bind, Reads.run_query, Reads.run_require, Reads.run_pure,
      decisionContext_run_iff.mpr hctx, Except.bind, hmutable, hrole, harranges, and_self, if_true]
  have hmap : ((Op.reorderCriteria user w d payload).program dep).run db = _ :=
    Request.run_map Response.criteria (ProposalService.reorderCriteria user w d payload) db
  rw [hrun] at hmap
  obtain ⟨db', hc⟩ := Db.commit_repositioned payload.distinct hperm
  have hok : ((Op.reorderCriteria user w d payload).exec dep db).1.isOk = true := by
    rcases Request.exec_commit Db.commit hmap with ⟨_, -, hexec⟩ | ⟨e, he, -⟩
    · rw [Op.exec, hexec]
      rfl
    · rw [hc] at he
      cases he
  refine ⟨hok, ?_⟩
  rw [Op.exec_criteria, if_pos hok, Op.edit, if_pos rfl, Edit.apply]

/-- What a caller is answered who lists the criteria. -/
theorem listCriteria_exec {cs : List DecisionCriterion}
    (h : ((Op.listCriteria user w d).exec dep db).1 = .ok (.criteria cs)) :
    cs = ProposalRepository.listCriteria d db := by
  obtain ⟨ss, hss, ⟨hends, -⟩ | ⟨ws, ok, rejected, hends, -⟩⟩ :=
    Request.exec_ok Db.commit h
  · obtain ⟨cs', hreply, heq⟩ := Request.map_replies hends
    cases heq
    simp only [ProposalService.listCriteria, decisionContext_bind, Reads.ends_query_bind,
      Reads.ends_pure] at hreply
    obtain ⟨s₁, s₂, s₃, _, c, rfl, -, s₄, _, rfl, rfl, hcs⟩ := hreply
    cases hcs
    rw [hss s₄ (by simp)]
  · exact absurd hends (Op.read_commits_nothing rfl)

end

/-! ## The list -/

/-- **The criteria of a decision are a list.**  From any state, after any
operations: the list that their edits make is what `list_criteria` answers; the
positions are distinct and not negative, also in what any next operation stages;
and `reorder_criteria` refuses exactly the requests that are no permutations. -/
theorem criteria_are_a_list (dep : Deployment) (d : UUID) (ops : List Op) (db : Db) :
    let db' := runAll dep ops db
    let listed := listedAfter dep d ops db (criterionIds d db)
    (∀ user w cs, ((Op.listCriteria user w d).exec dep db').1 = .ok (.criteria cs) →
      cs.map DecisionCriterion.id = listed) ∧
    criterionIds d db' = listed ∧
    ((db'.criteriaIn d).map DecisionCriterion.position).Nodup ∧
    (∀ c ∈ db'.criteriaIn d, 0 ≤ c.position) ∧
    (∀ (op : Op) ws ok rejected, (op.program dep).run db' = .ok (.commit ws ok rejected) →
      Unique (fun c => (c.decisionId, c.position)) (db'.toTables.write ws).decisionCriteria ∧
        ∀ c ∈ (db'.toTables.write ws).decisionCriteria, 0 ≤ c.position) ∧
    ∀ user w payload,
      let answer := (Op.reorderCriteria user w d payload).exec dep db'
      (answer.1 = .error .criterionConflict ↔
        MayManageCriteria user w d db' ∧ ¬ payload.criterionIds.Perm listed) ∧
      (answer.1 = .error .criterionConflict → answer.2 = db') ∧
      (MayManageCriteria user w d db' → payload.criterionIds.Perm listed →
        answer.1.isOk ∧ criterionIds d answer.2 = payload.criterionIds) := by
  intro db' listed
  have hlisted : criterionIds d db' = listed := criterionIds_runAll dep d ops db
  refine ⟨?_, hlisted, ?_, ?_, ?_, ?_⟩
  · intro user w cs h
    rw [listCriteria_exec h]
    exact hlisted
  · exact uqDecisionCriteria_iff.mp db'.valid.uqDecisionCriteriaDecisionPosition d
  · exact (db'.criteria_listed d).nonneg
  · intro op ws ok rejected hrun
    obtain ⟨ss, hss, hends⟩ := Reads.run_ok_iff.mp hrun
    have hstaged := Op.commit_criteria hends hss
    refine ⟨uqDecisionCriteria_iff.mpr fun d' => ?_, fun c hc => ?_⟩
    · obtain ⟨l, hl, -⟩ := (hstaged d').listed
      exact hl.nodup
    · exact (hstaged c.decisionId).nonneg c (mem_criteriaIn.mpr ⟨hc, rfl⟩)
  · intro user w payload
    rw [← hlisted]
    refine ⟨reorderCriteria_conflict, ?_, reorderCriteria_arranges⟩
    intro hconflict
    obtain ⟨hmay, hnot⟩ := reorderCriteria_conflict.mp hconflict
    exact congrArg Prod.snd (reorderCriteria_refused hmay hnot)

end ForkRoom
