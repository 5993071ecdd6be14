/-
# `Proof.Objections` — the history of objections

Every move of an objection leaves a status event, and no operation is aimed at
the events or takes an objection away.  But a proposal takes its objections along
when it is deleted, and they take their events along; `delete` asks only that the
proposal is a draft, and that its decision is a draft or active.

    draft ──→ submitted ──→ draft ──→ deleted, with its objections
                  └ objections are raised here

`objection_history` says that this is the only way.  As long as no commit deletes
a proposal or a decision with objections once the decision has left `draft`,
objections and events stay, every change of a status has its event, every change
of a severity is the commit of a request for it, and so a decision that was
blocked is still blocked, or one of the two has happened.
-/
import ForkRoom.System.Steps

namespace ForkRoom

open Optimistic Rows

/-! ## The condition -/

/-- The decision is there and has left `draft`. -/
def Tables.Launched (d : UUID) (t : Tables) : Prop :=
  ∃ x ∈ t.decisions, x.id = d ∧ x.status ≠ .draft

/-- The objection is about a proposal of the decision. -/
def Objection.On (o : Objection) (d : UUID) (t : Tables) : Prop :=
  ∃ x ∈ t.proposals, x.id = o.proposalId ∧ x.decisionId = d

instance (d : UUID) (t : Tables) : Decidable (t.Launched d) :=
  inferInstanceAs (Decidable (∃ x ∈ t.decisions, x.id = d ∧ x.status ≠ .draft))

instance (o : Objection) (d : UUID) (t : Tables) : Decidable (o.On d t) :=
  inferInstanceAs (Decidable (∃ x ∈ t.proposals, x.id = o.proposalId ∧ x.decisionId = d))

/-- The commit of the request would take objections of a decision that has left `draft` along:
it deletes their proposal or the decision, and no RESTRICT reference stops it. -/
def Op.takesObjections (db : Db) : Op → Bool
  | deleteProposal _ _ _ p => !db.restrictsProposals (fun id => id = p) &&
      db.objections.any fun o => o.proposalId = p &&
        db.decisions.any fun x => x.status ≠ .draft && o.On x.id db.toTables
  | deleteDecision _ _ d => !db.restrictsDecisions (fun id => id = d) && db.Launched d &&
      db.objections.any fun o => o.On d db.toTables
  | _ => false

def Op.deletesWorkspace : Op → Bool
  | deleteWorkspace .. => true
  | _ => false

/-- Requests that delete no workspace, and no commit that takes objections along. -/
def SparesObjections (c : Configuration) : Action Op → Prop
  | .start op => op.deletesWorkspace = false
  | .advance i => ∀ t ∈ c.threads[i]?, t.committing → t.op.takesObjections c.state = false

instance (c : Configuration) : ∀ a, Decidable (SparesObjections c a)
  | .start op => inferInstanceAs (Decidable (op.deletesWorkspace = false))
  | .advance i => inferInstanceAs
      (Decidable (∀ t ∈ c.threads[i]?, t.committing → t.op.takesObjections c.state = false))

/-! ## The property -/

/-- In between, a request with the property has committed. -/
def Commits (dep : Deployment) (ok : Configuration → Action Op → Prop) (P : Op → Prop)
    (c c' : Configuration) : Prop :=
  ∃ c₁ c₂ i t ws f g, Interleaving dep ok c c₁ ∧ c₁.threads[i]? = some t ∧ P t.op ∧
    t.rest = .done (.ok (.commit ws f g)) ∧
    c₁.act Db.commit (Op.program dep) (.advance i) = some c₂ ∧ c₁.state.commit ws = .ok c₂.state ∧
    Interleaving dep ok c₂ c'

/-- A request to move the objection `o` to the status `s`. -/
def Op.Moves (o : UUID) (s : ObjectionStatus) (op : Op) : Prop :=
  ∃ env user w d p note, op = .transitionObjection env user w d p o ⟨s, note⟩

/-- A request to give the objection `o` the severity `s`. -/
def Op.Regrades (o : UUID) (s : ObjectionSeverity) (op : Op) : Prop :=
  ∃ env user w d p payload, op = .updateObjection env user w d p o payload ∧
    payload.severity = some (some s)

/-- The objection has been moved to the status `s`, and an event says so. -/
def MovedTo (dep : Deployment) (ok : Configuration → Action Op → Prop) (c c' : Configuration)
    (o : UUID) (s : ObjectionStatus) : Prop :=
  Commits dep ok (Op.Moves o s) c c' ∧ ∃ e ∈ c'.state.objectionStatusEvents,
    e ∉ c.state.objectionStatusEvents ∧ e.objectionId = o ∧ e.toStatus = s

/-- The history of the objections of `d` has only been appended to. -/
structure HistoryKept (dep : Deployment) (ok : Configuration → Action Op → Prop) (d : UUID)
    (c c' : Configuration) : Prop where
  events : ∀ o ∈ c.state.objections, o.On d c.state.toTables →
    ∀ e ∈ c.state.objectionStatusEvents, e.objectionId = o.id → e ∈ c'.state.objectionStatusEvents
  objections : ∀ o ∈ c.state.objections, o.On d c.state.toTables →
    ∃ o' ∈ c'.state.objections, o'.id = o.id ∧ o'.proposalId = o.proposalId ∧
      (o'.status ≠ o.status → MovedTo dep ok c c' o.id o'.status) ∧
      (o'.severity ≠ o.severity → Commits dep ok (Op.Regrades o.id o'.severity) c c')
  blocking : ObjectionRepository.hasOpenBlockingForDecision d c.state = true →
    ObjectionRepository.hasOpenBlockingForDecision d c'.state = true ∨
      ∃ o ∈ c.state.objections, o.On d c.state.toTables ∧ o.severity = .blocking ∧
        o.status = .open ∧
        ((∃ s, s ≠ .open ∧ MovedTo dep ok c c' o.id s) ∨
          ∃ s, s ≠ .blocking ∧ Commits dep ok (Op.Regrades o.id s) c c')

/-- Open and blocking, and about a proposal of the decision. -/
theorem blocked_iff {d : UUID} {db : Db} :
    ObjectionRepository.hasOpenBlockingForDecision d db = true ↔
      ∃ o ∈ db.objections, o.severity = .blocking ∧ o.status = .open ∧ o.On d db.toTables := by
  simp only [ObjectionRepository.hasOpenBlockingForDecision, Objection.On, List.any_eq_true,
    Bool.and_eq_true, decide_eq_true_eq, and_assoc]

/-! ## Writes that delete nothing -/

/-- Deletes no workspace, decision or proposal, and takes no decision back to `draft`. -/
def Write.Gentle : Write → Prop
  | deleteWorkspace _ | deleteDecision _ | deleteProposal _ => False
  | setDecision loaded current _ => current.status = loaded.status ∨ current.status ≠ .draft
  | _ => True

/-- The objection `o` about the proposal `p` of the decision `d`, which has left `draft`. -/
structure Tables.Raised (o p d : UUID) (t : Tables) : Prop where
  objection : ∃ x ∈ t.objections, x.id = o ∧ x.proposalId = p
  proposal : ∃ x ∈ t.proposals, x.id = p ∧ x.decisionId = d
  launched : t.Launched d

/-- A row with a property that the update keeps. -/
theorem exists_update {α : Type} [DecidableEq α] [Keyed α UUID] {P : α → Prop} {rows : List α}
    {loaded current : α} {merge : α → α} (hmerge : ∀ x, P x → P (merge x))
    (h : ∃ x ∈ rows, P x) : ∃ x ∈ update loaded current merge rows, P x := by
  obtain ⟨x, hx, hp⟩ := h
  unfold update
  split
  · exact ⟨x, hx, hp⟩
  · refine ⟨_, mem_modify.mpr ⟨x, hx, rfl⟩, ?_⟩
    split
    · exact hmerge x hp
    · exact hp

theorem exists_append {α : Type} {P : α → Prop} {rows rows' : List α} (h : ∃ x ∈ rows, P x) :
    ∃ x ∈ rows ++ rows', P x := by
  obtain ⟨x, hx, hp⟩ := h
  exact ⟨x, List.mem_append_left _ hx, hp⟩

section
variable {o p d : UUID} {t : Tables} {w : Write} {ws : List Write}

theorem Tables.Raised.run (h : t.Raised o p d) (hw : w.Gentle) : (w.run t).Raised o p d := by
  obtain ⟨ho, hp, hd⟩ := h
  cases w with
  | deleteWorkspace | deleteDecision | deleteProposal => exact hw.elim
  | addObjection => exact ⟨exists_append ho, hp, hd⟩
  | setObjection => exact ⟨exists_update (fun _ hx => hx) ho, hp, hd⟩
  | addProposal => exact ⟨ho, exists_append hp, hd⟩
  | setProposal => exact ⟨ho, exists_update (fun _ hx => hx) hp, hd⟩
  | addDecision => exact ⟨ho, hp, exists_append hd⟩
  | setDecision loaded current =>
      refine ⟨ho, hp, exists_update (fun x hx => ⟨hx.1, ?_⟩) hd⟩
      show column loaded.status current.status x.status ≠ .draft
      by_cases he : current.status = loaded.status
      · rw [he, column_kept]
        exact hx.2
      · rw [column_changed he]
        exact hw.resolve_left he
  | _ => exact ⟨ho, hp, hd⟩

theorem Write.Gentle.events (hw : w.Gentle) :
    t.objectionStatusEvents ⊆ (w.run t).objectionStatusEvents := by
  cases w with
  | deleteWorkspace | deleteDecision | deleteProposal => exact hw.elim
  | addStatusEvent => exact List.subset_append_left _ _
  | _ => exact List.Subset.refl _

theorem Tables.Raised.write (h : t.Raised o p d) (hws : ∀ w ∈ ws, w.Gentle) :
    (t.write ws).Raised o p d ∧ t.objectionStatusEvents ⊆ (t.write ws).objectionStatusEvents := by
  induction ws generalizing t with
  | nil => exact ⟨h, List.Subset.refl _⟩
  | cons w ws ih =>
      have hw := hws w List.mem_cons_self
      obtain ⟨hraised, hevents⟩ := ih (h.run hw) fun x hx => hws x (List.mem_cons_of_mem _ hx)
      exact ⟨hraised, List.Subset.trans hw.events hevents⟩

/-- Deleting other proposals. -/
theorem Db.raised_withoutProposals {db : Db} (h : db.Raised o p d) {gone : UUID → Bool}
    (hp : gone p = false) : (db.withoutProposals gone).Raised o p d ∧
      ∀ e ∈ db.objectionStatusEvents, e.objectionId = o →
        e ∈ (db.withoutProposals gone).objectionStatusEvents := by
  obtain ⟨⟨x, hx, hxo, hxp⟩, ⟨y, hy, hyp, hyd⟩, hd⟩ := h
  refine ⟨⟨⟨x, List.mem_filter.mpr ⟨hx, ?_⟩, hxo, hxp⟩, ⟨y, List.mem_filter.mpr ⟨hy, ?_⟩, hyp, hyd⟩,
    hd⟩, fun e he heo => List.mem_filter.mpr ⟨he, ?_⟩⟩
  · rw [hxp, hp]
    rfl
  · rw [hyp, hp]
    rfl
  · rw [Bool.not_eq_true', List.any_eq_false]
    intro z hz hgone
    obtain ⟨hze, hzp⟩ := Bool.and_eq_true_iff.mp hgone
    have hzx : z = x := eq_of_key db.valid.pkObjections hz hx
      ((of_decide_eq_true hze).trans (heo.trans hxo.symm))
    rw [hzx, hxp, hp] at hzp
    cases hzp

end

/-! ## One commit -/

section
variable {dep : Deployment} {op : Op} {db db' : Db} {ss : List Db} {ws : List Write}
  {rejected : CommitError → ServiceError} {ok : Db → Except ServiceError Response} {o p d : UUID}

theorem Write.gentle_of_target {w : Write} (hw : w.target ≠ .workspaces)
    (hd : w.target ≠ .decisions) (hp : w.target ≠ .proposals) : w.Gentle := by
  cases w <;> first
    | exact trivial | exact absurd rfl hw | exact absurd rfl hd | exact absurd rfl hp

theorem allowedTransitions_ne_draft : ∀ {s s' : DecisionStatus},
    s' ∈ DecisionService.allowedTransitions s → s' ≠ .draft := by
  intro s s' h
  rintro rfl
  cases s <;> simp [DecisionService.allowedTransitions] at h

/-- A commit writes gently, or deletes one proposal, one decision or a workspace. -/
theorem Op.commits_gentle (hends : (op.program dep).Ends ss (.ok (.commit ws ok rejected))) :
    (∀ w ∈ ws, w.Gentle) ∨
    (∃ user w d p, op = .deleteProposal user w d p ∧ ws = [.deleteProposal p]) ∨
      (∃ user w d, op = .deleteDecision user w d ∧ ws = [.deleteDecision d]) ∨
      ∃ user w, op = .deleteWorkspace user w := by
  have hfoot := Op.commits_footprint hends
  by_cases haway : Target.workspaces ∉ op.footprint ∧ Target.decisions ∉ op.footprint ∧
      Target.proposals ∉ op.footprint
  · refine Or.inl fun w hw => Write.gentle_of_target ?_ ?_ ?_ <;> intro ht <;>
      have hmem := hfoot w hw <;> rw [ht] at hmem
    · exact haway.1 hmem
    · exact haway.2.1 hmem
    · exact haway.2.2 hmem
  cases op <;> (try (exfalso; simp [footprint] at haway; done)) <;>
    obtain ⟨_, h⟩ := Request.map_commits hends
  case createWorkspace =>
    rw [WorkspaceService.create_commits h]
    simp [Write.Gentle]
  case updateWorkspace =>
    obtain ⟨_, _, _, -, -, -, rfl⟩ := WorkspaceService.update_commits h
    simp [Write.Gentle]
  case deleteWorkspace user w _ => exact Or.inr (Or.inr (Or.inr ⟨user, w, rfl⟩))
  case createDecision =>
    obtain ⟨_, _, _, _, -, -, -, rfl, -⟩ := DecisionService.create_commits h
    simp [Write.Gentle]
  case updateDecision =>
    obtain ⟨_, _, _, _, -, -, -, -, -, rfl⟩ := DecisionService.update_commits h
    simp [Write.Gentle, DecisionService.assign]
  case transitionDecision env user w d payload _ =>
    obtain ⟨_, _, _, c, _, -, -, -, hallowed, rfl⟩ := DecisionService.transition_commits h
    refine Or.inl fun x hx => ?_
    rcases List.mem_append.mp hx with hx | hx
    · split at hx
      · rw [mem_stage hx]
        trivial
      · cases hx
    · rw [List.mem_singleton.mp hx]
      exact Or.inr (allowedTransitions_ne_draft hallowed)
  case deleteDecision user w d _ =>
    obtain ⟨_, _, _, c, -, hctx, -, -, rfl⟩ := DecisionService.delete_commits h
    obtain ⟨-, hid, -⟩ := DecisionRepository.getForWorkspace_some hctx.decision
    exact Or.inr (Or.inr (Or.inl ⟨user, w, d, rfl, by rw [hid]⟩))
  case createProposal =>
    obtain ⟨_, _, _, _, _, -, -, -, -, rfl, -⟩ := ProposalService.create_commits h
    simp [Write.Gentle]
  case updateProposal =>
    obtain ⟨_, _, _, _, _, _, -, -, -, -, -, -, rfl⟩ := ProposalService.update_commits h
    simp [Write.Gentle]
  case transitionProposal =>
    obtain ⟨_, _, _, _, _, _, -, -, -, -, -, -, rfl⟩ := ProposalService.transition_commits h
    simp [Write.Gentle]
  case deleteProposal user w d p _ =>
    obtain ⟨_, _, _, _, _, _, -, -, -, hread, -, -, rfl⟩ := ProposalService.delete_commits h
    obtain ⟨-, hid, -⟩ := ProposalRepository.getForDecision_some hread
    exact Or.inr (Or.inl ⟨user, w, d, p, rfl, by rw [hid]⟩)
  case createLock =>
    obtain ⟨_, _, _, _, _, _, _, _, _, _, _, _, _, c, _, _, _, _, _, -, -, rfl⟩ :=
      DecisionLockService.create_commits h
    refine Or.inl fun x hx => ?_
    rcases List.mem_append.mp hx with hx | hx
    · rw [mem_stage hx]
      trivial
    · simp only [List.mem_cons, List.not_mem_nil, or_false] at hx
      rcases hx with rfl | rfl
      · exact Or.inr (by simp [DecisionLockService.locked])
      · trivial
  case completeReview =>
    obtain ⟨_, _, _, _, _, _, _, -, -, -, -, -, -, h⟩ :=
      ActionReviewService.completeReview_commits h
    rcases h with ⟨-, -, rfl⟩ | ⟨-, _, _, _, _, _, -, -, -, rfl⟩ <;> simp [Write.Gentle]

/-- What a commit that takes no objections along leaves of an objection. -/
theorem Op.raised_step (h : db.Raised o p d)
    (hends : (op.program dep).Ends ss (.ok (.commit ws ok rejected)))
    (hc : db.commit ws = .ok db') (hop : op.deletesWorkspace = false)
    (hspares : op.takesObjections db = false) :
    db'.Raised o p d ∧
      ∀ e ∈ db.objectionStatusEvents, e.objectionId = o → e ∈ db'.objectionStatusEvents := by
  obtain ⟨heq, hfree⟩ := Db.commit_ok hc
  obtain ⟨⟨x, hx, hxo, hxp⟩, ⟨y, hy, hyp, hyd⟩, z, hz, hzd, hzs⟩ := id h
  rcases Op.commits_gentle hends with hgentle | ⟨user, w, e, q, rfl, rfl⟩ | ⟨user, w, e, rfl, rfl⟩ |
    ⟨user, w, rfl⟩
  · rw [heq]
    obtain ⟨hraised, hevents⟩ := h.write hgentle
    exact ⟨hraised, fun e he _ => hevents he⟩
  · rw [heq]
    have hpq : p ≠ q := by
      rintro rfl
      have hon : x.On z.id db.toTables := ⟨y, hy, hyp.trans hxp.symm, hyd.trans hzd.symm⟩
      have htakes : (deleteProposal user w e p).takesObjections db = true := by
        have hr : db.restrictsProposals (fun id => id = p) = false := hfree _ List.mem_cons_self
        simp only [takesObjections, hr, Bool.not_false, Bool.true_and, List.any_eq_true,
          Bool.and_eq_true, decide_eq_true_eq]
        exact ⟨x, hx, hxp, z, hz, hzs, hon⟩
      rw [htakes] at hspares
      cases hspares
    exact @Db.raised_withoutProposals o p d db h (fun k => k = q) (decide_eq_false hpq)
  · have hde : d ≠ e := by
      rintro rfl
      have hon : x.On d db.toTables := ⟨y, hy, hyp.trans hxp.symm, hyd⟩
      have htakes : (deleteDecision user w d).takesObjections db = true := by
        have hr : db.restrictsDecisions (fun id => id = d) = false := hfree _ List.mem_cons_self
        simp only [takesObjections, hr, Bool.not_false, Bool.true_and, List.any_eq_true,
          Bool.and_eq_true, decide_eq_true_eq]
        exact ⟨h.launched, x, hx, hon⟩
      rw [htakes] at hspares
      cases hspares
    have hgone : db.proposalsOf (fun k => k = e) p = false := by
      rw [Tables.proposalsOf, List.any_eq_false]
      intro q hq hgone
      obtain ⟨hqp, hqe⟩ := Bool.and_eq_true_iff.mp hgone
      have hqy : q = y := eq_of_key db.valid.pkProposals hq hy
        ((of_decide_eq_true hqp).trans hyp.symm)
      exact hde ((hyd.symm.trans (hqy ▸ of_decide_eq_true hqe)))
    rw [heq]
    obtain ⟨⟨ho, hp, -⟩, hevents⟩ := Db.raised_withoutProposals h hgone
    refine ⟨⟨ho, hp, z, List.mem_filter.mpr ⟨hz, ?_⟩, hzd, hzs⟩, hevents⟩
    simpa [hzd] using hde
  · cases hop

/-- What happens to an objection in a commit of `op`: a move with its event, or a new severity. -/
structure LeavesTrace (op : Op) (db db' : Db) (x x' : Objection) : Prop where
  status : x'.status ≠ x.status → op.Moves x.id x'.status ∧ ∃ e ∈ db'.objectionStatusEvents,
    e ∉ db.objectionStatusEvents ∧ e.objectionId = x.id ∧ e.toStatus = x'.status
  severity : x'.severity ≠ x.severity → op.Regrades x.id x'.severity

theorem LeavesTrace.refl (x : Objection) : LeavesTrace op db db' x x where
  status h := absurd rfl h
  severity h := absurd rfl h

/-- A column changes to a value that was sent. -/
theorem sent_of_column_ne {β : Type} [DecidableEq β] {field : Option (Option β)} {loaded stored : β}
    (h : column loaded (providedNonNull field loaded) stored ≠ stored) :
    field = some (some (column loaded (providedNonNull field loaded) stored)) := by
  rcases field with _ | _ | v
  · exact absurd (column_kept loaded stored) h
  · exact absurd (column_kept loaded stored) h
  · rcases column_cases loaded v stored with hcol | hcol
    · exact absurd hcol h
    · exact congrArg (fun v => some (some v)) hcol.symm

theorem ObjectionService.update_recorded {env : Env} {user : User} {w d p o : UUID}
    {payload : ObjectionUpdateRequest} {ok : Db → Except ServiceError Objection}
    (h : (ObjectionService.update env user w d p o payload).Ends ss (.ok (.commit ws ok rejected)))
    (hc : db.commit ws = .ok db') {x x' : Objection} (hx : x ∈ db.objections)
    (hx' : x' ∈ db'.objections) (hid : x'.id = x.id) :
    LeavesTrace (.updateObjection env user w d p o payload) db db' x x' := by
  obtain ⟨_, _, _, _, _, _, loaded, -, -, -, hread, -, -, rfl⟩ := ObjectionService.update_commits h
  obtain ⟨-, hlo, -⟩ := ObjectionRepository.getForProposal_some hread
  have hfound := Db.commit_found hc _ List.mem_cons_self
  rw [(Db.commit_ok hc).1, Tables.write, List.foldl] at hx'
  rcases Db.setObjection_cases hfound with ⟨-, hrun⟩ | ⟨y, hy, hyo, hrun⟩
  · rw [hrun] at hx'
    rw [eq_of_key db.valid.pkObjections hx' hx hid]
    exact .refl x
  rw [hrun] at hx'
  rcases (mem_replace hy).mp hx' with rfl | ⟨hmem, -⟩
  · have hxy : x = y := eq_of_key db.valid.pkObjections hx hy hid.symm
    subst hxy
    constructor
    · intro hne
      exact absurd (column_kept loaded.status x.status) hne
    · intro hne
      exact ⟨env, user, w, d, p, payload, by rw [hyo, hlo], sent_of_column_ne hne⟩
  · rw [eq_of_key db.valid.pkObjections hmem hx hid]
    exact .refl x

theorem ObjectionService.transition_recorded {env : Env} {user : User} {w d p o : UUID}
    {payload : ObjectionTransitionRequest} {ok : Db → Except ServiceError Objection}
    (h : (ObjectionService.transition env user w d p o payload).Ends ss
      (.ok (.commit ws ok rejected)))
    (hc : db.commit ws = .ok db') {x x' : Objection} (hx : x ∈ db.objections)
    (hx' : x' ∈ db'.objections) (hid : x'.id = x.id) :
    LeavesTrace (.transitionObjection env user w d p o payload) db db' x x' := by
  obtain ⟨_, _, _, _, _, _, loaded, -, -, -, hread, -, -, rfl⟩ :=
    ObjectionService.transition_commits h
  obtain ⟨-, hlo, -⟩ := ObjectionRepository.getForProposal_some hread
  have hfound := Db.commit_found hc _ List.mem_cons_self
  have hpk := db'.valid.pkObjectionStatusEvents
  have heq := (Db.commit_ok hc).1
  have hevents : db'.objectionStatusEvents = db.objectionStatusEvents ++ [⟨env.newId, loaded.id,
      user.id, loaded.status, payload.status, payload.note, env.dbNow⟩] := by
    rw [heq]
    rfl
  have hrows : db'.objections = ((Write.setObjection loaded (ObjectionService.moved loaded user.id
      payload.status payload.note env.now) env.dbNow).run db.toTables).objections := by
    rw [heq]
    rfl
  rw [hevents] at hpk
  rw [hrows] at hx'
  rcases Db.setObjection_cases hfound with ⟨-, hrun⟩ | ⟨y, hy, hyo, hrun⟩
  · rw [hrun] at hx'
    rw [eq_of_key db.valid.pkObjections hx' hx hid]
    exact .refl x
  rw [hrun] at hx'
  rcases (mem_replace hy).mp hx' with rfl | ⟨hmem, -⟩
  · have hxy : x = y := eq_of_key db.valid.pkObjections hx hy hid.symm
    subst hxy
    constructor
    · intro hne
      have hst : column loaded.status payload.status x.status = payload.status :=
        (column_cases _ _ _).resolve_left hne
      refine ⟨⟨env, user, w, d, p, payload.note, ?_⟩, _, hevents ▸ List.mem_append_right _
        List.mem_cons_self, fun he => hpk.ne_of_append _ he rfl, hyo.symm, hst.symm⟩
      show _ = Op.transitionObjection env user w d p x.id
        ⟨column loaded.status payload.status x.status, _⟩
      rw [hst, hyo, hlo]
    · intro hne
      exact absurd (column_kept loaded.severity x.severity) hne
  · rw [eq_of_key db.valid.pkObjections hmem hx hid]
    exact .refl x

/-- A commit records what it does to an objection. -/
theorem Op.objection_step (hends : (op.program dep).Ends ss (.ok (.commit ws ok rejected)))
    (hc : db.commit ws = .ok db') (hop : op.deletesWorkspace = false)
    {x x' : Objection} (hx : x ∈ db.objections) (hx' : x' ∈ db'.objections) (hid : x'.id = x.id) :
    LeavesTrace op db db' x x' := by
  have hold : x' ∈ db.objections → LeavesTrace op db db' x x' := by
    intro hmem
    rw [eq_of_key db.valid.pkObjections hmem hx hid]
    exact .refl x
  have heq := (Db.commit_ok hc).1
  rcases Op.commits_gentle hends with hgentle | ⟨user, w, e, q, rfl, rfl⟩ | ⟨user, w, e, rfl, rfl⟩ |
    ⟨user, w, rfl⟩
  · by_cases haway : Target.objections ∉ op.footprint
    · refine hold ?_
      have hsame : db'.objections = db.objections := by
        rw [heq]
        refine Tables.write_keeps Tables.objections
          (p := fun w => w.Gentle ∧ w.target ≠ .objections)
          (fun w t hw => ?_) _ fun w hw =>
            ⟨hgentle w hw, fun ht => haway (ht ▸ Op.commits_footprint hends w hw)⟩
        cases w <;> first | rfl | exact hw.1.elim | exact absurd rfl hw.2
      exact hsame ▸ hx'
    cases op <;> (try (exfalso; simp [footprint] at haway; done)) <;>
      obtain ⟨_, h⟩ := Request.map_commits hends
    case createObjection =>
      obtain ⟨_, _, _, _, _, row, -, -, -, -, -, rfl, -⟩ := ObjectionService.create_commits h
      have hpk := db'.valid.pkObjections
      have hrows : db'.objections = db.objections ++ [row] := by
        rw [heq]
        rfl
      rw [hrows] at hpk hx'
      rcases List.mem_append.mp hx' with hmem | hmem
      · exact hold hmem
      · rw [List.mem_singleton.mp hmem] at hid
        exact absurd hid.symm (hpk.ne_of_append x hx)
    case updateObjection => exact ObjectionService.update_recorded h hc hx hx' hid
    case transitionObjection => exact ObjectionService.transition_recorded h hc hx hx' hid
  · rw [heq] at hx'
    exact hold (List.mem_of_mem_filter hx')
  · rw [heq] at hx'
    exact hold (List.mem_of_mem_filter hx')
  · cases hop

end

/-! ## Runs -/

section
variable {dep : Deployment} {c c' c'' : Configuration} {o p d : UUID} {P : Op → Prop}
  {a : Action Op}

/-- What has happened to one objection: it is there, with its events, and its changes are
recorded. -/
structure Traceable (dep : Deployment) (o p d : UUID) (c c' : Configuration) : Prop where
  raised : c'.state.Raised o p d
  events : ∀ e ∈ c.state.objectionStatusEvents, e.objectionId = o →
    e ∈ c'.state.objectionStatusEvents
  status : ∀ x ∈ c.state.objections, x.id = o → ∀ x' ∈ c'.state.objections, x'.id = o →
    x'.status ≠ x.status → MovedTo dep SparesObjections c c' o x'.status
  severity : ∀ x ∈ c.state.objections, x.id = o → ∀ x' ∈ c'.state.objections, x'.id = o →
    x'.severity ≠ x.severity → Commits dep SparesObjections (Op.Regrades o x'.severity) c c'

theorem Commits.step (h : Commits dep SparesObjections P c c') (hok : SparesObjections c' a)
    (hact : c'.act Db.commit (Op.program dep) a = some c'') :
    Commits dep SparesObjections P c c'' := by
  obtain ⟨c₁, c₂, i, t, ws, f, g, hrun, ht, hP, hr, hact', hc, hrun'⟩ := h
  exact ⟨c₁, c₂, i, t, ws, f, g, hrun, ht, hP, hr, hact', hc, .step hrun' hok hact⟩

theorem Traceable.refl (h : c.state.Raised o p d) : Traceable dep o p d c c where
  raised := h
  events _ he _ := he
  status _ hx hxo _ hx' hxo' hne :=
    absurd (congrArg Objection.status
      (eq_of_key c.state.valid.pkObjections hx' hx (hxo'.trans hxo.symm))) hne
  severity _ hx hxo _ hx' hxo' hne :=
    absurd (congrArg Objection.severity
      (eq_of_key c.state.valid.pkObjections hx' hx (hxo'.trans hxo.symm))) hne

theorem Traceable.step (h : Traceable dep o p d c c')
    (hrun : Interleaving dep SparesObjections c c')
    (htraced : c'.Traced (Op.program dep)) (hstarts : c'.Only fun op => op.deletesWorkspace = false)
    (hok : SparesObjections c' a) (hact : c'.act Db.commit (Op.program dep) a = some c'') :
    Traceable dep o p d c c'' := by
  rcases Config.act_commit hact with hs | ⟨i, t, ws, f, g, rfl, ht, hnone, hr, hc⟩
  · refine ⟨hs ▸ h.raised, hs ▸ h.events, ?_, ?_⟩
    · intro x hx hxo x' hx' hxo' hne
      rw [hs] at hx'
      obtain ⟨hmoved, e, he, hnew⟩ := h.status x hx hxo x' hx' hxo' hne
      exact ⟨hmoved.step hok hact, e, hs ▸ he, hnew⟩
    · intro x hx hxo x' hx' hxo' hne
      rw [hs] at hx'
      exact (h.severity x hx hxo x' hx' hxo' hne).step hok hact
  have hmem := List.mem_of_getElem? ht
  have hends := htraced t hmem
  rw [hr] at hends
  have hspares := hok t ht (Thread.committing_of hnone hr)
  obtain ⟨hraised, hevents⟩ := Op.raised_step h.raised hends hc (hstarts t hmem) hspares
  have hcommits : ∀ {P : Op → Prop}, P t.op → Commits dep SparesObjections P c c'' := fun hP =>
    ⟨c', c'', i, t, ws, f, g, hrun, ht, hP, hr, hact, hc, .refl _⟩
  obtain ⟨y, hy, hyo, -⟩ := h.raised.objection
  have hrec : ∀ x'' ∈ c''.state.objections, x''.id = o →
      LeavesTrace t.op c'.state c''.state y x'' :=
    fun x'' hx'' hxo => Op.objection_step hends hc (hstarts t hmem) hy hx'' (hxo.trans hyo.symm)
  refine ⟨hraised, fun e he heo => hevents e (h.events e he heo) heo, ?_, ?_⟩
  · intro x hx hxo x'' hx'' hxo'' hne
    by_cases hlast : x''.status = y.status
    · rw [hlast] at hne ⊢
      obtain ⟨hmoved, e, he, hnew, heo, hes⟩ := h.status x hx hxo y hy hyo hne
      exact ⟨hmoved.step hok hact, e, hevents e he heo, hnew, heo, hes⟩
    · obtain ⟨hmoves, e, he, hnew, heo, hes⟩ := (hrec x'' hx'' hxo'').status hlast
      rw [hyo] at hmoves heo
      exact ⟨hcommits hmoves, e, he, fun hold => hnew (h.events e hold heo), heo, hes⟩
  · intro x hx hxo x'' hx'' hxo'' hne
    by_cases hlast : x''.severity = y.severity
    · rw [hlast] at hne ⊢
      exact (h.severity x hx hxo y hy hyo hne).step hok hact
    · have hregrades := (hrec x'' hx'' hxo'').severity hlast
      rw [hyo] at hregrades
      exact hcommits hregrades

/-- A configuration of such an interleaving: its requests are their programs, and none deletes a
workspace. -/
structure SparingConfig (dep : Deployment) (c : Configuration) : Prop where
  traced : c.Traced (Op.program dep)
  starts : c.Only fun op => op.deletesWorkspace = false

theorem SparingConfig.act (h : SparingConfig dep c) (hok : SparesObjections c a)
    (hact : c.act Db.commit (Op.program dep) a = some c') : SparingConfig dep c' where
  traced := h.traced.act hact
  starts := h.starts.act (fun op ha => by rw [ha] at hok; exact hok) hact

theorem SparingConfig.run (h : SparingConfig dep c)
    (hrun : Interleaving dep SparesObjections c c') :
    SparingConfig dep c' := by
  induction hrun with
  | refl => exact h
  | step _ hok hact ih => exact ih.act hok hact

theorem Traceable.run (hc : SparingConfig dep c) (h : c.state.Raised o p d)
    (hrun : Interleaving dep SparesObjections c c') : Traceable dep o p d c c' := by
  induction hrun with
  | refl => exact .refl h
  | step hrun hok hact ih =>
      have hc' := hc.run hrun
      exact ih.step hrun hc'.traced hc'.starts hok hact

/-- **The history of objections is only appended to.** -/
theorem objection_history {db : Db} (hrun : Interleaving dep SparesObjections (Config.idle db) c)
    (hd : c.state.Launched d) (hrun' : Interleaving dep SparesObjections c c') :
    HistoryKept dep SparesObjections d c c' := by
  have hc : SparingConfig dep c := SparingConfig.run ⟨Config.traced_idle _, Config.only_idle _⟩ hrun
  have htrace : ∀ x ∈ c.state.objections, x.On d c.state.toTables →
      Traceable dep x.id x.proposalId d c c' := fun x hx hon =>
    Traceable.run hc ⟨⟨x, hx, rfl, rfl⟩, hon, hd⟩ hrun'
  refine ⟨fun x hx hon => (htrace x hx hon).events, ?_, ?_⟩
  · intro x hx hon
    have h := htrace x hx hon
    obtain ⟨x', hx', hid, hp⟩ := h.raised.objection
    exact ⟨x', hx', hid, hp, h.status x hx rfl x' hx' hid, h.severity x hx rfl x' hx' hid⟩
  · intro hblocked
    obtain ⟨x, hx, hsev, hst, hon⟩ := blocked_iff.mp hblocked
    have h := htrace x hx hon
    obtain ⟨x', hx', hid, hp⟩ := h.raised.objection
    by_cases hst' : x'.status = .open
    · by_cases hsev' : x'.severity = .blocking
      · obtain ⟨q', hq', hqp', hqd'⟩ := h.raised.proposal
        exact Or.inl (blocked_iff.mpr ⟨x', hx', hsev', hst', q', hq', hqp'.trans hp.symm, hqd'⟩)
      · refine Or.inr ⟨x, hx, hon, hsev, hst, Or.inr ⟨x'.severity, hsev', ?_⟩⟩
        exact h.severity x hx rfl x' hx' hid (hsev ▸ hsev')
    · refine Or.inr ⟨x, hx, hon, hsev, hst, Or.inl ⟨x'.status, hst', ?_⟩⟩
      exact h.status x hx rfl x' hx' hid (hst ▸ hst')

end

namespace Sample

/-- Bob objects to a proposal of the active decision, and the objection blocks. -/
def object : Op := .createObjection (env 10 80) bob 10 20 30 ⟨.blocking, "Cost", "Too much"⟩

def blocked : Db := (object.exec dep drafted).2

theorem blocked_reachable : Reachable dep blocked := drafted_reachable.step _

/-- Bob has the objection resolved. -/
def resolve : Op := .transitionObjection (env 11 81) bob 10 20 30 80 ⟨.resolved, "Cheaper now"⟩

/-- Ada takes the proposal back. -/
def reopenProposal : Op := .transitionProposal (env 11 0) ada 10 20 30 ⟨.draft⟩

/-- Ada deletes it. -/
def deleteDraft : Op := .deleteProposal ada 10 20 30

end Sample

/-- An open blocking objection is gone without a trace, and its decision is active. -/
theorem objection_history_lost : Reachable Sample.dep Sample.blocked ∧ Sample.blocked.Launched 20 ∧
    ObjectionRepository.hasOpenBlockingForDecision 20 Sample.blocked = true ∧
      ∃ c, Interleaving Sample.dep (Starts fun op => !op.deletesWorkspace)
        (Config.idle Sample.blocked) c ∧
          ObjectionRepository.hasOpenBlockingForDecision 20 c.state = false ∧
          c.state.objections.map Objection.id = [] := by
  refine ⟨Sample.blocked_reachable, by decide +kernel, by decide +kernel, ?_⟩
  obtain ⟨c, hc, h⟩ := Option.map_eq_some_iff.mp (show ((Config.idle Sample.blocked).acts
    Db.commit (Op.program Sample.dep) (Starts fun op => !op.deletesWorkspace)
      (Sample.oneByOne 0 [(Sample.reopenProposal, 4), (Sample.deleteDraft, 4)])).map (fun c =>
        (ObjectionRepository.hasOpenBlockingForDecision 20 c.state,
          c.state.objections.map Objection.id)) = some (false, []) by decide +kernel)
  obtain ⟨hfree, hgone⟩ := Prod.mk.inj h
  exact ⟨c, Run.of_acts hc, hfree, hgone⟩

/-- An objection is resolved, its proposal is reopened, and the event stays. -/
theorem objection_history_sample : ∃ c,
    Interleaving Sample.dep SparesObjections (Config.idle Sample.blocked) c ∧
      c.state.objections.map Objection.status = [.resolved] ∧
      HistoryKept Sample.dep SparesObjections 20 (Config.idle Sample.blocked) c := by
  obtain ⟨c, hc, hresolved⟩ := Option.map_eq_some_iff.mp (show ((Config.idle Sample.blocked).acts
    Db.commit (Op.program Sample.dep) SparesObjections
      (Sample.oneByOne 0 [(Sample.resolve, 5), (Sample.reopenProposal, 4)])).map (fun c =>
        c.state.objections.map Objection.status) = some [.resolved] by decide +kernel)
  have hrun : Interleaving Sample.dep SparesObjections (Config.idle Sample.blocked) c :=
    Run.of_acts hc
  exact ⟨c, hrun, hresolved, objection_history (.refl (Config.idle Sample.blocked))
    (show Sample.blocked.Launched 20 by decide +kernel) hrun⟩

end ForkRoom
