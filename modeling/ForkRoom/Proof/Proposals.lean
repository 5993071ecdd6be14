/-
# `Proof.Proposals` — submitted proposals and late commits

`update` and `transition` check the status of the proposal they have read; the
commit writes the columns that the request has changed, over whatever is stored by
then.  The table has no check constraint, so nothing stops a commit that comes late:

    read         wanted       stored                   what is stored then
    draft        new text     submitted, withdrawn     the new text
    any          not          withdrawn                a proposal that is back
                 withdrawn
    draft        withdrawn    submitted                withdrawn, with `submitted_at`

So an edit or a transition is safe as long as no other transition of the proposal gets
between its check of the status and its commit (`submitted_immutable`).
-/
import ForkRoom.System.Steps

namespace ForkRoom

open Optimistic Rows

/-! ## The condition -/

/-- The status that the request has checked, with its fourth read. -/
def checkedStatus (seen : List Db) (p : UUID) : Option ProposalStatus :=
  (seen[3]?.bind fun s => find p s.proposals).map Proposal.status

/-- The proposal of the request has another status by now than the one it has checked. -/
def Op.overtaken (db : Db) (seen : List Db) : Op → Bool
  | updateProposal _ _ _ _ p _ | transitionProposal _ _ _ _ p _ =>
      (find p db.proposals).map Proposal.status ≠ checkedStatus seen p
  | _ => false

/-- The step commits a request that has been overtaken. -/
def Overtaken (c : Configuration) : Action Op → Prop
  | .start _ => False
  | .advance i => ∃ t ∈ c.threads[i]?, t.committing ∧ t.op.overtaken c.state t.seen

instance (c : Configuration) : ∀ a, Decidable (Overtaken c a)
  | .start _ => isFalse id
  | .advance i => inferInstanceAs
      (Decidable (∃ t ∈ c.threads[i]?, t.committing ∧ t.op.overtaken c.state t.seen))

/-- Every request but those that create or delete proposals. -/
def Op.keepsProposals : Op → Bool
  | createProposal .. | deleteProposal .. | deleteDecision .. | deleteWorkspace .. => false
  | _ => true

/-- Interleavings of such requests in which none is overtaken. -/
def EditsInTime (c : Configuration) (a : Action Op) : Prop :=
  Starts Op.keepsProposals c a ∧ ¬ Overtaken c a

instance (c : Configuration) (a : Action Op) : Decidable (EditsInTime c a) :=
  inferInstanceAs (Decidable (_ ∧ _))

/-! ## The invariant and the step -/

/-- The times go with the status. -/
def Proposal.Stamped (p : Proposal) : Prop :=
  (p.submittedAt ≠ none ↔ p.status = .submitted) ∧ (p.withdrawnAt ≠ none ↔ p.status = .withdrawn)

/-- The text stays, unless the proposal is a draft, and withdrawn stays withdrawn. -/
structure Proposal.Settles (p p' : Proposal) : Prop where
  id : p'.id = p.id
  text : p.status ≠ .draft →
    p'.title = p.title ∧ p'.summary = p.summary ∧ p'.content = p.content
  withdrawn : p.status = .withdrawn → p'.status = .withdrawn

theorem Proposal.Settles.refl (p : Proposal) : p.Settles p :=
  ⟨rfl, fun _ => ⟨rfl, rfl, rfl⟩, fun h => h⟩

/-- Every proposal is stamped. -/
def ProposalInv (db : Db) : Prop := ∀ p ∈ db.proposals, p.Stamped

/-- Every proposal is still there, and settled. -/
def ProposalStep (db db' : Db) : Prop := ∀ p ∈ db.proposals, ∃ p' ∈ db'.proposals, p.Settles p'

theorem ProposalStep.refl (db : Db) : ProposalStep db db := fun p hp => ⟨p, hp, .refl p⟩

section
variable {dep : Deployment} {op : Op} {db db' : Db} {ss : List Db} {ws : List Write}
  {rejected : CommitError → ServiceError} {env : Env} {user : User} {w d p : UUID}

/-- A proposal that is replaced by a stamped one that it settles to. -/
theorem ProposalInv.replace (h : ProposalInv db) {x x' : Proposal} (hx : x ∈ db.proposals)
    (hrows : db'.proposals = replace x x' db.proposals) (hst : x'.Stamped) (hs : x.Settles x') :
    ProposalInv db' ∧ ProposalStep db db' := by
  refine ⟨fun y hy => ?_, fun y hy => ?_⟩
  · rw [hrows] at hy
    rcases (mem_replace hx).mp hy with rfl | ⟨hy, -⟩
    · exact hst
    · exact h y hy
  · rw [hrows]
    by_cases hk : y.id = x.id
    · rw [eq_of_key db.valid.pkProposals hy hx hk]
      exact ⟨x', (mem_replace hx).mpr (Or.inl rfl), hs⟩
    · exact ⟨y, (mem_replace hx).mpr (Or.inr ⟨hy, hk⟩), .refl y⟩

theorem ProposalInv.of_same (h : ProposalInv db) (hrows : db'.proposals = db.proposals) :
    ProposalInv db' ∧ ProposalStep db db' := by
  rw [ProposalInv, ProposalStep, hrows]
  exact ⟨h, ProposalStep.refl db⟩

/-- A commit that writes one proposal: what is stored then. -/
theorem Db.commit_setProposal {loaded current : Proposal} {at_ : Datetime}
    (hc : db.commit [.setProposal loaded current at_] = .ok db') :
    (current = loaded ∧ db'.proposals = db.proposals) ∨
      ∃ x ∈ db.proposals, x.id = loaded.id ∧ current ≠ loaded ∧
        db'.proposals = Rows.replace x (loaded.merge current at_ x) db.proposals := by
  have hfound := Db.commit_found hc _ List.mem_cons_self
  rw [(Db.commit_ok hc).1, Tables.write, List.foldl]
  by_cases hsame : current = loaded
  · exact Or.inl ⟨hsame, if_pos hsame⟩
  · rcases Db.setProposal_cases hfound with ⟨he, -⟩ | ⟨x, hx, hid, hrun⟩
    · exact absurd he hsame
    · rw [hrun]
      exact Or.inr ⟨x, hx, hid, hsame, rfl⟩

/-- The stored proposal has the status of the one that was read. -/
theorem Op.status_checked {db s : Db} {s₁ s₂ s₃ : Db} {loaded x : Proposal}
    (hloaded : loaded ∈ s.proposals) (hx : x ∈ db.proposals) (hid : x.id = loaded.id)
    (hturn : decide ((find loaded.id db.proposals).map Proposal.status ≠
      checkedStatus [s₁, s₂, s₃, s] loaded.id) = false) : x.status = loaded.status := by
  have hkey : find loaded.id db.proposals = some x := hid ▸ find_of_mem db.valid.pkProposals hx
  have hkey' : find loaded.id s.proposals = some loaded := find_of_mem s.valid.pkProposals hloaded
  have hsame := of_decide_eq_false hturn
  rw [Decidable.not_not, hkey, checkedStatus] at hsame
  exact Option.some.inj (hsame.trans (congrArg (Option.map Proposal.status) hkey'))

theorem ProposalService.update_stamped {payload : ProposalUpdateRequest}
    {ok : Db → Except ServiceError Proposal} (hI : ProposalInv db)
    (hturn : (Op.updateProposal env user w d p payload).overtaken db ss = false)
    (h : (ProposalService.update env user w d p payload).Ends ss (.ok (.commit ws ok rejected)))
    (hc : db.commit ws = .ok db') : ProposalInv db' ∧ ProposalStep db db' := by
  obtain ⟨_, _, _, s₄, _, loaded, rfl, -, -, hread, -, hst, rfl⟩ := ProposalService.update_commits h
  obtain ⟨hmem, rfl, -⟩ := ProposalRepository.getForDecision_some hread
  rcases Db.commit_setProposal hc with ⟨-, hrows⟩ | ⟨x, hx, hid, -, hrows⟩
  · exact hI.of_same hrows
  -- the stored proposal is a draft, as the one that was checked
  have hdraft : x.status = .draft := (Op.status_checked hmem hx hid hturn).trans hst
  refine hI.replace hx hrows ?_ ⟨rfl, fun h => absurd hdraft h, fun h => ?_⟩
  · have hstamped := hI x hx
    unfold Proposal.Stamped at hstamped ⊢
    simp only [Proposal.merge, ProposalService.assign, column_kept]
    exact hstamped
  · rw [hdraft] at h
    cases h

/-- A transition changes the status, and none leaves `withdrawn`. -/
theorem ProposalService.transition_changes {status target : ProposalStatus}
    (h : target ∈ ProposalService.proposalTransitions status) :
    target ≠ status ∧ status ≠ .withdrawn := by
  cases status <;> cases target <;> revert h <;> decide

/-- The status and the two times after a transition of a stored proposal with the status
that was checked. -/
theorem ProposalService.moved_stamped {loaded x : Proposal} {target : ProposalStatus}
    {now at_ : Datetime} (hl : loaded.Stamped) (hx : x.Stamped) (hsame : x.status = loaded.status)
    (htarget : target ∈ ProposalService.proposalTransitions loaded.status) :
    (loaded.merge (ProposalService.moved loaded target now) at_ x).status = target ∧
      (loaded.merge (ProposalService.moved loaded target now) at_ x).Stamped := by
  have hnew := ProposalService.transition_changes htarget
  have hstatus : (loaded.merge (ProposalService.moved loaded target now) at_ x).status = target :=
    column_changed hnew.1 _
  -- neither of the two was withdrawn, and both were submitted or neither
  have hw : loaded.withdrawnAt = none := not_ne_iff.mp fun h => hnew.2 (hl.2.mp h)
  have hxw : x.withdrawnAt = none := not_ne_iff.mp fun h => hnew.2 (hsame ▸ hx.2.mp h)
  have hboth : loaded.submittedAt ≠ none ↔ x.submittedAt ≠ none := by
    rw [hl.1, hx.1, hsame]
  have hsub : (loaded.merge (ProposalService.moved loaded target now) at_ x).submittedAt =
      column loaded.submittedAt (if target = .submitted then some now else none)
        x.submittedAt := rfl
  have hwith : (loaded.merge (ProposalService.moved loaded target now) at_ x).withdrawnAt =
      column loaded.withdrawnAt (if target = .withdrawn then some now else none)
        x.withdrawnAt := rfl
  refine ⟨hstatus, ?_⟩
  rw [Proposal.Stamped, hstatus, hsub, hwith, hw, hxw]
  by_cases hsl : loaded.submittedAt = none
  · have hsx : x.submittedAt = none := by
      by_contra hne
      exact hboth.mpr hne hsl
    rw [hsl, hsx]
    cases target <;> simp [column]
  · cases target with
    | submitted => exact absurd (hl.1.mp hsl).symm hnew.1
    | _ => simp [column, Ne.symm hsl]

theorem ProposalService.transition_stamped {payload : ProposalTransitionRequest}
    {ok : Db → Except ServiceError Proposal} (hI : ProposalInv db) (hss : ∀ s ∈ ss, ProposalInv s)
    (hturn : (Op.transitionProposal env user w d p payload).overtaken db ss = false)
    (h : (ProposalService.transition env user w d p payload).Ends ss
      (.ok (.commit ws ok rejected)))
    (hc : db.commit ws = .ok db') : ProposalInv db' ∧ ProposalStep db db' := by
  obtain ⟨_, _, _, s₄, _, loaded, rfl, -, -, hread, -, htarget, rfl⟩ :=
    ProposalService.transition_commits h
  obtain ⟨hmem, rfl, -⟩ := ProposalRepository.getForDecision_some hread
  simp only [List.forall_mem_cons] at hss
  obtain ⟨-, -, -, h₄, -⟩ := hss
  rcases Db.commit_setProposal hc with ⟨-, hrows⟩ | ⟨x, hx, hid, -, hrows⟩
  · exact hI.of_same hrows
  have hsame := Op.status_checked hmem hx hid hturn
  obtain ⟨-, hstamped⟩ := @ProposalService.moved_stamped _ _ _ env.now env.dbNow
    (h₄ loaded hmem) (hI x hx) hsame htarget
  refine hI.replace hx hrows hstamped ⟨rfl, fun _ => ?_, fun hst => ?_⟩
  · exact ⟨column_kept _ _, column_kept _ _, column_kept _ _⟩
  · -- no transition leaves `withdrawn`
    rw [← hsame, hst] at htarget
    cases htarget

/-- What the commit of a request that is not overtaken does to the proposals. -/
theorem Op.commit_stamped {ok : Db → Except ServiceError Response} (hop : op.keepsProposals)
    (hI : ProposalInv db) (hss : ∀ s ∈ ss, ProposalInv s) (hturn : op.overtaken db ss = false)
    (hends : (op.program dep).Ends ss (.ok (.commit ws ok rejected)))
    (hc : db.commit ws = .ok db') : ProposalInv db' ∧ ProposalStep db db' := by
  by_cases haside : Target.proposals ∉ op.footprint ∧ op.cascades = false
  · have hfoot := Op.commits_footprint hends
    have hcascades := Op.commits_cascades haside.2 hends
    refine hI.of_same ?_
    rw [(Db.commit_ok hc).1]
    exact Tables.proposals_write _ fun x hx =>
      ⟨fun ht => haside.1 (ht ▸ hfoot x hx), hcascades x hx⟩
  cases op <;> (try (exfalso; simp [footprint, cascades] at haside; done)) <;>
    (try (exfalso; simp [keepsProposals] at hop; done)) <;>
    obtain ⟨_, h⟩ := Request.map_commits hends
  case updateProposal => exact ProposalService.update_stamped hI hturn h hc
  case transitionProposal => exact ProposalService.transition_stamped hI hss hturn h hc

end

/-! ## The runs -/

section
variable {dep : Deployment} {db₀ db db' : Db} {c c' : Configuration} {a : Action Op} {op : Op}
  {ss : List Db} {ws : List Write} {rejected : CommitError → ServiceError}

/-- Creating and deleting proposals keeps the others stamped. -/
theorem Op.commit_created {ok : Db → Except ServiceError Response} (hop : op.keepsProposals = false)
    (hI : ProposalInv db) (hends : (op.program dep).Ends ss (.ok (.commit ws ok rejected)))
    (hc : db.commit ws = .ok db') : ProposalInv db' := by
  have htables := (Db.commit_ok hc).1
  have hsub : (∀ p ∈ db'.proposals, p ∈ db.proposals) → ProposalInv db' :=
    fun h p hp => hI p (h p hp)
  cases op <;> (try (exfalso; simp [keepsProposals] at hop; done)) <;>
    obtain ⟨_, h⟩ := Request.map_commits hends
  case deleteWorkspace =>
    obtain ⟨_, _, _, -, -, -, rfl⟩ := WorkspaceService.delete_commits h
    refine hsub fun p hp => ?_
    rw [htables] at hp
    exact (List.mem_filter.mp hp).1
  case deleteDecision =>
    obtain ⟨_, _, _, _, -, -, -, -, rfl⟩ := DecisionService.delete_commits h
    refine hsub fun p hp => ?_
    rw [htables] at hp
    exact (List.mem_filter.mp hp).1
  case createProposal =>
    obtain ⟨_, _, _, _, row, -, -, -, -, rfl, -, -, -, hst, hsub, hwith⟩ :=
      ProposalService.create_commits h
    intro p hp
    rw [htables] at hp
    rcases List.mem_append.mp hp with hp | hp
    · exact hI p hp
    · rw [List.mem_singleton.mp hp]
      simp [Proposal.Stamped, hst, hsub, hwith]
  case deleteProposal =>
    obtain ⟨_, _, _, _, _, _, -, -, -, -, -, -, rfl⟩ := ProposalService.delete_commits h
    refine hsub fun p hp => ?_
    rw [htables] at hp
    exact (List.mem_filter.mp hp).1

/-- An atomic request is not overtaken. -/
theorem Op.not_overtaken {ok : Db → Except ServiceError Response} (hss : ∀ s ∈ ss, db = s)
    (hends : (op.program dep).Ends ss (.ok (.commit ws ok rejected))) :
    op.overtaken db ss = false := by
  have hsame : ∀ {s₁ s₂ s₃ s₄ : Db} {p : UUID}, ss = [s₁, s₂, s₃, s₄] →
      (find p db.proposals).map Proposal.status = checkedStatus ss p := by
    rintro _ _ _ s₄ p rfl
    rw [hss s₄ (by simp)]
    rfl
  cases op with
  | updateProposal env user w d p payload =>
      obtain ⟨_, hends⟩ := Request.map_commits hends
      obtain ⟨_, _, _, _, _, _, hseen, -⟩ := ProposalService.update_commits hends
      exact decide_eq_false (not_not_intro (hsame hseen))
  | transitionProposal env user w d p payload =>
      obtain ⟨_, hends⟩ := Request.map_commits hends
      obtain ⟨_, _, _, _, _, _, hseen, -⟩ := ProposalService.transition_commits hends
      exact decide_eq_false (not_not_intro (hsame hseen))
  | _ => rfl

theorem Reachable.proposalInv (h : Reachable dep db) : ProposalInv db := by
  induction h with
  | empty => exact fun _ h => nomatch h
  | @step db op h ih =>
      rcases Request.exec_cases Db.commit (op.program dep) db with
        hs | ⟨ss, _, _, _, hss, hends, hc⟩
      · rw [Op.exec, hs]
        exact ih
      · cases hop : op.keepsProposals with
        | false => exact Op.commit_created hop ih hends hc
        | true =>
            refine (Op.commit_stamped hop ih (fun s hs => ?_) (Op.not_overtaken hss hends)
              hends hc).1
            rw [← hss s hs]
            exact ih

/-- What holds of every configuration of such an interleaving. -/
structure ProposalConfig (dep : Deployment) (c : Configuration) : Prop where
  only : c.Only fun op => op.keepsProposals
  inv : ProposalInv c.state
  traced : c.Traced (Op.program dep)
  below : c.Below ProposalInv fun _ _ => True

theorem ProposalConfig.act (h : ProposalConfig dep c) (hok : EditsInTime c a)
    (hact : c.act Db.commit (Op.program dep) a = some c') :
    ProposalConfig dep c' ∧ ProposalStep c.state c'.state := by
  have hcommit : ∀ (i : Nat) (t : InFlight) w f g s', a = .advance i → c.threads[i]? = some t →
      t.answer = none → t.rest = .done (.ok (.commit w f g)) →
      Db.commit w c.state = .ok s' → ProposalInv s' ∧ ProposalStep c.state s' := by
    intro i t w f g s' ha ht hnone hr hw
    have htm : t ∈ c.threads := List.mem_of_getElem? ht
    have hends := h.traced t htm
    rw [hr] at hends
    refine Op.commit_stamped (h.only t htm) h.inv (fun s hs => (h.below t htm s hs).1) ?_ hends hw
    rw [Bool.eq_false_iff]
    intro hlate
    rw [ha] at hok
    exact hok.2 ⟨t, ht, Thread.committing_of hnone hr, hlate⟩
  obtain ⟨hinv, -, hbelow⟩ := Config.act_guarantee (I := ProposalInv) (R := fun _ _ => True)
    (fun _ => trivial) (fun _ _ => trivial)
    (fun i t w f g s' ha ht hnone hr _ _ hw =>
      ⟨(hcommit i t w f g s' ha ht hnone hr hw).1, trivial⟩)
    h.inv h.traced h.below hact
  refine ⟨⟨h.only.act (fun op ha => ?_) hact, hinv, h.traced.act hact, hbelow⟩, ?_⟩
  · rw [ha] at hok
    exact hok.1
  · rcases Config.act_commit hact with hs | ⟨i, t, w, f, g, ha, ht, hnone, hr, hw⟩
    · rw [hs]
      exact .refl _
    · exact (hcommit i t w f g _ ha ht hnone hr hw).2

theorem ProposalConfig.run (h : ProposalConfig dep c) (hrun : Interleaving dep EditsInTime c c') :
    ProposalConfig dep c' ∧ ∀ p ∈ c.state.proposals, p.status = .withdrawn →
      ∃ p' ∈ c'.state.proposals, p.Settles p' := by
  induction hrun with
  | refl => exact ⟨h, fun p hp _ => ⟨p, hp, .refl p⟩⟩
  | step _ hok hact ih =>
      obtain ⟨h₁, hkept⟩ := ih
      obtain ⟨h₂, hstep⟩ := h₁.act hok hact
      refine ⟨h₂, fun p hp hst => ?_⟩
      obtain ⟨p', hp', hs⟩ := hkept p hp hst
      obtain ⟨p'', hp'', hs'⟩ := hstep p' hp'
      have hst' := hs.withdrawn hst
      obtain ⟨ht, hsu, hco⟩ := hs.text (by rw [hst]; decide)
      obtain ⟨ht', hsu', hco'⟩ := hs'.text (by rw [hst']; decide)
      exact ⟨p'', hp'', hs'.id.trans hs.id,
        fun _ => ⟨ht'.trans ht, hsu'.trans hsu, hco'.trans hco⟩, fun _ => hs'.withdrawn hst'⟩

/-- **Submitted proposals are immutable**, in every interleaving in which no edit and no
transition is committed after the status it has checked has changed: the times go with the
status, no commit changes the text of a proposal that is not a draft, and a withdrawn
proposal stays as it is. -/
theorem submitted_immutable (h : Reachable dep db₀)
    (hrun : Interleaving dep EditsInTime (Config.idle db₀) c) :
    (∀ p ∈ c.state.proposals, (p.submittedAt ≠ none ↔ p.status = .submitted) ∧
      (p.withdrawnAt ≠ none ↔ p.status = .withdrawn)) ∧
    (∀ a c', EditsInTime c a → c.act Db.commit (Op.program dep) a = some c' →
      ∀ p ∈ c.state.proposals, ∃ p' ∈ c'.state.proposals, p'.id = p.id ∧
        (p.status = .submitted ∨ p.status = .withdrawn →
          p'.title = p.title ∧ p'.summary = p.summary ∧ p'.content = p.content)) ∧
    ∀ c', Interleaving dep EditsInTime c c' → ∀ p ∈ c.state.proposals, p.status = .withdrawn →
      ∃ p' ∈ c'.state.proposals, p'.id = p.id ∧ p'.status = .withdrawn := by
  have hidle : ProposalConfig dep (Config.idle db₀) :=
    ⟨Config.only_idle _, h.proposalInv, Config.traced_idle _, Config.below_idle _⟩
  have hc := (hidle.run hrun).1
  refine ⟨hc.inv, fun a c' hok hact p hp => ?_, fun c' hrun' p hp hst => ?_⟩
  · obtain ⟨p', hp', hs⟩ := (hc.act hok hact).2 p hp
    refine ⟨p', hp', hs.id, fun hst => hs.text ?_⟩
    rcases hst with hst | hst <;> rw [hst] <;> decide
  · obtain ⟨p', hp', hs⟩ := (hc.run hrun').2 p hp hst
    exact ⟨p', hp', hs.id, hs.withdrawn hst⟩

end

/-- The decision has a third proposal, a draft. -/
def Sample.withDraft : Db :=
  ((Op.createProposal (env 9 32) ada 10 20 ⟨"Paper", none, none⟩).exec dep drafted).2

theorem Sample.withDraft_reachable : Reachable Sample.dep Sample.withDraft :=
  Sample.drafted_reachable.step _

def Sample.edit : Op := .updateProposal (env 10 0) ada 10 20 32 ⟨some (some "Stone"), none, none⟩

def Sample.submit : Op := .transitionProposal (env 11 0) ada 10 20 32 ⟨.submitted⟩

/-- Both have read the draft; it is edited, then submitted. -/
def Sample.editedInTime : List (Action Op) :=
  .start edit :: List.replicate 4 (.advance 0) ++ .start submit :: List.replicate 4 (.advance 1) ++
    [.advance 0, .advance 1]

theorem submitted_immutable_sample : ∃ c,
    Interleaving Sample.dep EditsInTime (Config.idle Sample.withDraft) c ∧
      ∃ p ∈ c.state.proposals, p.id = 32 ∧ p.title = "Stone" ∧ p.status = .submitted ∧
        p.submittedAt ≠ none := by
  obtain ⟨c, hc, hrows⟩ := Option.map_eq_some_iff.mp (show ((Config.idle Sample.withDraft).acts
    Db.commit (Op.program Sample.dep) EditsInTime Sample.editedInTime).map (fun c =>
      (c.state.proposals.filter fun p => p.id = 32).map fun p => (p.id, p.title, p.status)) =
        some [(32, "Stone", .submitted)] by decide +kernel)
  have hrun : Interleaving Sample.dep EditsInTime (Config.idle Sample.withDraft) c := Run.of_acts hc
  have hmem : ((32 : UUID), "Stone", ProposalStatus.submitted) ∈
      (c.state.proposals.filter fun p => p.id = 32).map fun p => (p.id, p.title, p.status) := by
    rw [hrows]
    exact List.mem_cons_self
  obtain ⟨p, hp, he⟩ := List.mem_map.mp hmem
  obtain ⟨hid, he⟩ := Prod.mk.inj he
  obtain ⟨htitle, hst⟩ := Prod.mk.inj he
  have hp := (List.mem_filter.mp hp).1
  exact ⟨c, hrun, p, hp, hid, htitle, hst,
    ((submitted_immutable Sample.withDraft_reachable hrun).1 p hp).1.mpr hst⟩

/-- Both have read the draft; it is submitted before the edit is committed. -/
def Sample.editedTooLate : List (Action Op) :=
  .start edit :: List.replicate 4 (.advance 0) ++ .start submit :: List.replicate 5 (.advance 1)

/-- The title of a submitted proposal changes. -/
theorem submitted_text_changed : ∃ c c',
    Interleaving Sample.dep (Starts Op.keepsProposals) (Config.idle Sample.withDraft) c ∧
      c.act Db.commit (Op.program Sample.dep) (.advance 0) = some c' ∧
      ((c.state.proposals.filter fun p => p.id = 32).map fun p => (p.title, p.status)) =
        [("Paper", .submitted)] ∧
      ((c'.state.proposals.filter fun p => p.id = 32).map fun p => (p.title, p.status)) =
        [("Stone", .submitted)] := by
  obtain ⟨c, hc, h⟩ := Option.map_eq_some_iff.mp (show ((Config.idle Sample.withDraft).acts
    Db.commit (Op.program Sample.dep) (Starts Op.keepsProposals) Sample.editedTooLate).map (fun c =>
      ((c.state.proposals.filter fun p => p.id = 32).map (fun p => (p.title, p.status)),
        (c.act Db.commit (Op.program Sample.dep) (.advance 0)).map fun c' =>
          (c'.state.proposals.filter fun p => p.id = 32).map fun p => (p.title, p.status))) =
            some ([("Paper", .submitted)], some [("Stone", .submitted)]) by decide +kernel)
  obtain ⟨hbefore, h⟩ := Prod.mk.inj h
  obtain ⟨c', hc', hafter⟩ := Option.map_eq_some_iff.mp h
  exact ⟨c, c', Run.of_acts hc, hc', hbefore, hafter⟩

end ForkRoom
