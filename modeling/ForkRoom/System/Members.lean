/-
# `System.Members` — workspaces always have their owner

The steps of atomic runs on workspaces and memberships, and the invariant that
the voting services rely on: every workspace has a membership of its owner with
the role owner, and nobody else has that role.  No request changes or removes
such a membership: both mutators refuse a target whose role is owner, and the
roles that can be assigned leave `owner` out.
-/
import ForkRoom.System.Footprint

namespace ForkRoom

open Optimistic Rows

/-! ## The steps -/

/-- What an atomic operation can do to workspaces and memberships. -/
inductive MemberStep (db db' : Db) : Prop where
  | same (hw : db'.workspaces = db.workspaces) (hm : db'.workspaceMembers = db.workspaceMembers)
  | create (w : Workspace) (m : WorkspaceMember) (hw : db'.workspaces = db.workspaces ++ [w])
      (hm : db'.workspaceMembers = db.workspaceMembers ++ [m]) (hmw : m.workspaceId = w.id)
      (hmu : m.userId = w.ownerId) (hrole : m.role = .owner) (hd : db'.decisions = db.decisions)
  | update (w w' : Workspace) (hmem : w ∈ db.workspaces) (hid : w'.id = w.id)
      (howner : w'.ownerId = w.ownerId) (hw : db'.workspaces = replace w w' db.workspaces)
      (hm : db'.workspaceMembers = db.workspaceMembers)
  | delete (id : UUID) (hw : db'.workspaces = db.workspaces.filter fun w => w.id ≠ id)
      (hm : db'.workspaceMembers = db.workspaceMembers.filter fun m => m.workspaceId ≠ id)
  | addMember (m : WorkspaceMember) (hw : db'.workspaces = db.workspaces)
      (hm : db'.workspaceMembers = db.workspaceMembers ++ [m]) (hrole : m.role ≠ .owner)
  | setMember (m m' : WorkspaceMember) (hmem : m ∈ db.workspaceMembers) (hold : m.role ≠ .owner)
      (hrole : m'.role ≠ .owner) (hw : db'.workspaces = db.workspaces)
      (hm : db'.workspaceMembers = replace m m' db.workspaceMembers)
  | removeMember (m : WorkspaceMember) (hmem : m ∈ db.workspaceMembers) (hold : m.role ≠ .owner)
      (hw : db'.workspaces = db.workspaces)
      (hm : db'.workspaceMembers = db.workspaceMembers.filter fun x => x.id ≠ m.id)

/-- Writes that leave workspaces and memberships alone. -/
def Target.awayFromMembers : Target → Bool
  | workspaces | workspaceMembers => false
  | _ => true

theorem Write.run_members {w : Write} (h : w.target.awayFromMembers) (t : Tables) :
    (w.run t).workspaces = t.workspaces ∧ (w.run t).workspaceMembers = t.workspaceMembers := by
  cases w <;> first | exact ⟨rfl, rfl⟩ | nomatch h

theorem Tables.write_members : ∀ {ws : List Write} (t : Tables),
    (∀ w ∈ ws, w.target.awayFromMembers) →
    (t.write ws).workspaces = t.workspaces ∧ (t.write ws).workspaceMembers = t.workspaceMembers
  | [], _, _ => ⟨rfl, rfl⟩
  | w :: ws, t, h => by
      obtain ⟨h₁, h₂⟩ := Write.run_members (h w List.mem_cons_self) t
      obtain ⟨h₃, h₄⟩ := write_members (w.run t) fun x hx => h x (List.mem_cons_of_mem _ hx)
      exact ⟨h₃.trans h₁, h₄.trans h₂⟩

theorem AssignableWorkspaceRole.toRole_ne_owner : ∀ r : AssignableWorkspaceRole, r.toRole ≠ .owner
  | admin => by decide
  | member => by decide
  | viewer => by decide

/-- A commit is a step of memberships if what its request has read of members who are
not owners still goes: nobody of that key is an owner by now. -/
theorem Op.commit_memberStep_stale {dep : Deployment} {op : Op} {db db' : Db} {ss : List Db}
    {ws : List Write} {ok : Db → Except ServiceError Response}
    {rejected : CommitError → ServiceError}
    (hends : (op.program dep).Ends ss (.ok (.commit ws ok rejected)))
    (hss : ∀ s ∈ ss, ∀ m ∈ s.workspaceMembers, m.role ≠ .owner →
      ∀ x ∈ db.workspaceMembers, x.id = m.id → x.role ≠ .owner)
    (hc : db.commit ws = .ok db') : MemberStep db db' := by
  have hfoot := Op.commits_footprint hends
  have heq := (Db.commit_ok hc).1
  have hfound := Db.commit_found hc
  by_cases haway : ∀ x ∈ op.footprint, x.awayFromMembers
  · obtain ⟨h₁, h₂⟩ := Tables.write_members db.toTables fun x hx => haway _ (hfoot x hx)
    exact .same (by rw [heq, h₁]) (by rw [heq, h₂])
  simp only [footprint] at haway
  cases op <;> (try (exfalso; simp [Target.awayFromMembers] at haway; done)) <;>
    obtain ⟨_, h⟩ := Request.map_commits hends
  case createWorkspace =>
    have hws := WorkspaceService.create_commits h
    subst hws
    exact .create _ _ (by rw [heq]; rfl) (by rw [heq]; rfl) rfl rfl rfl (by rw [heq]; rfl)
  case updateWorkspace =>
    obtain ⟨_, _, c, rfl, -, -, rfl⟩ := WorkspaceService.update_commits h
    have hrows := congrArg Tables.workspaces heq
    rcases update_cases db.valid.pkWorkspaces (hfound _ List.mem_cons_self) _ with
      ⟨-, hsame⟩ | ⟨w, hw, -, hmerged⟩
    · exact .same (hrows.trans hsame) (by rw [heq]; rfl)
    · exact .update w (c.workspace.merge _ w) hw rfl rfl (hrows.trans hmerged) (by rw [heq]; rfl)
  case deleteWorkspace =>
    obtain ⟨_, _, c, -, -, -, rfl⟩ := WorkspaceService.delete_commits h
    exact .delete c.workspace.id (by rw [heq]; rfl) (by rw [heq]; rfl)
  case addMember =>
    obtain ⟨_, _, _, _, _, -, -, -, -, -, rfl⟩ := WorkspaceService.addMember_commits h
    exact .addMember _ (by rw [heq]; rfl) (by rw [heq]; rfl)
      (AssignableWorkspaceRole.toRole_ne_owner _)
  case updateMemberRole =>
    obtain ⟨_, _, s₃, _, _, target, rfl, -, htarget, hold, -, rfl⟩ :=
      WorkspaceService.updateMemberRole_commits h
    obtain ⟨hmem, -, -⟩ := WorkspaceRepository.getMembership_some htarget
    have hrows := congrArg Tables.workspaceMembers heq
    rcases update_cases db.valid.pkWorkspaceMembers (hfound _ List.mem_cons_self) _ with
      ⟨-, hsame⟩ | ⟨x, hx, hid, hmerged⟩
    · exact .same (by rw [heq]; rfl) (hrows.trans hsame)
    · have hxrole := hss s₃ (by simp) target hmem hold x hx hid
      refine .setMember x _ hx hxrole ?_ (by rw [heq]; rfl) (hrows.trans hmerged)
      rw [WorkspaceMember.merge]
      rcases column_cases target.role _ x.role with hrole | hrole
      · exact hrole.trans_ne hxrole
      · exact hrole.trans_ne (AssignableWorkspaceRole.toRole_ne_owner _)
  case removeMember =>
    obtain ⟨_, _, s₃, _, target, rfl, -, htarget, hold, -, rfl⟩ :=
      WorkspaceService.removeMember_commits h
    obtain ⟨hmem, -, -⟩ := WorkspaceRepository.getMembership_some htarget
    have hrows : db'.workspaceMembers = db.workspaceMembers.filter fun x => x.id ≠ target.id := by
      rw [heq]
      rfl
    by_cases hthere : ∃ x ∈ db.workspaceMembers, x.id = target.id
    · obtain ⟨x, hx, hid⟩ := hthere
      exact .removeMember x hx (hss s₃ (by simp) target hmem hold x hx hid) (by rw [heq]; rfl)
        (hid ▸ hrows)
    · refine .same (by rw [heq]; rfl) (hrows.trans (List.filter_eq_self.mpr fun x hx => ?_))
      exact decide_eq_true fun hid => hthere ⟨x, hx, hid⟩

theorem Op.commit_memberStep {dep : Deployment} {op : Op} {db db' : Db} {ss : List Db}
    {ws : List Write} {ok : Db → Except ServiceError Response}
    {rejected : CommitError → ServiceError}
    (hends : (op.program dep).Ends ss (.ok (.commit ws ok rejected))) (hss : ∀ s ∈ ss, db = s)
    (hc : db.commit ws = .ok db') : MemberStep db db' := by
  refine Op.commit_memberStep_stale hends (fun s hs m hm hrole x hx hid => ?_) hc
  rw [eq_of_key db.valid.pkWorkspaceMembers hx (hss s hs ▸ hm) hid]
  exact hrole

theorem Op.exec_memberStep (dep : Deployment) (op : Op) (db : Db) :
    MemberStep db (op.exec dep db).2 := by
  rcases Request.exec_cases Db.commit (op.program dep) db with h | ⟨_, _, _, _, hss, hends, hc⟩
  · rw [Op.exec, h]
    exact .same rfl rfl
  · exact Op.commit_memberStep hends hss hc

/-! ## The invariant -/

/-- `m` is the membership of the owner of `w`. -/
def Workspace.OwnedBy (w : Workspace) (m : WorkspaceMember) : Prop :=
  m.workspaceId = w.id ∧ m.userId = w.ownerId ∧ m.role = .owner

/-- Every workspace has the membership of its owner, and only owners are owners. -/
structure OwnerInv (db : Db) : Prop where
  owned : ∀ w ∈ db.workspaces, ∃ m ∈ db.workspaceMembers, w.OwnedBy m
  owner : ∀ m ∈ db.workspaceMembers, m.role = .owner → ∃ w ∈ db.workspaces, w.OwnedBy m

theorem ownerInv_empty : OwnerInv Db.empty where
  owned _ h := nomatch h
  owner _ h := nomatch h

theorem OwnerInv.step {db db' : Db} (h : OwnerInv db) (hstep : MemberStep db db') :
    OwnerInv db' := by
  constructor
  · intro w hw
    cases hstep with
    | same hws hm =>
        rw [hm]
        exact h.owned w (hws ▸ hw)
    | create w₀ m₀ hws hm hmw hmu hrole _ =>
        rw [hws] at hw
        rw [hm]
        rcases List.mem_append.mp hw with hw | hw
        · obtain ⟨m, hmem, ho⟩ := h.owned w hw
          exact ⟨m, List.mem_append_left _ hmem, ho⟩
        · rw [List.mem_singleton.mp hw]
          exact ⟨m₀, List.mem_append_right _ List.mem_cons_self, hmw, hmu, hrole⟩
    | update w₀ w₁ hmem hid howner hws hm =>
        rw [hws] at hw
        rw [hm]
        rcases (mem_replace hmem).mp hw with rfl | ⟨hw, -⟩
        · obtain ⟨m, hm, h₁, h₂, h₃⟩ := h.owned w₀ hmem
          exact ⟨m, hm, h₁.trans hid.symm, h₂.trans howner.symm, h₃⟩
        · exact h.owned w hw
    | delete id hws hm =>
        rw [hws] at hw
        rw [hm]
        obtain ⟨hw, hid⟩ := List.mem_filter.mp hw
        obtain ⟨m, hmem, ho⟩ := h.owned w hw
        exact ⟨m, List.mem_filter.mpr ⟨hmem, by rw [ho.1]; exact hid⟩, ho⟩
    | addMember m₀ hws hm _ =>
        rw [hm]
        obtain ⟨m, hmem, ho⟩ := h.owned w (hws ▸ hw)
        exact ⟨m, List.mem_append_left _ hmem, ho⟩
    | setMember m₀ m₁ hmem₀ hold _ hws hm =>
        rw [hm]
        obtain ⟨m, hmem, ho⟩ := h.owned w (hws ▸ hw)
        refine ⟨m, (mem_replace hmem₀).mpr (Or.inr ⟨hmem, fun hk => hold ?_⟩), ho⟩
        rw [← eq_of_key db.valid.pkWorkspaceMembers hmem hmem₀ hk]
        exact ho.2.2
    | removeMember m₀ hmem₀ hold hws hm =>
        rw [hm]
        obtain ⟨m, hmem, ho⟩ := h.owned w (hws ▸ hw)
        refine ⟨m, List.mem_filter.mpr ⟨hmem, decide_eq_true fun hk => hold ?_⟩, ho⟩
        rw [← eq_of_key db.valid.pkWorkspaceMembers hmem hmem₀ hk]
        exact ho.2.2
  · intro m hm hrole
    cases hstep with
    | same hws hms =>
        rw [hws]
        exact h.owner m (hms ▸ hm) hrole
    | create w₀ m₀ hws hms hmw hmu hr _ =>
        rw [hms] at hm
        rw [hws]
        rcases List.mem_append.mp hm with hm | hm
        · obtain ⟨w, hw, ho⟩ := h.owner m hm hrole
          exact ⟨w, List.mem_append_left _ hw, ho⟩
        · rw [List.mem_singleton.mp hm]
          exact ⟨w₀, List.mem_append_right _ List.mem_cons_self, hmw, hmu, hr⟩
    | update w₀ w₁ hmem hid howner hws hms =>
        obtain ⟨w, hw, h₁, h₂, h₃⟩ := h.owner m (hms ▸ hm) hrole
        rw [hws]
        by_cases hk : Keyed.key w = Keyed.key w₀
        · have hwe := eq_of_key db.valid.pkWorkspaces hw hmem hk
          exact ⟨w₁, (mem_replace hmem).mpr (Or.inl rfl), h₁.trans (hwe ▸ hid.symm),
            h₂.trans (hwe ▸ howner.symm), h₃⟩
        · exact ⟨w, (mem_replace hmem).mpr (Or.inr ⟨hw, hk⟩), h₁, h₂, h₃⟩
    | delete id hws hms =>
        rw [hms] at hm
        rw [hws]
        obtain ⟨hm, hid⟩ := List.mem_filter.mp hm
        obtain ⟨w, hw, ho⟩ := h.owner m hm hrole
        exact ⟨w, List.mem_filter.mpr ⟨hw, by rw [← ho.1]; exact hid⟩, ho⟩
    | addMember m₀ hws hms hr =>
        rw [hms] at hm
        rw [hws]
        rcases List.mem_append.mp hm with hm | hm
        · exact h.owner m hm hrole
        · exact absurd (List.mem_singleton.mp hm ▸ hrole) hr
    | setMember m₀ m₁ hmem₀ _ hr hws hms =>
        rw [hms] at hm
        rw [hws]
        rcases (mem_replace hmem₀).mp hm with rfl | ⟨hm, -⟩
        · exact absurd hrole hr
        · exact h.owner m hm hrole
    | removeMember m₀ hmem₀ _ hws hms =>
        rw [hms] at hm
        rw [hws]
        exact h.owner m (List.mem_filter.mp hm).1 hrole

theorem Reachable.ownerInv {dep : Deployment} {db : Db} (h : Reachable dep db) : OwnerInv db := by
  induction h with
  | empty => exact ownerInv_empty
  | step op _ ih => exact ih.step (Op.exec_memberStep dep op _)

/-- The owner is eligible to vote. -/
theorem OwnerInv.owner_eligible {db : Db} (h : OwnerInv db) {w : Workspace}
    (hw : w ∈ db.workspaces) (tie : UUID → Nat) :
    w.ownerId ∈ WorkspaceRepository.listVotingEligibleUserIds tie w.id db := by
  obtain ⟨m, hm, hmw, hmu, hrole⟩ := h.owned w hw
  refine List.mem_map.mpr ⟨m, mem_orderBy.mpr (List.mem_filter.mpr ⟨hm, ?_⟩), hmu⟩
  rw [hmw, hrole]
  simp [WorkspaceRepository.votingEligible]

end ForkRoom
