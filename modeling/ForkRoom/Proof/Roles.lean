/-
# `Proof.Roles` — who becomes an admin without the owner

Role changes are the owner's: `update_member_role` asks for the role owner, and
`remove_member` lets an admin remove members and viewers only.  `add_member`
lets an admin add a user with any assignable role, admin included.  So an admin
cannot make an admin of a member, but can remove the member and add the same
user again, as an admin.

    Op.Adds w db op u r    the step adds the user u to w with the role r
    Op.Readmits start …    it adds as an admin one who was below at the start

`unescalated_iff` says that this is the only way: a run of the three operations
without the owner of `w` leaves nobody escalated exactly if none of its steps
readmits.  The admins of the start are admins at the end of every such run.
-/
import ForkRoom.System.Gates
import ForkRoom.System.Members
import ForkRoom.System.Steps

namespace ForkRoom

open Optimistic Reads Rows

/-- `add_member`, `update_member_role` or `remove_member`, not called by the user `ownerId`. -/
def Op.withoutOwner (ownerId : UUID) : Op → Bool
  | addMember _ user _ _ | updateMemberRole user _ _ _ | removeMember user _ _ => user.id ≠ ownerId
  | _ => false

/-- The role of a user in a workspace. -/
def WorkspaceRepository.roleOf (workspaceId userId : UUID) (db : Db) : Option WorkspaceRole :=
  (getMembership workspaceId userId db).map WorkspaceMember.role

open WorkspaceRepository (roleOf)

/-- A member or a viewer. -/
def WorkspaceRole.belowAdmin (r : WorkspaceRole) : Prop := r = .member ∨ r = .viewer

/-- The step is an `add_member` that adds the user `u` to the workspace `w` with the role `r`:
the caller manages `w`, the account is active and has no membership, the identifier is new. -/
def Op.Adds (w : UUID) (db : Db) (op : Op) (u : UUID) (r : WorkspaceRole) : Prop :=
  ∃ env user payload account, op = .addMember env user w payload ∧ payload.role.toRole = r ∧
    (∃ actorRole ∈ roleOf w user.id db, canManageWorkspace actorRole) ∧
    UserRepository.getByEmail payload.email.toLower db = some account ∧ account.isActive ∧
    account.id = u ∧ roleOf w u db = none ∧ ∀ m ∈ db.workspaceMembers, m.id ≠ env.newId

/-- The step adds as an admin a user who was a member or viewer at the start. -/
def Op.Readmits (start : Db) (w : UUID) (db : Db) (op : Op) : Prop :=
  ∃ u, op.Adds w db u .admin ∧ ∃ r ∈ roleOf w u start, r.belowAdmin

/-- Who was below the admins is not an admin, and who was an admin is. -/
structure Unescalated (w : UUID) (start db : Db) : Prop where
  below : ∀ u, (∃ r ∈ roleOf w u start, r.belowAdmin) → roleOf w u db ≠ some .admin
  admins : ∀ u, roleOf w u start = some .admin → roleOf w u db = some .admin

/-! ## Roles and rows -/

section
variable {db db' : Db} {w u : UUID} {r : WorkspaceRole}

theorem roleOf_eq_some : roleOf w u db = some r ↔
    ∃ m ∈ db.workspaceMembers, m.workspaceId = w ∧ m.userId = u ∧ m.role = r := by
  constructor
  · intro h
    obtain ⟨m, hm, hr⟩ := Option.map_eq_some_iff.mp h
    obtain ⟨hmem, hw, hu⟩ := WorkspaceRepository.getMembership_some hm
    exact ⟨m, hmem, hw, hu, hr⟩
  · rintro ⟨m, hmem, hw, hu, hr⟩
    cases hm : WorkspaceRepository.getMembership w u db with
    | none =>
        have hnone := List.find?_eq_none.mp hm m hmem
        simp [hw, hu] at hnone
    | some m' =>
        obtain ⟨hmem', hw', hu'⟩ := WorkspaceRepository.getMembership_some hm
        have he : m = m' := db.valid.uqWorkspaceMembersWorkspaceUser.eq_of hmem hmem'
          (Prod.ext (hw.trans hw'.symm) (hu.trans hu'.symm))
        rw [roleOf, hm, Option.map_some, ← he, hr]

theorem roleOf_eq_none : roleOf w u db = none ↔
    ∀ m ∈ db.workspaceMembers, ¬ (m.workspaceId = w ∧ m.userId = u) := by
  constructor
  · intro h m hm hwu
    have hsome := roleOf_eq_some.mpr ⟨m, hm, hwu.1, hwu.2, rfl⟩
    rw [h] at hsome
    cases hsome
  · intro h
    cases hr : roleOf w u db with
    | none => rfl
    | some r =>
        obtain ⟨m, hm, hw, hu, -⟩ := roleOf_eq_some.mp hr
        exact absurd ⟨hw, hu⟩ (h m hm)

/-- A user keeps the role if the memberships in the workspace are the same. -/
theorem roleOf_congr (h : ∀ m, m.workspaceId = w → m.userId = u →
    (m ∈ db'.workspaceMembers ↔ m ∈ db.workspaceMembers)) : roleOf w u db' = roleOf w u db := by
  refine Option.ext fun r => ?_
  rw [roleOf_eq_some, roleOf_eq_some]
  constructor
  · rintro ⟨m, hm, hw, hu, hr⟩
    exact ⟨m, (h m hw hu).mp hm, hw, hu, hr⟩
  · rintro ⟨m, hm, hw, hu, hr⟩
    exact ⟨m, (h m hw hu).mpr hm, hw, hu, hr⟩

/-- Whoever has a role that is not the owner's is not the owner. -/
theorem OwnerInv.not_owner (h : OwnerInv db) {ws : Workspace} (hws : ws ∈ db.workspaces)
    (hr : roleOf ws.id u db = some r) (hne : u ≠ ws.ownerId) : r ≠ .owner := by
  rintro rfl
  obtain ⟨m, hm, hmw, hmu, hrole⟩ := roleOf_eq_some.mp hr
  obtain ⟨ws', hws', hw', hu', -⟩ := h.owner m hm hrole
  have he : ws' = ws := eq_of_key db.valid.pkWorkspaces hws' hws (hw'.symm.trans hmw)
  rw [he] at hu'
  exact hne (hmu.symm.trans hu')

end

/-! ## The additions -/

/-- A membership of an existing user in an existing workspace can be added, if the user has none. -/
theorem Constraints.addMember {t : Tables} (h : Constraints t) {m : WorkspaceMember}
    (hid : ∀ x ∈ t.workspaceMembers, x.id ≠ m.id)
    (hnew : ∀ x ∈ t.workspaceMembers, ¬ (x.workspaceId = m.workspaceId ∧ x.userId = m.userId))
    (hw : ∃ x ∈ t.workspaces, x.id = m.workspaceId) (hu : ∃ x ∈ t.users, x.id = m.userId) :
    Constraints { t with workspaceMembers := t.workspaceMembers ++ [m] } := by
  have hrefs : ∀ {α : Type} [Keyed α UUID] {fk : WorkspaceMember → UUID} {rows : List α},
      References fk t.workspaceMembers rows → (∃ x ∈ rows, Keyed.key x = fk m) →
        References fk (t.workspaceMembers ++ [m]) rows := by
    intro α _ fk rows hold hrow x hx
    rcases List.mem_append.mp hx with hx | hx
    · exact hold x hx
    · rw [List.mem_singleton.mp hx]
      exact hrow
  obtain ⟨hws, hd, ho, hs, hv, hl, hb⟩ := h
  refine ⟨?_, ?_, ?_, ?_, ?_, ?_, ?_⟩
  · exact ⟨hws.pkUsers, hws.uqUsersEmail, hws.pkWorkspaces, hws.fkWorkspacesOwner,
      hws.pkWorkspaceMembers.append hid,
      hws.uqWorkspaceMembersWorkspaceUser.append fun x hx he => hnew x hx (Prod.ext_iff.mp he),
      hrefs hws.fkWorkspaceMembersWorkspace hw, hrefs hws.fkWorkspaceMembersUser hu⟩
  · cases hd
    constructor <;> assumption
  · cases ho
    constructor <;> assumption
  · cases hs
    constructor <;> assumption
  · cases hv
    constructor <;> assumption
  · cases hl
    constructor <;> assumption
  · cases hb
    constructor <;> assumption

/-- The addition of a membership that breaks no constraint is committed. -/
theorem Db.commit_addMember {db : Db} {m : WorkspaceMember}
    (h : Constraints { db.toTables with workspaceMembers := db.workspaceMembers ++ [m] }) :
    ∃ db', db.commit [.addMember m] = .ok db' ∧ db'.toTables =
      { db.toTables with workspaceMembers := db.workspaceMembers ++ [m] } := by
  have hlast : m ∈ db.workspaceMembers ++ [m] := List.mem_append_right _ List.mem_cons_self
  have hworkspace : absent m.workspaceId db.workspaces = false :=
    absent_of_mem (h.fkWorkspaceMembersWorkspace m hlast)
  have huser : absent m.userId db.users = false :=
    absent_of_mem (h.fkWorkspaceMembersUser m hlast)
  refine Db.commit_write rfl rfl rfl ?_ { db.fits with } h
  rw [Write.dangling, hworkspace, huser]
  rfl

/-- An addition goes through. -/
theorem Op.Adds.exec {dep : Deployment} {w : UUID} {db : Db} {op : Op} {u : UUID}
    {r : WorkspaceRole} (h : op.Adds w db u r) : roleOf w u (op.exec dep db).2 = some r := by
  obtain ⟨env, user, payload, account, rfl, hr, ⟨a, ha, hmanage⟩, haccount, hactive, hu, hnone,
    hfresh⟩ := h
  obtain ⟨m, hm, rfl⟩ := Option.map_eq_some_iff.mp ha
  obtain ⟨hmem, hmw, -⟩ := WorkspaceRepository.getMembership_some hm
  obtain ⟨ws, hws, hwid⟩ := db.valid.fkWorkspaceMembersWorkspace m hmem
  have hget : WorkspaceRepository.getById w db = some ws :=
    (find_eq_some db.valid.pkWorkspaces).mpr ⟨hws, hwid.trans hmw⟩
  have haccountMem : account ∈ db.users := List.mem_of_find?_eq_some haccount
  obtain ⟨db', hcommit, htables⟩ := Db.commit_addMember (db.valid.addMember
    (m := ⟨env.newId, w, account.id, payload.role.toRole, env.dbNow⟩) hfresh
    (hu ▸ roleOf_eq_none.mp hnone) ⟨ws, hws, hwid.trans hmw⟩ ⟨account, haccountMem, rfl⟩)
  have hrun : (WorkspaceService.addMember env user w payload).run db = .ok ((commitOrRaise
      [.addMember ⟨env.newId, w, account.id, payload.role.toRole, env.dbNow⟩]
      (fun db => db.workspaceMembers) env.newId .workspaceMemberAlreadyExists).map
        fun membership => ⟨membership, account⟩) := by
    simp only [WorkspaceService.addMember, workspaceContext, bind_assoc, run_bind, run_query,
      run_orThrow,
      run_require, run_pure, Except.bind, hget, hm, haccount, Option.elim_some, hmanage, hactive,
      if_true]
  have hexec : ((Op.addMember env user w payload).exec dep db).2 = db' := by
    show (Request.exec Db.commit (answering .member _) db).2 = db'
    rw [Request.exec, Request.run_map, hrun]
    show (Intent.perform Db.commit db (.commit _ _ _)).2 = db'
    simp only [Intent.perform, hcommit]
  rw [hexec, roleOf_eq_some, htables]
  exact ⟨_, List.mem_append_right _ List.mem_cons_self, rfl, hu, hr⟩

/-! ## One step -/

/-- Roles in the workspace stay, but for a member or viewer who may lose it. -/
def Lowers (w : UUID) (db db' : Db) : Prop :=
  ∀ u, roleOf w u db' = roleOf w u db ∨
    (roleOf w u db' = none ∧ ∃ r ∈ roleOf w u db, r.belowAdmin)

section
variable {dep : Deployment} {db db' : Db} {ws : Workspace} {user : User} {w member : UUID}
  {ss : List Db} {writes : List Write} {rejected : CommitError → ServiceError}

theorem addMember_roles {env : Env} {payload : WorkspaceMemberCreateRequest}
    {ok : Db → Except ServiceError WorkspaceMemberRecord}
    (h : (WorkspaceService.addMember env user w payload).Ends ss (.ok (.commit writes ok rejected)))
    (hss : ∀ s ∈ ss, db = s) (hc : db.commit writes = .ok db') :
    (∃ u r, (Op.addMember env user w payload).Adds w db u r ∧
      ∀ x, x ≠ u → roleOf w x db' = roleOf w x db) ∧
    ∀ w', w ≠ w' → Lowers w' db db' := by
  obtain ⟨s₁, s₂, s₃, c, u, rfl, hctx, hmanage, hu, hactive, rfl⟩ :=
    WorkspaceService.addMember_commits h
  simp only [List.forall_mem_cons] at hss
  obtain ⟨rfl, rfl, rfl, -⟩ := hss
  have hrows : db'.workspaceMembers = db.workspaceMembers ++
      [⟨env.newId, w, u.id, payload.role.toRole, env.dbNow⟩] := by
    rw [(Db.commit_ok hc).1]
    rfl
  have huq := db'.valid.uqWorkspaceMembersWorkspaceUser
  have hpk := db'.valid.pkWorkspaceMembers
  rw [hrows] at huq hpk
  have hstay : ∀ m : WorkspaceMember, ¬ (m.workspaceId = w ∧ m.userId = u.id) →
      (m ∈ db'.workspaceMembers ↔ m ∈ db.workspaceMembers) := by
    intro m hm
    rw [hrows, List.mem_append, List.mem_singleton, or_iff_left]
    rintro rfl
    exact hm ⟨rfl, rfl⟩
  constructor
  · refine ⟨u.id, _, ⟨env, user, payload, u, rfl, rfl, ?_, hu, hactive, rfl, ?_, ?_⟩, ?_⟩
    · exact ⟨_, Option.map_eq_some_iff.mpr ⟨_, hctx.membership, rfl⟩, hmanage⟩
    · exact roleOf_eq_none.mpr fun m hm hmu => huq.ne_of_append m hm (Prod.ext hmu.1 hmu.2)
    · exact hpk.ne_of_append
    · intro x hx
      exact roleOf_congr fun m _ hmu => hstay m fun hm => hx (hmu.symm.trans hm.2)
  · intro w' hw' x
    exact Or.inl (roleOf_congr fun m hmw _ => hstay m fun hm => hw' (hm.1.symm.trans hmw))

theorem updateMemberRole_roles {payload : WorkspaceMemberUpdateRequest}
    {ok : Db → Except ServiceError WorkspaceMemberRecord} (hinv : OwnerInv db)
    (hws : ws ∈ db.workspaces) (hother : user.id ≠ ws.ownerId)
    (h : (WorkspaceService.updateMemberRole user w member payload).Ends ss
      (.ok (.commit writes ok rejected)))
    (hss : ∀ s ∈ ss, db = s) (hc : db.commit writes = .ok db') : Lowers ws.id db db' := by
  obtain ⟨s₁, s₂, s₃, s₄, c, m, rfl, hctx, hm, hold, hchange, rfl⟩ :=
    WorkspaceService.updateMemberRole_commits h
  simp only [List.forall_mem_cons] at hss
  obtain ⟨rfl, rfl, rfl, rfl, -⟩ := hss
  obtain ⟨hmem, hmw, -⟩ := WorkspaceRepository.getMembership_some hm
  obtain ⟨m', hm', hrows⟩ := update_fresh db.valid.pkWorkspaceMembers hmem
    { m with role := payload.role.toRole } (m.merge { m with role := payload.role.toRole })
  have hrows' : db'.workspaceMembers = replace m m' db.workspaceMembers := by
    rw [(Db.commit_ok hc).1, ← hrows]
    rfl
  have hw' : m'.workspaceId = w := by
    rcases hm' with ⟨rfl, -⟩ | rfl
    · exact hmw
    · exact hmw
  have hactor : c.membership.role = .owner := by
    simp only [canChangeMemberRole, Bool.and_eq_true, decide_eq_true_eq] at hchange
    exact hchange.1
  have hw : w ≠ ws.id := by
    -- there the caller would be the owner
    rintro rfl
    exact hinv.not_owner hws (Option.map_eq_some_iff.mpr ⟨_, hctx.membership, hactor⟩) hother rfl
  intro x
  refine Or.inl (roleOf_congr fun y hyw _ => ?_)
  rw [hrows', mem_replace hmem]
  constructor
  · rintro (rfl | ⟨hy, -⟩)
    · exact absurd (hw'.symm.trans hyw) hw
    · exact hy
  · intro hy
    refine Or.inr ⟨hy, fun hk => ?_⟩
    have he := eq_of_key db.valid.pkWorkspaceMembers hy hmem hk
    exact hw (hmw.symm.trans (he ▸ hyw))

theorem removeMember_roles {ok : Db → Except ServiceError Unit} (hinv : OwnerInv db)
    (hws : ws ∈ db.workspaces) (hother : user.id ≠ ws.ownerId)
    (h : (WorkspaceService.removeMember user w member).Ends ss (.ok (.commit writes ok rejected)))
    (hss : ∀ s ∈ ss, db = s) (hc : db.commit writes = .ok db') : Lowers ws.id db db' := by
  obtain ⟨s₁, s₂, s₃, c, m, rfl, hctx, hm, hold, hremove, rfl⟩ :=
    WorkspaceService.removeMember_commits h
  simp only [List.forall_mem_cons] at hss
  obtain ⟨rfl, rfl, rfl, -⟩ := hss
  obtain ⟨hmem, hmw, hmu⟩ := WorkspaceRepository.getMembership_some hm
  have hrows : db'.workspaceMembers = db.workspaceMembers.filter fun x => x.id ≠ m.id := by
    rw [(Db.commit_ok hc).1]
    rfl
  have hstay : ∀ y, y ≠ m → (y ∈ db'.workspaceMembers ↔ y ∈ db.workspaceMembers) := by
    intro y hy
    rw [hrows, List.mem_filter, and_iff_left_iff_imp]
    intro hmem'
    exact decide_eq_true fun hk => hy (eq_of_key db.valid.pkWorkspaceMembers hmem' hmem hk)
  intro x
  by_cases hwx : w = ws.id ∧ x = member
  · obtain ⟨rfl, rfl⟩ := hwx
    refine Or.inr ⟨roleOf_eq_none.mpr fun y hy hyx => ?_, m.role, ?_, ?_⟩
    · rw [hrows, List.mem_filter] at hy
      have he : y = m := db.valid.uqWorkspaceMembersWorkspaceUser.eq_of hy.1 hmem
        (Prod.ext (hyx.1.trans hmw.symm) (hyx.2.trans hmu.symm))
      simp [he] at hy
    · exact roleOf_eq_some.mpr ⟨m, hmem, hmw, hmu, rfl⟩
    · have hactor : c.membership.role ≠ .owner :=
        hinv.not_owner hws (Option.map_eq_some_iff.mpr ⟨_, hctx.membership, rfl⟩) hother
      simp only [canRemoveMember, if_neg hold, if_neg hactor, Bool.and_eq_true, Bool.or_eq_true,
        decide_eq_true_eq] at hremove
      exact hremove.2
  · refine Or.inl (roleOf_congr fun y hyw hyx => hstay y ?_)
    rintro rfl
    exact hwx ⟨hmw.symm.trans hyw, hyx.symm.trans hmu⟩

/-- Without the owner, a step adds somebody, or takes roles from members and viewers only. -/
theorem Op.roles_step {op : Op} (hinv : OwnerInv db) (hws : ws ∈ db.workspaces)
    (hop : op.withoutOwner ws.ownerId) :
    (∃ u r, op.Adds ws.id db u r ∧
      ∀ x, x ≠ u → roleOf ws.id x (op.exec dep db).2 = roleOf ws.id x db) ∨
    Lowers ws.id db (op.exec dep db).2 := by
  rcases Request.exec_cases Db.commit (op.program dep) db with h | ⟨ss, _, _, _, hss, hends, hc⟩
  · rw [Op.exec, h]
    exact Or.inr fun x => Or.inl rfl
  cases op <;> (try cases hop)
  case addMember env user w payload =>
    obtain ⟨_, h⟩ := Request.map_commits hends
    obtain ⟨hadds, hother⟩ := addMember_roles h hss hc
    by_cases hw : w = ws.id
    · exact Or.inl (hw ▸ hadds)
    · exact Or.inr (hother _ hw)
  case updateMemberRole user w member payload =>
    obtain ⟨_, h⟩ := Request.map_commits hends
    exact Or.inr (updateMemberRole_roles hinv hws (of_decide_eq_true hop) h hss hc)
  case removeMember user w member =>
    obtain ⟨_, h⟩ := Request.map_commits hends
    exact Or.inr (removeMember_roles hinv hws (of_decide_eq_true hop) h hss hc)

/-- The three operations leave the workspaces as they are. -/
theorem Op.workspaces_step {op : Op} {ownerId : UUID} (hop : op.withoutOwner ownerId) :
    (op.exec dep db).2.workspaces = db.workspaces := by
  rcases Request.exec_cases Db.commit (op.program dep) db with h | ⟨ss, writes, _, _, -, hends, hc⟩
  · rw [Op.exec, h]
  have hfoot : ∀ x ∈ writes, x.target = .workspaceMembers := by
    intro x hx
    have hx := Op.commits_footprint hends x hx
    cases op <;> first | exact List.mem_singleton.mp hx | cases hop
  have heq : (op.exec dep db).2.toTables = _ := (Db.commit_ok hc).1
  rw [heq]
  refine Tables.write_keeps Tables.workspaces (fun x t hx => ?_) _ hfoot
  cases x <;> first | rfl | cases hx

/-! ## Runs -/

theorem Op.Adds.nobody_before {op : Op} {u : UUID} {r : WorkspaceRole} (h : op.Adds w db u r) :
    roleOf w u db = none := by
  obtain ⟨_, _, _, _, -, -, -, -, -, -, hnone, -⟩ := h
  exact hnone

/-- An admin stays an admin. -/
theorem Op.admin_step {op : Op} (hinv : OwnerInv db) (hws : ws ∈ db.workspaces)
    (hop : op.withoutOwner ws.ownerId) {u : UUID} (hu : roleOf ws.id u db = some .admin) :
    roleOf ws.id u (op.exec dep db).2 = some .admin := by
  rcases Op.roles_step hinv hws hop with ⟨x, r, hadds, hstay⟩ | hlow
  · rw [hstay u, hu]
    rintro rfl
    rw [hadds.nobody_before] at hu
    cases hu
  · rcases hlow u with he | ⟨-, r, hr, hbelow⟩
    · rw [he, hu]
    · rw [hu] at hr
      cases hr
      rcases hbelow with hb | hb <;> cases hb

/-- Only a readmission makes an admin of somebody who was below. -/
theorem Op.below_step {op : Op} {start : Db} (hinv : OwnerInv db) (hws : ws ∈ db.workspaces)
    (hop : op.withoutOwner ws.ownerId) (hno : ¬ op.Readmits start ws.id db) {u : UUID}
    (hbelow : ∃ r ∈ roleOf ws.id u start, r.belowAdmin)
    (hu : roleOf ws.id u db ≠ some .admin) : roleOf ws.id u (op.exec dep db).2 ≠ some .admin := by
  rcases Op.roles_step hinv hws hop with ⟨x, r, hadds, hstay⟩ | hlow
  · by_cases hux : u = x
    · subst hux
      rw [hadds.exec]
      rintro ⟨⟩
      exact hno ⟨u, hadds, hbelow⟩
    · rw [hstay u hux]
      exact hu
  · rcases hlow u with he | ⟨he, -⟩
    · rw [he]
      exact hu
    · rw [he]
      nofun

theorem admin_run : ∀ {ops : List Op} {db : Db}, Reachable dep db → ws ∈ db.workspaces →
    (∀ op ∈ ops, op.withoutOwner ws.ownerId) → ∀ {u : UUID}, roleOf ws.id u db = some .admin →
    roleOf ws.id u (runAll dep ops db) = some .admin := by
  intro ops
  induction ops with
  | nil =>
      intro db _ _ _ u hu
      exact hu
  | cons op ops ih =>
      intro db hreach hws hops u hu
      have hop := hops op List.mem_cons_self
      refine ih (hreach.step op) ((Op.workspaces_step hop).symm ▸ hws)
        (fun x hx => hops x (List.mem_cons_of_mem _ hx)) ?_
      exact Op.admin_step hreach.ownerInv hws hop hu

/-- From a state in which nobody has been escalated, a run escalates nobody exactly if none of
its steps readmits. -/
theorem below_run {start : Db} : ∀ {ops : List Op} {db : Db}, Reachable dep db →
    ws ∈ db.workspaces → (∀ op ∈ ops, op.withoutOwner ws.ownerId) →
    (∀ u, (∃ r ∈ roleOf ws.id u start, r.belowAdmin) → roleOf ws.id u db ≠ some .admin) →
    ((∀ u, (∃ r ∈ roleOf ws.id u start, r.belowAdmin) →
        roleOf ws.id u (runAll dep ops db) ≠ some .admin) ↔
      Allowed dep (fun db' op => ¬ op.Readmits start ws.id db') ops db) := by
  intro ops
  induction ops with
  | nil =>
      intro db _ _ _ hdb
      exact ⟨fun _ => trivial, fun _ => hdb⟩
  | cons op ops ih =>
      intro db hreach hws hops hdb
      have hop := hops op List.mem_cons_self
      have hrest := fun x hx => hops x (List.mem_cons_of_mem op hx)
      have hws' := (@Op.workspaces_step dep db op _ hop).symm ▸ hws
      by_cases hre : op.Readmits start ws.id db
      · -- the readmitted user is an admin from here on
        obtain ⟨u, hadds, hbelow⟩ := hre
        have hadmin := admin_run (hreach.step op) hws' hrest hadds.exec
        exact ⟨fun h => absurd hadmin (h u hbelow), fun h => absurd ⟨u, hadds, hbelow⟩ h.1⟩
      · have hstep := fun u hbelow =>
          @Op.below_step dep _ _ _ _ hreach.ownerInv hws hop hre _ hbelow
          (hdb u hbelow)
        rw [runAll, ih (hreach.step op) hws' hrest hstep]
        exact ⟨fun h => ⟨hre, h⟩, fun h => h.2⟩

/-- **No escalation without the owner.**  A run of additions, role changes and removals without
the owner leaves nobody escalated exactly if none of its steps readmits as an admin a user who was
a member or viewer at the start. -/
theorem unescalated_iff {ops : List Op} (hreach : Reachable dep db) (hws : ws ∈ db.workspaces)
    (hops : ∀ op ∈ ops, op.withoutOwner ws.ownerId) :
    Unescalated ws.id db (runAll dep ops db) ↔
      Allowed dep (fun db' op => ¬ op.Readmits db ws.id db') ops db := by
  have hstart : ∀ u, (∃ r ∈ roleOf ws.id u db, r.belowAdmin) → roleOf ws.id u db ≠ some .admin := by
    rintro u ⟨r, hr, hbelow⟩ hadmin
    rw [hadmin] at hr
    cases hr
    rcases hbelow with hb | hb <;> cases hb
  rw [← below_run hreach hws hops hstart]
  exact ⟨fun h => h.below, fun h => ⟨h, fun u hu => admin_run hreach hws hops hu⟩⟩

end

namespace Sample

def eve : User := ⟨3, "e@x", "Eve", true⟩

/-- Ada owns the workspace, Bob is an admin, Eve a viewer. -/
def staffed : Db := runAll dep
  [.register ada, .register bob, .register eve,
    .createWorkspace (env 1 10) ada ⟨"Lab", none⟩,
    .addMember (env 2 11) ada 10 ⟨"b@x", .admin⟩,
    .addMember (env 3 12) ada 10 ⟨"e@x", .viewer⟩] Db.empty

/-- Bob removes Eve. -/
def removal : Op := .removeMember bob 10 3

/-- Bob adds Eve as an admin. -/
def readmission : Op := .addMember (env 4 13) bob 10 ⟨"e@x", .admin⟩

theorem staffed_reachable : Reachable dep staffed := Reachable.empty.runAll _

end Sample

open Sample in
/-- A viewer is an admin after two steps of an admin. -/
theorem escalated : Reachable dep staffed ∧ ⟨10, "Lab", none, 1⟩ ∈ staffed.workspaces ∧
    (∀ op ∈ [removal, readmission], op.withoutOwner 1) ∧ roleOf 10 3 staffed = some .viewer ∧
    roleOf 10 3 (runAll dep [removal, readmission] staffed) = some .admin ∧
    ¬ Unescalated 10 staffed (runAll dep [removal, readmission] staffed) := by
  refine ⟨staffed_reachable, by decide +kernel, by decide, by decide +kernel, by decide +kernel, ?_⟩
  intro h
  exact h.below 3 ⟨.viewer, by decide +kernel, Or.inr rfl⟩ (by decide +kernel)

open Sample in
theorem unescalated_iff_sample : Unescalated 10 staffed (runAll dep [removal] staffed) ↔
    Allowed dep (fun db' op => ¬ op.Readmits staffed 10 db') [removal] staffed :=
  @unescalated_iff dep staffed ⟨10, "Lab", none, 1⟩ [removal] staffed_reachable (by decide +kernel)
    (by decide)

end ForkRoom
