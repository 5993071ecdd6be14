/-
# `Proof.Ownership` — every workspace has its one owner

Any requests, interleaved in any way, from the empty database.  A role is changed
or a membership removed by the key of the row that was read, whatever stands there
by now.  What the writer has seen was no owner; that the row is no owner at the
commit either rests on where memberships come from:

    created with a workspace   an owner, for good
    added by a manager         never an owner
    the same key twice         never: `uuid4` draws each key once

A request's reads are a while back when it commits, so the origin is recorded for
every row that any request has read, not only for the rows that are there.
-/
import Mathlib.Data.List.Pairwise
import ForkRoom.System.Members

namespace ForkRoom

open Optimistic Rows

/-! ## Where memberships come from -/

/-- The membership that is created together with a workspace. -/
def Op.founder : Op → Option WorkspaceMember
  | createWorkspace env user _ => some ⟨env.secondId, env.newId, user.id, .owner, env.dbNow⟩
  | _ => none

/-- The key drawn for a new membership. -/
def Op.memberId : Op → Option UUID
  | createWorkspace env _ _ => some env.secondId
  | addMember env _ _ _ => some env.newId
  | _ => none

/-- The membership, as far as its key and an owner's role go, is one that the operation inserts. -/
structure Op.Inserts (op : Op) (m : WorkspaceMember) : Prop where
  key : op.memberId = some m.id
  owner : m.role = .owner → op.founder = some m
  other : m.role ≠ .owner → op.founder = none

/-- What comes from the founding of a workspace comes as its owner. -/
theorem Op.Inserts.eq_of_owner {op : Op} {m m' : WorkspaceMember} (h : op.Inserts m)
    (h' : op.Inserts m') (hm : m.role = .owner) : m' = m := by
  have hfound := h.owner hm
  by_cases hm' : m'.role = .owner
  · exact Option.some.inj ((h'.owner hm').symm.trans hfound)
  · rw [h'.other hm'] at hfound
    nomatch hfound

/-- A change of role that makes no owner, and unmakes none, leaves the origin. -/
theorem Op.Inserts.of_role {op : Op} {m m' : WorkspaceMember} (h : op.Inserts m)
    (hid : m.id = m'.id) (hm : m.role ≠ .owner) (hm' : m'.role ≠ .owner) : op.Inserts m' where
  key := hid ▸ h.key
  owner ho := absurd ho hm'
  other _ := h.other hm

/-- `uuid4` draws no key of a membership twice. -/
def DrawsFresh (c : Configuration) (a : Action Op) : Prop :=
  ∀ op ∈ a.started, op.memberId ≠ none → op.memberId ∉ c.ops.map Op.memberId

instance (c : Configuration) (a : Action Op) : Decidable (DrawsFresh c a) :=
  inferInstanceAs (Decidable (∀ op ∈ a.started, _))

/-! ## One commit -/

section
variable {dep : Deployment} {op : Op} {db db' : Db} {ss : List Db} {ws : List Write}
  {ok : Db → Except ServiceError Response} {rejected : CommitError → ServiceError}

/-- A membership after a commit has the key of one before, or is inserted by the operation. -/
theorem Op.commit_origin (hends : (op.program dep).Ends ss (.ok (.commit ws ok rejected)))
    (hc : db.commit ws = .ok db') : ∀ m' ∈ db'.workspaceMembers,
      (∃ m ∈ db.workspaceMembers, m.id = m'.id) ∨ op.Inserts m' := by
  have hfoot := Op.commits_footprint hends
  have hrows := congrArg Tables.workspaceMembers (Db.commit_ok hc).1
  intro m' hmem
  have hm' := hmem
  rw [hrows] at hm'
  by_cases haway : ∀ x ∈ op.footprint, x.awayFromMembers
  · rw [(Tables.write_members db.toTables fun x hx => haway _ (hfoot x hx)).2] at hm'
    exact .inl ⟨m', hm', rfl⟩
  simp only [footprint] at haway
  cases op <;> (try (exfalso; simp [Target.awayFromMembers] at haway; done)) <;>
    obtain ⟨_, h⟩ := Request.map_commits hends
  case createWorkspace env user payload =>
    have hws := WorkspaceService.create_commits h
    subst hws
    rcases List.mem_append.mp hm' with hm' | hm'
    · exact .inl ⟨m', hm', rfl⟩
    · rw [List.mem_singleton.mp hm']
      exact .inr ⟨rfl, fun _ => rfl, fun hne => absurd rfl hne⟩
  case updateWorkspace =>
    obtain ⟨_, _, c, rfl, -, -, rfl⟩ := WorkspaceService.update_commits h
    exact .inl ⟨m', hm', rfl⟩
  case deleteWorkspace =>
    obtain ⟨_, _, c, -, -, -, rfl⟩ := WorkspaceService.delete_commits h
    exact .inl ⟨m', (List.mem_filter.mp hm').1, rfl⟩
  case addMember =>
    obtain ⟨_, _, _, _, _, -, -, -, -, -, rfl⟩ := WorkspaceService.addMember_commits h
    rcases List.mem_append.mp hm' with hm' | hm'
    · exact .inl ⟨m', hm', rfl⟩
    · rw [List.mem_singleton.mp hm']
      exact .inr ⟨rfl, fun ho => absurd ho (AssignableWorkspaceRole.toRole_ne_owner _),
        fun _ => rfl⟩
  case updateMemberRole =>
    obtain ⟨_, _, _, _, _, _, -, -, -, -, -, rfl⟩ := WorkspaceService.updateMemberRole_commits h
    rcases update_cases db.valid.pkWorkspaceMembers (Db.commit_found hc _ List.mem_cons_self) _ with
      ⟨-, hsame⟩ | ⟨x, hx, -, hmerged⟩
    · exact .inl ⟨m', (hrows.trans hsame) ▸ hmem, rfl⟩
    · rcases (mem_replace hx).mp ((hrows.trans hmerged) ▸ hmem) with rfl | ⟨hm', -⟩
      · exact .inl ⟨x, hx, rfl⟩
      · exact .inl ⟨m', hm', rfl⟩
  case removeMember =>
    obtain ⟨_, _, _, _, _, -, -, -, -, -, rfl⟩ := WorkspaceService.removeMember_commits h
    exact .inl ⟨m', (List.mem_filter.mp hm').1, rfl⟩

end

/-- What a step does to a membership that stays: nothing, or both are no owners. -/
theorem MemberStep.same_key {db db' : Db} (h : MemberStep db db') {m m' : WorkspaceMember}
    (hm : m ∈ db.workspaceMembers) (hm' : m' ∈ db'.workspaceMembers) (hid : m.id = m'.id) :
    m' = m ∨ (m.role ≠ .owner ∧ m'.role ≠ .owner) := by
  have hkeys := db.valid.pkWorkspaceMembers
  have hkeys' := db'.valid.pkWorkspaceMembers
  cases h with
  | same _ hrows | update _ _ _ _ _ _ hrows =>
      exact .inl (eq_of_key hkeys (hrows ▸ hm') hm hid.symm)
  | create _ m₀ _ hrows | addMember m₀ _ hrows =>
      exact .inl (eq_of_key hkeys' hm' (hrows ▸ List.mem_append_left _ hm) hid.symm)
  | delete _ _ hrows | removeMember _ _ _ _ hrows =>
      rw [hrows] at hm'
      exact .inl (eq_of_key hkeys (List.mem_filter.mp hm').1 hm hid.symm)
  | setMember x x' hx hold hnew _ hrows =>
      by_cases hk : m.id = x.id
      · rw [eq_of_key hkeys hm hx hk]
        rw [hrows] at hm'
        rcases (mem_replace hx).mp hm' with rfl | ⟨hm', hne⟩
        · exact .inr ⟨hold, hnew⟩
        · exact absurd (hid.symm.trans hk) hne
      · have hstays : m ∈ db'.workspaceMembers := hrows ▸ (mem_replace hx).mpr (.inr ⟨hm, hk⟩)
        exact .inl (eq_of_key hkeys' hm' hstays hid.symm)

/-- An owner stays, as long as the workspace does. -/
theorem MemberStep.owner_stays {db db' : Db} (h : MemberStep db db') {m : WorkspaceMember}
    (hm : m ∈ db.workspaceMembers) (hrole : m.role = .owner)
    (hw : ∃ w ∈ db'.workspaces, w.id = m.workspaceId) : m ∈ db'.workspaceMembers := by
  have hkeys := db.valid.pkWorkspaceMembers
  cases h with
  | same _ hrows | update _ _ _ _ _ _ hrows => exact hrows ▸ hm
  | create _ _ _ hrows | addMember _ _ hrows => exact hrows ▸ List.mem_append_left _ hm
  | delete id hws hrows =>
      obtain ⟨w, hw, hid⟩ := hw
      rw [hws] at hw
      rw [hrows]
      exact List.mem_filter.mpr ⟨hm, by simpa [← hid] using (List.mem_filter.mp hw).2⟩
  | setMember x x' hx hold _ _ hrows =>
      rw [hrows]
      refine (mem_replace hx).mpr (.inr ⟨hm, fun hk => hold ?_⟩)
      rw [← eq_of_key hkeys hm hx hk]
      exact hrole
  | removeMember x hx hold _ hrows =>
      rw [hrows]
      refine List.mem_filter.mpr ⟨hm, decide_eq_true fun hk => hold ?_⟩
      rw [← eq_of_key hkeys hm hx hk]
      exact hrole

/-! ## Every interleaving -/

/-- Every membership of `db` comes from a request that has been started. -/
def Drawn (c : Configuration) (db : Db) : Prop :=
  ∀ m ∈ db.workspaceMembers, ∃ op ∈ c.ops, op.Inserts m

/-- What holds of every configuration. -/
structure OwnedConfig (dep : Deployment) (c : Configuration) : Prop where
  owner : OwnerInv c.state
  traced : c.Traced (Op.program dep)
  fresh : c.ops.Pairwise fun op op' => op.memberId ≠ none → op.memberId ≠ op'.memberId
  drawn : Drawn c c.state
  seen : ∀ t ∈ c.threads, ∀ s ∈ t.seen, Drawn c s

theorem ownedConfig_empty (dep : Deployment) : OwnedConfig dep (Config.idle Db.empty) where
  owner := ownerInv_empty
  traced := Config.traced_idle _
  fresh := .nil
  drawn := by
    intro m hm
    nomatch hm
  seen := by
    intro t ht
    nomatch ht

section
variable {dep : Deployment} {c c' : Configuration} {a : Action Op}

/-- Two rows of one key come from one request. -/
theorem OwnedConfig.eq_of_key (h : OwnedConfig dep c) {op op' : Op} (hop : op ∈ c.ops)
    (hop' : op' ∈ c.ops) {m m' : WorkspaceMember} (hm : op.Inserts m) (hm' : op'.Inserts m')
    (hid : m.id = m'.id) : op = op' := by
  have hsame : op.memberId = op'.memberId := by rw [hm.key, hm'.key, hid]
  have hsome : op.memberId ≠ none := by rw [hm.key]; exact Option.some_ne_none _
  by_contra hne
  have : Std.Symm fun op op' : Op => op.memberId ≠ none → op.memberId ≠ op'.memberId :=
    ⟨fun x y hxy hy he => hxy (he ▸ hy) he.symm⟩
  exact h.fresh.forall hop hop' hne hsome hsame

/-- Who was no owner when a request looked is none now. -/
theorem OwnedConfig.seen_other (h : OwnedConfig dep c) {s : Db} (hs : Drawn c s)
    {m x : WorkspaceMember} (hm : m ∈ s.workspaceMembers) (hrole : m.role ≠ .owner)
    (hx : x ∈ c.state.workspaceMembers) (hid : x.id = m.id) : x.role ≠ .owner := by
  intro howner
  obtain ⟨op, hop, hins⟩ := hs m hm
  obtain ⟨op', hop', hins'⟩ := h.drawn x hx
  cases h.eq_of_key hop' hop hins' hins hid
  exact hrole (hins'.eq_of_owner hins howner ▸ howner)

/-- A request that is about to commit does a step of memberships. -/
theorem OwnedConfig.commit (h : OwnedConfig dep c) {t : InFlight} {ws : List Write}
    {f : Db → Except ServiceError Response} {g : CommitError → ServiceError} {db' : Db}
    (ht : t ∈ c.threads) (hrest : t.rest = .done (.ok (.commit ws f g)))
    (hc : c.state.commit ws = .ok db') : MemberStep c.state db' ∧ Drawn c db' := by
  have hends := h.traced t ht
  rw [hrest] at hends
  have hstep := Op.commit_memberStep_stale hends
    (fun s hs m hm hrole x hx hid => h.seen_other (h.seen t ht s hs) hm hrole hx hid) hc
  refine ⟨hstep, fun m' hm' => ?_⟩
  rcases Op.commit_origin hends hc m' hm' with ⟨m, hm, hid⟩ | hins
  · obtain ⟨op, hop, hins⟩ := h.drawn m hm
    rcases hstep.same_key hm hm' hid with rfl | ⟨hold, hnew⟩
    · exact ⟨op, hop, hins⟩
    · exact ⟨op, hop, hins.of_role hid hold hnew⟩
  · exact ⟨t.op, List.mem_map_of_mem ht, hins⟩

/-- One step, as far as memberships go. -/
theorem OwnedConfig.act_member (h : OwnedConfig dep c)
    (hact : c.act Db.commit (Op.program dep) a = some c') :
    MemberStep c.state c'.state ∧ Drawn c c'.state := by
  rcases Config.act_commit hact with hs | ⟨i, t, ws, f, g, -, ht, -, hr, hw⟩
  · rw [hs]
    exact ⟨.same rfl rfl, h.drawn⟩
  · exact h.commit (List.mem_of_getElem? ht) hr hw

theorem OwnedConfig.act (h : OwnedConfig dep c) (hfresh : DrawsFresh c a)
    (hact : c.act Db.commit (Op.program dep) a = some c') : OwnedConfig dep c' := by
  obtain ⟨hstep, hdrawn⟩ := h.act_member hact
  have hops := Config.ops_act hact
  have hmono : ∀ {db : Db}, Drawn c db → Drawn c' db := by
    intro db hdb m hm
    obtain ⟨op, hop, hins⟩ := hdb m hm
    exact ⟨op, hops ▸ List.mem_append_left _ hop, hins⟩
  refine ⟨h.owner.step hstep, h.traced.act hact, ?_, hmono hdrawn, ?_⟩
  · rw [hops]
    refine List.pairwise_append.mpr ⟨h.fresh, ?_, fun op hop op' hop' hsome he => ?_⟩
    · cases a with
      | start op => exact List.pairwise_singleton _ _
      | advance i => exact .nil
    · exact hfresh op' hop' (he ▸ hsome) (he ▸ List.mem_map_of_mem hop)
  · refine Config.act_threads (P := fun t => ∀ s ∈ t.seen, Drawn c s) hact
      (fun _ _ s hs => nomatch hs) ?_ (fun _ _ ht s hs => hmono (ht s hs)) h.seen
    intro t t' _ ht hadv s hs
    obtain ⟨-, -, ⟨k, -, rfl, -⟩ | ⟨r, rfl, -⟩ | ⟨w, f, g, -, -, rfl⟩⟩ := Thread.advance_cases hadv
    · rcases List.mem_append.mp hs with hs | hs
      · exact hmono (ht s hs)
      · rw [List.mem_singleton.mp hs]
        exact hmono h.drawn
    · exact hmono (ht s hs)
    · exact hmono (ht s hs)

theorem OwnedConfig.run (hrun : Interleaving dep DrawsFresh (Config.idle Db.empty) c) :
    OwnedConfig dep c := by
  induction hrun with
  | refl => exact ownedConfig_empty dep
  | step _ hok hact ih => exact ih.act hok hact

/-! ## The owner -/

/-- The one membership of the owner. -/
theorem OwnerInv.owners_eq {db : Db} (h : OwnerInv db) {w : Workspace} (hw : w ∈ db.workspaces) :
    ∃ m ∈ db.workspaceMembers, w.OwnedBy m ∧
      db.workspaceMembers.filter (fun m => m.workspaceId = w.id && m.role = .owner) = [m] := by
  obtain ⟨m, hm, hmw, hmu, hrole⟩ := h.owned w hw
  refine ⟨m, hm, ⟨hmw, hmu, hrole⟩, ?_⟩
  have hnodup : db.workspaceMembers.Nodup := List.Nodup.of_map _ db.valid.pkWorkspaceMembers
  refine List.perm_singleton.mp ((List.perm_ext_iff_of_nodup (hnodup.filter _)
    (List.nodup_singleton m)).mpr fun x => ?_)
  rw [List.mem_filter, List.mem_singleton]
  constructor
  · rintro ⟨hx, hp⟩
    simp only [Bool.and_eq_true, decide_eq_true_eq] at hp
    obtain ⟨w', hw', hxw, hxu, -⟩ := h.owner x hx hp.2
    have hsame : w' = w := Rows.eq_of_key db.valid.pkWorkspaces hw' hw (hxw.symm.trans hp.1)
    refine db.valid.uqWorkspaceMembersWorkspaceUser.eq_of hx hm ?_
    rw [hp.1, hxu, hsame, hmw, hmu]
  · rintro rfl
    exact ⟨hm, by simp [hmw, hrole]⟩

/-- **Ownership.**  In every state that requests reach, interleaved in any way, every
workspace has one membership with the role owner: that of `ownerId`, as it was created
together with the workspace.  Nobody has two memberships in one workspace, and no step
changes or removes an owner's membership while the workspace stays.  So the owner is
always eligible to vote. -/
theorem workspaces_owned (hrun : Interleaving dep DrawsFresh (Config.idle Db.empty) c) :
    (∀ w ∈ c.state.workspaces, ∃ m,
      c.state.workspaceMembers.filter (fun m => m.workspaceId = w.id && m.role = .owner) = [m] ∧
      m.userId = w.ownerId ∧ (∃ op ∈ c.ops, op.founder = some m) ∧
      ∀ tie, w.ownerId ∈ WorkspaceRepository.listVotingEligibleUserIds tie w.id c.state) ∧
    Unique (fun m => (m.workspaceId, m.userId)) c.state.workspaceMembers ∧
    ∀ a c', DrawsFresh c a → c.act Db.commit (Op.program dep) a = some c' →
      ∀ m ∈ c.state.workspaceMembers, m.role = .owner →
        (∃ w ∈ c'.state.workspaces, w.id = m.workspaceId) → m ∈ c'.state.workspaceMembers := by
  have h := OwnedConfig.run hrun
  refine ⟨fun w hw => ?_, c.state.valid.uqWorkspaceMembersWorkspaceUser, ?_⟩
  · obtain ⟨m, hm, ⟨-, huser, hrole⟩, hone⟩ := h.owner.owners_eq hw
    obtain ⟨op, hop, hins⟩ := h.drawn m hm
    exact ⟨m, hone, huser, ⟨op, hop, hins.owner hrole⟩, h.owner.owner_eligible hw⟩
  · intro a c' _ hact m hm hrole hw
    exact (h.act_member hact).1.owner_stays hm hrole hw

end

/-! ## A sample -/

/-- Ada founds a workspace and adds Bob; while she makes him an admin he is removed, and the
change of his role comes too late. -/
def Sample.founding : List (Action Op) :=
  oneByOne 0 [(.register ada, 0), (.register bob, 0),
      (.createWorkspace (env 1 10) ada ⟨"Lab", none⟩, 0),
      (.addMember (env 2 11) ada 10 ⟨"b@x", .member⟩, 3)] ++
    .start (.updateMemberRole ada 10 2 ⟨.admin⟩) :: List.replicate 4 (.advance 4) ++
    oneByOne 5 [(.removeMember ada 10 2, 3)] ++ [.advance 4]

theorem workspaces_owned_sample : ∃ c,
    Interleaving Sample.dep DrawsFresh (Config.idle Db.empty) c ∧
    ∃ w ∈ c.state.workspaces, w.id = 10 ∧ ∃ m,
      c.state.workspaceMembers.filter (fun m => m.workspaceId = w.id && m.role = .owner) = [m] ∧
      m.userId = w.ownerId := by
  obtain ⟨c, hc, hids⟩ := Option.map_eq_some_iff.mp (show ((Config.idle Db.empty).acts
    Db.commit (Op.program Sample.dep) DrawsFresh Sample.founding).map (fun c =>
      c.state.workspaces.map Workspace.id) = some [10] by decide +kernel)
  have hrun : Interleaving Sample.dep DrawsFresh (Config.idle Db.empty) c := Run.of_acts hc
  have hmem : (10 : UUID) ∈ c.state.workspaces.map Workspace.id := by
    rw [hids]
    exact List.mem_cons_self
  obtain ⟨w, hw, hid⟩ := List.mem_map.mp hmem
  obtain ⟨m, hone, huser, -⟩ := (workspaces_owned hrun).1 w hw
  exact ⟨c, hrun, w, hw, hid, m, hone, huser⟩

end ForkRoom
