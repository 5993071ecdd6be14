/-
# `Proof.Installations` — who connects, and what becomes of a connection

A connection is the end of a chain of steps, in each run:

    Authorizes  who may manage the workspace asks for an authorization
    Issues      a state is kept of that, which was never kept before
    Redeems     a callback takes it, before its time has come
    Regains     the user still may manage the workspace
    Writes      the connection is written

and no state is issued twice, taken twice or in two such chains (`installs_authorized`).  A
connection that is active has a token; it was active before, or has been installed since
(`active_installed`): that a test and a disconnection write a row they have read earlier
activates none.
-/
import ForkRoom.System.Installations
import ForkRoom.System.Operations

namespace ForkRoom

namespace Installations

open InstallationRepository IntegrationService

/-- Later in a run. -/
abbrev Run (dep : Deployment) : State → State → Prop :=
  Machine.Run (State.step dep) fun _ _ => True

/-- Some step of the run from `s₀`. -/
abbrev Made (dep : Deployment) (s₀ : State) : (State → Action → State → Prop) → State → Prop :=
  Machine.Made (State.step dep) (fun _ _ => True) s₀

/-! ## The chain -/

/-- Who may manage the workspace asks for an authorization. -/
structure Authorizes (pending : PendingAuthorization) (s : State) (a : Action) (s' : State) :
    Prop where
  asks : a.Asks pending
  managed : Managed pending s
  begins : s' = s.begin (.issuing pending)

/-- A new state is kept, of such an authorization. -/
structure Issues (dep : Deployment) (s₀ : State) (taken : Taken) (s : State) (a : Action)
    (s' : State) : Prop where
  new : taken.state ∉ s.issued
  issuing : ∃ i out, a = .advance i out ∧ s.tasks[i]? = some (.issuing taken.pending)
  issued : s'.issued = taken.state :: s.issued
  keeps : s'.states taken.state =
    Expiring.Key.putFor s.clock (dep.stateTtlSeconds * 1000000) taken.pending
  authorized : Made dep s₀ (Authorizes taken.pending) s

/-- That was at the time `t`. -/
def Issued (dep : Deployment) (s₀ : State) (taken : Taken) (t : Datetime) : State → Prop :=
  Made dep s₀ fun s a s' => s.clock = t ∧ Issues dep s₀ taken s a s'

/-- A callback takes the state, before its time has come. -/
structure Redeems (dep : Deployment) (s₀ : State) (taken : Taken) (s : State) (a : Action)
    (s' : State) : Prop where
  callback : ∃ code providerError,
    a = .callback taken.pending.provider (some taken.state) code providerError
  inTime : ∃ t : Datetime, s.clock < t + dep.stateTtlSeconds * 1000000 ∧ Issued dep s₀ taken t s
  takes : s'.takes = taken.state :: s.takes
  gone : s'.states taken.state = none
  goesOn : s'.tasks = s.tasks ++ [.authorizing taken]

/-- The callback goes on, since the user still may manage the workspace. -/
structure Regains (dep : Deployment) (s₀ : State) (taken : Taken) (s : State) (a : Action)
    (s' : State) : Prop where
  goesOn : ∃ i out, a = .advance i out ∧ s.tasks[i]? = some (.authorizing taken) ∧
    s'.tasks = s.tasks.set i (.exchanging taken)
  managed : Managed taken.pending s
  redeemed : Made dep s₀ (Redeems dep s₀ taken) s

/-- The callback writes the connection. -/
structure Writes (dep : Deployment) (s₀ : State) (i : Installed) (s : State) (a : Action)
    (s' : State) : Prop where
  writes : ∃ j out loaded row, a = .advance j out ∧ row.id = i.connectionId ∧
    s.tasks[j]? = some (.upserting i.taken loaded row)
  installs : s'.installs = i :: s.installs
  regained : Made dep s₀ (Regains dep s₀ i.taken) s

/-- What is behind a request of the chain. -/
def Task.History (dep : Deployment) (s₀ s : State) : Task → Prop
  | .issuing pending => Made dep s₀ (Authorizes pending) s
  | .authorizing taken => Made dep s₀ (Redeems dep s₀ taken) s
  | .exchanging taken => Made dep s₀ (Regains dep s₀ taken) s
  | .selecting taken _ => Made dep s₀ (Regains dep s₀ taken) s
  | .upserting taken _ _ => Made dep s₀ (Regains dep s₀ taken) s
  | _ => True

structure HistoryInv (dep : Deployment) (s₀ s : State) : Prop where
  run : Run dep s₀ s
  tasks : ∀ task ∈ s.tasks, task.History dep s₀ s
  states : ∀ state e, s.states state = some e →
    ∃ t : Datetime, e.expiresAt = some (t + dep.stateTtlSeconds * 1000000) ∧
      Issued dep s₀ ⟨state, e.value⟩ t s

section
variable {dep : Deployment} {s₀ s s' : State} {a : Action}

theorem Task.Ended.history {task : Task} (h : task.Ended) : task.History dep s₀ s := by
  rcases h with ⟨answer, rfl⟩ | rfl <;> trivial

theorem Task.History.later {task : Task} (h : task.History dep s₀ s) (hrun : Run dep s s') :
    task.History dep s₀ s' := by
  cases task with
  | issuing pending => exact Machine.Made.later h hrun
  | authorizing taken => exact Machine.Made.later h hrun
  | exchanging taken => exact Machine.Made.later h hrun
  | selecting taken installation => exact Machine.Made.later h hrun
  | upserting taken loaded row => exact Machine.Made.later h hrun
  | _ => trivial

/-- A request that begins with an authorization has just been let through its gate. -/
theorem HistoryInv.begins (h : HistoryInv dep s₀ s) {task : Task}
    (hstep : State.step dep s a = some (s.begin task)) (hbegins : Begins dep s a task) :
    task.History dep s₀ (s.begin task) := by
  cases hbegins with
  | ended hended => exact hended.history
  | issuing hasks hmanaged => exact .now h.run trivial hstep ⟨hasks, hmanaged, rfl⟩
  | _ => trivial

/-- A request that goes on has its history still, and passes its second gate in this step. -/
theorem HistoryInv.moves (h : HistoryInv dep s₀ s) {i : Nat} {out : Outside} {task task' : Task}
    (hi : s.tasks[i]? = some task)
    (hstep : State.step dep s (.advance i out) = some (s.goOn i task'))
    (hmoves : Moves dep s task task') : task'.History dep s₀ (s.goOn i task') := by
  have htask := h.tasks task (List.mem_of_getElem? hi)
  have hnext : Run dep s (s.goOn i task') := .step (.refl s) trivial hstep
  cases hmoves with
  | failed => trivial
  | ended _ hended => exact hended.history
  | regained hmanaged =>
      exact .now h.run trivial hstep ⟨⟨i, out, rfl, hi, rfl⟩, hmanaged, htask⟩
  | exchanged _ => exact Machine.Made.later htask hnext
  | selected _ _ => exact Machine.Made.later htask hnext
  | _ => trivial

/-- A state that is read has been kept, and its time has not come. -/
theorem HistoryInv.inTime (h : HistoryInv dep s₀ s) {state : String}
    {pending : PendingAuthorization} (hread : (s.states state).read s.clock = some pending) :
    ∃ t : Datetime, s.clock < t + dep.stateTtlSeconds * 1000000 ∧
      Issued dep s₀ ⟨state, pending⟩ t s := by
  obtain ⟨e, he, hlive, rfl⟩ := Expiring.Key.read_eq_some.mp hread
  obtain ⟨t, hexpires, hissued⟩ := h.states state e he
  exact ⟨t, Expiring.Key.live_iff.mp hlive _ hexpires, hissued⟩

theorem HistoryInv.task_step (h : HistoryInv dep s₀ s) (hsteps : Steps dep s a s')
    (hstep : State.step dep s a = some s') {task : Task} (ht : task ∈ s'.tasks) :
    task.History dep s₀ s' := by
  have hkept : ∀ task ∈ s.tasks, task.History dep s₀ s' := fun task ht =>
    (h.tasks task ht).later (.step (.refl s) trivial hstep)
  cases hsteps with
  | tick _ => exact hkept task ht
  | core => exact hkept task ht
  | begun hbegins =>
      rcases List.mem_append.mp ht with ht | ht
      · exact hkept task ht
      · cases List.mem_singleton.mp ht
        exact h.begins hstep hbegins
  | taken hread htask =>
      rcases List.mem_append.mp ht with ht | ht
      · exact hkept task ht
      · cases List.mem_singleton.mp ht
        rcases htask with hended | ⟨rfl, rfl⟩
        · exact hended.history
        · exact .now h.run trivial hstep
            ⟨⟨_, _, rfl⟩, h.inTime hread, rfl, Function.update_self .., rfl⟩
  | issued hi _ =>
      rcases List.mem_or_eq_of_mem_set ht with ht | rfl
      · exact hkept task ht
      · trivial
  | moved hi hmoves =>
      rcases List.mem_or_eq_of_mem_set ht with ht | rfl
      · exact hkept task ht
      · exact h.moves hi hstep hmoves
  | installed hi _ _ =>
      rcases List.mem_or_eq_of_mem_set ht with ht | rfl
      · exact hkept task ht
      · trivial
  | committed hi _ =>
      rcases List.mem_or_eq_of_mem_set ht with ht | rfl
      · exact hkept task ht
      · trivial

/-- Which states are kept after a step. -/
theorem HistoryInv.state_step (h : HistoryInv dep s₀ s) (hsteps : Steps dep s a s')
    (hstep : State.step dep s a = some s') {state : String}
    {e : Expiring.Entry Datetime PendingAuthorization} (he : s'.states state = some e) :
    ∃ t : Datetime, e.expiresAt = some (t + dep.stateTtlSeconds * 1000000) ∧
      Issued dep s₀ ⟨state, e.value⟩ t s' := by
  have hkept : s.states state = some e → ∃ t : Datetime,
      e.expiresAt = some (t + dep.stateTtlSeconds * 1000000) ∧
        Issued dep s₀ ⟨state, e.value⟩ t s' := fun he => by
    obtain ⟨t, hexpires, hissued⟩ := h.states state e he
    exact ⟨t, hexpires, hissued.next trivial hstep⟩
  cases hsteps with
  | taken _ _ => exact hkept (Expiring.update_none_some he).2
  | @issued i out pending _ hi hnew =>
      rcases Expiring.update_some_some he with ⟨rfl, rfl⟩ | ⟨-, he⟩
      · exact ⟨s.clock, rfl, .now h.run trivial hstep
          ⟨rfl, hnew, ⟨i, out, rfl, hi⟩, rfl, Function.update_self ..,
            h.tasks _ (List.mem_of_getElem? hi)⟩⟩
      · exact hkept he
  | _ => exact hkept he

theorem Steps.installs_cases (h : Steps dep s a s') :
    s'.installs = s.installs ∨
    ∃ taken loaded row, .upserting taken loaded row ∈ s.tasks ∧
      (loaded = none → row.id ∉ s.installs.map Installed.connectionId) ∧
      s'.installs = ⟨row.id, taken⟩ :: s.installs := by
  cases h with
  | installed hi hnew _ => exact .inr ⟨_, _, _, List.mem_of_getElem? hi, hnew, rfl⟩
  | _ => exact .inl rfl

theorem HistoryInv.step (h : HistoryInv dep s₀ s) (hstep : State.step dep s a = some s') :
    HistoryInv dep s₀ s' := by
  have hsteps := State.step_cases hstep
  exact ⟨.step h.run trivial hstep, fun _ ht => h.task_step hsteps hstep ht,
    fun _ _ he => h.state_step hsteps hstep he⟩

/-- What is installed after a step was before, or is written in the step. -/
theorem HistoryInv.writes (h : HistoryInv dep s₀ s) (hsteps : Steps dep s a s') {i : Installed}
    (hi : i ∈ s'.installs) : i ∈ s.installs ∨ Writes dep s₀ i s a s' := by
  cases hsteps with
  | @installed j out taken loaded row _ _ hj _ _ =>
      rcases List.mem_cons.mp hi with rfl | hi
      · exact .inr ⟨⟨j, out, loaded, row, rfl, rfl, hj⟩, rfl, h.tasks _ (List.mem_of_getElem? hj)⟩
      · exact .inl hi
  | _ => exact .inl hi

theorem historyInv_start (clock : Datetime) (db : Db) :
    HistoryInv dep (start clock db) (start clock db) :=
  ⟨.refl _, List.forall_mem_nil _, nofun⟩

/-- Each connection that was written is the end of a chain. -/
theorem Run.writes {clock : Datetime} {db : Db} (h : Run dep (start clock db) s) :
    ∀ i ∈ s.installs, Made dep (start clock db) (Writes dep (start clock db) i) s :=
  h.each (fun _ _ _ hinv _ hstep => hinv.step hstep)
    (fun _ _ _ hinv _ hstep _ hi => hinv.writes (State.step_cases hstep) hi)
    (historyInv_start clock db) rfl

end

/-! ## No state in two chains -/

/-- The state that a request of the chain has taken. -/
def Task.claimed : Task → Option String
  | .authorizing taken => some taken.state
  | .exchanging taken => some taken.state
  | .selecting taken _ => some taken.state
  | .upserting taken _ _ => some taken.state
  | _ => none

/-- The states that are taken: by requests, and for what has been installed. -/
def State.claims (s : State) : List String :=
  s.tasks.filterMap Task.claimed ++ s.installs.map fun i => i.taken.state

/-- A state is taken by one callback, which is in flight, has installed, or is at its end. -/
structure Exclusive (s : State) : Prop where
  issued : s.issued.Nodup
  takes : s.takes.Nodup
  claims : s.claims.Subperm s.takes
  spent : ∀ state ∈ s.takes, state ∈ s.issued ∧ s.states state = none
  kept : ∀ state, s.states state ≠ none → state ∈ s.issued

section
variable {dep : Deployment} {s s' : State}

theorem Task.Ended.claimed {task : Task} (h : task.Ended) : task.claimed = none := by
  rcases h with ⟨answer, rfl⟩ | rfl <;> rfl

theorem Begins.claimed {a : Action} {task : Task} (h : Begins dep s a task) :
    task.claimed = none := by
  cases h with
  | ended hended => exact hended.claimed
  | _ => rfl

theorem Moves.claimed {task task' : Task} (h : Moves dep s task task') :
    task'.claimed = task.claimed ∨ task'.claimed = none := by
  cases h with
  | failed => exact .inr rfl
  | ended _ hended => exact .inr hended.claimed
  | _ => exact .inl rfl

/-- A step that takes nothing. -/
theorem Exclusive.of_subperm (h : Exclusive s) (hclaims : s'.claims.Subperm s.claims)
    (hissued : s'.issued = s.issued) (htakes : s'.takes = s.takes)
    (hstates : s'.states = s.states) : Exclusive s' := by
  refine ⟨?_, ?_, ?_, ?_, ?_⟩
  · rw [hissued]
    exact h.issued
  · rw [htakes]
    exact h.takes
  · rw [htakes]
    exact hclaims.trans h.claims
  · rw [htakes, hissued, hstates]
    exact h.spent
  · rw [hissued, hstates]
    exact h.kept

/-- A request that begins has taken nothing. -/
theorem claims_begin {task : Task} (h : task.claimed = none) :
    (s.begin task).claims = s.claims := by
  simp [State.claims, State.begin, h]

theorem claims_goOn {i : Nat} {task : Task} (task' : Task) (hi : s.tasks[i]? = some task)
    (h : task'.claimed = task.claimed ∨ task'.claimed = none) :
    (s.goOn i task').claims.Subperm s.claims := by
  have hbefore := Machine.filterMap_perm (f := Task.claimed) hi
  have hafter := Machine.filterMap_set_perm (f := Task.claimed) task' hi
  refine List.Subperm.append ?_ (List.Subperm.refl _)
  rcases h with h | h
  · rw [h] at hafter
    exact (hafter.trans hbefore.symm).subperm
  · rw [h] at hafter
    exact hafter.subperm.trans
      ((List.sublist_append_right _ _).subperm.trans hbefore.symm.subperm)

/-- The claim of a request that has written its connection is one of what is installed. -/
theorem claims_installed {i : Nat} {taken : Taken} {loaded : Option Installation}
    {row : Installation} {t : InstallationTables} {answer : Answer}
    (hi : s.tasks[i]? = some (.upserting taken loaded row)) :
    (State.claims { s.goOn i (.listing row.id answer) with
      toInstallationTables := t
      installs := ⟨row.id, taken⟩ :: s.installs }).Perm s.claims := by
  have hbefore := Machine.filterMap_perm (f := Task.claimed) hi
  have hafter := Machine.filterMap_set_perm (f := Task.claimed) (.listing row.id answer) hi
  refine (hafter.append_right _).trans (List.Perm.trans ?_ (hbefore.append_right _).symm)
  exact List.perm_middle

/-- The claim of a callback that has just taken a state is that state, if it goes on. -/
theorem claims_taken {state : String} {pending : PendingAuthorization} {task : Task}
    (htask : task.Ended ∨ task = .authorizing ⟨state, pending⟩) :
    (s.begin task).claims.Subperm (state :: s.claims) := by
  rcases htask with hended | rfl
  · rw [claims_begin hended.claimed]
    exact (List.sublist_cons_self _ _).subperm
  · have hperm : (s.begin (.authorizing ⟨state, pending⟩)).claims.Perm (state :: s.claims) := by
      simp only [State.claims, State.begin, List.filterMap_append, List.append_assoc]
      exact List.perm_middle
    exact hperm.subperm

/-- A state that is kept may be taken: nobody has. -/
theorem Exclusive.taken {state : String} {pending : PendingAuthorization} {task : Task}
    (h : Exclusive s) (hkept : s.states state ≠ none)
    (htask : task.Ended ∨ task = .authorizing ⟨state, pending⟩) :
    Exclusive (State.begin { s with
      states := Function.update s.states state none
      takes := state :: s.takes } task) := by
  have hnew : state ∉ s.takes := fun hm => hkept (h.spent state hm).2
  refine ⟨h.issued, List.nodup_cons.mpr ⟨hnew, h.takes⟩, ?_, fun k hk => ?_, fun k hne => ?_⟩
  · exact (claims_taken htask).trans (List.subperm_cons _ |>.mpr h.claims)
  · rcases List.mem_cons.mp hk with rfl | hk
    · exact ⟨h.kept k hkept, Function.update_self ..⟩
    · exact ⟨(h.spent k hk).1, Expiring.update_none_none (h.spent k hk).2⟩
  · obtain ⟨e, he⟩ := Option.ne_none_iff_exists'.mp hne
    exact h.kept k (by rw [(Expiring.update_none_some he).2]; exact Option.some_ne_none e)

/-- A state that is new has not been taken. -/
theorem Exclusive.issue {state : String} {e : Expiring.Entry Datetime PendingAuthorization}
    (h : Exclusive s) (hnew : state ∉ s.issued) :
    Exclusive { s with
      states := Function.update s.states state (some e)
      issued := state :: s.issued } := by
  refine ⟨List.nodup_cons.mpr ⟨hnew, h.issued⟩, h.takes, h.claims, fun k hk => ?_,
    fun k hne => ?_⟩
  · have hspent := h.spent k hk
    have hk' : k ≠ state := fun he => hnew (he ▸ hspent.1)
    exact ⟨List.mem_cons_of_mem _ hspent.1, (Function.update_of_ne hk' _ _).trans hspent.2⟩
  · by_cases hk : k = state
    · exact hk ▸ List.mem_cons_self
    · have hsame := Function.update_of_ne hk (some e) s.states
      exact List.mem_cons_of_mem _ (h.kept k (hsame ▸ hne))

theorem Exclusive.step {a : Action} (h : Exclusive s) (hsteps : Steps dep s a s') :
    Exclusive s' := by
  cases hsteps with
  | tick _ => exact h.of_subperm (List.Subperm.refl _) rfl rfl rfl
  | core => exact h.of_subperm (List.Subperm.refl _) rfl rfl rfl
  | begun hbegins =>
      exact h.of_subperm (by rw [claims_begin hbegins.claimed]) rfl rfl rfl
  | taken hread htask =>
      obtain ⟨e, he, -, -⟩ := Expiring.Key.read_eq_some.mp hread
      exact h.taken (by rw [he]; exact Option.some_ne_none e) (htask.imp_right And.left)
  | issued hi hnew =>
      exact (h.of_subperm (claims_goOn _ hi (.inr rfl)) rfl rfl rfl).issue hnew
  | moved hi hmoves => exact h.of_subperm (claims_goOn _ hi hmoves.claimed) rfl rfl rfl
  | installed hi _ _ => exact h.of_subperm (claims_installed hi).subperm rfl rfl rfl
  | committed hi hcommits =>
      exact h.of_subperm (claims_goOn _ hi (.inr rfl)) rfl rfl rfl

theorem exclusive_start (clock : Datetime) (db : Db) : Exclusive (start clock db) :=
  ⟨.nil, .nil, List.Subperm.refl _, List.forall_mem_nil _, fun _ h => absurd rfl h⟩

theorem Run.exclusive {clock : Datetime} {db : Db} (h : Run dep (start clock db) s) :
    Exclusive s :=
  h.invariant (fun _ _ _ hinv _ hstep => hinv.step (State.step_cases hstep))
    (exclusive_start clock db)

/-- No two installations share a state. -/
theorem Exclusive.installs (h : Exclusive s) : (s.installs.map fun i => i.taken.state).Nodup := by
  obtain ⟨l, hperm, hsub⟩ := h.claims
  exact (hperm.nodup (h.takes.sublist hsub)).sublist (List.sublist_append_right _ _)

end

/-! ## The rows -/

/-- The connection is one that was installed so. -/
structure Installed.Of (i : Installed) (c : Installation) : Prop where
  id : i.connectionId = c.id
  workspaceId : i.taken.pending.workspaceId = c.workspaceId
  provider : i.taken.pending.provider = c.provider

/-- The connection has been there. -/
def Known (s : State) (c : Installation) : Prop := ∃ i ∈ s.installs, i.Of c

/-- What a callback is about to write, over the row it has found, if any. -/
structure Upserts (taken : Taken) (loaded : Option Installation) (row : Installation) : Prop where
  workspaceId : row.workspaceId = taken.pending.workspaceId
  provider : row.provider = taken.pending.provider
  connectedById : row.connectedById = taken.pending.userId
  active : row.status = .active
  token : row.accessTokenEncrypted ≠ none
  overwrites : ∀ c, loaded = some c → c.id = row.id ∧ c.workspaceId = row.workspaceId ∧
    c.provider = row.provider ∧ row.accessTokenEncrypted ≠ c.accessTokenEncrypted

/-- A row that was read with a token that is good. -/
structure Usable (s : State) (c : Installation) : Prop where
  active : c.status = .active
  token : c.accessTokenEncrypted ≠ none
  known : Known s c

/-- What a request knows of the rows it has read. -/
def Task.Rows (s : State) : Task → Prop
  | .upserting taken loaded row => Upserts taken loaded row ∧ ∀ c, loaded = some c → Known s c
  | .testing c => Usable s c
  | .verifying c => Usable s c
  | .revoking c => Usable s c
  | .disconnecting c => Usable s c
  | _ => True

structure Sound (s : State) (c : Installation) : Prop where
  installed : ∃ i ∈ s.installs, i.Of c ∧ i.taken.pending.userId = c.connectedById
  status : c.status = .active ∨ c.status = .revoked
  token : c.status = .active → c.accessTokenEncrypted ≠ none

structure RowsInv (s : State) : Prop where
  tasks : ∀ task ∈ s.tasks, task.Rows s
  connections : ∀ c ∈ s.connections, Sound s c
  installs : ∀ i ∈ s.installs, ∀ j ∈ s.installs, i.connectionId = j.connectionId →
    i.taken.pending.workspaceId = j.taken.pending.workspaceId ∧
      i.taken.pending.provider = j.taken.pending.provider

section
variable {dep : Deployment} {s s' : State}

theorem Known.mono {c : Installation} (h : Known s c) (hsub : s.installs ⊆ s'.installs) :
    Known s' c := by
  obtain ⟨i, hi, hof⟩ := h
  exact ⟨i, hsub hi, hof⟩

theorem Task.Rows.mono {task : Task} (h : task.Rows s) (hsub : s.installs ⊆ s'.installs) :
    task.Rows s' := by
  have husable : ∀ {c : Installation}, Usable s c → Usable s' c :=
    fun h => ⟨h.active, h.token, h.known.mono hsub⟩
  cases task with
  | upserting taken loaded row => exact ⟨h.1, fun c hc => (h.2 c hc).mono hsub⟩
  | testing c => exact husable h
  | verifying c => exact husable h
  | revoking c => exact husable h
  | disconnecting c => exact husable h
  | _ => trivial

theorem Task.Ended.rows {task : Task} (h : task.Ended) : task.Rows s := by
  rcases h with ⟨answer, rfl⟩ | rfl <;> trivial

/-- A token is had from no row but an active one. -/
theorem accessToken_ok {now : Datetime} {c : Installation} {token : String}
    (h : accessToken dep now c = .ok token) :
    c.status = .active ∧ c.accessTokenEncrypted ≠ none := by
  unfold accessToken at h
  split at h
  · cases h
  · rename_i hactive
    split at h
    · cases h
    · split at h
      · cases h
      · rename_i hsome
        exact ⟨not_not.mp hactive, hsome ▸ Option.some_ne_none _⟩

theorem Sound.known {c : Installation} (h : Sound s c) : Known s c := by
  obtain ⟨i, hi, hof, -⟩ := h.installed
  exact ⟨i, hi, hof⟩

theorem Sound.mono {c : Installation} (h : Sound s c) (hsub : s.installs ⊆ s'.installs) :
    Sound s' c := by
  obtain ⟨⟨i, hi, hof⟩, hstatus, htoken⟩ := h
  exact ⟨⟨i, hsub hi, hof⟩, hstatus, htoken⟩

theorem RowsInv.begins (h : RowsInv s) {a : Action} {task : Task} (hbegins : Begins dep s a task) :
    task.Rows s := by
  have husable : ∀ {c : Installation} {token : String}, c ∈ s.connections →
      accessToken dep s.clock c = .ok token → Usable s c := fun hc htoken =>
    ⟨(accessToken_ok htoken).1, (accessToken_ok htoken).2, (h.connections _ hc).known⟩
  cases hbegins with
  | ended hended => exact hended.rows
  | testing hc htoken => exact husable hc htoken
  | revoking hc htoken => exact husable hc htoken
  | _ => trivial

theorem findAccount_some {workspaceId : UUID} {name : IntegrationProvider}
    {externalAccountId : String} {t : InstallationTables} {c : Installation}
    (h : findAccount workspaceId name externalAccountId t = some c) :
    c ∈ t.connections ∧ c.workspaceId = workspaceId ∧ c.provider = name := by
  have hc := List.find?_some h
  rw [decide_eq_true_eq] at hc
  exact ⟨List.mem_of_find?_eq_some h, congrArg Prod.fst hc, congrArg (fun a => a.2.1) hc⟩

theorem upserts_selected {taken : Taken} {installation : ProviderInstallation} {out : Outside}
    {loaded : Option Installation}
    (hfind : ∀ c, loaded = some c → c.workspaceId = taken.pending.workspaceId ∧
      c.provider = taken.pending.provider)
    (hfresh : ∀ c, loaded = some c → c.accessTokenEncrypted ≠ some out.accessTokenEncrypted) :
    Upserts taken loaded (upserted taken.pending installation out loaded) := by
  cases loaded with
  | none =>
      exact ⟨rfl, rfl, rfl, rfl, Option.some_ne_none _, nofun⟩
  | some c =>
      obtain ⟨hworkspace, hprovider⟩ := hfind c rfl
      refine ⟨hworkspace, hprovider, rfl, rfl, Option.some_ne_none _, fun c' hc' => ?_⟩
      cases hc'
      exact ⟨rfl, rfl, rfl, (hfresh c rfl).symm⟩

theorem RowsInv.moves (h : RowsInv s) {task task' : Task} (htask : task.Rows s)
    (hmoves : Moves dep s task task') : task'.Rows s := by
  cases hmoves with
  | failed => trivial
  | ended _ hended => exact hended.rows
  | selected hloaded hfresh =>
      subst hloaded
      exact ⟨upserts_selected (fun c hc => (findAccount_some hc).2) hfresh,
        fun c hc => (h.connections c (findAccount_some hc).1).known⟩
  | tested => exact htask
  | revoked => exact htask
  | _ => trivial

theorem RowsInv.origin (h : RowsInv s) {a : Action} {task : Task}
    (ho : TaskOrigin dep s a s' task) :
    task.Rows s := by
  cases ho with
  | kept hmem => exact h.tasks _ hmem
  | begun hbegins => exact h.begins hbegins
  | redeemed _ => trivial
  | moved hmem hmoves => exact h.moves (h.tasks _ hmem) hmoves
  | installed _ => trivial

/-- A row that is written over one that was read is of the same workspace and provider. -/
theorem RowsInv.same (h : RowsInv s) {c c' : Installation} (hc : Known s c) (hc' : Known s c')
    (hid : c.id = c'.id) : c.workspaceId = c'.workspaceId ∧ c.provider = c'.provider := by
  obtain ⟨i, hi, hof⟩ := hc
  obtain ⟨j, hj, hof'⟩ := hc'
  have hsame := h.installs i hi j hj (hof.id.trans (hid.trans hof'.id.symm))
  exact ⟨hof.workspaceId.symm.trans (hsame.1.trans hof'.workspaceId),
    hof.provider.symm.trans (hsame.2.trans hof'.provider)⟩

/-- A test leaves the status as it is, whatever it has become. -/
theorem Usable.verified_status {loaded : Installation} (h : Usable s loaded) (now : Datetime)
    (stored : Installation) :
    (merge loaded (verified now loaded) stored).status = stored.status := by
  show Rows.column loaded.status .active stored.status = stored.status
  rw [← h.active, Rows.column_kept]

theorem Usable.revoked_status {loaded : Installation} (h : Usable s loaded)
    (stored : Installation) : (merge loaded (revoked loaded) stored).status = .revoked :=
  Rows.column_changed (by rw [h.active]; exact nofun) _

theorem RowsInv.connection (h : RowsInv s) (hsub : s.installs ⊆ s'.installs) {c : Installation}
    (ho : ConnectionOrigin s s' c) : Sound s' c := by
  cases ho with
  | kept hc => exact (h.connections _ hc).mono hsub
  | @inserted taken _ hmem hinstalls _ =>
      obtain ⟨hrow, -⟩ := h.tasks _ hmem
      have hi : (⟨c.id, taken⟩ : Installed) ∈ s'.installs := hinstalls ▸ List.mem_cons_self
      exact ⟨⟨_, hi, ⟨rfl, hrow.workspaceId.symm, hrow.provider.symm⟩, hrow.connectedById.symm⟩,
        .inl hrow.active, fun _ => hrow.token⟩
  | @updated taken loaded row stored hmem hinstalls hstored hid =>
      obtain ⟨hrow, hknown⟩ := h.tasks _ hmem
      obtain ⟨hloaded, hworkspace, hprovider, hchanged⟩ := hrow.overwrites loaded rfl
      have hsound := h.connections _ hstored
      have hsame := h.same hsound.known (hknown loaded rfl) (hid.trans hloaded.symm)
      have hi : (⟨row.id, taken⟩ : Installed) ∈ s'.installs := hinstalls ▸ List.mem_cons_self
      refine ⟨?_, ?_, fun _ => ?_⟩
      · -- it is connected by who has just come back, or by who was before
        rcases Rows.column_cases loaded.connectedById row.connectedById stored.connectedById with
          hkept | hnew
        · obtain ⟨i, hmem, hof, huser⟩ := hsound.installed
          exact ⟨i, hsub hmem, ⟨hof.id, hof.workspaceId, hof.provider⟩, huser.trans hkept.symm⟩
        · refine ⟨_, hi, ⟨hid.symm, ?_, ?_⟩, hrow.connectedById.symm.trans hnew.symm⟩
          · exact hrow.workspaceId.symm.trans (hworkspace.symm.trans hsame.1.symm)
          · exact hrow.provider.symm.trans (hprovider.symm.trans hsame.2.symm)
      · rcases Rows.column_cases loaded.status row.status stored.status with hkept | hnew
        · rcases hsound.status with hactive | hrevoked
          · exact .inl (hkept.trans hactive)
          · exact .inr (hkept.trans hrevoked)
        · exact .inl (hnew.trans hrow.active)
      · have htoken : (merge loaded row stored).accessTokenEncrypted = row.accessTokenEncrypted :=
          Rows.column_changed hchanged _
        rw [htoken]
        exact hrow.token
  | @verified loaded stored hmem hstored _ =>
      have hstatus := Usable.verified_status (h.tasks _ hmem) s.clock stored
      obtain ⟨⟨i, hi, hof, huser⟩, hcases, htoken⟩ := h.connections _ hstored
      refine ⟨⟨i, hsub hi, ⟨hof.id, hof.workspaceId, hof.provider⟩, ?_⟩, hstatus ▸ hcases, ?_⟩
      · exact huser.trans (Rows.column_kept _ _).symm
      · have hkept : (merge loaded (verified s.clock loaded) stored).accessTokenEncrypted =
            stored.accessTokenEncrypted := Rows.column_kept _ _
        rw [hstatus, hkept]
        exact htoken
  | @disconnected loaded stored hmem hstored _ =>
      have hstatus := Usable.revoked_status (h.tasks _ hmem) stored
      obtain ⟨⟨i, hi, hof, huser⟩, -, -⟩ := h.connections _ hstored
      refine ⟨⟨i, hsub hi, ⟨hof.id, hof.workspaceId, hof.provider⟩, ?_⟩, .inr hstatus, ?_⟩
      · exact huser.trans (Rows.column_kept _ _).symm
      · rw [hstatus]
        intro hactive
        cases hactive

theorem Steps.installs_subset {a : Action} (h : Steps dep s a s') : s.installs ⊆ s'.installs := by
  rcases h.installs_cases with hsame | ⟨taken, loaded, row, -, -, hcons⟩
  · exact hsame ▸ List.Subset.refl _
  · exact hcons ▸ List.subset_cons_self _ _

/-- What is installed over a connection is of its workspace and provider. -/
theorem RowsInv.installed (h : RowsInv s) {taken : Taken} {loaded : Option Installation}
    {row : Installation} (hmem : .upserting taken loaded row ∈ s.tasks)
    (hnew : loaded = none → row.id ∉ s.installs.map Installed.connectionId) {i : Installed}
    (hi : i ∈ s.installs) (hid : i.connectionId = row.id) :
    i.taken.pending.workspaceId = taken.pending.workspaceId ∧
      i.taken.pending.provider = taken.pending.provider := by
  obtain ⟨hrow, hknown⟩ := h.tasks _ hmem
  cases loaded with
  | none => exact absurd (hid ▸ List.mem_map_of_mem hi) (hnew rfl)
  | some c =>
      obtain ⟨hloaded, hworkspace, hprovider, -⟩ := hrow.overwrites c rfl
      obtain ⟨j, hj, hof⟩ := hknown c rfl
      have hsame := h.installs i hi j hj (hid.trans (hloaded.symm.trans hof.id.symm))
      exact ⟨hsame.1.trans (hof.workspaceId.trans (hworkspace.trans hrow.workspaceId)),
        hsame.2.trans (hof.provider.trans (hprovider.trans hrow.provider))⟩

theorem RowsInv.step {a : Action} (h : RowsInv s) (hsteps : Steps dep s a s') : RowsInv s' := by
  have hsub := hsteps.installs_subset
  refine ⟨fun task ht => (h.origin (hsteps.task_origin ht)).mono hsub,
    fun c hc => h.connection hsub (hsteps.connection_origin hc), ?_⟩
  rcases hsteps.installs_cases with hsame | ⟨taken, loaded, row, hmem, hnew, hcons⟩
  · exact hsame ▸ h.installs
  · rw [hcons]
    intro i hi j hj hid
    rcases List.mem_cons.mp hi with rfl | hi <;> rcases List.mem_cons.mp hj with rfl | hj
    · exact ⟨rfl, rfl⟩
    · have hsame := h.installed hmem hnew hj hid.symm
      exact ⟨hsame.1.symm, hsame.2.symm⟩
    · exact h.installed hmem hnew hi hid
    · exact h.installs i hi j hj hid

theorem rowsInv_start (clock : Datetime) (db : Db) : RowsInv (start clock db) :=
  ⟨List.forall_mem_nil _, List.forall_mem_nil _, List.forall_mem_nil _⟩

theorem Reachable.rowsInv (h : Reachable dep s) : RowsInv s := by
  obtain ⟨clock, db, hrun⟩ := h
  exact hrun.invariant (fun s a s' hinv _ hs => hinv.step (State.step_cases hs))
    (rowsInv_start clock db)

/-! ## Active connections -/

/-- What is active has been active, or has been installed since. -/
def Renewed (s s' : State) : Prop :=
  ∃ new, s'.installs = new ++ s.installs ∧ ∀ c' ∈ s'.connections, c'.status = .active →
    (∃ c ∈ s.connections, c.id = c'.id ∧ c.status = .active) ∨ ∃ i ∈ new, i.connectionId = c'.id

theorem Renewed.refl (s : State) : Renewed s s :=
  ⟨[], rfl, fun c hc hactive => .inl ⟨c, hc, rfl, hactive⟩⟩

theorem Renewed.trans {s'' : State} (h : Renewed s s') (h' : Renewed s' s'') :
    Renewed s s'' := by
  obtain ⟨new, hnew, hactive⟩ := h
  obtain ⟨new', hnew', hactive'⟩ := h'
  refine ⟨new' ++ new, by rw [hnew', hnew, List.append_assoc], fun c'' hc'' hstatus => ?_⟩
  rcases hactive' c'' hc'' hstatus with ⟨c', hc', hid, hstatus'⟩ | ⟨i, hi, hid⟩
  · rcases hactive c' hc' hstatus' with ⟨c, hc, hid', hstatus₀⟩ | ⟨i, hi, hid'⟩
    · exact .inl ⟨c, hc, hid'.trans hid, hstatus₀⟩
    · exact .inr ⟨i, List.mem_append_right _ hi, hid'.trans hid⟩
  · exact .inr ⟨i, List.mem_append_left _ hi, hid⟩

/-- Where an active connection comes from: a test and a disconnection make none. -/
theorem RowsInv.active_origin (h : RowsInv s) {c : Installation} (ho : ConnectionOrigin s s' c)
    (hactive : c.status = .active) :
    (∃ c₀ ∈ s.connections, c₀.id = c.id ∧ c₀.status = .active) ∨
      ∃ i, s'.installs = i :: s.installs ∧ i.connectionId = c.id := by
  cases ho with
  | kept hc => exact .inl ⟨c, hc, rfl, hactive⟩
  | inserted _ hinstalls _ => exact .inr ⟨_, hinstalls, rfl⟩
  | updated _ hinstalls _ hid => exact .inr ⟨_, hinstalls, hid.symm⟩
  | verified hmem hstored _ =>
      rw [Usable.verified_status (h.tasks _ hmem)] at hactive
      exact .inl ⟨_, hstored, rfl, hactive⟩
  | disconnected hmem _ _ =>
      rw [Usable.revoked_status (h.tasks _ hmem)] at hactive
      cases hactive

theorem RowsInv.renewed {a : Action} (h : RowsInv s) (hsteps : Steps dep s a s') :
    Renewed s s' := by
  rcases hsteps.installs_cases with hsame | ⟨taken, loaded, row, -, -, hcons⟩
  · refine ⟨[], hsame, fun c hc hactive => ?_⟩
    rcases h.active_origin (hsteps.connection_origin hc) hactive with hold | ⟨i, hinstalls, -⟩
    · exact .inl hold
    · rw [hsame] at hinstalls
      exact absurd hinstalls.symm (List.cons_ne_self _ _)
  · refine ⟨[⟨row.id, taken⟩], hcons, fun c hc hactive => ?_⟩
    rcases h.active_origin (hsteps.connection_origin hc) hactive with hold | ⟨i, hinstalls, hid⟩
    · exact .inl hold
    · rw [hcons] at hinstalls
      obtain ⟨rfl, -⟩ := List.cons.inj hinstalls
      exact .inr ⟨_, List.mem_singleton_self _, hid⟩

end

/-! ## The results -/

/-- Whatever is connected has been installed by who might manage the workspace when they
began and when they came back, by a state that was kept once and taken once, in its time. -/
theorem installs_authorized {dep : Deployment} {clock : Datetime} {db : Db} {s : State}
    (h : Run dep (start clock db) s) :
    s.issued.Nodup ∧ s.takes.Nodup ∧ (s.installs.map fun i => i.taken.state).Nodup ∧
    (∀ i ∈ s.installs, Made dep (start clock db) (Writes dep (start clock db) i) s) ∧
    ∀ c ∈ s.connections, ∃ i ∈ s.installs, i.Of c ∧ i.taken.pending.userId = c.connectedById := by
  have hexclusive : Exclusive s := Run.exclusive h
  have hrows : RowsInv s := Reachable.rowsInv ⟨clock, db, h⟩
  exact ⟨hexclusive.issued, hexclusive.takes, hexclusive.installs, Run.writes h,
    fun c hc => (hrows.connections c hc).installed⟩

/-! ### A sample -/

namespace Sample

open ForkRoom.Sample (ada env dep)

theorem ttl_ge : 300 ≤ 600 := by decide

theorem ttl_le : 600 ≤ 1800 := by decide

def deployment : Deployment :=
  ⟨"https://forkroom.test", 600, fun _ => true, .ok fun text => some text, ttl_ge, ttl_le⟩

/-- Ada has a workspace. -/
def lab : Db := runAll dep [.register ada, .createWorkspace (env 1 10) ada ⟨"Lab", none⟩] Db.empty

def outside (state encrypted : String) : Outside where
  state := state
  id := 60
  fresh := fun i => BitVec.ofNat 128 (70 + i)
  accessTokenEncrypted := encrypted
  refreshTokenEncrypted := ""
  exchange := .ok (.obj [("ok", .bool true), ("access_token", .str "xoxb-1"),
    ("team", .obj [("id", .str "T1"), ("name", .str "Lab")])])
  call := .ok ()

/-- Ada installs the account, in the tasks `i` and `i + 1`. -/
def installs (i : Nat) (state encrypted : String) : List Action :=
  let out := outside state encrypted
  [.authorize 1 10 .slack none "verifier", .advance i out,
    .callback .slack (some state) (some "code") none] ++ List.replicate 6 (.advance (i + 1) out)

/-- Ada disconnects it, in the task `i`. -/
def disconnects (i : Nat) : List Action :=
  .disconnect 1 10 60 :: List.replicate 2 (.advance i (outside "" ""))

end Sample

theorem installs_authorized_sample : ∃ s : State, s.connections.length = 1 ∧
    ∀ c ∈ s.connections, ∃ i ∈ s.installs, i.Of c ∧
      Made Sample.deployment (start 0 Sample.lab)
        (Writes Sample.deployment (start 0 Sample.lab) i) s := by
  obtain ⟨s, hplay, hs⟩ := Option.map_eq_some_iff.mp
    (show (Machine.play (State.step Sample.deployment) (fun _ _ => True) (start 0 Sample.lab)
        (Sample.installs 0 "fern" "gAAAA")).map (fun s => s.connections.length) = some 1 by
      decide +kernel)
  obtain ⟨-, -, -, hwrites, hrows⟩ := installs_authorized (Machine.Run.of_play hplay)
  refine ⟨s, hs, fun c hc => ?_⟩
  obtain ⟨i, hi, hof, -⟩ := hrows c hc
  exact ⟨i, hi, hof, hwrites i hi⟩

/-- An active connection has a token, and none becomes active but by an installation. -/
theorem active_installed {dep : Deployment} {s s' : State} (h : Reachable dep s)
    (hrun : Run dep s s') :
    (∀ c ∈ s'.connections, c.status = .active → c.accessTokenEncrypted ≠ none) ∧
      Renewed s s' := by
  have hstep : ∀ s a s', RowsInv s → True → State.step dep s a = some s' → RowsInv s' :=
    fun s a s' hinv _ hs => hinv.step (State.step_cases hs)
  have hrows : RowsInv s' := hrun.invariant hstep h.rowsInv
  refine ⟨fun c hc => (hrows.connections c hc).token, ?_⟩
  exact hrun.relates Renewed.refl Renewed.trans hstep
    (fun s a s' hinv _ hs => hinv.renewed (State.step_cases hs)) h.rowsInv

/-- Ada has disconnected the account, and installs it again. -/
theorem active_installed_sample : ∃ s s' : State, (∀ c ∈ s.connections, c.status = .revoked) ∧
    (∃ c ∈ s'.connections, c.status = .active ∧ c.accessTokenEncrypted ≠ none) ∧
    Renewed s s' := by
  obtain ⟨⟨s, s'⟩, hplays, hs⟩ := Option.map_eq_some_iff.mp
    (show ((Machine.play (State.step Sample.deployment) (fun _ _ => True) (start 0 Sample.lab)
        (Sample.installs 0 "fern" "gAAAA" ++ Sample.disconnects 2)).bind fun s =>
          (Machine.play (State.step Sample.deployment) (fun _ _ => True) s
            (Sample.installs 3 "moss" "gBBBB")).map fun s' => (s, s')).map
              (fun p => (decide (∀ c ∈ p.1.connections, c.status = .revoked),
                p.2.connections.any fun c => c.status = .active)) = some (true, true) by
      decide +kernel)
  obtain ⟨hrevoked, hactive⟩ := Prod.mk.inj hs
  obtain ⟨s₁, hplay, hplays⟩ := Option.bind_eq_some_iff.mp hplays
  obtain ⟨s₂, hplay', hpair⟩ := Option.map_eq_some_iff.mp hplays
  cases hpair
  obtain ⟨c, hc, hstatus⟩ := List.any_eq_true.mp hactive
  have hactive : c.status = .active := by simpa using hstatus
  have h := active_installed ⟨0, Sample.lab, Machine.Run.of_play hplay⟩ (Machine.Run.of_play hplay')
  exact ⟨s, s', of_decide_eq_true hrevoked, ⟨c, hc, hactive, h.1 c hc hactive⟩, h.2⟩

end Installations

end ForkRoom
