/-
# `Proof.Exports` — what keeps to the limit of attempts

Only the handler of a failed run looks at the limit: it sends no further message.
The claim takes whatever is pending, failed or stale, for any message that comes.

    claim ── fails ── below the limit: the message again
                   ── at the limit: no message of this run

So the limit holds as long as an export has one message at a time, in the queue or
with a worker: `tokens` counts them.  The message in the queue is then always one
for an export below the limit, and nobody else can bring the export to it.
-/
import ForkRoom.System.Exports
import ForkRoom.System.Operations

namespace ForkRoom

open Optimistic Reads Rows

namespace Exports

/-! ## Messages under way -/

/-- The messages of the export that are in the queue or with a worker who is at work. -/
def State.tokens (s : State) (id : UUID) : Nat :=
  s.messages.countP (fun m => m.exportId = id) +
    s.tasks.countP fun t => t.phase.atWork && t.message.exportId = id

section
variable {s : State} {k : Nat} {t : Task} {p : TaskPhase} {m : Message} {id : UUID}

theorem tokens_send : (s.send m).tokens id = s.tokens id + if m.exportId = id then 1 else 0 := by
  have h : [m].countP (fun m => decide (m.exportId = id)) = if m.exportId = id then 1 else 0 := by
    simp
  simp only [State.tokens, State.send, List.countP_append, h]
  omega

/-- A worker who goes on keeps its message, or gives it away. -/
theorem tokens_workOn (hk : s.tasks[k]? = some t) :
    (s.workOn k t p).tokens id + (if t.phase.atWork ∧ t.message.exportId = id then 1 else 0) =
      s.tokens id + if p.atWork ∧ t.message.exportId = id then 1 else 0 := by
  obtain ⟨hlt, ht⟩ := List.getElem?_eq_some_iff.mp hk
  have hpos : t.phase.atWork ∧ t.message.exportId = id →
      0 < s.tasks.countP fun t => t.phase.atWork && t.message.exportId = id := by
    intro h
    exact List.countP_pos_iff.mpr ⟨t, List.mem_of_getElem? hk, by simpa using h⟩
  simp only [State.tokens, State.workOn, List.countP_set hlt, ht, Bool.and_eq_true,
    decide_eq_true_eq]
  split
  · rename_i h
    have := hpos h
    omega
  · omega

theorem tokens_eq_zero : s.tokens id = 0 ↔ (∀ m ∈ s.messages, m.exportId ≠ id) ∧
    ∀ t ∈ s.tasks, t.message.exportId = id → t.phase.atWork = false := by
  have htask : ∀ t : Task, (¬ (t.phase.atWork && decide (t.message.exportId = id)) = true) ↔
      (t.message.exportId = id → t.phase.atWork = false) := by
    intro t
    cases t.phase.atWork <;> simp
  simp only [State.tokens, Nat.add_eq_zero_iff, List.countP_eq_zero, decide_eq_true_eq, htask]

/-- If there is one message at most, whoever has it has nobody beside him. -/
theorem alone (hk : s.tasks[k]? = some t) (hw : t.phase.atWork = true) (hp : p.atWork = false)
    (h : s.tokens t.message.exportId ≤ 1) : (s.workOn k t p).tokens t.message.exportId = 0 := by
  have hcount := @tokens_workOn _ _ _ p t.message.exportId hk
  rw [if_pos ⟨hw, rfl⟩, hp, if_neg fun hno => nomatch hno.1] at hcount
  omega

/-- The tasks beside one that moves. -/
theorem mem_tasks_set {t₁ x : Task} (t₂ : Task) (h : x ∈ s.tasks.set k t₁) :
    x = t₁ ∨ x ∈ s.tasks.set k t₂ := by
  obtain ⟨j, hj⟩ := List.mem_iff_getElem?.mp h
  rcases Machine.getElem?_set_cases hj with ⟨-, rfl⟩ | ⟨hne, hj⟩
  · exact Or.inl rfl
  · exact Or.inr (List.mem_iff_getElem?.mpr ⟨j, by rw [List.getElem?_set_ne hne, hj]⟩)

end

/-! ## The invariant -/

/-- What a phase of a worker knows of the attempts of its export. -/
def TaskPhase.Knows (settings : ExportSettings) (e : DecisionExport) : TaskPhase → Prop
  | .starting => e.attemptCount < settings.exportProcessingMaxAttempts
  | .marking loaded _ => e.attemptCount ≤ loaded.attemptCount
  | .deciding attempts => e.attemptCount ≤ attempts
  | _ => True

theorem TaskPhase.knows_new {settings : ExportSettings} {e : DecisionExport}
    (h : e.attemptCount = 0) (p : TaskPhase) : p.Knows settings e := by
  cases p with
  | starting =>
      rw [TaskPhase.Knows, h]
      exact settings.attempts_pos
  | marking | deciding =>
      rw [TaskPhase.Knows, h]
      exact Nat.zero_le _
  | _ => trivial

structure Inv (settings : ExportSettings) (s : State) : Prop where
  ids : (s.exports.map DecisionExport.id).Nodup
  bound : ∀ e ∈ s.exports, e.attemptCount ≤ settings.exportProcessingMaxAttempts
  claims : ∀ e ∈ s.exports, s.claims e.id ≤ e.attemptCount
  unknown : ∀ id, (∀ e ∈ s.exports, e.id ≠ id) → s.claims id = 0
  tokens : ∀ id, s.tokens id ≤ 1
  messages : ∀ m ∈ s.messages, ∀ e ∈ s.exports, e.id = m.exportId →
    e.attemptCount < settings.exportProcessingMaxAttempts
  tasks : ∀ t ∈ s.tasks, ∀ e ∈ s.exports, e.id = t.message.exportId → t.phase.Knows settings e

section
variable {settings : ExportSettings} {rendering : Rendering} {s s' : State} {k : Nat} {t : Task}
  {p : TaskPhase} {m : Message}

theorem inv_start (db : Db) (now : Datetime) : Inv settings (start db now) where
  ids := List.nodup_nil
  bound _ h := nomatch h
  claims _ h := nomatch h
  unknown _ _ := rfl
  tokens _ := Nat.zero_le _
  messages _ h := nomatch h
  tasks _ h := nomatch h

/-- The rest of the state does not matter. -/
theorem Inv.of_eq (h : Inv settings s) (he : s'.exports = s.exports) (hm : s'.messages = s.messages)
    (ht : s'.tasks = s.tasks) (hc : s'.claims = s.claims) : Inv settings s' where
  ids := he ▸ h.ids
  bound := he ▸ h.bound
  claims := by rw [he, hc]; exact h.claims
  unknown := by rw [he, hc]; exact h.unknown
  tokens := by
    rw [show s'.tokens = s.tokens by funext id; rw [State.tokens, State.tokens, hm, ht]]
    exact h.tokens
  messages := by rw [he, hm]; exact h.messages
  tasks := by rw [he, ht]; exact h.tasks

theorem Inv.claims_le (h : Inv settings s) (id : UUID) :
    s.claims id ≤ settings.exportProcessingMaxAttempts := by
  by_cases hid : ∃ e ∈ s.exports, e.id = id
  · obtain ⟨e, he, rfl⟩ := hid
    exact le_trans (h.claims e he) (h.bound e he)
  · rw [h.unknown id fun e he heq => hid ⟨e, he, heq⟩]
    exact Nat.zero_le _

/-! ### Commits that claim nothing -/

/-- Rows that have at most the attempts they had, and claims that are counted in them. -/
theorem Inv.rows {exports : List DecisionExport} {claims : UUID → Nat} (h : Inv settings s)
    (hids : (exports.map DecisionExport.id).Nodup)
    (hold : ∀ e' ∈ exports, ∃ e ∈ s.exports, e.id = e'.id ∧ e'.attemptCount ≤ e.attemptCount)
    (hclaims : ∀ e' ∈ exports, claims e'.id ≤ e'.attemptCount)
    (hunknown : ∀ id, (∀ e' ∈ exports, e'.id ≠ id) → claims id = 0) :
    Inv settings { s with exports := exports, claims := claims } where
  ids := hids
  bound e' he' := by
    obtain ⟨e, he, -, hle⟩ := hold e' he'
    exact le_trans hle (h.bound e he)
  claims := hclaims
  unknown := hunknown
  tokens := h.tokens
  messages m hm e' he' hid := by
    obtain ⟨e, he, heid, hle⟩ := hold e' he'
    exact lt_of_le_of_lt hle (h.messages m hm e he (heid.trans hid))
  tasks t ht e' he' hid := by
    obtain ⟨e, he, heid, hle⟩ := hold e' he'
    have hknown := h.tasks t ht e he (heid.trans hid)
    cases hp : t.phase with
    | starting =>
        rw [hp] at hknown
        exact lt_of_le_of_lt hle hknown
    | marking | deciding =>
        rw [hp] at hknown
        exact le_trans hle hknown
    | _ => trivial

theorem update_some {loaded current : DecisionExport} {exports exports' : List DecisionExport}
    (h : update loaded current exports = some exports') :
    exports' = modify loaded.id (DecisionExport.merge loaded current) exports := by
  unfold update at h
  dsimp only at h
  split at h
  · cases h
    rfl
  · cases h

theorem update_ids {loaded current : DecisionExport} {exports : List DecisionExport} :
    (modify loaded.id (DecisionExport.merge loaded current) exports).map DecisionExport.id =
      exports.map DecisionExport.id :=
  map_modify (f := DecisionExport.merge loaded current) DecisionExport.id (fun _ => rfl) exports

/-- The identifiers that are unknown stay so. -/
theorem unknown_iff {exports exports' : List DecisionExport} {id : UUID}
    (h : exports'.map DecisionExport.id = exports.map DecisionExport.id) :
    (∀ e ∈ exports', e.id ≠ id) ↔ ∀ e ∈ exports, e.id ≠ id := by
  have hmem : ∀ l : List DecisionExport, (∀ e ∈ l, e.id ≠ id) ↔ id ∉ l.map DecisionExport.id := by
    intro l
    simp only [List.mem_map, not_exists, not_and]
  rw [hmem, hmem, h]

/-- A commit that leaves the attempts alone. -/
theorem Inv.update {loaded current : DecisionExport} {exports : List DecisionExport}
    (h : Inv settings s) (hu : update loaded current s.exports = some exports)
    (hattempts : current.attemptCount = loaded.attemptCount) :
    Inv settings { s with exports := exports } := by
  obtain rfl := update_some hu
  have hsame : ∀ e' ∈ modify loaded.id (DecisionExport.merge loaded current) s.exports,
      ∃ e ∈ s.exports, e.id = e'.id ∧ e'.attemptCount = e.attemptCount := by
    intro e' he'
    obtain ⟨e, he, rfl⟩ := mem_modify.mp he'
    refine ⟨e, he, ?_⟩
    split
    · exact ⟨rfl, by rw [DecisionExport.merge, hattempts, column_kept]⟩
    · exact ⟨rfl, rfl⟩
  refine h.rows (update_ids.symm ▸ h.ids) ?_ ?_ ?_
  · intro e' he'
    obtain ⟨e, he, hid, heq⟩ := hsame e' he'
    exact ⟨e, he, hid, le_of_eq heq⟩
  · intro e' he'
    obtain ⟨e, he, hid, heq⟩ := hsame e' he'
    rw [← hid, heq]
    exact h.claims e he
  · intro id hno
    exact h.unknown id ((unknown_iff update_ids).mp hno)

/-- A reset. -/
theorem Inv.reset {loaded : DecisionExport} {exports : List DecisionExport} (h : Inv settings s)
    (hu : Exports.update loaded (DecisionExportRepository.reset loaded) s.exports = some exports) :
    Inv settings { s with
      exports := exports
      claims := Function.update s.claims loaded.id 0 } := by
  obtain rfl := update_some hu
  have hle : ∀ e : DecisionExport,
      (DecisionExport.merge loaded (DecisionExportRepository.reset loaded) e).attemptCount ≤
        e.attemptCount := by
    intro e
    rcases column_cases loaded.attemptCount 0 e.attemptCount with hc | hc
    · exact le_of_eq hc
    · exact le_trans (le_of_eq hc) (Nat.zero_le _)
  have hold : ∀ e' ∈ modify loaded.id
      (DecisionExport.merge loaded (DecisionExportRepository.reset loaded)) s.exports,
      ∃ e ∈ s.exports, e.id = e'.id ∧ e'.attemptCount ≤ e.attemptCount ∧
        (e.id = loaded.id ∨ e' = e) := by
    intro e' he'
    obtain ⟨e, he, rfl⟩ := mem_modify.mp he'
    refine ⟨e, he, ?_⟩
    split
    · rename_i hid
      exact ⟨rfl, hle e, Or.inl hid⟩
    · exact ⟨rfl, le_refl _, Or.inr rfl⟩
  refine h.rows (update_ids.symm ▸ h.ids) ?_ ?_ ?_
  · intro e' he'
    obtain ⟨e, he, hid, hle, -⟩ := hold e' he'
    exact ⟨e, he, hid, hle⟩
  · intro e' he'
    obtain ⟨e, he, hid, -, hreset | rfl⟩ := hold e' he'
    · rw [← hid, hreset, Function.update_self]
      exact Nat.zero_le _
    · by_cases hreset : e'.id = loaded.id
      · rw [hreset, Function.update_self]
        exact Nat.zero_le _
      · rw [Function.update_of_ne hreset]
        exact h.claims e' he
  · intro id hno
    by_cases hid : id = loaded.id
    · rw [hid, Function.update_self]
    · rw [Function.update_of_ne hid]
      exact h.unknown id ((unknown_iff update_ids).mp hno)

theorem Inv.insert {row : DecisionExport} (h : Inv settings s)
    (hrow : insertable row s.db s.exports)
    (hzero : row.attemptCount = 0) : Inv settings { s with exports := s.exports ++ [row] } where
  ids := by
    rw [List.map_append]
    refine List.Nodup.append h.ids (List.nodup_singleton _) ?_
    intro i hi hnew
    obtain ⟨e, he, rfl⟩ := List.mem_map.mp hi
    exact (hrow.1 e he).1 (List.mem_singleton.mp hnew)
  bound := Machine.forall_snoc h.bound (hzero ▸ Nat.zero_le _)
  claims := Machine.forall_snoc h.claims
    (le_of_eq_of_le (h.unknown row.id fun e he => (hrow.1 e he).1) (Nat.zero_le _))
  unknown id hno := h.unknown id fun e he => hno e (List.mem_append_left _ he)
  tokens := h.tokens
  messages m hm := Machine.forall_snoc (h.messages m hm) fun _ => hzero ▸ settings.attempts_pos
  tasks t ht := Machine.forall_snoc (h.tasks t ht) fun _ => t.phase.knows_new hzero

/-! ### Messages and workers -/

theorem Inv.send (h : Inv settings s) (hfree : s.tokens m.exportId = 0)
    (hlow : ∀ e ∈ s.exports, e.id = m.exportId →
      e.attemptCount < settings.exportProcessingMaxAttempts) :
    Inv settings (s.send m) where
  ids := h.ids
  bound := h.bound
  claims := h.claims
  unknown := h.unknown
  tokens id := by
    rw [tokens_send]
    split
    · rename_i hid
      rw [← hid, hfree]
    · exact h.tokens id
  messages := Machine.forall_snoc h.messages hlow
  tasks := h.tasks

theorem Due.free {id : UUID} (h : Due settings id s) : s.tokens id = 0 :=
  tokens_eq_zero.mpr ⟨h.messages, h.tasks⟩

theorem Inv.send_due (h : Inv settings s) (hdue : Due settings m.exportId s) :
    Inv settings (s.send m) := h.send hdue.free hdue.attempts

/-- A worker goes on, with what its next phase has to know. -/
theorem Inv.workOn (h : Inv settings s) (hk : s.tasks[k]? = some t)
    (hwork : p.atWork = true → t.phase.atWork = true)
    (hknows : ∀ e ∈ s.exports, e.id = t.message.exportId → p.Knows settings e) :
    Inv settings (s.workOn k t p) where
  ids := h.ids
  bound := h.bound
  claims := h.claims
  unknown := h.unknown
  tokens id := by
    have hcount := @tokens_workOn _ _ _ p id hk
    have hone := h.tokens id
    split at hcount
    · split at hcount <;> omega
    · rename_i hnot
      rw [if_neg fun hp => hnot ⟨hwork hp.1, hp.2⟩] at hcount
      omega
  messages := h.messages
  tasks := Machine.forall_set h.tasks hknows

/-- A worker who takes a message from the queue. -/
theorem Inv.deliver {j : Nat} (h : Inv settings s) (hj : s.messages[j]? = some m) :
    Inv settings { s with
      messages := s.messages.eraseIdx j
      tasks := s.tasks ++ [⟨m, .starting⟩] } where
  ids := h.ids
  bound := h.bound
  claims := h.claims
  unknown := h.unknown
  tokens id := by
    refine le_trans (le_of_eq ?_) (h.tokens id)
    have htake : s.messages.countP (fun x => decide (x.exportId = id)) =
        (s.messages.eraseIdx j).countP (fun x => decide (x.exportId = id)) +
          if m.exportId = id then 1 else 0 := by
      obtain ⟨hlt, hm⟩ := List.getElem?_eq_some_iff.mp hj
      have hperm := (List.getElem_cons_eraseIdx_perm hlt).countP_eq fun x =>
        decide (x.exportId = id)
      rw [hm, List.countP_cons] at hperm
      rw [← hperm]
      simp
    have hnew : [(⟨m, .starting⟩ : Task)].countP
        (fun t => t.phase.atWork && decide (t.message.exportId = id)) =
          if m.exportId = id then 1 else 0 := by
      rw [List.countP_singleton]
      simp [TaskPhase.atWork]
    simp only [State.tokens, List.countP_append, hnew, htake]
    omega
  messages x hx := h.messages x (List.mem_of_mem_eraseIdx hx)
  tasks := Machine.forall_snoc h.tasks fun e he hid =>
    h.messages m (List.mem_of_getElem? hj) e he hid

/-- A claim: nobody else has a message of the export, so nobody else knows its attempts. -/
theorem Inv.claim {e : DecisionExport} (h : Inv settings s) (hk : s.tasks[k]? = some t)
    (hp : t.phase = .starting) (he : e ∈ s.exports) (hid : e.id = t.message.exportId) :
    Inv settings ({ s with
      exports := modify e.id (fun e => DecisionExportRepository.claimed e s.now) s.exports
      claims := Function.update s.claims e.id (s.claims e.id + 1) }.workOn k t .refreshing) := by
  have hlow : e.attemptCount < settings.exportProcessingMaxAttempts := by
    have hknown := h.tasks t (List.mem_of_getElem? hk) e he hid
    rw [hp] at hknown
    exact hknown
  obtain ⟨hmessages, htasks⟩ := tokens_eq_zero.mp
    (alone (p := .done) hk (by rw [hp]; rfl) rfl (h.tokens t.message.exportId))
  have hold : ∀ e' ∈ modify e.id (fun e => DecisionExportRepository.claimed e s.now) s.exports,
      (e'.id = e.id ∧ e'.attemptCount = e.attemptCount + 1) ∨ (e' ∈ s.exports ∧ e'.id ≠ e.id) := by
    intro e' he'
    obtain ⟨x, hx, rfl⟩ := mem_modify.mp he'
    split
    · rename_i hxe
      obtain rfl := eq_of_key h.ids hx he hxe
      exact Or.inl ⟨rfl, rfl⟩
    · rename_i hxe
      exact Or.inr ⟨hx, hxe⟩
  have hids : (modify e.id (fun e => DecisionExportRepository.claimed e s.now) s.exports).map
      DecisionExport.id = s.exports.map DecisionExport.id :=
    map_modify (f := fun e => DecisionExportRepository.claimed e s.now) DecisionExport.id
      (fun _ => rfl) s.exports
  refine ⟨hids.symm ▸ h.ids, ?_, ?_, ?_, ?_, ?_, ?_⟩
  · intro e' he'
    rcases hold e' he' with ⟨-, hcount⟩ | ⟨hx, -⟩
    · rw [hcount]
      exact hlow
    · exact h.bound e' hx
  · intro e' he'
    rcases hold e' he' with ⟨hxe, hcount⟩ | ⟨hx, hne⟩
    · rw [hxe, hcount]
      show Function.update s.claims e.id _ e.id ≤ _
      rw [Function.update_self]
      exact Nat.succ_le_succ (h.claims e he)
    · show Function.update s.claims e.id _ e'.id ≤ _
      rw [Function.update_of_ne hne]
      exact h.claims e' hx
  · intro id hno
    have hno' := (unknown_iff hids).mp hno
    show Function.update s.claims e.id _ id = 0
    rw [Function.update_of_ne (Ne.symm (hno' e he))]
    exact h.unknown id hno'
  · exact (h.workOn (p := .refreshing) hk (fun _ => by rw [hp]; rfl) fun _ _ _ => trivial).tokens
  · intro m hm e' he' hme
    rcases hold e' he' with ⟨hxe, -⟩ | ⟨hx, -⟩
    · exact absurd (hme.symm.trans (hxe.trans hid)) (hmessages m hm)
    · exact h.messages m hm e' hx hme
  · intro x hx e' he' hxe
    rcases mem_tasks_set { t with phase := .done } hx with rfl | hx'
    · trivial
    · rcases hold e' he' with ⟨heid, -⟩ | ⟨hmem, -⟩
      · have hidle := htasks x hx' (hxe.symm.trans (heid.trans hid))
        cases hphase : x.phase <;> rw [hphase] at hidle <;> trivial
      · rcases List.mem_or_eq_of_mem_set hx' with hx' | rfl
        · exact h.tasks x hx' e' hmem hxe
        · trivial

/-! ### Steps -/

/-- A step claims no export that is at the limit. -/
def NoneAtLimit (settings : ExportSettings) (s s' : State) : Prop :=
  ∀ e ∈ s.exports, e.attemptCount = settings.exportProcessingMaxAttempts →
    s'.claims e.id ≤ s.claims e.id

theorem NoneAtLimit.of_eq (h : s'.claims = s.claims) : NoneAtLimit settings s s' :=
  fun e _ _ => le_of_eq (congrFun h e.id)

theorem Inv.advance {i : Nat} {newId : UUID} {txn : Datetime} (h : Inv settings s)
    (hok : OneAtATime settings s (.advance i newId txn))
    (hstep : advance settings s i newId txn = some s') :
    Inv settings s' ∧ NoneAtLimit settings s s' := by
  unfold Exports.advance at hstep
  obtain ⟨r, hr, hstep⟩ := Option.bind_eq_some_iff.mp hstep
  have hplain :
      ∀ phase, Inv settings (s.goOn i r phase) ∧ NoneAtLimit settings s (s.goOn i r phase) :=
    fun phase => ⟨h.of_eq rfl rfl rfl rfl, .of_eq rfl⟩
  rcases r with ⟨user, w, d, c, phase⟩
  cases phase with
  | reading rest =>
      cases rest with
      | read k =>
          cases hstep
          exact hplain _
      | done result =>
          cases result with
          | error e =>
              cases hstep
              exact hplain _
          | ok task =>
              cases hstep
              cases task with
              | create lock =>
                  rw [perform]
                  split
                  · rename_i hrow
                    exact ⟨(h.insert hrow rfl).of_eq rfl rfl rfl rfl, .of_eq rfl⟩
                  · exact hplain _
              | reset e =>
                  rw [perform]
                  split
                  · rename_i exports hu
                    refine ⟨(h.reset hu).of_eq rfl rfl rfl rfl, fun x _ _ => ?_⟩
                    show Function.update s.claims e.id 0 x.id ≤ s.claims x.id
                    by_cases hid : x.id = e.id
                    · rw [hid, Function.update_self]
                      exact Nat.zero_le _
                    · rw [Function.update_of_ne hid]
                  · exact hplain _
              | get e => exact hplain _
              | download e => exact hplain _
  | publishing id =>
      dsimp only at hstep
      split at hstep
      · cases hstep
        exact ⟨(h.send_due (m := ⟨id, 0⟩) (hok _ hr id rfl)).of_eq rfl rfl rfl rfl, .of_eq rfl⟩
      · cases hstep
        exact hplain _
  | answered answer => cases hstep
  | failed e => cases hstep

theorem Inv.work (h : Inv settings s) (hstep : work settings rendering s k = some s') :
    Inv settings s' ∧ NoneAtLimit settings s s' := by
  unfold Exports.work at hstep
  obtain ⟨t, hk, hstep⟩ := Option.bind_eq_some_iff.mp hstep
  have hmem := List.mem_of_getElem? hk
  -- the phases that need to know nothing
  have hplain : ∀ p : TaskPhase, (p.atWork = true → t.phase.atWork = true) →
      (∀ e, p.Knows settings e) → Inv settings (s.workOn k t p) ∧
        NoneAtLimit settings s (s.workOn k t p) :=
    fun p hw hp => ⟨h.workOn hk hw fun e _ _ => hp e, .of_eq rfl⟩
  rcases t with ⟨m, phase⟩
  cases phase with
  | starting =>
      cases hstep
      rw [Exports.claim]
      split
      · rename_i e hfind
        obtain ⟨he, hid⟩ := find_some hfind
        split
        · refine ⟨h.claim hk rfl he hid, fun x hx hlimit => ?_⟩
          show Function.update s.claims e.id _ x.id ≤ s.claims x.id
          by_cases hxe : x.id = e.id
          · obtain rfl := eq_of_key h.ids hx he hxe
            have hlow : x.attemptCount < settings.exportProcessingMaxAttempts :=
              h.tasks _ hmem x hx hid
            exact absurd hlimit (Nat.ne_of_lt hlow)
          · rw [Function.update_of_ne hxe]
        · exact hplain .acknowledging (by intro hw; cases hw) fun _ => trivial
      · exact hplain .acknowledging (by intro hw; cases hw) fun _ => trivial
  | refreshing =>
      dsimp only at hstep
      split at hstep
      · cases hstep
        exact hplain (.claimed _) (fun _ => rfl) fun _ => trivial
      · cases hstep
        exact hplain (.failing _) (fun _ => rfl) fun _ => trivial
  | claimed e =>
      dsimp only at hstep
      split at hstep
      · cases hstep
        exact hplain (.rendered _ _) (fun _ => rfl) fun _ => trivial
      · cases hstep
        exact hplain (.failing _) (fun _ => rfl) fun _ => trivial
  | rendered e pdf =>
      cases hstep
      exact hplain (.uploaded _ _) (fun _ => rfl) fun _ => trivial
  | uploaded e size =>
      dsimp only at hstep
      split at hstep
      · rename_i exports hu
        cases hstep
        exact ⟨(h.update hu rfl).workOn (p := .acknowledging) hk (by intro hw; cases hw)
                fun _ _ _ => trivial, .of_eq rfl⟩
      · cases hstep
        exact hplain (.failing _) (fun _ => rfl) fun _ => trivial
  | failing error =>
      dsimp only at hstep
      split at hstep
      · rename_i e hfind
        obtain ⟨he, hid⟩ := find_some hfind
        cases hstep
        refine ⟨h.workOn hk (fun _ => rfl) fun x hx hxid => ?_, .of_eq rfl⟩
        obtain rfl := eq_of_key h.ids hx he (hxid.trans hid.symm)
        split
        · exact le_refl x.attemptCount
        · exact le_refl x.attemptCount
      · rename_i hfind
        cases hstep
        exact ⟨h.workOn (p := .deciding 0) hk (fun _ => rfl) fun x hx hxid =>
          absurd hxid (find_none.mp hfind x hx), .of_eq rfl⟩
  | marking e error =>
      dsimp only at hstep
      split at hstep
      · rename_i exports hu
        cases hstep
        have hknown := (h.update hu rfl).tasks _ hmem
        exact ⟨(h.update hu rfl).workOn (p := .deciding e.attemptCount) hk (fun _ => rfl)
          fun x hx hxid => hknown x hx hxid, .of_eq rfl⟩
      · cases hstep
        exact hplain .acknowledging (by intro hw; cases hw) fun _ => trivial
  | deciding attempts =>
      dsimp only at hstep
      split at hstep
      · cases hstep
        exact hplain .acknowledging (by intro hw; cases hw) fun _ => trivial
      · rename_i hbelow
        split at hstep
        · cases hstep
          -- the worker gives its message up, and it goes back to the queue
          have hgone : Inv settings (s.workOn k ⟨m, .deciding attempts⟩ .acknowledging) :=
            h.workOn hk (by intro hw; cases hw) fun _ _ _ => trivial
          have hzero : (s.workOn k ⟨m, .deciding attempts⟩ .acknowledging).tokens m.exportId = 0 :=
            alone hk rfl rfl (h.tokens m.exportId)
          refine ⟨(hgone.send (m := ⟨m.exportId, m.retries + 1⟩) hzero fun x hx hxid => ?_).of_eq
            rfl rfl rfl rfl, .of_eq rfl⟩
          have hknown : x.attemptCount ≤ attempts := h.tasks _ hmem x hx hxid
          omega
        · cases hstep
          exact hplain .acknowledging (by intro hw; cases hw) fun _ => trivial
  | acknowledging =>
      cases hstep
      exact hplain .done (by intro hw; cases hw) fun _ => trivial
  | done => cases hstep

/-- An exception takes a run to its handler, or out of it. -/
theorem raised_atWork {error : String} (h : (p.raised error).atWork = true) : p.atWork = true := by
  cases p <;> first | rfl | cases h

theorem raised_knows {error : String} (e : DecisionExport) :
    (p.raised error).Knows settings e := by
  cases p <;> trivial

theorem Inv.step {a : Action} (h : Inv settings s) (hok : OneAtATime settings s a)
    (hstep : Exports.step settings rendering s a = some s') :
    Inv settings s' ∧ NoneAtLimit settings s s' := by
  cases a with
  | tick now =>
      obtain ⟨-, hstep⟩ := Machine.guard_bind hstep
      cases hstep
      exact ⟨h.of_eq rfl rfl rfl rfl, .of_eq rfl⟩
  | others db =>
      obtain ⟨-, hstep⟩ := Machine.guard_bind hstep
      cases hstep
      exact ⟨h.of_eq rfl rfl rfl rfl, .of_eq rfl⟩
  | call user w d c =>
      cases hstep
      exact ⟨h.of_eq rfl rfl rfl rfl, .of_eq rfl⟩
  | advance i newId txn => exact h.advance hok hstep
  | requestFails i =>
      obtain ⟨r, hr, hstep⟩ := Option.bind_eq_some_iff.mp hstep
      split at hstep
      · cases hstep
      · cases hstep
      · cases hstep
        exact ⟨h.of_eq rfl rfl rfl rfl, .of_eq rfl⟩
  | recover =>
      cases hstep
      exact ⟨h.of_eq rfl rfl rfl rfl, .of_eq rfl⟩
  | publish j =>
      obtain ⟨ids, hids, hstep⟩ := Option.bind_eq_some_iff.mp hstep
      split at hstep
      · cases hstep
      · rename_i id rest
        cases hstep
        exact ⟨(h.send_due (m := ⟨id, 0⟩) (hok _ hids id rest rfl)).of_eq rfl rfl rfl rfl,
          .of_eq rfl⟩
  | duplicate j =>
      obtain ⟨m, hm, hstep⟩ := Option.bind_eq_some_iff.mp hstep
      cases hstep
      exact ⟨h.send_due (hok m hm), .of_eq rfl⟩
  | deliver j =>
      obtain ⟨m, hm, hstep⟩ := Option.bind_eq_some_iff.mp hstep
      cases hstep
      exact ⟨h.deliver hm, .of_eq rfl⟩
  | work k => exact h.work hstep
  | skipped k =>
      obtain ⟨t, hk, hstep⟩ := Option.bind_eq_some_iff.mp hstep
      obtain ⟨-, hstep⟩ := Machine.guard_bind hstep
      cases hstep
      exact ⟨h.workOn (p := .acknowledging) hk nofun fun _ _ _ => trivial, .of_eq rfl⟩
  | taskFails k error =>
      obtain ⟨t, hk, hstep⟩ := Option.bind_eq_some_iff.mp hstep
      cases hstep
      exact ⟨h.workOn hk raised_atWork fun e _ _ => raised_knows e, .of_eq rfl⟩
  | lost k =>
      obtain ⟨t, hk, hstep⟩ := Option.bind_eq_some_iff.mp hstep
      obtain ⟨-, hstep⟩ := Machine.guard_bind hstep
      cases hstep
      have hgone : Inv settings (s.workOn k t .done) :=
        h.workOn (p := .done) hk nofun fun _ _ _ => trivial
      exact ⟨(hgone.send_due (hok t hk)).of_eq rfl rfl rfl rfl, .of_eq rfl⟩

/-! ## Runs -/

/-- **Attempts are bounded** where an export has one message at a time, below the limit. -/
theorem claims_bounded (db : Db) (now : Datetime)
    (hrun : Machine.Run (Exports.step settings rendering) (OneAtATime settings) (start db now) s)
    {a : Action} (hok : OneAtATime settings s a)
    (hstep : Exports.step settings rendering s a = some s') : ClaimsBounded settings s s' := by
  have hinv : Inv settings s :=
    hrun.invariant (fun _ _ _ hI hok hstep => (hI.step hok hstep).1) (inv_start db now)
  obtain ⟨hinv', hnone⟩ := hinv.step hok hstep
  exact ⟨hinv'.claims_le, fun e he _ hlimit => hnone e he hlimit⟩

end

/-! ## Two messages -/

instance (settings : ExportSettings) (id : UUID) (s : State) : Decidable (Due settings id s) :=
  decidable_of_iff ((∀ m ∈ s.messages, m.exportId ≠ id) ∧
      (∀ t ∈ s.tasks, t.message.exportId = id → t.phase.atWork = false) ∧
      ∀ e ∈ s.exports, e.id = id → e.attemptCount < settings.exportProcessingMaxAttempts)
    ⟨fun h => ⟨h.1, h.2.1, h.2.2⟩, fun h => ⟨h.1, h.2, h.3⟩⟩

instance (settings : ExportSettings) (s : State) :
    ∀ p : RequestPhase, Decidable (∀ id, p = .publishing id → Due settings id s)
  | .publishing id => decidable_of_iff (Due settings id s)
      ⟨fun h _ he => RequestPhase.publishing.inj he ▸ h, fun h => h id rfl⟩
  | .reading _ | .answered _ | .failed _ => isTrue nofun

instance (settings : ExportSettings) (s : State) :
    ∀ ids : List UUID, Decidable (∀ id rest, ids = id :: rest → Due settings id s)
  | [] => isTrue nofun
  | id :: rest => decidable_of_iff (Due settings id s)
      ⟨fun h _ _ he => (List.cons.inj he).1 ▸ h, fun h => h id rest rfl⟩

instance (settings : ExportSettings) (s : State) : ∀ a, Decidable (OneAtATime settings s a)
  | .advance i _ _ => inferInstanceAs (Decidable (∀ r ∈ s.requests[i]?, ∀ id,
      r.phase = .publishing id → Due settings id s))
  | .publish j => inferInstanceAs (Decidable (∀ ids ∈ s.recoveries[j]?, ∀ id rest,
      ids = id :: rest → Due settings id s))
  | .duplicate j => inferInstanceAs (Decidable (∀ m ∈ s.messages[j]?, Due settings m.exportId s))
  | .lost k => inferInstanceAs (Decidable (∀ t ∈ s.tasks[k]?,
      Due settings t.message.exportId (s.workOn k t .done)))
  | .tick _ | .others _ | .call .. | .requestFails _ | .recover | .deliver _ | .work _ | .skipped _
    | .taskFails .. => isTrue trivial

namespace Sample

def once : ExportSettings := ⟨1, 15, Nat.zero_lt_one⟩

def twice : ExportSettings := ⟨2, 15, Nat.zero_lt_two⟩

/-- A renderer that yields one byte. -/
def rendering : Rendering := ⟨ForkRoom.Sample.dep, fun _ => some [1]⟩

/-- Ada asks for the export of the locked decision. -/
def requested : List Action :=
  .call ForkRoom.Sample.ada 10 20 .request :: List.replicate 6 (.advance 0 90 0)

/-- A worker takes the first message, claims the export and fails. -/
def failing (k : Nat) : List Action :=
  [.deliver 0, .work k, .work k, .taskFails k "disk full"] ++ List.replicate 4 (.work k)

/-- The status and the attempts of the exports. -/
def rows (s : State) : List (ExportStatus × Nat) :=
  s.exports.map fun e => (e.status, e.attemptCount)

end Sample

/-- The recovery has sent a second message; it is claimed after the export has failed at the
limit. -/
theorem failed_claimed : ∃ s s',
    Machine.Run (Exports.step Sample.once Sample.rendering) (fun _ _ => True)
      (start ForkRoom.Sample.locked 0) s ∧
    Exports.step Sample.once Sample.rendering s (.work 1) = some s' ∧
    Sample.rows s = [(.failed, 1)] ∧ s'.claims 90 = 2 ∧ ¬ ClaimsBounded Sample.once s s' := by
  obtain ⟨s, hplay, hs⟩ := Option.map_eq_some_iff.mp
    (show (Machine.play (Exports.step Sample.once Sample.rendering) (fun _ _ => True)
        (start ForkRoom.Sample.locked 0) (Sample.requested ++ [.recover, .publish 0] ++
          Sample.failing 0 ++ [.deliver 0])).map (fun s => (Sample.rows s,
            (Exports.step Sample.once Sample.rendering s (.work 1)).map fun s' => s'.claims 90)) =
      some ([(.failed, 1)], some 2) by decide +kernel)
  obtain ⟨hrows, hs⟩ := Prod.mk.inj hs
  obtain ⟨s', hstep, hclaims⟩ := Option.map_eq_some_iff.mp hs
  refine ⟨s, s', Machine.Run.of_play hplay, hstep, hrows, hclaims, ?_⟩
  intro h
  have hbound := h.bound 90
  rw [hclaims] at hbound
  exact absurd hbound (by decide)

/-- The first attempt fails and its message comes again; the second attempt is the last. -/
theorem claims_bounded_sample : ∃ s s',
    Machine.Run (Exports.step Sample.twice Sample.rendering) (OneAtATime Sample.twice)
      (start ForkRoom.Sample.locked 0) s ∧
    Exports.step Sample.twice Sample.rendering s (.work 1) = some s' ∧
    Sample.rows s = [(.failed, 1)] ∧ s'.claims 90 = 2 ∧ ClaimsBounded Sample.twice s s' := by
  obtain ⟨s, hplay, hs⟩ := Option.map_eq_some_iff.mp
    (show (Machine.play (Exports.step Sample.twice Sample.rendering) (OneAtATime Sample.twice)
        (start ForkRoom.Sample.locked 0) (Sample.requested ++ Sample.failing 0 ++
          [.deliver 0])).map (fun s => (Sample.rows s,
            (Exports.step Sample.twice Sample.rendering s (.work 1)).map fun s' => s'.claims 90)) =
      some ([(.failed, 1)], some 2) by decide +kernel)
  obtain ⟨hrows, hs⟩ := Prod.mk.inj hs
  obtain ⟨s', hstep, hclaims⟩ := Option.map_eq_some_iff.mp hs
  have hrun := Machine.Run.of_play hplay
  exact ⟨s, s', hrun, hstep, hrows, hclaims,
    claims_bounded (a := .work 1) ForkRoom.Sample.locked 0 hrun trivial hstep⟩

end Exports

end ForkRoom
