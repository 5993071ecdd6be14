/-
# `System.Gates` — the reads of an operation, at one state

An operation that runs alone reads one state.  What its first reads come to there
is a matter of that state only: the caller is in the context of the workspace or
decision, or the operation ends with the error of the gate.

    decisionContext_run_iff   the gate is passed in the context, and only there
    decisionContext_raises    the errors of the gate
    Db.commit_valid           the commit that comes after them succeeds
-/
import ForkRoom.System.Operations

namespace ForkRoom

open Optimistic Reads Rows

section
variable {u w d : UUID} {db : Db}

theorem workspaceContext_run_iff {c : WorkspaceContext} :
    (workspaceContext u w).run db = .ok c ↔ InWorkspace u w db db c := by
  constructor
  · intro h
    rw [← Reads.bind_pure (workspaceContext u w), run_ok_iff] at h
    obtain ⟨ss, hss, hends⟩ := h
    obtain ⟨s₁, s₂, ss', c', rfl, hc, hend⟩ := workspaceContext_bind.mp hends
    obtain ⟨-, rfl⟩ := ends_pure.mp hend
    have h₁ : db = s₁ := hss s₁ (by simp)
    have h₂ : db = s₂ := hss s₂ (by simp)
    subst h₁ h₂
    exact hc
  · intro h
    simp only [workspaceContext, run_bind, run_query, run_orThrow, run_pure, h.workspace,
      h.membership, Option.elim, Except.bind]

theorem decisionContext_run_iff {c : Context} :
    (decisionContext u w d).run db = .ok c ↔ InContext u w d db db db c := by
  constructor
  · intro h
    rw [← Reads.bind_pure (decisionContext u w d), run_ok_iff] at h
    obtain ⟨ss, hss, hends⟩ := h
    obtain ⟨s₁, s₂, s₃, ss', c', rfl, hc, hend⟩ := decisionContext_bind.mp hends
    obtain ⟨-, rfl⟩ := ends_pure.mp hend
    have h₁ : db = s₁ := hss s₁ (by simp)
    have h₂ : db = s₂ := hss s₂ (by simp)
    have h₃ : db = s₃ := hss s₃ (by simp)
    subst h₁ h₂ h₃
    exact hc
  · intro h
    obtain ⟨⟨row, hrow⟩, hm, hd⟩ := h
    simp only [decisionContext, workspaceContext, run_bind, run_query, run_orThrow, run_pure, hrow,
      hm, hd, Option.elim, Except.bind]

theorem ActionReviewService.context_run_iff {c : Context} :
    (ActionReviewService.context u w d).run db = .ok c ↔ InContext u w d db db db c := by
  constructor
  · intro h
    rw [← Reads.bind_pure (ActionReviewService.context u w d), run_ok_iff] at h
    obtain ⟨ss, hss, hends⟩ := h
    obtain ⟨s₁, s₂, s₃, ss', c', rfl, hc, hend⟩ := ActionReviewService.context_bind.mp hends
    obtain ⟨-, rfl⟩ := ends_pure.mp hend
    have h₁ : db = s₁ := hss s₁ (by simp)
    have h₂ : db = s₂ := hss s₂ (by simp)
    have h₃ : db = s₃ := hss s₃ (by simp)
    subst h₁ h₂ h₃
    exact hc
  · intro h
    obtain ⟨⟨row, hrow⟩, hm, hd⟩ := h
    simp only [ActionReviewService.context, run_bind, run_query, run_require, run_orThrow, run_pure,
      hrow, hm, hd, Option.isSome_some, if_true, Option.elim, Except.bind]

theorem workspaceContext_raises {P : ServiceError → Prop} (h : P .workspaceNotFound) :
    (workspaceContext u w).Raises P :=
  (raises_query _).bind fun _ => (raises_orThrow h).bind fun _ =>
    (raises_query _).bind fun _ => (raises_orThrow h).bind fun _ => raises_pure _

theorem decisionContext_raises {P : ServiceError → Prop} (hw : P .workspaceNotFound)
    (hd : P .decisionNotFound) : (decisionContext u w d).Raises P :=
  (workspaceContext_raises hw).bind fun _ => (raises_query _).bind fun _ =>
    (raises_orThrow hd).bind fun _ => raises_pure _

theorem ActionReviewService.context_raises {P : ServiceError → Prop} (hw : P .workspaceNotFound)
    (hd : P .decisionNotFound) : (ActionReviewService.context u w d).Raises P :=
  (raises_query _).bind fun _ => (raises_query _).bind fun _ => (raises_require hw).bind fun _ =>
    (raises_orThrow hw).bind fun _ => (raises_query _).bind fun _ =>
      (raises_orThrow hd).bind fun _ =>
      raises_pure _

theorem ObjectionService.context_raises {P : ServiceError → Prop} {p : UUID}
    (hw : P .workspaceNotFound) (hd : P .decisionNotFound) (hp : P .proposalNotFound) :
    (ObjectionService.context u w d p).Raises P :=
  (decisionContext_raises hw hd).bind fun _ => (raises_query _).bind fun _ =>
    (raises_orThrow hp).bind fun _ => raises_pure _

/-- Writes that insert nothing. -/
theorem Tables.dangling_of_forall : ∀ {ws : List Write},
    (∀ x ∈ ws, ∀ t, x.dangling t = false) → ∀ t : Tables, t.dangling ws = false
  | [], _, _ => rfl
  | x :: ws, h, t => by
      rw [Tables.dangling, h x List.mem_cons_self t,
        dangling_of_forall (fun y hy => h y (List.mem_cons_of_mem _ hy)), Bool.or_false,
        Bool.false_and]

/-- A commit that finds its rows, meets no RESTRICT reference, inserts no row before
one it refers to and breaks no constraint succeeds. -/
theorem Db.commit_valid {ws : List Write} (hstale : ∀ x ∈ ws, x.stale db.toTables = false)
    (hrestricted : ∀ x ∈ ws, x.restricted db.toTables = false)
    (hdangling : db.toTables.dangling ws = false)
    (hfits : Fits (db.toTables.write ws)) (hvalid : Constraints (db.toTables.write ws)) :
    db.commit ws = .ok ⟨db.toTables.write ws, hfits, hvalid⟩ := by
  have h₁ : ws.any (Write.stale db.toTables) = false := by simpa using hstale
  have h₂ : ws.any (Write.restricted db.toTables) = false := by simpa using hrestricted
  rw [Db.commit, h₁, h₂, hdangling, dif_pos hfits, dif_pos hvalid]
  rfl

/-- The same for one write whose effect is known. -/
theorem Db.commit_write {x : Write} {t : Tables} (hrun : x.run db.toTables = t)
    (hstale : x.stale db.toTables = false) (hrestricted : x.restricted db.toTables = false)
    (hdangling : x.dangling db.toTables = false) (hfits : Fits t) (hvalid : Constraints t) :
    ∃ db', db.commit [x] = .ok db' ∧ db'.toTables = t := by
  have hwrite : db.toTables.write [x] = t := hrun
  subst hwrite
  have hfirst : db.toTables.dangling [x] = false := by
    rw [Tables.dangling, hdangling]
    rfl
  exact ⟨_, Db.commit_valid (by simpa using hstale) (by simpa using hrestricted) hfirst hfits
    hvalid, rfl⟩

/-- A row that is there is found. -/
theorem missing_of_mem {α : Type} [DecidableEq α] [Keyed α UUID] {rows : List α} {loaded : α}
    (hn : PrimaryKey rows) (hl : loaded ∈ rows) (current : α) :
    missing loaded current rows = false := by
  rw [missing, find_of_mem hn hl]
  exact Bool.and_false _

end

end ForkRoom
