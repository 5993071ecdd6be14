/-
# `Lib.Machine` — runs of a step function, and pools of workers

A machine is a partial step function: an action that is not enabled has no
successor.  A run is a sequence of steps, each of which satisfies a condition
`ok` on the state before it and the action; `fun _ _ => True` admits every run.

Workers are kept in a list that only grows at its end, so that an index names a
worker for good; `List.set` is one worker's move.
-/
import Mathlib.Data.List.Basic
import Mathlib.Data.List.Nodup
import Mathlib.Data.List.Perm.Subperm

namespace Machine

section
variable {σ ι : Type}

/-- A run whose steps all satisfy `ok`. -/
inductive Run (step : σ → ι → Option σ) (ok : σ → ι → Prop) : σ → σ → Prop
  | refl (s : σ) : Run step ok s s
  | step {s s' s'' : σ} {a : ι} :
      Run step ok s s' → ok s' a → step s' a = some s'' → Run step ok s s''

/-- Several steps, as long as each satisfies `ok`. -/
def play (step : σ → ι → Option σ) (ok : σ → ι → Prop) [∀ s a, Decidable (ok s a)] (s : σ) :
    List ι → Option σ
  | [] => some s
  | a :: as => if ok s a then (step s a).bind fun s' => play step ok s' as else none

variable {step : σ → ι → Option σ} {ok ok' : σ → ι → Prop} {s s' s'' : σ}

theorem Run.trans (h : Run step ok s s') (h' : Run step ok s' s'') : Run step ok s s'' := by
  induction h' with
  | refl => exact h
  | step _ ha hstep ih => exact .step ih ha hstep

theorem Run.mono (hok : ∀ s a, ok s a → ok' s a) (h : Run step ok s s') : Run step ok' s s' := by
  induction h with
  | refl => exact .refl _
  | step _ ha hstep ih => exact .step ih (hok _ _ ha) hstep

/-- A sequence of steps that goes through is a run. -/
theorem Run.of_play [∀ s a, Decidable (ok s a)] :
    ∀ {as : List ι} {s s' : σ}, play step ok s as = some s' → Run step ok s s'
  | [], _, _, h => by
      cases h
      exact .refl _
  | a :: as, s, s', h => by
      rw [play] at h
      split at h
      · rename_i hok
        obtain ⟨s₁, h₁, h₂⟩ := Option.bind_eq_some_iff.mp h
        exact (Run.step (.refl s) hok h₁).trans (Run.of_play h₂)
      · cases h

/-- What every step keeps holds at the end of a run if it holds at the start. -/
theorem Run.invariant {I : σ → Prop}
    (hstep : ∀ s a s', I s → ok s a → step s a = some s' → I s') (h : Run step ok s s')
    (hs : I s) : I s' := by
  induction h with
  | refl => exact hs
  | step _ ha hst ih => exact hstep _ _ _ ih ha hst

/-- A preorder that every step from a state of the invariant follows relates the
two ends of a run. -/
theorem Run.relates {I : σ → Prop} {R : σ → σ → Prop} (hrefl : ∀ s, R s s)
    (htrans : ∀ {a b c}, R a b → R b c → R a c)
    (hinv : ∀ s a s', I s → ok s a → step s a = some s' → I s')
    (hstep : ∀ s a s', I s → ok s a → step s a = some s' → R s s') (h : Run step ok s s')
    (hs : I s) : R s s' := by
  induction h with
  | refl => exact hrefl _
  | step h ha hst ih => exact htrans ih (hstep _ _ _ (h.invariant hinv hs) ha hst)

/-! ## What was done -/

/-- A step of the run from `s₀` to `s` was such a one: where it began, the action, where it
ended. -/
def Made (step : σ → ι → Option σ) (ok : σ → ι → Prop) (s₀ : σ) (P : σ → ι → σ → Prop) (s : σ) :
    Prop :=
  ∃ s₁ a s₂, Run step ok s₀ s₁ ∧ ok s₁ a ∧ step s₁ a = some s₂ ∧ P s₁ a s₂ ∧ Run step ok s₂ s

variable {s₀ : σ} {P : σ → ι → σ → Prop}

theorem Made.now {a : ι} (h : Run step ok s₀ s) (ha : ok s a) (hs : step s a = some s')
    (hP : P s a s') : Made step ok s₀ P s' :=
  ⟨s, a, s', h, ha, hs, hP, .refl s'⟩

theorem Made.later (h : Made step ok s₀ P s) (hrun : Run step ok s s') : Made step ok s₀ P s' := by
  obtain ⟨s₁, a, s₂, h₁, ha, hs, hP, h₂⟩ := h
  exact ⟨s₁, a, s₂, h₁, ha, hs, hP, h₂.trans hrun⟩

theorem Made.next {a : ι} (h : Made step ok s₀ P s) (ha : ok s a) (hs : step s a = some s') :
    Made step ok s₀ P s' :=
  h.later (.step (.refl s) ha hs)

/-- Each entry of a list that is empty at the start has come into it by some step. -/
theorem Run.each {α : Type} {I : σ → Prop} {f : σ → List α} {P : α → σ → ι → σ → Prop}
    (hinv : ∀ s a s', I s → ok s a → step s a = some s' → I s')
    (hnew : ∀ s a s', I s → ok s a → step s a = some s' → ∀ x ∈ f s', x ∈ f s ∨ P x s a s')
    (h : Run step ok s₀ s) (hs : I s₀) (hf : f s₀ = []) : ∀ x ∈ f s, Made step ok s₀ (P x) s := by
  induction h with
  | refl =>
      rw [hf]
      exact List.forall_mem_nil _
  | step h ha hst ih =>
      intro x hx
      rcases hnew _ _ _ (h.invariant hinv hs) ha hst x hx with hold | hnow
      · exact (ih x hold).next ha hst
      · exact .now h ha hst hnow

end

/-- `guard` before the rest of a step. -/
theorem guard_bind {p : Prop} [Decidable p] {α : Type} {f : Unit → Option α} {a : α}
    (h : (guard p >>= f) = some a) : p ∧ f () = some a := by
  by_cases hp : p
  · exact ⟨hp, by simpa [guard, hp] using h⟩
  · simp [guard, hp] at h

/-! ## Pools of workers -/

section
variable {α β : Type}

/-- A move of one worker that keeps `g` leaves the whole column `g` as it is. -/
theorem map_set_of_eq {g : α → β} {ws : List α} {i : Nat} {w w' : α} (hi : ws[i]? = some w)
    (hg : g w' = g w) : (ws.set i w').map g = ws.map g := by
  rw [List.map_set, hg]
  refine List.ext_getElem? fun j => ?_
  rw [List.getElem?_set]
  split
  · rename_i hij
    subst hij
    obtain ⟨hlt, hw⟩ := List.getElem?_eq_some_iff.mp hi
    rw [if_pos (by simpa using hlt), List.getElem?_map, hi]
    rfl
  · rfl

/-- What holds of every worker still does if it holds of the one that moved. -/
theorem forall_set {P : α → Prop} {ws : List α} {i : Nat} {w' : α} (h : ∀ w ∈ ws, P w)
    (hw : P w') : ∀ w ∈ ws.set i w', P w := by
  intro w hm
  cases List.mem_or_eq_of_mem_set hm with
  | inl hm => exact h w hm
  | inr he => exact he ▸ hw

theorem forall_snoc {P : α → Prop} {ws : List α} {w' : α} (h : ∀ w ∈ ws, P w) (hw : P w') :
    ∀ w ∈ ws ++ [w'], P w := by
  intro w hm
  cases List.mem_append.mp hm with
  | inl hm => exact h w hm
  | inr hm => exact List.mem_singleton.mp hm ▸ hw

/-- The worker that moved is in the pool. -/
theorem mem_set_self {ws : List α} {i : Nat} {w w' : α} (hi : ws[i]? = some w) :
    w' ∈ ws.set i w' :=
  List.mem_set (List.getElem?_eq_some_iff.mp hi).1 w'

/-- Any other worker is where it was, or is the one that moved. -/
theorem mem_set_of_ne {ws : List α} {i : Nat} {w w' x : α} (hi : ws[i]? = some w) (hx : x ∈ ws)
    (hne : x ≠ w) : x ∈ ws.set i w' := by
  obtain ⟨j, hj⟩ := List.mem_iff_getElem?.mp hx
  refine List.mem_iff_getElem?.mpr ⟨j, ?_⟩
  rw [List.getElem?_set_ne, hj]
  rintro rfl
  exact hne (Option.some.inj (hj.symm.trans hi))

theorem mem_set_or {ws : List α} {i : Nat} {w x : α} (hi : ws[i]? = some w) (w' : α) (hx : x ∈ ws) :
    x = w ∨ x ∈ ws.set i w' := by
  by_cases he : x = w
  · exact .inl he
  · exact .inr (mem_set_of_ne hi hx he)

/-- Who is at an index after a move: the one that moved, or who was there before. -/
theorem getElem?_set_cases {ws : List α} {i j : Nat} {w' x : α}
    (hj : (ws.set i w')[j]? = some x) : (i = j ∧ x = w') ∨ (i ≠ j ∧ ws[j]? = some x) := by
  by_cases hij : i = j
  · subst hij
    rw [List.getElem?_set_self'] at hj
    obtain ⟨_, -, rfl⟩ := Option.map_eq_some_iff.mp hj
    exact .inl ⟨rfl, rfl⟩
  · rw [List.getElem?_set_ne hij] at hj
    exact .inr ⟨hij, hj⟩

/-- Who is at an index after somebody has joined the pool. -/
theorem getElem?_snoc_cases {ws : List α} {j : Nat} {w' x : α}
    (hj : (ws ++ [w'])[j]? = some x) : x = w' ∨ ws[j]? = some x := by
  by_cases hlt : j < ws.length
  · rw [List.getElem?_append_left hlt] at hj
    exact .inr hj
  · rw [List.getElem?_append_right (Nat.le_of_not_lt hlt)] at hj
    exact .inl (List.mem_singleton.mp (List.mem_of_getElem? hj))

/-- Who is in the pool after a move: the one that moved, and the others. -/
theorem mem_set_cases {ws : List α} {i : Nat} {w' x : α} (hx : x ∈ ws.set i w') :
    x = w' ∨ x ∈ ws.eraseIdx i := by
  obtain ⟨j, hj⟩ := List.mem_iff_getElem?.mp hx
  rcases getElem?_set_cases hj with ⟨-, hmoved⟩ | ⟨hij, hother⟩
  · exact .inl hmoved
  · exact .inr (List.mem_eraseIdx_iff_getElem?.mpr ⟨j, Ne.symm hij, hother⟩)

/-- What `f` makes of the workers: of the one at `i`, and of the others. -/
theorem filterMap_perm {f : α → Option β} {ws : List α} {i : Nat} {w : α} (hi : ws[i]? = some w) :
    (ws.filterMap f).Perm ((f w).toList ++ (ws.eraseIdx i).filterMap f) := by
  obtain ⟨hlt, rfl⟩ := List.getElem?_eq_some_iff.mp hi
  have hperm := (List.getElem_cons_eraseIdx_perm hlt).symm.filterMap f
  rw [List.filterMap_cons] at hperm
  cases hw : f ws[i] <;> rw [hw] at hperm <;> exact hperm

theorem filterMap_set_perm {f : α → Option β} {ws : List α} {i : Nat} {w : α} (w' : α)
    (hi : ws[i]? = some w) :
    ((ws.set i w').filterMap f).Perm ((f w').toList ++ (ws.eraseIdx i).filterMap f) := by
  have hlt := (List.getElem?_eq_some_iff.mp hi).1
  have hperm := (List.set_perm_cons_eraseIdx hlt w').filterMap f
  rw [List.filterMap_cons] at hperm
  cases hw : f w' <;> rw [hw] at hperm <;> exact hperm

/-- Where `g` tells the workers apart, it tells their indices. -/
theorem index_eq {g : α → β} {ws : List α} (hn : (ws.map g).Nodup) {i j : Nat} {w w' : α}
    (hi : ws[i]? = some w) (hj : ws[j]? = some w') (he : g w = g w') : i = j := by
  have hlt : i < (ws.map g).length := by
    rw [List.length_map]
    exact (List.getElem?_eq_some_iff.mp hi).1
  refine (List.getElem?_inj hlt hn).mp ?_
  rw [List.getElem?_map, List.getElem?_map, hi, hj, Option.map_some, Option.map_some, he]

/-- A list without repetitions, all from another, is no longer than that one. -/
theorem length_le_of_nodup {l l' : List α} (hn : l.Nodup) (h : ∀ a ∈ l, a ∈ l') :
    l.length ≤ l'.length :=
  (List.subperm_of_subset hn h).length_le

end

end Machine
