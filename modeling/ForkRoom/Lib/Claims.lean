/-
# `Lib.Claims` — counted claims on the rows of a queue

Workers claim rows of a shared table; every claim increments a counter of its
row and is made under the new value.  The claims so far are a list of keys with
those values, the counters a list of keys with the current ones.  `Numbered` is
what holds between the two, whatever else happens to the rows; `OnceEach` says
that every claim has sent what it is for at most once.
-/
import ForkRoom.Lib.Machine
import ForkRoom.Lib.Rows

namespace Claims

section
variable {κ : Type} [DecidableEq κ]

/-- The numbers under which `k` has been claimed, in order. -/
def attempts (claims : List (κ × Nat)) (k : κ) : List Nat :=
  (claims.filter fun p => p.1 = k).map Prod.snd

structure Numbered (counters claims : List (κ × Nat)) : Prop where
  keys : (counters.map Prod.fst).Nodup
  attempts : ∀ p ∈ counters, attempts claims p.1 = List.range' 1 p.2
  known : ∀ p ∈ claims, p.1 ∈ counters.map Prod.fst
  distinct : claims.Nodup

theorem Numbered.empty : Numbered ([] : List (κ × Nat)) [] where
  keys := List.nodup_nil
  attempts := fun _ h => nomatch h
  known := fun _ h => nomatch h
  distinct := List.nodup_nil

variable {counters counters' claims : List (κ × Nat)} {k : κ} {n : Nat}

/-- As many claims as are counted. -/
theorem Numbered.length_claims (h : Numbered counters claims) (hk : (k, n) ∈ counters) :
    (claims.filter fun p => p.1 = k).length = n := by
  have hcount := congrArg List.length (h.attempts _ hk)
  rwa [Claims.attempts, List.length_map, List.length_range'] at hcount

/-- No claim has a number past the counter. -/
theorem Numbered.le_counter (h : Numbered counters claims) (hk : (k, n) ∈ counters) {i : Nat}
    (hi : (k, i) ∈ claims) : 1 ≤ i ∧ i ≤ n := by
  have hmem : i ∈ Claims.attempts claims k :=
    List.mem_map.mpr ⟨(k, i), List.mem_filter.mpr ⟨hi, by simp⟩, rfl⟩
  rw [h.attempts _ hk, List.mem_range'_1] at hmem
  omega

/-- A new row, that nobody has claimed. -/
theorem Numbered.insert (h : Numbered counters claims) (hk : k ∉ counters.map Prod.fst) :
    Numbered (counters ++ [(k, 0)]) claims := by
  refine ⟨?_, Machine.forall_snoc h.attempts ?_, fun p hp => ?_, h.distinct⟩
  · rw [List.map_append]
    refine List.nodup_append.mpr ⟨h.keys, List.nodup_singleton _, fun a ha b hb hab => ?_⟩
    have hb : b = k := List.mem_singleton.mp hb
    exact hk (hb ▸ hab ▸ ha)
  · show Claims.attempts claims k = []
    rw [Claims.attempts, List.filter_eq_nil_iff.mpr, List.map_nil]
    intro p hp
    have hne : p.1 ≠ k := fun he => hk (he ▸ h.known p hp)
    simpa using hne
  · rw [List.map_append]
    exact List.mem_append_left _ (h.known p hp)

theorem attempts_snoc (claims : List (κ × Nat)) (p : κ × Nat) (k : κ) :
    attempts (claims ++ [p]) k = attempts claims k ++ if p.1 = k then [p.2] else [] := by
  rw [attempts, List.filter_append, List.map_append]
  congr 1
  by_cases hp : p.1 = k
  · simp [hp]
  · simp [hp]

/-- A claim, under the next number of its row; the other counters stay. -/
theorem Numbered.claim (h : Numbered counters claims) (hk : (k, n) ∈ counters)
    (hkeys : counters'.map Prod.fst = counters.map Prod.fst)
    (hmem : ∀ p ∈ counters', p = (k, n + 1) ∨ p ∈ counters ∧ p.1 ≠ k) :
    Numbered counters' (claims ++ [(k, n + 1)]) := by
  have hnew : (k, n + 1) ∉ claims := fun hp => by
    have := (h.le_counter hk hp).2
    omega
  refine ⟨hkeys ▸ h.keys, fun p hp => ?_, fun p hp => ?_, ?_⟩
  · rw [attempts_snoc]
    rcases hmem p hp with rfl | ⟨hp, hne⟩
    · rw [if_pos rfl, h.attempts _ hk, List.range'_1_concat, Nat.add_comm 1]
    · rw [if_neg hne.symm, List.append_nil, h.attempts p hp]
  · rw [hkeys]
    rcases List.mem_append.mp hp with hp | hp
    · exact h.known p hp
    · rw [List.mem_singleton.mp hp]
      exact List.mem_map.mpr ⟨_, hk, rfl⟩
  · exact List.nodup_append.mpr ⟨h.distinct, List.nodup_singleton _, fun a ha b hb hab =>
      hnew (List.mem_singleton.mp hb ▸ hab ▸ ha)⟩

end

/-! ## Counters in a column -/

section
variable {α κ : Type} [DecidableEq κ] [Rows.Keyed α κ] {rows : List α} {claims : List (κ × Nat)}
  {count : α → Nat}

open Rows.Keyed

/-- A row is claimed: it keeps its key and counts one more. -/
theorem Numbered.replace {r r' : α} (h : Numbered (rows.map fun x => (key x, count x)) claims)
    (hr : r ∈ rows) (hkey : key r' = key r) (hcount : count r' = count r + 1) :
    Numbered ((Rows.replace r r' rows).map fun x => (key x, count x))
      (claims ++ [(key r, count r + 1)]) := by
  have hkeys : (rows.map (key (α := α))).Nodup := by
    have hn := h.keys
    rwa [List.map_map] at hn
  refine h.claim (List.mem_map_of_mem hr) ?_ fun p hp => ?_
  · rw [List.map_map, List.map_map]
    exact Rows.map_replace hkeys hr (key (α := α)) hkey
  · obtain ⟨x, hx, rfl⟩ := List.mem_map.mp hp
    rcases (Rows.mem_replace hr).mp hx with rfl | ⟨hx, hne⟩
    · exact .inl (Prod.ext hkey hcount)
    · exact .inr ⟨List.mem_map_of_mem hx, hne⟩

omit [DecidableEq κ] in
theorem counters_map {f : α → α} (hf : ∀ r ∈ rows, key (f r) = key r ∧ count (f r) = count r) :
    ((rows.map f).map fun x => (key x, count x)) = rows.map fun x => (key x, count x) := by
  rw [List.map_map]
  exact List.map_congr_left fun r hr => Prod.ext (hf r hr).1 (hf r hr).2

end

/-! ## Each claim sends at most once -/

section
variable {α γ : Type}

/-- What has been sent, each under the claim of a worker that is past sending. -/
structure OnceEach (claim : α → γ) (past : α → Bool) (workers : List α) (sent : List γ) : Prop where
  distinct : sent.Nodup
  sender : ∀ p ∈ sent, ∃ w ∈ workers, claim w = p ∧ past w

variable {claim : α → γ} {past : α → Bool} {workers : List α} {sent : List γ} {i : Nat} {w w' : α}

theorem OnceEach.empty (claim : α → γ) (past : α → Bool) (workers : List α) :
    OnceEach claim past workers [] :=
  ⟨List.nodup_nil, fun _ h => nomatch h⟩

theorem OnceEach.snoc (h : OnceEach claim past workers sent) (w : α) :
    OnceEach claim past (workers ++ [w]) sent := by
  refine ⟨h.distinct, fun p hp => ?_⟩
  obtain ⟨x, hx, hxp⟩ := h.sender p hp
  exact ⟨x, List.mem_append_left _ hx, hxp⟩

/-- A move of one worker that does not take it back. -/
theorem OnceEach.move (h : OnceEach claim past workers sent) (hw : workers[i]? = some w)
    (hclaim : claim w' = claim w) (hpast : past w → past w') :
    OnceEach claim past (workers.set i w') sent := by
  refine ⟨h.distinct, fun p hp => ?_⟩
  obtain ⟨x, hx, rfl, hxp⟩ := h.sender p hp
  rcases Machine.mem_set_or hw w' hx with rfl | hx
  · exact ⟨w', Machine.mem_set_self hw, hclaim, hpast hxp⟩
  · exact ⟨x, hx, rfl, hxp⟩

/-- A worker that has not sent yet sends, and is past sending. -/
theorem OnceEach.send (h : OnceEach claim past workers sent) (hn : (workers.map claim).Nodup)
    (hw : workers[i]? = some w) (hbefore : past w = false) (hclaim : claim w' = claim w)
    (hpast : past w') : OnceEach claim past (workers.set i w') (sent ++ [claim w]) := by
  refine ⟨List.nodup_append.mpr ⟨h.distinct, List.nodup_singleton _, fun p hp q hq hpq => ?_⟩,
    Machine.forall_snoc (h.move hw hclaim fun _ => hpast).sender
      ⟨w', Machine.mem_set_self hw, hclaim, hpast⟩⟩
  obtain ⟨x, hx, hxp, hxpast⟩ := h.sender p hp
  have he : x = w := List.inj_on_of_nodup_map hn hx (List.mem_of_getElem? hw)
    (hxp.trans (hpq.trans (List.mem_singleton.mp hq)))
  rw [he, hbefore] at hxpast
  nomatch hxpast

/-- No row gets more than the claims on it that are counted. -/
theorem OnceEach.length_le {κ : Type} [DecidableEq κ] {claim : α → κ × Nat}
    {sent counters : List (κ × Nat)} {k : κ} {n : Nat} (h : OnceEach claim past workers sent)
    (hn : Numbered counters (workers.map claim)) (hk : (k, n) ∈ counters) :
    (sent.filter fun p => p.1 = k).length ≤ n := by
  rw [← hn.length_claims hk]
  refine Machine.length_le_of_nodup (h.distinct.sublist List.filter_sublist) fun p hp => ?_
  obtain ⟨hp, hkey⟩ := List.mem_filter.mp hp
  obtain ⟨w, hw, rfl, -⟩ := h.sender p hp
  exact List.mem_filter.mpr ⟨List.mem_map_of_mem hw, hkey⟩

end

end Claims
