/-
# `Lib.Request` — requests that read, then commit once

A request of a web service on a relational database reads some rows, decides,
and ends with at most one commit.  Nothing holds the rows it has read: between
two of its reads, and between its last read and its commit, other requests may
commit.  This module is the general theory of such requests, over any state
`σ`, write set `ω`, rejection `δ`, error `ε` and answer `α`.

| | |
| :-- | :-- |
| `Reads σ ε α` | a program that reads the state some number of times |
| `Intent σ ω δ ε α` | what it ends with: an answer, or one write set to commit |
| `Reads.Leaves p ss q` | reading the states `ss` in order, `p` is left with `q` |
| `Request.exec` | the request run alone, all reads at one state |
| `Config.act` | one step of an interleaving: start a request, or advance one |
| `Run` | an interleaving, each step of which satisfies a condition |

**The rule.**  A request that reaches its commit has read the states `ss`, and
`Leaves` on the program says which guards held at which of them.  If every
commit moves the state along a preorder `R`, then every state a request has
read is `R`-below the current one (`Run.rely_guarantee`); a guard that is stable
under `R` therefore still holds at the commit, and one that is not need not.
The same inversion of `Leaves` serves the atomic runs, where `ss` is constant
(`Request.exec_cases`).
-/
import Mathlib.Logic.Relation
import ForkRoom.Lib.Machine
import Mathlib.Data.List.Basic

namespace Optimistic

/-- Two steps that come to a value. -/
theorem bind_ok {ε α β : Type} {r : Except ε α} {f : α → Except ε β} {b : β}
    (h : (r >>= f) = .ok b) : ∃ a, r = .ok a ∧ f a = .ok b := by
  cases r with
  | error e => cases h
  | ok a => exact ⟨a, rfl, h⟩

/-! ## Programs that read -/

/-- A program that may read the state and ends with a value or an error. -/
inductive Reads (σ ε α : Type) where
  | done (r : Except ε α)
  | read (k : σ → Reads σ ε α)

namespace Reads

variable {σ ε α β γ : Type}

/-- Sequencing; an error ends the program. -/
def bind : Reads σ ε α → (α → Reads σ ε β) → Reads σ ε β
  | done (.ok a), f => f a
  | done (.error e), _ => done (.error e)
  | read k, f => read fun s => (k s).bind f

instance : Monad (Reads σ ε) where
  pure a := done (.ok a)
  bind := bind

/-- One read of the state. -/
def query (q : σ → α) : Reads σ ε α := read fun s => done (.ok (q s))

/-- End with an error. -/
def throw (e : ε) : Reads σ ε α := done (.error e)

/-- Go on only if `p` holds. -/
def require (p : Prop) [Decidable p] (e : ε) : Reads σ ε Unit :=
  if p then pure () else throw e

/-- Go on with the value that was found. -/
def orThrow (o : Option α) (e : ε) : Reads σ ε α :=
  match o with
  | some a => pure a
  | none => throw e

/-- All reads at one state. -/
def run : Reads σ ε α → σ → Except ε α
  | done r, _ => r
  | read k, s => (k s).run s

/-- Reading the states `ss` in order, the program is left with `q`. -/
def Leaves (p : Reads σ ε α) (ss : List σ) (q : Reads σ ε α) : Prop :=
  match ss, p with
  | [], p => p = q
  | s :: ss, read k => (k s).Leaves ss q
  | _ :: _, done _ => False
termination_by structural ss

/-- Reading the states `ss` in order, the program ends with `r`. -/
abbrev Ends (p : Reads σ ε α) (ss : List σ) (r : Except ε α) : Prop :=
  p.Leaves ss (done r)

theorem bind_assoc (p : Reads σ ε α) (f : α → Reads σ ε β) (g : β → Reads σ ε γ) :
    (p >>= f) >>= g = p >>= fun a => f a >>= g := by
  show (p.bind f).bind g = p.bind fun a => (f a).bind g
  induction p with
  | done r => cases r <;> rfl
  | read k ih =>
      simp only [bind]
      congr 1
      funext s
      exact ih s

theorem bind_pure (p : Reads σ ε α) : (p >>= fun a => pure a) = p := by
  show p.bind _ = p
  induction p with
  | done r => cases r <;> rfl
  | read k ih =>
      simp only [bind]
      congr 1
      funext s
      exact ih s

@[simp] theorem pure_bind (a : α) (f : α → Reads σ ε β) : pure a >>= f = f a := rfl

/-! ### Runs at one state -/

@[simp] theorem run_pure (a : α) (s : σ) : (pure a : Reads σ ε α).run s = .ok a := rfl

@[simp] theorem run_query (q : σ → α) (s : σ) : (query q : Reads σ ε α).run s = .ok (q s) := rfl

@[simp] theorem run_bind (p : Reads σ ε α) (f : α → Reads σ ε β) (s : σ) :
    (p >>= f).run s = (p.run s).bind fun a => (f a).run s := by
  show (p.bind f).run s = _
  induction p with
  | done r => cases r <;> rfl
  | read k ih => exact ih s

@[simp] theorem run_require (p : Prop) [Decidable p] (e : ε) (s : σ) :
    (require p e : Reads σ ε Unit).run s = if p then .ok () else .error e := by
  unfold require
  split <;> rfl

@[simp] theorem run_orThrow (o : Option α) (e : ε) (s : σ) :
    (orThrow o e : Reads σ ε α).run s = o.elim (.error e) .ok := by
  cases o <;> rfl

/-- A run at one state reads that state some number of times. -/
theorem ends_run (p : Reads σ ε α) (s : σ) : ∃ n, p.Ends (List.replicate n s) (p.run s) := by
  induction p with
  | done r => exact ⟨0, rfl⟩
  | read k ih =>
      obtain ⟨n, hn⟩ := ih s
      exact ⟨n + 1, hn⟩

/-- Reading one state only, a program ends as it does when run there. -/
theorem Ends.run_eq : ∀ {p : Reads σ ε α} {ss : List σ} {r : Except ε α} {s : σ},
    p.Ends ss r → (∀ s' ∈ ss, s = s') → p.run s = r
  | p, [], r, s, h, _ => by
      have hp : p = done r := h
      rw [hp]
      rfl
  | read k, s' :: ss, r, s, h, hss => by
      have hs : s = s' := hss s' List.mem_cons_self
      subst hs
      exact Ends.run_eq (p := k s) h fun x hx => hss x (List.mem_cons_of_mem _ hx)
  | done _, _ :: _, _, _, h, _ => h.elim

/-- A value that a program ends with at one state, it ends with having read that state only. -/
theorem run_ok_iff {p : Reads σ ε α} {s : σ} {a : α} :
    p.run s = .ok a ↔ ∃ ss, (∀ s' ∈ ss, s = s') ∧ p.Ends ss (.ok a) := by
  constructor
  · intro h
    obtain ⟨n, hn⟩ := p.ends_run s
    exact ⟨_, fun _ hs => (List.eq_of_mem_replicate hs).symm, h ▸ hn⟩
  · rintro ⟨ss, hss, h⟩
    exact h.run_eq hss

/-! What a program has passed that comes to a value at one state. -/

theorem run_bind_ok {p : Reads σ ε α} {f : α → Reads σ ε β} {s : σ} {b : β} :
    (p >>= f).run s = .ok b ↔ ∃ a, p.run s = .ok a ∧ (f a).run s = .ok b := by
  rw [run_bind]
  cases p.run s with
  | error e => simp [Except.bind]
  | ok a => simp [Except.bind]

theorem run_pure_ok {a b : α} {s : σ} : (pure a : Reads σ ε α).run s = .ok b ↔ a = b := by
  rw [run_pure, Except.ok.injEq]

theorem run_query_ok {q : σ → α} {s : σ} {a : α} :
    (query q : Reads σ ε α).run s = .ok a ↔ q s = a := by
  rw [run_query, Except.ok.injEq]

theorem run_require_ok {p : Prop} [Decidable p] {e : ε} {s : σ} {u : Unit} :
    (require p e : Reads σ ε Unit).run s = .ok u ↔ p := by
  rw [run_require]
  split <;> simp [*]

theorem run_orThrow_ok {o : Option α} {e : ε} {s : σ} {a : α} :
    (orThrow o e : Reads σ ε α).run s = .ok a ↔ o = some a := by
  rw [run_orThrow]
  cases o <;> simp

/-- A program goes on alike at two states if its parts do. -/
theorem run_bind_congr {p : Reads σ ε α} {f : α → Reads σ ε β} {s s' : σ}
    (hp : p.run s = p.run s') (hf : ∀ a, p.run s = .ok a → (f a).run s = (f a).run s') :
    (p >>= f).run s = (p >>= f).run s' := by
  rw [run_bind, run_bind, ← hp]
  cases h : p.run s with
  | error e => rfl
  | ok a => exact hf a h

/-- An error that no part of a program ends with. -/
theorem run_bind_ne {p : Reads σ ε α} {f : α → Reads σ ε β} {s : σ} {e : ε}
    (hp : p.run s ≠ .error e) (hf : ∀ a, p.run s = .ok a → (f a).run s ≠ .error e) :
    (p >>= f).run s ≠ .error e := by
  rw [run_bind]
  cases h : p.run s with
  | error e' =>
      intro heq
      cases heq
      exact hp h
  | ok a => exact hf a h

/-! ### Inverting `Leaves`

Each combinator says what a program that has come to its end has read. -/

theorem leaves_snoc : ∀ {p : Reads σ ε α} {ss : List σ} {k : σ → Reads σ ε α},
    p.Leaves ss (read k) → ∀ s, p.Leaves (ss ++ [s]) (k s)
  | p, [], k, h, s => by
      have hp : p = read k := h
      subst hp
      exact rfl
  | read k', _ :: ss, _, h, s => leaves_snoc (p := k' _) h s
  | done _, _ :: _, _, h, _ => h.elim

theorem ends_bind : ∀ {p : Reads σ ε α} {f : α → Reads σ ε β} {ss : List σ} {b : β},
    (p >>= f).Ends ss (.ok b) ↔
      ∃ ss₁ ss₂ a, ss = ss₁ ++ ss₂ ∧ p.Ends ss₁ (.ok a) ∧ (f a).Ends ss₂ (.ok b)
  | done (.ok a), f, ss, b => by
      constructor
      · exact fun h => ⟨[], ss, a, rfl, rfl, h⟩
      · rintro ⟨ss₁, ss₂, a', rfl, h₁, h₂⟩
        cases ss₁ with
        | nil => cases h₁; exact h₂
        | cons _ _ => exact h₁.elim
  | done (.error e), f, ss, b => by
      constructor
      · intro h
        cases ss with
        | nil => cases h
        | cons _ _ => exact h.elim
      · rintro ⟨ss₁, ss₂, a', rfl, h₁, h₂⟩
        cases ss₁ with
        | nil => cases h₁
        | cons _ _ => exact h₁.elim
  | read k, f, ss, b => by
      constructor
      · intro h
        cases ss with
        | nil => cases h
        | cons s ss =>
            obtain ⟨ss₁, ss₂, a, rfl, h₁, h₂⟩ := (ends_bind (p := k s) (f := f)).mp h
            exact ⟨s :: ss₁, ss₂, a, rfl, h₁, h₂⟩
      · rintro ⟨ss₁, ss₂, a, rfl, h₁, h₂⟩
        cases ss₁ with
        | nil => cases h₁
        | cons s ss₁ =>
            exact (ends_bind (p := k s) (f := f)).mpr ⟨ss₁, ss₂, a, rfl, h₁, h₂⟩

theorem ends_pure {a b : α} {ss : List σ} :
    (pure a : Reads σ ε α).Ends ss (.ok b) ↔ ss = [] ∧ a = b := by
  cases ss with
  | nil =>
      constructor
      · intro h; cases h; exact ⟨rfl, rfl⟩
      · rintro ⟨-, rfl⟩; rfl
  | cons _ _ => exact ⟨False.elim, fun h => nomatch h.1⟩

theorem ends_throw {e : ε} {b : α} {ss : List σ} :
    ¬ (throw e : Reads σ ε α).Ends ss (.ok b) := by
  cases ss with
  | nil => exact fun h => nomatch h
  | cons _ _ => exact id

theorem ends_query_bind {q : σ → α} {f : α → Reads σ ε β} {b : β} {ss : List σ} :
    (query q >>= f).Ends ss (.ok b) ↔
      ∃ s ss', ss = s :: ss' ∧ (f (q s)).Ends ss' (.ok b) := by
  cases ss with
  | nil => exact ⟨fun h => (nomatch h), fun ⟨_, _, h, _⟩ => (nomatch h)⟩
  | cons s ss =>
      constructor
      · exact fun h => ⟨s, ss, rfl, h⟩
      · rintro ⟨_, _, h, h'⟩; cases h; exact h'

theorem ends_require_bind {p : Prop} [Decidable p] {e : ε} {f : Unit → Reads σ ε β} {b : β}
    {ss : List σ} : (require p e >>= f).Ends ss (.ok b) ↔ p ∧ (f ()).Ends ss (.ok b) := by
  unfold require
  split
  · rename_i hp
    exact ⟨fun h => ⟨hp, h⟩, fun h => h.2⟩
  · rename_i hp
    exact ⟨fun h => absurd h (ends_throw (α := β)), fun h => absurd h.1 hp⟩

theorem ends_orThrow_bind {o : Option α} {e : ε} {f : α → Reads σ ε β} {b : β} {ss : List σ} :
    (orThrow o e >>= f).Ends ss (.ok b) ↔ ∃ a, o = some a ∧ (f a).Ends ss (.ok b) := by
  cases o with
  | none => exact ⟨fun h => absurd h (ends_throw (α := β)), fun ⟨_, h, _⟩ => (nomatch h)⟩
  | some a => exact ⟨fun h => ⟨a, rfl, h⟩, fun ⟨_, h, h'⟩ => by cases h; exact h'⟩

/-! ### Programs on a larger state -/

/-- The program on a state that has more to it, with further errors beside its own. -/
def lift {τ ε' : Type} (f : τ → σ) (g : ε → ε') : Reads σ ε α → Reads τ ε' α
  | done (.ok a) => done (.ok a)
  | done (.error e) => done (.error (g e))
  | read k => read fun s => (k (f s)).lift f g

theorem ends_lift {τ ε' : Type} {f : τ → σ} {g : ε → ε'} :
    ∀ {p : Reads σ ε α} {ss : List τ} {a : α},
    (p.lift f g).Ends ss (.ok a) ↔ p.Ends (ss.map f) (.ok a)
  | done (.ok a), [], b => by
      constructor
      · intro h
        cases h
        rfl
      · intro h
        cases h
        rfl
  | done (.error e), [], b => ⟨fun h => (nomatch h), fun h => (nomatch h)⟩
  | read k, [], b => ⟨fun h => (nomatch h), fun h => (nomatch h)⟩
  | done (.ok a), _ :: _, b => Iff.rfl
  | done (.error e), _ :: _, b => Iff.rfl
  | read k, s :: ss, b => ends_lift (p := k (f s))

theorem run_lift {τ ε' : Type} {f : τ → σ} {g : ε → ε'} : ∀ (p : Reads σ ε α) (s : τ),
    (p.lift f g).run s = (p.run (f s)).mapError g
  | done (.ok _), _ => rfl
  | done (.error _), _ => rfl
  | read k, s => run_lift (k (f s)) s

theorem run_lift_ok {τ ε' : Type} {f : τ → σ} {g : ε → ε'} {p : Reads σ ε α} {s : τ} {a : α} :
    (p.lift f g).run s = .ok a ↔ p.run (f s) = .ok a := by
  rw [run_lift]
  cases p.run (f s) <;> simp [Except.mapError]

/-! ### What a program yields -/

/-- Whatever the program reads, a value it ends with satisfies `P`. -/
def Yields (P : α → Prop) (p : Reads σ ε α) : Prop := ∀ ss a, p.Ends ss (.ok a) → P a

theorem yields_pure {P : α → Prop} {a : α} (h : P a) : (pure a : Reads σ ε α).Yields P := by
  intro ss b hends
  obtain ⟨-, rfl⟩ := ends_pure.mp hends
  exact h

theorem Yields.bind {P : β → Prop} {p : Reads σ ε α} {f : α → Reads σ ε β}
    (h : ∀ a, (f a).Yields P) : (p >>= f).Yields P := by
  intro ss b hends
  obtain ⟨_, ss₂, a, -, -, hf⟩ := ends_bind.mp hends
  exact h a ss₂ b hf

/-! ### What a program raises -/

/-- Wherever the program is run, an error it ends with satisfies `P`. -/
def Raises (P : ε → Prop) (p : Reads σ ε α) : Prop := ∀ s e, p.run s = .error e → P e

section
variable {P : ε → Prop}

theorem raises_pure (a : α) : (pure a : Reads σ ε α).Raises P := fun _ _ h => nomatch h

theorem raises_query (q : σ → α) : (query q : Reads σ ε α).Raises P := fun _ _ h => nomatch h

theorem raises_require {p : Prop} [Decidable p] {e : ε} (he : P e) :
    (require p e : Reads σ ε Unit).Raises P := by
  intro s e' h
  rw [run_require] at h
  split at h
  · nomatch h
  · cases h
    exact he

theorem raises_orThrow {o : Option α} {e : ε} (he : P e) :
    (orThrow o e : Reads σ ε α).Raises P := by
  intro s e' h
  rw [run_orThrow] at h
  cases o with
  | none =>
      cases h
      exact he
  | some a => nomatch h

theorem Raises.lift {τ ε' : Type} {f : τ → σ} {g : ε → ε'} {Q : ε' → Prop} {p : Reads σ ε α}
    (h : p.Raises fun e => Q (g e)) : (p.lift f g).Raises Q := by
  intro s e he
  rw [run_lift] at he
  cases hr : p.run (f s) with
  | error e' =>
      rw [hr] at he
      cases he
      exact h (f s) e' hr
  | ok a =>
      rw [hr] at he
      nomatch he

theorem Raises.bind {p : Reads σ ε α} {f : α → Reads σ ε β} (hp : p.Raises P)
    (hf : ∀ a, (f a).Raises P) : (p >>= f).Raises P := by
  intro s e h
  rw [run_bind] at h
  cases hr : p.run s with
  | error e' =>
      rw [hr] at h
      cases h
      exact hp s _ hr
  | ok a =>
      rw [hr] at h
      exact hf a s e h

end

end Reads

/-! ## Requests -/

/-- What a request ends with: an answer, or a write set with the answer to give
once it is committed and the error to give when it is rejected. -/
inductive Intent (σ ω δ ε α : Type) where
  | reply (a : α)
  | commit (w : ω) (ok : σ → Except ε α) (rejected : δ → ε)

/-- A request: its reads, then its intent. -/
abbrev Request (σ ω δ ε α : Type) := Reads σ ε (Intent σ ω δ ε α)

variable {σ ω δ ε α β ι : Type} (store : ω → σ → Except δ σ)

/-- The same intent with another form of answer. -/
def Intent.map (f : α → β) : Intent σ ω δ ε α → Intent σ ω δ ε β
  | .reply a => .reply (f a)
  | .commit w ok rejected => .commit w (fun s => (ok s).map f) rejected

/-- The same request with another form of answer. -/
def Request.map (f : α → β) (p : Request σ ω δ ε α) : Request σ ω δ ε β :=
  p.bind fun i => pure (i.map f)

/-- The answer to a commit is the other answer in its new form. -/
theorem Request.map_commits_ok {f : α → β} {p : Request σ ω δ ε α} {ss : List σ} {w : ω}
    {ok : σ → Except ε β} {rejected : δ → ε}
    (h : (p.map f).Ends ss (.ok (.commit w ok rejected))) :
    ∃ ok', p.Ends ss (.ok (.commit w ok' rejected)) ∧ ok = fun s => (ok' s).map f := by
  obtain ⟨ss₁, ss₂, i, rfl, h₁, h₂⟩ := Reads.ends_bind.mp h
  obtain ⟨rfl, hi⟩ := Reads.ends_pure.mp h₂
  cases i with
  | reply a => cases hi
  | commit w' ok' rejected' =>
      cases hi
      exact ⟨ok', (List.append_nil ss₁).symm ▸ h₁, rfl⟩

/-- Changing the form of the answer changes nothing of what a request commits. -/
theorem Request.map_commits {f : α → β} {p : Request σ ω δ ε α} {ss : List σ} {w : ω}
    {ok : σ → Except ε β} {rejected : δ → ε}
    (h : (p.map f).Ends ss (.ok (.commit w ok rejected))) :
    ∃ ok', p.Ends ss (.ok (.commit w ok' rejected)) := by
  obtain ⟨ok', h', -⟩ := Request.map_commits_ok h
  exact ⟨ok', h'⟩

/-- What a request has in common with itself in another form of answer. -/
theorem Request.map_replies {f : α → β} {p : Request σ ω δ ε α} {ss : List σ} {b : β}
    (h : (p.map f).Ends ss (.ok (.reply b))) : ∃ a, p.Ends ss (.ok (.reply a)) ∧ b = f a := by
  obtain ⟨ss₁, ss₂, i, rfl, h₁, h₂⟩ := Reads.ends_bind.mp h
  obtain ⟨rfl, hi⟩ := Reads.ends_pure.mp h₂
  cases i with
  | reply a =>
      cases hi
      exact ⟨a, (List.append_nil ss₁).symm ▸ h₁, rfl⟩
  | commit w' ok' rejected' => cases hi

/-- A request yields what it yields in the other form of answer. -/
theorem Request.yields_map {P : Intent σ ω δ ε β → Prop} {f : α → β} {p : Request σ ω δ ε α}
    (h : p.Yields fun i => P (i.map f)) : (p.map f).Yields P := by
  intro ss j hends
  obtain ⟨ss₁, ss₂, i, -, hp, hi⟩ := Reads.ends_bind.mp hends
  obtain ⟨-, rfl⟩ := Reads.ends_pure.mp hi
  exact h ss₁ i hp

/-- The intent on a state that has more to it, its writes among further ones. -/
def Intent.lift {τ ω' ε' : Type} (f : τ → σ) (g : ε → ε') (u : ω → ω') :
    Intent σ ω δ ε α → Intent τ ω' δ ε' α
  | .reply a => .reply a
  | .commit w ok rejected =>
      .commit (u w) (fun s => (ok (f s)).mapError g) fun d => g (rejected d)

/-- The request on a state that has more to it. -/
def Request.lift {τ ω' ε' : Type} (f : τ → σ) (g : ε → ε') (u : ω → ω')
    (p : Request σ ω δ ε α) : Request τ ω' δ ε' α :=
  (Reads.lift f g p).bind fun i => pure (i.lift f g u)

/-- What a request commits on the larger state, it commits on its own. -/
theorem Request.lift_commits {τ ω' ε' : Type} {f : τ → σ} {g : ε → ε'} {u : ω → ω'}
    {p : Request σ ω δ ε α} {ss : List τ} {w' : ω'} {ok' : τ → Except ε' α} {rejected' : δ → ε'}
    (h : (p.lift f g u).Ends ss (.ok (.commit w' ok' rejected'))) :
    ∃ w ok rejected, w' = u w ∧ p.Ends (ss.map f) (.ok (.commit w ok rejected)) := by
  obtain ⟨ss₁, ss₂, i, rfl, h₁, h₂⟩ := Reads.ends_bind.mp h
  obtain ⟨rfl, hi⟩ := Reads.ends_pure.mp h₂
  cases i with
  | reply a => cases hi
  | commit w ok rejected =>
      cases hi
      exact ⟨w, ok, rejected, rfl, (List.append_nil ss₁).symm ▸ Reads.ends_lift.mp h₁⟩

/-- Carry out an intent. -/
def Intent.perform (s : σ) : Intent σ ω δ ε α → Except ε α × σ
  | .reply a => (.ok a, s)
  | .commit w ok rejected =>
      match store w s with
      | .ok s' => (ok s', s')
      | .error d => (.error (rejected d), s)

/-- The request run alone. -/
def Request.exec (p : Request σ ω δ ε α) (s : σ) : Except ε α × σ :=
  match p.run s with
  | .ok i => i.perform store s
  | .error e => (.error e, s)

/-- A request that ends with an error leaves the state alone. -/
theorem Request.exec_of_error {p : Request σ ω δ ε α} {s : σ} {e : ε} (h : p.run s = .error e) :
    p.exec store s = (.error e, s) := by
  rw [Request.exec, h]

theorem Request.run_map (f : α → β) (p : Request σ ω δ ε α) (s : σ) :
    (p.map f).run s = (p.run s).map (Intent.map f) := by
  have hbind := Reads.run_bind p
    (fun i => (pure (Intent.map f i) : Reads σ ε (Intent σ ω δ ε β))) s
  refine hbind.trans ?_
  cases p.run s <;> rfl

theorem Request.run_lift {τ ω' ε' : Type} (f : τ → σ) (g : ε → ε') (u : ω → ω')
    (p : Request σ ω δ ε α) (s : τ) :
    (p.lift f g u).run s = ((p.run (f s)).map (Intent.lift f g u)).mapError g := by
  have hbind := Reads.run_bind (Reads.lift f g p)
    (fun i => (pure (Intent.lift f g u i) : Reads τ ε' (Intent τ ω' δ ε' α))) s
  refine hbind.trans ?_
  rw [Reads.run_lift]
  cases p.run (f s) <;> rfl

/-- A request that comes to an answer without a commit gives that answer. -/
theorem Request.exec_reply {p : Request σ ω δ ε α} {s : σ} {a : α}
    (h : p.run s = .ok (.reply a)) : p.exec store s = (.ok a, s) := by
  simp only [Request.exec, h, Intent.perform]

/-- A request that comes to a commit gives the answer that follows it, or the error
it raises when the commit is rejected. -/
theorem Request.exec_commit {p : Request σ ω δ ε α} {s : σ} {w : ω} {ok : σ → Except ε α}
    {rejected : δ → ε} (h : p.run s = .ok (.commit w ok rejected)) :
    (∃ s', store w s = .ok s' ∧ p.exec store s = (ok s', s')) ∨
      ∃ d, store w s = .error d ∧ p.exec store s = (.error (rejected d), s) := by
  simp only [Request.exec, h, Intent.perform]
  cases hw : store w s with
  | error d => exact Or.inr ⟨d, rfl, rfl⟩
  | ok s' => exact Or.inl ⟨s', rfl, rfl⟩

/-- A request run alone leaves the state as it is, or commits a write set it has
reached by reading that state only. -/
theorem Request.exec_cases (p : Request σ ω δ ε α) (s : σ) :
    (p.exec store s).2 = s ∨
      ∃ ss w ok rejected, (∀ s' ∈ ss, s = s') ∧ p.Ends ss (.ok (.commit w ok rejected)) ∧
        store w s = .ok (p.exec store s).2 := by
  obtain ⟨n, hn⟩ := p.ends_run s
  unfold Request.exec
  cases hr : p.run s with
  | error e => exact Or.inl rfl
  | ok i =>
      cases i with
      | reply a => exact Or.inl rfl
      | commit w ok rejected =>
          cases hw : store w s with
          | error d => exact Or.inl (by simp only [Intent.perform, hw])
          | ok s' =>
              refine Or.inr ⟨_, w, ok, rejected, fun _ h => (List.eq_of_mem_replicate h).symm,
                hr ▸ hn, ?_⟩
              simp only [Intent.perform, hw]

/-- An error of a request run alone is one of its reads, or comes after them. -/
theorem Request.exec_error {p : Request σ ω δ ε α} {s : σ} {e : ε}
    (h : (p.exec store s).1 = .error e) :
    p.run s = .error e ∨ ∃ w ok rejected, p.run s = .ok (.commit w ok rejected) ∧
      ((∃ d, rejected d = e) ∨ ∃ s', ok s' = .error e) := by
  unfold Request.exec at h
  cases hr : p.run s with
  | error e' =>
      rw [hr] at h
      cases h
      exact .inl rfl
  | ok i =>
      rw [hr] at h
      cases i with
      | reply a => nomatch h
      | commit w ok rejected =>
          refine .inr ⟨w, ok, rejected, rfl, ?_⟩
          simp only [Intent.perform] at h
          cases hw : store w s with
          | error d =>
              rw [hw] at h
              exact .inl ⟨d, Except.error.inj h⟩
          | ok s' =>
              rw [hw] at h
              exact .inr ⟨s', h⟩

/-- A request run alone that gives an answer has replied, or has committed. -/
theorem Request.exec_ok {p : Request σ ω δ ε α} {s : σ} {a : α}
    (h : (p.exec store s).1 = .ok a) :
    ∃ ss, (∀ s' ∈ ss, s = s') ∧ ((p.Ends ss (.ok (.reply a)) ∧ (p.exec store s).2 = s) ∨
      ∃ w ok rejected, p.Ends ss (.ok (.commit w ok rejected)) ∧
        store w s = .ok (p.exec store s).2 ∧ ok (p.exec store s).2 = .ok a) := by
  obtain ⟨n, hn⟩ := p.ends_run s
  refine ⟨List.replicate n s, fun _ hs => (List.eq_of_mem_replicate hs).symm, ?_⟩
  unfold Request.exec at h ⊢
  cases hr : p.run s with
  | error e =>
      rw [hr] at h
      cases h
  | ok i =>
      rw [hr] at h hn
      cases i with
      | reply b =>
          cases h
          exact Or.inl ⟨hn, rfl⟩
      | commit w ok rejected =>
          refine Or.inr ⟨w, ok, rejected, hn, ?_⟩
          simp only [Intent.perform] at h ⊢
          cases hw : store w s with
          | error d =>
              rw [hw] at h
              cases h
          | ok s' =>
              rw [hw] at h
              exact ⟨rfl, h⟩

/-! ## Interleavings -/

/-- A request in flight: which one, the states it has read, what is left of it,
and its answer once it has one. -/
structure Thread (σ ω δ ε α ι : Type) where
  op : ι
  seen : List σ
  rest : Request σ ω δ ε α
  answer : Option (Except ε α)

/-- The next step of the request is a commit. -/
def Thread.committing (t : Thread σ ω δ ε α ι) : Bool :=
  match t.answer, t.rest with
  | none, .done (.ok (.commit ..)) => true
  | _, _ => false

/-- The committed state and the requests so far. -/
structure Config (σ ω δ ε α ι : Type) where
  state : σ
  threads : List (Thread σ ω δ ε α ι)

/-- One step: a new request arrives, or the `i`-th request goes on. -/
inductive Action (ι : Type) where
  | start (op : ι)
  | advance (i : Nat)

/-- The step starts no request of another kind. -/
def Action.starts (kind : ι → Bool) : Action ι → Bool
  | .start op => kind op
  | .advance _ => true

/-- A configuration with no request yet. -/
def Config.idle (s : σ) : Config σ ω δ ε α ι := ⟨s, []⟩

/-- One more step of a request at the committed state `s`: its next read, or its
intent.  `none` when it has been answered. -/
def Thread.advance (t : Thread σ ω δ ε α ι) (s : σ) : Option (Thread σ ω δ ε α ι × σ) :=
  match t.answer, t.rest with
  | some _, _ => none
  | none, .read k => some ({ t with seen := t.seen ++ [s], rest := k s }, s)
  | none, .done (.error e) => some ({ t with answer := some (.error e) }, s)
  | none, .done (.ok i) =>
      some ({ t with answer := some (i.perform store s).1 }, (i.perform store s).2)

/-- One step of an interleaving. -/
def Config.act (program : ι → Request σ ω δ ε α) (c : Config σ ω δ ε α ι) :
    Action ι → Option (Config σ ω δ ε α ι)
  | .start op => some { c with threads := c.threads ++ [⟨op, [], program op, none⟩] }
  | .advance i => do
      let t ← c.threads[i]?
      let (t', s') ← t.advance store c.state
      pure ⟨s', c.threads.set i t'⟩

/-- Several steps, as long as each satisfies `ok`. -/
def Config.acts (program : ι → Request σ ω δ ε α) (ok : Config σ ω δ ε α ι → Action ι → Prop)
    [∀ c a, Decidable (ok c a)] (c : Config σ ω δ ε α ι) :
    List (Action ι) → Option (Config σ ω δ ε α ι)
  | [] => some c
  | a :: as =>
      if ok c a then (c.act store program a).bind fun c' => c'.acts program ok as else none

/-- An interleaving whose steps all satisfy `ok`. -/
inductive Run (program : ι → Request σ ω δ ε α) (ok : Config σ ω δ ε α ι → Action ι → Prop) :
    Config σ ω δ ε α ι → Config σ ω δ ε α ι → Prop
  | refl (c : Config σ ω δ ε α ι) : Run program ok c c
  | step {c c' c'' : Config σ ω δ ε α ι} {a : Action ι} :
      Run program ok c c' → ok c' a → c'.act store program a = some c'' → Run program ok c c''

section
variable {store} {program : ι → Request σ ω δ ε α}
  {ok : Config σ ω δ ε α ι → Action ι → Prop} {c c' c'' : Config σ ω δ ε α ι}

theorem Run.trans (h : Run store program ok c c') (h' : Run store program ok c' c'') :
    Run store program ok c c'' := by
  induction h' with
  | refl => exact h
  | step _ ha hact ih => exact .step ih ha hact

/-- A sequence of steps that goes through is an interleaving. -/
theorem Run.of_acts [∀ c a, Decidable (ok c a)] :
    ∀ {as : List (Action ι)} {c c' : Config σ ω δ ε α ι},
      c.acts store program ok as = some c' → Run store program ok c c'
  | [], _, _, h => by
      cases h
      exact .refl _
  | a :: as, c, c', h => by
      rw [Config.acts] at h
      split at h
      · rename_i hok
        obtain ⟨c₁, h₁, h₂⟩ := Option.bind_eq_some_iff.mp h
        exact (Run.step (.refl c) hok h₁).trans (Run.of_acts h₂)
      · nomatch h

/-! ### What one step can do -/

theorem Thread.committing_of {t : Thread σ ω δ ε α ι} {w : ω} {f : σ → Except ε α} {g : δ → ε}
    (ha : t.answer = none) (hr : t.rest = .done (.ok (.commit w f g))) : t.committing = true := by
  rw [Thread.committing, ha, hr]

/-- What advancing a request can do: a read, an answer that leaves the state
alone, or a commit. -/
theorem Thread.advance_cases {t t' : Thread σ ω δ ε α ι} {s s' : σ}
    (h : t.advance store s = some (t', s')) : t.answer = none ∧ t'.op = t.op ∧
      ((∃ k, t.rest = .read k ∧ t' = { t with seen := t.seen ++ [s], rest := k s } ∧ s' = s) ∨
        (∃ r, t' = { t with answer := some r } ∧ s' = s) ∨
        (∃ w f g, t.rest = .done (.ok (.commit w f g)) ∧ store w s = .ok s' ∧
          t' = { t with answer := some (f s') })) := by
  unfold Thread.advance at h
  split at h
  · cases h
  · rename_i k ha hr
    cases h
    exact ⟨ha, rfl, Or.inl ⟨k, hr, rfl, rfl⟩⟩
  · rename_i e ha hr
    cases h
    exact ⟨ha, rfl, Or.inr (Or.inl ⟨_, rfl, rfl⟩)⟩
  · rename_i i ha hr
    cases h
    refine ⟨ha, rfl, Or.inr ?_⟩
    cases i with
    | reply a => exact Or.inl ⟨_, rfl, rfl⟩
    | commit w f g =>
        cases hw : store w s with
        | error d => exact Or.inl ⟨.error (g d), by simp only [Intent.perform, hw], by
            simp only [Intent.perform, hw]⟩
        | ok s' =>
            refine Or.inr ⟨w, f, g, hr, ?_, ?_⟩
            · simp only [Intent.perform, hw]
            · simp only [Intent.perform, hw]

theorem Config.act_advance {i : Nat} (h : c.act store program (.advance i) = some c') :
    ∃ t t', c.threads[i]? = some t ∧ t.advance store c.state = some (t', c'.state) ∧
      c'.threads = c.threads.set i t' := by
  simp only [Config.act, Option.bind_eq_bind, Option.bind_eq_some_iff, Option.pure_def,
    Option.some.injEq] at h
  obtain ⟨t, ht, ⟨t', s'⟩, hadv, rfl⟩ := h
  exact ⟨t, t', ht, hadv, rfl⟩

/-- A step leaves the state alone, or is the commit of a request in flight. -/
theorem Config.act_commit {a : Action ι} (hact : c.act store program a = some c') :
    c'.state = c.state ∨ ∃ i t w f g, a = .advance i ∧ c.threads[i]? = some t ∧ t.answer = none ∧
      t.rest = .done (.ok (.commit w f g)) ∧ store w c.state = .ok c'.state := by
  cases a with
  | start op =>
      cases hact
      exact Or.inl rfl
  | advance i =>
      obtain ⟨t, t', ht, hadv, -⟩ := Config.act_advance hact
      obtain ⟨hnone, -, ⟨-, -, -, hs⟩ | ⟨-, -, hs⟩ | ⟨w, f, g, hr, hw, -⟩⟩ :=
        Thread.advance_cases hadv
      · exact Or.inl hs
      · exact Or.inl hs
      · exact Or.inr ⟨i, t, w, f, g, rfl, ht, hnone, hr, hw⟩

/-- The requests that have been started, as they came. -/
def Config.ops (c : Config σ ω δ ε α ι) : List ι := c.threads.map Thread.op

/-- The requests that a step starts. -/
def Action.started : Action ι → List ι
  | .start op => [op]
  | .advance _ => []

theorem Config.ops_act {a : Action ι} (hact : c.act store program a = some c') :
    c'.ops = c.ops ++ a.started := by
  cases a with
  | start op =>
      cases hact
      rw [Config.ops, List.map_append]
      rfl
  | advance i =>
      obtain ⟨t, t', ht, hadv, hthreads⟩ := Config.act_advance hact
      have hop := (Thread.advance_cases hadv).2.1
      rw [Config.ops, hthreads, Machine.map_set_of_eq ht hop, Action.started, List.append_nil]
      rfl

/-! ### What a request has read -/

/-- Every request is its program after the states it has read. -/
def Config.Traced (program : ι → Request σ ω δ ε α) (c : Config σ ω δ ε α ι) : Prop :=
  ∀ t ∈ c.threads, (program t.op).Leaves t.seen t.rest

theorem Config.traced_idle (s : σ) :
    (Config.idle s : Config σ ω δ ε α ι).Traced program :=
  fun _ h => (nomatch h)

/-- A property of the requests that a new request has, and that each step keeps
for the request that makes it and for the others. -/
theorem Config.act_threads {P P' : Thread σ ω δ ε α ι → Prop} {a : Action ι}
    (hact : c.act store program a = some c')
    (hstart : ∀ op, a = .start op → P' ⟨op, [], program op, none⟩)
    (hself : ∀ t t', t ∈ c.threads → P t → t.advance store c.state = some (t', c'.state) → P' t')
    (hother : ∀ t ∈ c.threads, P t → P' t) (h : ∀ t ∈ c.threads, P t) :
    ∀ t ∈ c'.threads, P' t := by
  intro u hu
  cases a with
  | start op =>
      cases hact
      rcases List.mem_append.mp hu with hu | hu
      · exact hother u hu (h u hu)
      · exact List.mem_singleton.mp hu ▸ hstart op rfl
  | advance i =>
      obtain ⟨t, t', ht, hadv, hthreads⟩ := Config.act_advance hact
      have htm : t ∈ c.threads := List.mem_of_getElem? ht
      rw [hthreads] at hu
      rcases List.mem_or_eq_of_mem_set hu with hu | rfl
      · exact hother u hu (h u hu)
      · exact hself t u htm (h t htm) hadv

theorem Config.Traced.act {a : Action ι} (h : c.Traced program)
    (hact : c.act store program a = some c') : c'.Traced program := by
  refine Config.act_threads (P := fun t => (program t.op).Leaves t.seen t.rest) hact
    (fun op _ => rfl) ?_ (fun _ _ ht => ht) h
  intro t t' _ ht hadv
  obtain ⟨-, -, ⟨k, hr, rfl, -⟩ | ⟨r, rfl, -⟩ | ⟨w, f, g, -, -, rfl⟩⟩ := Thread.advance_cases hadv
  · exact Reads.leaves_snoc (hr ▸ ht) _
  · exact ht
  · exact ht

/-! ### The rely/guarantee rule -/

/-- Every state that a request has read satisfies `I` and is `R`-below the
committed one. -/
def Config.Below (I : σ → Prop) (R : σ → σ → Prop) (c : Config σ ω δ ε α ι) : Prop :=
  ∀ t ∈ c.threads, ∀ s ∈ t.seen, I s ∧ R s c.state

theorem Config.below_idle {I : σ → Prop} {R : σ → σ → Prop} (s : σ) :
    (Config.idle s : Config σ ω δ ε α ι).Below I R :=
  fun _ h => (nomatch h)

/-- One step keeps the invariant and moves along `R`, if its commit does. -/
theorem Config.act_guarantee {I : σ → Prop} {R : σ → σ → Prop} {a : Action ι}
    (hrefl : ∀ s, R s s)
    (htrans : ∀ {s₁ s₂ s₃}, R s₁ s₂ → R s₂ s₃ → R s₁ s₃)
    (hcommit : ∀ i t w f g s', a = .advance i → c.threads[i]? = some t → t.answer = none →
      t.rest = .done (.ok (.commit w f g)) → (∀ s ∈ t.seen, I s ∧ R s c.state) →
      (program t.op).Ends t.seen (.ok (.commit w f g)) → store w c.state = .ok s' →
      I s' ∧ R c.state s')
    (hI : I c.state) (hT : c.Traced program) (hB : c.Below I R)
    (hact : c.act store program a = some c') :
    I c'.state ∧ R c.state c'.state ∧ c'.Below I R := by
  have hstep : I c'.state ∧ R c.state c'.state := by
    rcases Config.act_commit hact with hs | ⟨i, t, w, f, g, ha, ht, hnone, hr, hw⟩
    · rw [hs]
      exact ⟨hI, hrefl _⟩
    · have htm : t ∈ c.threads := List.mem_of_getElem? ht
      have hends := hT t htm
      rw [hr] at hends
      exact hcommit i t w f g c'.state ha ht hnone hr (hB t htm) hends hw
  refine ⟨hstep.1, hstep.2, ?_⟩
  refine Config.act_threads (P := fun t => ∀ s ∈ t.seen, I s ∧ R s c.state)
    hact (fun _ _ s hs => (nomatch hs)) ?_
    (fun t _ ht s hs => ⟨(ht s hs).1, htrans (ht s hs).2 hstep.2⟩) hB
  intro t t' _ ht hadv s hs
  obtain ⟨-, -, ⟨k, -, rfl, -⟩ | ⟨r, rfl, -⟩ | ⟨w, f, g, -, -, rfl⟩⟩ := Thread.advance_cases hadv
  · rcases List.mem_append.mp hs with hs | hs
    · exact ⟨(ht s hs).1, htrans (ht s hs).2 hstep.2⟩
    · rw [List.mem_singleton.mp hs]
      exact ⟨hI, hstep.2⟩
  · exact ⟨(ht s hs).1, htrans (ht s hs).2 hstep.2⟩
  · exact ⟨(ht s hs).1, htrans (ht s hs).2 hstep.2⟩

/-- The states that a request has read are `R`-ordered, as it has read them. -/
def Config.Ordered (R : σ → σ → Prop) (c : Config σ ω δ ε α ι) : Prop :=
  ∀ t ∈ c.threads, t.seen.Pairwise R

theorem Config.ordered_idle {R : σ → σ → Prop} (s : σ) :
    (Config.idle s : Config σ ω δ ε α ι).Ordered R :=
  fun _ h => (nomatch h)

theorem Config.Ordered.act {I : σ → Prop} {R : σ → σ → Prop} {a : Action ι} (h : c.Ordered R)
    (hB : c.Below I R) (hact : c.act store program a = some c') : c'.Ordered R := by
  refine Config.act_threads (P := fun t => t.seen.Pairwise R ∧ ∀ s ∈ t.seen, R s c.state) hact
    (fun _ _ => .nil) ?_ (fun _ _ ht => ht.1) fun t ht => ⟨h t ht, fun s hs => (hB t ht s hs).2⟩
  intro t t' _ ht hadv
  obtain ⟨-, -, ⟨k, -, rfl, -⟩ | ⟨r, rfl, -⟩ | ⟨w, f, g, -, -, rfl⟩⟩ := Thread.advance_cases hadv
  · refine List.pairwise_append.mpr ⟨ht.1, List.pairwise_singleton _ _, fun s hs s' hs' => ?_⟩
    rw [List.mem_singleton.mp hs']
    exact ht.2 s hs
  · exact ht.1
  · exact ht.1

/-- From its read of the number `k` to its commit, a request relies on `R`: the
state is `R`-above the one it has read then. -/
def Config.Since (k : Nat) (R : ι → σ → σ → Prop) (c : Config σ ω δ ε α ι) : Prop :=
  ∀ t ∈ c.threads, t.answer = none → ∀ s ∈ t.seen[k]?, R t.op s c.state

theorem Config.since_idle {k : Nat} {R : ι → σ → σ → Prop} (s : σ) :
    (Config.idle s : Config σ ω δ ε α ι).Since k R :=
  fun _ h => (nomatch h)

/-- A step keeps what the requests rely on if it moves the state along `R` for
every request that has made its read and has not been answered. -/
theorem Config.Since.act {k : Nat} {R : ι → σ → σ → Prop} {a : Action ι} (h : c.Since k R)
    (hrefl : ∀ op s, R op s s)
    (htrans : ∀ op {s₁ s₂ s₃}, R op s₁ s₂ → R op s₂ s₃ → R op s₁ s₃)
    (hstep : ∀ t ∈ c.threads, t.answer = none → k < t.seen.length → R t.op c.state c'.state)
    (hact : c.act store program a = some c') : c'.Since k R := by
  refine Config.act_threads
    (P := fun t => t ∈ c.threads ∧ (t.answer = none → ∀ s ∈ t.seen[k]?, R t.op s c.state)) hact
    (fun _ _ _ s hs => nomatch hs) ?_ ?_ fun t ht => ⟨ht, h t ht⟩
  · intro t t' _ ⟨ht, hsince⟩ hadv hnone' s hs
    obtain ⟨hnone, -, ⟨j, -, rfl, hstate⟩ | ⟨r, rfl, -⟩ | ⟨w, f, g, -, -, rfl⟩⟩ :=
      Thread.advance_cases hadv
    · rcases Nat.lt_or_ge k t.seen.length with hlen | hlen
      · rw [Option.mem_def, List.getElem?_append_left hlen] at hs
        rw [hstate]
        exact hsince hnone s hs
      · rw [Option.mem_def, List.getElem?_append_right hlen] at hs
        rw [List.mem_singleton.mp (List.mem_of_getElem? hs), hstate]
        exact hrefl _ _
    · nomatch hnone'
    · nomatch hnone'
  · intro t _ ⟨ht, hsince⟩ hnone s hs
    obtain ⟨hlen, -⟩ := List.getElem?_eq_some_iff.mp hs
    exact htrans _ (hsince hnone s hs) (hstep t ht hnone hlen)

/-- What a request has been answered, if it is no error, is what it has come to. -/
def Thread.Settled (t : Thread σ ω δ ε α ι) : Prop :=
  ∀ a, t.answer = some (.ok a) →
    t.rest = .done (.ok (.reply a)) ∨ ∃ w f g, t.rest = .done (.ok (.commit w f g))

theorem Thread.settled_advance {t t' : Thread σ ω δ ε α ι} {s s' : σ}
    (h : t.advance store s = some (t', s')) : t'.Settled := by
  intro a ha
  unfold Thread.advance at h
  split at h
  · cases h
  · rename_i hnone _
    cases h
    exact absurd (hnone.symm.trans ha) (by simp)
  · cases h
    nomatch ha
  · rename_i i _ hr
    cases h
    cases i with
    | reply b =>
        cases ha
        exact Or.inl hr
    | commit w f g => exact Or.inr ⟨w, f, g, hr⟩

theorem Config.settled_act {a : Action ι} (h : ∀ t ∈ c.threads, t.Settled)
    (hact : c.act store program a = some c') : ∀ t ∈ c'.threads, t.Settled :=
  Config.act_threads (P := Thread.Settled) hact (fun _ _ _ ha => nomatch ha)
    (fun _ _ _ _ hadv => Thread.settled_advance hadv) (fun _ _ ht => ht) h

/-- Only requests that satisfy `P` are started. -/
def Config.Only (P : ι → Prop) (c : Config σ ω δ ε α ι) : Prop := ∀ t ∈ c.threads, P t.op

theorem Config.only_idle {P : ι → Prop} (s : σ) :
    (Config.idle s : Config σ ω δ ε α ι).Only P :=
  fun _ h => (nomatch h)

theorem Config.Only.act {P : ι → Prop} {a : Action ι} (h : c.Only P)
    (hstart : ∀ op, a = .start op → P op) (hact : c.act store program a = some c') :
    c'.Only P :=
  Config.act_threads (P := fun t => P t.op) hact hstart
    (fun _ _ _ ht hadv => (Thread.advance_cases hadv).2.1 ▸ ht) (fun _ _ ht => ht) h

/-- **Rely/guarantee.**  Let every request that is started satisfy `P`.  If every
commit of such a request, given that each state the request has read satisfies
`I` and is `R`-below the state it commits on, keeps `I` and moves along the
preorder `R`, then every interleaving does. -/
theorem Run.rely_guarantee {P : ι → Prop} {I : σ → Prop} {R : σ → σ → Prop}
    (hrefl : ∀ s, R s s) (htrans : ∀ {s₁ s₂ s₃}, R s₁ s₂ → R s₂ s₃ → R s₁ s₃)
    (hstart : ∀ c op, ok c (.start op) → P op)
    (hcommit : ∀ op ss w f g s s', P op → I s → (∀ s₀ ∈ ss, I s₀ ∧ R s₀ s) →
      (program op).Ends ss (.ok (.commit w f g)) → store w s = .ok s' → I s' ∧ R s s')
    (h : Run store program ok c c') (hP : c.Only P) (hI : I c.state) (hT : c.Traced program)
    (hB : c.Below I R) :
    I c'.state ∧ R c.state c'.state ∧ c'.Only P ∧ c'.Traced program ∧ c'.Below I R := by
  induction h with
  | refl => exact ⟨hI, hrefl _, hP, hT, hB⟩
  | @step c₁ c₂ a _ hok hact ih =>
      obtain ⟨hI₁, hR₁, hP₁, hT₁, hB₁⟩ := ih
      obtain ⟨hI₂, hR₂, hB₂⟩ := Config.act_guarantee hrefl htrans
        (fun i t w f g s' _ ht _ _ hss hends hw => hcommit t.op t.seen w f g _ s'
          (hP₁ t (List.mem_of_getElem? ht)) hI₁ hss hends hw)
        hI₁ hT₁ hB₁ hact
      exact ⟨hI₂, htrans hR₁ hR₂, hP₁.act (fun op h => hstart c₁ op (h ▸ hok)) hact,
        hT₁.act hact, hB₂⟩

end

end Optimistic
