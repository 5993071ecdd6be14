/-
# `Lib.Cascade` — what a deletion takes along

A row may have a key, and refers to others by their keys, its parents.  With a row
go the rows that refer to it, those that refer to these, and so on:

    Belongs rows k r       `r` goes with the row of key `k`
    Deletes k rows rows'   a row stays iff it was there, has not the key `k`, and
                           all its parents stay

`Deletes` looks at a row and its parents only, which is what can be read off the
tables.  Where every reference goes to a row and there are no circles, it has one
outcome: what belongs to the deleted row is gone and all else has stayed
(`Deletes.stays_iff`).
-/
import Mathlib.Logic.Basic

namespace Cascade

/-- A row type: its keys, and the references that cascade. -/
class Record (ρ : Type) (κ : outParam Type) where
  key : ρ → Option κ
  parents : ρ → List κ

open Record

section
variable {ρ κ : Type} [Record ρ κ]

/-- A row with the key is there. -/
def Holds (rows : ρ → Prop) (k : κ) : Prop := ∃ r, rows r ∧ key r = some k

/-- `r'` is a parent of `r`. -/
def Parent (r' r : ρ) : Prop := ∃ k ∈ parents r, key r' = some k

/-- Keys are unique, and every reference goes to a row. -/
structure Sound (rows : ρ → Prop) : Prop where
  unique : ∀ r r' k, rows r → rows r' → key r = some k → key r' = some k → r = r'
  parents : ∀ r, rows r → ∀ k ∈ parents r, Holds rows k

inductive Belongs (rows : ρ → Prop) (root : κ) : ρ → Prop
  | root {r : ρ} : rows r → key r = some root → Belongs rows root r
  | child {r r' : ρ} : rows r → Parent r' r → Belongs rows root r' → Belongs rows root r

def Deletes (root : κ) (rows rows' : ρ → Prop) : Prop :=
  ∀ r, rows' r ↔ rows r ∧ key r ≠ some root ∧ ∀ k ∈ parents r, Holds rows' k

variable {root : κ} {rows rows' : ρ → Prop} {r : ρ}

theorem Belongs.mem (h : Belongs rows root r) : rows r := by
  cases h with
  | root h _ => exact h
  | child h _ _ => exact h

/-- What belongs to the deleted row is gone. -/
theorem Deletes.gone (h : Deletes root rows rows') (hs : Sound rows) (hr : Belongs rows root r) :
    ¬ rows' r := by
  induction hr with
  | root _ hk => exact fun hstays => ((h _).mp hstays).2.1 hk
  | @child r r' _ hparent hr' ih =>
      intro hstays
      obtain ⟨k, hk, hkey⟩ := hparent
      obtain ⟨x, hx, hxk⟩ := ((h r).mp hstays).2.2 k hk
      -- the parent that stays is the one that is gone
      have hsame : x = r' := hs.unique x r' k ((h x).mp hx).1 hr'.mem hxk hkey
      exact ih (hsame ▸ hx)

/-- **A row stays iff it does not belong to the deleted one.** -/
theorem Deletes.stays_iff (h : Deletes root rows rows') (hs : Sound rows)
    (hwf : WellFounded (Parent (ρ := ρ))) (r : ρ) : rows' r ↔ rows r ∧ ¬ Belongs rows root r := by
  constructor
  · intro hstays
    exact ⟨((h r).mp hstays).1, fun hr => h.gone hs hr hstays⟩
  · -- the parents of a row come before it
    induction r using hwf.induction with
    | h r ih =>
        rintro ⟨hr, hnot⟩
        refine (h r).mpr ⟨hr, fun hk => hnot (.root hr hk), fun k hk => ?_⟩
        obtain ⟨r', hr', hkey⟩ := hs.parents r hr k hk
        have hparent : Parent r' r := ⟨k, hk, hkey⟩
        exact ⟨r', ih r' hparent ⟨hr', fun hb => hnot (.child hr hparent hb)⟩, hkey⟩

end

end Cascade
