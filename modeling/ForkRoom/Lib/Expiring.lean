/-
# `Lib.Expiring` — keys that expire

A key of an in-memory store: absent, or a value with an optional time of expiry.
A key is there exactly as long as its time has not come; a command on a key that
has run out sees it absent.

    set v EX ttl          putFor now ttl v
    set v EX ttl NX       putNew now ttl v, which says whether it did
    EXPIRE ttl            expireIn now ttl, of a key that is there
    DEL                   none
    HSET, ZADD, RPUSH     upsert now a f: on the value that is there, which keeps
                          its expiry, or on the empty one, which has none
    HDEL, ZREM, LREM      adjust now f: a collection that gets empty is deleted

A key that is absent is the empty collection (`contents`).  Time is any linear
order with an addition.
-/
import Mathlib.Algebra.Order.Group.Defs
import Mathlib.Data.List.AList
import Mathlib.Logic.Function.Basic

namespace Expiring

/-- A value and when it runs out, if ever. -/
structure Entry (T α : Type) where
  value : α
  expiresAt : Option T
  deriving DecidableEq

abbrev Key (T α : Type) := Option (Entry T α)

variable {T α : Type} [LinearOrder T]

/-- The time of the entry has not come. -/
def Entry.live (now : T) (e : Entry T α) : Bool := e.expiresAt.all fun t => now < t

namespace Key

/-- The value of a key that is there. -/
def read (now : T) (k : Key T α) : Option α := (k.filter (Entry.live now)).map Entry.value

def present (now : T) (k : Key T α) : Bool := (k.read now).isSome

def putFor [Add T] (now ttl : T) (v : α) : Key T α := some ⟨v, some (now + ttl)⟩

/-- `SET … EX ttl NX`: whether the key was set, and the key. -/
def putNew [Add T] (now ttl : T) (v : α) (k : Key T α) : Bool × Key T α :=
  if k.present now then (false, k) else (true, putFor now ttl v)

/-- `EXPIRE` -/
def expireIn [Add T] (now ttl : T) (k : Key T α) : Key T α :=
  (k.filter (Entry.live now)).map fun e => { e with expiresAt := some (now + ttl) }

/-- A write into the collection of a key, or into a new one. -/
def upsert (now : T) (empty : α) (f : α → α) (k : Key T α) : Key T α :=
  match k.filter (Entry.live now) with
  | some e => some { e with value := f e.value }
  | none => some ⟨f empty, none⟩

/-- A removal from the collection of a key. -/
def adjust (now : T) (isEmpty : α → Bool) (f : α → α) (k : Key T α) : Key T α :=
  (k.filter (Entry.live now)).bind fun e =>
    if isEmpty (f e.value) then none else some { e with value := f e.value }

/-- The collection of a key. -/
def contents (now : T) (empty : α) (k : Key T α) : α := (k.read now).getD empty

/-! ## What a read finds -/

@[simp] theorem read_none (now : T) : read now (none : Key T α) = none := rfl

theorem read_some {now : T} {e : Entry T α} :
    read now (some e) = if e.live now then some e.value else none := by
  cases h : e.live now <;> simp [read, Option.filter, h]

theorem read_eq_some {now : T} {k : Key T α} {v : α} :
    k.read now = some v ↔ ∃ e, k = some e ∧ e.live now ∧ e.value = v := by
  cases k with
  | none => simp
  | some e => rw [read_some]; simp

theorem live_iff {now : T} {e : Entry T α} :
    e.live now ↔ ∀ t, e.expiresAt = some t → now < t := by
  cases h : e.expiresAt <;> simp [Entry.live, h]

/-- An entry that is live was live before. -/
theorem live_anti {now now' : T} {e : Entry T α} (hle : now ≤ now') (h : e.live now') :
    e.live now :=
  live_iff.mpr fun t ht => hle.trans_lt (live_iff.mp h t ht)

theorem present_iff {now : T} {k : Key T α} :
    k.present now ↔ ∃ e, k = some e ∧ e.live now := by
  rw [present, Option.isSome_iff_exists]
  constructor
  · rintro ⟨v, hv⟩
    obtain ⟨e, he, hlive, -⟩ := read_eq_some.mp hv
    exact ⟨e, he, hlive⟩
  · rintro ⟨e, he, hlive⟩
    exact ⟨e.value, read_eq_some.mpr ⟨e, he, hlive, rfl⟩⟩

section
variable [Add T] {now ttl : T}

theorem present_putFor {now' : T} {v : α} :
    (putFor now ttl v : Key T α).present now' ↔ now' < now + ttl := by
  simp [present_iff, putFor, live_iff]

theorem putNew_fst {k : Key T α} {v : α} : (putNew now ttl v k).1 = !k.present now := by
  unfold putNew
  cases h : k.present now <;> simp

theorem putNew_snd {k : Key T α} {v : α} :
    (putNew now ttl v k).2 = if k.present now then k else putFor now ttl v := by
  unfold putNew
  cases h : k.present now <;> simp

end

/-! ## Collections -/

theorem filter_live_eq_some {now : T} {k : Key T α} {e : Entry T α} :
    k.filter (Entry.live now) = some e ↔ k = some e ∧ e.live now :=
  Option.filter_eq_some_iff

theorem filter_live_eq_none {now : T} {k : Key T α} (h : k.filter (Entry.live now) = none) :
    k.read now = none := by
  rw [read, h]
  rfl

section
variable {now now' : T} {empty : α} {f : α → α} {isEmpty : α → Bool} {k : Key T α}

/-- The collection of a key that is there. -/
theorem contents_of_live {e : Entry T α} (hk : k = some e) (hlive : e.live now) :
    k.contents now empty = e.value := by
  rw [contents, read_eq_some.mpr ⟨e, hk, hlive, rfl⟩]
  rfl

/-- What a write leaves: the collection with its expiry, or a new one without. -/
theorem upsert_cases (now : T) (empty : α) (f : α → α) (k : Key T α) :
    (∃ e, k = some e ∧ e.live now ∧
      k.upsert now empty f = some ⟨f e.value, e.expiresAt⟩) ∨
    (k.read now = none ∧ k.upsert now empty f = some ⟨f empty, none⟩) := by
  unfold upsert
  cases h : k.filter (Entry.live now) with
  | none => exact .inr ⟨filter_live_eq_none h, rfl⟩
  | some e =>
      obtain ⟨hk, hlive⟩ := filter_live_eq_some.mp h
      exact .inl ⟨e, hk, hlive, rfl⟩

theorem contents_upsert :
    (k.upsert now empty f).contents now empty = f (k.contents now empty) := by
  rcases upsert_cases now empty f k with
    ⟨e, hk, hlive, hup⟩ | ⟨hnone, hup⟩
  · rw [contents_of_live hk hlive]
    exact contents_of_live hup hlive
  · have hlive : Entry.live now (⟨f empty, none⟩ : Entry T α) := rfl
    rw [contents_of_live hup hlive, contents, hnone]
    rfl

theorem contents_adjust (hempty : ∀ a, isEmpty a → a = empty) (hf : f empty = empty) :
    (k.adjust now isEmpty f).contents now empty = f (k.contents now empty) := by
  cases h : k.filter (Entry.live now) with
  | none => rw [contents, contents, adjust, h, filter_live_eq_none h]; exact hf.symm
  | some e =>
      obtain ⟨hk, hlive⟩ := filter_live_eq_some.mp h
      rw [contents_of_live hk hlive, adjust, h, Option.bind_some]
      split
      · rename_i hnil
        rw [hempty _ hnil]
        rfl
      · exact contents_of_live rfl hlive

section
variable [Add T] {ttl : T}

theorem read_expireIn (hpos : now < now + ttl) : (k.expireIn now ttl).read now = k.read now := by
  cases h : k.filter (Entry.live now) with
  | none => rw [expireIn, h, filter_live_eq_none h]; rfl
  | some e =>
      obtain ⟨hk, hlive⟩ := filter_live_eq_some.mp h
      rw [expireIn, h, read_eq_some.mpr ⟨e, hk, hlive, rfl⟩]
      exact read_eq_some.mpr ⟨⟨e.value, some (now + ttl)⟩, rfl,
        live_iff.mpr fun t ht => Option.some.inj ht ▸ hpos, rfl⟩

theorem contents_expireIn (hpos : now < now + ttl) :
    (k.expireIn now ttl).contents now empty = k.contents now empty := by
  rw [contents, contents, read_expireIn hpos]

end

end

/-! ## When a key runs out -/

/-- The key is there, and runs out at `x`. -/
def RunsOut (now x : T) (k : Key T α) : Prop := ∃ e, k = some e ∧ e.live now ∧ e.expiresAt = some x

section
variable {now now' x : T} {empty : α} {f : α → α} {isEmpty : α → Bool} {k : Key T α}

theorem RunsOut.later (h : k.RunsOut now x) (hlt : now' < x) : k.RunsOut now' x := by
  obtain ⟨e, hk, -, hx⟩ := h
  refine ⟨e, hk, live_iff.mpr fun t ht => ?_, hx⟩
  rw [hx] at ht
  exact Option.some.inj ht ▸ hlt

theorem RunsOut.lt_of_read {v : α} (h : k.RunsOut now x) (hread : k.read now' = some v) :
    now' < x := by
  obtain ⟨e, hk, -, hx⟩ := h
  obtain ⟨e', hk', hlive, -⟩ := read_eq_some.mp hread
  cases hk.symm.trans hk'
  exact live_iff.mp hlive x hx

/-- Until it runs out, a key holds what it holds. -/
theorem RunsOut.read_eq (h : k.RunsOut now x) (hlt : now' < x) : k.read now' = k.read now := by
  obtain ⟨e, hk, hlive', -⟩ := h.later hlt
  obtain ⟨e', hk', hlive, -⟩ := h
  cases hk.symm.trans hk'
  rw [read_eq_some.mpr ⟨e, hk, hlive', rfl⟩, read_eq_some.mpr ⟨e, hk, hlive, rfl⟩]

theorem RunsOut.contents_eq (h : k.RunsOut now x) (hlt : now' < x) :
    k.contents now' empty = k.contents now empty := by
  rw [contents, contents, h.read_eq hlt]

/-- As time goes on, a key holds what it held, or is absent. -/
theorem read_later (hle : now ≤ now') (k : Key T α) :
    k.read now' = k.read now ∨ k.read now' = none := by
  cases hread : k.read now' with
  | none => exact .inr rfl
  | some v =>
      obtain ⟨e, hk, hlive, hv⟩ := read_eq_some.mp hread
      exact .inl (read_eq_some.mpr ⟨e, hk, live_anti hle hlive, hv⟩).symm

/-- What a key holds later, it holds now. -/
theorem contents_later (hle : now ≤ now') (hne : k.contents now' empty ≠ empty) :
    k.contents now' empty = k.contents now empty ∧ ∃ v, k.read now' = some v := by
  rcases read_later hle k with hsame | hnone
  · refine ⟨by rw [contents, contents, hsame], ?_⟩
    cases hread : k.read now' with
    | none => rw [contents, hread] at hne; exact absurd rfl hne
    | some v => exact ⟨v, rfl⟩
  · rw [contents, hnone] at hne
    exact absurd rfl hne

/-- A key that is there later holds what it held. -/
theorem contents_of_present (hle : now ≤ now') (h : k.present now') :
    k.contents now' empty = k.contents now empty := by
  rcases read_later hle k with hsame | hnone
  · rw [contents, contents, hsame]
  · rw [present, hnone] at h
    cases h

/-- A key that does not run out holds what it held. -/
theorem contents_of_stays (hle : now ≤ now') (h : k.present now → k.present now') :
    k.contents now' empty = k.contents now empty := by
  by_cases hnow : k.present now
  · exact contents_of_present hle (h hnow)
  · have hread : k.read now = none := Option.not_isSome_iff_eq_none.mp hnow
    rcases read_later hle k with hsame | hnone
    · rw [contents, contents, hsame]
    · rw [contents, contents, hnone, hread]

theorem RunsOut.upsert (h : k.RunsOut now x) : (k.upsert now empty f).RunsOut now x := by
  obtain ⟨e, hk, hlive, hx⟩ := h
  rcases upsert_cases now empty f k with
    ⟨e', hk', hlive', hup⟩ | ⟨hnone, -⟩
  · cases hk.symm.trans hk'
    exact ⟨_, hup, hlive', hx⟩
  · rw [read_eq_some.mpr ⟨e, hk, hlive, rfl⟩] at hnone
    cases hnone

/-- A removal that leaves something. -/
theorem RunsOut.adjust (h : k.RunsOut now x) (hf : isEmpty (f (k.contents now empty)) = false) :
    (k.adjust now isEmpty f).RunsOut now x := by
  obtain ⟨e, hk, hlive, hx⟩ := h
  rw [contents_of_live hk hlive] at hf
  refine ⟨⟨f e.value, e.expiresAt⟩, ?_, hlive, hx⟩
  rw [Key.adjust, filter_live_eq_some.mpr ⟨hk, hlive⟩, Option.bind_some,
    if_neg (by rw [hf]; exact Bool.false_ne_true)]

theorem runsOut_expireIn [Add T] {ttl : T} (hpos : now < now + ttl) (h : k.present now) :
    (k.expireIn now ttl).RunsOut now (now + ttl) := by
  obtain ⟨e, hk, hlive⟩ := present_iff.mp h
  refine ⟨⟨e.value, some (now + ttl)⟩, ?_, live_iff.mpr fun t ht => Option.some.inj ht ▸ hpos, rfl⟩
  rw [expireIn, filter_live_eq_some.mpr ⟨hk, hlive⟩]
  rfl

theorem present_upsert : (k.upsert now empty f).present now := by
  rcases upsert_cases now empty f k with
    ⟨e, -, hlive, hup⟩ | ⟨-, hup⟩
  · exact present_iff.mpr ⟨_, hup, hlive⟩
  · exact present_iff.mpr ⟨_, hup, rfl⟩

end

end Key

/-! ## Hashes -/

section
variable {κ β : Type} [DecidableEq κ]

/-- A removal of several fields. -/
def eraseAll (ks : List κ) (h : AList fun _ : κ => β) : AList fun _ : κ => β :=
  ks.foldr AList.erase h

theorem eraseAll_empty (ks : List κ) : eraseAll ks (∅ : AList fun _ : κ => β) = ∅ := by
  induction ks with
  | nil => rfl
  | cons k ks ih =>
      show (eraseAll ks ∅).erase k = ∅
      rw [ih]
      rfl

omit [DecidableEq κ] in
theorem eq_empty_of_isEmpty {h : AList fun _ : κ => β} (he : h.entries.isEmpty) : h = ∅ :=
  AList.ext (List.isEmpty_iff.mp he)

omit [DecidableEq κ] in
theorem isEmpty_of_mem {h : AList fun _ : κ => β} {k : κ} (hk : k ∈ h) :
    h.entries.isEmpty = false := by
  cases he : h.entries.isEmpty with
  | false => rfl
  | true =>
      rw [eq_empty_of_isEmpty he] at hk
      exact absurd hk (AList.notMem_empty k)

theorem lookup_eraseAll {ks : List κ} {h : AList fun _ : κ => β} {k : κ} :
    (eraseAll ks h).lookup k = if k ∈ ks then none else h.lookup k := by
  induction ks with
  | nil => rfl
  | cons k' ks ih =>
      show ((eraseAll ks h).erase k').lookup k = _
      by_cases hk : k = k'
      · subst hk
        rw [AList.lookup_erase, if_pos List.mem_cons_self]
      · rw [AList.lookup_erase_ne hk, ih]
        simp [hk]

theorem mem_eraseAll {ks : List κ} {h : AList fun _ : κ => β} {k : κ} :
    k ∈ eraseAll ks h ↔ k ∉ ks ∧ k ∈ h := by
  rw [← AList.lookup_isSome, lookup_eraseAll, ← AList.lookup_isSome]
  split <;> simp_all

/-- A removal that leaves a field. -/
theorem Key.RunsOut.eraseAll {now x : T} {key : Key T (AList fun _ : κ => β)} {ks : List κ} {k : κ}
    (h : key.RunsOut now x) (hout : k ∉ ks) (hin : k ∈ key.contents now ∅) :
    (key.adjust now (·.entries.isEmpty) (Expiring.eraseAll ks)).RunsOut now x :=
  h.adjust (isEmpty_of_mem (mem_eraseAll.mpr ⟨hout, hin⟩))

end

/-! ## Stores -/

section
variable {κ β : Type} [DecidableEq κ] {store : κ → Option β} {k k' : κ} {e e' : β}

/-- What is left after a deletion. -/
theorem update_none_some (h : Function.update store k none k' = some e) :
    k' ≠ k ∧ store k' = some e := by
  by_cases hk : k' = k
  · rw [hk, Function.update_self] at h
    cases h
  · rw [Function.update_of_ne hk] at h
    exact ⟨hk, h⟩

/-- What is there after a write. -/
theorem update_some_some (h : Function.update store k (some e') k' = some e) :
    (k' = k ∧ e = e') ∨ (k' ≠ k ∧ store k' = some e) := by
  by_cases hk : k' = k
  · rw [hk, Function.update_self] at h
    exact .inl ⟨hk, (Option.some.inj h).symm⟩
  · rw [Function.update_of_ne hk] at h
    exact .inr ⟨hk, h⟩

theorem update_none_none (h : store k' = none) : Function.update store k none k' = none := by
  by_cases hk : k' = k
  · rw [hk, Function.update_self]
  · rw [Function.update_of_ne hk, h]

end

end Expiring
