/-
# `System.Discovery` — one scan, down to the columns

A call of `discover` that nothing interferes with, on the tables as they are declared:
an insert that a column or a constraint refuses raises, and the exception ends the scan.
What it has inserted before is committed, what comes after is not reached.

    loaders × candidates ──→ insert ──→ the next candidate
                               └──→ error, end of the scan

The rows are those of the services (`ActionDb`), so everything a candidate refers to
is there; what can be refused is a text that is too long for its column.
-/
import ForkRoom.Service.Action
import ForkRoom.System.Reminders

namespace ForkRoom

namespace Discovery

open NotificationRepository
open Reminders (Settings identity)

/-! ## The columns -/

/-- Storing a text in a `VARCHAR(n)` column.  One that is too long is refused, unless
all there is too much of it is blanks, which are cut off. -/
def varchar (n : Nat) (text : String) : Option String :=
  if text.length ≤ n then some text
  else if (text.toList.drop n).all (· = ' ') then some (String.ofList (text.toList.take n))
  else none

/-- A text that ends in something else is stored as it is, or not at all. -/
theorem varchar_eq {n : Nat} {text : String} (h : text.toList.getLast? ≠ some ' ') :
    varchar n text = if text.length ≤ n then some text else none := by
  unfold varchar
  by_cases hn : text.length ≤ n
  · rw [if_pos hn, if_pos hn]
  · rw [if_neg hn, if_neg hn, if_neg]
    intro hall
    refine h ?_
    have hne : text.toList.drop n ≠ [] := by
      rw [ne_eq, List.drop_eq_nil_iff, String.length_toList]
      exact hn
    have hlast : text.toList.getLast? = (text.toList.drop n).getLast? := by
      conv_lhs => rw [← List.take_append_drop n text.toList]
      exact List.getLast?_append_of_ne_nil _ hne
    rw [hlast, List.getLast?_eq_some_getLast hne]
    have hblank := List.all_eq_true.mp hall _ (List.getLast_mem hne)
    exact congrArg some (of_decide_eq_true hblank)

/-! ## Inserting -/

/-- `create_candidate` on the declared columns: `VARCHAR(200)` for the title and
`VARCHAR(255)` for the key, and the foreign keys of a new row. -/
def insertCandidate (t : Tables) (candidate : ReminderCandidate) (maxAttempts : Nat)
    (availableAt : Datetime) (notificationId : UUID) (rows : List Notification) :
    Except CommitError (Option UUID × List Notification) :=
  match varchar 200 candidate.title with
  | none => .error .data
  | some title =>
      if varchar 255 candidate.idempotencyKey ≠ some candidate.idempotencyKey then .error .data
      else
        match createCandidate { candidate with title := title } maxAttempts availableAt
            notificationId rows with
        | none => .error .integrity
        | some (none, rows) => .ok (none, rows)
        | some (some id, rows) =>
            if candidate.recipientId ∈ t.users.map User.id ∧
                candidate.workspaceId ∈ t.workspaces.map Workspace.id then
              .ok (some id, rows)
            else .error .integrity

/-- What a call of `discover` has done when it returns or raises. -/
structure Scan where
  notifications : List Notification
  enqueued : List UUID
  error : Option CommitError

/-- The inserts of a scan, one candidate after the other; `fresh k` is the `uuid4()` of
the `k`-th. -/
def createAll (t : Tables) (maxAttempts : Nat) (current : Datetime) (fresh : Nat → UUID) :
    List ReminderCandidate → Nat → List Notification → Scan
  | [], _, rows => ⟨rows, [], none⟩
  | candidate :: rest, k, rows =>
      match insertCandidate t candidate maxAttempts current (fresh k) rows with
      | .error e => ⟨rows, [], some e⟩
      | .ok (created, rows) =>
          let scan := createAll t maxAttempts current fresh rest (k + 1) rows
          { scan with enqueued := created.toList ++ scan.enqueued }

end Discovery

/-! ## What the loaders read -/

/-- The columns of a stored action that the reminders read. -/
def ImplementationActionRow.reminded (a : ImplementationActionRow) :
    Option ImplementationAction := do
  let assigneeId ← a.assigneeId
  let title ← a.title
  pure ⟨a.id, a.decisionId, assigneeId, title, a.status, a.dueAt⟩

def ReminderSources.of (s : ActionDb) : ReminderSources where
  tables := s.db.toTables
  implementationActions := s.implementationActions.filterMap ImplementationActionRow.reminded

namespace Discovery

open NotificationRepository
open Reminders (Settings identity)

/-- What the loaders list, one loader after the other: nothing they read changes
during the scan. -/
def due (settings : Settings) (s : ActionDb) (current : Datetime) : List ReminderCandidate :=
  loaders.flatMap fun l => l.load (.of s) current (current + settings.window)

/-- `discover` from its start to its return, or to the exception that ends it. -/
def scan (settings : Settings) (s : ActionDb) (current : Datetime) (fresh : Nat → UUID)
    (rows : List Notification) : Scan :=
  createAll s.db.toTables settings.workers.notificationMaxDeliveryAttempts current fresh
    (due settings s current) 0 rows

/-! ## One insert -/

section
variable {t : Tables} {c : ReminderCandidate} {maxAttempts : Nat} {current : Datetime} {id : UUID}
  {rows rows' : List Notification} {created : Option UUID}

/-- The candidate can be stored. -/
structure Storable (t : Tables) (c : ReminderCandidate) : Prop where
  title : varchar 200 c.title = some c.title
  key : varchar 255 c.idempotencyKey = some c.idempotencyKey
  recipient : c.recipientId ∈ t.users.map User.id
  workspace : c.workspaceId ∈ t.workspaces.map Workspace.id

theorem insertCandidate_long (h : varchar 200 c.title = none) :
    insertCandidate t c maxAttempts current id rows = .error .data := by
  simp only [insertCandidate, h]

/-- A candidate that can be stored is passed over when its key is taken, and inserted
when it is not. -/
theorem insertCandidate_storable (current : Datetime) (h : Storable t c) (hmax : 0 < maxAttempts)
    (hid : ∀ n ∈ rows, n.id ≠ id) :
    ((∃ n ∈ rows, n.idempotencyKey = c.idempotencyKey) ∧
        insertCandidate t c maxAttempts current id rows = .ok (none, rows)) ∨
      insertCandidate t c maxAttempts current id rows =
        .ok (some id, rows ++ [candidateRow c maxAttempts current id]) := by
  have hlegal : (candidateRow c maxAttempts current id).Legal := by
    refine ⟨hmax, Nat.zero_le _, Or.inr (Or.inr ⟨?_, rfl, rfl⟩)⟩
    exact List.mem_cons_self
  have hfresh : ¬ (id ∈ rows.map Notification.id ∨
      ¬ (candidateRow c maxAttempts current id).Legal) := by
    rintro (hm | hl)
    · obtain ⟨n, hn, he⟩ := List.mem_map.mp hm
      exact hid n hn he
    · exact hl hlegal
  by_cases htaken : rows.any fun n => n.idempotencyKey = c.idempotencyKey
  · have hcreate : createCandidate c maxAttempts current id rows = some (none, rows) :=
      if_pos htaken
    obtain ⟨n, hn, hkey⟩ := List.any_eq_true.mp htaken
    refine Or.inl ⟨⟨n, hn, of_decide_eq_true hkey⟩, ?_⟩
    simp only [insertCandidate, h.title, h.key, ne_eq, not_true, if_false, hcreate]
  · have hcreate : createCandidate c maxAttempts current id rows =
        some (some id, rows ++ [candidateRow c maxAttempts current id]) := by
      rw [createCandidate, if_neg htaken]
      exact if_neg hfresh
    refine Or.inr ?_
    simp only [insertCandidate, h.title, h.key, ne_eq, not_true, if_false, hcreate,
      if_pos (And.intro h.recipient h.workspace)]

end

/-! ## All inserts -/

section
variable {t : Tables} {maxAttempts : Nat} {current : Datetime} {fresh : Nat → UUID}
  {cs : List ReminderCandidate} {k : Nat} {rows : List Notification}

/-- A title that is too long ends the scan, there or before. -/
theorem createAll_long (h : ∃ c ∈ cs, varchar 200 c.title = none) :
    (createAll t maxAttempts current fresh cs k rows).error ≠ none := by
  induction cs generalizing k rows with
  | nil =>
      obtain ⟨c, hc, -⟩ := h
      nomatch hc
  | cons c cs ih =>
      rw [createAll]
      cases hc : insertCandidate t c maxAttempts current (fresh k) rows with
      | error e => exact fun he => (nomatch he)
      | ok r =>
          refine ih ?_
          obtain ⟨c', hc', hlong⟩ := h
          rcases List.mem_cons.mp hc' with rfl | hc'
          · rw [insertCandidate_long hlong] at hc
            nomatch hc
          · exact ⟨c', hc', hlong⟩

/-- Candidates that can all be stored are all taken care of. -/
theorem createAll_storable (current : Datetime) (h : ∀ c ∈ cs, Storable t c)
    (hmax : 0 < maxAttempts)
    (hinj : ∀ i j, k ≤ i → i < j → j < k + cs.length → fresh i ≠ fresh j)
    (hid : ∀ j, k ≤ j → j < k + cs.length → ∀ n ∈ rows, n.id ≠ fresh j) :
    (createAll t maxAttempts current fresh cs k rows).error = none ∧
      rows <+: (createAll t maxAttempts current fresh cs k rows).notifications ∧
      ∀ c ∈ cs, (∀ n ∈ rows, n.idempotencyKey ≠ c.idempotencyKey) →
        ∃ n ∈ (createAll t maxAttempts current fresh cs k rows).notifications, ∃ c' ∈ cs,
          c'.idempotencyKey = c.idempotencyKey ∧
          identity n = ⟨n.id, c'.kind, c'.sourceId, c'.recipientId, c'.idempotencyKey⟩ ∧
          n.id ∈ (createAll t maxAttempts current fresh cs k rows).enqueued := by
  induction cs generalizing k rows with
  | nil => exact ⟨rfl, List.prefix_rfl, fun c hc => (nomatch hc)⟩
  | cons c cs ih =>
      have hcs : ∀ c' ∈ cs, Storable t c' := fun c' hc' => h c' (List.mem_cons_of_mem _ hc')
      rw [List.length_cons] at hinj hid
      have hinj' : ∀ i j, k + 1 ≤ i → i < j → j < k + 1 + cs.length → fresh i ≠ fresh j :=
        fun i j hi hij hj => hinj i j (by omega) hij (by omega)
      rw [createAll]
      rcases insertCandidate_storable current (h c List.mem_cons_self) hmax
        (hid k le_rfl (by omega)) with ⟨⟨m, hm, hkey⟩, hc⟩ | hc
      · rw [hc]
        obtain ⟨herror, hprefix, hall⟩ :=
          ih hcs hinj' fun j hj hj' => hid j (by omega) (by omega)
        refine ⟨herror, hprefix, fun c' hc' hnone => ?_⟩
        rcases List.mem_cons.mp hc' with rfl | hc'
        · exact absurd hkey (hnone m hm)
        · obtain ⟨n, hn, c'', hc'', h₁, h₂, h₃⟩ := hall c' hc' hnone
          exact ⟨n, hn, c'', List.mem_cons_of_mem _ hc'', h₁, h₂, h₃⟩
      · rw [hc]
        have hid' : ∀ j, k + 1 ≤ j → j < k + 1 + cs.length →
            ∀ n ∈ rows ++ [candidateRow c maxAttempts current (fresh k)], n.id ≠ fresh j := by
          intro j hj hj'
          exact Machine.forall_snoc (hid j (by omega) (by omega))
            (hinj k j le_rfl (by omega) (by omega))
        obtain ⟨herror, hprefix, hall⟩ := ih (k := k + 1) hcs hinj' hid'
        have hrow : candidateRow c maxAttempts current (fresh k) ∈
            (createAll t maxAttempts current fresh cs (k + 1)
              (rows ++ [candidateRow c maxAttempts current (fresh k)])).notifications :=
          hprefix.subset (List.mem_append_right _ List.mem_cons_self)
        refine ⟨herror, (List.prefix_append _ _).trans hprefix, fun c' hc' hnone => ?_⟩
        by_cases hsame : c.idempotencyKey = c'.idempotencyKey
        · exact ⟨_, hrow, c, List.mem_cons_self, hsame, rfl,
            List.mem_append_left _ (by simp [candidateRow])⟩
        · have hc' : c' ∈ cs := by
            rcases List.mem_cons.mp hc' with rfl | hc'
            · exact absurd rfl hsame
            · exact hc'
          obtain ⟨n, hn, c'', hc'', h₁, h₂, h₃⟩ := hall c' hc' (Machine.forall_snoc hnone hsame)
          exact ⟨n, hn, c'', List.mem_cons_of_mem _ hc'', h₁, h₂, List.mem_append_right _ h₃⟩

end

end Discovery

end ForkRoom
