/-
# `Proof.Discovery` — one title too long ends the scan

The request schemas let a title have 200 characters, and `notifications.title` holds as
many; but the loaders put a text of their own in front:

    "Action due: "            12      titles of actions to be done       up to 188
    "Decision deadline: "     19      titles of active decisions         up to 181
    "Voting closes soon: "    20      titles of decisions being voted on up to 180

A candidate whose title comes out longer is refused by the column, and the exception
leaves `discover`: no candidate after it is created, in whatever workspace.  Nothing else
stops the scan, so it creates every reminder exactly if all the titles of what is due
are short enough (`discovers_all_iff`).
-/
import ForkRoom.System.Discovery
import ForkRoom.Proof.Reminders
import ForkRoom.System.Operations

namespace ForkRoom

namespace Discovery

open NotificationRepository
open Reminders (Settings identity)

/-! ## Titles -/

/-- `Field(min_length=3, max_length=200)` and the validator of a title, which is the same in
the requests for decisions, successors and actions. -/
def validTitle (value : String) : Option String :=
  if 3 ≤ value.length ∧ value.length ≤ 200 ∧ 3 ≤ (normalizeText value).length then
    some (normalizeText value)
  else none

/-- Every title has passed its request schema. -/
structure SchemaTitles (s : ActionDb) : Prop where
  actions : ∀ a ∈ s.implementationActions, ∀ t ∈ a.title, ∃ value, validTitle value = some t
  decisions : ∀ d ∈ s.db.decisions, ∃ value, validTitle value = some d.title

theorem validTitle_some {value title : String} (h : validTitle value = some title) :
    3 ≤ title.length ∧ title.length ≤ 200 ∧ title.toList.getLast? ≠ some ' ' := by
  unfold validTitle at h
  split at h
  · rename_i hv
    cases h
    refine ⟨hv.2.2, ?_, fun hlast => ?_⟩
    · have hle := Text.length_normalize_le isSpace ' ' value.toList
      rw [String.length_toList] at hle
      rw [normalizeText, String.length_ofList]
      exact hle.trans hv.2.1
    · rw [normalizeText, String.toList_ofList] at hlast
      have hsep := Text.getLast?_normalize ' ' hlast
      nomatch hsep
  · nomatch h

/-- A title with a text in front fits its column as long as both together have 200
characters. -/
theorem varchar_prefixed {value title : String} (h : validTitle value = some title)
    (front : String) :
    varchar 200 (front ++ title) =
      if front.length + title.length ≤ 200 then some (front ++ title) else none := by
  obtain ⟨hthree, -, hlast⟩ := validTitle_some h
  have hne : title.toList ≠ [] := by
    intro hnil
    rw [← String.length_toList, hnil] at hthree
    nomatch hthree
  rw [varchar_eq, String.length_append]
  rw [String.toList_append, List.getLast?_append_of_ne_nil _ hne]
  exact hlast

/-! ## The condition -/

/-- A time in the window of the scan. -/
def Falls (after before : Datetime) (column : Option Datetime) : Prop :=
  ∃ t ∈ column, after < t ∧ t ≤ before

instance (after before : Datetime) (column : Option Datetime) :
    Decidable (Falls after before column) :=
  inferInstanceAs (Decidable (∃ t ∈ column, after < t ∧ t ≤ before))

/-- The titles of what falls due are short enough. -/
structure ShortTitles (s : ActionDb) (after before : Datetime) : Prop where
  actions : ∀ a ∈ s.implementationActions, a.status ∈ [.todo, .inProgress, .blocked] →
    Falls after before a.dueAt → ∀ t ∈ a.title, t.length ≤ 188
  decisions : ∀ d ∈ s.db.decisions, d.status = .active → Falls after before d.dueAt →
    (∃ m ∈ s.db.workspaceMembers, m.workspaceId = d.workspaceId ∧
      m.role ∈ [.owner, .admin, .member]) → d.title.length ≤ 181
  voting : ∀ v ∈ s.db.votingSessions, v.status = .open → Falls after before v.closesAt →
    (∃ e ∈ s.db.votingEligibleVoters, e.votingSessionId = v.id) →
    ∀ d ∈ s.db.decisions, d.id = v.decisionId → d.title.length ≤ 180

instance (s : ActionDb) (after before : Datetime) : Decidable (ShortTitles s after before) :=
  decidable_of_iff
    ((∀ a ∈ s.implementationActions, a.status ∈ [.todo, .inProgress, .blocked] →
        Falls after before a.dueAt → ∀ t ∈ a.title, t.length ≤ 188) ∧
      (∀ d ∈ s.db.decisions, d.status = .active → Falls after before d.dueAt →
        (∃ m ∈ s.db.workspaceMembers, m.workspaceId = d.workspaceId ∧
          m.role ∈ [.owner, .admin, .member]) → d.title.length ≤ 181) ∧
      ∀ v ∈ s.db.votingSessions, v.status = .open → Falls after before v.closesAt →
        (∃ e ∈ s.db.votingEligibleVoters, e.votingSessionId = v.id) →
        ∀ d ∈ s.db.decisions, d.id = v.decisionId → d.title.length ≤ 180)
    ⟨fun ⟨h₁, h₂, h₃⟩ => ⟨h₁, h₂, h₃⟩, fun ⟨h₁, h₂, h₃⟩ => ⟨h₁, h₂, h₃⟩⟩

/-! ## What the loaders list -/

section
variable {s : ActionDb} {after before : Datetime} {c : ReminderCandidate}

theorem mem_inWindow_iff {column : Option Datetime} {t : Datetime} :
    t ∈ (inWindow after before column).toList ↔ column = some t ∧ after < t ∧ t ≤ before := by
  refine ⟨mem_inWindow, fun ⟨hc, h₁, h₂⟩ => ?_⟩
  rw [hc, inWindow_some h₁ h₂]
  exact List.mem_cons_self

/-- `if` in front of a loop. -/
theorem mem_ite_nil {α : Type} {p : Prop} [Decidable p] {l : List α} {a : α} :
    a ∈ (if p then l else []) ↔ p ∧ a ∈ l := by
  split <;> simp_all

theorem mem_reminded {a : ImplementationAction} :
    a ∈ (ReminderSources.of s).implementationActions ↔
      ∃ row ∈ s.implementationActions, row.reminded = some a :=
  List.mem_filterMap

/-- The columns of a row that the reminders read; the NOT NULL columns are there. -/
theorem reminded_some {row : ImplementationActionRow} {a : ImplementationAction} :
    row.reminded = some a ↔ row.id = a.id ∧ row.decisionId = a.decisionId ∧
      row.assigneeId = some a.assigneeId ∧ row.title = some a.title ∧ row.status = a.status ∧
      row.dueAt = a.dueAt := by
  obtain ⟨id, decisionId, assigneeId, title, status, dueAt⟩ := a
  cases hassignee : row.assigneeId <;> cases htitle : row.title <;>
    simp only [ImplementationActionRow.reminded, hassignee, htitle, Option.bind_eq_bind,
      Option.bind_none, Option.bind_some, Option.pure_def, Option.some.injEq, reduceCtorEq,
      ImplementationAction.mk.injEq, false_and, and_false]

theorem mem_dueActions : c ∈ dueActionCandidates (.of s) after before ↔
    ∃ a ∈ (ReminderSources.of s).implementationActions,
      a.status ∈ [.todo, .inProgress, .blocked] ∧ ∃ dueAt, a.dueAt = some dueAt ∧ after < dueAt ∧
      dueAt ≤ before ∧ ∃ d ∈ s.db.decisions, d.id = a.decisionId ∧
      c = ⟨a.assigneeId, d.workspaceId, .actionDue, a.id, dueAt, "Action due: " ++ a.title,
        "Your implementation action \"" ++ a.title ++ "\" is due soon."⟩ := by
  simp only [dueActionCandidates, List.mem_flatMap, mem_ite_nil, mem_inWindow_iff, List.mem_map,
    decisionOf, List.mem_filter, decide_eq_true_eq, and_assoc, ReminderSources.of, eq_comm (b := c)]

theorem mem_dueReviews : c ∈ dueReviewCandidates (.of s) after before ↔
    ∃ v ∈ s.db.decisionReviews, v.status = .scheduled ∧ ∃ dueAt, some v.scheduledFor = some dueAt ∧
      after < dueAt ∧ dueAt ≤ before ∧ ∃ d ∈ s.db.decisions, d.id = v.decisionId ∧
      ∃ m ∈ s.db.workspaceMembers, m.workspaceId = d.workspaceId ∧ m.role ∈ [.owner, .admin] ∧
      c = ⟨m.userId, d.workspaceId, .decisionReview, v.id, dueAt, "Decision review due",
        "A scheduled decision review is due soon."⟩ := by
  simp only [dueReviewCandidates, List.mem_flatMap, mem_ite_nil, mem_inWindow_iff, List.mem_map,
    decisionOf, membersOf, List.mem_filter, decide_eq_true_eq, Bool.and_eq_true,
    List.contains_iff_mem, and_assoc, ReminderSources.of, eq_comm (b := c)]

theorem mem_dueDecisions : c ∈ dueDecisionCandidates (.of s) after before ↔
    ∃ d ∈ s.db.decisions, d.status = .active ∧ ∃ dueAt, d.dueAt = some dueAt ∧ after < dueAt ∧
      dueAt ≤ before ∧ ∃ m ∈ s.db.workspaceMembers, m.workspaceId = d.workspaceId ∧
      m.role ∈ [.owner, .admin, .member] ∧
      c = ⟨m.userId, d.workspaceId, .decisionDeadline, d.id, dueAt,
        "Decision deadline: " ++ d.title,
        "The decision \"" ++ d.title ++ "\" is approaching its deadline."⟩ := by
  simp only [dueDecisionCandidates, List.mem_flatMap, mem_ite_nil, mem_inWindow_iff, List.mem_map,
    membersOf, List.mem_filter, decide_eq_true_eq, Bool.and_eq_true, List.contains_iff_mem,
    and_assoc, ReminderSources.of, eq_comm (b := c)]

theorem mem_dueVoting : c ∈ dueVotingCandidates (.of s) after before ↔
    ∃ v ∈ s.db.votingSessions, v.status = .open ∧ ∃ closesAt, v.closesAt = some closesAt ∧
      after < closesAt ∧ closesAt ≤ before ∧ ∃ d ∈ s.db.decisions, d.id = v.decisionId ∧
      ∃ e ∈ s.db.votingEligibleVoters, e.votingSessionId = v.id ∧
      c = ⟨e.userId, d.workspaceId, .votingClose, v.id, closesAt, "Voting closes soon: " ++ d.title,
        "Voting for \"" ++ d.title ++ "\" closes soon."⟩ := by
  simp only [dueVotingCandidates, List.mem_flatMap, mem_ite_nil, mem_inWindow_iff, List.mem_map,
    decisionOf, List.mem_filter, decide_eq_true_eq, and_assoc, ReminderSources.of, eq_comm (b := c)]

/-- A key is far shorter than its column. -/
theorem length_key_le {r : Reminder} (hmin : datetimeMin ≤ r.dueAt) (hmax : r.dueAt ≤ datetimeMax) :
    r.key.length ≤ 255 := by
  have hkind : r.kind.value.length ≤ 17 := by
    cases r.kind <;> decide
  have hdue := Datetime.length_isoformat_le hmin hmax
  have hcolon : ":".length = 1 := by decide
  simp only [Reminder.key, String.length_append, UUID.length_str, hcolon]
  omega

variable {settings : Settings} {current : Datetime}

theorem mem_due : c ∈ due settings s current ↔
    c ∈ dueActionCandidates (.of s) current (current + settings.window) ∨
      c ∈ dueReviewCandidates (.of s) current (current + settings.window) ∨
      c ∈ dueDecisionCandidates (.of s) current (current + settings.window) ∨
      c ∈ dueVotingCandidates (.of s) current (current + settings.window) := by
  simp [due, loaders, Loader.load]

/-- What a candidate refers to is there, and it falls due in the window. -/
structure Rooted (s : ActionDb) (after before : Datetime) (c : ReminderCandidate) : Prop where
  recipient : c.recipientId ∈ s.db.users.map User.id
  workspace : c.workspaceId ∈ s.db.workspaces.map Workspace.id
  falls : after < c.dueAt ∧ c.dueAt ≤ before

theorem due_rooted (h : c ∈ due settings s current) :
    Rooted s current (current + settings.window) c := by
  have hworkspace : ∀ d ∈ s.db.decisions, d.workspaceId ∈ s.db.workspaces.map Workspace.id := by
    intro d hd
    obtain ⟨w, hw, hid⟩ := s.db.valid.fkDecisionsWorkspace d hd
    exact List.mem_map.mpr ⟨w, hw, hid⟩
  have hmember : ∀ m ∈ s.db.workspaceMembers, m.userId ∈ s.db.users.map User.id := by
    intro m hm
    obtain ⟨u, hu, hid⟩ := s.db.valid.fkWorkspaceMembersUser m hm
    exact List.mem_map.mpr ⟨u, hu, hid⟩
  rcases mem_due.mp h with h | h | h | h
  · obtain ⟨a, ha, -, t, -, h₁, h₂, d, hd, -, rfl⟩ := mem_dueActions.mp h
    obtain ⟨row, hrow, hsome⟩ := mem_reminded.mp ha
    obtain ⟨-, -, hassignee, -⟩ := reminded_some.mp hsome
    refine ⟨?_, hworkspace d hd, h₁, h₂⟩
    obtain ⟨u, hu, hid⟩ := s.valid.fkImplementationActionsAssignee row hrow a.assigneeId (by
      rw [hassignee]
      exact List.mem_cons_self)
    exact List.mem_map.mpr ⟨u, hu, hid⟩
  · obtain ⟨v, -, -, t, -, h₁, h₂, d, hd, -, m, hm, -, -, rfl⟩ := mem_dueReviews.mp h
    exact ⟨hmember m hm, hworkspace d hd, h₁, h₂⟩
  · obtain ⟨d, hd, -, t, -, h₁, h₂, m, hm, -, -, rfl⟩ := mem_dueDecisions.mp h
    exact ⟨hmember m hm, hworkspace d hd, h₁, h₂⟩
  · obtain ⟨v, -, -, t, -, h₁, h₂, d, hd, -, e, he, -, rfl⟩ := mem_dueVoting.mp h
    refine ⟨?_, hworkspace d hd, h₁, h₂⟩
    obtain ⟨u, hu, hid⟩ := s.db.valid.fkVotingEligibleVotersUser e he
    exact List.mem_map.mpr ⟨u, hu, hid⟩

/-- What is due can be stored, but for its title. -/
theorem due_storable (hmin : datetimeMin ≤ current) (hmax : current + settings.window ≤ datetimeMax)
    (h : c ∈ due settings s current) (htitle : varchar 200 c.title = some c.title) :
    Storable s.db.toTables c := by
  obtain ⟨hrecipient, hworkspace, h₁, h₂⟩ := due_rooted h
  exact ⟨htitle, if_pos (length_key_le (r := c.reminder) (hmin.trans h₁.le) (h₂.trans hmax)),
    hrecipient, hworkspace⟩

/-! ## The titles that are too long -/

/-- Short titles fit, with the text in front. -/
theorem ShortTitles.fits (htitles : SchemaTitles s)
    (hshort : ShortTitles s current (current + settings.window)) (h : c ∈ due settings s current) :
    varchar 200 c.title = some c.title := by
  rcases mem_due.mp h with h | h | h | h
  · obtain ⟨a, ha, hst, t, hdue, h₁, h₂, d, hd, -, rfl⟩ := mem_dueActions.mp h
    obtain ⟨row, hrow, hsome⟩ := mem_reminded.mp ha
    obtain ⟨-, -, -, htitle, hstatus, hdueAt⟩ := reminded_some.mp hsome
    obtain ⟨value, hvalue⟩ := htitles.actions row hrow _ htitle
    have hle := hshort.actions row hrow (hstatus ▸ hst) ⟨t, hdueAt.trans hdue, h₁, h₂⟩ _ htitle
    have hfront : "Action due: ".length = 12 := by decide
    rw [varchar_prefixed hvalue, if_pos (by omega)]
  · obtain ⟨v, -, -, t, -, -, -, d, -, -, m, -, -, -, rfl⟩ := mem_dueReviews.mp h
    have hlength : "Decision review due".length ≤ 200 := by decide
    exact if_pos hlength
  · obtain ⟨d, hd, hst, t, hdue, h₁, h₂, m, hm, hw, hrole, rfl⟩ := mem_dueDecisions.mp h
    obtain ⟨value, hvalue⟩ := htitles.decisions d hd
    have hle := hshort.decisions d hd hst ⟨t, hdue, h₁, h₂⟩ ⟨m, hm, hw, hrole⟩
    have hfront : "Decision deadline: ".length = 19 := by decide
    rw [varchar_prefixed hvalue, if_pos (by omega)]
  · obtain ⟨v, hv, hst, t, hdue, h₁, h₂, d, hd, hid, e, he, hsession, rfl⟩ := mem_dueVoting.mp h
    obtain ⟨value, hvalue⟩ := htitles.decisions d hd
    have hle := hshort.voting v hv hst ⟨t, hdue, h₁, h₂⟩ ⟨e, he, hsession⟩ d hd hid
    have hfront : "Voting closes soon: ".length = 20 := by decide
    rw [varchar_prefixed hvalue, if_pos (by omega)]

/-- If all fit, all titles are short. -/
theorem shortTitles_of_fits (htitles : SchemaTitles s)
    (h : ∀ c ∈ due settings s current, varchar 200 c.title ≠ none) :
    ShortTitles s current (current + settings.window) := by
  have hfits : ∀ {value title : String}, validTitle value = some title → ∀ front : String,
      varchar 200 (front ++ title) ≠ none → front.length + title.length ≤ 200 := by
    intro value title hvalue front hne
    by_contra hlong
    rw [varchar_prefixed hvalue, if_neg hlong] at hne
    exact hne rfl
  refine ⟨?_, ?_, ?_⟩
  · rintro row hrow hst ⟨t, hdue, h₁, h₂⟩ title htitle
    obtain ⟨value, hvalue⟩ := htitles.actions row hrow title htitle
    obtain ⟨u, hassignee⟩ := Option.ne_none_iff_exists'.mp (s.valid.nnAssignee row hrow)
    obtain ⟨d, hd, hid⟩ := s.valid.fkImplementationActionsDecision row hrow
    have hmem : (⟨row.id, row.decisionId, u, title, row.status, row.dueAt⟩ : ImplementationAction) ∈
        (ReminderSources.of s).implementationActions :=
      mem_reminded.mpr ⟨row, hrow, reminded_some.mpr ⟨rfl, rfl, hassignee, htitle, rfl, rfl⟩⟩
    have hc := h _ (mem_due.mpr (Or.inl (mem_dueActions.mpr
      ⟨_, hmem, hst, t, hdue, h₁, h₂, d, hd, hid, rfl⟩)))
    have hle := hfits hvalue _ hc
    have hfront : "Action due: ".length = 12 := by decide
    omega
  · rintro d hd hst ⟨t, hdue, h₁, h₂⟩ ⟨m, hm, hw, hrole⟩
    obtain ⟨value, hvalue⟩ := htitles.decisions d hd
    have hc := h _ (mem_due.mpr (Or.inr (Or.inr (Or.inl (mem_dueDecisions.mpr
      ⟨d, hd, hst, t, hdue, h₁, h₂, m, hm, hw, hrole, rfl⟩)))))
    have hle := hfits hvalue _ hc
    have hfront : "Decision deadline: ".length = 19 := by decide
    omega
  · rintro v hv hst ⟨t, hdue, h₁, h₂⟩ ⟨e, he, hsession⟩ d hd hid
    obtain ⟨value, hvalue⟩ := htitles.decisions d hd
    have hc := h _ (mem_due.mpr (Or.inr (Or.inr (Or.inr (mem_dueVoting.mpr
      ⟨v, hv, hst, t, hdue, h₁, h₂, d, hd, hid, e, he, hsession, rfl⟩)))))
    have hle := hfits hvalue _ hc
    have hfront : "Voting closes soon: ".length = 20 := by decide
    omega

end

/-! ## The scan -/

/-- The scan comes to its end, and every reminder that falls due in its window and has no
notification yet gets one, which is enqueued. -/
structure DiscoversAll (settings : Settings) (s : ActionDb) (current : Datetime)
    (fresh : Nat → UUID)
    (rows : List Notification) : Prop where
  finishes : (scan settings s current fresh rows).error = none
  creates : ∀ r, Eligible (.of s) r → current < r.dueAt → r.dueAt ≤ current + settings.window →
    (∀ n ∈ rows, n.idempotencyKey ≠ r.key) →
    ∃ n ∈ (scan settings s current fresh rows).notifications, n.idempotencyKey = r.key ∧
      n.kind = r.kind ∧ n.sourceId = r.sourceId ∧ n.recipientId = r.recipientId ∧
      n.id ∈ (scan settings s current fresh rows).enqueued

section
variable {settings : Settings} {s : ActionDb} {current : Datetime} {fresh : Nat → UUID}
  {rows : List Notification}

/-- **A scan discovers everything exactly if all titles are short enough**, with fresh
identifiers and a window within the years 1 to 9999. -/
theorem discovers_all_iff (htitles : SchemaTitles s) (hmin : datetimeMin ≤ current)
    (hmax : current + settings.window ≤ datetimeMax)
    (hinj : ∀ i j, i < j → j < (due settings s current).length → fresh i ≠ fresh j)
    (hfresh : ∀ k < (due settings s current).length, ∀ n ∈ rows, n.id ≠ fresh k) :
    DiscoversAll settings s current fresh rows ↔
      ShortTitles s current (current + settings.window) := by
  constructor
  · intro h
    refine shortTitles_of_fits htitles fun c hc hlong => ?_
    exact createAll_long ⟨c, hc, hlong⟩ h.finishes
  · intro hshort
    have hstorable : ∀ c ∈ due settings s current, Storable s.db.toTables c :=
      fun c hc => due_storable hmin hmax hc (hshort.fits htitles hc)
    obtain ⟨herror, -, hall⟩ := createAll_storable (k := 0) current hstorable
      settings.workers.maxDeliveryAttempts_pos
      (fun i j _ hij hj => hinj i j hij (by omega)) fun j _ hj => hfresh j (by omega)
    refine ⟨herror, fun r hr h₁ h₂ hnone => ?_⟩
    obtain ⟨l, hl⟩ := hr.loader
    obtain ⟨c, hc, rfl⟩ := mem_load hr hl h₁ h₂
    have hcdue : c ∈ due settings s current := List.mem_flatMap.mpr ⟨l, l.mem_loaders, hc⟩
    obtain ⟨n, hn, c', hc', hkey, hidentity, henqueued⟩ := hall c hcdue hnone
    -- the key determines the reminder
    have hsame : c'.reminder = c.reminder :=
      Reminder.key_inj (hmin.trans (due_rooted hc').falls.1.le) hkey
    have hkind := congrArg Reminder.kind hsame
    have hsource := congrArg Reminder.sourceId hsame
    have hrecipient := congrArg Reminder.recipientId hsame
    exact ⟨n, hn, (congrArg Reminders.Identity.idempotencyKey hidentity).trans hkey,
      (congrArg Reminders.Identity.kind hidentity).trans hkind,
      (congrArg Reminders.Identity.sourceId hidentity).trans hsource,
      (congrArg Reminders.Identity.recipientId hidentity).trans hrecipient, henqueued⟩

end

/-! ## A sample -/

/-- A word of the right length is a title as it is. -/
theorem validTitle_word {value : String} (h : ∀ c ∈ value.toList, isSpace c = false)
    (hmin : 3 ≤ value.length) (hmax : value.length ≤ 200) : validTitle value = some value := by
  have hne : value.toList ≠ [] := by
    intro hnil
    rw [← String.length_toList, hnil] at hmin
    nomatch hmin
  have hnorm : normalizeText value = value := by
    rw [normalizeText, Text.normalize_word h hne, String.ofList_toList]
  rw [validTitle, hnorm, if_pos ⟨hmin, hmax, hmin⟩]

/-- A database without actions whose titles are all normalized. -/
theorem SchemaTitles.of {db : Db}
    (h : ∀ t ∈ db.decisions.map Decision.title, validTitle t = some t) :
    SchemaTitles (.of db) where
  actions a ha := by
    rw [ActionDb.of_implementationActions] at ha
    cases ha
  decisions d hd := ⟨d.title, h d.title (List.mem_map_of_mem hd)⟩

section
open ForkRoom.Sample (dep ada bob env)

/-- A title of `n` letters. -/
def Sample.title (n : Nat) : String := String.ofList (List.replicate n 'x')

/-- Two workspaces, each with an active decision due in half an hour; the title of the
first has `n` characters. -/
def Sample.setUp (n : Nat) : List Op :=
  [.register ada, .register bob,
    .createWorkspace (env 1 10) ada ⟨"Lab", none⟩,
    .createWorkspace (env 1 12) bob ⟨"Shop", none⟩,
    .createDecision (env 2 20) ada 10 ⟨title n, none, .technology, some (minutes 30), none⟩,
    .transitionDecision (env 3 0) ada 10 20 ⟨.active⟩,
    .createDecision (env 2 22) bob 12 ⟨"Hours", none, .technology, some (minutes 30), none⟩,
    .transitionDecision (env 3 0) bob 12 22 ⟨.active⟩]

def Sample.db (n : Nat) : Db := runAll dep (setUp n) Db.empty

theorem Sample.db_reachable (n : Nat) : Reachable dep (db n) := Reachable.empty.runAll _

theorem Sample.titles {n : Nat} (hmin : 3 ≤ n) (hmax : n ≤ 200)
    (h : (db n).decisions.map Decision.title = [title n, "Hours"]) : SchemaTitles (.of (db n)) := by
  have hlength : (title n).length = n := by
    rw [title, String.length_ofList, List.length_replicate]
  have hletters : ∀ c ∈ (title n).toList, isSpace c = false := by
    intro c hc
    rw [title, String.toList_ofList] at hc
    rw [List.eq_of_mem_replicate hc]
    decide
  refine SchemaTitles.of fun t ht => ?_
  rw [h] at ht
  rcases List.mem_cons.mp ht with rfl | ht
  · exact validTitle_word hletters (hlength.symm ▸ hmin) (hlength.symm ▸ hmax)
  · rw [List.mem_singleton.mp ht]
    decide

/-- Bob is due a reminder for his decision. -/
def Sample.reminder : Reminder := ⟨.decisionDeadline, 22, 2, minutes 30⟩

def Sample.fresh (k : Nat) : UUID := BitVec.ofNat 128 (100 + k)

end

/-- The title of Ada's decision has 190 letters, which the schemas allow; Bob, in another
workspace, is not reminded of his. -/
theorem long_title_ends_scan :
    Reachable ForkRoom.Sample.dep (Sample.db 190) ∧ SchemaTitles (.of (Sample.db 190)) ∧
      Eligible (.of (.of (Sample.db 190))) Sample.reminder ∧
      (scan Reminders.Sample.settings (.of (Sample.db 190)) 10 Sample.fresh []).error =
        some .data ∧
      (scan Reminders.Sample.settings (.of (Sample.db 190)) 10 Sample.fresh []).notifications = [] ∧
      ¬ DiscoversAll Reminders.Sample.settings (.of (Sample.db 190)) 10 Sample.fresh [] := by
  obtain ⟨htitles, heligible, herror, hnone⟩ :
      (Sample.db 190).decisions.map Decision.title = [Sample.title 190, "Hours"] ∧
        Eligible (.of (.of (Sample.db 190))) Sample.reminder ∧
        (scan Reminders.Sample.settings (.of (Sample.db 190)) 10 Sample.fresh []).error =
          some .data ∧
        (scan Reminders.Sample.settings (.of (Sample.db 190)) 10 Sample.fresh []).notifications =
          [] := by decide +kernel
  refine ⟨Sample.db_reachable 190, Sample.titles (by decide) (by decide) htitles, heligible, herror,
    hnone, fun h => ?_⟩
  rw [h.finishes] at herror
  nomatch herror

theorem discovers_all_iff_sample :
    DiscoversAll Reminders.Sample.settings (.of (Sample.db 181)) 10 Sample.fresh [] := by
  obtain ⟨htitles, hshort, hlength⟩ :
      (Sample.db 181).decisions.map Decision.title = [Sample.title 181, "Hours"] ∧
        ShortTitles (.of (Sample.db 181)) 10 (10 + Reminders.Sample.settings.window) ∧
        (due Reminders.Sample.settings (.of (Sample.db 181)) 10).length = 2 := by decide +kernel
  refine (discovers_all_iff (Sample.titles (by decide) (by decide) htitles) (by decide)
    (by decide) ?_ ?_).mpr hshort
  · intro i j hij hj
    rw [hlength] at hj
    have hi : i = 0 := by omega
    have hj : j = 1 := by omega
    subst hi hj
    decide
  · exact fun _ _ _ hn => nomatch hn

end Discovery

end ForkRoom
