/-
# `Service.Notification` — what is due

The loaders of `NotificationRepository` that `ReminderDiscoveryService` calls, and
the notification `MentionRepository.sync_for_comment` adds.  Each loader lists the
rows that fall due in a half-open window, one candidate for every recipient.

    loader        rows                                recipients
    actions       actions still to be done            the assignee
    reviews       scheduled reviews                   owners and admins
    decisions     active decisions with a due date    owners, admins and members
    voting        open sessions with a closing time   the eligible voters

The rows come in an order the database does not promise; nothing depends on it.
-/
import ForkRoom.Model.Database
import ForkRoom.Model.Keys
import ForkRoom.Model.Notification

namespace ForkRoom

inductive ActionStatus where
  | todo | inProgress | blocked | completed | cancelled
  deriving DecidableEq, Repr

/-- The columns of an implementation action that the reminders read. -/
structure ImplementationAction where
  id : UUID
  decisionId : UUID
  assigneeId : UUID
  title : String
  status : ActionStatus
  dueAt : Option Datetime
  deriving DecidableEq

/-- What the loaders read. -/
structure ReminderSources where
  tables : Tables := {}
  implementationActions : List ImplementationAction := []

namespace NotificationRepository

/-- `column > after AND column <= before`; null is in no window. -/
def inWindow (after before : Datetime) (column : Option Datetime) : Option Datetime :=
  column.filter fun t => decide (after < t) && decide (t ≤ before)

theorem inWindow_some {after before t : Datetime} (h₁ : after < t) (h₂ : t ≤ before) :
    inWindow after before (some t) = some t := by
  simp [inWindow, h₁, h₂]

/-- `JOIN decisions ON decisions.id = …`. -/
def decisionOf (s : ReminderSources) (decisionId : UUID) : List Decision :=
  s.tables.decisions.filter fun d => d.id = decisionId

/-- `JOIN workspace_members ON …` with the role among `roles`. -/
def membersOf (s : ReminderSources) (workspaceId : UUID) (roles : List WorkspaceRole) :
    List WorkspaceMember :=
  s.tables.workspaceMembers.filter fun m =>
    decide (m.workspaceId = workspaceId) && roles.contains m.role

def dueActionCandidates (s : ReminderSources) (after before : Datetime) :
    List ReminderCandidate :=
  s.implementationActions.flatMap fun action =>
    if action.status ∈ [.todo, .inProgress, .blocked] then
      (inWindow after before action.dueAt).toList.flatMap fun dueAt =>
        (decisionOf s action.decisionId).map fun decision =>
          { recipientId := action.assigneeId
            workspaceId := decision.workspaceId
            kind := .actionDue
            sourceId := action.id
            dueAt := dueAt
            title := "Action due: " ++ action.title
            body := "Your implementation action \"" ++ action.title ++ "\" is due soon." }
    else []

def dueReviewCandidates (s : ReminderSources) (after before : Datetime) :
    List ReminderCandidate :=
  s.tables.decisionReviews.flatMap fun review =>
    if review.status = .scheduled then
      (inWindow after before (some review.scheduledFor)).toList.flatMap fun scheduledFor =>
        (decisionOf s review.decisionId).flatMap fun decision =>
          (membersOf s decision.workspaceId [.owner, .admin]).map fun member =>
            { recipientId := member.userId
              workspaceId := decision.workspaceId
              kind := .decisionReview
              sourceId := review.id
              dueAt := scheduledFor
              title := "Decision review due"
              body := "A scheduled decision review is due soon." }
    else []

def dueDecisionCandidates (s : ReminderSources) (after before : Datetime) :
    List ReminderCandidate :=
  s.tables.decisions.flatMap fun decision =>
    if decision.status = .active then
      (inWindow after before decision.dueAt).toList.flatMap fun dueAt =>
        (membersOf s decision.workspaceId [.owner, .admin, .member]).map fun member =>
          { recipientId := member.userId
            workspaceId := decision.workspaceId
            kind := .decisionDeadline
            sourceId := decision.id
            dueAt := dueAt
            title := "Decision deadline: " ++ decision.title
            body := "The decision \"" ++ decision.title ++ "\" is approaching its deadline." }
    else []

def dueVotingCandidates (s : ReminderSources) (after before : Datetime) :
    List ReminderCandidate :=
  s.tables.votingSessions.flatMap fun session =>
    if session.status = .open then
      (inWindow after before session.closesAt).toList.flatMap fun closesAt =>
        (decisionOf s session.decisionId).flatMap fun decision =>
          (s.tables.votingEligibleVoters.filter fun v => v.votingSessionId = session.id).map
            fun voter =>
              { recipientId := voter.userId
                workspaceId := decision.workspaceId
                kind := .votingClose
                sourceId := session.id
                dueAt := closesAt
                title := "Voting closes soon: " ++ decision.title
                body := "Voting for \"" ++ decision.title ++ "\" closes soon." }
    else []

/-- The loaders of `discover`. -/
inductive Loader where
  | actions | reviews | decisions | voting
  deriving DecidableEq, Repr

def Loader.load : Loader → ReminderSources → Datetime → Datetime → List ReminderCandidate
  | .actions => dueActionCandidates
  | .reviews => dueReviewCandidates
  | .decisions => dueDecisionCandidates
  | .voting => dueVotingCandidates

def Loader.kind : Loader → NotificationKind
  | .actions => .actionDue
  | .reviews => .decisionReview
  | .decisions => .decisionDeadline
  | .voting => .votingClose

/-- `loaders`, in the order of the tuple. -/
def loaders : List Loader := [.actions, .reviews, .decisions, .voting]

end NotificationRepository

/-- The notification `sync_for_comment` adds for a mention. -/
def MentionRepository.notification (mentionId recipientId workspaceId notificationId : UUID)
    (displayName excerpt : String) (now : Datetime) : Notification :=
  { id := notificationId
    recipientId := recipientId
    workspaceId := workspaceId
    kind := .mention
    sourceId := mentionId
    idempotencyKey := "mention:" ++ mentionId.str
    title := displayName ++ " mentioned you"
    body := excerpt
    status := .delivered
    attemptCount := 0
    maxAttempts := 1
    availableAt := now
    deliveryStartedAt := none
    deliveredAt := some now
    failedAt := none
    lastError := none }

/-! ## Keys -/

/-- What a reminder is about: the candidate without its text. -/
structure Reminder where
  kind : NotificationKind
  sourceId : UUID
  recipientId : UUID
  dueAt : Datetime
  deriving DecidableEq

def ReminderCandidate.reminder (c : ReminderCandidate) : Reminder :=
  ⟨c.kind, c.sourceId, c.recipientId, c.dueAt⟩

/-- The `idempotency_key` of its candidates. -/
def Reminder.key (r : Reminder) : String :=
  r.kind.value ++ ":" ++ r.sourceId.str ++ ":" ++ r.recipientId.str ++ ":" ++ r.dueAt.isoformat

theorem ReminderCandidate.key_reminder (c : ReminderCandidate) :
    c.reminder.key = c.idempotencyKey := rfl

theorem NotificationKind.value_inj {k k' : NotificationKind} (h : k.value = k'.value) : k = k' := by
  cases k <;> cases k' <;> first | rfl | exact absurd h (by decide)

theorem NotificationKind.colon_not_mem_value (k : NotificationKind) : ':' ∉ k.value.toList := by
  cases k <;> decide

theorem Reminder.toList_key (r : Reminder) :
    r.key.toList = r.kind.value.toList ++ ':' :: (r.sourceId.str.toList ++
      ':' :: (r.recipientId.str.toList ++ ':' :: r.dueAt.isoformat.toList)) := by
  simp [Reminder.key]

/-- The key determines the reminder. -/
theorem Reminder.key_inj {r r' : Reminder} (hr : datetimeMin ≤ r.dueAt) (h : r.key = r'.key) :
    r = r' := by
  have hl := congrArg String.toList h
  rw [toList_key, toList_key] at hl
  obtain ⟨hkind, hl⟩ := Text.split_eq (NotificationKind.colon_not_mem_value _)
    (NotificationKind.colon_not_mem_value _) hl
  obtain ⟨hsource, hl⟩ := Text.split_eq (UUID.colon_not_mem_str _) (UUID.colon_not_mem_str _) hl
  obtain ⟨hrecipient, hdue⟩ :=
    Text.split_eq (UUID.colon_not_mem_str _) (UUID.colon_not_mem_str _) hl
  have h₁ := NotificationKind.value_inj (String.toList_inj.mp hkind)
  have h₂ := UUID.str_inj (String.toList_inj.mp hsource)
  have h₃ := UUID.str_inj (String.toList_inj.mp hrecipient)
  have h₄ := Datetime.isoformat_inj hr (String.toList_inj.mp hdue)
  cases r
  cases r'
  simp_all

/-- No reminder has the key of a mention. -/
theorem Reminder.key_ne_mention {r : Reminder} (hr : r.kind ≠ .mention) (mentionId : UUID) :
    r.key ≠ "mention:" ++ mentionId.str := by
  intro h
  have hl := congrArg String.toList h
  have hm : ("mention:" ++ mentionId.str).toList =
      NotificationKind.mention.value.toList ++ ':' :: mentionId.str.toList := by
    simp [NotificationKind.value]
  rw [toList_key, hm] at hl
  obtain ⟨hkind, -⟩ := Text.split_eq (NotificationKind.colon_not_mem_value _)
    (NotificationKind.colon_not_mem_value _) hl
  exact hr (NotificationKind.value_inj (String.toList_inj.mp hkind))

/-! ## Who is due a reminder -/

/-- The conditions of the loaders, without the window. -/
inductive Eligible (s : ReminderSources) : Reminder → Prop
  | action {action : ImplementationAction} {decision : Decision} {dueAt : Datetime} :
      action ∈ s.implementationActions → action.status ∈ [.todo, .inProgress, .blocked] →
      action.dueAt = some dueAt →
      decision ∈ s.tables.decisions → decision.id = action.decisionId →
      Eligible s ⟨.actionDue, action.id, action.assigneeId, dueAt⟩
  | review {review : DecisionReview} {decision : Decision} {member : WorkspaceMember} :
      review ∈ s.tables.decisionReviews → review.status = .scheduled →
      decision ∈ s.tables.decisions → decision.id = review.decisionId →
      member ∈ s.tables.workspaceMembers → member.workspaceId = decision.workspaceId →
      member.role ∈ [.owner, .admin] →
      Eligible s ⟨.decisionReview, review.id, member.userId, review.scheduledFor⟩
  | decision {decision : Decision} {member : WorkspaceMember} {dueAt : Datetime} :
      decision ∈ s.tables.decisions → decision.status = .active → decision.dueAt = some dueAt →
      member ∈ s.tables.workspaceMembers → member.workspaceId = decision.workspaceId →
      member.role ∈ [.owner, .admin, .member] →
      Eligible s ⟨.decisionDeadline, decision.id, member.userId, dueAt⟩
  | voting {session : VotingSession} {decision : Decision} {voter : VotingEligibleVoter}
      {closesAt : Datetime} :
      session ∈ s.tables.votingSessions → session.status = .open →
      session.closesAt = some closesAt →
      decision ∈ s.tables.decisions → decision.id = session.decisionId →
      voter ∈ s.tables.votingEligibleVoters → voter.votingSessionId = session.id →
      Eligible s ⟨.votingClose, session.id, voter.userId, closesAt⟩

namespace NotificationRepository

variable {s : ReminderSources} {after before : Datetime}

theorem mem_decisionOf {decision : Decision} {decisionId : UUID}
    (hd : decision ∈ s.tables.decisions)
    (hid : decision.id = decisionId) : decision ∈ decisionOf s decisionId :=
  List.mem_filter.mpr ⟨hd, by simpa using hid⟩

theorem mem_membersOf {member : WorkspaceMember} {workspaceId : UUID} {roles : List WorkspaceRole}
    (hm : member ∈ s.tables.workspaceMembers) (hw : member.workspaceId = workspaceId)
    (hrole : member.role ∈ roles) : member ∈ membersOf s workspaceId roles :=
  List.mem_filter.mpr ⟨hm, by simp [hw, hrole]⟩

/-- One row further into a join. -/
theorem exists_mem_flatMap {α β : Type} {f : α → List β} {p : β → Prop} {rows : List α} {a : α}
    (ha : a ∈ rows) (h : ∃ b ∈ f a, p b) : ∃ b ∈ rows.flatMap f, p b := by
  obtain ⟨b, hb, hp⟩ := h
  exact ⟨b, List.mem_flatMap.mpr ⟨a, ha, hb⟩, hp⟩

theorem exists_mem_map {α β : Type} {f : α → β} {p : β → Prop} {rows : List α} {a : α}
    (ha : a ∈ rows) (h : p (f a)) : ∃ b ∈ rows.map f, p b :=
  ⟨f a, List.mem_map_of_mem ha, h⟩

/-- The loader of its kind lists a reminder in every window that holds its due time. -/
theorem mem_load {r : Reminder} {l : Loader} (h : Eligible s r) (hkind : l.kind = r.kind)
    (hafter : after < r.dueAt) (hbefore : r.dueAt ≤ before) :
    ∃ c ∈ l.load s after before, c.reminder = r := by
  have hwindow : ∀ {column : Option Datetime}, column = some r.dueAt →
      r.dueAt ∈ (inWindow after before column).toList := by
    intro column hc
    rw [hc, inWindow_some hafter hbefore]
    exact List.mem_cons_self
  cases h with
  | action ha hstatus hdue hd hid =>
      cases l with
      | actions =>
          refine exists_mem_flatMap ha ?_
          rw [if_pos hstatus]
          exact exists_mem_flatMap (hwindow hdue) (exists_mem_map (mem_decisionOf hd hid) rfl)
      | reviews | decisions | voting => cases hkind
  | review hr hstatus hd hid hm hw hrole =>
      cases l with
      | reviews =>
          refine exists_mem_flatMap hr ?_
          rw [if_pos hstatus]
          exact exists_mem_flatMap (hwindow rfl) (exists_mem_flatMap (mem_decisionOf hd hid)
            (exists_mem_map (mem_membersOf hm hw hrole) rfl))
      | actions | decisions | voting => cases hkind
  | decision hd hstatus hdue hm hw hrole =>
      cases l with
      | decisions =>
          refine exists_mem_flatMap hd ?_
          rw [if_pos hstatus]
          exact exists_mem_flatMap (hwindow hdue) (exists_mem_map (mem_membersOf hm hw hrole) rfl)
      | actions | reviews | voting => cases hkind
  | voting hs hstatus hdue hd hid hv hsession =>
      cases l with
      | voting =>
          refine exists_mem_flatMap hs ?_
          rw [if_pos hstatus]
          refine exists_mem_flatMap (hwindow hdue) (exists_mem_flatMap (mem_decisionOf hd hid) ?_)
          exact exists_mem_map (List.mem_filter.mpr ⟨hv, decide_eq_true hsession⟩) rfl
      | actions | reviews | decisions => cases hkind

theorem mem_inWindow {column : Option Datetime} {t : Datetime}
    (h : t ∈ (inWindow after before column).toList) : column = some t ∧ after < t ∧ t ≤ before := by
  rw [Option.mem_toList] at h
  obtain ⟨hc, hw⟩ := Option.filter_eq_some_iff.mp h
  simp only [Bool.and_eq_true, decide_eq_true_eq] at hw
  exact ⟨hc, hw⟩

theorem decisionOf_mem {decision : Decision} {decisionId : UUID}
    (h : decision ∈ decisionOf s decisionId) :
    decision ∈ s.tables.decisions ∧ decision.id = decisionId := by
  obtain ⟨hd, hid⟩ := List.mem_filter.mp h
  exact ⟨hd, of_decide_eq_true hid⟩

theorem membersOf_mem {member : WorkspaceMember} {workspaceId : UUID} {roles : List WorkspaceRole}
    (h : member ∈ membersOf s workspaceId roles) : member ∈ s.tables.workspaceMembers ∧
      member.workspaceId = workspaceId ∧ member.role ∈ roles := by
  obtain ⟨hm, hp⟩ := List.mem_filter.mp h
  rw [Bool.and_eq_true, decide_eq_true_eq, List.contains_iff_mem] at hp
  exact ⟨hm, hp⟩

/-- A loader lists nothing else. -/
theorem eligible_of_mem_load {c : ReminderCandidate} {l : Loader} (h : c ∈ l.load s after before) :
    Eligible s c.reminder ∧ c.kind = l.kind := by
  cases l with
  | actions =>
      obtain ⟨action, ha, h⟩ := List.mem_flatMap.mp h
      split at h
      · rename_i hstatus
        obtain ⟨dueAt, hdue, h⟩ := List.mem_flatMap.mp h
        obtain ⟨decision, hd, rfl⟩ := List.mem_map.mp h
        obtain ⟨hd, hid⟩ := decisionOf_mem hd
        exact ⟨.action ha hstatus (mem_inWindow hdue).1 hd hid, rfl⟩
      · cases h
  | reviews =>
      obtain ⟨review, hr, h⟩ := List.mem_flatMap.mp h
      split at h
      · rename_i hstatus
        obtain ⟨dueAt, hdue, h⟩ := List.mem_flatMap.mp h
        obtain ⟨decision, hd, h⟩ := List.mem_flatMap.mp h
        obtain ⟨member, hm, rfl⟩ := List.mem_map.mp h
        obtain ⟨hd, hid⟩ := decisionOf_mem hd
        obtain ⟨hm, hw, hrole⟩ := membersOf_mem hm
        cases (mem_inWindow hdue).1
        exact ⟨.review hr hstatus hd hid hm hw hrole, rfl⟩
      · cases h
  | decisions =>
      obtain ⟨decision, hd, h⟩ := List.mem_flatMap.mp h
      split at h
      · rename_i hstatus
        obtain ⟨dueAt, hdue, h⟩ := List.mem_flatMap.mp h
        obtain ⟨member, hm, rfl⟩ := List.mem_map.mp h
        obtain ⟨hm, hw, hrole⟩ := membersOf_mem hm
        exact ⟨.decision hd hstatus (mem_inWindow hdue).1 hm hw hrole, rfl⟩
      · cases h
  | voting =>
      obtain ⟨session, hs, h⟩ := List.mem_flatMap.mp h
      split at h
      · rename_i hstatus
        obtain ⟨dueAt, hdue, h⟩ := List.mem_flatMap.mp h
        obtain ⟨decision, hd, h⟩ := List.mem_flatMap.mp h
        obtain ⟨voter, hv, rfl⟩ := List.mem_map.mp h
        obtain ⟨hd, hid⟩ := decisionOf_mem hd
        obtain ⟨hv, hsession⟩ := List.mem_filter.mp hv
        exact ⟨.voting hs hstatus (mem_inWindow hdue).1 hd hid hv (of_decide_eq_true hsession), rfl⟩
      · cases h

theorem Loader.mem_loaders (l : Loader) : l ∈ loaders := by
  cases l <;> decide

theorem Loader.kind_ne_mention (l : Loader) : l.kind ≠ .mention := by
  cases l <;> decide

end NotificationRepository

/-- Some loader looks for it. -/
theorem Eligible.loader {s : ReminderSources} {r : Reminder} (h : Eligible s r) :
    ∃ l : NotificationRepository.Loader, l.kind = r.kind := by
  cases h with
  | action => exact ⟨.actions, rfl⟩
  | review => exact ⟨.reviews, rfl⟩
  | decision => exact ⟨.decisions, rfl⟩
  | voting => exact ⟨.voting, rfl⟩

open NotificationRepository in
/-- The loaders decide who is due a reminder. -/
theorem eligible_iff {s : ReminderSources} {r : Reminder} : Eligible s r ↔
    ∃ l ∈ loaders, ∃ c ∈ l.load s (r.dueAt - 1) r.dueAt, c.reminder = r := by
  constructor
  · intro h
    obtain ⟨l, hl⟩ := h.loader
    exact ⟨l, l.mem_loaders, mem_load h hl (Int.sub_one_lt_iff.mpr le_rfl) le_rfl⟩
  · rintro ⟨l, -, c, hc, rfl⟩
    exact (eligible_of_mem_load hc).1

instance (s : ReminderSources) (r : Reminder) : Decidable (Eligible s r) :=
  decidable_of_iff _ eligible_iff.symm

end ForkRoom
