/-
# `Proof.Inbox` — when the two inboxes agree

Every operation on comments and every one of `MentionService` keeps the two `read_at` of a
mention in step (`Linked.reread`, `Synced.exec`).  What does not is

    NotificationService   reading the unread notification of a mention
    ProposalService       deleting what an active mention refers to
    DecisionService       likewise

and a run without these keeps the inboxes in agreement (`inboxes_agree_iff`).
-/
import ForkRoom.Service.Inbox
import ForkRoom.Proof.Mentions

namespace ForkRoom

open Rows

/-! ## The operations -/

inductive InboxOp where
  | comment (op : CommentOp)
  | markMentionRead (user : User) (workspaceId mentionId : UUID) (now : Datetime)
  | markMentionUnread (user : User) (workspaceId mentionId : UUID)
  | markAllMentionsRead (user : User) (workspaceId : UUID) (now : Datetime)
  | markNotificationRead (user : User) (notificationId : UUID) (now : Datetime)
  | markAllNotificationsRead (user : User) (now : Datetime)
  | deleteProposal (user : User) (workspaceId decisionId proposalId : UUID)
  | deleteDecision (user : User) (workspaceId decisionId : UUID)

/-- An operation that fails is rolled back. -/
def CommentTables.orElse (t : CommentTables) (r : Except InboxError CommentTables) :
    CommentTables :=
  match r with
  | .ok t' => t'
  | .error _ => t

/-- The request is carried out on the database. -/
def succeeds (db : Db) (p : Query (Outcome Unit)) : Bool :=
  match (Optimistic.Request.exec Db.commit p db).1 with
  | .ok _ => true
  | .error _ => false

/-- The rows that a deletion takes with it, if it goes through. -/
def InboxOp.deletes (db : Db) : InboxOp → Option Deleted
  | deleteProposal user w d p =>
      if succeeds db (ProposalService.delete user w d p) then some (.ofProposal db p) else none
  | deleteDecision user w d =>
      if succeeds db (DecisionService.delete user w d) then some (.ofDecision db d) else none
  | _ => none

def InboxOp.exec (db : Db) (t : CommentTables) : InboxOp → CommentTables
  | comment op => (op.exec db t).2
  | markMentionRead user w m now => t.orElse (MentionService.markRead user w m now db t)
  | markMentionUnread user w m => t.orElse (MentionService.markUnread user w m db t)
  | markAllMentionsRead user w now => t.orElse (MentionService.markAllRead user w now db t)
  | markNotificationRead user n now => t.orElse (NotificationService.markRead user n now t)
  | markAllNotificationsRead user now => NotificationService.markAllRead user now t
  | op => (op.deletes db).elim t t.cascade

/-- An operation on the workspaces as they are at the time, or one that is rolled back. -/
structure InboxAction where
  db : Db
  op : InboxOp
  failed : Bool

def CommentTables.act (t : CommentTables) (a : InboxAction) : Option CommentTables :=
  some (if a.failed then t else a.op.exec a.db t)

/-- The two inboxes tell the same of every mention. -/
def CommentTables.Agree (t : CommentTables) : Prop :=
  ∀ n ∈ t.notifications, n.kind = .mention →
    ∃ m ∈ t.mentions, m.id = n.sourceId ∧ m.deletedAt = none ∧
      m.mentionedUserId = n.recipientId ∧ (n.readAt = none ↔ m.readAt = none)

/-- The operation reads no unread notification of a mention, and deletes nothing that an
active mention refers to. -/
def InboxOp.Paired (db : Db) (t : CommentTables) : InboxOp → Prop
  | markNotificationRead user id _ => ∀ n ∈ t.notifications, n.id = id → n.recipientId = user.id →
      n.kind = .mention → n.readAt ≠ none
  | markAllNotificationsRead user _ => ∀ n ∈ t.notifications, n.recipientId = user.id →
      n.kind = .mention → n.readAt ≠ none
  | op => ∀ x ∈ op.deletes db, ∀ m ∈ t.mentions, m.deletedAt = none → x.takes t m = false

/-! ## Reading -/

section
variable {t : CommentTables}

/-- A notification of an active mention is for the one who is mentioned. -/
theorem Linked.recipient (h : Linked t) {n : InboxNotification} {m : Mention}
    (hn : n ∈ t.notifications) (hkind : n.kind = .mention) (hm : m ∈ t.mentions)
    (hid : m.id = n.sourceId) (hactive : m.deletedAt = none) :
    n.recipientId = m.mentionedUserId := by
  obtain ⟨n', hn', hto⟩ := h.announced m hm hactive
  have hmem : n ∈ t.notifications.filter (InboxNotification.of m.id) :=
    List.mem_filter.mpr ⟨hn, InboxNotification.of_iff.mpr ⟨hkind, hid.symm⟩⟩
  rw [hn', List.mem_singleton] at hmem
  rw [hmem, hto]

theorem Linked.agree (h : Linked t) : t.Agree := by
  intro n hn hkind
  obtain ⟨-, m, hm, hid, hactive, hread⟩ := h.sources n hn hkind
  exact ⟨m, hm, hid, hactive, (h.recipient hn hkind hm hid hactive).symm, hread⟩

/-- Setting `read_at` in both tables, alike for a mention and its notification. -/
theorem Linked.reread {f : Mention → Mention} {g : InboxNotification → InboxNotification}
    (h : Linked t) (hf : ∀ m, f m = { m with readAt := (f m).readAt })
    (hg : ∀ n, g n = { n with readAt := (g n).readAt })
    (hread : ∀ n ∈ t.notifications, n.kind = .mention → ∀ m ∈ t.mentions, m.id = n.sourceId →
      m.deletedAt = none → n.recipientId = m.mentionedUserId → (n.readAt = none ↔ m.readAt = none) →
      ((g n).readAt = none ↔ (f m).readAt = none)) :
    Linked { t with mentions := t.mentions.map f, notifications := t.notifications.map g } := by
  have hmentions : ∀ {β : Type} (p : Mention → β), (∀ m r, p { m with readAt := r } = p m) →
      (t.mentions.map f).map p = t.mentions.map p := by
    intro β p hp
    rw [List.map_map]
    refine List.map_congr_left fun m _ => ?_
    rw [Function.comp, hf m, hp]
  have hkeys : (t.notifications.map g).map (fun n => n.id) = t.notifications.map fun n => n.id := by
    rw [List.map_map]
    refine List.map_congr_left fun n _ => ?_
    rw [Function.comp, hg n]
  refine ⟨?_, ?_, ?_, ?_, ?_, ?_⟩
  · exact Eq.subst (motive := List.Nodup) (hmentions Mention.id fun _ _ => rfl).symm h.keys
  · exact Eq.subst (motive := List.Nodup) hkeys.symm h.notificationKeys
  · exact Eq.subst (motive := List.Nodup)
      (hmentions (fun m => (m.commentId, m.mentionedUserId)) fun _ _ => rfl).symm h.pairs
  · intro m' hm' hactive
    obtain ⟨m, hm, rfl⟩ := List.mem_map.mp hm'
    rw [hf m] at hactive ⊢
    obtain ⟨n, hn, hto⟩ := h.announced m hm hactive
    refine ⟨g n, ?_, by rw [hg n]; exact hto⟩
    rw [List.filter_map, ← List.map_singleton, ← hn]
    refine congrArg (List.map g) (List.filter_congr fun n' _ => ?_)
    rw [Function.comp, hg n']
    rfl
  · intro n' hn' hkind
    obtain ⟨n, hn, rfl⟩ := List.mem_map.mp hn'
    have hkind' : n.kind = .mention := by
      rw [hg n] at hkind
      exact hkind
    obtain ⟨hkey, m, hm, hid, hactive, hsame⟩ := h.sources n hn hkind'
    have hto := h.recipient hn hkind' hm hid hactive
    refine ⟨by rw [hg n]; exact hkey, f m, List.mem_map_of_mem hm, ?_, ?_,
      hread n hn hkind' m hm hid hactive hto hsame⟩
    · rw [hf m, hg n]
      exact hid
    · rw [hf m]
      exact hactive
  · intro n' hn' hkind id
    obtain ⟨n, hn, rfl⟩ := List.mem_map.mp hn'
    rw [hg n] at hkind ⊢
    exact h.others n hn hkind id

theorem Synced.reread {f : Mention → Mention} {g : InboxNotification → InboxNotification}
    (h : Synced t) (hf : ∀ m, f m = { m with readAt := (f m).readAt })
    (hg : ∀ n, g n = { n with readAt := (g n).readAt })
    (hread : ∀ n ∈ t.notifications, n.kind = .mention → ∀ m ∈ t.mentions, m.id = n.sourceId →
      m.deletedAt = none → n.recipientId = m.mentionedUserId → (n.readAt = none ↔ m.readAt = none) →
      ((g n).readAt = none ↔ (f m).readAt = none)) :
    Synced { t with mentions := t.mentions.map f, notifications := t.notifications.map g } := by
  have hmentions : ∀ c u, CommentTables.Mentions
      { t with mentions := t.mentions.map f, notifications := t.notifications.map g } c u ↔
        t.Mentions c u := by
    intro c u
    constructor
    · rintro ⟨m', hm', hc, hu, hactive⟩
      obtain ⟨m, hm, rfl⟩ := List.mem_map.mp hm'
      rw [hf m] at hc hu hactive
      exact ⟨m, hm, hc, hu, hactive⟩
    · rintro ⟨m, hm, hc, hu, hactive⟩
      refine ⟨f m, List.mem_map_of_mem hm, ?_⟩
      rw [hf m]
      exact ⟨hc, hu, hactive⟩
  refine ⟨h.linked.reread hf hg hread, h.comments, ?_, ?_⟩
  · exact fun c u hu => h.placed c u ((hmentions c u).mp hu)
  · intro c hc s
    simp only [hmentions]
    exact h.nodes c hc s

theorem Synced.setRead {mention : Mention} {readAt : Option Datetime} (h : Synced t)
    (hmention : mention ∈ t.mentions) : Synced (MentionRepository.setRead mention readAt t) := by
  refine h.reread (fun m => ?_) (fun n => ?_) ?_
  · split <;> rfl
  · split <;> rfl
  intro n hn hkind m hm hid hactive hto hsame
  by_cases hm' : m.id = mention.id
  · have hown : m = mention := h.linked.eq_of_id hm hmention hm'
    rw [if_pos hm', if_pos ⟨hkind, hid.symm.trans hm', hown ▸ hto⟩]
  · rw [if_neg hm', if_neg fun hn => hm' (hid.trans hn.2.1)]
    exact hsame

theorem Synced.markAllRead {workspaceId userId : UUID} {now : Datetime} (h : Synced t) :
    Synced (MentionRepository.markAllRead workspaceId userId now t) := by
  refine h.reread (fun m => ?_) (fun n => ?_) ?_
  · split <;> rfl
  · split <;> rfl
  intro n hn hkind m hm hid hactive hto hsame
  by_cases hm' : m.id ∈ MentionRepository.unreadIds workspaceId userId t
  · obtain ⟨x, hx, hxm⟩ := List.mem_map.mp hm'
    obtain ⟨hx, hunread⟩ := List.mem_filter.mp hx
    have hown : x = m := h.linked.eq_of_id hx hm hxm
    simp only [Bool.and_eq_true, decide_eq_true_eq] at hunread
    have huser : n.recipientId = userId := hto.trans (hown ▸ hunread.1.1.2)
    rw [if_pos hm', if_pos ⟨hkind, hid ▸ hm', huser⟩]
  · rw [if_neg hm', if_neg fun hn => hm' (hid ▸ hn.2.1)]
    exact hsame

/-- What only touches the notifications of something else. -/
theorem Synced.notified {g : InboxNotification → InboxNotification} (h : Synced t)
    (hg : ∀ n, g n = { n with readAt := (g n).readAt })
    (hmentions : ∀ n ∈ t.notifications, n.kind = .mention → g n = n) :
    Synced { t with notifications := t.notifications.map g } := by
  have hread := h.reread (f := id) (fun m => rfl) hg fun n hn hkind m hm _ _ _ hsame => by
    rw [hmentions n hn hkind]
    exact hsame
  rw [List.map_id] at hread
  exact hread

/-! ## Deleting -/

/-- A deletion that takes no active mention. -/
theorem Synced.cascade {x : Deleted} (h : Synced t)
    (hx : ∀ m ∈ t.mentions, m.deletedAt = none → x.takes t m = false) : Synced (t.cascade x) := by
  have hkept : ∀ m, m.deletedAt = none → (m ∈ (t.cascade x).mentions ↔ m ∈ t.mentions) := by
    intro m hactive
    refine ⟨List.mem_of_mem_filter, fun hm => List.mem_filter.mpr ⟨hm, ?_⟩⟩
    rw [hx m hm hactive]
    rfl
  have hmentions : ∀ c u, (t.cascade x).Mentions c u ↔ t.Mentions c u := by
    intro c u
    refine exists_congr fun m => ⟨fun ⟨hm, hc, hu, hactive⟩ => ?_, fun ⟨hm, hc, hu, hactive⟩ => ?_⟩
    · exact ⟨(hkept m hactive).mp hm, hc, hu, hactive⟩
    · exact ⟨(hkept m hactive).mpr hm, hc, hu, hactive⟩
  refine ⟨⟨?_, h.linked.notificationKeys, ?_, ?_, ?_, h.linked.others⟩, ?_, ?_, ?_⟩
  · exact h.linked.keys.sublist (List.filter_sublist.map _)
  · exact h.linked.pairs.sublist (List.filter_sublist.map _)
  · exact fun m hm hactive => h.linked.announced m (List.mem_of_mem_filter hm) hactive
  · intro n hn hkind
    obtain ⟨hkey, m, hm, hid, hactive, hread⟩ := h.linked.sources n hn hkind
    exact ⟨hkey, m, (hkept m hactive).mpr hm, hid, hactive, hread⟩
  · exact h.comments.sublist (List.filter_sublist.map _)
  · intro c u hu
    obtain ⟨m, hm, hc, -, hactive⟩ := (hmentions c u).mp hu
    obtain ⟨y, hy, hid⟩ := h.placed c u ((hmentions c u).mp hu)
    refine ⟨y, List.mem_filter.mpr ⟨hy, ?_⟩, hid⟩
    -- otherwise the mention would go with its comment
    by_contra hreached
    rw [Bool.not_eq_true', Bool.not_eq_false] at hreached
    have htaken : x.takes t m = true := by
      refine Bool.or_eq_true _ _ |>.mpr (Or.inr (List.any_eq_true.mpr ⟨y, hy, ?_⟩))
      rw [Bool.and_eq_true, decide_eq_true_eq]
      exact ⟨hid.trans hc.symm, hreached⟩
    rw [hx m hm hactive] at htaken
    nomatch htaken
  · intro c hc s
    simp only [hmentions]
    exact h.nodes c (List.mem_of_mem_filter hc) s

end

/-! ## One operation -/

section
variable {t : CommentTables} {db : Db} {user : User}

/-- Whatever an operation makes of the tables, it is that or nothing. -/
theorem Synced.orElse {r : Except InboxError CommentTables} (h : Synced t)
    (hr : ∀ t', r = .ok t' → Synced t') : Synced (t.orElse r) := by
  cases r with
  | error e => exact h
  | ok t' => exact hr t' rfl

theorem MentionService.setRead_ok {workspaceId mentionId : UUID} {readAt : Option Datetime}
    {t' : CommentTables}
    (h : MentionService.setRead user workspaceId mentionId readAt db t = .ok t') :
    ∃ mention ∈ t.mentions, t' = MentionRepository.setRead mention readAt t := by
  unfold MentionService.setRead at h
  cases hm : MentionService.requireMembership user.id workspaceId db with
  | error e =>
      rw [hm] at h
      nomatch h
  | ok _ =>
      rw [hm] at h
      cases ho : MentionRepository.getOwned workspaceId mentionId user.id t with
      | none =>
          simp only [ho] at h
          nomatch h
      | some mention =>
          simp only [ho] at h
          cases h
          exact ⟨mention, List.mem_of_find?_eq_some ho, rfl⟩

theorem MentionService.markAllRead_ok {workspaceId : UUID} {now : Datetime} {t' : CommentTables}
    (h : MentionService.markAllRead user workspaceId now db t = .ok t') :
    t' = MentionRepository.markAllRead workspaceId user.id now t := by
  unfold MentionService.markAllRead at h
  cases hm : MentionService.requireMembership user.id workspaceId db with
  | error e =>
      rw [hm] at h
      nomatch h
  | ok _ =>
      rw [hm] at h
      exact (Except.ok.inj h).symm

theorem NotificationService.markRead_ok {id : UUID} {now : Datetime} {t' : CommentTables}
    (h : NotificationService.markRead user id now t = .ok t') :
    ∃ n ∈ t.notifications, n.id = id ∧ n.recipientId = user.id ∧
      t' = NotificationRepository.markRead n now t := by
  unfold NotificationService.markRead at h
  cases ho : NotificationRepository.getOwnNotification id user.id t with
  | none =>
      rw [ho] at h
      nomatch h
  | some n =>
      rw [ho] at h
      have hn := List.find?_some ho
      simp only [Bool.and_eq_true, decide_eq_true_eq] at hn
      exact ⟨n, List.mem_of_find?_eq_some ho, hn.1, hn.2, (Except.ok.inj h).symm⟩

theorem Linked.eq_of_notificationId (h : Linked t) {n n' : InboxNotification}
    (hn : n ∈ t.notifications) (hn' : n' ∈ t.notifications) (hid : n.id = n'.id) : n = n' :=
  eq_of_key h.notificationKeys hn hn' hid

/-- **An operation that meets the condition keeps the inboxes in step.** -/
theorem Synced.execInbox {op : InboxOp} (h : Synced t) (hop : op.Paired db t) :
    Synced (op.exec db t) := by
  cases op with
  | comment op => exact (h.exec db op).1
  | markMentionRead u w m now =>
      refine h.orElse fun t' ht' => ?_
      obtain ⟨mention, hmention, rfl⟩ := MentionService.setRead_ok ht'
      exact h.setRead hmention
  | markMentionUnread u w m =>
      refine h.orElse fun t' ht' => ?_
      obtain ⟨mention, hmention, rfl⟩ := MentionService.setRead_ok ht'
      exact h.setRead hmention
  | markAllMentionsRead u w now =>
      refine h.orElse fun t' ht' => ?_
      rw [MentionService.markAllRead_ok ht']
      exact h.markAllRead
  | markNotificationRead u id now =>
      refine h.orElse fun t' ht' => ?_
      obtain ⟨n, hn, hid, hto, rfl⟩ := NotificationService.markRead_ok ht'
      unfold NotificationRepository.markRead
      split
      · rename_i hunread
        refine h.notified (fun n' => by split <;> rfl) fun n' hn' hkind => if_neg fun he => ?_
        have hown : n' = n := h.linked.eq_of_notificationId hn' hn he
        exact hop n hn hid hto (hown ▸ hkind) hunread
      · exact h
  | markAllNotificationsRead u now =>
      refine h.notified (fun n' => by split <;> rfl) fun n' hn' hkind => if_neg fun he => ?_
      exact hop n' hn' he.1 hkind he.2
  | deleteProposal u w d p =>
      cases hd : (InboxOp.deleteProposal u w d p).deletes db with
      | none =>
          simp only [InboxOp.exec, hd]
          exact h
      | some x =>
          simp only [InboxOp.exec, hd]
          exact h.cascade (hop x hd)
  | deleteDecision u w d =>
      cases hd : (InboxOp.deleteDecision u w d).deletes db with
      | none =>
          simp only [InboxOp.exec, hd]
          exact h
      | some x =>
          simp only [InboxOp.exec, hd]
          exact h.cascade (hop x hd)

/-- The mention of a notification, if the inboxes agree afterwards as well. -/
theorem Synced.read_both {t' : CommentTables} {n n' : InboxNotification} (h : Synced t)
    (hagree : t'.Agree) (hmentions : ∀ m ∈ t'.mentions, m ∈ t.mentions) (hn : n ∈ t.notifications)
    (hkind : n.kind = .mention) (hn' : n' ∈ t'.notifications) (hkind' : n'.kind = .mention)
    (hsource : n'.sourceId = n.sourceId) : ∃ m ∈ t'.mentions, m.id = n.sourceId ∧
      (n'.readAt = none ↔ n.readAt = none) := by
  obtain ⟨m', hm', hid', -, -, hread'⟩ := hagree n' hn' hkind'
  obtain ⟨-, m, hm, hid, -, hread⟩ := h.linked.sources n hn hkind
  have hown : m' = m :=
    h.linked.eq_of_id (hmentions m' hm') hm (hid'.trans (hsource.trans hid.symm))
  exact ⟨m', hm', hid'.trans hsource, hread'.trans (hown ▸ hread.symm)⟩

/-- A deletion after which the inboxes agree has taken no active mention. -/
theorem Synced.takes_none {x : Deleted} (h : Synced t) (hagree : (t.cascade x).Agree) :
    ∀ m ∈ t.mentions, m.deletedAt = none → x.takes t m = false := by
  intro m hm hactive
  obtain ⟨n, hfilter, -⟩ := h.linked.announced m hm hactive
  have hmem : n ∈ t.notifications.filter (InboxNotification.of m.id) :=
    hfilter ▸ List.mem_singleton_self n
  obtain ⟨hn, hof⟩ := List.mem_filter.mp hmem
  obtain ⟨hkind, hsource⟩ := InboxNotification.of_iff.mp hof
  obtain ⟨m', hm', hid, -⟩ := h.read_both hagree (fun m hm => List.mem_of_mem_filter hm) hn hkind
    hn hkind rfl
  obtain ⟨hm', hkept⟩ := List.mem_filter.mp hm'
  rw [← h.linked.eq_of_id hm' hm (hid.trans hsource)]
  simpa using hkept

/-- **The condition is exact.**  An operation that does not meet it leaves the inboxes in
disagreement. -/
theorem Synced.agree_iff {op : InboxOp} (h : Synced t) :
    (op.exec db t).Agree ↔ op.Paired db t := by
  refine ⟨fun hagree => ?_, fun hop => (h.execInbox hop).linked.agree⟩
  cases op with
  | comment | markMentionRead | markMentionUnread | markAllMentionsRead =>
      exact fun x hx => nomatch hx
  | markNotificationRead u id now =>
      intro n hn hid hto hkind hunread
      have hfound : NotificationService.markRead u id now t =
          .ok (NotificationRepository.markRead n now t) := by
        unfold NotificationService.markRead
        cases ho : NotificationRepository.getOwnNotification id u.id t with
        | none =>
            have hnone := List.find?_eq_none.mp ho n hn
            simp [hid, hto] at hnone
        | some n' =>
            have hn' := List.find?_some ho
            simp only [Bool.and_eq_true, decide_eq_true_eq] at hn'
            rw [h.linked.eq_of_notificationId (List.mem_of_find?_eq_some ho) hn
              (hn'.1.trans hid.symm)]
      simp only [InboxOp.exec, hfound, CommentTables.orElse, NotificationRepository.markRead,
        if_pos hunread] at hagree
      have hmem := List.mem_map_of_mem (f := fun n' : InboxNotification =>
        if n'.id = n.id then { n' with readAt := some now } else n') hn
      rw [if_pos rfl] at hmem
      obtain ⟨-, -, -, hread⟩ := h.read_both hagree (fun m hm => hm) hn hkind hmem hkind rfl
      nomatch hread.mpr hunread
  | markAllNotificationsRead u now =>
      intro n hn hto hkind hunread
      have hmem := List.mem_map_of_mem (f := fun n' : InboxNotification =>
        if n'.recipientId = u.id ∧ n'.readAt = none then { n' with readAt := some now } else n') hn
      rw [if_pos ⟨hto, hunread⟩] at hmem
      obtain ⟨-, -, -, hread⟩ := h.read_both hagree (fun m hm => hm) hn hkind hmem hkind rfl
      nomatch hread.mpr hunread
  | deleteProposal u w d p =>
      intro x hx
      simp only [InboxOp.exec, Option.mem_def.mp hx] at hagree
      exact h.takes_none hagree
  | deleteDecision u w d =>
      intro x hx
      simp only [InboxOp.exec, Option.mem_def.mp hx] at hagree
      exact h.takes_none hagree

/-! ## The counters -/

/-- Both inboxes count the same unread mentions. -/
theorem Synced.unread_eq (h : Synced t) (userId : UUID) :
    MentionRepository.unreadCount userId t =
      NotificationRepository.unreadCountOf .mention userId t := by
  unfold MentionRepository.unreadCount NotificationRepository.unreadCountOf
  rw [← List.length_map Mention.id, ← List.length_map fun n : InboxNotification => n.sourceId]
  refine List.Perm.length_eq ((List.perm_ext_iff_of_nodup ?_ ?_).mpr fun id => ?_)
  · exact h.linked.keys.sublist (List.filter_sublist.map _)
  · refine List.Nodup.map_on ?_ ((List.Nodup.of_map _ h.linked.notificationKeys).filter _)
    intro n hn n' hn' hsame
    simp only [List.mem_filter, Bool.and_eq_true, decide_eq_true_eq] at hn hn'
    obtain ⟨-, m, hm, hid, hactive, -⟩ := h.linked.sources n hn.1 hn.2.1.1
    obtain ⟨x, hx, -⟩ := h.linked.announced m hm hactive
    have hone : ∀ n ∈ t.notifications, n.kind = .mention → n.sourceId = m.id → n = x := by
      intro n hn hkind hs
      have hmem := List.mem_filter.mpr ⟨hn, InboxNotification.of_iff.mpr ⟨hkind, hs⟩⟩
      rw [hx] at hmem
      exact List.mem_singleton.mp hmem
    rw [hone n hn.1 hn.2.1.1 hid.symm, hone n' hn'.1 hn'.2.1.1 (hsame.symm.trans hid.symm)]
  · simp only [List.mem_map, List.mem_filter, Bool.and_eq_true, decide_eq_true_eq,
      Option.isNone_iff_eq_none]
    constructor
    · rintro ⟨m, ⟨hm, ⟨⟨huser, hunread⟩, hactive⟩, -⟩, rfl⟩
      obtain ⟨n, hfilter, hto⟩ := h.linked.announced m hm hactive
      have hmem : n ∈ t.notifications.filter (InboxNotification.of m.id) :=
        hfilter ▸ List.mem_singleton_self n
      obtain ⟨hn, hof⟩ := List.mem_filter.mp hmem
      obtain ⟨hkind, hsource⟩ := InboxNotification.of_iff.mp hof
      obtain ⟨-, m', hm', hid, -, hread⟩ := h.linked.sources n hn hkind
      rw [h.linked.eq_of_id hm' hm (hid.trans hsource)] at hread
      exact ⟨n, ⟨hn, ⟨hkind, hto.trans huser⟩, hread.mpr hunread⟩, hsource⟩
    · rintro ⟨n, ⟨hn, ⟨hkind, hto⟩, hunread⟩, rfl⟩
      obtain ⟨-, m, hm, hid, hactive, hread⟩ := h.linked.sources n hn hkind
      have huser := (h.linked.recipient hn hkind hm hid hactive).symm.trans hto
      obtain ⟨c, hc, hcomment⟩ := h.placed _ _ ⟨m, hm, rfl, rfl, hactive⟩
      have hmentioned : t.Mentions c.id m.mentionedUserId := ⟨m, hm, hcomment.symm, rfl, hactive⟩
      refine ⟨m, ⟨hm, ⟨⟨huser, hread.mp hunread⟩, hactive⟩, ?_⟩, hid⟩
      refine List.any_eq_true.mpr ⟨c, hc, ?_⟩
      rw [Bool.and_eq_true, decide_eq_true_eq, Option.isNone_iff_eq_none]
      exact ⟨hcomment, ((h.nodes c hc _).mp ⟨_, hmentioned, rfl⟩).1⟩

end

/-! ## Runs -/

/-- Each step is rolled back or meets the condition. -/
def InPairs (t : CommentTables) (a : InboxAction) : Prop := a.failed = true ∨ a.op.Paired a.db t

theorem Synced.runInPairs {t₀ t : CommentTables} (h : Synced t₀)
    (hrun : Machine.Run CommentTables.act InPairs t₀ t) : Synced t := by
  refine hrun.invariant (fun t a t' hI hok hstep => ?_) h
  cases hstep
  cases hf : a.failed with
  | true => exact hI
  | false =>
      rcases hok with hfailed | hop
      · rw [hf] at hfailed
        nomatch hfailed
      · exact hI.execInbox hop

/-- **When the two inboxes agree.**  In a run whose operations all meet the condition, every
notification of a mention is that of an active mention of its recipient, read or unread
like it, and both count the same unread mentions; and any further operation that is carried
out leaves it so exactly if it meets the condition. -/
theorem inboxes_agree_iff {t₀ t : CommentTables} (hcomments : t₀.comments = [])
    (hmentions : t₀.mentions = []) (hkeys : PrimaryKey t₀.notifications)
    (hreminders : ∀ n ∈ t₀.notifications,
      ∃ r : Reminder, r.kind ≠ .mention ∧ n.kind = r.kind ∧ n.idempotencyKey = r.key)
    (hrun : Machine.Run CommentTables.act InPairs t₀ t) :
    t.Agree ∧
    (∀ userId, MentionRepository.unreadCount userId t =
      NotificationRepository.unreadCountOf .mention userId t) ∧
    ∀ (db : Db) (op : InboxOp), (op.exec db t).Agree ↔ op.Paired db t := by
  have h : Synced t := (Synced.initial hcomments hmentions hkeys hreminders).runInPairs hrun
  exact ⟨h.linked.agree, h.unread_eq, fun db op => h.agree_iff⟩

instance (db : Db) (t : CommentTables) : ∀ op : InboxOp, Decidable (op.Paired db t)
  | .markNotificationRead .. => inferInstanceAs (Decidable (∀ n ∈ t.notifications, _))
  | .markAllNotificationsRead .. => inferInstanceAs (Decidable (∀ n ∈ t.notifications, _))
  | .comment .. | .markMentionRead .. | .markMentionUnread .. | .markAllMentionsRead .. =>
      isTrue fun _ hx => nomatch hx
  | .deleteProposal user w d p =>
      inferInstanceAs (Decidable (∀ x ∈ (InboxOp.deleteProposal user w d p).deletes db, _))
  | .deleteDecision user w d =>
      inferInstanceAs (Decidable (∀ x ∈ (InboxOp.deleteDecision user w d).deletes db, _))

instance (t : CommentTables) (a : InboxAction) : Decidable (InPairs t a) :=
  inferInstanceAs (Decidable (_ ∨ _))

instance (t : CommentTables) : Decidable t.Agree :=
  inferInstanceAs (Decidable (∀ n ∈ t.notifications, _))

namespace Sample

/-- A draft proposal beside the submitted ones. -/
def proposed : Db :=
  (Op.exec dep (.createProposal (env 14 32) ada 10 20 ⟨"Third", none, none⟩) drafted).2

/-- Ada mentions Bob in a comment on the draft. -/
def mentionsBob : InboxAction :=
  ⟨proposed, .comment (.create (commentEnv 20 100) ada 10 20
    ⟨"Look", mentioning [2], some 32, none⟩), false⟩

/-- Bob reads it among the mentions, and then reads all notifications. -/
def readInPairs : List InboxAction :=
  [mentionsBob, ⟨proposed, .markMentionRead bob 10 102 21, false⟩,
    ⟨proposed, .markAllNotificationsRead bob 22, false⟩]

/-- He reads it among the notifications. -/
def readOnce : List InboxAction :=
  [mentionsBob, ⟨proposed, .markNotificationRead bob 102 21, false⟩]

/-- Ada deletes the draft. -/
def withdrawn : List InboxAction := [mentionsBob, ⟨proposed, .deleteProposal ada 10 20 32, false⟩]

end Sample

theorem inboxes_agree_iff_sample : ∃ t : CommentTables,
    t.mentions.map (fun m => (m.mentionedUserId, m.readAt)) = [(2, some 21)] ∧ t.Agree := by
  obtain ⟨t, hplay, hrows⟩ := Option.map_eq_some_iff.mp
    (show (Machine.play CommentTables.act InPairs Sample.uncommented Sample.readInPairs).map
        (fun t => t.mentions.map fun m => (m.mentionedUserId, m.readAt)) =
      some [(2, some 21)] by decide +kernel)
  have hreminders : ∀ n ∈ Sample.uncommented.notifications,
      ∃ r : Reminder, r.kind ≠ .mention ∧ n.kind = r.kind ∧ n.idempotencyKey = r.key :=
    fun n hn => nomatch hn
  have hkeys : PrimaryKey Sample.uncommented.notifications := List.nodup_nil
  have hrun : Machine.Run CommentTables.act InPairs Sample.uncommented t :=
    Machine.Run.of_play hplay
  exact ⟨t, hrows, (inboxes_agree_iff rfl rfl hkeys hreminders hrun).1⟩

/-- A mention read among the notifications stays unread among the mentions; and the
notification of a mention that is deleted with a proposal stays. -/
theorem inboxes_disagree :
    (∃ t, Machine.Run CommentTables.act (fun _ _ => True) Sample.uncommented t ∧ ¬ t.Agree ∧
      MentionRepository.unreadCount 2 t = 1 ∧
      NotificationRepository.unreadCountOf .mention 2 t = 0) ∧
    ∃ t, Machine.Run CommentTables.act (fun _ _ => True) Sample.uncommented t ∧ ¬ t.Agree ∧
      MentionRepository.unreadCount 2 t = 0 ∧
      NotificationRepository.unreadCountOf .mention 2 t = 1 := by
  constructor
  · obtain ⟨t, hplay, h⟩ := Option.map_eq_some_iff.mp
      (show (Machine.play CommentTables.act (fun _ _ => True) Sample.uncommented
          Sample.readOnce).map (fun t => (decide t.Agree, MentionRepository.unreadCount 2 t,
            NotificationRepository.unreadCountOf .mention 2 t)) =
        some (false, 1, 0) by decide +kernel)
    obtain ⟨hagree, h⟩ := Prod.mk.inj h
    obtain ⟨hmentions, hnotifications⟩ := Prod.mk.inj h
    exact ⟨t, Machine.Run.of_play hplay, of_decide_eq_false hagree, hmentions, hnotifications⟩
  · obtain ⟨t, hplay, h⟩ := Option.map_eq_some_iff.mp
      (show (Machine.play CommentTables.act (fun _ _ => True) Sample.uncommented
          Sample.withdrawn).map (fun t => (decide t.Agree, MentionRepository.unreadCount 2 t,
            NotificationRepository.unreadCountOf .mention 2 t)) =
        some (false, 0, 1) by decide +kernel)
    obtain ⟨hagree, h⟩ := Prod.mk.inj h
    obtain ⟨hmentions, hnotifications⟩ := Prod.mk.inj h
    exact ⟨t, Machine.Run.of_play hplay, of_decide_eq_false hagree, hmentions, hnotifications⟩

end ForkRoom
