/-
# `Proof.Mentions` — mentions follow the comments

The three tables are tied together row by row (`Linked`): an active mention has one
notification, and what notifies of a mention notifies of an active one.  Taking a mention
out and putting one in both keep this, and change who is mentioned in the comment by that
one user.  A sync takes out those who are no longer in the body and puts in those who are
new there, so afterwards the active mentions are those of the body (`Linked.sync`).

A key can only be found taken by what already stands under it, and `Linked` says what that
is: the notification of another mention, or no mention at all.
-/
import ForkRoom.Service.Comment
import ForkRoom.Lib.Machine
import ForkRoom.System.Operations

namespace ForkRoom

open Rows MentionRepository

/-! ## Transactions that fail, if at all, for another reason -/

/-- One of the two unique constraints was found violated. -/
def CommentError.duplicate : CommentError → Bool
  | .integrity .uqMentionsCommentUser => true
  | .integrity .uqNotificationsIdempotencyKey => true
  | _ => false

/-- The transaction ends well, or with an error that is no duplicate. -/
def Safely {α : Type} (r : Except CommentError α) (P : α → Prop) : Prop :=
  match r with
  | .ok a => P a
  | .error e => e.duplicate = false

section
variable {α β : Type} {P Q : α → Prop} {r : Except CommentError α}

theorem Safely.bind {R : β → Prop} {f : α → Except CommentError β} (h : Safely r P)
    (hf : ∀ a, P a → Safely (f a) R) : Safely (r >>= f) R := by
  cases r with
  | error e => exact h
  | ok a => exact hf a h

theorem Safely.map {R : β → Prop} {f : α → β} (h : Safely r P) (hf : ∀ a, P a → R (f a)) :
    Safely (r.map f) R := by
  cases r with
  | error e => exact h
  | ok a => exact hf a h

theorem Safely.mono (h : Safely r P) (hPQ : ∀ a, P a → Q a) : Safely r Q := by
  cases r with
  | error e => exact h
  | ok a => exact hPQ a h

end

/-! ## The mentions of a body -/

/-- A field of an object. -/
def fieldOf (name : String) : Json → Option Json
  | .obj fields => (fields.find? fun f => f.1 = name).map Prod.snd
  | _ => none

/-- The `user_id` of a mention node. -/
def mentionedByNode (node : Json) : Option String :=
  match fieldOf "type" node, fieldOf "user_id" node with
  | some (.str "mention"), some (.str userId) => some userId
  | _, _ => none

/-- The `user_id`s of the mention nodes of a stored body. -/
def mentionedIn (structuredBody : Json) : List String :=
  match fieldOf "content" structuredBody with
  | some (.arr nodes) => nodes.filterMap mentionedByNode
  | _ => []

theorem mentionedByNode_canonical (users : List User) (node : CommentNode) :
    mentionedByNode (CommentService.canonicalNode users node) =
      match node with
      | .mention userId _ => some userId.str
      | .text _ => none := by
  cases node <;> rfl

theorem mem_mentionedUserIds {body : StructuredCommentBody} {u : UUID} :
    u ∈ CommentService.mentionedUserIds body ↔
      ∃ label, CommentNode.mention u label ∈ body.content := by
  rw [CommentService.mentionedUserIds, List.mem_dedup, List.mem_filterMap]
  constructor
  · rintro ⟨node, hnode, h⟩
    cases node with
    | text _ => cases h
    | mention v label =>
        cases h
        exact ⟨label, hnode⟩
  · rintro ⟨label, h⟩
    exact ⟨_, h, rfl⟩

/-- The stored body mentions those whom the request does. -/
theorem mem_mentionedIn {body : StructuredCommentBody} {users : List User} {s : String} :
    s ∈ mentionedIn (CommentService.canonicalStructuredBody body users) ↔
      ∃ u ∈ CommentService.mentionedUserIds body, u.str = s := by
  have hnodes : mentionedIn (CommentService.canonicalStructuredBody body users) =
      (body.content.map (CommentService.canonicalNode users)).filterMap mentionedByNode := rfl
  rw [hnodes, List.mem_filterMap]
  constructor
  · rintro ⟨node, hnode, h⟩
    obtain ⟨n, hn, rfl⟩ := List.mem_map.mp hnode
    rw [mentionedByNode_canonical] at h
    cases n with
    | text _ => cases h
    | mention u label => exact ⟨u, mem_mentionedUserIds.mpr ⟨label, hn⟩, Option.some.inj h⟩
  · rintro ⟨u, hu, rfl⟩
    obtain ⟨label, hn⟩ := mem_mentionedUserIds.mp hu
    exact ⟨_, List.mem_map_of_mem hn, mentionedByNode_canonical users _⟩

/-! ## Linked tables -/

/-- The notification of the mention. -/
def InboxNotification.of (mentionId : UUID) (n : InboxNotification) : Bool :=
  decide (n.kind = .mention) && decide (n.sourceId = mentionId)

theorem InboxNotification.of_iff {mentionId : UUID} {n : InboxNotification} :
    n.of mentionId = true ↔ n.kind = .mention ∧ n.sourceId = mentionId := by
  simp [InboxNotification.of]

/-- What no operation changes of a mention. -/
def Mention.identity (m : Mention) : UUID × UUID × UUID := (m.id, m.commentId, m.mentionedUserId)

structure Linked (t : CommentTables) : Prop where
  keys : PrimaryKey t.mentions
  notificationKeys : PrimaryKey t.notifications
  pairs : Unique (fun m : Mention => (m.commentId, m.mentionedUserId)) t.mentions
  /-- an active mention has one notification -/
  announced : ∀ m ∈ t.mentions, m.deletedAt = none →
    ∃ n, t.notifications.filter (InboxNotification.of m.id) = [n] ∧
      n.recipientId = m.mentionedUserId
  /-- what notifies of a mention notifies of an active one, read or unread like it -/
  sources : ∀ n ∈ t.notifications, n.kind = .mention →
    n.idempotencyKey = "mention:" ++ n.sourceId.str ∧
      ∃ m ∈ t.mentions, m.id = n.sourceId ∧ m.deletedAt = none ∧
        (n.readAt = none ↔ m.readAt = none)
  /-- no other notification has the key of a mention -/
  others : ∀ n ∈ t.notifications, n.kind ≠ .mention →
    ∀ id : UUID, n.idempotencyKey ≠ "mention:" ++ id.str

/-- The user has an active mention in the comment. -/
def CommentTables.Mentions (t : CommentTables) (commentId userId : UUID) : Prop :=
  ∃ m ∈ t.mentions, m.commentId = commentId ∧ m.mentionedUserId = userId ∧ m.deletedAt = none

section
variable {t t' : CommentTables} {x m : Mention} {n : InboxNotification}

theorem Linked.eq_of_id (h : Linked t) (hm : m ∈ t.mentions) (hx : x ∈ t.mentions)
    (hid : m.id = x.id) : m = x :=
  eq_of_key h.keys hm hx hid

/-- A removed mention has no notification. -/
theorem Linked.silent (h : Linked t) (hm : m ∈ t.mentions) (hdeleted : m.deletedAt ≠ none) :
    t.notifications.filter (InboxNotification.of m.id) = [] := by
  refine List.filter_eq_nil_iff.mpr fun n hn hof => ?_
  obtain ⟨hkind, hsource⟩ := InboxNotification.of_iff.mp hof
  obtain ⟨-, m', hm', hid, hactive, -⟩ := h.sources n hn hkind
  exact hdeleted (h.eq_of_id hm' hm (hid.trans hsource) ▸ hactive)

/-- Nor is there one with its key. -/
theorem Linked.key_free (h : Linked t) {id : UUID}
    (hid : ∀ m ∈ t.mentions, m.id = id → m.deletedAt ≠ none) :
    "mention:" ++ id.str ∉ t.notifications.map fun n => n.idempotencyKey := by
  intro hmem
  obtain ⟨n, hn, hkey⟩ := List.mem_map.mp hmem
  by_cases hkind : n.kind = .mention
  · obtain ⟨hown, m, hm, hsource, hactive, -⟩ := h.sources n hn hkind
    have hsame : n.sourceId = id :=
      UUID.str_inj (String.append_right_inj "mention:" |>.mp (hown.symm.trans hkey))
    exact hid m hm (hsource.trans hsame) hactive
  · exact h.others n hn hkind id hkey

/-! ## One mention comes or goes -/

/-- The rows after the mention `row` has come in or has been written anew. -/
def Takes (rows rows' : List Mention) (row : Mention) : Prop :=
  ∀ m, m ∈ rows' ↔ m = row ∨ (m ∈ rows ∧ m.id ≠ row.id)

theorem Takes.append {rows : List Mention} {row : Mention}
    (hfresh : row.id ∉ rows.map Mention.id) : Takes rows (rows ++ [row]) row := by
  intro m
  rw [List.mem_append, List.mem_singleton]
  constructor
  · rintro (hm | rfl)
    · exact Or.inr ⟨hm, fun he => hfresh (he ▸ List.mem_map_of_mem hm)⟩
    · exact Or.inl rfl
  · rintro (rfl | ⟨hm, -⟩)
    · exact Or.inr rfl
    · exact Or.inl hm

theorem Takes.replace {rows : List Mention} {row : Mention} (hx : x ∈ rows) (hid : row.id = x.id) :
    Takes rows (replace x row rows) row := by
  intro m
  rw [mem_replace hx, hid]
  rfl

theorem insertMention_safely {row : Mention}
    (hpair : ∀ m ∈ t.mentions,
      (m.commentId, m.mentionedUserId) ≠ (row.commentId, row.mentionedUserId)) :
    Safely (t.insertMention row) fun t' =>
      row.id ∉ t.mentions.map Mention.id ∧ t' = { t with mentions := t.mentions ++ [row] } := by
  unfold CommentTables.insertMention
  by_cases hid : row.id ∈ t.mentions.map Mention.id
  · rw [if_pos hid]
    rfl
  rw [if_neg hid, if_neg]
  · exact ⟨hid, rfl⟩
  · intro hany
    obtain ⟨m, hm, hsame⟩ := List.any_eq_true.mp hany
    simp only [Bool.and_eq_true, decide_eq_true_eq] at hsame
    exact hpair m hm (Prod.ext hsame.1 hsame.2)

/-- An active mention that was not active before is announced, unless the insert fails. -/
theorem Linked.announce {rows : List Mention} {row : Mention} (h : Linked t)
    (hrows : Takes t.mentions rows row) (hkeys : PrimaryKey rows)
    (hpairs : Unique (fun m : Mention => (m.commentId, m.mentionedUserId)) rows)
    (hactive : row.deletedAt = none) (hunread : row.readAt = none)
    (hidle : ∀ m ∈ t.mentions, m.id = row.id → m.deletedAt ≠ none)
    (hkind : n.kind = .mention) (hsource : n.sourceId = row.id)
    (hkey : n.idempotencyKey = "mention:" ++ row.id.str)
    (hto : n.recipientId = row.mentionedUserId) (hread : n.readAt = none) :
    Safely (CommentTables.insertNotification { t with mentions := rows } n) fun t' =>
      Linked t' ∧ t'.mentions = rows ∧ t'.comments = t.comments := by
  unfold CommentTables.insertNotification
  by_cases hid : n.id ∈ t.notifications.map fun n => n.id
  · rw [if_pos hid]
    rfl
  rw [if_neg hid, if_neg (hkey ▸ h.key_free hidle)]
  have hfresh : ∀ n' ∈ t.notifications, Keyed.key n' ≠ Keyed.key n := fun n' hn' he =>
    hid (List.mem_map.mpr ⟨n', hn', he⟩)
  refine ⟨⟨hkeys, Unique.append h.notificationKeys hfresh, hpairs, ?_, ?_, ?_⟩, rfl, rfl⟩
  · intro m hm hm'
    rw [List.filter_append]
    rcases (hrows m).mp hm with rfl | ⟨hold, hne⟩
    · have hnone : t.notifications.filter (InboxNotification.of m.id) = [] := by
        refine List.filter_eq_nil_iff.mpr fun n' hn' hof => ?_
        obtain ⟨hk, hs⟩ := InboxNotification.of_iff.mp hof
        obtain ⟨-, m', hm', hid', hact, -⟩ := h.sources n' hn' hk
        exact hidle m' hm' (hid'.trans hs) hact
      refine ⟨n, ?_, hto⟩
      rw [hnone, List.filter_cons_of_pos (InboxNotification.of_iff.mpr ⟨hkind, hsource⟩)]
      rfl
    · obtain ⟨n', hn', hto'⟩ := h.announced m hold hm'
      refine ⟨n', ?_, hto'⟩
      have hother : ¬ n.of m.id = true := fun hof =>
        hne ((InboxNotification.of_iff.mp hof).2.symm.trans hsource)
      rw [hn', List.filter_cons_of_neg hother]
      rfl
  · refine Machine.forall_snoc (fun n' hn' hk => ?_) fun _ => ?_
    · obtain ⟨hkey', m, hm, hs, hact, hread'⟩ := h.sources n' hn' hk
      exact ⟨hkey', m, (hrows m).mpr (Or.inr ⟨hm, fun he => hidle m hm he hact⟩), hs, hact, hread'⟩
    · refine ⟨hsource ▸ hkey, row, (hrows row).mpr (Or.inl rfl), hsource.symm, hactive, ?_⟩
      rw [hread, hunread]
  · exact Machine.forall_snoc h.others fun hk => absurd hkind hk

/-- Who is mentioned once the mention has come in. -/
theorem Takes.mentions {row : Mention} (hrows : Takes t.mentions t'.mentions row)
    (hactive : row.deletedAt = none) (hidle : ∀ m ∈ t.mentions, m.id = row.id → m.deletedAt ≠ none)
    (c u : UUID) :
    t'.Mentions c u ↔ t.Mentions c u ∨ (c = row.commentId ∧ u = row.mentionedUserId) := by
  constructor
  · rintro ⟨m, hm, hc, hu, hact⟩
    rcases (hrows m).mp hm with rfl | ⟨hold, -⟩
    · exact Or.inr ⟨hc.symm, hu.symm⟩
    · exact Or.inl ⟨m, hold, hc, hu, hact⟩
  · rintro (⟨m, hm, hc, hu, hact⟩ | ⟨rfl, rfl⟩)
    · exact ⟨m, (hrows m).mpr (Or.inr ⟨hm, fun he => hidle m hm he hact⟩), hc, hu, hact⟩
    · exact ⟨row, (hrows row).mpr (Or.inl rfl), rfl, rfl, hactive⟩

/-- What one removal does. -/
structure Removes (t t' : CommentTables) (m : Mention) : Prop where
  linked : Linked t'
  comments : t'.comments = t.comments
  identities : t'.mentions.map Mention.identity = t.mentions.map Mention.identity
  mentions : ∀ c u, t'.Mentions c u ↔
    t.Mentions c u ∧ ¬ (c = m.commentId ∧ u = m.mentionedUserId)

theorem Linked.remove {now : Datetime} (h : Linked t)
    (hm : m.identity ∈ t.mentions.map Mention.identity) :
    Removes t (removeMention now t m) m := by
  obtain ⟨x, hx, hsame⟩ := List.mem_map.mp hm
  obtain ⟨hid, hpair⟩ := Prod.mk.inj hsame
  obtain ⟨hcomment, huser⟩ := Prod.mk.inj hpair
  have hrows : (removeMention now t m).mentions = replace x (removed now x) t.mentions := by
    refine Eq.trans ?_ (modify_eq_replace h.keys hx (removed now))
    exact congrArg (modify · (removed now) t.mentions) hid.symm
  have hcolumn : ∀ {β : Type} (g : Mention → β), g (removed now x) = g x →
      (removeMention now t m).mentions.map g = t.mentions.map g := by
    intro β g hg
    rw [hrows]
    exact map_replace h.keys hx g hg
  have hmem : ∀ y ∈ (removeMention now t m).mentions, y.deletedAt = none →
      y ∈ t.mentions ∧ y.id ≠ x.id := by
    intro y hy hactive
    rw [hrows] at hy
    rcases (mem_replace hx).mp hy with rfl | hy
    · nomatch hactive
    · exact hy
  have hkept : ∀ y ∈ t.mentions, y.id ≠ x.id → y ∈ (removeMention now t m).mentions := by
    intro y hy hne
    rw [hrows]
    exact (mem_replace hx).mpr (Or.inr ⟨hy, hne⟩)
  refine ⟨⟨?_, ?_, ?_, ?_, ?_, ?_⟩, rfl, ?_, ?_⟩
  · exact Eq.subst (motive := List.Nodup) (hcolumn Mention.id rfl).symm h.keys
  · exact h.notificationKeys.sublist (List.filter_sublist.map _)
  · exact Eq.subst (motive := List.Nodup)
      (hcolumn (fun m => (m.commentId, m.mentionedUserId)) rfl).symm h.pairs
  · intro y hy hactive
    obtain ⟨hold, hne⟩ := hmem y hy hactive
    obtain ⟨n, hn, hto⟩ := h.announced y hold hactive
    refine ⟨n, ?_, hto⟩
    rw [← hn]
    refine (List.filter_filter ..).trans (List.filter_congr fun n' _ => ?_)
    by_cases hof : n'.of y.id = true
    · have hs := (InboxNotification.of_iff.mp hof).2
      have hne' : n'.sourceId ≠ m.id := fun he => hne (hs.symm.trans (he.trans hid.symm))
      simp [hof, hne']
    · simp [hof]
  · intro n hn hkind
    obtain ⟨hn, hgone⟩ := List.mem_filter.mp hn
    obtain ⟨hkey, y, hy, hs, hrest⟩ := h.sources n hn hkind
    have hne : y.id ≠ x.id := by
      rw [hs, hid]
      simpa [hkind] using hgone
    exact ⟨hkey, y, hkept y hy hne, hs, hrest⟩
  · exact fun n hn => h.others n (List.mem_of_mem_filter hn)
  · exact hcolumn Mention.identity rfl
  · intro c u
    constructor
    · rintro ⟨y, hy, hc, hu, hactive⟩
      obtain ⟨hold, hne⟩ := hmem y hy hactive
      refine ⟨⟨y, hold, hc, hu, hactive⟩, fun ⟨hc', hu'⟩ => hne ?_⟩
      have hpair : (y.commentId, y.mentionedUserId) = (x.commentId, x.mentionedUserId) := by
        rw [hc, hu, hc', hu', hcomment, huser]
      rw [List.inj_on_of_nodup_map h.pairs hold hx hpair]
    · rintro ⟨⟨y, hy, hc, hu, hactive⟩, hne⟩
      refine ⟨y, hkept y hy fun he => hne ?_, hc, hu, hactive⟩
      rw [h.eq_of_id hy hx he] at hc hu
      exact ⟨hc.symm.trans hcomment, hu.symm.trans huser⟩

/-- What one addition does. -/
structure Adds (t t' : CommentTables) (commentId userId : UUID) : Prop where
  linked : Linked t'
  comments : t'.comments = t.comments
  identities : ∀ i, i.2 ≠ (commentId, userId) →
    (i ∈ t'.mentions.map Mention.identity ↔ i ∈ t.mentions.map Mention.identity)
  mentions : ∀ c u, t'.Mentions c u ↔ t.Mentions c u ∨ (c = commentId ∧ u = userId)

/-- The rows that the sync has loaded tell whether the user has a row. -/
def Known (existing : List Mention) (commentId : UUID) (t : CommentTables) (userId : UUID) : Prop :=
  match existing.find? fun m => decide (m.mentionedUserId = userId) with
  | none => ∀ i ∈ t.mentions.map Mention.identity, i.2 ≠ (commentId, userId)
  | some m => (m.id, commentId, userId) ∈ t.mentions.map Mention.identity

/-- The identities beside that of the row. -/
theorem Takes.identities {row : Mention} (hrows : Takes t.mentions t'.mentions row)
    (hold : ∀ m ∈ t.mentions, m.id = row.id → m.identity = row.identity) (i : UUID × UUID × UUID)
    (hi : i.2 ≠ (row.commentId, row.mentionedUserId)) :
    i ∈ t'.mentions.map Mention.identity ↔ i ∈ t.mentions.map Mention.identity := by
  constructor
  · intro h
    obtain ⟨m, hm, rfl⟩ := List.mem_map.mp h
    rcases (hrows m).mp hm with rfl | ⟨hm, -⟩
    · exact absurd rfl hi
    · exact List.mem_map_of_mem hm
  · intro h
    obtain ⟨m, hm, rfl⟩ := List.mem_map.mp h
    refine List.mem_map_of_mem ((hrows m).mpr (Or.inr ⟨hm, fun he => hi ?_⟩))
    exact congrArg Prod.snd (hold m hm he)

theorem Linked.add {env : CommentEnv} {comment : Comment} {by_ : User} {url excerpt : String}
    {existing : List Mention} {u : UUID} (h : Linked t) (hidle : ¬ t.Mentions comment.id u)
    (hknown : Known existing comment.id t u) :
    Safely (addMention env comment by_ url excerpt existing t u) fun t' =>
      Adds t t' comment.id u := by
  unfold addMention
  unfold Known at hknown
  cases hfind : existing.find? fun m => decide (m.mentionedUserId = u) with
  | none =>
    simp only [hfind] at hknown ⊢
    have hnone : ∀ m ∈ t.mentions,
        (m.commentId, m.mentionedUserId) ≠ (comment.id, u) := fun m hm =>
      hknown _ (List.mem_map_of_mem hm)
    refine (insertMention_safely hnone).bind ?_
    rintro _ ⟨hid, rfl⟩
    have hfresh : ∀ m ∈ t.mentions, m.id = (newMention env comment by_ u).id → False :=
      fun m hm he => hid (he ▸ List.mem_map_of_mem hm)
    refine (h.announce (Takes.append hid) (Unique.append h.keys fun m hm he => hfresh m hm he)
      (Unique.append h.pairs hnone) rfl rfl (fun m hm he => (hfresh m hm he).elim)
      rfl rfl rfl rfl rfl).mono ?_
    rintro t' ⟨hlinked, hrows, hcomments⟩
    have htakes : Takes t.mentions t'.mentions (newMention env comment by_ u) :=
      hrows ▸ Takes.append hid
    exact ⟨hlinked, hcomments, htakes.identities fun m hm he => (hfresh m hm he).elim,
      htakes.mentions rfl fun m hm he => (hfresh m hm he).elim⟩
  | some m =>
    simp only [hfind] at hknown ⊢
    obtain ⟨x, hx, hsame⟩ := List.mem_map.mp hknown
    obtain ⟨hid, hpair⟩ := Prod.mk.inj hsame
    obtain ⟨hcomment, huser⟩ := Prod.mk.inj hpair
    have hold : ∀ y ∈ t.mentions, y.id = x.id → y.deletedAt ≠ none := fun y hy he hactive =>
      hidle ⟨y, hy, h.eq_of_id hy hx he ▸ hcomment, h.eq_of_id hy hx he ▸ huser, hactive⟩
    have hmodify : modify m.id (renewed env comment by_) t.mentions =
        replace x (renewed env comment by_ x) t.mentions := by
      rw [← hid]
      exact modify_eq_replace h.keys hx _
    rw [hmodify]
    have htakes : Takes t.mentions (replace x (renewed env comment by_ x) t.mentions)
        (renewed env comment by_ x) := Takes.replace hx rfl
    have hcolumn : ∀ {β : Type} (g : Mention → β), g (renewed env comment by_ x) = g x →
        (replace x (renewed env comment by_ x) t.mentions).map g = t.mentions.map g :=
      fun g hg => map_replace h.keys hx g hg
    refine (h.announce htakes (Eq.subst (motive := List.Nodup) (hcolumn Mention.id rfl).symm h.keys)
      (Eq.subst (motive := List.Nodup)
        (hcolumn (fun m => (m.commentId, m.mentionedUserId)) rfl).symm h.pairs)
      rfl rfl hold rfl hid.symm (hid ▸ rfl) huser.symm rfl).mono ?_
    rintro t' ⟨hlinked, hrows, hcomments⟩
    rw [← hrows] at htakes
    have hone : (renewed env comment by_ x).identity = x.identity := rfl
    refine ⟨hlinked, hcomments, ?_, ?_⟩
    · intro i hi
      refine htakes.identities (fun y hy he => ?_) i fun he => hi (he.trans hpair)
      exact (h.eq_of_id hy hx he) ▸ hone.symm
    · intro c v
      rw [htakes.mentions rfl hold c v]
      exact or_congr Iff.rfl (by rw [← hcomment, ← huser]; rfl)

/-! ## A sync -/

theorem Linked.removeAll (now : Datetime) : ∀ (ms : List Mention) {t : CommentTables}, Linked t →
    (∀ m ∈ ms, m.identity ∈ t.mentions.map Mention.identity) →
    Linked (ms.foldl (removeMention now) t) ∧
      (ms.foldl (removeMention now) t).comments = t.comments ∧
      (ms.foldl (removeMention now) t).mentions.map Mention.identity =
        t.mentions.map Mention.identity ∧
      ∀ c u, (ms.foldl (removeMention now) t).Mentions c u ↔
        t.Mentions c u ∧ ∀ m ∈ ms, ¬ (c = m.commentId ∧ u = m.mentionedUserId)
  | [], _, h, _ => ⟨h, rfl, rfl, fun _ _ => (and_iff_left fun m hm => nomatch hm).symm⟩
  | m :: ms, t, h, hms => by
      have hone : Removes t (removeMention now t m) m := h.remove (hms m List.mem_cons_self)
      obtain ⟨hlinked, hcomments, hidentities, hmentions⟩ :=
        removeAll now ms hone.linked fun m' hm' =>
          hone.identities ▸ hms m' (List.mem_cons_of_mem _ hm')
      refine ⟨hlinked, hcomments.trans hone.comments, hidentities.trans hone.identities, ?_⟩
      intro c u
      rw [List.foldl_cons, hmentions c u, hone.mentions c u, List.forall_mem_cons, and_assoc]

/-- Another user has come in; what is known of this one still holds. -/
theorem Known.adds {existing : List Mention} {c u v : UUID} (h : Known existing c t v)
    (hadds : Adds t t' c u) (hne : v ≠ u) : Known existing c t' v := by
  have hother : ∀ id, ((id, c, v) : UUID × UUID × UUID).2 ≠ (c, u) := fun id he =>
    hne (congrArg Prod.snd he)
  unfold Known at h ⊢
  split
  · rename_i hfind
    simp only [hfind] at h
    intro i hi he
    exact h i ((hadds.identities i (he ▸ hother i.1)).mp hi) he
  · rename_i m hfind
    simp only [hfind] at h
    exact (hadds.identities _ (hother m.id)).mpr h

theorem Linked.addAll {env : CommentEnv} {comment : Comment} {by_ : User} {url excerpt : String}
    {existing : List Mention} : ∀ (us : List UUID) {t : CommentTables}, Linked t → us.Nodup →
    (∀ u ∈ us, ¬ t.Mentions comment.id u) → (∀ u ∈ us, Known existing comment.id t u) →
    Safely (us.foldlM (addMention env comment by_ url excerpt existing) t) fun t' =>
      Linked t' ∧ t'.comments = t.comments ∧
        ∀ c v, t'.Mentions c v ↔ t.Mentions c v ∨ (c = comment.id ∧ v ∈ us)
  | [], t, h, _, _, _ => ⟨h, rfl, fun c v => (or_iff_left fun hv => nomatch hv.2).symm⟩
  | u :: us, t, h, hn, hidle, hknown => by
      obtain ⟨hu, hn⟩ := List.nodup_cons.mp hn
      refine (h.add (hidle u List.mem_cons_self) (hknown u List.mem_cons_self)).bind ?_
      intro t₁ hadds
      refine (addAll us hadds.linked hn ?_ ?_).mono ?_
      · intro v hv hv'
        rcases (hadds.mentions _ _).mp hv' with hold | ⟨-, rfl⟩
        · exact hidle v (List.mem_cons_of_mem _ hv) hold
        · exact hu hv
      · intro v hv
        refine (hknown v (List.mem_cons_of_mem _ hv)).adds hadds fun he => hu (he ▸ hv)
      · rintro t' ⟨hlinked, hcomments, hmentions⟩
        refine ⟨hlinked, hcomments.trans hadds.comments, fun c v => ?_⟩
        rw [hmentions c v, hadds.mentions c v, List.mem_cons, or_assoc, and_or_left]

/-- **The sync makes the active mentions of the comment those of the body**, and leaves
those of the other comments alone. -/
theorem Linked.sync {env : CommentEnv} {comment : Comment} {by_ : User} {url excerpt : String}
    {userIds : List UUID} (h : Linked t) (hn : userIds.Nodup) :
    Safely (syncForComment env comment by_ userIds url excerpt t) fun t' =>
      Linked t' ∧ t'.comments = t.comments ∧
        ∀ c u, t'.Mentions c u ↔ if c = comment.id then u ∈ userIds else t.Mentions c u := by
  unfold syncForComment
  extract_lets existing active removed added
  have hexisting : ∀ m, m ∈ existing ↔ m ∈ t.mentions ∧ m.commentId = comment.id := by
    intro m
    simp [existing]
  have hactive : ∀ u, u ∈ active.map Mention.mentionedUserId ↔ t.Mentions comment.id u := by
    intro u
    constructor
    · intro hu
      obtain ⟨m, hm, rfl⟩ := List.mem_map.mp hu
      obtain ⟨hm, hact⟩ := List.mem_filter.mp hm
      obtain ⟨hm, hc⟩ := (hexisting m).mp hm
      exact ⟨m, hm, hc, rfl, Option.isNone_iff_eq_none.mp hact⟩
    · rintro ⟨m, hm, hc, rfl, hact⟩
      refine List.mem_map_of_mem (List.mem_filter.mpr ⟨(hexisting m).mpr ⟨hm, hc⟩, ?_⟩)
      exact Option.isNone_iff_eq_none.mpr hact
  have hremoved : ∀ m ∈ removed, m ∈ t.mentions ∧ m.commentId = comment.id ∧
      m.mentionedUserId ∉ userIds := by
    intro m hm
    obtain ⟨hm, hout⟩ := List.mem_filter.mp hm
    obtain ⟨hm, hc⟩ := (hexisting m).mp (List.mem_of_mem_filter hm)
    exact ⟨hm, hc, by simpa using hout⟩
  obtain ⟨hlinked, hcomments, hidentities, hmentions⟩ :=
    Linked.removeAll env.now removed h fun m hm => List.mem_map_of_mem (hremoved m hm).1
  -- who is left in the comment, and in the others
  have hleft : ∀ c u, (removed.foldl (removeMention env.now) t).Mentions c u ↔
      t.Mentions c u ∧ (c = comment.id → u ∈ userIds) := by
    intro c u
    rw [hmentions c u]
    refine and_congr_right fun hmentioned => ⟨fun hnot hc => ?_, fun hin m hm => ?_⟩
    · by_contra hu
      subst hc
      obtain ⟨m, hm, hc, rfl, hact⟩ := hmentioned
      refine hnot m (List.mem_filter.mpr ⟨List.mem_filter.mpr ⟨(hexisting m).mpr ⟨hm, hc⟩, ?_⟩, ?_⟩)
        ⟨hc.symm, rfl⟩
      · exact Option.isNone_iff_eq_none.mpr hact
      · simpa using hu
    · rintro ⟨rfl, rfl⟩
      obtain ⟨-, hc, hout⟩ := hremoved m hm
      exact hout (hin hc)
  have hadded : ∀ u, u ∈ added ↔ u ∈ userIds ∧ ¬ t.Mentions comment.id u := by
    intro u
    rw [← hactive u]
    simp [added]
  have hknown : ∀ u, Known existing comment.id (removed.foldl (removeMention env.now) t) u := by
    intro u
    unfold Known
    split
    · rename_i hfind
      rw [hidentities]
      intro i hi he
      obtain ⟨m, hm, rfl⟩ := List.mem_map.mp hi
      obtain ⟨hc, hu⟩ := Prod.mk.inj he
      exact List.find?_eq_none.mp hfind m ((hexisting m).mpr ⟨hm, hc⟩) (decide_eq_true hu)
    · rename_i m hfind
      rw [hidentities]
      obtain ⟨hm, hc⟩ := (hexisting m).mp (List.mem_of_find?_eq_some hfind)
      have hu : m.mentionedUserId = u := by simpa using List.find?_some hfind
      exact List.mem_map.mpr ⟨m, hm, by rw [Mention.identity, hc, hu]⟩
  refine (Linked.addAll added hlinked (hn.filter _) (fun u hu hin => ?_)
    fun u _ => hknown u).mono ?_
  · exact ((hadded u).mp hu).2 ((hleft _ _).mp hin).1
  · rintro t' ⟨hlinked', hcomments', hmentions'⟩
    refine ⟨hlinked', hcomments'.trans hcomments, fun c u => ?_⟩
    rw [hmentions' c u, hleft c u, hadded u]
    split
    · rename_i hc
      subst hc
      by_cases hin : t.Mentions comment.id u <;> simp [hin]
    · rename_i hc
      simp [hc]

end

/-! ## The operations -/

/-- The active mentions of a comment are those of its body, and a deleted one has none. -/
structure Synced (t : CommentTables) : Prop where
  linked : Linked t
  comments : PrimaryKey t.comments
  placed : ∀ c u, t.Mentions c u → ∃ x ∈ t.comments, x.id = c
  nodes : ∀ c ∈ t.comments, ∀ s, (∃ u, t.Mentions c.id u ∧ u.str = s) ↔
    c.deletedAt = none ∧ s ∈ mentionedIn c.structuredBody

section
variable {t : CommentTables} {db : Db} {workspaceId commentId userId : UUID}

theorem Linked.withComments (h : Linked t) (comments : List Comment) :
    Linked { t with comments := comments } :=
  ⟨h.keys, h.notificationKeys, h.pairs, h.announced, h.sources, h.others⟩

namespace CommentService

theorem requireMembership_safely :
    Safely (requireMembership userId workspaceId db) fun _ => True := by
  unfold requireMembership
  split
  · rfl
  · split
    · rfl
    · trivial

theorem requireDecision_safely {decisionId : UUID} :
    Safely (requireDecision workspaceId decisionId db) fun _ => True := by
  unfold requireDecision
  split
  · rfl
  · trivial

theorem validateContext_safely {decisionId : UUID} {proposalId objectionId : Option UUID} :
    Safely (validateContext decisionId proposalId objectionId db) fun _ => True := by
  unfold validateContext
  repeat' split
  all_goals first | rfl | trivial

theorem validateMentionedUsers_safely {userIds : List UUID} :
    Safely (validateMentionedUsers workspaceId userIds db) fun _ => True := by
  unfold validateMentionedUsers
  extract_lets users
  split
  · trivial
  · rfl

theorem requireAuthority_safely {user : User} {membership : WorkspaceMember} {comment : Comment} :
    Safely (requireAuthority user membership comment) fun _ => True := by
  unfold requireAuthority
  split
  · rfl
  · trivial

theorem requireComment_safely :
    Safely (requireComment workspaceId commentId db t) fun record =>
      record.comment ∈ t.comments ∧ record.comment.deletedAt = none := by
  unfold requireComment
  cases hrecord : CommentRepository.getRecord workspaceId commentId db t with
  | none => rfl
  | some record =>
      obtain ⟨comment, hfind, h⟩ := Option.bind_eq_some_iff.mp hrecord
      obtain ⟨author, -, h⟩ := Option.bind_eq_some_iff.mp h
      cases h
      have hok := List.find?_some hfind
      simp only [Bool.and_eq_true, Option.isNone_iff_eq_none] at hok
      exact ⟨List.mem_of_find?_eq_some hfind, hok.2⟩

theorem createTransaction_safely {env : CommentEnv} {user : User} {decisionId : UUID}
    {payload : CommentCreateRequest} (h : Synced t) :
    Safely (createTransaction env user workspaceId decisionId payload db t) Synced := by
  refine requireMembership_safely.bind fun _ _ => requireDecision_safely.bind fun _ _ =>
    validateContext_safely.bind fun _ _ => validateMentionedUsers_safely.bind fun users _ => ?_
  extract_lets comment
  unfold CommentTables.insertComment
  by_cases hid : comment.id ∈ t.comments.map Comment.id
  · rw [if_pos hid]
    rfl
  rw [if_neg hid]
  refine ((h.linked.withComments _).sync (List.nodup_dedup _)).mono ?_
  rintro t' ⟨hlinked, hcomments, hmentions⟩
  have hfresh : ∀ c ∈ t.comments, c.id ≠ comment.id := fun c hc he =>
    hid (he ▸ List.mem_map_of_mem hc)
  refine ⟨hlinked, ?_, ?_, ?_⟩
  · rw [PrimaryKey, hcomments]
    exact Unique.append h.comments hfresh
  · intro c u hu
    rw [hcomments]
    by_cases hc : c = comment.id
    · exact ⟨comment, List.mem_append_right _ List.mem_cons_self, hc.symm⟩
    · have hold := (hmentions c u).mp hu
      rw [if_neg hc] at hold
      obtain ⟨x, hx, hid⟩ := h.placed c u hold
      exact ⟨x, List.mem_append_left _ hx, hid⟩
  · rw [hcomments]
    refine Machine.forall_snoc (fun c hc s => ?_) fun s => ?_
    · simp only [hmentions, if_neg (hfresh c hc)]
      exact h.nodes c hc s
    · simp only [hmentions, if_pos]
      exact mem_mentionedIn.symm.trans (and_iff_right (rfl : comment.deletedAt = none)).symm

theorem updateTransaction_safely {env : CommentEnv} {user : User}
    {payload : CommentUpdateRequest} (h : Synced t) :
    Safely (updateTransaction env user workspaceId commentId payload db t) fun r =>
      Synced r.2 := by
  refine requireMembership_safely.bind fun membership _ => requireComment_safely.bind ?_
  rintro ⟨old, author⟩ ⟨hold, hactive⟩
  refine requireAuthority_safely.bind fun _ _ =>
    validateMentionedUsers_safely.bind fun users _ => ?_
  extract_lets _ comment t₁
  refine ((h.linked.withComments _).sync (List.nodup_dedup _)).bind ?_
  rintro t' ⟨hlinked, hcomments, hmentions⟩
  have hcomments : t'.comments = replace old comment t.comments := hcomments
  have hids : t'.comments.map Comment.id = t.comments.map Comment.id :=
    (congrArg (List.map Comment.id) hcomments).trans (map_replace h.comments hold Comment.id rfl)
  refine ⟨hlinked, Eq.subst (motive := List.Nodup) hids.symm h.comments, ?_, ?_⟩
  · intro c u hu
    refine List.mem_map.mp (hids ▸ ?_)
    by_cases hc : c = comment.id
    · exact List.mem_map.mpr ⟨old, hold, hc.symm⟩
    · have hold := (hmentions c u).mp hu
      rw [if_neg hc] at hold
      exact List.mem_map.mpr (h.placed c u hold)
  · rw [hcomments]
    intro c hc s
    rcases (mem_replace hold).mp hc with rfl | ⟨hc, hne⟩
    · simp only [hmentions, if_pos]
      exact mem_mentionedIn.symm.trans (and_iff_right hactive).symm
    · have hne : c.id ≠ comment.id := hne
      simp only [hmentions, if_neg hne]
      exact h.nodes c hc s

theorem deleteTransaction_safely {env : CommentEnv} {user : User} (h : Synced t) :
    Safely (deleteTransaction env user workspaceId commentId db t) Synced := by
  refine requireMembership_safely.bind fun membership _ => requireComment_safely.bind ?_
  rintro ⟨old, author⟩ ⟨hold, hactive⟩
  refine requireAuthority_safely.bind fun _ _ => ?_
  have hrows : modify old.id (fun c => { c with deletedAt := some env.now }) t.comments =
      replace old { old with deletedAt := some env.now } t.comments :=
    modify_eq_replace h.comments hold _
  have hremoved : ∀ m ∈ t.mentions.filter fun m =>
      decide (m.commentId = old.id) && m.deletedAt.isNone,
      m.identity ∈ t.mentions.map Mention.identity := fun m hm =>
    List.mem_map_of_mem (List.mem_of_mem_filter hm)
  obtain ⟨hlinked, hcomments, -, hmentions⟩ :=
    Linked.removeAll env.now _ (h.linked.withComments
      (modify old.id (fun c => { c with deletedAt := some env.now }) t.comments)) hremoved
  have hids := (congrArg (List.map Comment.id) (hcomments.trans hrows)).trans
    (map_replace h.comments hold Comment.id rfl)
  refine ⟨hlinked, Eq.subst (motive := List.Nodup) hids.symm h.comments, ?_, ?_⟩
  · intro c u hu
    refine List.mem_map.mp (hids ▸ ?_)
    exact List.mem_map.mpr (h.placed c u ((hmentions c u).mp hu).1)
  · intro c hc s
    have hc : c ∈ replace old { old with deletedAt := some env.now } t.comments :=
      Eq.mp (congrArg (c ∈ ·) (hcomments.trans hrows)) hc
    rcases (mem_replace hold).mp hc with rfl | ⟨hc, hne⟩
    · refine iff_of_false ?_ fun hnone => nomatch hnone.1
      rintro ⟨u, hu, -⟩
      obtain ⟨⟨m, hm, hmc, hmu, hact⟩, hnot⟩ := (hmentions _ _).mp hu
      refine hnot m (List.mem_filter.mpr ⟨hm, ?_⟩) ⟨hmc.symm, hmu.symm⟩
      rw [Bool.and_eq_true, decide_eq_true_eq, Option.isNone_iff_eq_none]
      exact ⟨hmc, hact⟩
    · rw [← h.nodes c hc s]
      refine exists_congr fun u => and_congr_left fun _ => ?_
      refine (hmentions c.id u).trans (and_iff_left fun m hm hsame => hne ?_)
      have hmc := (List.mem_filter.mp hm).2
      rw [Bool.and_eq_true, decide_eq_true_eq] at hmc
      exact hsame.1.trans hmc.1

theorem create_synced {env : CommentEnv} {user : User} {decisionId : UUID}
    {payload : CommentCreateRequest} (h : Synced t) :
    Synced (create env user workspaceId decisionId payload db t).2 ∧
      Safely (create env user workspaceId decisionId payload db t).1 fun _ => True := by
  have hsafe : Safely (createTransaction env user workspaceId decisionId payload db t) Synced :=
    createTransaction_safely h
  unfold create
  cases hr : createTransaction env user workspaceId decisionId payload db t with
  | error e =>
      rw [hr] at hsafe
      exact ⟨h, hsafe⟩
  | ok t' =>
      rw [hr] at hsafe
      exact ⟨hsafe, requireComment_safely.mono fun _ _ => trivial⟩

theorem update_synced {env : CommentEnv} {user : User} {payload : CommentUpdateRequest}
    (h : Synced t) :
    Synced (update env user workspaceId commentId payload db t).2 ∧
      Safely (update env user workspaceId commentId payload db t).1 fun _ => True := by
  have hsafe : Safely (updateTransaction env user workspaceId commentId payload db t) fun r =>
      Synced r.2 := updateTransaction_safely h
  unfold update
  cases hr : updateTransaction env user workspaceId commentId payload db t with
  | error e =>
      rw [hr] at hsafe
      exact ⟨h, hsafe⟩
  | ok r =>
      rw [hr] at hsafe
      exact ⟨hsafe, trivial⟩

theorem delete_synced {env : CommentEnv} {user : User} (h : Synced t) :
    Synced (delete env user workspaceId commentId db t).2 ∧
      Safely (delete env user workspaceId commentId db t).1 fun _ => True := by
  have hsafe : Safely (deleteTransaction env user workspaceId commentId db t) Synced :=
    deleteTransaction_safely h
  unfold delete
  cases hr : deleteTransaction env user workspaceId commentId db t with
  | error e =>
      rw [hr] at hsafe
      exact ⟨h, hsafe⟩
  | ok t' =>
      rw [hr] at hsafe
      exact ⟨hsafe, trivial⟩

end CommentService

end

/-! ## Runs -/

inductive CommentOp where
  | create (env : CommentEnv) (user : User) (workspaceId decisionId : UUID)
      (payload : CommentCreateRequest)
  | update (env : CommentEnv) (user : User) (workspaceId commentId : UUID)
      (payload : CommentUpdateRequest)
  | delete (env : CommentEnv) (user : User) (workspaceId commentId : UUID)

def CommentOp.exec (db : Db) (t : CommentTables) :
    CommentOp → Except CommentError (Option CommentRecord) × CommentTables
  | create env u w d payload =>
      let (r, t') := CommentService.create env u w d payload db t
      (r.map some, t')
  | update env u w c payload =>
      let (r, t') := CommentService.update env u w c payload db t
      (r.map some, t')
  | delete env u w c =>
      let (r, t') := CommentService.delete env u w c db t
      (r.map fun _ => none, t')

/-- An operation on the workspaces as they are at the time.  Anything may end it before
its commit (`failed`), and then it is rolled back. -/
structure CommentAction where
  db : Db
  op : CommentOp
  failed : Bool

def CommentTables.step (t : CommentTables) (a : CommentAction) : Option CommentTables :=
  some (if a.failed then t else (a.op.exec a.db t).2)

/-- An operation keeps the tables in step, and no key it needs is taken. -/
theorem Synced.exec {t : CommentTables} (h : Synced t) (db : Db) (op : CommentOp) :
    Synced (op.exec db t).2 ∧ Safely (op.exec db t).1 fun _ => True := by
  cases op with
  | create env u w d payload =>
      obtain ⟨hsynced, hsafe⟩ := CommentService.create_synced h
      exact ⟨hsynced, hsafe.map fun _ _ => trivial⟩
  | update env u w c payload =>
      obtain ⟨hsynced, hsafe⟩ := CommentService.update_synced h
      exact ⟨hsynced, hsafe.map fun _ _ => trivial⟩
  | delete env u w c =>
      obtain ⟨hsynced, hsafe⟩ := CommentService.delete_synced h
      exact ⟨hsynced, hsafe.map fun _ _ => trivial⟩

theorem Synced.run {t₀ t : CommentTables} (h : Synced t₀)
    (hrun : Machine.Run CommentTables.step (fun _ _ => True) t₀ t) : Synced t := by
  refine hrun.invariant (fun t a t' hI _ hstep => ?_) h
  cases hstep
  split
  · exact hI
  · exact (hI.exec a.db a.op).1

/-- Before the first comment all notifications are reminders. -/
theorem Synced.initial {t : CommentTables} (hcomments : t.comments = [])
    (hmentions : t.mentions = [])
    (hkeys : PrimaryKey t.notifications)
    (hreminders : ∀ n ∈ t.notifications,
      ∃ r : Reminder, r.kind ≠ .mention ∧ n.kind = r.kind ∧ n.idempotencyKey = r.key) :
    Synced t := by
  have hkinds : ∀ n ∈ t.notifications, n.kind ≠ .mention := by
    intro n hn
    obtain ⟨r, hr, hkind, -⟩ := hreminders n hn
    exact hkind ▸ hr
  refine ⟨⟨?_, hkeys, ?_, ?_, fun n hn hkind => absurd hkind (hkinds n hn), ?_⟩, ?_, ?_, ?_⟩
  · rw [hmentions]
    exact List.nodup_nil
  · rw [hmentions]
    exact List.nodup_nil
  · rw [hmentions]
    exact fun m hm => nomatch hm
  · intro n hn _ id
    obtain ⟨r, hr, -, hkey⟩ := hreminders n hn
    rw [hkey]
    exact Reminder.key_ne_mention hr id
  · rw [hcomments]
    exact List.nodup_nil
  · rintro c u ⟨m, hm, -⟩
    rw [hmentions] at hm
    nomatch hm
  · rw [hcomments]
    exact fun c hc => nomatch hc

/-- **Mentions follow the comments.**  After any operations on comments, some of them
failed, the users with an active mention of a comment are those of the mention nodes of its
body, and none when it is deleted; a user has one row in a comment; an active mention has
one notification, to the user and under its key, a removed one has none; and no operation
finds one of the two unique constraints in its way. -/
theorem mentions_follow_comments {t₀ t : CommentTables} (hcomments : t₀.comments = [])
    (hmentions : t₀.mentions = []) (hkeys : PrimaryKey t₀.notifications)
    (hreminders : ∀ n ∈ t₀.notifications,
      ∃ r : Reminder, r.kind ≠ .mention ∧ n.kind = r.kind ∧ n.idempotencyKey = r.key)
    (hrun : Machine.Run CommentTables.step (fun _ _ => True) t₀ t) :
    (∀ c ∈ t.comments, c.deletedAt = none → ∀ s,
      (∃ u, t.Mentions c.id u ∧ u.str = s) ↔ s ∈ mentionedIn c.structuredBody) ∧
    (∀ c ∈ t.comments, c.deletedAt ≠ none → ∀ u, ¬ t.Mentions c.id u) ∧
    (t.mentions.map fun m => (m.commentId, m.mentionedUserId)).Nodup ∧
    (∀ m ∈ t.mentions, m.deletedAt = none →
      ∃ n, t.notifications.filter (InboxNotification.of m.id) = [n] ∧
        n.recipientId = m.mentionedUserId ∧ n.idempotencyKey = "mention:" ++ m.id.str) ∧
    (∀ m ∈ t.mentions, m.deletedAt ≠ none →
      t.notifications.filter (InboxNotification.of m.id) = []) ∧
    ∀ db op e, (CommentOp.exec db t op).1 = .error e →
      e ≠ .integrity .uqMentionsCommentUser ∧ e ≠ .integrity .uqNotificationsIdempotencyKey := by
  have h : Synced t := (Synced.initial hcomments hmentions hkeys hreminders).run hrun
  refine ⟨fun c hc hactive s => ?_, fun c hc hdeleted u hu => ?_, h.linked.pairs,
    fun m hm hactive => ?_, fun m hm hdeleted => h.linked.silent hm hdeleted,
    fun db op e he => ?_⟩
  · rw [h.nodes c hc s, and_iff_right hactive]
  · exact hdeleted ((h.nodes c hc u.str).mp ⟨u, hu, rfl⟩).1
  · obtain ⟨n, hn, hto⟩ := h.linked.announced m hm hactive
    have hmem : n ∈ t.notifications.filter (InboxNotification.of m.id) :=
      hn ▸ List.mem_singleton_self n
    obtain ⟨hmem, hof⟩ := List.mem_filter.mp hmem
    obtain ⟨hkind, hsource⟩ := InboxNotification.of_iff.mp hof
    exact ⟨n, hn, hto, hsource ▸ (h.linked.sources n hmem hkind).1⟩
  · have hsafe := (h.exec db op).2
    rw [he] at hsafe
    constructor <;> rintro rfl <;> nomatch hsafe

/-! ## A sample -/

namespace Sample

def commentEnv (t : Datetime) (id : UUID) : CommentEnv := ⟨t, id, fun u => id + u, fun u => id + u⟩

def mentioning (users : List UUID) : StructuredCommentBody :=
  ⟨.text "Please review" :: users.map fun u => .mention u "you"⟩

/-- Bob is mentioned, no longer mentioned, and mentioned again; another comment is deleted. -/
def commented : List CommentAction :=
  [⟨opened, .create (commentEnv 20 100) ada 10 20 ⟨"Look", mentioning [2, 2], none, none⟩, false⟩,
    ⟨opened, .update (commentEnv 21 120) ada 10 100 ⟨"Look", mentioning []⟩, false⟩,
    ⟨opened, .update (commentEnv 22 140) ada 10 100 ⟨"Look", mentioning [2]⟩, false⟩,
    ⟨opened, .create (commentEnv 23 160) bob 10 20 ⟨"Here", mentioning [1, 2], none, none⟩, false⟩,
    ⟨opened, .update (commentEnv 24 180) ada 10 100 ⟨"Look", mentioning [1]⟩, true⟩,
    ⟨opened, .delete (commentEnv 25 200) bob 10 160, false⟩]

def uncommented : CommentTables := ⟨[], [], []⟩

end Sample

theorem mentions_follow_comments_sample : ∃ t : CommentTables,
    t.mentions.map (fun m => (m.id, m.commentId, m.mentionedUserId, m.deletedAt)) =
      [(102, 100, 2, none), (161, 160, 1, some 25), (162, 160, 2, some 25)] ∧
    ∃ n, t.notifications.filter (InboxNotification.of 102) = [n] ∧ n.recipientId = 2 ∧
      n.idempotencyKey = "mention:" ++ (102 : UUID).str := by
  obtain ⟨t, hplay, hrows⟩ := Option.map_eq_some_iff.mp
    (show (Machine.play CommentTables.step (fun _ _ => True) Sample.uncommented
        Sample.commented).map (fun t =>
          t.mentions.map fun m => (m.id, m.commentId, m.mentionedUserId, m.deletedAt)) =
        some [(102, 100, 2, none), (161, 160, 1, some 25), (162, 160, 2, some 25)] by
      decide +kernel)
  have hmem : ((102 : UUID), (100 : UUID), (2 : UUID), (none : Option Datetime)) ∈
      t.mentions.map fun m => (m.id, m.commentId, m.mentionedUserId, m.deletedAt) := by
    rw [hrows]
    exact List.mem_cons_self
  obtain ⟨m, hm, he⟩ := List.mem_map.mp hmem
  obtain ⟨hid, he⟩ := Prod.mk.inj he
  obtain ⟨-, he⟩ := Prod.mk.inj he
  obtain ⟨huser, hactive⟩ := Prod.mk.inj he
  have hreminders : ∀ n ∈ Sample.uncommented.notifications,
      ∃ r : Reminder, r.kind ≠ .mention ∧ n.kind = r.kind ∧ n.idempotencyKey = r.key :=
    fun n hn => nomatch hn
  have hrun : Machine.Run CommentTables.step (fun _ _ => True) Sample.uncommented t :=
    Machine.Run.of_play hplay
  have hkeys : PrimaryKey Sample.uncommented.notifications := List.nodup_nil
  obtain ⟨n, hn, hto, hkey⟩ := (mentions_follow_comments rfl rfl hkeys hreminders
    hrun).2.2.2.1 m hm hactive
  exact ⟨t, hrows, n, hid ▸ hn, hto.trans huser, hid ▸ hkey⟩

end ForkRoom
