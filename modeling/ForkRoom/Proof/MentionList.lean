/-
# `Proof.MentionList` — mentions, page by page

A cursor is read back as the time and the identifier it was made of
(`decodeCursor_encodeCursor`).  So a page begins behind the last mention of the page before,
and following the cursors lists every mention that is asked for once, the latest first
(`pages_list_all`), also where many were made at one time.
-/
import ForkRoom.Service.MentionList
import ForkRoom.System.Operations

namespace ForkRoom

open Codec JsonText Pages

/-! ## A cursor, written and read -/

theorem isPlain_digit {c : Char} (h : c.isDigit) :
    c ≠ '"' ∧ c ≠ '\\' ∧ 32 ≤ c.toNat ∧ c.toNat ≤ 126 := by
  have hb : '0' ≤ c ∧ c ≤ '9' := by
    simpa [Char.isDigit, Char.le_def] using h
  have hlo : 48 ≤ c.toNat := hb.1
  have hhi : c.toNat ≤ 57 := hb.2
  refine ⟨?_, ?_, by omega, by omega⟩
  · rintro rfl
    exact absurd hlo (by decide)
  · rintro rfl
    exact absurd hhi (by decide)

theorem isPlain_append {a b : List Char} (ha : IsPlain a) (hb : IsPlain b) : IsPlain (a ++ b) := by
  intro c hc
  rcases List.mem_append.mp hc with hc | hc
  · exact ha c hc
  · exact hb c hc

theorem isPlain_cons {a : List Char} {c : Char}
    (hc : c ≠ '"' ∧ c ≠ '\\' ∧ 32 ≤ c.toNat ∧ c.toNat ≤ 126) (ha : IsPlain a) :
    IsPlain (c :: a) := by
  intro d hd
  rcases List.mem_cons.mp hd with rfl | hd
  · exact hc
  · exact ha d hd

theorem isPlain_zeroPadded (k v : Nat) : IsPlain (zeroPadded k v) :=
  fun _ hc => isPlain_digit (Text.isDigit_of_mem_padded hc)

theorem IsClock.isPlain {text : List Char} (h : IsClock text) : IsPlain text := by
  intro c hc
  rcases h c hc with hd | rfl | rfl
  · exact isPlain_digit hd
  · decide
  · decide

theorem isPlain_isoformat (t : PyDatetime) : IsPlain t.isoformat := by
  have hoffset : IsPlain ((t.utcoffset.map formatOffset).getD []) := by
    cases t.utcoffset with
    | none => exact fun _ hc => nomatch hc
    | some o =>
        rw [Option.map_some, Option.getD_some, formatOffset_eq]
        refine isPlain_cons ?_ (isClock_offsetText _).isPlain
        split <;> decide
  exact isPlain_append (isPlain_zeroPadded _ _) (isPlain_cons (by decide)
    (isPlain_append (isPlain_zeroPadded _ _) (isPlain_cons (by decide)
      (isPlain_append (isPlain_zeroPadded _ _) (isPlain_cons (by decide)
        (isPlain_append (isClock_formatTime _).isPlain hoffset))))))

theorem isPlain_str (u : UUID) : IsPlain u.str.toList :=
  forall_str (by decide) (by decide)

/-- The fields of a cursor. -/
def cursorFields (createdAt : PyDatetime) (mentionId : UUID) : List (String × String) :=
  [("created_at", String.ofList createdAt.isoformat), ("id", mentionId.str)]

theorem isPlain_names : IsPlain "created_at".toList ∧ IsPlain "id".toList := by
  simp [IsPlain]

theorem isPlainField_cursor (t : PyDatetime) (i : UUID) :
    ∀ field ∈ cursorFields t i, IsPlainField field := by
  have htime : IsPlain (String.ofList t.isoformat).toList := by
    rw [String.toList_ofList]
    exact isPlain_isoformat t
  intro field hf
  rcases List.mem_cons.mp hf with rfl | hf
  · exact ⟨isPlain_names.1, htime⟩
  · rw [List.mem_singleton.mp hf]
    exact ⟨isPlain_names.2, isPlain_str i⟩

/-- The text behind its base64. -/
theorem cursorText_encode64 (text : List Char) :
    cursorText ((asciiChars (encode64 (text.flatMap String.utf8EncodeChar))).map .ofChar) =
      some text := by
  simp only [cursorText, encode_ascii (encode64_ascii _), Option.bind_eq_bind, Option.bind_some,
    decode64_encode64, decode_utf8]

theorem cursorText_encodeCursor (t : PyDatetime) (i : UUID) :
    cursorText (MentionService.encodeCursor t i) =
      some ('\x7b' :: Json.commas ((cursorFields t i).map fieldText) ++ ['\x7d']) := by
  have hdumps : Json.dumps (.obj [("created_at", .str (String.ofList t.isoformat)),
      ("id", .str i.str)]) = '\x7b' :: Json.commas ((cursorFields t i).map fieldText) ++
      ['\x7d'] := by
    have hle : ("created_at" : String) ≤ "id" := by decide
    simp [Json.dumps, Json.dumps.dumpsFields, hle, cursorFields, fieldText]
  rw [MentionService.encodeCursor, hdumps]
  exact cursorText_encode64 _

theorem decodeCursor_encodeCursor (room : Nat) (t : PyDatetime) (ht : t.utcoffset ≠ none)
    (i : UUID) :
    MentionService.decodeCursor room (some (MentionService.encodeCursor t i)) =
      .ok (some (t, i)) := by
  obtain ⟨o, ho⟩ := Option.ne_none_iff_exists'.mp ht
  have hloads :
      jsonLoads room ('\x7b' :: Json.commas ((cursorFields t i).map fieldText) ++ ['\x7d']) =
      .ok (.dict ((cursorFields t i).map fieldValue)) := by
    have hne : cursorFields t i ≠ [] := List.cons_ne_nil _ _
    rw [jsonLoads, loads_plain hne (isPlainField_cursor t i)]
  have htime : Value.subscript "created_at" (.dict ((cursorFields t i).map fieldValue)) =
      .ok (.str (.ofString (String.ofList t.isoformat))) := by
    have hne : ¬ Text.ofString "id" = Text.ofString "created_at" := by decide
    simp [Value.subscript, lookup, cursorFields, fieldValue, hne]
  have hid : Value.subscript "id" (.dict ((cursorFields t i).map fieldValue)) =
      .ok (.str (.ofString i.str)) := by
    simp [Value.subscript, lookup, cursorFields, fieldValue]
  have hiso : Value.fromisoformat (.str (.ofString (String.ofList t.isoformat))) = .ok t := by
    rw [Value.fromisoformat, Text.ofString, chars_ofChars, String.toList_ofList,
      fromisoformat_isoformat t o ho]
    rfl
  have huuid : Value.uuid (.str (.ofString i.str)) = .ok i := by
    rw [Value.uuid, Text.ofString, chars_ofChars, parseUuid_str]
    rfl
  have hread : MentionService.readCursor room (MentionService.encodeCursor t i) = .ok (t, i) := by
    rw [MentionService.readCursor, cursorText_encodeCursor]
    simp only [hloads, htime, hid, hiso, huuid, bind, Except.bind, pure, Except.pure]
  rw [MentionService.decodeCursor, hread]
  simp only
  rw [if_neg ht]

/-! ## The listing -/

/-- The tables of comments and mentions with the constraints that a list rests on; a time
that a `datetime` holds was written to each mention. -/
structure MentionTables (db : Db) extends CommentTables where
  pkMentions : PrimaryKey mentions
  pkComments : PrimaryKey comments
  fkMentionsComment : References Mention.commentId mentions comments
  fkMentionsMentionedBy : References Mention.mentionedById mentions db.users
  fkMentionsDecision : References Mention.decisionId mentions db.decisions
  times : ∀ m ∈ mentions, datetimeMin ≤ m.createdAt ∧ m.createdAt ≤ datetimeMax

/-- A mention that a user sees in a workspace: neither it nor its comment is deleted, and it
is unread, if those are asked for. -/
def isAskedFor (t : CommentTables) (workspaceId userId : UUID) (status : MentionStatus)
    (m : Mention) : Bool :=
  decide (m.workspaceId = workspaceId) && decide (m.mentionedUserId = userId) &&
    m.deletedAt.isNone &&
      (t.comments.any fun c => decide (c.id = m.commentId) && c.deletedAt.isNone) &&
    (decide (status ≠ .unread) || m.readAt.isNone)

def MentionRecord.key (r : MentionRecord) : MentionKey := r.mention.key

/-- The rows that the query finds without a cursor, the latest first. -/
def listing (db : Db) (t : CommentTables) (workspaceId userId : UUID) (unreadOnly : Bool) :
    List MentionRecord :=
  descending MentionRecord.key ((t.mentions.filterMap (MentionRepository.join db t)).filter
    (MentionRepository.isListed workspaceId userId unreadOnly))

theorem join_mention {db : Db} {t : CommentTables} {m : Mention} {r : MentionRecord}
    (h : MentionRepository.join db t m = some r) : r.mention = m := by
  simp only [MentionRepository.join, Option.bind_eq_bind, Option.bind_eq_some_iff] at h
  obtain ⟨c, -, u, -, d, -, h⟩ := h
  cases h
  rfl

section
variable {db : Db} (t : MentionTables db)

/-- A mention is joined with its comment, and with the rows that its foreign keys refer to. -/
theorem exists_join {m : Mention} (hm : m ∈ t.mentions) :
    ∃ r, MentionRepository.join db t.toCommentTables m = some r ∧ r.mention = m ∧
      r.comment.deletedAt.isNone =
        t.comments.any fun c => decide (c.id = m.commentId) && c.deletedAt.isNone := by
  obtain ⟨c, hc, hcid⟩ := t.fkMentionsComment m hm
  obtain ⟨u, hu, huid⟩ := t.fkMentionsMentionedBy m hm
  obtain ⟨d, hd, hdid⟩ := t.fkMentionsDecision m hm
  have hcomment : t.comments.find? (fun c => decide (c.id = m.commentId)) = some c := by
    rw [← hcid]
    exact Rows.find_of_mem t.pkComments hc
  have hactor : Rows.find m.mentionedById db.users = some u := by
    rw [← huid]
    exact Rows.find_of_mem db.valid.pkUsers hu
  have hdecision : Rows.find m.decisionId db.decisions = some d := by
    rw [← hdid]
    exact Rows.find_of_mem db.valid.pkDecisions hd
  have hany : c.deletedAt.isNone =
      t.comments.any fun c => decide (c.id = m.commentId) && c.deletedAt.isNone := by
    rw [Bool.eq_iff_iff, List.any_eq_true]
    constructor
    · intro h
      exact ⟨c, hc, by rw [Bool.and_eq_true, decide_eq_true_eq]; exact ⟨hcid, h⟩⟩
    · rintro ⟨c', hc', h⟩
      rw [Bool.and_eq_true, decide_eq_true_eq] at h
      have he : c' = c := Rows.eq_of_key t.pkComments hc' hc (h.1.trans hcid.symm)
      exact he ▸ h.2
  refine ⟨_, by rw [MentionRepository.join, hcomment, hactor, hdecision]; rfl, rfl, hany⟩

variable (workspaceId userId : UUID) (status : MentionStatus)

/-- The rows of the query are the mentions that are asked for. -/
theorem mentions_found :
    ((t.mentions.filterMap (MentionRepository.join db t.toCommentTables)).filter
      (MentionRepository.isListed workspaceId userId (status = .unread))).map
        MentionRecord.mention =
      t.mentions.filter (isAskedFor t.toCommentTables workspaceId userId status) := by
  have hgo : ∀ ms : List Mention, (∀ m ∈ ms, m ∈ t.mentions) →
      ((ms.filterMap (MentionRepository.join db t.toCommentTables)).filter
        (MentionRepository.isListed workspaceId userId (status = .unread))).map
          MentionRecord.mention =
        ms.filter (isAskedFor t.toCommentTables workspaceId userId status) := by
    intro ms
    induction ms with
    | nil => exact fun _ => rfl
    | cons m ms ih =>
        intro hms
        obtain ⟨r, hjoin, hmention, hcomment⟩ := exists_join t (hms m List.mem_cons_self)
        have hlisted : MentionRepository.isListed workspaceId userId (status = .unread) r =
            isAskedFor t.toCommentTables workspaceId userId status m := by
          rw [MentionRepository.isListed, isAskedFor, hmention, hcomment, decide_not]
        have hrest := ih fun x hx => hms x (List.mem_cons_of_mem _ hx)
        rw [List.filterMap_cons_some hjoin, List.filter_cons, List.filter_cons, hlisted]
        split
        · rw [List.map_cons, hmention, hrest]
        · exact hrest
  exact hgo t.mentions fun _ hm => hm

theorem key_injective {m m' : Mention} (h : m.key = m'.key) : m.id = m'.id := by
  have hid : m.id.toNat = m'.id.toNat := congrArg (fun k => (ofLex k).2) h
  exact BitVec.eq_of_toNat_eq hid

theorem nodup_keys : (((t.mentions.filterMap (MentionRepository.join db t.toCommentTables)).filter
    (MentionRepository.isListed workspaceId userId (status = .unread))).map
      MentionRecord.key).Nodup := by
  have hmentions := mentions_found t workspaceId userId status
  have hnodup : ((t.mentions.filter (isAskedFor t.toCommentTables workspaceId userId status)).map
      Mention.key).Nodup := by
    have hids : ((t.mentions.filter (isAskedFor t.toCommentTables workspaceId userId status)).map
        Mention.id).Nodup := t.pkMentions.sublist (List.filter_sublist.map _)
    refine List.pairwise_map.mpr ((List.pairwise_map.mp hids).imp fun hne he => ?_)
    exact hne (key_injective he)
  rw [← hmentions, List.map_map] at hnodup
  exact hnodup

end

/-! ## A page -/

/-- What a cursor is compared by. -/
def cursorKey (cursor : PyDatetime × UUID) : MentionKey := toLex (cursor.1.instant, cursor.2.toNat)

theorem isBehind_eq (cursor : Option (PyDatetime × UUID)) (r : MentionRecord) :
    MentionRepository.isBehind cursor r =
      (cursor.map cursorKey).all fun k => decide (r.key < k) := by
  cases cursor with
  | none => rfl
  | some c =>
      have hlt : r.key < cursorKey c ↔ r.mention.createdAt < c.1.instant ∨
          (r.mention.createdAt = c.1.instant ∧ r.mention.id < c.2) := by
        rw [MentionRecord.key, Mention.key, cursorKey, Prod.Lex.toLex_lt_toLex, BitVec.lt_def]
      simp [MentionRepository.isBehind, hlt]

theorem aware_instant {t : Datetime} (h : datetimeMin ≤ t ∧ t ≤ datetimeMax) :
    t.aware.instant = t := by
  have hmin : min t datetimeMax = t := min_eq_left h.2
  have hmax : max datetimeMin t = t := max_eq_right h.1
  simp only [PyDatetime.instant, Datetime.aware, hmin, hmax, Option.map_some, Option.getD_some]
  exact Int.sub_zero t

section
variable {db : Db} (t : MentionTables db) (room : Nat) (user : User) (workspaceId : UUID)
  (status : MentionStatus) (limit : Nat)

theorem listForUser_eq (cursor : Option (PyDatetime × UUID)) :
    MentionRepository.listForUser workspaceId user.id (status = .unread) limit cursor db
        t.toCommentTables =
      page limit (behind MentionRecord.key (cursor.map cursorKey)
        (listing db t.toCommentTables workspaceId user.id (status = .unread))) := by
  have hfound : (t.mentions.filterMap (MentionRepository.join db t.toCommentTables)).filter
      (fun r => MentionRepository.isListed workspaceId user.id (status = .unread) r &&
        MentionRepository.isBehind cursor r) =
      ((t.mentions.filterMap (MentionRepository.join db t.toCommentTables)).filter
        (MentionRepository.isListed workspaceId user.id (status = .unread))).filter
          fun r => (cursor.map cursorKey).all fun k => decide (r.key < k) := by
    rw [List.filter_filter]
    refine List.filter_congr fun r _ => ?_
    rw [isBehind_eq, Bool.and_comm]
  have hlisting := descending_filter
    (fun r : MentionRecord => (cursor.map cursorKey).all fun k => decide (r.key < k))
    (nodup_keys t workspaceId user.id status)
  rw [← hfound] at hlisting
  exact congrArg (page limit) hlisting

/-- The text of a cursor stands behind `before`. -/
def IsTextOf (room : Nat) (before : List MentionRecord) (cursor : Option Text) : Prop :=
  ∃ c, MentionService.decodeCursor room cursor = .ok c ∧ MentionRepository.isSent c = true ∧
    IsCursor MentionRecord.key before (c.map cursorKey)

theorem isTextOf_none : IsTextOf room [] none := ⟨none, rfl, rfl, rfl⟩

theorem createdAt_bounds {r : MentionRecord}
    (hr : r ∈ listing db t.toCommentTables workspaceId user.id (status = .unread)) :
    datetimeMin ≤ r.mention.createdAt ∧ r.mention.createdAt ≤ datetimeMax := by
  have hfound := (List.mem_filter.mp ((descending_perm _ _).mem_iff.mp hr)).1
  obtain ⟨m, hm, hjoin⟩ := List.mem_filterMap.mp hfound
  rw [join_mention hjoin]
  exact t.times m hm

/-- The cursor of the last row stands behind it. -/
theorem isTextOf_encodeCursor {before : List MentionRecord} {final : MentionRecord}
    (hlast : before.getLast? = some final)
    (hbounds : datetimeMin ≤ final.mention.createdAt ∧ final.mention.createdAt ≤ datetimeMax) :
    IsTextOf room before
      (some (MentionService.encodeCursor final.mention.createdAt.aware final.mention.id)) := by
  have haware : (final.mention.createdAt.aware).utcoffset ≠ none := Option.some_ne_none _
  refine ⟨_, decodeCursor_encodeCursor room _ haware _, ?_, ?_⟩
  · simp [MentionRepository.isSent, aware_instant hbounds, isTimestamp, hbounds]
  · rw [IsCursor, hlast]
    simp only [Option.map_some, cursorKey, aware_instant hbounds]
    rfl

theorem paged (hlimit : 1 ≤ limit)
    (hmember : MentionService.requireMembership user.id workspaceId db = .ok ()) :
    Paged (MentionService.listMentions room user workspaceId status limit db t.toCommentTables)
      MentionListResponse.nextCursor MentionListResponse.items MentionService.response limit
      (listing db t.toCommentTables workspaceId user.id (status = .unread)) (IsTextOf room) := by
  refine ⟨fun {before rest cursor} hlisting hat => ?_⟩
  obtain ⟨c, hdecode, hsent, hcursor⟩ := hat
  have hsorted :
      (before ++ rest).Pairwise fun a b => MentionRecord.key b < MentionRecord.key a := by
    rw [hlisting]
    exact pairwise_descending (nodup_keys t workspaceId user.id status)
  have hpage : MentionRepository.listForUser workspaceId user.id (status = .unread) limit c db
      t.toCommentTables = (rest.take limit, decide (limit < rest.length)) := by
    rw [listForUser_eq, ← hlisting, behind_append hcursor hsorted, page_eq]
  refine ⟨{
    items := (rest.take limit).map MentionService.response
    unreadCount := MentionRepository.unreadCountIn user.id workspaceId t.toCommentTables
    nextCursor := if limit < rest.length then (rest.take limit).getLast?.map fun final =>
      MentionService.encodeCursor final.mention.createdAt.aware final.mention.id else none },
    ?_, rfl, ?_, ?_⟩
  · rw [MentionService.listMentions, hmember]
    simp only [hdecode, hsent, hpage, bind, Except.bind, pure, Except.pure, decide_eq_true_eq,
      if_true]
  · intro hle
    exact if_neg (Nat.not_lt.mpr hle)
  · intro hlt
    have hne : rest.take limit ≠ [] := by
      intro he
      have hlen := congrArg List.length he
      rw [List.length_take, List.length_nil] at hlen
      omega
    obtain ⟨final, hfinal⟩ : ∃ final, (rest.take limit).getLast? = some final :=
      ⟨_, List.getLast?_eq_some_getLast hne⟩
    have hmem : final ∈ listing db t.toCommentTables workspaceId user.id (status = .unread) := by
      rw [← hlisting]
      exact List.mem_append_right _ (List.mem_of_mem_take (List.mem_of_getLast? hfinal))
    have hlast : (before ++ rest.take limit).getLast? = some final := by
      rw [List.getLast?_append, hfinal]
      rfl
    refine ⟨_, ?_, isTextOf_encodeCursor room hlast
      (createdAt_bounds t user workspaceId status hmem)⟩
    rw [if_pos hlt, hfinal]
    rfl

end

/-! ## All pages -/

/-- From the first page on, following the cursors comes to an end; the pages have `limit`
mentions at most, and together they are the mentions that are asked for, each once, by
descending time and identifier.  A cursor of any aware time and any identifier is read back. -/
theorem pages_list_all (room : Nat) :
    (∀ {db : Db} (t : MentionTables db) (user : User) (workspaceId : UUID) (status : MentionStatus)
      (limit : Nat), 1 ≤ limit →
      MentionService.requireMembership user.id workspaceId db = .ok () →
      ∃ (listed : List Mention) (pages : List MentionListResponse),
        (∀ fuel, listed.length < fuel → follow
          (MentionService.listMentions room user workspaceId status limit db t.toCommentTables)
          MentionListResponse.nextCursor fuel none = some pages) ∧
        (∃ final, pages.getLast? = some final ∧ final.nextCursor = none) ∧
        (∀ page ∈ pages, page.items.length ≤ limit) ∧
        (pages.flatMap MentionListResponse.items).map MentionResponse.id = listed.map Mention.id ∧
        listed.Perm (t.mentions.filter (isAskedFor t.toCommentTables workspaceId user.id status)) ∧
        listed.Nodup ∧
        listed.Pairwise fun m m' => m'.createdAt < m.createdAt ∨
          (m'.createdAt = m.createdAt ∧ m'.id < m.id)) ∧
    ∀ (createdAt : PyDatetime) (mentionId : UUID), createdAt.utcoffset ≠ none →
      MentionService.decodeCursor room (some (MentionService.encodeCursor createdAt mentionId)) =
        .ok (some (createdAt, mentionId)) := by
  refine ⟨?_, fun createdAt mentionId haware =>
    decodeCursor_encodeCursor room createdAt haware mentionId⟩
  intro db t user workspaceId status limit hlimit hmember
  have hpaged := paged t room user workspaceId status limit hlimit hmember
  obtain ⟨pages, hfollow, hitems, hshort, hlast⟩ :=
    hpaged.follow_listing hlimit (isTextOf_none room)
  have hperm : ((listing db t.toCommentTables workspaceId user.id (status = .unread)).map
      MentionRecord.mention).Perm
        (t.mentions.filter (isAskedFor t.toCommentTables workspaceId user.id status)) := by
    rw [← mentions_found]
    exact (descending_perm _ _).map _
  have hnodup : (t.mentions.filter
      (isAskedFor t.toCommentTables workspaceId user.id status)).Nodup :=
    List.Nodup.filter _ (List.Nodup.of_map _ t.pkMentions)
  refine ⟨_, pages, ?_, hlast, hshort, ?_, hperm, hperm.nodup_iff.mpr hnodup, ?_⟩
  · intro fuel hfuel
    rw [List.length_map] at hfuel
    exact hfollow fuel hfuel
  · rw [hitems, List.map_map, List.map_map]
    rfl
  · refine List.pairwise_map.mpr
      ((pairwise_descending (nodup_keys t workspaceId user.id status)).imp fun {r r'} h => ?_)
    rw [MentionRecord.key, MentionRecord.key, Mention.key, Mention.key,
      Prod.Lex.toLex_lt_toLex] at h
    exact h

namespace Sample

def comment (id : UUID) : Comment := ⟨id, 10, 20, none, none, 1, "Look", .null, none⟩

def mention (id commentId : UUID) : Mention :=
  ⟨id, 10, commentId, 2, 1, 20, none, none, 25, none, none⟩

/-- Ada mentions Bob in three comments at one time. -/
def mentioned : MentionTables drafted where
  comments := [comment 70, comment 71, comment 72]
  mentions := [mention 81 71, mention 80 70, mention 82 72]
  notifications := []
  pkMentions := by decide
  pkComments := by decide
  fkMentionsComment := by decide
  fkMentionsMentionedBy := by decide +kernel
  fkMentionsDecision := by decide +kernel
  times := by decide

end Sample

theorem pages_list_all_sample : ∃ pages : List MentionListResponse,
    follow (MentionService.listMentions 100 Sample.bob 10 .unread 2 Sample.drafted
      Sample.mentioned.toCommentTables) MentionListResponse.nextCursor 4 none = some pages ∧
    (∀ page ∈ pages, page.items.length ≤ 2) ∧
    MentionService.decodeCursor 100 (some (MentionService.encodeCursor (Datetime.aware 25) 80)) =
      .ok (some (Datetime.aware 25, 80)) := by
  have hmember : MentionService.requireMembership 2 10 Sample.drafted = .ok () := by
    decide +kernel
  obtain ⟨listed, pages, hfollow, -, hshort, -, hperm, -⟩ := (pages_list_all 100).1
    Sample.mentioned Sample.bob 10 .unread 2 (by decide) hmember
  have hlen : listed.length < 4 := by
    rw [hperm.length_eq]
    decide
  have haware : (Datetime.aware 25).utcoffset ≠ none := Option.some_ne_none _
  exact ⟨pages, hfollow 4 hlen, hshort, (pages_list_all 100).2 _ 80 haware⟩

end ForkRoom
