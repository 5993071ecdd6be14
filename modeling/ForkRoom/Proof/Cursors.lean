/-
# `Proof.Cursors` — every cursor that a client can send

`_decode_cursor` makes a time and an identifier of a cursor, or refuses it, unless

    the JSON behind it nests deeper than the interpreter reads    RecursionError
    its `created_at` is a time and its `id` is a number,
    a boolean, a list or an object                                AttributeError

(`decodes_or_refuses_iff`): `UUID(value)` calls `value.replace`, and the handler catches
`ValueError`, `TypeError` and `KeyError`.  What has been decoded is sent to the database,
and the driver has no time that is out of range in UTC:

    its `created_at` is 0001-01-01T00:00:00+01:00                 DBAPIError
-/
import ForkRoom.Proof.MentionList

namespace ForkRoom

open Codec JsonText

/-- `id` is absent, null or a string wherever `created_at` is a time. -/
def HasTextId : Value → Prop
  | .dict fields => ∀ s t v, lookup (.ofString "created_at") fields = some (.str s) →
      fromisoformat (Text.chars s) = some t → lookup (.ofString "id") fields = some v →
        v = .null ∨ ∃ text, v = .str text
  | _ => True

/-- A cursor that is not behind both steps that raise what is not caught. -/
def IsCaught (room : Nat) (cursor : Text) : Prop :=
  ∀ text, cursorText cursor = some text →
    loads (room + 1) text ≠ .error .recursion ∧
    ∀ payload, loads (room + 1) text = .ok payload → HasTextId payload

/-- A time with an offset, and an identifier beside it, is in range in UTC, too. -/
def HasSentTime : Value → Prop
  | .dict fields => ∀ s t text, lookup (.ofString "created_at") fields = some (.str s) →
      fromisoformat (Text.chars s) = some t → t.utcoffset ≠ none →
        lookup (.ofString "id") fields = some (.str text) →
          (parseUuid (Text.chars text)).isSome = true → isTimestamp t.instant = true
  | _ => True

/-- A cursor whose time the driver sends. -/
def IsSent (room : Nat) (cursor : Text) : Prop :=
  ∀ text payload, cursorText cursor = some text → loads (room + 1) text = .ok payload →
    HasSentTime payload

/-- Read as a time with an offset and an identifier, or refused. -/
def DecodesOrRefuses (room : Nat) (cursor : Text) : Prop :=
  (∃ createdAt mentionId, createdAt.utcoffset ≠ none ∧
    MentionService.decodeCursor room (some cursor) = .ok (some (createdAt, mentionId))) ∨
  MentionService.decodeCursor room (some cursor) = .error .cursorInvalid

section
variable {room : Nat} {cursor : Text}

/-- What the payload is made into. -/
def readPayload (payload : Value) : Except PyException (PyDatetime × UUID) := do
  let createdAt ← Value.fromisoformat (← Value.subscript "created_at" payload)
  let mentionId ← Value.uuid (← Value.subscript "id" payload)
  pure (createdAt, mentionId)

def IsUncaught : Except PyException (PyDatetime × UUID) → Prop
  | .ok _ | .error .valueError | .error .typeError | .error .keyError => False
  | .error _ => True

/-- A value that is no string and not null has no `replace`. -/
theorem uuid_isUncaught (t : PyDatetime) (v : Value) :
    IsUncaught ((Value.uuid v).map fun i => (t, i)) ↔ ¬ (v = .null ∨ ∃ text, v = .str text) := by
  cases v with
  | null => simp [Value.uuid, IsUncaught, Except.map]
  | str s => cases hu : parseUuid (Text.chars s) <;> simp [Value.uuid, hu, IsUncaught, Except.map]
  | bool b => simp [Value.uuid, IsUncaught, Except.map]
  | int i => simp [Value.uuid, IsUncaught, Except.map]
  | float text => simp [Value.uuid, IsUncaught, Except.map]
  | list items => simp [Value.uuid, IsUncaught, Except.map]
  | dict fields => simp [Value.uuid, IsUncaught, Except.map]

/-- Reading the time raises nothing but what is caught. -/
theorem fromisoformat_caught {v : Value} {e : PyException} (h : Value.fromisoformat v = .error e) :
    e = .valueError ∨ e = .typeError := by
  cases v with
  | str s =>
      cases ht : fromisoformat (Text.chars s) with
      | none =>
          rw [Value.fromisoformat, ht] at h
          cases h
          exact .inl rfl
      | some t =>
          rw [Value.fromisoformat, ht] at h
          cases h
  | null | bool | int | float | list | dict =>
      cases h
      exact .inr rfl

theorem fromisoformat_ok {v : Value} {t : PyDatetime} (h : Value.fromisoformat v = .ok t) :
    ∃ s, v = .str s ∧ fromisoformat (Text.chars s) = some t := by
  cases v with
  | str s =>
      cases ht : fromisoformat (Text.chars s) with
      | none =>
          rw [Value.fromisoformat, ht] at h
          cases h
      | some t' =>
          rw [Value.fromisoformat, ht] at h
          cases h
          exact ⟨s, rfl, ht⟩
  | null | bool | int | float | list | dict => cases h

theorem readDict_isUncaught (fields : List (Text × Value)) :
    IsUncaught (readPayload (.dict fields)) ↔ ¬ HasTextId (.dict fields) := by
  cases hc : lookup (.ofString "created_at") fields with
  | none => simp [readPayload, HasTextId, Value.subscript, hc, IsUncaught, bind, Except.bind]
  | some created =>
      cases ht : Value.fromisoformat created with
      | error e =>
          have hne : ∀ s t, created = .str s → ¬ fromisoformat (Text.chars s) = some t := by
            rintro s t rfl he
            rw [Value.fromisoformat, he] at ht
            cases ht
          have htext : HasTextId (.dict fields) := by
            intro s t v hs hst
            rw [hc] at hs
            exact absurd hst (hne s t (Option.some.inj hs))
          have hcaught := fromisoformat_caught ht
          simp only [readPayload, Value.subscript, hc, ht, bind, Except.bind, Option.map_some,
            Option.getD_some, htext, not_true, iff_false]
          rcases hcaught with rfl | rfl <;> exact id
      | ok t =>
          obtain ⟨s, rfl, hst⟩ := fromisoformat_ok ht
          cases hi : lookup (.ofString "id") fields with
          | none =>
              simp [readPayload, HasTextId, Value.subscript, hc, ht, hi, IsUncaught, bind,
                Except.bind]
          | some v =>
              have hread : readPayload (.dict fields) = (Value.uuid v).map fun i => (t, i) := by
                simp only [readPayload, Value.subscript, hc, ht, hi, bind, Except.bind,
                  Option.map_some, Option.getD_some, pure, Except.pure]
                cases Value.uuid v <;> rfl
              have htext : HasTextId (.dict fields) ↔ (v = .null ∨ ∃ text, v = .str text) := by
                constructor
                · intro h
                  exact h s t v hc hst hi
                · intro h s' t' v' _ _ hv'
                  rw [hi] at hv'
                  cases hv'
                  exact h
              rw [hread, uuid_isUncaught, htext]

theorem readPayload_isUncaught (payload : Value) :
    IsUncaught (readPayload payload) ↔ ¬ HasTextId payload := by
  cases payload with
  | dict fields => exact readDict_isUncaught fields
  | null | bool | int | float | str | list =>
      exact ⟨fun h => h.elim, fun h => absurd trivial h⟩

theorem readCursor_isUncaught :
    IsUncaught (MentionService.readCursor room cursor) ↔ ¬ IsCaught room cursor := by
  cases ht : cursorText cursor with
  | none =>
      have hcaught : IsCaught room cursor := by
        intro text htext
        rw [ht] at htext
        cases htext
      rw [MentionService.readCursor, ht]
      exact ⟨fun h => h.elim, fun h => absurd hcaught h⟩
  | some text =>
      have hiff : IsCaught room cursor ↔ loads (room + 1) text ≠ .error .recursion ∧
          ∀ payload, loads (room + 1) text = .ok payload → HasTextId payload := by
        constructor
        · intro h
          exact h text ht
        · intro h text' ht'
          rw [ht] at ht'
          cases ht'
          exact h
      rw [hiff, MentionService.readCursor, ht]
      cases hl : loads (room + 1) text with
      | error e =>
          cases e with
          | value => simp [jsonLoads, hl, IsUncaught, bind, Except.bind]
          | recursion => simp [jsonLoads, hl, IsUncaught, bind, Except.bind]
      | ok payload =>
          have hread : (do
              let payload ← jsonLoads room text
              let createdAt ← Value.fromisoformat (← Value.subscript "created_at" payload)
              let mentionId ← Value.uuid (← Value.subscript "id" payload)
              pure (createdAt, mentionId)) = readPayload payload := by
            rw [jsonLoads, hl]
            rfl
          simp only [hread, readPayload_isUncaught]
          simp

/-- What is decoded of a cursor is a time with an offset and an identifier. -/
theorem decodeCursor_ok {c : Option (PyDatetime × UUID)}
    (h : MentionService.decodeCursor room (some cursor) = .ok c) :
    ∃ createdAt mentionId, createdAt.utcoffset ≠ none ∧ c = some (createdAt, mentionId) := by
  cases hr : MentionService.readCursor room cursor with
  | error e =>
      rw [MentionService.decodeCursor, hr] at h
      cases e <;> cases h
  | ok p =>
      rw [MentionService.decodeCursor, hr] at h
      simp only at h
      split at h
      · cases h
      · rename_i haware
        cases h
        exact ⟨p.1, p.2, haware, rfl⟩

theorem decodesOrRefuses_iff :
    DecodesOrRefuses room cursor ↔ ¬ IsUncaught (MentionService.readCursor room cursor) := by
  cases hr : MentionService.readCursor room cursor with
  | error e => cases e <;> simp [DecodesOrRefuses, MentionService.decodeCursor, hr, IsUncaught]
  | ok p =>
      by_cases haware : p.1.utcoffset = none
      · simp [DecodesOrRefuses, MentionService.decodeCursor, hr, IsUncaught, haware]
      · have hok : DecodesOrRefuses room cursor :=
          .inl ⟨p.1, p.2, haware, by simp [MentionService.decodeCursor, hr, haware]⟩
        exact ⟨fun _ h => h.elim, fun _ => hok⟩

/-! ## What is sent -/

theorem subscript_ok {key : String} {payload v : Value}
    (h : Value.subscript key payload = .ok v) :
    ∃ fields, payload = .dict fields ∧ lookup (.ofString key) fields = some v := by
  cases payload with
  | dict fields =>
      cases hv : lookup (.ofString key) fields with
      | none =>
          rw [Value.subscript, hv] at h
          cases h
      | some v' =>
          rw [Value.subscript, hv] at h
          cases h
          exact ⟨fields, rfl, hv⟩
  | null | bool | int | float | str | list => cases h

theorem uuid_ok {v : Value} {i : UUID} (h : Value.uuid v = .ok i) :
    ∃ s, v = .str s ∧ parseUuid (Text.chars s) = some i := by
  cases v with
  | str s =>
      cases hi : parseUuid (Text.chars s) with
      | none =>
          rw [Value.uuid, hi] at h
          cases h
      | some i' =>
          rw [Value.uuid, hi] at h
          cases h
          exact ⟨s, rfl, hi⟩
  | null | bool | int | float | list | dict => cases h

/-- A payload is read exactly if it has a time and an identifier. -/
theorem readPayload_ok {payload : Value} {t : PyDatetime} {i : UUID} :
    readPayload payload = .ok (t, i) ↔ ∃ fields s text, payload = .dict fields ∧
      lookup (.ofString "created_at") fields = some (.str s) ∧
      fromisoformat (Text.chars s) = some t ∧
      lookup (.ofString "id") fields = some (.str text) ∧ parseUuid (Text.chars text) = some i := by
  constructor
  · intro h
    obtain ⟨created, hcreated, h⟩ := Optimistic.bind_ok h
    obtain ⟨t', ht, h⟩ := Optimistic.bind_ok h
    obtain ⟨v, hv, h⟩ := Optimistic.bind_ok h
    obtain ⟨i', hi, h⟩ := Optimistic.bind_ok h
    cases h
    obtain ⟨fields, rfl, hlookup⟩ := subscript_ok hcreated
    obtain ⟨s, rfl, htime⟩ := fromisoformat_ok ht
    obtain ⟨fields', hfields, hid⟩ := subscript_ok hv
    cases hfields
    obtain ⟨text, rfl, huuid⟩ := uuid_ok hi
    exact ⟨fields, s, text, rfl, hlookup, htime, hid, huuid⟩
  · rintro ⟨fields, s, text, rfl, hcreated, ht, hv, hi⟩
    simp only [readPayload, Value.subscript, hcreated, hv, Option.map_some, Option.getD_some, bind,
      Except.bind, Value.fromisoformat, ht, Value.uuid, hi]
    rfl

/-- What a cursor is decoded into. -/
theorem decodeCursor_some {t : PyDatetime} {i : UUID} :
    MentionService.decodeCursor room (some cursor) = .ok (some (t, i)) ↔
      t.utcoffset ≠ none ∧ ∃ text payload, cursorText cursor = some text ∧
        loads (room + 1) text = .ok payload ∧ readPayload payload = .ok (t, i) := by
  have hdecode : MentionService.decodeCursor room (some cursor) = .ok (some (t, i)) ↔
      t.utcoffset ≠ none ∧ MentionService.readCursor room cursor = .ok (t, i) := by
    rw [MentionService.decodeCursor]
    cases MentionService.readCursor room cursor with
    | error e => cases e <;> simp
    | ok p =>
        by_cases haware : p.1.utcoffset = none
        · simp only [if_pos haware, Except.ok.injEq]
          refine ⟨fun h => (by cases h), ?_⟩
          rintro ⟨ht, rfl⟩
          exact absurd haware ht
        · simp only [if_neg haware, Except.ok.injEq, Option.some.injEq]
          refine ⟨?_, And.right⟩
          intro h
          have hp : p = (t, i) := h
          subst hp
          exact ⟨haware, rfl⟩
  rw [hdecode, MentionService.readCursor]
  refine and_congr_right fun _ => ?_
  cases cursorText cursor with
  | none => simp
  | some text =>
      simp only [jsonLoads]
      cases hload : loads (room + 1) text with
      | error e => cases e <;> simp [hload, bind, Except.bind]
      | ok payload =>
          simp only [Option.some.injEq, exists_and_left, exists_eq_left', hload, Except.ok.injEq]
          rfl

/-- A cursor is one that the driver sends exactly if what is decoded of it is. -/
theorem isSent_iff : IsSent room cursor ↔ ∀ c,
    MentionService.decodeCursor room (some cursor) = .ok c → MentionRepository.isSent c = true := by
  constructor
  · intro h c hc
    obtain ⟨t, i, -, rfl⟩ := decodeCursor_ok hc
    obtain ⟨haware, text, payload, htext, hload, hread⟩ := decodeCursor_some.mp hc
    obtain ⟨fields, s, id, rfl, hcreated, ht, hv, hi⟩ := readPayload_ok.mp hread
    have hrange := h text _ htext hload s t id hcreated ht haware hv
      (Option.isSome_iff_exists.mpr ⟨i, hi⟩)
    simp [MentionRepository.isSent, hrange]
  · intro h text payload htext hload
    cases payload with
    | dict fields =>
        intro s t id hcreated ht haware hv hi
        obtain ⟨i, hi⟩ := Option.isSome_iff_exists.mp hi
        have hsent := h (some (t, i)) (decodeCursor_some.mpr ⟨haware, text, _, htext, hload,
          readPayload_ok.mpr ⟨fields, s, id, rfl, hcreated, ht, hv, hi⟩⟩)
        simpa [MentionRepository.isSent] using hsent
    | null | bool | int | float | str | list => trivial

section
variable {db : Db} {t : CommentTables} {user : User} {workspaceId : UUID} {status : MentionStatus}
  {limit : Nat}

/-- A member whose cursor is decoded gets a page if the driver sends it. -/
theorem listMentions_ok {c : Option (PyDatetime × UUID)}
    (hmember : MentionService.requireMembership user.id workspaceId db = .ok ())
    (h : MentionService.decodeCursor room (some cursor) = .ok c)
    (hsent : MentionRepository.isSent c = true) :
    ∃ page, MentionController.listMentions room workspaceId user status limit (some cursor) db t =
      .ok page := by
  rw [MentionController.listMentions, MentionService.listMentions, hmember]
  simp only [h, hsent, bind, Except.bind, pure, Except.pure, if_true]
  exact ⟨_, rfl⟩

theorem listMentions_unsent {c : Option (PyDatetime × UUID)}
    (hmember : MentionService.requireMembership user.id workspaceId db = .ok ())
    (h : MentionService.decodeCursor room (some cursor) = .ok c)
    (hsent : ¬ MentionRepository.isSent c = true) :
    MentionController.listMentions room workspaceId user status limit (some cursor) db t =
      .error (.raised .dbapiError) := by
  rw [MentionController.listMentions, MentionService.listMentions, hmember]
  simp only [h, bind, Except.bind, if_neg hsent]
  rfl

theorem listMentions_error {e : MentionListError}
    (hmember : MentionService.requireMembership user.id workspaceId db = .ok ())
    (h : MentionService.decodeCursor room (some cursor) = .error e) :
    MentionController.listMentions room workspaceId user status limit (some cursor) db t =
      .error (raiseMentionError e) := by
  rw [MentionController.listMentions, MentionService.listMentions, hmember]
  simp only [h, bind, Except.bind]
  rfl

/-- A page or 400 is the answer exactly to a cursor that is refused, or decoded and sent. -/
theorem answered_iff
    (hmember : MentionService.requireMembership user.id workspaceId db = .ok ()) :
    (MentionController.listMentions room workspaceId user status limit (some cursor) db t =
        .error (.http ⟨400, "Invalid mentions cursor"⟩) ∨
      ∃ page, MentionController.listMentions room workspaceId user status limit (some cursor) db t =
        .ok page) ↔ DecodesOrRefuses room cursor ∧ IsSent room cursor := by
  rw [isSent_iff]
  cases hd : MentionService.decodeCursor room (some cursor) with
  | ok c =>
      obtain ⟨createdAt, mentionId, haware, rfl⟩ := decodeCursor_ok hd
      have hdecodes : DecodesOrRefuses room cursor := .inl ⟨createdAt, mentionId, haware, hd⟩
      simp only [hdecodes, true_and, Except.ok.injEq, forall_eq']
      by_cases hsent : MentionRepository.isSent (some (createdAt, mentionId)) = true
      · exact ⟨fun _ => hsent, fun _ => .inr (listMentions_ok hmember hd hsent)⟩
      · simp [listMentions_unsent hmember hd hsent, hsent]
  | error e =>
      rw [listMentions_error hmember hd, DecodesOrRefuses, hd]
      cases e <;> simp [raiseMentionError]

end

end

/-- Each cursor is read as a time with an offset and an identifier, or refused, exactly where
neither uncaught exception is reached; and every list of it for a member is answered with a
page or with 400 exactly if, further, the driver sends its time. -/
theorem decodes_or_refuses_iff (room : Nat) (cursor : Text) :
    (DecodesOrRefuses room cursor ↔ IsCaught room cursor) ∧
    ∀ (db : Db) (t : CommentTables) (user : User) (workspaceId : UUID) (status : MentionStatus)
      (limit : Nat), MentionService.requireMembership user.id workspaceId db = .ok () →
      ((MentionController.listMentions room workspaceId user status limit (some cursor) db t =
          .error (.http ⟨400, "Invalid mentions cursor"⟩) ∨
        ∃ page, MentionController.listMentions room workspaceId user status limit (some cursor)
          db t = .ok page) ↔ IsCaught room cursor ∧ IsSent room cursor) := by
  have hcaught : DecodesOrRefuses room cursor ↔ IsCaught room cursor := by
    rw [decodesOrRefuses_iff, readCursor_isUncaught, not_not]
  refine ⟨hcaught, fun db t user workspaceId status limit hmember => ?_⟩
  rw [← hcaught]
  exact answered_iff hmember

theorem decodes_or_refuses_iff_sample :
    MentionController.listMentions 100 10 Sample.bob .all 30 (some []) Sample.drafted
        Sample.mentioned.toCommentTables = .error (.http ⟨400, "Invalid mentions cursor"⟩) ∨
      ∃ page, MentionController.listMentions 100 10 Sample.bob .all 30 (some []) Sample.drafted
        Sample.mentioned.toCommentTables = .ok page := by
  have hmember : MentionService.requireMembership 2 10 Sample.drafted = .ok () := by
    decide +kernel
  have hcaught : IsCaught 100 [] := by
    intro text htext
    have hempty : cursorText [] = some [] := cursorText_encode64 []
    rw [hempty] at htext
    cases htext
    exact ⟨fun h => (nomatch h), fun payload h => (nomatch h)⟩
  have hsent : IsSent 100 [] := by
    intro text payload htext hload
    have hempty : cursorText [] = some [] := cursorText_encode64 []
    rw [hempty] at htext
    cases htext
    nomatch hload
  exact ((decodes_or_refuses_iff 100 []).2 Sample.drafted Sample.mentioned.toCommentTables
    Sample.bob 10 .all 30 hmember).mpr ⟨hcaught, hsent⟩

namespace Sample

/-- base64 of `{"created_at":"2026-01-01T00:00:00+00:00","id":1}` -/
def numbered : Text := .ofString
  "eyJjcmVhdGVkX2F0IjoiMjAyNi0wMS0wMVQwMDowMDowMCswMDowMCIsImlkIjoxfQ=="

def numberedText : List Char :=
  "\x7b\"created_at\":\"2026-01-01T00:00:00+00:00\",\"id\":1\x7d".toList

theorem cursorText_numbered : cursorText numbered = some numberedText := by
  have h : numbered = (asciiChars (encode64 (numberedText.flatMap String.utf8EncodeChar))).map
      .ofChar := by
    decide +kernel
  rw [h]
  exact cursorText_encode64 numberedText

theorem loads_numbered : loads 101 numberedText = .ok (.dict [
    fieldValue ("created_at", "2026-01-01T00:00:00+00:00"), (.ofString "id", .int 1)]) := by
  have hplain : IsPlainField ("created_at", "2026-01-01T00:00:00+00:00") := by
    simp [IsPlainField, IsPlain]
  have hfirst := scanField_plain hplain 100 (',' :: "\"id\":1\x7d".toList)
  have hid : scanString ("id\":1\x7d".toList) = some (.ofString "id", ":1\x7d".toList) :=
    scanString_plain isPlain_names.2 _
  have hsecond : scanField (scanOnce 100) "\"id\":1\x7d".toList =
      .ok ((.ofString "id", .int 1), "\x7d".toList) := by
    have htext : "\"id\":1\x7d".toList = '"' :: "id\":1\x7d".toList := rfl
    rw [htext, scanField]
    simp only [hid]
    rfl
  exact loads_object (scanFields_more hfirst (scanFields_last hsecond))

theorem decodeCursor_numbered :
    MentionService.decodeCursor 100 (some numbered) = .error (.raised .attributeError) := by
  have htime : (fromisoformat "2026-01-01T00:00:00+00:00".toList).isSome := by decide
  obtain ⟨t, ht⟩ := Option.isSome_iff_exists.mp htime
  have hiso : Value.fromisoformat (.str (.ofString "2026-01-01T00:00:00+00:00")) = .ok t := by
    rw [Value.fromisoformat, Text.ofString, chars_ofChars, ht]
    rfl
  have hloads : jsonLoads 100 numberedText = .ok (.dict [
      fieldValue ("created_at", "2026-01-01T00:00:00+00:00"), (.ofString "id", .int 1)]) := by
    rw [jsonLoads, loads_numbered]
  have hread : MentionService.readCursor 100 numbered = .error .attributeError := by
    rw [MentionService.readCursor, cursorText_numbered]
    have hcreated : Value.subscript "created_at" (.dict [
        fieldValue ("created_at", "2026-01-01T00:00:00+00:00"), (.ofString "id", .int 1)]) =
          .ok (.str (.ofString "2026-01-01T00:00:00+00:00")) := rfl
    have hid : Value.subscript "id" (.dict [
        fieldValue ("created_at", "2026-01-01T00:00:00+00:00"), (.ofString "id", .int 1)]) =
          .ok (.int 1) := rfl
    simp only [hloads, hcreated, hiso, hid, bind, Except.bind]
    rfl
  rw [MentionService.decodeCursor, hread]

end Sample

/-- A number for an identifier: `'int' object has no attribute 'replace'`, and no 400. -/
theorem numbered_escapes : ¬ DecodesOrRefuses 100 Sample.numbered ∧
    MentionController.listMentions 100 10 Sample.bob .all 30 (some Sample.numbered) Sample.drafted
      Sample.mentioned.toCommentTables = .error (.raised .attributeError) := by
  have hmember : MentionService.requireMembership 2 10 Sample.drafted = .ok () := by
    decide +kernel
  refine ⟨?_, listMentions_error hmember Sample.decodeCursor_numbered⟩
  rw [DecodesOrRefuses, Sample.decodeCursor_numbered]
  rintro (⟨_, _, _, h⟩ | h) <;> cases h

end ForkRoom
