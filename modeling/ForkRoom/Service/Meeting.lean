/-
# `Service.Meeting` — tokens for the meetings, and what a client sends

`MeetingService.issue_token` of `app/services/meeting.py`, as far as its token: three
reads decide what it says of its user.  The permission in the answer is with the other
answers, in `System.Gateway`; the `IceServer`s come from the settings and are left out.

`MeetingClientEvent` of `app/schemas/meeting.py`: the event carries what its validator
has found out.
-/
import ForkRoom.Lib.Json
import ForkRoom.Model.Meeting
import ForkRoom.Service.Decision

/-! ## The length of a text -/

namespace Json

/-- The length of `json.dumps(value)`, which writes a space after each comma and colon. -/
def width : Json → ℕ
  | null => 4
  | bool true => 4
  | bool false => 5
  | int i => (toString i).length
  | decimal text => text.length
  | str s => (quote s).length
  | arr items => 2 + widthItems items + 2 * (items.length - 1)
  | obj fields => 2 + widthFields fields + 2 * (fields.length - 1)
where
  widthItems : List Json → ℕ
    | [] => 0
    | v :: vs => width v + widthItems vs
  widthFields : List (String × Json) → ℕ
    | [] => 0
    | (k, v) :: fs => (quote k).length + 2 + width v + widthFields fs

theorem width_le_widthFields {name : String} {v : Json} :
    ∀ {fields : List (String × Json)}, fields.lookup name = some v →
      v.width ≤ width.widthFields fields
  | [], h => by cases h
  | (k, u) :: fields, h => by
      rw [List.lookup_cons] at h
      rw [width.widthFields]
      split at h
      · cases h
        omega
      · have hrest := width_le_widthFields h
        omega

/-- What a field holds is not longer than the object. -/
theorem width_lookup {name : String} {v : Json} {fields : List (String × Json)}
    (h : fields.lookup name = some v) : v.width ≤ (obj fields).width := by
  have hfields := width_le_widthFields h
  rw [width]
  omega

end Json

namespace ForkRoom

open Optimistic Reads Rows

/-! ## Tokens -/

def WorkspaceRole.value : WorkspaceRole → String
  | owner => "owner"
  | admin => "admin"
  | member => "member"
  | viewer => "viewer"

namespace MeetingService

/-- Who may facilitate a meeting. -/
def facilitates (role : WorkspaceRole) : Bool := role = .owner || role = .admin

/-- What the token says of a member. -/
def claims (user : User) (membership : WorkspaceMember) : MeetingTokenClaims :=
  { userId := user.id
    displayName := if user.displayName = "" then user.email else user.displayName
    role := membership.role.value
    canFacilitate := facilitates membership.role }

/-- The reads of `issue_token`, and what they come to. -/
def issueToken (currentUser : User) (workspaceId decisionId : UUID) :
    Query MeetingTokenClaims := do
  let workspace ← query (WorkspaceRepository.getById workspaceId)
  let membership ← query (WorkspaceRepository.getMembership workspaceId currentUser.id)
  require workspace.isSome .workspaceNotFound
  let membership ← orThrow membership .workspaceNotFound
  let _ ← orThrow (← query (DecisionRepository.getForWorkspace workspaceId decisionId))
    .decisionNotFound
  pure (claims currentUser membership)

/-- The membership is that of the second read, the decision that of the third. -/
theorem issueToken_ok {user : User} {w d : UUID} {ss : List Db}
    {c : MeetingTokenClaims} (h : (issueToken user w d).Ends ss (.ok c)) :
    ∃ s₁ s₂ s₃ m decision, ss = [s₁, s₂, s₃] ∧
      WorkspaceRepository.getMembership w user.id s₂ = some m ∧
      DecisionRepository.getForWorkspace w d s₃ = some decision ∧ c = claims user m := by
  simp only [issueToken, ends_query_bind, ends_require_bind, ends_orThrow_bind, ends_pure] at h
  obtain ⟨s₁, _, rfl, s₂, _, rfl, -, m, hm, s₃, _, rfl, decision, hd, rfl, rfl⟩ := h
  exact ⟨s₁, s₂, s₃, m, decision, rfl, hm, hd, rfl⟩

end MeetingService

/-! ## What a client sends -/

inductive MeetingEventType where
  | heartbeat
  | signalOffer
  | signalAnswer
  | signalIce
  | mediaState
  | speakerJoin
  | speakerLeave
  | timerStart
  | timerCancel
  | voteSync
  deriving DecidableEq, Repr

namespace MeetingEventType

def value : MeetingEventType → String
  | heartbeat => "heartbeat"
  | signalOffer => "signal.offer"
  | signalAnswer => "signal.answer"
  | signalIce => "signal.ice"
  | mediaState => "media.state"
  | speakerJoin => "speaker.join"
  | speakerLeave => "speaker.leave"
  | timerStart => "timer.start"
  | timerCancel => "timer.cancel"
  | voteSync => "vote.sync"

def all : List MeetingEventType :=
  [heartbeat, signalOffer, signalAnswer, signalIce, mediaState, speakerJoin, speakerLeave,
    timerStart, timerCancel, voteSync]

/-- The member of the enumeration that has the value. -/
def ofValue (s : String) : Option MeetingEventType := all.find? fun t => t.value = s

/-- The events that go to one user. -/
def isSignal : MeetingEventType → Bool
  | signalOffer | signalAnswer | signalIce => true
  | _ => false

end MeetingEventType

/-- `payload.get("duration_seconds")`, if it is an integer. -/
def durationSeconds (payload : List (String × Json)) : Option ℤ :=
  match payload.lookup "duration_seconds" with
  | some (.int i) => some i
  | _ => none

structure MeetingClientEvent where
  type : MeetingEventType
  targetUserId : Option UUID
  payload : List (String × Json)
  target : type.isSignal → targetUserId.isSome
  duration : type = .timerStart → (durationSeconds payload).isSome

namespace MeetingClientEvent

/-- `int(event.payload["duration_seconds"])` -/
def seconds (event : MeetingClientEvent) (h : event.type = .timerStart) : ℤ :=
  (durationSeconds event.payload).get (event.duration h)

/-- A target that is `null` is none. -/
def readTarget (readUuid : String → Option UUID) : Option Json → Option (Option UUID)
  | none | some .null => some none
  | some (.str s) => (readUuid s).map some
  | some _ => none

def readPayload : Option Json → Option (List (String × Json))
  | none => some []
  | some (.obj fields) => some fields
  | some _ => none

/-- `validate_event_shape` -/
def validateEventShape (type : MeetingEventType) (targetUserId : Option UUID)
    (payload : List (String × Json)) : Option MeetingClientEvent :=
  if h : (type.isSignal → targetUserId.isSome) ∧
      (type = .timerStart → (durationSeconds payload).isSome) then
    some ⟨type, targetUserId, payload, h.1, h.2⟩
  else none

/-- `model_validate`; none for a `ValidationError`. -/
def modelValidate (readUuid : String → Option UUID) : Json → Option MeetingClientEvent
  | .obj fields => do
      let .str s ← fields.lookup "type" | none
      let type ← MeetingEventType.ofValue s
      let targetUserId ← readTarget readUuid (fields.lookup "target_user_id")
      let payload ← readPayload (fields.lookup "payload")
      validateEventShape type targetUserId payload
  | _ => none

/-- The payload is in what was sent, or empty. -/
theorem width_payload {readUuid : String → Option UUID} {raw : Json} {event : MeetingClientEvent}
    (h : modelValidate readUuid raw = some event) :
    event.payload = [] ∨ (Json.obj event.payload).width ≤ raw.width := by
  cases raw with
  | obj fields =>
      simp only [modelValidate] at h
      obtain ⟨v, -, h⟩ := Option.bind_eq_some_iff.mp h
      split at h
      · obtain ⟨type, -, h⟩ := Option.bind_eq_some_iff.mp h
        obtain ⟨target, -, h⟩ := Option.bind_eq_some_iff.mp h
        obtain ⟨payload, hpayload, h⟩ := Option.bind_eq_some_iff.mp h
        unfold validateEventShape at h
        split at h
        · cases h
          unfold readPayload at hpayload
          split at hpayload
          · cases hpayload
            exact .inl rfl
          · cases hpayload
            rename_i hlookup
            exact .inr (Json.width_lookup hlookup)
          · cases hpayload
        · cases h
      · cases h
  | _ => cases h

end MeetingClientEvent

end ForkRoom
