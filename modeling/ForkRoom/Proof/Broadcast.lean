/-
# `Proof.Broadcast` — who speaks in a meeting, and who hears it

An event of a room was published by a connection (`Publishes`), that had been opened with
a token of the room (`Admits`), that had been signed (`Signs`) for who had been read as a
member (`Reads`), each in a step of the run (`events_authentic`).  A connection is
sent what its room has heard since it subscribed, without a gap (`relay_exact`); what it
says itself stands between its `presence.joined` and its `presence.left`
(`presence_brackets`).

Each is carried by what has become of every connection after a step (`Became`).
-/
import ForkRoom.System.Broadcast
import ForkRoom.System.Gateway
import Mathlib.Data.Rat.Floor

namespace ForkRoom

namespace Broadcast

section
variable {T : Type} [Field T] [LinearOrder T]

section
variable [FloorRing T]

/-- Later in a run. -/
abbrev Run (dep : Deployment) : State T → State T → Prop :=
  Machine.Run (State.step dep) fun _ _ => True

/-- Some step of the run from `s₀`. -/
abbrev Made (dep : Deployment) (s₀ : State T) :
    (State T → Action T → State T → Prop) → State T → Prop :=
  Machine.Made (State.step dep) (fun _ _ => True) s₀

end

/-! ## What a token permits -/

/-- The permission that stands in the answer beside a token. -/
def permissionOf (claims : MeetingTokenClaims) : Gateway.MeetingPermission :=
  if claims.canFacilitate then .facilitate
  else if claims.role = "viewer" then .observe
  else .participate

theorem permissionOf_claims (user : User) (m : WorkspaceMember) :
    permissionOf (MeetingService.claims user m) =
      if m.role = .owner ∨ m.role = .admin then .facilitate
      else if m.role = .viewer then .observe
      else .participate := by
  cases h : m.role <;>
    simp [permissionOf, MeetingService.claims, MeetingService.facilitates, WorkspaceRole.value, h]

/-- The answer says of its user what its token does. -/
theorem meetingPermission_eq (user : User) (w d : UUID) :
    Gateway.meetingPermission user w d =
      MeetingService.issueToken user w d >>= fun claims => pure (permissionOf claims) := by
  simp only [Gateway.meetingPermission, MeetingService.issueToken,
    Optimistic.Reads.bind_assoc, Optimistic.Reads.pure_bind, permissionOf_claims]

/-! ## What has become of a connection -/

/-- The connection at `j` is opened with the token, which is good. -/
structure Opens (dep : Deployment) (token : MeetingToken) (j : ℕ) (s : State T) (a : Action T)
    (s' : State T) : Prop where
  connect : ∃ origin ∈ dep.settings.meetingAllowedOrigins,
    a = .connect (some origin) token.workspaceId token.decisionId token
  signed : token ∈ s.tokens
  live : s.clock < token.exp
  index : s.connections.length = j
  opened : s'.connections = s.connections ++
    [⟨token.workspaceId, token.decisionId, token.claims, .joining, none, []⟩]

/-- The connection at `j` after a step. -/
inductive Became (dep : Deployment) (s : State T) (a : Action T) (s' : State T) (j : ℕ) :
    Connection T → Prop
  | kept {c : Connection T} : s.connections[j]? = some c → s'.published = s.published →
      Became dep s a s' j c
  | connected {token : MeetingToken} : Opens dep token j s a s' → s'.published = s.published →
      Became dep s a s' j ⟨token.workspaceId, token.decisionId, token.claims, .joining, none, []⟩
  | readied {c : Connection T} {state : MeetingState T} {now : T} :
      s.connections[j]? = some c → c.phase = .joining → s'.published = s.published →
      Became dep s a s' j { c with
        phase := .announcing (presence "presence.joined" c.claims now)
        received :=
          [eventEnvelope "meeting.ready" c.claims (.state state) (some c.claims.userId) now] }
  | moved {c : Connection T} {phase : Phase T} : s.connections[j]? = some c →
      Moves dep.settings.toMeetingSettings c phase → s'.published = s.published →
      Became dep s a s' j { c with phase := phase }
  | silenced {c : Connection T} {phase : Phase T} : s.connections[j]? = some c →
      phase = c.phase ∨ Moves dep.settings.toMeetingSettings c phase →
      s'.published = s.published → Became dep s a s' j { c.silenced with phase := phase }
  | subscribed {c : Connection T} : s.connections[j]? = some c → c.phase.isRelayed = true →
      c.relay = none → s'.published = s.published →
      Became dep s a s' j { c with relay := some ⟨s.published.length, [], true⟩ }
  | delivered {c : Connection T} {r : Relay T} {event : Envelope T} {pending : List (Envelope T)} :
      s.connections[j]? = some c → c.relay = some r → r.listening = true →
      r.pending = event :: pending → s'.published = s.published →
      Became dep s a s' j { c with
        relay := some { r with pending := pending }
        received := if event.isFor c.claims.userId then c.received ++ [event] else c.received }
  /-- another connection has spoken -/
  | heard {c speaker : Connection T} {i : ℕ} {event : Envelope T} {next : Phase T} :
      s.connections[j]? = some c → s.connections[i]? = some speaker → i ≠ j →
      speaker.phase.speaks = some (event, next) →
      s'.published = s.published ++ [⟨speaker.workspaceId, speaker.decisionId, i, event⟩] →
      Became dep s a s' j (c.hear speaker.workspaceId speaker.decisionId event)
  /-- this one has -/
  | spoke {c : Connection T} {event : Envelope T} {next : Phase T} :
      s.connections[j]? = some c → c.phase.speaks = some (event, next) →
      s'.published = s.published ++ [⟨c.workspaceId, c.decisionId, j, event⟩] →
      Became dep s a s' j
        (Connection.hear c.workspaceId c.decisionId event { c with phase := next })

variable {dep : Deployment} {s₀ s s' : State T}

/-- One connection is put in the place of another, and nothing is published. -/
theorem Became.put {a : Action T} {i j : ℕ} {c x : Connection T}
    (hpublished : s'.published = s.published)
    (hc : Became dep s a s' i c) (hj : (s.connections.set i c)[j]? = some x) :
    Became dep s a s' j x := by
  rcases Machine.getElem?_set_cases hj with ⟨rfl, rfl⟩ | ⟨-, hj⟩
  · exact hc
  · exact .kept hj hpublished

variable [FloorRing T]

theorem Steps.became {a : Action T} (h : Steps dep s a s') {j : ℕ} {x : Connection T}
    (hj : s'.connections[j]? = some x) : Became dep s a s' j x := by
  cases h with
  | tick _ => exact .kept hj rfl
  | requested => exact .kept hj rfl
  | changed => exact .kept hj rfl
  | asked _ => exact .kept hj rfl
  | read _ _ => exact .kept hj rfl
  | signed _ _ => exact .kept hj rfl
  | connected horigin htoken hlive =>
      obtain ⟨o, ho, hallowed⟩ := horigin
      cases Option.mem_def.mp ho
      by_cases hlt : j < s.connections.length
      · rw [List.getElem?_append_left hlt] at hj
        exact .kept hj rfl
      · rw [List.getElem?_append_right (Nat.le_of_not_lt hlt)] at hj
        obtain ⟨hindex, hx⟩ := List.getElem?_eq_some_iff.mp hj
        rw [List.length_singleton] at hindex
        rw [List.getElem_singleton] at hx
        cases hx
        exact .connected ⟨⟨o, hallowed, rfl⟩, htoken, hlive, by omega, rfl⟩ rfl
  | readied hi hphase => exact .put rfl (.readied hi hphase rfl) hj
  | moved hi hmoves => exact .put rfl (.moved hi hmoves rfl) hj
  | silenced hi hmoves => exact .put rfl (.silenced hi hmoves rfl) hj
  | subscribed hi hphase hnone => exact .put rfl (.subscribed hi hphase hnone rfl) hj
  | delivered hi hr hlistening hpending =>
      exact .put rfl (.delivered hi hr hlistening hpending rfl) hj
  | spoke hi hspeaks =>
      simp only [State.publish, List.getElem?_map] at hj
      obtain ⟨y, hy, rfl⟩ := Option.map_eq_some_iff.mp hj
      rcases Machine.getElem?_set_cases hy with ⟨rfl, rfl⟩ | ⟨hij, hy⟩
      · exact .spoke hi hspeaks rfl
      · exact .heard hy hi hij hspeaks rfl

theorem Steps.published_cases {a : Action T} (h : Steps dep s a s') :
    s'.published = s.published ∨
    ∃ i c event next, s.connections[i]? = some c ∧ c.phase.speaks = some (event, next) ∧
      s'.published = s.published ++ [⟨c.workspaceId, c.decisionId, i, event⟩] := by
  cases h with
  | spoke hi hspeaks => exact .inr ⟨_, _, _, _, hi, hspeaks, rfl⟩
  | _ => exact .inl rfl

/-! ## Who speaks -/

/-- The `k`-th request for a token begins, of a user who is authenticated. -/
structure Asks (k : ℕ) (user : User) (w d : UUID) (s : State T) (a : Action T) (_ : State T) :
    Prop where
  asks : a = .issueToken user w d
  index : s.issues.length = k
  user : user ∈ s.db.users

/-- The `k`-th request reads the database as it is. -/
structure Reads (k : ℕ) (db : Db) (s : State T) (a : Action T) (_ : State T) : Prop where
  reads : a = .readNext k
  db : s.db = db

/-- The token says of a member what the `k`-th request has read of it. -/
structure Granted (dep : Deployment) (s₀ : State T) (token : MeetingToken) (k : ℕ)
    (s : State T) : Prop where
  member : ∃ user m, token.claims = MeetingService.claims user m ∧
    m.workspaceId = token.workspaceId ∧ m.userId = user.id ∧
    Made dep s₀ (Asks k user token.workspaceId token.decisionId) s ∧
    ∃ db, m ∈ db.workspaceMembers ∧ Made dep s₀ (Reads k db) s
  decision : ∃ db, (∃ d ∈ db.decisions, d.id = token.decisionId ∧
    d.workspaceId = token.workspaceId) ∧ Made dep s₀ (Reads k db) s

/-- The token is signed at the time `t`. -/
structure Signs (dep : Deployment) (s₀ : State T) (token : MeetingToken) (t : T) (s : State T)
    (a : Action T) (s' : State T) : Prop where
  clock : s.clock = t
  signs : s'.tokens = s.tokens ++ [token]
  granted : ∃ k, a = .sign k ∧ Granted dep s₀ token k s

/-- The connection at `j` is opened with a token of its room, within the lifetime of that. -/
structure Admits (dep : Deployment) (s₀ : State T) (j : ℕ) (w d : UUID)
    (claims : MeetingTokenClaims) (s : State T) (a : Action T) (s' : State T) : Prop where
  admits : ∃ token t, Opens dep token j s a s' ∧ token.claims = claims ∧
    token.workspaceId = w ∧ token.decisionId = d ∧
    s.clock < t + (dep.settings.meetingTokenExpireMinutes * 60 : ℕ) ∧
    Made dep s₀ (Signs dep s₀ token t) s

/-- Who is behind the requests, the tokens and the connections. -/
structure OriginInv (dep : Deployment) (s₀ s : State T) : Prop where
  run : Run dep s₀ s
  issues : ∀ k issue, s.issues[k]? = some issue →
    (MeetingService.issueToken issue.currentUser issue.workspaceId issue.decisionId).Leaves
      issue.seen issue.rest ∧
    Made dep s₀ (Asks k issue.currentUser issue.workspaceId issue.decisionId) s ∧
    ∀ db ∈ issue.seen, Made dep s₀ (Reads k db) s
  tokens : ∀ token ∈ s.tokens, ∃ t : T,
    token.exp = ⌊t + (dep.settings.meetingTokenExpireMinutes * 60 : ℕ)⌋ ∧
    Made dep s₀ (Signs dep s₀ token t) s
  connections : ∀ j c, s.connections[j]? = some c →
    Made dep s₀ (Admits dep s₀ j c.workspaceId c.decisionId c.claims) s ∧
    c.phase.Knows dep.settings.toMeetingSettings c.claims

theorem originInv_start (db : Db) (clock : T) :
    OriginInv dep (start db clock) (start db clock) where
  run := .refl _
  issues := nofun
  tokens := List.forall_mem_nil _
  connections := nofun

/-- A token that is still good was signed less than its lifetime ago. -/
theorem OriginInv.admits (h : OriginInv dep s₀ s) {token : MeetingToken} {j : ℕ} {a : Action T}
    (hopens : Opens dep token j s a s') :
    Admits dep s₀ j token.workspaceId token.decisionId token.claims s a s' := by
  obtain ⟨t, hexp, hsigned⟩ := h.tokens token hopens.signed
  refine ⟨token, t, hopens, rfl, rfl, rfl, ?_, hsigned⟩
  calc s.clock < token.exp := hopens.live
    _ = (⌊t + (dep.settings.meetingTokenExpireMinutes * 60 : ℕ)⌋ : T) := by rw [hexp]
    _ ≤ t + (dep.settings.meetingTokenExpireMinutes * 60 : ℕ) := Int.floor_le _

/-- A request that has read everything grants what it has read. -/
theorem OriginInv.granted (h : OriginInv dep s₀ s) {k : ℕ} {issue : Issue}
    {claims : MeetingTokenClaims} (hk : s.issues[k]? = some issue)
    (hrest : issue.rest = .done (.ok claims)) (exp : ℤ) :
    Granted dep s₀ ⟨claims, issue.workspaceId, issue.decisionId, exp⟩ k s := by
  obtain ⟨hleaves, huser, hseen⟩ := h.issues k issue hk
  rw [hrest] at hleaves
  obtain ⟨s₁, s₂, s₃, m, decision, hss, hm, hd, rfl⟩ := MeetingService.issueToken_ok hleaves
  obtain ⟨hm, hw, hu⟩ := WorkspaceRepository.getMembership_some hm
  obtain ⟨hd, hid, hdw⟩ := DecisionRepository.getForWorkspace_some hd
  rw [hss] at hseen
  exact ⟨⟨issue.currentUser, m, rfl, hw, hu, huser, s₂, hm, hseen s₂ (by simp)⟩,
    s₃, ⟨decision, hd, hid, hdw⟩, hseen s₃ (by simp)⟩

/-- A connection after a step is as well founded as before. -/
theorem OriginInv.became (h : OriginInv dep s₀ s) {a : Action T}
    (hs : s.step dep a = some s') {j : ℕ} {c : Connection T} (hbecame : Became dep s a s' j c) :
    Made dep s₀ (Admits dep s₀ j c.workspaceId c.decisionId c.claims) s' ∧
      c.phase.Knows dep.settings.toMeetingSettings c.claims := by
  have hkept : ∀ {c : Connection T}, s.connections[j]? = some c →
      Made dep s₀ (Admits dep s₀ j c.workspaceId c.decisionId c.claims) s' ∧
        c.phase.Knows dep.settings.toMeetingSettings c.claims := fun hj =>
    ⟨(h.connections j _ hj).1.next trivial hs, (h.connections j _ hj).2⟩
  cases hbecame with
  | kept hj _ => exact hkept hj
  | connected hopens _ => exact ⟨.now h.run trivial hs (h.admits hopens), trivial⟩
  | readied hj _ _ => exact ⟨(hkept hj).1, _, rfl⟩
  | moved hj hmoves _ => exact ⟨(hkept hj).1, hmoves.knows (hkept hj).2⟩
  | silenced hj hmoves _ =>
      refine ⟨(hkept hj).1, ?_⟩
      rcases hmoves with rfl | hmoves
      · exact (hkept hj).2
      · exact hmoves.knows (hkept hj).2
  | subscribed hj _ _ _ => exact ⟨(hkept hj).1, (hkept hj).2⟩
  | delivered hj _ _ _ _ => exact ⟨(hkept hj).1, (hkept hj).2⟩
  | @heard _ speaker _ event _ hj _ _ _ _ =>
      obtain ⟨relay, hrelay⟩ := Connection.hear_eq speaker.workspaceId speaker.decisionId event _
      rw [hrelay]
      exact ⟨(hkept hj).1, (hkept hj).2⟩
  | @spoke c event next hj hspeaks _ =>
      obtain ⟨relay, hrelay⟩ := Connection.hear_eq c.workspaceId c.decisionId event
        { c with phase := next }
      rw [hrelay]
      exact ⟨(hkept hj).1, ((hkept hj).2.speech hspeaks).2⟩

/-- The request at `k` after a step. -/
theorem Steps.issues_cases {a : Action T} (h : Steps dep s a s') {k : ℕ} {issue : Issue}
    (hk : s'.issues[k]? = some issue) : s.issues[k]? = some issue ∨
    (∃ user w d, Asks k user w d s a s' ∧
      issue = ⟨user, w, d, [], MeetingService.issueToken user w d⟩) ∨
    ∃ i next, Reads k s.db s a s' ∧ s.issues[k]? = some i ∧ i.rest = .read next ∧
      issue = { i with seen := i.seen ++ [s.db], rest := next s.db } := by
  cases h with
  | asked huser =>
      by_cases hlt : k < s.issues.length
      · rw [List.getElem?_append_left hlt] at hk
        exact .inl hk
      · rw [List.getElem?_append_right (Nat.le_of_not_lt hlt)] at hk
        obtain ⟨hindex, hissue⟩ := List.getElem?_eq_some_iff.mp hk
        rw [List.length_singleton] at hindex
        rw [List.getElem_singleton] at hissue
        exact .inr (.inl ⟨_, _, _, ⟨rfl, by omega, huser⟩, hissue.symm⟩)
  | read hi hrest =>
      rcases Machine.getElem?_set_cases hk with ⟨rfl, rfl⟩ | ⟨-, hk⟩
      · exact .inr (.inr ⟨_, _, ⟨rfl, rfl⟩, hi, hrest, rfl⟩)
      · exact .inl hk
  | _ => exact .inl hk

theorem OriginInv.issue_step (h : OriginInv dep s₀ s) {a : Action T}
    (hs : s.step dep a = some s') {k : ℕ} {issue : Issue} (hk : s'.issues[k]? = some issue) :
    (MeetingService.issueToken issue.currentUser issue.workspaceId issue.decisionId).Leaves
      issue.seen issue.rest ∧
    Made dep s₀ (Asks k issue.currentUser issue.workspaceId issue.decisionId) s' ∧
    ∀ db ∈ issue.seen, Made dep s₀ (Reads k db) s' := by
  rcases (State.step_cases hs).issues_cases hk with
    hold | ⟨user, w, d, hasks, rfl⟩ | ⟨i, next, hreads, hi, hrest, rfl⟩
  · obtain ⟨hleaves, hasks, hseen⟩ := h.issues k issue hold
    exact ⟨hleaves, hasks.next trivial hs, fun db hdb => (hseen db hdb).next trivial hs⟩
  · exact ⟨rfl, .now h.run trivial hs hasks, List.forall_mem_nil _⟩
  · obtain ⟨hleaves, hasks, hseen⟩ := h.issues k i hi
    rw [hrest] at hleaves
    exact ⟨Optimistic.Reads.leaves_snoc hleaves s.db, hasks.next trivial hs,
      Machine.forall_snoc (fun db hdb => (hseen db hdb).next trivial hs)
        (.now h.run trivial hs hreads)⟩

theorem OriginInv.token_step (h : OriginInv dep s₀ s) {a : Action T}
    (hs : s.step dep a = some s') {token : MeetingToken} (htoken : token ∈ s'.tokens) :
    ∃ t : T, token.exp = ⌊t + (dep.settings.meetingTokenExpireMinutes * 60 : ℕ)⌋ ∧
      Made dep s₀ (Signs dep s₀ token t) s' := by
  have hkept : token ∈ s.tokens → ∃ t : T,
      token.exp = ⌊t + (dep.settings.meetingTokenExpireMinutes * 60 : ℕ)⌋ ∧
        Made dep s₀ (Signs dep s₀ token t) s' := fun htoken => by
    obtain ⟨t, hexp, hsigned⟩ := h.tokens token htoken
    exact ⟨t, hexp, hsigned.next trivial hs⟩
  cases State.step_cases hs with
  | @signed k issue claims hk hrest =>
      rcases List.mem_append.mp htoken with htoken | htoken
      · exact hkept htoken
      · cases List.mem_singleton.mp htoken
        exact ⟨s.clock, rfl, .now h.run trivial hs ⟨rfl, rfl, k, rfl, h.granted hk hrest _⟩⟩
  | _ => exact hkept htoken

theorem OriginInv.step {a : Action T} (h : OriginInv dep s₀ s) (hs : s.step dep a = some s') :
    OriginInv dep s₀ s' where
  run := .step h.run trivial hs
  issues := fun _ _ hk => h.issue_step hs hk
  tokens := fun _ htoken => h.token_step hs htoken
  connections := fun _ _ hj => h.became hs ((State.step_cases hs).became hj)

/-- A connection publishes the event, which somebody of its claims may. -/
structure Publishes (dep : Deployment) (s₀ : State T) (p : Published T) (s : State T)
    (_ : Action T) (s' : State T) : Prop where
  publishes : s'.published = s.published ++ [p]
  authentic : ∃ c, s.connections[p.connection]? = some c ∧ c.workspaceId = p.workspaceId ∧
    c.decisionId = p.decisionId ∧
    Made dep s₀ (Admits dep s₀ p.connection p.workspaceId p.decisionId c.claims) s ∧
    Says dep.settings.toMeetingSettings c.claims p.event ∧
    (p.event.type ∈ facilitated → c.claims.canFacilitate = true)

theorem OriginInv.publishes (h : OriginInv dep s₀ s) {a : Action T} (hstep : Steps dep s a s')
    {p : Published T} (hp : p ∈ s'.published) :
    p ∈ s.published ∨ Publishes dep s₀ p s a s' := by
  rcases hstep.published_cases with hsame | ⟨i, c, event, next, hi, hspeaks, hsaid⟩
  · exact .inl (hsame ▸ hp)
  · obtain ⟨hadmitted, hknows⟩ := h.connections i c hi
    have hsays := (hknows.speech hspeaks).1
    rw [hsaid] at hp
    rcases List.mem_append.mp hp with hp | hp
    · exact .inl hp
    · cases List.mem_singleton.mp hp
      exact .inr ⟨hsaid, c, hi, rfl, rfl, hadmitted, hsays, hsays.facilitates⟩

/-- An event was published by a connection that had been opened with a token of its room,
which says its user to be a member, and is of a kind that this member may send. -/
theorem events_authentic {db : Db} {clock : T} (hrun : Run dep (start db clock) s)
    {p : Published T} (hp : p ∈ s.published) :
    Made dep (start db clock) (Publishes dep (start db clock) p) s :=
  hrun.each (fun _ _ _ h _ hs => h.step hs)
    (fun _ _ _ h _ hs _ hp => h.publishes (State.step_cases hs) hp)
    (originInv_start db clock) rfl p hp

end

namespace Sample

open ForkRoom.Sample (ada env dep)

theorem minutes_pos : 0 < 5 := by decide

theorem minutes_le : 5 ≤ 15 := by decide

def settings : Settings :=
  { MeetingSettings.default with
    meetingTokenExpireMinutes := 5
    meetingAllowedOrigins := ["https://forkroom.test"]
    expire_pos := minutes_pos
    expire_le := minutes_le }

def deployment : Deployment := ⟨settings, dep, fun _ => none⟩

/-- Ada has a workspace, and a decision in it. -/
def lab : Db :=
  runAll dep [.register ada, .createWorkspace (env 1 10) ada ⟨"Lab", none⟩,
    .createDecision (env 2 20) ada 10 ⟨"Database", none, .technology, none, none⟩] Db.empty

def token : MeetingToken := ⟨⟨1, "Ada", "owner", true⟩, 10, 20, 300⟩

/-- Ada enters the meeting of the decision, and starts a timer. -/
def meeting : List (Action ℚ) :=
  [.issueToken ada 10 20, .readNext 0, .readNext 0, .readNext 0, .sign 0,
    .connect (some "https://forkroom.test") 10 20 token, .joined 0 ⟨[], [], none⟩ 0, .subscribe 0,
    .advance 0 0, .tick 2,
    .receive 0 (.obj [("type", .str "timer.start"),
      ("payload", .obj [("duration_seconds", .int 90)])]),
    .allowEvent 0 true 2, .advance 0 2, .advance 0 2, .deliver 0]

end Sample

theorem events_authentic_sample : ∃ (s : State ℚ) (p : Published ℚ), p ∈ s.published ∧
    p.event.type = "timer.started" ∧ Made Sample.deployment (start Sample.lab 0)
      (Publishes Sample.deployment (start Sample.lab 0) p) s := by
  obtain ⟨s, hplay, hs⟩ := Option.map_eq_some_iff.mp
    (show (Machine.play (State.step Sample.deployment) (fun _ _ => True) (start Sample.lab 0)
        Sample.meeting).map (fun s => s.published.any fun p => p.event.type = "timer.started") =
          some true by
      decide +kernel)
  obtain ⟨p, hp, htype⟩ := List.any_eq_true.mp hs
  have htype : p.event.type = "timer.started" := of_decide_eq_true htype
  exact ⟨s, p, hp, htype, events_authentic (Machine.Run.of_play hplay) hp⟩

/-! ## Who hears it -/

section
variable {T : Type}

/-- What a connection has been sent is what it was to hear, but for what is still to come. -/
structure Relayed (published : List (Published T)) (c : Connection T) : Prop where
  joining : c.phase = .joining → c.relay = none ∧ c.received = []
  unready : c.received = [] → c.relay = none ∧ (c.phase = .joining ∨ c.phase = .closed)
  ready : ∀ e ∈ c.received.head?, ∃ state now,
    e = eventEnvelope "meeting.ready" c.claims (.state state) (some c.claims.userId) now
  silent : c.relay = none → c.received.tail = []
  relayed : ∀ r, c.relay = some r → r.since ≤ published.length ∧ ∃ rest,
    c.heard (published.drop r.since) = c.received.tail ++ rest ∧
    (r.listening = true → rest = r.pending.filter fun e => e.isFor c.claims.userId)

/-- A message comes in. -/
theorem Relayed.hear {published : List (Published T)} {c : Connection T}
    (h : Relayed published c) (p : Published T) :
    Relayed (published ++ [p]) (c.hear p.workspaceId p.decisionId p.event) := by
  unfold Connection.hear
  split
  · rename_i hin
    refine ⟨fun hphase => ?_, fun hreceived => ?_, h.ready, fun hnone => ?_, fun r' hr' => ?_⟩
    · obtain ⟨hnone, hreceived⟩ := h.joining hphase
      exact ⟨by rw [hnone]; rfl, hreceived⟩
    · obtain ⟨hnone, hphase⟩ := h.unready hreceived
      exact ⟨by rw [hnone]; rfl, hphase⟩
    · exact h.silent (Option.map_eq_none_iff.mp hnone)
    · obtain ⟨r, hr, rfl⟩ := Option.map_eq_some_iff.mp hr'
      obtain ⟨hsince, rest, hheard, hrest⟩ := h.relayed r hr
      rw [Relay.since_enqueue]
      refine ⟨hsince.trans (by simp), rest ++ [p.event].filter fun e => e.isFor c.claims.userId,
        ?_, fun hlistening => ?_⟩
      · rw [List.drop_append_of_le_length hsince]
        show c.heard (_ ++ [p]) = _
        rw [Connection.heard_snoc hin, hheard, List.append_assoc]
      · obtain ⟨hlistening, hpending⟩ := Relay.enqueue_listening hlistening
        rw [hpending, List.filter_append, hrest hlistening]
  · rename_i hin
    refine ⟨h.joining, h.unready, h.ready, h.silent, fun r hr => ?_⟩
    obtain ⟨hsince, rest, hheard, hrest⟩ := h.relayed r hr
    refine ⟨hsince.trans (by simp), rest, ?_, hrest⟩
    rw [List.drop_append_of_le_length hsince,
      Connection.heard_snoc_apart (Bool.eq_false_of_not_eq_true hin), hheard]

/-- The phase of a connection that has been sent something is another. -/
theorem Relayed.goOn {published : List (Published T)} {c : Connection T} {phase : Phase T}
    (h : Relayed published c) (hjoining : phase ≠ .joining)
    (hphase : c.phase = .joining ∨ c.phase = .closed → phase = .closed) :
    Relayed published { c with phase := phase } where
  joining := fun he => absurd he hjoining
  unready := fun hreceived => ⟨(h.unready hreceived).1, .inr (hphase (h.unready hreceived).2)⟩
  ready := h.ready
  silent := h.silent
  relayed := h.relayed

theorem Relayed.silenced {published : List (Published T)} {c : Connection T}
    (h : Relayed published c) : Relayed published c.silenced where
  joining := fun hphase => ⟨by rw [Connection.silenced, (h.joining hphase).1]; rfl,
    (h.joining hphase).2⟩
  unready := fun hreceived => ⟨by rw [Connection.silenced, (h.unready hreceived).1]; rfl,
    (h.unready hreceived).2⟩
  ready := h.ready
  silent := fun hnone => h.silent (Option.map_eq_none_iff.mp hnone)
  relayed := by
    intro r' hr'
    obtain ⟨r, hr, rfl⟩ := Option.map_eq_some_iff.mp hr'
    obtain ⟨hsince, rest, hheard, -⟩ := h.relayed r hr
    exact ⟨hsince, rest, hheard, nofun⟩

variable [Field T]

theorem Relayed.moves {settings : MeetingSettings} {published : List (Published T)}
    {c : Connection T} {phase : Phase T} (h : Relayed published c)
    (hmoves : Moves settings c phase) : Relayed published { c with phase := phase } := by
  rcases hmoves.served with rfl | ⟨hserved, hserved'⟩
  · exact h.goOn nofun fun _ => rfl
  · refine h.goOn (fun he => by rw [he] at hserved'; cases hserved') fun hphase => ?_
    rcases hphase with hphase | hphase <;> rw [hphase] at hserved <;> cases hserved

variable [LinearOrder T] {dep : Deployment} {s s' : State T}

theorem Relayed.became (h : ∀ c ∈ s.connections, Relayed s.published c) {a : Action T} {j : ℕ}
    {x : Connection T} (hbecame : Became dep s a s' j x) : Relayed s'.published x := by
  cases hbecame with
  | kept hj hsame => exact hsame ▸ h _ (List.mem_of_getElem? hj)
  | connected _ _ =>
      exact ⟨fun _ => ⟨rfl, rfl⟩, fun _ => ⟨rfl, .inl rfl⟩, nofun, fun _ => rfl, nofun⟩
  | @readied c state now hj hphase hsame =>
      have hnone := ((h _ (List.mem_of_getElem? hj)).joining hphase).1
      refine ⟨nofun, nofun, fun e he => ?_, fun _ => rfl, fun r hr => ?_⟩
      · cases he
        exact ⟨state, now, rfl⟩
      · cases hnone.symm.trans hr
  | moved hj hmoves hsame => exact hsame ▸ (h _ (List.mem_of_getElem? hj)).moves hmoves
  | @silenced c phase hj hmoves hsame =>
      rw [hsame]
      rcases hmoves with rfl | hmoves
      · exact (h _ (List.mem_of_getElem? hj)).silenced
      · exact ((h _ (List.mem_of_getElem? hj)).moves hmoves).silenced
  | @subscribed c hj hphase hnone hsame =>
      have hc := h c (List.mem_of_getElem? hj)
      rw [hsame]
      refine ⟨fun he => ?_, fun he => ?_, hc.ready, nofun, fun r hr => ?_⟩
      · rw [show c.phase = .joining from he] at hphase
        cases hphase
      · rcases (hc.unready he).2 with he | he <;> rw [he] at hphase <;> cases hphase
      · cases hr
        refine ⟨le_rfl, [], ?_, fun _ => rfl⟩
        rw [List.drop_length, hc.silent hnone]
        rfl
  | @delivered c r event pending hj hr hlistening hpending hsame =>
      have hc := h c (List.mem_of_getElem? hj)
      have hne : c.received ≠ [] := fun he => by cases ((hc.unready he).1.symm.trans hr)
      obtain ⟨hsince, rest, hheard, hrest⟩ := hc.relayed r hr
      rw [hsame]
      refine ⟨fun he => ?_, fun he => ?_, fun e he => hc.ready e ?_, nofun, fun r' hr' => ?_⟩
      · exact absurd (hc.joining he).2 hne
      · split at he
        · exact absurd he (by simp)
        · exact absurd he hne
      · split at he
        · rwa [List.head?_append_of_ne_nil _ hne] at he
        · exact he
      · cases hr'
        have hrest := hrest hlistening
        rw [hpending, List.filter_cons] at hrest
        refine ⟨hsince, pending.filter fun e => e.isFor c.claims.userId, ?_, fun _ => rfl⟩
        refine hheard.trans ?_
        rw [hrest]
        split
        · rw [List.tail_append_of_ne_nil hne, List.append_assoc]
          rfl
        · rfl
  | @heard c speaker i event next hj hi _ _ hsaid =>
      rw [hsaid]
      exact (h c (List.mem_of_getElem? hj)).hear _
  | @spoke c event next hj hspeaks hsaid =>
      rw [hsaid]
      have hc := h c (List.mem_of_getElem? hj)
      refine (hc.goOn ?_ fun hphase => ?_).hear ⟨c.workspaceId, c.decisionId, j, event⟩
      · rintro rfl
        cases hp : c.phase <;> rw [hp] at hspeaks <;> cases hspeaks
      · rcases hphase with hphase | hphase <;> rw [hphase] at hspeaks <;> cases hspeaks

variable [FloorRing T]

theorem relayed_run {db : Db} {clock : T} (hrun : Run dep (start db clock) s) :
    ∀ c ∈ s.connections, Relayed s.published c := by
  refine hrun.invariant (I := fun s => ∀ c ∈ s.connections, Relayed s.published c)
    (fun s a s' h _ hs c hc => ?_) nofun
  obtain ⟨j, hj⟩ := List.mem_iff_getElem?.mp hc
  exact Relayed.became h ((State.step_cases hs).became hj)

/-- After its `meeting.ready` a connection has been sent the messages of its room since it has
subscribed, those for others left out, in order and up to some message; as long as its relay
listens, those that are still to come are waiting there. -/
theorem relay_exact {db : Db} {clock : T} (hrun : Run dep (start db clock) s) {c : Connection T}
    (hc : c ∈ s.connections) {r : Relay T} (hr : c.relay = some r) :
    ∃ state now relayed rest,
      c.received = eventEnvelope "meeting.ready" c.claims (.state state)
        (some c.claims.userId) now ::
        relayed ∧
      c.heard (s.published.drop r.since) = relayed ++ rest ∧
      (r.listening = true → rest = r.pending.filter fun e => e.isFor c.claims.userId) := by
  have h := relayed_run hrun c hc
  obtain ⟨-, rest, hheard, hrest⟩ := h.relayed r hr
  cases hreceived : c.received with
  | nil => cases (h.unready hreceived).1.symm.trans hr
  | cons ready relayed =>
      obtain ⟨state, now, rfl⟩ := h.ready ready (by rw [hreceived]; rfl)
      rw [hreceived] at hheard
      exact ⟨state, now, relayed, rest, rfl, hheard, hrest⟩

end

/-- Ada hears that she has come; that the timer has started waits. -/
theorem relay_exact_sample : ∃ (s : State ℚ) (c : Connection ℚ) (r : Relay ℚ),
    c ∈ s.connections ∧ c.relay = some r ∧ r.listening = true ∧ ∃ state now relayed,
      c.received = eventEnvelope "meeting.ready" c.claims (.state state)
        (some c.claims.userId) now ::
        relayed ∧
      c.heard (s.published.drop r.since) =
        relayed ++ r.pending.filter fun e => e.isFor c.claims.userId := by
  obtain ⟨s, hplay, hs⟩ := Option.map_eq_some_iff.mp
    (show (Machine.play (State.step Sample.deployment) (fun _ _ => True) (start Sample.lab 0)
        Sample.meeting).map (fun s => s.connections.any fun c =>
          c.relay.any fun r => r.listening && r.pending.length = 1) = some true by
      decide +kernel)
  obtain ⟨c, hc, hr⟩ := List.any_eq_true.mp hs
  obtain ⟨r, hr, hwaits⟩ := (Option.any_eq_true _ _).mp hr
  have hlistening : r.listening = true := (Bool.and_eq_true_iff.mp hwaits).1
  obtain ⟨state, now, relayed, rest, hreceived, hheard, hrest⟩ :=
    relay_exact (Machine.Run.of_play hplay) hc hr
  exact ⟨s, c, r, hc, hr, hlistening, state, now, relayed, hreceived, hrest hlistening ▸ hheard⟩

/-! ## The brackets -/

section
variable {T : Type}

/-- The types of what the `i`-th connection has said. -/
def State.spoken (s : State T) (i : ℕ) : List String :=
  (s.published.filter fun p => p.connection = i).map fun p => p.event.type

theorem spoken_snoc {s s' : State T} {i : ℕ} {p : Published T}
    (h : s'.published = s.published ++ [p]) :
    s'.spoken i = s.spoken i ++ if p.connection = i then [p.event.type] else [] := by
  rw [State.spoken, h, List.filter_append, List.map_append, List.filter_cons]
  by_cases hi : p.connection = i
  · rw [if_pos hi, if_pos (decide_eq_true hi)]
    rfl
  · rw [if_neg hi, if_neg (by simpa using hi)]
    rfl

theorem spoken_congr {s s' : State T} {i : ℕ} (h : s'.published = s.published) :
    s'.spoken i = s.spoken i := by
  rw [State.spoken, h]
  rfl

/-- It has come, and said this since. -/
def Said (middle types : List String) : Prop :=
  types = "presence.joined" :: middle ∧ ∀ t ∈ middle, t ∉ ["presence.joined", "presence.left"]

/-- What a connection has said when it is in the phase. -/
def Bracketed (types : List String) : Phase T → Prop
  | .joining | .announcing _ => types = []
  | .closed => types = [] ∨ ∃ middle, Said middle types ∨
      ∃ before, types = before ++ ["presence.left"] ∧ Said middle before
  | _ => ∃ middle, Said middle types

theorem bracketed_served {types : List String} {phase : Phase T} (h : phase.isServed = true) :
    Bracketed types phase ↔ ∃ middle, Said middle types := by
  cases phase <;> first | rfl | cases h

theorem Bracketed.closed {types : List String} {phase : Phase T} (h : Bracketed types phase) :
    Bracketed types (.closed : Phase T) := by
  cases phase with
  | joining => exact .inl h
  | announcing event => exact .inl h
  | closed => exact h
  | _ =>
      obtain ⟨middle, hsaid⟩ := h
      exact .inr ⟨middle, .inl hsaid⟩

variable [Field T]

theorem Bracketed.moves {settings : MeetingSettings} {types : List String} {c : Connection T}
    {phase : Phase T} (h : Bracketed types c.phase) (hmoves : Moves settings c phase) :
    Bracketed types phase := by
  rcases hmoves.served with rfl | ⟨hserved, hserved'⟩
  · exact h.closed
  · exact (bracketed_served hserved').mpr ((bracketed_served hserved).mp h)

/-- A reply is not on the presence of anybody. -/
theorem Reply.type_not_mem {settings : MeetingSettings} {claims : MeetingTokenClaims}
    {e : Envelope T} (h : Reply settings claims e) :
    e.type ∉ ["presence.joined", "presence.left"] := by
  cases h with
  | error code now => exact (by decide : "meeting.error" ∉ ["presence.joined", "presence.left"])
  | queue queue now => exact (by decide : "speaker.queue" ∉ ["presence.joined", "presence.left"])
  | passed event now hpayload hmem =>
      have hother : ∀ t ∈ [MeetingEventType.signalOffer, .signalAnswer, .signalIce, .mediaState],
          t.value ∉ ["presence.joined", "presence.left"] := by decide
      exact hother event.type hmem
  | started duration now hfacilitates hpos hmax =>
      exact (by decide : "timer.started" ∉ ["presence.joined", "presence.left"])
  | cancelled now hfacilitates =>
      exact (by decide : "timer.cancelled" ∉ ["presence.joined", "presence.left"])
  | synced event now hfacilitates hpayload =>
      exact (by decide : "vote.synced" ∉ ["presence.joined", "presence.left"])

/-- Whoever speaks keeps the brackets. -/
theorem Bracketed.speaks {settings : MeetingSettings} {claims : MeetingTokenClaims}
    {types : List String} {phase next : Phase T} {event : Envelope T} (h : Bracketed types phase)
    (hknows : phase.Knows settings claims) (hspeaks : phase.speaks = some (event, next)) :
    Bracketed (types ++ [event.type]) next := by
  cases phase with
  | announcing e =>
      cases hspeaks
      obtain ⟨now, rfl⟩ := hknows
      rw [show types = [] from h]
      exact ⟨[], rfl, nofun⟩
  | publishing e =>
      cases hspeaks
      obtain ⟨middle, rfl, hmiddle⟩ := h
      exact ⟨middle ++ [event.type], rfl, Machine.forall_snoc hmiddle (Reply.type_not_mem hknows)⟩
  | parting e =>
      cases hspeaks
      obtain ⟨now, rfl⟩ := hknows
      obtain ⟨middle, hsaid⟩ := h
      exact .inr ⟨middle, .inr ⟨types, rfl, hsaid⟩⟩
  | _ => cases hspeaks

variable [LinearOrder T] {dep : Deployment} {s₀ s s' : State T}

/-- What a connection has said, and that nobody has spoken who is still to come. -/
structure BracketInv (s : State T) : Prop where
  known : ∀ p ∈ s.published, p.connection < s.connections.length
  bracketed : ∀ i c, s.connections[i]? = some c → Bracketed (s.spoken i) c.phase

variable [FloorRing T]

theorem Steps.length_le {a : Action T} (h : Steps dep s a s') :
    s.connections.length ≤ s'.connections.length := by
  cases h with
  | connected _ _ _ => simp
  | spoke _ _ => simp [State.publish, State.goOn, State.put]
  | _ => simp [State.goOn, State.put]

theorem BracketInv.step (h : BracketInv s) (horigin : OriginInv dep s₀ s) {a : Action T}
    (hstep : Steps dep s a s') : BracketInv s' where
  known := by
    intro p hp
    rcases hstep.published_cases with hsame | ⟨i, c, event, next, hi, -, hsaid⟩
    · exact (h.known p (hsame ▸ hp)).trans_le hstep.length_le
    · rw [hsaid] at hp
      rcases List.mem_append.mp hp with hp | hp
      · exact (h.known p hp).trans_le hstep.length_le
      · rw [List.mem_singleton.mp hp]
        exact (List.getElem?_eq_some_iff.mp hi).1.trans_le hstep.length_le
  bracketed := by
    intro j x hx
    cases hstep.became hx with
    | kept hj hsame => exact spoken_congr hsame ▸ h.bracketed j x hj
    | connected hopens hsame =>
        rw [spoken_congr hsame]
        refine List.map_eq_nil_iff.mpr (List.filter_eq_nil_iff.mpr fun p hp => ?_)
        have hlt := h.known p hp
        have hindex := hopens.index
        simp only [decide_eq_true_eq]
        omega
    | @readied c _ _ hj hphase hsame =>
        have hspoken := h.bracketed j c hj
        rw [hphase] at hspoken
        exact (spoken_congr hsame).trans hspoken
    | @moved c _ hj hmoves hsame =>
        exact spoken_congr hsame ▸ (h.bracketed j c hj).moves hmoves
    | @silenced c _ hj hmoves hsame =>
        rw [spoken_congr hsame]
        rcases hmoves with rfl | hmoves
        · exact h.bracketed j c hj
        · exact (h.bracketed j c hj).moves hmoves
    | @subscribed c hj _ _ hsame => exact spoken_congr hsame ▸ h.bracketed j c hj
    | @delivered c _ _ _ hj _ _ _ hsame => exact spoken_congr hsame ▸ h.bracketed j c hj
    | @heard c speaker i event _ hj _ hij _ hsaid =>
        rw [spoken_snoc hsaid, if_neg hij, List.append_nil]
        obtain ⟨relay, hrelay⟩ := Connection.hear_eq speaker.workspaceId speaker.decisionId event c
        rw [hrelay]
        exact h.bracketed j c hj
    | @spoke c event next hj hspeaks hsaid =>
        rw [spoken_snoc hsaid, if_pos rfl]
        obtain ⟨relay, hrelay⟩ := Connection.hear_eq c.workspaceId c.decisionId event
          { c with phase := next }
        rw [hrelay]
        exact (h.bracketed j c hj).speaks (horigin.connections j c hj).2 hspeaks

/-- What a connection says begins with `presence.joined`, and nothing of it comes after its
`presence.left`; either comes once. -/
theorem presence_brackets {db : Db} {clock : T} (hrun : Run dep (start db clock) s) {i : ℕ}
    {c : Connection T} (hi : s.connections[i]? = some c) :
    s.spoken i = [] ∨ ∃ middle, (∀ t ∈ middle, t ∉ ["presence.joined", "presence.left"]) ∧
      (s.spoken i = "presence.joined" :: middle ∨
        c.phase = .closed ∧ s.spoken i = "presence.joined" :: middle ++ ["presence.left"]) := by
  have hinv := hrun.invariant (I := fun s => OriginInv dep (start db clock) s ∧ BracketInv s)
    (fun _ _ _ h _ hs => ⟨h.1.step hs, h.2.step h.1 (State.step_cases hs)⟩)
    ⟨originInv_start db clock, List.forall_mem_nil _, nofun⟩
  have hspoken := hinv.2.bracketed i c hi
  cases hphase : c.phase <;> rw [hphase] at hspoken
  case joining => exact .inl hspoken
  case announcing event => exact .inl hspoken
  case closed =>
    rcases hspoken with hnone | ⟨middle, ⟨hsaid, hmiddle⟩ | ⟨before, hlast, hsaid, hmiddle⟩⟩
    · exact .inl hnone
    · exact .inr ⟨middle, hmiddle, .inl hsaid⟩
    · exact .inr ⟨middle, hmiddle, .inr ⟨rfl, hsaid ▸ hlast⟩⟩
  all_goals
    obtain ⟨middle, hsaid, hmiddle⟩ := hspoken
    exact .inr ⟨middle, hmiddle, .inl hsaid⟩

theorem presence_brackets_sample : ∃ (s : State ℚ) (c : Connection ℚ),
    s.connections[0]? = some c ∧ ∃ middle,
      (∀ t ∈ middle, t ∉ ["presence.joined", "presence.left"]) ∧
        (s.spoken 0 = "presence.joined" :: middle ∨
          c.phase = .closed ∧ s.spoken 0 = "presence.joined" :: middle ++ ["presence.left"]) := by
  obtain ⟨s, hplay, hs⟩ := Option.map_eq_some_iff.mp
    (show (Machine.play (State.step Sample.deployment) (fun _ _ => True) (start Sample.lab 0)
        Sample.meeting).map (fun s => (s.connections.length, decide (s.spoken 0 = []))) =
          some (1, false) by
      decide +kernel)
  obtain ⟨hlength, hspoken⟩ := Prod.mk.inj hs
  have hi : s.connections[0]? = some s.connections[0] := List.getElem?_eq_getElem (by omega)
  have hbrackets := presence_brackets (Machine.Run.of_play hplay) hi
  exact ⟨s, _, hi, hbrackets.resolve_left (of_decide_eq_false hspoken)⟩

end

end Broadcast

end ForkRoom
