/-
# `Proof.Messages` — what a message is made of

Between an event in the outbox and the message that is sent for it stand a dispatcher, which
keeps what is to be sent in a delivery, and a courier, which reads it from there, each as it
has found the rows some time before.  No step changes what they have in common (`record`,
`content`), so a message says what its event says, to the destination that was subscribed;
and the step that sends it takes the token of a connection of the event's workspace, active
at that step (`messages_faithful`).
-/
import ForkRoom.Proof.FanOut

namespace ForkRoom

namespace Integration

open IntegrationRepository

/-! ## What stays -/

/-- What no step changes of an event. -/
structure Record where
  id : UUID
  workspaceId : UUID
  eventType : IntegrationEventType
  eventId : UUID
  payload : Json

def record (e : OutboxEvent) : Record := ⟨e.id, e.workspaceId, e.eventType, e.eventId, e.payload⟩

/-- What no step changes of a delivery. -/
structure Content where
  id : UUID
  connectionId : UUID
  eventType : IntegrationEventType
  eventId : UUID
  requestSummary : Json

def content (d : IntegrationDelivery) : Content :=
  ⟨d.id, d.connectionId, d.eventType, d.eventId, d.requestSummary⟩

def Config.records (c : Config) : List Record := c.outboxEvents.map record

def Config.contents (c : Config) : List Content := c.deliveries.map content

/-- What a delivery keeps of its event, and where it is to go. -/
def summary (workspaceId : UUID) (destinationId destinationName : Option String) (payload : Json) :
    Json :=
  .obj [("workspace_id", .str workspaceId.str), ("destination_id", .ofOption destinationId),
    ("destination_name", .ofOption destinationName), ("payload", payload)]

/-- The delivery is of an event, through a connection of the same workspace. -/
structure Written (c : Config) (x : Content) (r : Record)
    (destinationId destinationName : Option String) : Prop where
  record : r ∈ c.records
  site : (x.connectionId, r.workspaceId) ∈ c.sites
  eventType : x.eventType = r.eventType
  eventId : x.eventId = r.eventId
  requestSummary : x.requestSummary = summary r.workspaceId destinationId destinationName r.payload

section
variable {dep : Deployment} {c c' : Config} {a : Action}

theorem Steps.records (h : Steps dep c a c') (hm : Matched c) : c.records ⊆ c'.records := by
  have same (he : c'.records = c.records) : c.records ⊆ c'.records := he ▸ List.Subset.refl _
  cases h with
  | tick | connected | reconnected | configured | rolledBack | claimed | unprepared | sent
  | marked | deliveryFailed | retried => exact same rfl
  | @staged event row =>
      intro r hr
      show r ∈ (c.outboxEvents ++ [row]).map record
      rw [List.map_append]
      exact List.mem_append_left _ hr
  | @dispatched e he _ => exact same (Rows.map_replace hm.eventKeys he record rfl)
  | @fannedOut i fresh w new =>
      exact same (Rows.map_modify (f := processedEvent w.event w.now c.clock) record
        (fun _ => rfl) c.outboxEvents)
  | outboxFailed =>
      refine same (Rows.map_modify record (fun e => ?_) _)
      split
      · rfl
      · rfl
  | recovered =>
      refine same ?_
      simp only [Config.records, recoverStaleClaims, List.map_map]
      refine List.map_congr_left fun e _ => ?_
      rw [Function.comp_apply]
      split
      · rfl
      · rfl

theorem Steps.dispatcher_records (h : Steps dep c a c')
    (hd : ∀ w ∈ c.dispatchers, record w.event ∈ c.records) :
    ∀ w ∈ c'.dispatchers, record w.event ∈ c.records := by
  cases h with
  | tick | staged | connected | reconnected | configured | outboxFailed | claimed | unprepared
  | sent | marked | deliveryFailed | retried | recovered => exact hd
  | @dispatched e he _ =>
      have hrecord : record (claimedEvent c.clock e) ∈ c.records := List.mem_map.mpr ⟨e, he, rfl⟩
      exact Machine.forall_snoc hd hrecord
  | @fannedOut i fresh w new hw =>
      exact Machine.forall_set hd (hd w (List.mem_of_getElem? hw))
  | @rolledBack i fresh w hw =>
      exact Machine.forall_set hd (hd w (List.mem_of_getElem? hw))

/-- A delivery of the next state has the content of one, or is one of a dispatcher. -/
theorem Steps.contents (h : Steps dep c a c')
    (hkeys : (c.deliveries.map IntegrationDelivery.id).Nodup) :
    c'.contents = c.contents ∨ ∃ w ∈ c.dispatchers, ∃ fresh,
      c'.contents = c.contents ++
        (newDeliveries w.event w.now c.clock fresh c.toIntegrationTables).map content := by
  cases h with
  | tick | staged | connected | reconnected | configured | dispatched | rolledBack
  | outboxFailed | unprepared | sent => exact .inl rfl
  | @fannedOut i fresh w new hw hnew =>
      exact .inr ⟨w, List.mem_of_getElem? hw, fresh, hnew ▸ List.map_append⟩
  | claimed hd _ => exact .inl (Rows.map_replace hkeys hd content rfl)
  | @marked i w hw =>
      refine .inl (Rows.map_modify content (fun d => ?_) _)
      rfl
  | deliveryFailed =>
      refine .inl (Rows.map_modify content (fun d => ?_) _)
      split
      · rfl
      · rfl
  | retried =>
      refine .inl (Rows.map_modify content (fun d => ?_) _)
      split
      · rfl
      · rfl
  | recovered =>
      refine .inl ?_
      simp only [Config.contents, recoverStaleClaims, List.map_map]
      refine List.map_congr_left fun d _ => ?_
      rw [Function.comp_apply]
      split
      · rw [recoveredDelivery]
        split
        · rfl
        · rfl
      · rfl

/-- A courier holds what is in its delivery. -/
theorem Steps.courier_contents (h : Steps dep c a c')
    (hc : ∀ w ∈ c.couriers, content w.delivery ∈ c.contents) :
    ∀ w ∈ c'.couriers, content w.delivery ∈ c.contents := by
  cases h with
  | tick | staged | connected | reconnected | configured | dispatched | fannedOut | rolledBack
  | outboxFailed | deliveryFailed | retried | recovered => exact hc
  | @claimed d hd _ =>
      have hcontent : content (claimedDelivery c.clock d) ∈ c.contents :=
        List.mem_map.mpr ⟨d, hd, rfl⟩
      exact Machine.forall_snoc hc hcontent
  | @unprepared i raised w hw => exact Machine.forall_set hc (hc w (List.mem_of_getElem? hw))
  | @sent i raised w sent phase hw => exact Machine.forall_set hc (hc w (List.mem_of_getElem? hw))
  | @marked i w hw => exact Machine.forall_set hc (hc w (List.mem_of_getElem? hw))

theorem Written.mono {x : Content} {r : Record} {destinationId destinationName : Option String}
    (h : Written c x r destinationId destinationName) (hrecords : c.records ⊆ c'.records)
    (hsites : Grows Prod.fst c.sites c'.sites) :
    Written c' x r destinationId destinationName :=
  { h with record := hrecords h.record, site := hsites.mem h.site }

theorem written_new {w : Dispatcher} {fresh : Nat → UUID} (hw : record w.event ∈ c.records)
    {d : IntegrationDelivery}
    (hd : d ∈ newDeliveries w.event w.now c.clock fresh c.toIntegrationTables) :
    ∃ r destinationId destinationName,
      Written c (content d) r destinationId destinationName := by
  obtain ⟨i, p, hp, rfl⟩ := mem_newDeliveries hd
  obtain ⟨hx, -, hsub⟩ := mem_subscribers.mp hp
  have hsite : (p.1.id, w.event.workspaceId) ∈ c.sites :=
    subscribed_workspace hsub ▸ List.mem_map_of_mem hx
  exact ⟨record w.event, p.2.destinationId, p.2.destinationName, hw, hsite, rfl, rfl, rfl⟩

/-! ## What is sent -/

/-- What `prepare` has read: a connection that is active, its token, and the delivery. -/
theorem prepare_ok {delivery : IntegrationDelivery} {t : IntegrationTables} {token : String}
    {destinationId : String} {message' : ProviderMessage}
    (h : prepare dep delivery t = .ok (token, destinationId, message')) :
    ∃ connection ∈ t.connections, connection.id = delivery.connectionId ∧
      connection.status = .active ∧ connection.accessTokenEncrypted.bind dep.decrypt = some token ∧
      ∃ fields payload, delivery.requestSummary = .obj fields ∧
        get fields "destination_id" = some (.str destinationId) ∧
        get fields "payload" = some (.obj payload) ∧ message' = message dep delivery payload := by
  unfold prepare at h
  split at h
  · cases h
  · rename_i connection hfind
    obtain ⟨hmem, hid⟩ := Rows.find_some hfind
    split at h
    · rename_i encrypted fields hactive htoken hsummary
      split at h
      · rename_i destinationId' payload token' hdestination hpayload hdecrypt
        split at h
        · cases h
          refine ⟨connection, hmem, hid, hactive, ?_, fields, payload, hsummary, hdestination,
            hpayload, rfl⟩
          rw [htoken]
          exact hdecrypt
        · cases h
      · cases h
    · cases h

/-- Where a message comes from: from a courier, and from the connection as it then is. -/
theorem Config.sends_cases (h : c.step dep a = some c') :
    c'.sends = c.sends ∨ ∃ w ∈ c.couriers, ∃ token destinationId message',
      (∃ i raised, a = .sendMessage i raised) ∧
      prepare dep w.delivery c.toIntegrationTables = .ok (token, destinationId, message') ∧
      c'.sends = c.sends ++ [⟨w.claim, token, destinationId, message'⟩] := by
  cases a with
  | sendMessage i raised =>
      obtain ⟨w, hw, h⟩ := Option.bind_eq_some_iff.mp h
      obtain ⟨-, h⟩ := Machine.guard_bind h
      simp only at h
      split at h
      · cases h
        exact .inl rfl
      · rename_i token destinationId message' hprepare
        cases h
        exact .inr ⟨w, List.mem_of_getElem? hw, token, destinationId, message', ⟨i, raised, rfl⟩,
          hprepare, rfl⟩
  | _ =>
      cases Config.step_cases h with
      | _ => exact .inl rfl

/-- The message is of a delivery, and that of an event. -/
structure Faithful (dep : Deployment) (c : Config) (sent : Sent) (x : Content) (r : Record) :
    Prop where
  content : x ∈ c.contents
  claim : x.id = sent.claim.1
  written : ∃ destinationName, Written c x r (some sent.destinationId) destinationName
  message : ∃ d payload, Integration.content d = x ∧ r.payload = .obj payload ∧
    sent.message = Integration.message dep d payload

theorem get_summary {workspaceId : UUID} {destinationId destinationName : Option String}
    {payload : Json} {fields : List (String × Json)}
    (h : summary workspaceId destinationId destinationName payload = .obj fields) :
    get fields "destination_id" = some (.ofOption destinationId) ∧
      get fields "payload" = some payload := by
  cases h
  exact ⟨by simp [get], by simp [get]⟩

theorem Json.ofOption_str {destinationId : Option String} {text : String}
    (h : Json.ofOption destinationId = .str text) : destinationId = some text := by
  cases destinationId with
  | none => cases h
  | some destination =>
      cases h
      rfl

/-- A message that is prepared from a delivery is of its event. -/
theorem faithful_of_prepare {w : Courier} {r : Record} {token destinationId' : String}
    {message' : ProviderMessage} {destinationId destinationName : Option String}
    (hcontent : content w.delivery ∈ c.contents)
    (hwritten : Written c (content w.delivery) r destinationId destinationName)
    (h : prepare dep w.delivery c.toIntegrationTables = .ok (token, destinationId', message')) :
    Faithful dep c ⟨w.claim, token, destinationId', message'⟩ (content w.delivery) r := by
  obtain ⟨-, -, -, -, -, fields, payload, hsummary, hdestination, hpayload, rfl⟩ := prepare_ok h
  obtain ⟨hdestination', hpayload'⟩ := get_summary (hwritten.requestSummary.symm.trans hsummary)
  have hsome := Json.ofOption_str (Option.some.inj (hdestination'.symm.trans hdestination))
  subst hsome
  exact ⟨hcontent, rfl, ⟨destinationName, hwritten⟩, w.delivery, payload, rfl,
    Option.some.inj (hpayload'.symm.trans hpayload), rfl⟩

structure MessagesInv (c : Config) : Prop where
  dispatchers : ∀ w ∈ c.dispatchers, record w.event ∈ c.records
  contents : ∀ x ∈ c.contents, ∃ r destinationId destinationName,
    Written c x r destinationId destinationName
  couriers : ∀ w ∈ c.couriers, content w.delivery ∈ c.contents

theorem Faithful.mono {sent : Sent} {x : Content} {r : Record} (h : Faithful dep c sent x r)
    (hcontents : c.contents ⊆ c'.contents) (hrecords : c.records ⊆ c'.records)
    (hsites : Grows Prod.fst c.sites c'.sites) : Faithful dep c' sent x r := by
  obtain ⟨destinationName, hwritten⟩ := h.written
  exact ⟨hcontents h.content, h.claim, ⟨destinationName, hwritten.mono hrecords hsites⟩, h.message⟩

theorem Steps.contents_subset (h : Steps dep c a c')
    (hkeys : (c.deliveries.map IntegrationDelivery.id).Nodup) : c.contents ⊆ c'.contents := by
  rcases h.contents hkeys with hsame | ⟨w, hw, fresh, hadded⟩
  · exact hsame ▸ List.Subset.refl _
  · exact hadded ▸ List.subset_append_left _ _

theorem MessagesInv.step (h : MessagesInv c) (hc : Counted dep.settings.integrationMaxRetries c)
    (hm : Matched c) (hsteps : Steps dep c a c') : MessagesInv c' := by
  have hrecords := hsteps.records hm
  have hsubset := hsteps.contents_subset hc.keys
  have hcontents : ∀ x ∈ c'.contents,
      ∃ r destinationId destinationName, Written c x r destinationId destinationName := by
    rcases hsteps.contents hc.keys with hsame | ⟨w, hw, fresh, hadded⟩
    · exact fun x hx => h.contents x (hsame ▸ hx)
    · intro x hx
      rw [hadded] at hx
      rcases List.mem_append.mp hx with hx | hx
      · exact h.contents x hx
      · obtain ⟨d, hd, rfl⟩ := List.mem_map.mp hx
        exact written_new (h.dispatchers w hw) hd
  refine ⟨fun w hw => hrecords (hsteps.dispatcher_records h.dispatchers w hw), fun x hx => ?_,
    fun w hw => hsubset (hsteps.courier_contents h.couriers w hw)⟩
  obtain ⟨r, destinationId, destinationName, hwritten⟩ := hcontents x hx
  exact ⟨r, destinationId, destinationName, hwritten.mono hrecords (hsteps.sites hm)⟩

theorem messagesInv_empty (clock : Datetime) : MessagesInv (.empty clock) :=
  ⟨List.forall_mem_nil _, List.forall_mem_nil _, List.forall_mem_nil _⟩

/-- The connection that a message takes the token of: active, of the workspace. -/
structure Carries (dep : Deployment) (sent : Sent) (connectionId workspaceId : UUID)
    (x : IntegrationConnection) : Prop where
  id : x.id = connectionId
  workspaceId : x.workspaceId = workspaceId
  active : x.status = .active
  token : x.accessTokenEncrypted.bind dep.decrypt = some sent.token

/-- There is no other connection of the identifier. -/
theorem Matched.workspaceId_eq (hm : Matched c) {x : IntegrationConnection}
    (hx : x ∈ c.connections) {workspaceId : UUID} (h : (x.id, workspaceId) ∈ c.sites) :
    x.workspaceId = workspaceId :=
  congrArg Prod.snd (List.inj_on_of_nodup_map hm.connectionIds (List.mem_map_of_mem hx) h rfl)

/-- What a step sends, and with what connection, as it then is. -/
theorem MessagesInv.sends_cases (h : MessagesInv c) (hm : Matched c)
    (hstep : c.step dep a = some c') :
    c'.sends = c.sends ∨ ∃ sent k r, (∃ i raised, a = .sendMessage i raised) ∧
      c'.sends = c.sends ++ [sent] ∧ Faithful dep c sent k r ∧
      ∃ x ∈ c.connections, Carries dep sent k.connectionId r.workspaceId x := by
  rcases Config.sends_cases hstep with
    hsame | ⟨w, hw, token, destinationId, message', hcourier, hp, hadded⟩
  · exact .inl hsame
  · have hcontent := h.couriers w hw
    obtain ⟨r, _, _, hwritten⟩ := h.contents _ hcontent
    obtain ⟨x, hx, hid, hactive, htoken, -⟩ := prepare_ok hp
    have hsite : (x.id, r.workspaceId) ∈ c.sites := hid ▸ hwritten.site
    exact .inr ⟨_, _, r, hcourier, hadded, faithful_of_prepare hcontent hwritten hp, x, hx,
      ⟨hid, hm.workspaceId_eq hx hsite, hactive, htoken⟩⟩

/-- What holds of the tables of every run. -/
structure RunInv (dep : Deployment) (c : Config) : Prop where
  messages : MessagesInv c
  counted : Counted dep.settings.integrationMaxRetries c
  matched : Matched c

theorem RunInv.step (h : RunInv dep c) (hsteps : Steps dep c a c') : RunInv dep c' :=
  ⟨h.messages.step h.counted h.matched hsteps, h.counted.step hsteps,
    h.matched.step h.counted hsteps⟩

theorem runInv_empty (clock : Datetime) : RunInv dep (.empty clock) := by
  have hstart : Reachable dep (Config.empty clock) := ⟨clock, .refl _⟩
  obtain ⟨hcounted, hmatched⟩ := reachable_matched hstart
  exact ⟨messagesInv_empty clock, hcounted, hmatched⟩

/-- What was sent faithfully stays so. -/
theorem Faithful.step {sent : Sent} {k : Content} {r : Record} (h : Faithful dep c sent k r)
    (hinv : RunInv dep c) (hsteps : Steps dep c a c') : Faithful dep c' sent k r :=
  h.mono (hsteps.contents_subset hinv.counted.keys) (hsteps.records hinv.matched)
    (hsteps.sites hinv.matched)

theorem Reachable.runInv (h : Reachable dep c) : RunInv dep c := by
  obtain ⟨clock, hrun⟩ := h
  exact hrun.invariant (fun c a c' hinv _ hs => hinv.step (Config.step_cases hs))
    (runInv_empty clock)

/-- What a message says depends on what stays of its delivery. -/
theorem message_congr {d d' : IntegrationDelivery} (h : content d = content d')
    (payload : List (String × Json)) : message dep d payload = message dep d' payload := by
  have hid : d.id = d'.id := congrArg Content.id h
  have htype : d.eventType = d'.eventType := congrArg Content.eventType h
  unfold message
  rw [hid, htype]

end

/-! ## The result -/

/-- The message is the one of the event, through the connection. -/
structure SentFor (dep : Deployment) (sent : Sent) (e : OutboxEvent) (d : IntegrationDelivery)
    (x : IntegrationConnection) : Prop where
  claim : d.id = sent.claim.1
  event : (d.eventType, d.eventId) = e.subject
  connection : d.connectionId = x.id
  workspace : x.workspaceId = e.workspaceId
  destination : ∃ destinationName, d.requestSummary =
    summary e.workspaceId (some sent.destinationId) destinationName e.payload
  message : ∃ payload, e.payload = .obj payload ∧ sent.message = Integration.message dep d payload

/-- Some step of the run from the start. -/
abbrev Made (dep : Deployment) (clock : Datetime) :
    (Config → Action → Config → Prop) → Config → Prop :=
  Machine.Made (Config.step dep) (fun _ _ => True) (.empty clock)

/-- The step sends the message, with the token of the connection as it then is. -/
structure Passes (dep : Deployment) (sent : Sent) (connectionId workspaceId : UUID) (c : Config)
    (a : Action) (c' : Config) : Prop where
  courier : ∃ i raised, a = .sendMessage i raised
  sends : c'.sends = c.sends ++ [sent]
  carries : ∃ x ∈ c.connections, Carries dep sent connectionId workspaceId x

section
variable {dep : Deployment} {c : Config}

/-- What is kept of a message that was sent, in the terms of the tables. -/
theorem Faithful.sentFor {sent : Sent} {k : Content} {r : Record} (h : Faithful dep c sent k r)
    (hm : Matched c) {x : IntegrationConnection} (hx : x ∈ c.connections)
    (hid : x.id = k.connectionId) :
    ∃ e ∈ c.outboxEvents, ∃ d ∈ c.deliveries, SentFor dep sent e d x ∧
      e.workspaceId = r.workspaceId := by
  obtain ⟨hcontent, hclaim, ⟨destinationName, hwritten⟩, d', payload, hd', hpayload, hmessage⟩ := h
  obtain ⟨d, hd, rfl⟩ := List.mem_map.mp hcontent
  obtain ⟨e, he, rfl⟩ := List.mem_map.mp hwritten.record
  have hsite : (x.id, e.workspaceId) ∈ c.sites := hid ▸ hwritten.site
  refine ⟨e, he, d, hd, ⟨hclaim, ?_, hid.symm, hm.workspaceId_eq hx hsite,
    ⟨destinationName, hwritten.requestSummary⟩, payload, hpayload, ?_⟩, rfl⟩
  · exact Prod.ext hwritten.eventType hwritten.eventId
  · rw [hmessage, message_congr hd']

/-- What was sent was sent in some step, and its event and its delivery are still there. -/
theorem Reachable.sends {clock : Datetime}
    (h : Machine.Run (Config.step dep) (fun _ _ => True) (.empty clock) c) :
    ∀ sent ∈ c.sends, ∃ k r, Faithful dep c sent k r ∧
      Made dep clock (Passes dep sent k.connectionId r.workspaceId) c := by
  induction h with
  | refl => exact List.forall_mem_nil _
  | @step c c' a hrun ha hs ih =>
      have hinv : RunInv dep c := Reachable.runInv ⟨clock, hrun⟩
      have hsteps := Config.step_cases hs
      have hkept : ∀ sent ∈ c.sends, ∃ k r, Faithful dep c' sent k r ∧
          Made dep clock (Passes dep sent k.connectionId r.workspaceId) c' := by
        intro sent hsent
        obtain ⟨k, r, hfaithful, hmade⟩ := ih sent hsent
        exact ⟨k, r, hfaithful.step hinv hsteps, hmade.next ha hs⟩
      rcases hinv.messages.sends_cases hinv.matched hs with
        hsame | ⟨new, k, r, hcourier, hadded, hfaithful, hcarries⟩
      · exact hsame ▸ hkept
      · rw [hadded]
        exact Machine.forall_snoc hkept ⟨k, r, hfaithful.step hinv hsteps,
          .now hrun ha hs ⟨hcourier, hadded, hcarries⟩⟩

end

/-- Every message that was sent says what an event of the outbox says, and goes to the
destination of its delivery; it was sent with the token of the connection of that delivery,
which was then active, and is of the workspace of the event. -/
theorem messages_faithful {dep : Deployment} {clock : Datetime} {c : Config}
    (h : Machine.Run (Config.step dep) (fun _ _ => True) (.empty clock) c) :
    ∀ sent ∈ c.sends, ∃ e ∈ c.outboxEvents, ∃ d ∈ c.deliveries, ∃ x ∈ c.connections,
      SentFor dep sent e d x ∧ Made dep clock (Passes dep sent x.id e.workspaceId) c := by
  intro sent hsent
  obtain ⟨k, r, hfaithful, hmade⟩ := Reachable.sends h sent hsent
  obtain ⟨_, hwritten⟩ := hfaithful.written
  obtain ⟨x, hx, hsite⟩ := List.mem_map.mp hwritten.site
  have hid : x.id = k.connectionId := congrArg Prod.fst hsite
  have hinv : RunInv dep c := Reachable.runInv ⟨clock, h⟩
  obtain ⟨e, he, d, hd, hsentFor, hworkspace⟩ := hfaithful.sentFor hinv.matched hx hid
  refine ⟨e, he, d, hd, x, hx, hsentFor, ?_⟩
  rw [hid, hworkspace]
  exact hmade

theorem messages_faithful_sample : ∃ c : Config, c.sends.length = 2 ∧
    ∀ sent ∈ c.sends, ∃ e ∈ c.outboxEvents, ∃ d ∈ c.deliveries, ∃ x ∈ c.connections,
      SentFor Sample.deployment sent e d x ∧
        Made Sample.deployment 0 (Passes Sample.deployment sent x.id e.workspaceId) c := by
  obtain ⟨c, hplay, hsends⟩ := Option.map_eq_some_iff.mp
    (show (Machine.play (Config.step Sample.deployment) (fun _ _ => True) (.empty 0)
        Sample.secondSend).map (fun c => c.sends.length) = some 2 by decide +kernel)
  exact ⟨c, hsends, messages_faithful (Machine.Run.of_play hplay)⟩

end Integration

end ForkRoom
