/-
# `Proof.Sends` — integration sends are bounded

A claim of a delivery does not look at its attempts.  The bound holds because a
delivery that may be claimed has an attempt left (`WithinLimit`): whoever puts
one back, the recovery included, looks at the counter first.

What a step does to the deliveries is one of three things: those of an event, a
claim, or a rewriting that keeps the counters, the limit, and every DELIVERED.
-/
import ForkRoom.Lib.Claims
import ForkRoom.System.Integration

namespace ForkRoom

namespace Integration

open IntegrationRepository

/-- The delivery may still be claimed. -/
def claimable (d : IntegrationDelivery) : Bool := d.status = .pending || d.status = .retryScheduled

/-- Status and counter of a delivery agree. -/
structure WithinLimit (maxRetries : Nat) (d : IntegrationDelivery) : Prop where
  limit : d.attemptCount ≤ maxRetries
  attemptLeft : claimable d → d.attemptCount < maxRetries
  exhausted : d.status = .failed → maxRetries ≤ d.attemptCount

/-- What no step but a claim changes of a delivery, and what no step undoes. -/
structure Kept (maxRetries : Nat) (d d' : IntegrationDelivery) : Prop where
  id : d'.id = d.id
  target : d'.target = d.target
  attemptCount : d'.attemptCount = d.attemptCount
  delivered : d.status = .delivered → d'.status = .delivered
  limit : WithinLimit maxRetries d → WithinLimit maxRetries d'

theorem Kept.refl (maxRetries : Nat) (d : IntegrationDelivery) : Kept maxRetries d d :=
  ⟨rfl, rfl, rfl, fun h => h, fun h => h⟩

/-- A new status, as far as the counter allows it. -/
theorem Kept.of_status {maxRetries : Nat} {d d' : IntegrationDelivery} (hid : d'.id = d.id)
    (htarget : d'.target = d.target) (hcount : d'.attemptCount = d.attemptCount)
    (hdelivered : d.status = .delivered → d'.status = .delivered)
    (hopen : claimable d' → d.attemptCount < maxRetries)
    (hfailed : d'.status = .failed → maxRetries ≤ d.attemptCount) : Kept maxRetries d d' :=
  ⟨hid, htarget, hcount, hdelivered, fun h => ⟨hcount.trans_le h.limit, fun ho => hcount.trans_lt
    (hopen ho), fun hf => (hfailed hf).trans_eq hcount.symm⟩⟩

theorem Kept.of_status_eq {maxRetries : Nat} {d d' : IntegrationDelivery} (hid : d'.id = d.id)
    (htarget : d'.target = d.target) (hcount : d'.attemptCount = d.attemptCount)
    (hstatus : d'.status = d.status) : Kept maxRetries d d' := by
  have hclaimable : claimable d' = claimable d := by rw [claimable, claimable, hstatus]
  refine ⟨hid, htarget, hcount, fun h => hstatus.trans h, fun h => ?_⟩
  exact ⟨hcount.trans_le h.limit, fun ho => hcount.trans_lt (h.attemptLeft (hclaimable ▸ ho)),
    fun hf => (h.exhausted (hstatus ▸ hf)).trans_eq hcount.symm⟩

/-- What a step does to the deliveries and their claims. -/
inductive Change (maxRetries : Nat) (c c' : Config) : Prop
  | inserted {w : Dispatcher} {fresh : Nat → UUID} {new : List IntegrationDelivery} :
      w ∈ c.dispatchers →
      new = newDeliveries w.event w.now c.clock fresh c.toIntegrationTables →
      ((c.deliveries ++ new).map IntegrationDelivery.id).Nodup →
      ((c.deliveries ++ new).map IntegrationDelivery.target).Nodup →
      c'.deliveries = c.deliveries ++ new → c'.claims = c.claims → Change maxRetries c c'
  | claimed {d : IntegrationDelivery} : d ∈ c.deliveries → claimable d →
      c'.deliveries = Rows.replace d (claimedDelivery c.clock d) c.deliveries →
      c'.claims = c.claims ++ [(d.id, d.attemptCount + 1)] → Change maxRetries c c'
  | rewritten {f : IntegrationDelivery → IntegrationDelivery} :
      (∀ d ∈ c.deliveries, Kept maxRetries d (f d)) → c'.deliveries = c.deliveries.map f →
      c'.claims = c.claims → Change maxRetries c c'

theorem Change.of_same {maxRetries : Nat} {c c' : Config} (hd : c'.deliveries = c.deliveries)
    (hc : c'.claims = c.claims) : Change maxRetries c c' :=
  .rewritten (f := id) (fun d _ => .refl maxRetries d) (by rw [hd, List.map_id]) hc

theorem moved_claims {c : Config} {i : Nat} {w : Courier} (hw : c.couriers[i]? = some w)
    (phase : Phase) : (c.moved i w phase).claims = c.claims :=
  Machine.map_set_of_eq hw rfl

theorem mem_newDeliveries {event : OutboxEvent} {now dbNow : Datetime} {fresh : Nat → UUID}
    {t : IntegrationTables} {d : IntegrationDelivery}
    (hd : d ∈ newDeliveries event now dbNow fresh t) : ∃ i r, r ∈ subscribers event t ∧
      d = newDelivery event now dbNow (fresh i) r.1 r.2 := by
  obtain ⟨i, hi, rfl⟩ := List.mem_mapIdx.mp hd
  exact ⟨i, _, (List.mem_filter.mp (List.getElem_mem hi)).1, rfl⟩

section
variable {dep : Deployment} {c c' : Config} {a : Action}

theorem Steps.change (h : Steps dep c a c')
    (hkeys : (c.deliveries.map IntegrationDelivery.id).Nodup) :
    Change dep.settings.integrationMaxRetries c c' := by
  cases h with
  | tick | staged | connected | reconnected | configured | dispatched | rolledBack
  | outboxFailed => exact .of_same rfl rfl
  | fannedOut hw hnew hids htargets =>
      exact .inserted (List.mem_of_getElem? hw) hnew hids htargets rfl rfl
  | claimed hd hdue =>
      refine .claimed hd (Bool.and_eq_true_iff.mp hdue).1 rfl ?_
      simp [Config.claims]
      rfl
  | unprepared hw => exact .of_same rfl (moved_claims hw _)
  | sent hw => exact .of_same rfl (moved_claims hw _)
  | @marked i w hw =>
      refine .rewritten (fun d _ => ?_) rfl (moved_claims hw _)
      split
      · rcases Rows.column_cases w.delivery.status .delivered d.status with hc | hc
        · exact .of_status_eq rfl rfl rfl hc
        · refine .of_status rfl rfl rfl (fun _ => hc) (fun ho => ?_) fun hf => ?_
          · simp [claimable, hc] at ho
          · nomatch hc.symm.trans hf
      · exact .refl _ d
  | deliveryFailed hd hmax =>
      refine .rewritten (fun x hx => ?_) rfl rfl
      split
      · rename_i hid
        rw [Rows.eq_of_key hkeys hx hd hid]
        beta_reduce
        split
        · exact .refl _ _
        · rename_i hdelivered
          exact .of_status rfl rfl rfl (fun h => absurd h hdelivered) (fun ho => nomatch ho)
            fun _ => hmax
      · exact .refl _ x
  | retried hd hmax =>
      refine .rewritten (fun x hx => ?_) rfl rfl
      split
      · rename_i hid
        rw [Rows.eq_of_key hkeys hx hd hid]
        beta_reduce
        split
        · exact .refl _ _
        · rename_i hdelivered
          exact .of_status rfl rfl rfl (fun h => absurd h hdelivered) (fun _ => hmax)
            fun hf => nomatch hf
      · exact .refl _ x
  | recovered =>
      refine .rewritten (fun d _ => ?_) rfl rfl
      split
      · rename_i hstale
        have hst : d.status = .delivering := of_decide_eq_true (Bool.and_eq_true_iff.mp hstale).1
        have hopen : d.status ≠ .delivered := by
          rw [hst]
          exact nofun
        rw [recoveredDelivery]
        split
        · rename_i hmax
          exact .of_status rfl rfl rfl (fun h => absurd h hopen) (fun ho => nomatch ho)
            fun _ => hmax
        · rename_i hmax
          exact .of_status rfl rfl rfl (fun h => absurd h hopen) (fun _ => Nat.not_le.mp hmax)
            fun hf => nomatch hf
      · exact .refl _ d

/-! ## Every step -/

/-- The deliveries with their counters. -/
def Config.counters (c : Config) : List (UUID × Nat) :=
  c.deliveries.map fun d => (d.id, d.attemptCount)

theorem counters_keys (c : Config) :
    c.counters.map Prod.fst = c.deliveries.map IntegrationDelivery.id := by
  rw [Config.counters, List.map_map]
  rfl

theorem mem_counters {d : IntegrationDelivery} (h : d ∈ c.deliveries) :
    (d.id, d.attemptCount) ∈ c.counters :=
  List.mem_map_of_mem h

structure Counted (maxRetries : Nat) (c : Config) : Prop where
  withinLimit : ∀ d ∈ c.deliveries, WithinLimit maxRetries d
  numbered : Claims.Numbered c.counters c.claims

theorem Counted.keys {maxRetries : Nat} (h : Counted maxRetries c) :
    (c.deliveries.map IntegrationDelivery.id).Nodup :=
  counters_keys c ▸ h.numbered.keys

/-- A new delivery has all its attempts left. -/
theorem withinLimit_new {maxRetries : Nat} {d : IntegrationDelivery} (hmax : 1 ≤ maxRetries)
    (hstatus : d.status = .pending) (hcount : d.attemptCount = 0) : WithinLimit maxRetries d where
  limit := hcount ▸ Nat.zero_le _
  attemptLeft := fun _ => hcount ▸ hmax
  exhausted := fun hf => by nomatch hstatus.symm.trans hf

theorem numbered_append {claims : List (UUID × Nat)} : ∀ {new rows : List IntegrationDelivery},
    Claims.Numbered (rows.map fun d => (d.id, d.attemptCount)) claims →
    (∀ d ∈ new, d.attemptCount = 0) → ((rows ++ new).map IntegrationDelivery.id).Nodup →
    Claims.Numbered ((rows ++ new).map fun d => (d.id, d.attemptCount)) claims
  | [], rows, h, _, _ => by
      rw [List.append_nil]
      exact h
  | d :: new, rows, h, hzero, hn => by
      have hsplit : rows ++ d :: new = (rows ++ [d]) ++ new := by simp
      rw [hsplit] at hn ⊢
      refine numbered_append ?_ (fun x hx => hzero x (List.mem_cons_of_mem _ hx)) hn
      rw [List.map_append, List.map_singleton, hzero d List.mem_cons_self]
      refine h.insert ?_
      -- the identifier of the new row is none of those before
      rw [List.map_append, List.map_append] at hn
      have hdisjoint := (List.nodup_append.mp (List.nodup_append.mp hn).1).2.2
      intro hmem
      rw [List.map_map] at hmem
      exact hdisjoint d.id hmem d.id (List.mem_singleton_self _) rfl

theorem Counted.change {maxRetries : Nat} (hmax : 1 ≤ maxRetries) (h : Counted maxRetries c)
    (hc : Change maxRetries c c') : Counted maxRetries c' := by
  cases hc with
  | @inserted w fresh new _ hfresh hids _ hrows hclaims =>
      have hnew : ∀ d ∈ new, d.status = .pending ∧ d.attemptCount = 0 := by
        intro d hd
        rw [hfresh] at hd
        obtain ⟨i, r, -, rfl⟩ := mem_newDeliveries hd
        exact ⟨rfl, rfl⟩
      refine ⟨fun d hd => ?_, ?_⟩
      · rw [hrows] at hd
        rcases List.mem_append.mp hd with hd | hd
        · exact h.withinLimit d hd
        · exact withinLimit_new hmax (hnew d hd).1 (hnew d hd).2
      · rw [hclaims, Config.counters, hrows]
        exact numbered_append h.numbered (fun d hd => (hnew d hd).2) hids
  | @claimed d hd hopen hrows hclaims =>
      refine ⟨fun x hx => ?_, ?_⟩
      · rw [hrows] at hx
        rcases (Rows.mem_replace hd).mp hx with rfl | ⟨hx, -⟩
        · refine ⟨(h.withinLimit d hd).attemptLeft hopen, fun ho => ?_, fun hf => ?_⟩
          · nomatch ho
          · nomatch hf
        · exact h.withinLimit x hx
      · rw [hclaims, Config.counters, hrows]
        exact h.numbered.replace hd rfl rfl
  | @rewritten f hf hrows hclaims =>
      refine ⟨fun x hx => ?_, ?_⟩
      · rw [hrows] at hx
        obtain ⟨d, hd, rfl⟩ := List.mem_map.mp hx
        exact (hf d hd).limit (h.withinLimit d hd)
      · have hcounters : c'.counters = c.counters := by
          rw [Config.counters, hrows]
          exact Claims.counters_map fun d hd => ⟨(hf d hd).id, (hf d hd).attemptCount⟩
        rw [hclaims, hcounters]
        exact h.numbered

theorem Counted.step (h : Counted dep.settings.integrationMaxRetries c)
    (hs : Steps dep c a c') : Counted dep.settings.integrationMaxRetries c' :=
  h.change dep.settings.integrationMaxRetries_pos (hs.change h.keys)

/-- The courier is past `send_message`. -/
def Courier.pastSend (w : Courier) : Bool := w.phase ≠ .claimed

/-- Every call of `send_message` is that of one claim. -/
abbrev SentOnce (c : Config) : Prop :=
  Claims.OnceEach Courier.claim Courier.pastSend c.couriers (c.sends.map Sent.claim)

theorem SentOnce.step {maxRetries : Nat} (hc : Counted maxRetries c) (h : SentOnce c)
    (hs : Steps dep c a c') : SentOnce c' := by
  cases hs with
  | tick | staged | connected | reconnected | configured | dispatched | fannedOut | rolledBack
  | outboxFailed | deliveryFailed | retried | recovered => exact h
  | claimed => exact h.snoc _
  | unprepared hw | marked hw => exact h.move hw rfl fun _ => rfl
  | @sent i _ w sent phase hw hphase hnext hclaim =>
      show Claims.OnceEach Courier.claim Courier.pastSend _ ((c.sends ++ [sent]).map Sent.claim)
      rw [List.map_append, List.map_singleton, hclaim]
      refine h.send hc.numbered.distinct hw ?_ rfl ?_
      · rw [Courier.pastSend, hphase]
        rfl
      · exact decide_eq_true hnext

/-! ## Every run -/

theorem reachable_counted (h : Reachable dep c) :
    Counted dep.settings.integrationMaxRetries c ∧ SentOnce c := by
  obtain ⟨clock, hrun⟩ := h
  refine hrun.invariant
    (I := fun c => Counted dep.settings.integrationMaxRetries c ∧ SentOnce c)
    (fun c a c' hc _ hs => ?_) ⟨⟨fun _ hd => (nomatch hd), .empty⟩, .empty _ _ _⟩
  have hsteps := Config.step_cases hs
  exact ⟨hc.1.step hsteps, hc.2.step hc.1 hsteps⟩

/-- A delivery that is DELIVERED stays so. -/
def StaysDelivered (c c' : Config) : Prop :=
  ∀ d ∈ c.deliveries, d.status = .delivered →
    ∃ d' ∈ c'.deliveries, d'.id = d.id ∧ d'.status = .delivered

theorem Change.staysDelivered {maxRetries : Nat} (h : Change maxRetries c c')
    (hkeys : (c.deliveries.map IntegrationDelivery.id).Nodup) : StaysDelivered c c' := by
  intro d hd hs
  cases h with
  | inserted _ _ _ _ hrows _ => exact ⟨d, hrows ▸ List.mem_append_left _ hd, rfl, hs⟩
  | @claimed x hx hopen hrows _ =>
      have hne : d.id ≠ x.id := by
        intro he
        rw [← Rows.eq_of_key hkeys hd hx he, claimable, hs] at hopen
        nomatch hopen
      exact ⟨d, hrows ▸ (Rows.mem_replace hx).mpr (.inr ⟨hd, hne⟩), rfl, hs⟩
  | rewritten hf hrows _ =>
      exact ⟨_, hrows ▸ List.mem_map_of_mem hd, (hf d hd).id, (hf d hd).delivered hs⟩

theorem StaysDelivered.trans {c'' : Config} (h : StaysDelivered c c') (h' : StaysDelivered c' c'') :
    StaysDelivered c c'' := by
  intro d hd hs
  obtain ⟨d', hd', hid, hs'⟩ := h d hd hs
  obtain ⟨d'', hd'', hid', hs''⟩ := h' d' hd' hs'
  exact ⟨d'', hd'', hid'.trans hid, hs''⟩

/-- What holds of the deliveries in every state reached. -/
structure Bounded (maxRetries : Nat) (c : Config) : Prop where
  limit : ∀ d ∈ c.deliveries, d.attemptCount ≤ maxRetries
  attemptLeft : ∀ d ∈ c.deliveries, d.status = .pending ∨ d.status = .retryScheduled →
    d.attemptCount < maxRetries
  sends : ∀ d ∈ c.deliveries, (c.sends.filter fun s => s.claim.1 = d.id).length ≤ maxRetries

end

/-- Sends are bounded in every state reached, and whatever is delivered stays so. -/
theorem sends_bounded {dep : Deployment} {c : Config} (h : Reachable dep c) :
    Bounded dep.settings.integrationMaxRetries c ∧
      ∀ c', Machine.Run (Config.step dep) (fun _ _ => True) c c' → StaysDelivered c c' := by
  obtain ⟨hc, hm⟩ := reachable_counted h
  refine ⟨⟨fun d hd => (hc.withinLimit d hd).limit, fun d hd hs => ?_, fun d hd => ?_⟩,
    fun c' hrun => ?_⟩
  · refine (hc.withinLimit d hd).attemptLeft ?_
    rw [claimable]
    simpa using hs
  · have hle := hm.length_le hc.numbered (mem_counters hd)
    rw [List.filter_map, List.length_map] at hle
    exact hle.trans (hc.withinLimit d hd).limit
  · refine hrun.relates (I := Counted dep.settings.integrationMaxRetries)
      (fun c d hd hs => ⟨d, hd, rfl, hs⟩) StaysDelivered.trans
      (fun c a c' hc _ hs => hc.step (Config.step_cases hs)) (fun c a c' hc _ hs => ?_) hc
    exact ((Config.step_cases hs).change hc.keys).staysDelivered hc.keys

/-! ## A sample -/

def Sample.deployment : Deployment where
  settings := { WorkerSettings.default with
    integrationMaxRetries := 2
    integrationMaxRetries_pos := by decide }
  frontendUrl := "https://forkroom.test/"
  decrypt := fun encrypted => if encrypted = "gAAAA" then some "xoxb-1" else none
  available := fun _ => true

def Sample.votingOpened : IntegrationOutboxEvent :=
  ⟨30, 10, .votingOpened, 40, .obj [("decision_title", .str "Quarry survey")], 0⟩

def Sample.connection : IntegrationConnection := ⟨50, 10, .slack, .active, some "gAAAA"⟩

def Sample.subscription : IntegrationSubscription :=
  ⟨60, 50, .votingOpened, true, some "C1", some "general"⟩

/-- The first message raises, the second arrives. -/
def Sample.secondSend : List Action :=
  [.saveConnection connection, .saveSubscription subscription, .stage votingOpened,
    .dispatchOutbox 30, .createDeliveries 0 fun _ => 70, .deliver 70, .sendMessage 0 true,
    .recordDeliveryError 70 "ReadTimeout", .tick (seconds 30), .deliver 70, .sendMessage 1 false,
    .markDelivered 1]

theorem sends_bounded_sample : ∃ c, Reachable Sample.deployment c ∧ c.sends.length = 2 ∧
    (c.deliveries.map fun d => (d.status, d.attemptCount)) = [(.delivered, 2)] ∧ Bounded 2 c := by
  obtain ⟨c, hplay, hrows⟩ := Option.map_eq_some_iff.mp
    (show (Machine.play (Config.step Sample.deployment) (fun _ _ => True) (.empty 0)
        Sample.secondSend).map
          (fun c => (c.sends.length, c.deliveries.map fun d => (d.status, d.attemptCount))) =
        some (2, [(.delivered, 2)]) by decide +kernel)
  have hreach : Reachable Sample.deployment c := ⟨0, Machine.Run.of_play hplay⟩
  obtain ⟨hsends, hdeliveries⟩ := Prod.mk.inj hrows
  exact ⟨c, hreach, hsends, hdeliveries, (sends_bounded hreach).1⟩

end Integration

end ForkRoom
