/-
# `Proof.Connections` — connections, participants and capacity

A join adds its user, and a `leave` removes the user, whatever other connections the
user has.  Where no connection leaves while another one of its user is in the room
(`Alone`), everybody with an open connection is a participant.

Between the count of a join and its entry, others can only leave: the join holds the
lock, unless it takes longer than the lock lasts.  So the user of a join that has
passed the count is a participant already, or there is room for one more
(`Admitted`).
-/
import ForkRoom.Proof.Speakers

namespace ForkRoom

namespace Connections

section
variable {T : Type} [LinearOrder T]

open Room

/-! ## Conditions -/

/-- Nothing of the room runs out, and no score: what a call has read of the clock is not
older than the presence TTL. -/
def WithinTtl [Field T] (settings : MeetingSettings) (s : State T) : Action T → Prop
  | .tick clock => ((s.room.presenceAt s.clock).entries.all fun e => clock < e.2) ∧
      (s.room.participants.present s.clock → s.room.participants.present clock)
  | .advance _ now => s.clock < now + presenceTtl settings
  | .connect _ | .receive .. | .turnAway _ | .abort _ => True

/-- No connection leaves while another one of its user is in the room, and no join enters
after its lock has run out. -/
def Alone (s : State T) : Action T → Prop
  | .advance i _ => (s.connections[i]?).all fun c =>
      (c.phase ≠ .leaving || (s.connections.eraseIdx i).all fun c' =>
        !c'.phase.isIn || c'.userId ≠ c.userId) &&
      (c.phase ≠ .entering || s.lock.read s.clock = some i)
  | .tick _ | .connect _ | .receive .. | .turnAway _ | .abort _ => True

instance [Field T] (settings : MeetingSettings) (s : State T) :
    ∀ a : Action T, Decidable (WithinTtl settings s a)
  | .tick clock => inferInstanceAs (Decidable
      (((s.room.presenceAt s.clock).entries.all fun e => clock < e.2) ∧
        (s.room.participants.present s.clock → s.room.participants.present clock)))
  | .advance _ now => inferInstanceAs (Decidable (s.clock < now + presenceTtl settings))
  | .connect _ | .receive .. | .turnAway _ | .abort _ => instDecidableTrue

instance (s : State T) : ∀ a : Action T, Decidable (Alone s a)
  | .advance i _ => inferInstanceAs (Decidable ((s.connections[i]?).all fun c =>
      (c.phase ≠ .leaving || (s.connections.eraseIdx i).all fun c' =>
        !c'.phase.isIn || c'.userId ≠ c.userId) &&
      (c.phase ≠ .entering || s.lock.read s.clock = some i)))
  | .tick _ | .connect _ | .receive .. | .turnAway _ | .abort _ => instDecidableTrue

end

/-! ## Room for one more -/

/-- The user is a participant, or there is room for one more. -/
def Fits {T : Type} (settings : MeetingSettings) (u : UUID)
    (participants : AList fun _ : UUID => MeetingParticipant T) : Prop :=
  u ∈ participants ∨ participants.keys.length < settings.meetingMaxParticipants

section
variable {T : Type} {settings : MeetingSettings} {u v : UUID} {p : MeetingParticipant T}
  {participants : AList fun _ : UUID => MeetingParticipant T}

theorem length_erase_le : (participants.erase v).keys.length ≤ participants.keys.length := by
  rw [AList.keys_erase]
  exact List.length_erase_le

/-- Somebody who leaves makes room. -/
theorem Fits.erase (h : Fits settings u participants)
    (hle : participants.keys.length ≤ settings.meetingMaxParticipants) :
    Fits settings u (participants.erase v) := by
  rcases h with hu | hlt
  · by_cases huv : u = v
    · subst huv
      refine .inr (lt_of_lt_of_le ?_ hle)
      have hpos := List.length_pos_of_mem (AList.mem_keys.mp hu)
      rw [AList.keys_erase, List.length_erase_of_mem (AList.mem_keys.mp hu)]
      omega
    · exact .inl (AList.mem_erase.mpr ⟨huv, hu⟩)
  · exact .inr (lt_of_le_of_lt length_erase_le hlt)

theorem Fits.length_insert (h : Fits settings u participants)
    (hle : participants.keys.length ≤ settings.meetingMaxParticipants) :
    (participants.insert u p).keys.length ≤ settings.meetingMaxParticipants := by
  rw [AList.keys_insert, List.length_cons]
  rcases h with hu | hlt
  · have hpos := List.length_pos_of_mem (AList.mem_keys.mp hu)
    rw [List.length_erase_of_mem (AList.mem_keys.mp hu)]
    omega
  · exact Nat.succ_le_of_lt (lt_of_le_of_lt List.length_erase_le hlt)

end

/-! ## Steps -/

section
variable {T : Type} [LinearOrder T] {settings : MeetingSettings} {s s' : State T} {i : Nat}
  {c : Connection}

open Room

theorem Alone.advance {now : T} (h : Alone s (.advance i now)) (hi : s.connections[i]? = some c) :
    (c.phase ≠ .leaving || (s.connections.eraseIdx i).all fun c' =>
      !c'.phase.isIn || c'.userId ≠ c.userId) &&
    (c.phase ≠ .entering || s.lock.read s.clock = some i) := by
  simpa only [Alone, hi, Option.all_some] using h

/-- A join that enters holds the lock. -/
theorem Alone.entering {now : T} (h : Alone s (.advance i now)) (hi : s.connections[i]? = some c)
    (hphase : c.phase = .entering) : s.lock.read s.clock = some i := by
  simpa [hphase] using h.advance hi

/-- A connection that leaves is the last of its user. -/
theorem Alone.leaving {now : T} (h : Alone s (.advance i now)) (hi : s.connections[i]? = some c)
    (hphase : c.phase = .leaving) :
    (s.connections.eraseIdx i).all fun c' => !c'.phase.isIn || c'.userId ≠ c.userId := by
  simpa [hphase] using h.advance hi

/-- The connections, the participants and the capacity agree. -/
structure Housed (settings : MeetingSettings) (s : State T) : Prop where
  inside : ∀ c ∈ s.connections, c.phase.isIn → c.userId ∈ s.room.participantsAt s.clock
  fresh : ∀ u score, (s.room.presenceAt s.clock).lookup u = some score → s.clock < score
  capacity : (s.room.participantsAt s.clock).keys.length ≤ settings.meetingMaxParticipants
  admitted : ∀ i c, s.connections[i]? = some c → s.lock.read s.clock = some i →
    (c.phase = .counting true ∨ c.phase = .entering) →
    Fits settings c.userId (s.room.participantsAt s.clock)
  unpruned : ∀ c ∈ s.connections, ∀ joining stale, c.phase ≠ .removing joining stale

/-- A connection goes on. -/
theorem Housed.goOn (h : Housed settings s) {phase : Phase}
    (hin : phase.isIn → c.userId ∈ s.room.participantsAt s.clock)
    (hfits : (phase = .counting true ∨ phase = .entering) → s.lock.read s.clock = some i →
      Fits settings c.userId (s.room.participantsAt s.clock))
    (hremoving : ∀ joining stale, phase ≠ .removing joining stale) :
    Housed settings (s.goOn i c phase) := by
  refine ⟨Machine.forall_set h.inside hin, h.fresh, h.capacity, fun j c' hj hlock hphase => ?_,
    Machine.forall_set h.unpruned hremoving⟩
  rcases Machine.getElem?_set_cases hj with ⟨rfl, rfl⟩ | ⟨-, hother⟩
  · exact hfits hphase hlock
  · exact h.admitted j c' hother hlock hphase

/-- A phase in which no join has been admitted, and nobody is about to be pruned. -/
def Phase.plain : Phase → Bool
  | .counting true | .entering | .removing .. => false
  | .counting false | .locking | .pruning _ | .checking | .releasing _ | .idle | .touching
  | .asking | .queueing | .unqueueing | .leaving | .closed => true

theorem Housed.goOn_plain (h : Housed settings s) {phase : Phase} (hplain : phase.plain)
    (hin : phase.isIn → c.userId ∈ s.room.participantsAt s.clock) :
    Housed settings (s.goOn i c phase) := by
  refine h.goOn hin (fun hphase _ => ?_) ?_
  · rcases hphase with rfl | rfl <;> cases hplain
  · rintro joining stale rfl
    cases hplain

/-- A connection opens, and has not joined yet. -/
theorem Housed.connected (h : Housed settings s) (claims : MeetingTokenClaims) :
    Housed settings { s with connections := s.connections ++ [⟨claims, .locking⟩] } := by
  refine ⟨Machine.forall_snoc h.inside fun hin => (by cases hin), h.fresh, h.capacity,
    fun j c hj hlock hphase => ?_, Machine.forall_snoc h.unpruned fun _ _ he => (by cases he)⟩
  rcases Machine.getElem?_snoc_cases hj with rfl | hold
  · rcases hphase with hphase | hphase <;> cases hphase
  · exact h.admitted j c hold hlock hphase

/-- Nobody is stale. -/
theorem Housed.stale_eq (h : Housed settings s) {now : T} (hnow : now ≤ s.clock) :
    s.room.stale s.clock now = [] := by
  refine List.eq_nil_iff_forall_not_mem.mpr fun u hu => ?_
  obtain ⟨score, hscore, hle⟩ := mem_stale.mp hu
  exact absurd (h.fresh u score hscore) (not_lt.mpr (hle.trans hnow))

theorem Housed.tick (h : Housed settings s) {clock : T} (hle : s.clock ≤ clock)
    (hscores : (s.room.presenceAt s.clock).entries.all fun e => clock < e.2)
    (hthere : s.room.participants.present s.clock → s.room.participants.present clock) :
    Housed settings { s with clock := clock } := by
  have hsame : s.room.participantsAt clock = s.room.participantsAt s.clock :=
    Expiring.Key.contents_of_stays hle hthere
  refine ⟨fun c hc hin => ?_, fun u score hscore => ?_, ?_, fun j c hj hlock hphase => ?_,
    h.unpruned⟩
  · show c.userId ∈ s.room.participantsAt clock
    rw [hsame]
    exact h.inside c hc hin
  · change (s.room.presenceAt clock).lookup u = some score at hscore
    have hne : s.room.presenceAt clock ≠ ∅ := by
      intro hempty
      rw [hempty] at hscore
      cases hscore
    have hpresence : s.room.presenceAt clock = s.room.presenceAt s.clock :=
      (Expiring.Key.contents_later hle hne).1
    rw [hpresence] at hscore
    exact of_decide_eq_true (List.all_eq_true.mp hscores _ (AList.mem_lookup_iff.mp hscore))
  · show (s.room.participantsAt clock).keys.length ≤ _
    rw [hsame]
    exact h.capacity
  · show Fits settings c.userId (s.room.participantsAt clock)
    rw [hsame]
    refine h.admitted j c hj ?_ hphase
    rcases Expiring.Key.read_later hle s.lock with hlater | hnone
    · exact hlater ▸ hlock
    · change s.lock.read clock = some j at hlock
      rw [hnone] at hlock
      cases hlock

/-- A connection leaves, the last of its user. -/
theorem Housed.left (h : Housed settings s)
    (halone : (s.connections.eraseIdx i).all fun c' => !c'.phase.isIn || c'.userId ≠ c.userId) :
    Housed settings
      (State.goOn { s with room := s.room.remove s.clock [c.userId] } i c .closed) := by
  have hparticipants : (s.room.remove s.clock [c.userId]).participantsAt s.clock =
      (s.room.participantsAt s.clock).erase c.userId := participantsAt_remove
  refine ⟨fun c' hm hin => ?_, fun u score hscore => ?_, ?_, fun j c' hj hlock hphase => ?_, ?_⟩
  · show c'.userId ∈ (s.room.remove s.clock [c.userId]).participantsAt s.clock
    rw [hparticipants, AList.mem_erase]
    rcases Machine.mem_set_cases hm with rfl | hother
    · cases hin
    · have hne := List.all_eq_true.mp halone c' hother
      rw [hin, Bool.not_true, Bool.false_or, decide_eq_true_eq] at hne
      exact ⟨hne, h.inside c' (List.mem_of_mem_eraseIdx hother) hin⟩
  · change ((s.room.remove s.clock [c.userId]).presenceAt s.clock).lookup u = some score at hscore
    rw [presenceAt_remove, Expiring.lookup_eraseAll] at hscore
    split at hscore
    · cases hscore
    · exact h.fresh u score hscore
  · show ((s.room.remove s.clock [c.userId]).participantsAt s.clock).keys.length ≤ _
    rw [hparticipants]
    exact length_erase_le.trans h.capacity
  · show Fits settings c'.userId ((s.room.remove s.clock [c.userId]).participantsAt s.clock)
    rw [hparticipants]
    refine Fits.erase ?_ h.capacity
    rcases Machine.getElem?_set_cases hj with ⟨rfl, rfl⟩ | ⟨-, hother⟩
    · rcases hphase with hphase | hphase <;> cases hphase
    · exact h.admitted j c' hother hlock hphase
  · exact Machine.forall_set h.unpruned fun _ _ he => by cases he

variable [Field T]

theorem Housed.touch (h : Housed settings s) {now : T} (httl : s.clock < now + presenceTtl settings)
    (u : UUID) : Housed settings { s with room := s.room.touch settings s.clock now u } := by
  refine ⟨h.inside, fun v score hscore => ?_, h.capacity, h.admitted, h.unpruned⟩
  change ((s.room.touch settings s.clock now u).presenceAt s.clock).lookup v = some score at hscore
  rw [presenceAt_touch] at hscore
  by_cases hv : v = u
  · subst hv
    rw [AList.lookup_insert] at hscore
    exact Option.some.inj hscore ▸ httl
  · rw [AList.lookup_insert_ne hv] at hscore
    exact h.fresh v score hscore

/-- A join takes the lock, and has not counted yet. -/
theorem Housed.locked (h : Housed settings s) (hi : s.connections[i]? = some c)
    (hphase : c.phase = .locking) {ttl : T} :
    Housed settings { s with lock := .putFor s.clock ttl i } := by
  refine ⟨h.inside, h.fresh, h.capacity, fun j c' hj hlock hp => ?_, h.unpruned⟩
  obtain ⟨e, he, -, hvalue⟩ := Expiring.Key.read_eq_some.mp hlock
  cases he
  cases hvalue
  cases hi.symm.trans hj
  rw [hphase] at hp
  rcases hp with hp | hp <;> cases hp

variable [IsStrictOrderedRing T]

/-- A join enters, which has been admitted and still holds the lock. -/
theorem Housed.enter (h : Housed settings s) (hi : s.connections[i]? = some c)
    (hphase : c.phase = .entering) (hlock : s.lock.read s.clock = some i) {now : T}
    (httl : s.clock < now + presenceTtl settings) :
    Housed settings { s with room := s.room.enter settings s.clock now c.claims } := by
  obtain ⟨p, -, hparticipants⟩ :=
    @participantsAt_enter T _ s.clock now s.room _ settings c.claims _
  have hfits := h.admitted i c hi hlock (.inr hphase)
  refine ⟨fun c' hm hin => ?_, fun u score hscore => ?_, ?_, fun j c' hj hlock' _ => ?_,
    h.unpruned⟩
  · show c'.userId ∈ (s.room.enter settings s.clock now c.claims).participantsAt s.clock
    rw [hparticipants, AList.mem_insert]
    exact .inr (h.inside c' hm hin)
  · change ((s.room.enter settings s.clock now c.claims).presenceAt s.clock).lookup u =
      some score at hscore
    rw [presenceAt_enter] at hscore
    by_cases hu : u = c.claims.userId
    · subst hu
      rw [AList.lookup_insert] at hscore
      exact Option.some.inj hscore ▸ httl
    · rw [AList.lookup_insert_ne hu] at hscore
      exact h.fresh u score hscore
  · show ((s.room.enter settings s.clock now c.claims).participantsAt s.clock).keys.length ≤ _
    rw [hparticipants]
    exact hfits.length_insert h.capacity
  · -- nobody else holds the lock
    cases hlock.symm.trans hlock'
    cases hi.symm.trans hj
    show Fits settings c.userId
      ((s.room.enter settings s.clock now c.claims).participantsAt s.clock)
    rw [hparticipants]
    exact .inl ((AList.mem_insert _).mpr (.inl rfl))

theorem Housed.step {a : Action T} (h : Housed settings s) (httl : WithinTtl settings s a)
    (halone : Alone s a) (hstep : Steps settings s a s') : Housed settings s' := by
  have hinside : ∀ {i : Nat} {c : Connection}, s.connections[i]? = some c → c.phase.isIn →
      c.userId ∈ s.room.participantsAt s.clock :=
    fun hi hin => h.inside _ (List.mem_of_getElem? hi) hin
  cases hstep with
  | tick hle => exact h.tick hle httl.1 httl.2
  | connected => exact h.connected _
  | @moved a i c phase hi hin hknows =>
      refine h.goOn (fun hp => hinside hi (hin hp)) (fun hphase hlock => ?_)
        fun joining stale he => ?_
      · rcases hphase with rfl | rfl
        · exact .inl (hknows rfl)
        · obtain ⟨existing, hcounting, hadmit⟩ := hknows
          rcases hadmit with rfl | hlt
          · exact h.admitted i c hi hlock (.inl hcounting)
          · exact .inr (by rw [AList.keys, List.keys, List.length_map]; exact hlt)
      · subst he
        obtain ⟨hne, now, hnow, hstale⟩ := hknows
        exact hne (hstale.trans (h.stale_eq hnow))
  | @locked i now c hi hphase hfree =>
      exact (h.locked hi hphase).goOn_plain rfl fun hin => by cases hin
  | @unlocked i now c entered hi hphase =>
      have hfree : Housed settings { s with lock := none } :=
        ⟨h.inside, h.fresh, h.capacity, fun _ _ _ hlock => (nomatch hlock), h.unpruned⟩
      cases entered with
      | true => exact hfree.goOn_plain rfl fun _ => hinside hi (by rw [hphase]; rfl)
      | false => exact hfree.goOn_plain rfl fun hin => by cases hin
  | removed hi hphase =>
      exact absurd hphase (h.unpruned _ (List.mem_of_getElem? hi) _ _)
  | @entered i now c hi hphase hnow =>
      have hentered := h.enter hi hphase (halone.entering hi hphase) httl
      obtain ⟨p, -, hparticipants⟩ :=
        @participantsAt_enter T _ s.clock now s.room _ settings c.claims _
      refine hentered.goOn_plain rfl fun _ => ?_
      show c.userId ∈ (s.room.enter settings s.clock now c.claims).participantsAt s.clock
      rw [hparticipants]
      exact (AList.mem_insert _).mpr (.inl rfl)
  | @touched i now c hi hphase hnow =>
      exact (h.touch httl c.userId).goOn_plain rfl
        fun _ => hinside hi (by rw [hphase]; rfl)
  | @pushed i now c hi hphase =>
      have hpushed : Housed settings { s with
          room := s.room.push s.clock c.userId
          pushes := c.userId :: s.pushes } :=
        ⟨h.inside, h.fresh, h.capacity, h.admitted, h.unpruned⟩
      exact hpushed.goOn_plain rfl fun _ => hinside hi (by rw [hphase]; rfl)
  | @unqueued i now c hi hphase =>
      have hunqueued : Housed settings { s with room := s.room.unqueue s.clock c.userId } :=
        ⟨h.inside, h.fresh, h.capacity, h.admitted, h.unpruned⟩
      exact hunqueued.goOn_plain rfl fun _ => hinside hi (by rw [hphase]; rfl)
  | @left i now c hi hphase =>
      exact h.left (halone.leaving hi hphase)

/-! ## Runs -/

/-- The users with an open connection. -/
def State.openUsers (s : State T) : List UUID :=
  ((s.connections.filter fun c => c.phase.isIn).map Connection.userId).dedup

/-- Within the presence TTL, and where no connection leaves beside another of its user:
everybody with an open connection is a participant, and there are no more of them than the
room takes. -/
theorem open_users_participate {clock : T}
    (h : Machine.Run (State.step settings)
      (fun s a => WithinTtl settings s a ∧ Alone s a) (start clock) s) :
    (∀ u ∈ s.openUsers, u ∈ s.room.participantsAt s.clock) ∧
      s.openUsers.length ≤ settings.meetingMaxParticipants := by
  have hhoused : Housed settings s := by
    refine @Machine.Run.invariant _ _ _ _ _ _ (Housed settings)
      (fun _ _ _ hi hok hs => hi.step hok.1 hok.2 (State.step_cases hs)) h ?_
    exact ⟨fun _ hm => (nomatch hm), fun _ _ hs => (nomatch hs), Nat.zero_le _,
      fun _ _ hj => (nomatch hj), fun _ hm => (nomatch hm)⟩
  have hmem : ∀ u ∈ s.openUsers, u ∈ s.room.participantsAt s.clock := by
    intro u hu
    obtain ⟨c, hc, rfl⟩ := List.mem_map.mp (List.mem_dedup.mp hu)
    obtain ⟨hc, hin⟩ := List.mem_filter.mp hc
    exact hhoused.inside c hc hin
  refine ⟨hmem, le_trans ?_ hhoused.capacity⟩
  exact Machine.length_le_of_nodup (List.nodup_dedup _) fun u hu => AList.mem_keys.mp (hmem u hu)

end

/-! ## A page that is reloaded -/

/-- Ada opens a second connection, and the first one leaves; four others join. -/
def Sample.reload : List (Action ℚ) :=
  Sample.join 0 Sample.ada ++ Sample.join 1 Sample.ada ++ [.receive 0 .disconnect, .advance 0 0] ++
    Sample.join 2 Sample.ben ++ Sample.join 3 ⟨3, "Cleo", "member", false⟩ ++
    Sample.join 4 ⟨4, "Dov", "member", false⟩ ++ Sample.join 5 ⟨5, "Eve", "member", false⟩

/-- Ada is connected and no participant, and one user more than the room takes is connected. -/
theorem reload_loses_user : ∃ s : State ℚ,
    Machine.Run (State.step .default) (WithinTtl .default) (start 0) s ∧
    1 ∈ s.openUsers ∧ 1 ∉ s.room.participantsAt s.clock ∧
    MeetingSettings.default.meetingMaxParticipants < s.openUsers.length := by
  obtain ⟨s, hplay, hs⟩ := Option.map_eq_some_iff.mp
    (show (Machine.play (State.step .default) (WithinTtl .default) (start (0 : ℚ))
        Sample.reload).map (fun s => (s.openUsers, decide (1 ∈ s.room.participantsAt s.clock))) =
      some ([1, 2, 3, 4, 5], false) by decide +kernel)
  obtain ⟨husers, hout⟩ := Prod.mk.inj hs
  refine ⟨s, Machine.Run.of_play hplay, ?_, of_decide_eq_false hout, ?_⟩
  · rw [husers]
    decide
  · rw [husers]
    decide

/-- The first connection leaves before the second is opened: both users are participants. -/
theorem open_users_participate_sample : ∃ s : State ℚ, s.openUsers = [1, 2] ∧
    (∀ u ∈ s.openUsers, u ∈ s.room.participantsAt s.clock) ∧
    s.openUsers.length ≤ MeetingSettings.default.meetingMaxParticipants := by
  obtain ⟨s, hplay, hs⟩ := Option.map_eq_some_iff.mp
    (show (Machine.play (State.step .default)
        (fun s a => WithinTtl .default s a ∧ Alone s a) (start (0 : ℚ))
        (Sample.join 0 Sample.ada ++ [.receive 0 .disconnect, .advance 0 0] ++
          Sample.join 1 Sample.ada ++ [.tick 30, .receive 1 .heartbeat, .advance 1 30] ++
          Sample.join 2 Sample.ben)).map State.openUsers = some [1, 2] by decide +kernel)
  exact ⟨s, hs, open_users_participate (Machine.Run.of_play hplay)⟩

end Connections

end ForkRoom
