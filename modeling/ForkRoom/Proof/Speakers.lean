/-
# `Proof.Speakers` — the speaking queue

Nobody checks at the `RPUSH` that the user is in the room and not in the queue: a
second connection of the user may have pushed since the `LPOS`, and a prune or a
`leave` may have removed the user.  And the queue has no expiry before the next join,
so that it may outlive the participants.  Apart from that (`Orderly`), the queue holds
participants, each once, in the order of their last `RPUSH`.
-/
import ForkRoom.System.Connections
import Mathlib.Algebra.Field.Rat
import Mathlib.Algebra.Order.Ring.Rat

namespace ForkRoom

namespace Connections

/-! ## The order of the requests -/

/-- The number of the last request of a user, counted from the first request on. -/
def rank (u : UUID) : List UUID → Nat
  | [] => 0
  | v :: pushes => if v = u then pushes.length + 1 else rank u pushes

theorem rank_le (u : UUID) (pushes : List UUID) : rank u pushes ≤ pushes.length := by
  induction pushes with
  | nil => exact Nat.le_refl _
  | cons v pushes ih =>
      rw [rank, List.length_cons]
      split
      · exact Nat.le_refl _
      · exact Nat.le_succ_of_le ih

theorem rank_self (u : UUID) (pushes : List UUID) :
    rank u (u :: pushes) = pushes.length + 1 := if_pos rfl

theorem rank_of_ne {u v : UUID} (h : v ≠ u) (pushes : List UUID) :
    rank u (v :: pushes) = rank u pushes := if_neg h

section
variable {T : Type} [Field T] [LinearOrder T] {settings : MeetingSettings} {s s' : State T}
  {u : UUID}

open Room

/-- A user who is pushed is in the room and not in the queue, and the participants do not
run out before the queue. -/
def Orderly (s : State T) : Action T → Prop
  | .tick clock => s.room.participants.present clock ∨ s.room.speakersAt clock = []
  | .advance i _ => (s.connections[i]?).all fun c => c.phase ≠ .queueing ||
      (c.userId ∈ s.room.participantsAt s.clock ∧ c.userId ∉ s.room.speakersAt s.clock)
  | .connect _ | .receive .. | .turnAway _ | .abort _ => True

instance (s : State T) : ∀ a : Action T, Decidable (Orderly s a)
  | .tick clock => inferInstanceAs (Decidable
      (s.room.participants.present clock ∨ s.room.speakersAt clock = []))
  | .advance i _ => inferInstanceAs (Decidable
      ((s.connections[i]?).all fun c => c.phase ≠ .queueing ||
        (c.userId ∈ s.room.participantsAt s.clock ∧ c.userId ∉ s.room.speakersAt s.clock)))
  | .connect _ | .receive .. | .turnAway _ | .abort _ => instDecidableTrue

end

/-- The queue holds participants in the order of their last requests. -/
structure Queued {T : Type} [LinearOrder T] (clock : T) (room : Room T) (pushes : List UUID) :
    Prop where
  participants : ∀ u ∈ room.speakersAt clock, u ∈ room.participantsAt clock
  order : (room.speakersAt clock).Pairwise fun u v => rank u pushes < rank v pushes

/-! ## Steps -/

section
variable {T : Type} [LinearOrder T] {clock clock' : T} {room : Room T} {pushes : List UUID}

open Room

theorem Queued.tick (h : Queued clock room pushes) (hle : clock ≤ clock')
    (hok : room.participants.present clock' ∨ room.speakersAt clock' = []) :
    Queued clock' room pushes := by
  by_cases hempty : room.speakersAt clock' = []
  · refine ⟨fun u hu => ?_, ?_⟩
    · rw [hempty] at hu
      cases hu
    · rw [hempty]
      exact List.Pairwise.nil
  · have hparticipants : room.participantsAt clock' = room.participantsAt clock :=
      Expiring.Key.contents_of_present hle (hok.resolve_right hempty)
    have hspeakers : room.speakersAt clock' = room.speakersAt clock :=
      (Expiring.Key.contents_later hle hempty).1
    refine ⟨fun u hu => ?_, ?_⟩
    · rw [hspeakers] at hu
      rw [hparticipants]
      exact h.participants u hu
    · rw [hspeakers]
      exact h.order

/-- Users leave the room, and the queue with it. -/
theorem Queued.remove (h : Queued clock room pushes) (userIds : List UUID) :
    Queued clock (room.remove clock userIds) pushes := by
  refine ⟨fun u hu => ?_, ?_⟩
  · rw [speakersAt_remove, List.mem_filter, decide_eq_true_eq] at hu
    rw [participantsAt_remove, Expiring.mem_eraseAll]
    exact ⟨hu.2, h.participants u hu.1⟩
  · rw [speakersAt_remove]
    exact h.order.filter _

theorem Queued.unqueue (h : Queued clock room pushes) (v : UUID) :
    Queued clock (room.unqueue clock v) pushes := by
  refine ⟨fun u hu => ?_, ?_⟩
  · rw [speakersAt_unqueue, List.mem_filter] at hu
    exact h.participants u hu.1
  · rw [speakersAt_unqueue]
    exact h.order.filter _

/-- A participant who is not in the queue goes to its end. -/
theorem Queued.push (h : Queued clock room pushes) {v : UUID}
    (hin : v ∈ room.participantsAt clock) (hnew : v ∉ room.speakersAt clock) :
    Queued clock (room.push clock v) (v :: pushes) := by
  have hother : ∀ u ∈ room.speakersAt clock, rank u (v :: pushes) = rank u pushes := by
    intro u hu
    refine rank_of_ne ?_ pushes
    rintro rfl
    exact hnew hu
  refine ⟨fun u hu => ?_, ?_⟩
  · rw [speakersAt_push, List.mem_append, List.mem_singleton] at hu
    rcases hu with hu | rfl
    · exact h.participants u hu
    · exact hin
  · rw [speakersAt_push, List.pairwise_append]
    refine ⟨?_, List.pairwise_singleton _ _, fun u hu w hw => ?_⟩
    · refine h.order.imp_of_mem fun {a b} ha hb hlt => ?_
      rw [hother a ha, hother b hb]
      exact hlt
    · rw [List.mem_singleton.mp hw, hother u hu, rank_self]
      exact Nat.lt_succ_of_le (rank_le u pushes)

variable [Field T] [IsStrictOrderedRing T] {settings : MeetingSettings}

theorem Queued.enter (h : Queued clock room pushes) (now : T) (claims : MeetingTokenClaims) :
    Queued clock (room.enter settings clock now claims) pushes := by
  obtain ⟨p, -, hparticipants⟩ := @participantsAt_enter T _ clock now room _ settings claims _
  refine ⟨fun u hu => ?_, ?_⟩
  · rw [speakersAt_enter] at hu
    rw [hparticipants, AList.mem_insert]
    exact .inr (h.participants u hu)
  · rw [speakersAt_enter]
    exact h.order

theorem Queued.step {s s' : State T} {a : Action T} (h : Queued s.clock s.room s.pushes)
    (hok : Orderly s a) (hstep : Steps settings s a s') :
    Queued s'.clock s'.room s'.pushes := by
  cases hstep with
  | tick hle => exact h.tick hle hok
  | connected => exact h
  | moved _ _ _ => exact h
  | locked _ _ _ => exact h
  | unlocked _ _ => exact h
  | removed _ _ => exact h.remove _
  | entered _ _ _ => exact h.enter _ _
  | touched _ _ _ => exact ⟨h.participants, h.order⟩
  | @pushed i now c hi hphase =>
      have hc : c.userId ∈ s.room.participantsAt s.clock ∧
          c.userId ∉ s.room.speakersAt s.clock := by
        simpa [Orderly, hi, hphase] using hok
      exact h.push hc.1 hc.2
  | unqueued _ _ => exact h.unqueue _
  | left _ _ => exact h.remove _

/-! ## Runs -/

/-- The user does not enter the room. -/
def Outside (u : UUID) (s : State T) : Action T → Prop
  | .advance i _ => (s.connections[i]?).all fun c => c.phase ≠ .entering || c.userId ≠ u
  | .tick _ | .connect _ | .receive .. | .turnAway _ | .abort _ => True

/-- Only a join brings a user into the room. -/
theorem not_mem_step {s s' : State T} {a : Action T} {u : UUID}
    (hu : u ∉ s.room.participantsAt s.clock) (hok : Outside u s a)
    (hstep : Steps settings s a s') : u ∉ s'.room.participantsAt s'.clock := by
  have hremoved : ∀ userIds, u ∉ (s.room.remove s.clock userIds).participantsAt s.clock := by
    intro userIds hm
    rw [participantsAt_remove, Expiring.mem_eraseAll] at hm
    exact hu hm.2
  cases hstep with
  | @tick clock hle =>
      intro hm
      have hne : s.room.participantsAt clock ≠ ∅ := by
        intro hempty
        change u ∈ s.room.participantsAt clock at hm
        rw [hempty] at hm
        exact AList.notMem_empty u hm
      have hsame : s.room.participantsAt clock = s.room.participantsAt s.clock :=
        (Expiring.Key.contents_later hle hne).1
      exact hu (hsame ▸ hm)
  | connected => exact hu
  | moved _ _ _ => exact hu
  | locked _ _ _ => exact hu
  | unlocked _ _ => exact hu
  | removed _ _ => exact hremoved _
  | @entered i now c hi hphase _ =>
      have hne : c.userId ≠ u := by simpa [Outside, hi, hphase] using hok
      obtain ⟨p, -, hparticipants⟩ :=
        @participantsAt_enter T _ s.clock now s.room _ settings c.claims _
      intro hm
      change u ∈ (s.room.enter settings s.clock now c.claims).participantsAt s.clock at hm
      rw [hparticipants, AList.mem_insert] at hm
      exact hm.elim (fun he => hne he.symm) hu
  | touched _ _ _ => exact hu
  | pushed _ _ => exact hu
  | unqueued _ _ => exact hu
  | left _ _ => exact hremoved _

/-- The queue holds participants, each once, in the order of their last requests; and who is
not in the room is not in the queue until entering the room. -/
theorem speaking_queue {s : State T} {clock : T}
    (h : Machine.Run (State.step settings) Orderly (start clock) s) :
    (s.room.speakersAt s.clock).Nodup ∧
    (∀ u ∈ s.room.speakersAt s.clock, u ∈ s.room.participantsAt s.clock) ∧
    (s.room.speakersAt s.clock).Pairwise (fun u v => rank u s.pushes < rank v s.pushes) ∧
    ∀ u ∉ s.room.participantsAt s.clock, ∀ s', Machine.Run (State.step settings)
      (fun s a => Orderly s a ∧ Outside u s a) s s' → u ∉ s'.room.speakersAt s'.clock := by
  have hinv : ∀ {s₁ s₂ : State T} {ok : State T → Action T → Prop},
      (∀ s a, ok s a → Orderly s a) → Machine.Run (State.step settings) ok s₁ s₂ →
      Queued s₁.clock s₁.room s₁.pushes → Queued s₂.clock s₂.room s₂.pushes := by
    intro s₁ s₂ ok hok hrun
    exact @Machine.Run.invariant _ _ _ _ _ _ (fun s => Queued s.clock s.room s.pushes)
      (fun s a s' hq ha hs => hq.step (hok s a ha) (State.step_cases hs)) hrun
  have hqueued := hinv (fun _ _ => id) h
    ⟨fun _ hu => (nomatch hu), List.Pairwise.nil⟩
  refine ⟨?_, hqueued.participants, hqueued.order, fun u hu s' hrun hm => ?_⟩
  · refine hqueued.order.imp fun {a b} hlt he => ?_
    subst he
    exact Nat.lt_irrefl _ hlt
  · have hout := @Machine.Run.invariant _ _ _ _ _ _
      (fun s : State T => u ∉ s.room.participantsAt s.clock)
      (fun _ _ _ hn ha hs => not_mem_step hn ha.2 (State.step_cases hs)) hrun hu
    exact hout ((hinv (fun _ _ => And.left) hrun hqueued).participants u hm)

end

/-! ## Two connections of one user -/

def Sample.ada : MeetingTokenClaims := ⟨1, "Ada", "owner", true⟩

def Sample.ben : MeetingTokenClaims := ⟨2, "Ben", "member", false⟩

/-- A connection joins, up to its first event. -/
def Sample.join (i : Nat) (claims : MeetingTokenClaims) : List (Action ℚ) :=
  .connect claims :: List.replicate 7 (.advance i 0)

/-- Both connections find the user not in the queue, and both push. -/
theorem user_queued_twice : ∃ s : State ℚ,
    Machine.Run (State.step .default) (fun _ _ => True) (start 0) s ∧
    s.room.speakersAt s.clock = [1, 1] := by
  obtain ⟨s, hplay, hs⟩ := Option.map_eq_some_iff.mp
    (show (Machine.play (State.step .default) (fun _ _ => True) (start (0 : ℚ))
        (Sample.join 0 Sample.ada ++ Sample.join 1 Sample.ada ++
          [.receive 0 .speakerJoin, .receive 1 .speakerJoin, .advance 0 0, .advance 1 0,
            .advance 0 0, .advance 1 0])).map (fun s => s.room.speakersAt s.clock) =
      some [1, 1] by decide +kernel)
  exact ⟨s, Machine.Run.of_play hplay, hs⟩

/-- One after the other: two users are queued in the order of their requests. -/
theorem speaking_queue_sample : ∃ s : State ℚ, s.room.speakersAt s.clock = [2, 1] ∧
    (s.room.speakersAt s.clock).Nodup ∧
    (∀ u ∈ s.room.speakersAt s.clock, u ∈ s.room.participantsAt s.clock) ∧
    (s.room.speakersAt s.clock).Pairwise (fun u v => rank u s.pushes < rank v s.pushes) ∧
    3 ∉ s.room.speakersAt s.clock := by
  obtain ⟨s, hplay, hs⟩ := Option.map_eq_some_iff.mp
    (show (Machine.play (State.step .default) Orderly (start (0 : ℚ))
        (Sample.join 0 Sample.ada ++ Sample.join 1 Sample.ben ++
          [.receive 1 .speakerJoin, .advance 1 0, .advance 1 0, .receive 0 .speakerJoin,
            .advance 0 0, .advance 0 0])).map (fun s => (s.room.speakersAt s.clock,
              decide (3 ∈ s.room.participantsAt s.clock))) =
      some ([2, 1], false) by decide +kernel)
  obtain ⟨hqueue, hout⟩ := Prod.mk.inj hs
  obtain ⟨hnodup, hparticipants, horder, hstays⟩ := speaking_queue (Machine.Run.of_play hplay)
  exact ⟨s, hqueue, hnodup, hparticipants, horder,
    hstays 3 (of_decide_eq_false hout) s (.refl s)⟩

end Connections

end ForkRoom
