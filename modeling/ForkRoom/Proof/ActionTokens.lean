/-
# `Proof.ActionTokens` — at most one live link, redeemed at most once

A token key is written by one call only, and a script that reads it deletes it: so
every token is redeemed at most once, for the user and purpose it was drawn for.

That only the newest token of a user stands rests on the user key.  A live token
is the one the user key names, or its call has yet to write the user key
(`Latest`).  A call that writes the user key forgets the token named there; the
token is dead if it is the one the call has read and deleted, which fails when
another call has written the key in between.
-/
import ForkRoom.System.ActionTokens

namespace ForkRoom

namespace ActionTokens

/-! ## What one step can do -/

section
variable {T : Type} [LinearOrder T] [Add T] {s s' : State T}

inductive Steps (s : State T) : Action T → State T → Prop
  | tick {clock : T} : s.clock ≤ clock → Steps s (.tick clock) { s with clock := clock }
  | unchanged {a : Action T} : Steps s a s
  /-- a call begins -/
  | drawn {a : Action T} {call : Issue T} : call.digest ∉ s.calls.map Issue.digest →
      call.previousDigest = (s.users (call.purpose, call.userId)).read s.clock →
      (call.phase = .deleting ∨ (call.phase = .settingToken ∧ call.previousDigest = none)) →
      Steps s a { s with calls := s.calls ++ [call] }
  /-- the token before is deleted -/
  | deleted {i : Nat} {call : Issue T} {previousDigest : String} : s.calls[i]? = some call →
      call.phase = .deleting → call.previousDigest = some previousDigest →
      Steps s (.advance i) { s with
        tokens := Function.update s.tokens (call.purpose, previousDigest) none
        calls := s.calls.set i { call with phase := .settingToken } }
  /-- the token can be redeemed -/
  | stored {i : Nat} {call : Issue T} : s.calls[i]? = some call → call.phase = .settingToken →
      Steps s (.advance i) { s with
        tokens := Function.update s.tokens (call.purpose, call.digest)
          (.putFor s.clock call.ttlSeconds call.userId)
        calls := s.calls.set i { call with phase := .settingUser } }
  /-- the call returns -/
  | completed {i : Nat} {call : Issue T} : s.calls[i]? = some call → call.phase = .settingUser →
      Steps s (.advance i) { s with
        users := Function.update s.users (call.purpose, call.userId)
          (.putFor s.clock call.ttlSeconds call.digest)
        calls := s.calls.set i { call with phase := .returned }
        issued := s.issued ++ [call.issued] }
  /-- a token is redeemed -/
  | consumed {a : Action T} {purpose digest : String} {userId : UUID}
      {users : String × UUID → Expiring.Key T String} :
      (s.tokens (purpose, digest)).read s.clock = some userId →
      (users = s.users ∨ (s.users (purpose, userId)).read s.clock = some digest ∧
        users = Function.update s.users (purpose, userId) none) →
      Steps s a { s with
        tokens := Function.update s.tokens (purpose, digest) none
        users := users
        redeemed := s.redeemed ++ [⟨purpose, userId, digest⟩] }

theorem consume_cases {a : Action T} (purpose digest : String) :
    Steps s a (consume s purpose digest) := by
  unfold consume
  cases hread : (s.tokens (purpose, digest)).read s.clock with
  | none => exact .unchanged
  | some userId =>
      refine .consumed hread ?_
      by_cases hcurrent : (s.users (purpose, userId)).read s.clock = some digest
      · exact .inr ⟨hcurrent, if_pos hcurrent⟩
      · exact .inl (if_neg hcurrent)

theorem advance_cases {i : Nat} (h : advance s i = some s') : Steps s (.advance i) s' := by
  obtain ⟨call, hcall, h⟩ := Option.bind_eq_some_iff.mp h
  split at h
  · rename_i hphase hprevious
    cases h
    exact .deleted hcall hphase hprevious
  · rename_i hphase
    cases h
    exact .stored hcall hphase
  · rename_i hphase
    cases h
    exact .completed hcall hphase
  · cases h

theorem State.step_cases {digest : String → String} {a : Action T}
    (h : s.step digest a = some s') : Steps s a s' := by
  cases a with
  | tick clock =>
      simp only [State.step] at h
      split at h
      · rename_i hle
        cases h
        exact .tick hle
      · cases h
  | issue purpose userId ttlSeconds token =>
      obtain ⟨hfresh, h⟩ := Machine.guard_bind h
      cases h
      refine .drawn hfresh rfl ?_
      cases hread : (s.users (purpose, userId)).read s.clock with
      | none => exact .inr ⟨rfl, rfl⟩
      | some previousDigest => exact .inl rfl
  | advance i => exact advance_cases h
  | consume purpose token =>
      cases h
      exact consume_cases purpose (digest token)

/-- What has been drawn stays drawn. -/
theorem Steps.issued_subset {a : Action T} (h : Steps s a s') :
    s.calls.map Issue.issued ⊆ s'.calls.map Issue.issued := by
  have hmoved : ∀ {i : Nat} {call : Issue T} {phase : Phase}, s.calls[i]? = some call →
      s.calls.map Issue.issued ⊆
        (s.calls.set i { call with phase := phase }).map Issue.issued := by
    intro i call phase hi
    have hsame : (s.calls.set i { call with phase := phase }).map Issue.issued =
        s.calls.map Issue.issued := Machine.map_set_of_eq hi rfl
    rw [hsame]
    exact List.Subset.refl _
  cases h with
  | tick _ => exact List.Subset.refl _
  | unchanged => exact List.Subset.refl _
  | drawn _ _ _ => exact List.map_subset _ (List.subset_append_left ..)
  | deleted hi _ _ => exact hmoved hi
  | stored hi _ => exact hmoved hi
  | completed hi _ => exact hmoved hi
  | consumed _ _ => exact List.Subset.refl _

omit [Add T] in
theorem mem_issued_of_issue {purpose digest : String} {userId : UUID} {ttlSeconds : T}
    (h : issue s purpose userId ttlSeconds digest = some s') :
    ⟨purpose, userId, digest⟩ ∈ s'.calls.map Issue.issued := by
  obtain ⟨-, h⟩ := Machine.guard_bind h
  cases h
  exact List.mem_map_of_mem (List.mem_append_right _ List.mem_cons_self)

end

/-! ## Redeemed once -/

section
variable {T : Type} {s s' : State T}

/-- The token key of `x` has been written by its call. -/
def Written (s : State T) (x : Issued) : Prop :=
  ∃ call ∈ s.calls, call.phase.written ∧ call.issued = x

theorem Written.snoc {x : Issued} {call : Issue T} (h : Written s x)
    (hcalls : s'.calls = s.calls ++ [call]) : Written s' x := by
  obtain ⟨call', hm, h⟩ := h
  exact ⟨call', hcalls ▸ List.mem_append_left _ hm, h⟩

theorem Written.same {x : Issued} (h : Written s x) (hcalls : s'.calls = s.calls) :
    Written s' x := by
  obtain ⟨call', hm, h⟩ := h
  exact ⟨call', hcalls ▸ hm, h⟩

/-- A call goes on; what it has written stays written. -/
theorem Written.moved {x : Issued} {i : Nat} {call : Issue T} {phase : Phase} (h : Written s x)
    (hi : s.calls[i]? = some call) (hphase : call.phase.written → phase.written)
    (hcalls : s'.calls = s.calls.set i { call with phase := phase }) : Written s' x := by
  obtain ⟨call', hm, hw, hx⟩ := h
  rcases Machine.mem_set_or hi { call with phase := phase } hm with rfl | hm
  · refine ⟨{ call' with phase := phase }, ?_, hphase hw, hx⟩
    rw [hcalls]
    exact Machine.mem_set_self hi
  · exact ⟨call', hcalls ▸ hm, hw, hx⟩

structure Traced (s : State T) : Prop where
  digests : (s.calls.map Issue.digest).Nodup
  tokens : ∀ p d e, s.tokens (p, d) = some e → Written s ⟨p, e.value, d⟩
  redeemed : ∀ x ∈ s.redeemed, s.tokens (x.purpose, x.digest) = none ∧ Written s x
  once : (s.redeemed.map fun x => (x.purpose, x.digest)).Nodup

/-- The calls that have written and those that have not have different digests. -/
theorem Traced.not_written (h : Traced s) {call : Issue T} {x : Issued} (hm : call ∈ s.calls)
    (hphase : call.phase.written = false) (hx : Written s x) : x.digest ≠ call.digest := by
  obtain ⟨call', hm', hw, rfl⟩ := hx
  intro hd
  rw [List.inj_on_of_nodup_map h.digests hm' hm hd, hphase] at hw
  cases hw

theorem Traced.digests_moved (h : Traced s) {i : Nat} {call : Issue T} {phase : Phase}
    (hi : s.calls[i]? = some call) :
    ((s.calls.set i { call with phase := phase }).map Issue.digest).Nodup := by
  have hsame : (s.calls.set i { call with phase := phase }).map Issue.digest =
      s.calls.map Issue.digest := Machine.map_set_of_eq hi rfl
  rw [hsame]
  exact h.digests

theorem Traced.init {clock : T} : Traced (start clock) :=
  ⟨List.nodup_nil, fun _ _ _ h => (nomatch h), fun _ h => (nomatch h), List.nodup_nil⟩

theorem Traced.step [LinearOrder T] [Add T] {a : Action T} (h : Traced s)
    (hstep : Steps s a s') : Traced s' := by
  cases hstep with
  | tick hle =>
      refine ⟨h.digests, fun p d e he => (h.tokens p d e he).same rfl, fun x hx => ?_, h.once⟩
      exact ⟨(h.redeemed x hx).1, (h.redeemed x hx).2.same rfl⟩
  | unchanged => exact h
  | @drawn a call hfresh _ _ =>
      refine ⟨?_, fun p d e he => (h.tokens p d e he).snoc rfl, fun x hx => ?_, h.once⟩
      · show ((s.calls ++ [call]).map Issue.digest).Nodup
        rw [List.map_append]
        exact List.nodup_append_comm.mp (List.nodup_cons.mpr ⟨hfresh, h.digests⟩)
      · exact ⟨(h.redeemed x hx).1, (h.redeemed x hx).2.snoc rfl⟩
  | @deleted i call previousDigest hi hphase hprevious =>
      have hlater : call.phase.written → Phase.settingToken.written := by
        rw [hphase]
        exact id
      refine ⟨h.digests_moved hi, fun p d e he => ?_, fun x hx => ⟨?_, ?_⟩, h.once⟩
      · exact (h.tokens p d e (Expiring.update_none_some he).2).moved hi hlater rfl
      · exact Expiring.update_none_none (h.redeemed x hx).1
      · exact (h.redeemed x hx).2.moved hi hlater rfl
  | @stored i call hi hphase =>
      have hlater : call.phase.written → Phase.settingUser.written := fun _ => rfl
      refine ⟨h.digests_moved hi, fun p d e he => ?_, fun x hx => ⟨?_, ?_⟩, h.once⟩
      · rcases Expiring.update_some_some he with ⟨hk, rfl⟩ | ⟨-, he⟩
        · cases hk
          exact ⟨{ call with phase := .settingUser }, Machine.mem_set_self hi, rfl, rfl⟩
        · exact (h.tokens p d e he).moved hi hlater rfl
      · -- what was redeemed was written, and this call has not written yet
        have hne := h.not_written (List.mem_of_getElem? hi) (by rw [hphase]; rfl)
          (h.redeemed x hx).2
        exact (Function.update_of_ne (fun hk => hne (Prod.mk.inj hk).2) _ _).trans
          (h.redeemed x hx).1
      · exact (h.redeemed x hx).2.moved hi hlater rfl
  | @completed i call hi hphase =>
      have hlater : call.phase.written → Phase.returned.written := fun _ => rfl
      refine ⟨h.digests_moved hi, fun p d e he => (h.tokens p d e he).moved hi hlater rfl,
        fun x hx => ⟨(h.redeemed x hx).1, ?_⟩, h.once⟩
      exact (h.redeemed x hx).2.moved hi hlater rfl
  | @consumed a purpose digest userId users hread _ =>
      obtain ⟨entry, hentry, -, rfl⟩ := Expiring.Key.read_eq_some.mp hread
      have hnew : (purpose, digest) ∉ s.redeemed.map fun x => (x.purpose, x.digest) := by
        intro hm
        obtain ⟨x, hx, hk⟩ := List.mem_map.mp hm
        have hnone := (h.redeemed x hx).1
        rw [hk, hentry] at hnone
        cases hnone
      refine ⟨h.digests, fun p d e he => ?_, ?_, ?_⟩
      · exact (h.tokens p d e (Expiring.update_none_some he).2).same rfl
      · refine Machine.forall_snoc (fun x hx => ⟨?_, ?_⟩) ⟨Function.update_self .., ?_⟩
        · exact Expiring.update_none_none (h.redeemed x hx).1
        · exact (h.redeemed x hx).2.same rfl
        · exact (h.tokens purpose digest entry hentry).same rfl
      · show ((s.redeemed ++ [_]).map _).Nodup
        rw [List.map_append]
        exact List.nodup_append_comm.mp (List.nodup_cons.mpr ⟨hnew, h.once⟩)

/-! ## Only the newest stands -/

/-- `x` is a token of that purpose and user. -/
def Issued.for (purpose : String) (userId : UUID) (x : Issued) : Bool :=
  x.purpose = purpose && x.userId = userId

theorem Issued.for_iff {purpose : String} {userId : UUID} {x : Issued} :
    x.for purpose userId ↔ x.purpose = purpose ∧ x.userId = userId := by
  simp [Issued.for]

/-- The newest token after one more is issued. -/
theorem getLast?_issued_snoc (issued : List Issued) (x : Issued) (purpose : String)
    (userId : UUID) :
    ((issued ++ [x]).filter (Issued.for purpose userId)).getLast? =
      if x.for purpose userId then some x
      else (issued.filter (Issued.for purpose userId)).getLast? := by
  rw [List.filter_append, List.getLast?_append]
  cases hx : x.for purpose userId with
  | true => simp [hx]
  | false => simp [hx]

structure Latest [LinearOrder T] [Add T] (s : State T) : Prop where
  /-- a live token is named by its user key, or its call is about to name it -/
  current : ∀ p d e, s.tokens (p, d) = some e → e.live s.clock →
    (∃ call ∈ s.calls, call.phase = .settingUser ∧ call.issued = ⟨p, e.value, d⟩) ∨
    ∃ e', s.users (p, e.value) = some e' ∧ e'.value = d ∧ ∀ now, e.live now → e'.live now
  /-- the user key will outlive the token -/
  pending : ∀ call ∈ s.calls, call.phase = .settingUser →
    ∀ e, s.tokens (call.purpose, call.digest) = some e →
    ∀ now, e.live now → now < s.clock + call.ttlSeconds
  last : ∀ p u e, s.users (p, u) = some e →
    (s.issued.filter (Issued.for p u)).getLast? = some ⟨p, u, e.value⟩
  returned : ∀ x ∈ s.issued, ∃ call ∈ s.calls, call.phase = .returned ∧ call.issued = x
  previous : ∀ call ∈ s.calls, ∀ d, call.previousDigest = some d →
    ⟨call.purpose, call.userId, d⟩ ∈ s.issued
  deleted : ∀ call ∈ s.calls, call.phase = .settingToken ∨ call.phase = .settingUser →
    ∀ d, call.previousDigest = some d → s.tokens (call.purpose, d) = none

/-- A call in another phase is not the one that moves. -/
theorem mem_moved {i : Nat} {call call' : Issue T} {phase : Phase} (hi : s.calls[i]? = some call)
    (hm : call' ∈ s.calls) (hne : call'.phase ≠ call.phase) :
    call' ∈ s.calls.set i { call with phase := phase } :=
  Machine.mem_set_of_ne hi hm fun he => hne (he ▸ rfl)

/-- The digest a call has read is not its own, nor that of a call that has yet to write. -/
theorem Latest.previous_ne [LinearOrder T] [Add T] (h : Latest s) (ht : Traced s)
    {call call' : Issue T} {d : String}
    (hm : call ∈ s.calls) (hd : call.previousDigest = some d) (hm' : call' ∈ s.calls)
    (hphase : call'.phase ≠ .returned) : d ≠ call'.digest := by
  obtain ⟨call'', hm'', hreturned, hissued⟩ := h.returned _ (h.previous call hm d hd)
  intro he
  have hdigest : call''.digest = call'.digest := (congrArg Issued.digest hissued).trans he
  rw [List.inj_on_of_nodup_map ht.digests hm'' hm' hdigest] at hreturned
  exact hphase hreturned

end

section
variable {T : Type} [LinearOrder T] [Add T] {s s' : State T}

theorem Latest.init {clock : T} : Latest (start clock) :=
  ⟨fun _ _ _ h => (nomatch h), fun _ h => (nomatch h), fun _ _ _ h => (nomatch h),
    fun _ h => (nomatch h), fun _ h => (nomatch h), fun _ h => (nomatch h)⟩

theorem Latest.stored (h : Latest s) (ht : Traced s) {i : Nat} {call : Issue T}
    (hi : s.calls[i]? = some call) (hphase : call.phase = .settingToken) :
    Latest { s with
      tokens := Function.update s.tokens (call.purpose, call.digest)
        (.putFor s.clock call.ttlSeconds call.userId)
      calls := s.calls.set i { call with phase := .settingUser } } := by
  have hm := List.mem_of_getElem? hi
  have hstays : ∀ call' ∈ s.calls, call'.phase ≠ .settingToken →
      call' ∈ s.calls.set i { call with phase := .settingUser } :=
    fun call' hm' hne => mem_moved hi hm' (hphase ▸ hne)
  -- a digest that some call has read belongs to a call that has returned
  have hkept : ∀ call' ∈ s.calls, ∀ d, call'.previousDigest = some d →
      s.tokens (call'.purpose, d) = none →
      Function.update s.tokens (call.purpose, call.digest)
        (.putFor s.clock call.ttlSeconds call.userId) (call'.purpose, d) = none := by
    intro call' hm' d hd hnone
    have hne := h.previous_ne ht hm' hd hm (by rw [hphase]; decide)
    exact (Function.update_of_ne (fun hk => hne (Prod.mk.inj hk).2) _ _).trans hnone
  refine ⟨fun p d e he hlive => ?_, ?_, h.last, fun x hx => ?_, ?_, ?_⟩
  · rcases Expiring.update_some_some he with ⟨hk, rfl⟩ | ⟨-, he⟩
    · cases hk
      exact .inl ⟨{ call with phase := .settingUser }, Machine.mem_set_self hi, rfl, rfl⟩
    · refine (h.current p d e he hlive).imp_left fun ⟨call', hm', hp, hx⟩ => ?_
      exact ⟨call', hstays call' hm' (by rw [hp]; decide), hp, hx⟩
  · refine Machine.forall_set (fun call' hm' hp e he now hlive => ?_) fun _ e he now hlive => ?_
    · rcases Expiring.update_some_some he with ⟨hk, rfl⟩ | ⟨-, he⟩
      · have hsame := List.inj_on_of_nodup_map ht.digests hm' hm (Prod.mk.inj hk).2
        rw [hsame, hphase] at hp
        cases hp
      · exact h.pending call' hm' hp e he now hlive
    · rcases Expiring.update_some_some he with ⟨-, rfl⟩ | ⟨hne, -⟩
      · exact Expiring.Key.live_iff.mp hlive _ rfl
      · exact absurd rfl hne
  · obtain ⟨call', hm', hp, hx⟩ := h.returned x hx
    exact ⟨call', hstays call' hm' (by rw [hp]; decide), hp, hx⟩
  · exact Machine.forall_set h.previous (h.previous call hm)
  · refine Machine.forall_set (fun call' hm' hp d hd => ?_) fun _ d hd => ?_
    · exact hkept call' hm' d hd (h.deleted call' hm' hp d hd)
    · exact hkept call hm d hd (h.deleted call hm (.inl hphase) d hd)

/-- When a call comes to name its token, the one named before is not live any more: the
call has read and deleted it, or it is gone. -/
theorem Latest.gone (h : Latest s) {call : Issue T} (hm : call ∈ s.calls)
    (hphase : call.phase = .settingUser) (hok : call.undisturbed s) {d : String}
    (hread : (s.users (call.purpose, call.userId)).read s.clock = some d) :
    ¬(s.tokens (call.purpose, d)).present s.clock := by
  intro hpresent
  rw [Issue.undisturbed, hread, Option.all_some, hpresent, Bool.not_true, Bool.or_false,
    decide_eq_true_eq] at hok
  rw [h.deleted call hm (.inr hphase) d hok] at hpresent
  cases hpresent

theorem Latest.completed (h : Latest s) {i : Nat} {call : Issue T}
    (hi : s.calls[i]? = some call) (hphase : call.phase = .settingUser)
    (hok : call.undisturbed s) :
    Latest { s with
      users := Function.update s.users (call.purpose, call.userId)
        (.putFor s.clock call.ttlSeconds call.digest)
      calls := s.calls.set i { call with phase := .returned }
      issued := s.issued ++ [call.issued] } := by
  have hm := List.mem_of_getElem? hi
  have hstays : ∀ call' ∈ s.calls, call' ≠ call →
      call' ∈ s.calls.set i { call with phase := .returned } :=
    fun call' hm' hne => Machine.mem_set_of_ne hi hm' hne
  refine ⟨fun p d e he hlive => ?_, ?_, fun p u e he => ?_, ?_, ?_, ?_⟩
  · rcases h.current p d e he hlive with ⟨call', hm', hp, hx⟩ | ⟨e', he', hd, hout⟩
    · by_cases hsame : call' = call
      · -- the token of this call, which the user key names from now on
        subst hsame
        obtain rfl : call'.purpose = p := congrArg Issued.purpose hx
        obtain rfl : call'.digest = d := congrArg Issued.digest hx
        have hu : e.value = call'.userId := (congrArg Issued.userId hx).symm
        refine .inr ⟨⟨call'.digest, some (s.clock + call'.ttlSeconds)⟩, ?_, rfl, fun now hnow =>
          Expiring.Key.live_iff.mpr fun t htime => ?_⟩
        swap
        · exact Option.some.inj htime ▸ h.pending call' hm hphase e he now hnow
        rw [hu]
        exact Function.update_self ..
      · exact .inl ⟨call', hstays call' hm' hsame, hp, hx⟩
    · by_cases hk : (p, e.value) = (call.purpose, call.userId)
      · have hread : (s.users (p, e.value)).read s.clock = some d :=
          Expiring.Key.read_eq_some.mpr ⟨e', he', hout _ hlive, hd⟩
        have hgone := h.gone hm hphase hok (hk ▸ hread)
        rw [← (Prod.mk.inj hk).1] at hgone
        exact absurd (Expiring.Key.present_iff.mpr ⟨e, he, hlive⟩) hgone
      · exact .inr ⟨e', (Function.update_of_ne hk _ _).trans he', hd, hout⟩
  · refine Machine.forall_set (fun call' hm' hp => h.pending call' hm' hp) fun hp => ?_
    cases hp
  · rw [getLast?_issued_snoc]
    rcases Expiring.update_some_some he with ⟨hk, rfl⟩ | ⟨hne, he⟩
    · obtain ⟨rfl, rfl⟩ := Prod.mk.inj hk
      exact if_pos (Issued.for_iff.mpr ⟨rfl, rfl⟩)
    · have hother : ¬call.issued.for p u := by
        intro hfor
        obtain ⟨hp, hu⟩ := Issued.for_iff.mp hfor
        exact hne (Prod.ext hp.symm hu.symm)
      exact (if_neg hother).trans (h.last p u e he)
  · refine Machine.forall_snoc (fun x hx => ?_)
      ⟨{ call with phase := .returned }, Machine.mem_set_self hi, rfl, rfl⟩
    obtain ⟨call', hm', hp, hx⟩ := h.returned x hx
    refine ⟨call', hstays call' hm' ?_, hp, hx⟩
    rintro rfl
    rw [hphase] at hp
    cases hp
  · refine Machine.forall_set (fun call' hm' d hd => ?_) fun d hd => ?_
    · exact List.mem_append_left _ (h.previous call' hm' d hd)
    · exact List.mem_append_left _ (h.previous call hm d hd)
  · refine Machine.forall_set h.deleted fun hp => ?_
    rcases hp with hp | hp <;> cases hp

theorem Latest.drawn (h : Latest s) {call : Issue T}
    (hread : call.previousDigest = (s.users (call.purpose, call.userId)).read s.clock)
    (hphase : call.phase = .deleting ∨
      (call.phase = .settingToken ∧ call.previousDigest = none)) :
    Latest { s with calls := s.calls ++ [call] } := by
  have hstays : ∀ call' ∈ s.calls, call' ∈ s.calls ++ [call] :=
    fun call' hm => List.mem_append_left _ hm
  have hpending : call.phase ≠ .settingUser := by
    rcases hphase with hp | ⟨hp, -⟩ <;> rw [hp] <;> decide
  refine ⟨fun p d e he hlive => ?_, ?_, h.last, fun x hx => ?_, ?_, ?_⟩
  · refine (h.current p d e he hlive).imp_left fun ⟨call', hm', hp⟩ => ?_
    exact ⟨call', hstays call' hm', hp⟩
  · exact Machine.forall_snoc h.pending fun hp => absurd hp hpending
  · obtain ⟨call', hm', hp⟩ := h.returned x hx
    exact ⟨call', hstays call' hm', hp⟩
  · refine Machine.forall_snoc h.previous fun d hd => ?_
    -- the digest it has read is that of the token issued last
    obtain ⟨e, he, -, rfl⟩ := Expiring.Key.read_eq_some.mp (hread ▸ hd)
    exact List.mem_of_mem_filter (List.mem_of_getLast? (h.last _ _ e he))
  · refine Machine.forall_snoc h.deleted fun hp d hd => ?_
    rcases hphase with hdeleting | ⟨-, hnone⟩
    · rw [hdeleting] at hp
      rcases hp with hp | hp <;> cases hp
    · rw [hnone] at hd
      cases hd

theorem Latest.deleted_step (h : Latest s) {i : Nat} {call : Issue T} {previousDigest : String}
    (hi : s.calls[i]? = some call) (hphase : call.phase = .deleting)
    (hprevious : call.previousDigest = some previousDigest) :
    Latest { s with
      tokens := Function.update s.tokens (call.purpose, previousDigest) none
      calls := s.calls.set i { call with phase := .settingToken } } := by
  have hm := List.mem_of_getElem? hi
  have hstays : ∀ call' ∈ s.calls, call'.phase ≠ .deleting →
      call' ∈ s.calls.set i { call with phase := .settingToken } :=
    fun call' hm' hne => mem_moved hi hm' (hphase ▸ hne)
  refine ⟨fun p d e he hlive => ?_, ?_, h.last, fun x hx => ?_, ?_, ?_⟩
  · refine (h.current p d e (Expiring.update_none_some he).2 hlive).imp_left
      fun ⟨call', hm', hp, hx⟩ => ?_
    exact ⟨call', hstays call' hm' (by rw [hp]; decide), hp, hx⟩
  · refine Machine.forall_set (fun call' hm' hp e he => ?_) fun hp => ?_
    · exact h.pending call' hm' hp e (Expiring.update_none_some he).2
    · cases hp
  · obtain ⟨call', hm', hp, hx⟩ := h.returned x hx
    exact ⟨call', hstays call' hm' (by rw [hp]; decide), hp, hx⟩
  · exact Machine.forall_set h.previous (h.previous call hm)
  · refine Machine.forall_set (fun call' hm' hp d hd => ?_) fun _ d hd => ?_
    · exact Expiring.update_none_none (h.deleted call' hm' hp d hd)
    · cases hprevious.symm.trans hd
      exact Function.update_self ..

theorem Latest.consumed (h : Latest s) {purpose digest : String} {userId : UUID}
    {users : String × UUID → Expiring.Key T String}
    (husers : users = s.users ∨ (s.users (purpose, userId)).read s.clock = some digest ∧
      users = Function.update s.users (purpose, userId) none) :
    Latest { s with
      tokens := Function.update s.tokens (purpose, digest) none
      users := users
      redeemed := s.redeemed ++ [⟨purpose, userId, digest⟩] } := by
  have hfewer : ∀ k e, users k = some e → s.users k = some e := by
    intro k e he
    rcases husers with rfl | ⟨-, rfl⟩
    · exact he
    · exact (Expiring.update_none_some he).2
  refine ⟨fun p d e he hlive => ?_, ?_, fun p u e he => h.last p u e (hfewer _ _ he), h.returned,
    h.previous, fun call hm hp d hd => Expiring.update_none_none (h.deleted call hm hp d hd)⟩
  · obtain ⟨hne, he⟩ := Expiring.update_none_some he
    refine (h.current p d e he hlive).imp_right fun ⟨e', he', hd, hout⟩ => ⟨e', ?_, hd, hout⟩
    rcases husers with rfl | ⟨hcurrent, rfl⟩
    · exact he'
    · -- the user key that goes names the token that is redeemed
      refine (Function.update_of_ne (fun hk => ?_) _ _).trans he'
      obtain ⟨e'', he'', -, hd''⟩ := Expiring.Key.read_eq_some.mp hcurrent
      rw [← hk, he'] at he''
      cases he''
      exact hne (Prod.ext (Prod.mk.inj hk).1 (hd.symm.trans hd''))
  · exact fun call hm hp e he => h.pending call hm hp e (Expiring.update_none_some he).2

end

section
variable {T : Type} [LinearOrder T] [AddCommGroup T] [IsOrderedAddMonoid T] {s s' : State T}

theorem Latest.tick (h : Latest s) {clock : T} (hle : s.clock ≤ clock) :
    Latest { s with clock := clock } := by
  refine ⟨fun p d e he hlive => ?_, fun call hm hp e he now hnow => ?_, h.last, h.returned,
    h.previous, h.deleted⟩
  · exact h.current p d e he (Expiring.Key.live_anti hle hlive)
  · exact (h.pending call hm hp e he now hnow).trans_le (add_le_add_left hle _)

theorem Latest.step {a : Action T} (h : Latest s) (ht : Traced s) (hok : Undisturbed s a)
    (hstep : Steps s a s') : Latest s' := by
  cases hstep with
  | tick hle => exact h.tick hle
  | unchanged => exact h
  | drawn _ hread hphase => exact h.drawn hread hphase
  | deleted hi hphase hprevious => exact h.deleted_step hi hphase hprevious
  | stored hi hphase => exact h.stored ht hi hphase
  | @completed i call hi hphase =>
      refine h.completed hi hphase ?_
      simpa [Undisturbed, hi, hphase] using hok
  | consumed _ husers => exact h.consumed husers

/-! ## Runs -/

variable {digest : String → String} {clock : T}

/-- The token issued last for a purpose and a user. -/
def State.newest (s : State T) (purpose : String) (userId : UUID) : Option Issued :=
  (s.issued.filter (Issued.for purpose userId)).getLast?

/-- Every token is redeemed once at most, for whom it was issued; and between calls only
the newest can be redeemed, if no call was overtaken while its token was live. -/
theorem one_live_token :
    (Machine.Run (State.step digest) (fun _ _ => True) (start clock) s →
      (s.redeemed.map fun x => (x.purpose, x.digest)).Nodup ∧
      ∀ x ∈ s.redeemed, ∃ call ∈ s.calls, call.issued = x) ∧
    (Machine.Run (State.step digest) Undisturbed (start clock) s →
      (∀ call ∈ s.calls, call.phase = .returned) →
      ∀ purpose d userId, Redeemable s purpose d userId →
        s.newest purpose userId = some ⟨purpose, userId, d⟩) := by
  constructor
  · intro h
    have ht : Traced s :=
      h.invariant (fun _ _ _ ht _ hstep => ht.step (State.step_cases hstep)) Traced.init
    refine ⟨ht.once, fun x hx => ?_⟩
    obtain ⟨call, hm, -, hissued⟩ := (ht.redeemed x hx).2
    exact ⟨call, hm, hissued⟩
  · intro h hreturned purpose d userId hread
    have hinv : Traced s ∧ Latest s :=
      @Machine.Run.invariant _ _ _ _ _ _ (fun s => Traced s ∧ Latest s)
        (fun _ _ _ hi hok hstep => ⟨hi.1.step (State.step_cases hstep),
          hi.2.step hi.1 hok (State.step_cases hstep)⟩) h ⟨Traced.init, Latest.init⟩
    obtain ⟨e, he, hlive, rfl⟩ := Expiring.Key.read_eq_some.mp hread
    rcases hinv.2.current purpose d e he hlive with ⟨call, hm, hp, -⟩ | ⟨e', he', rfl, -⟩
    · rw [hreturned call hm] at hp
      cases hp
    · exact hinv.2.last purpose e.value e' he'

end

/-! ## An account with one link -/

def Sample.fern : Action ℤ := .issue "password-reset" 1 1800 "fern"

def Sample.moss : Action ℤ := .issue "password-reset" 1 1800 "moss"

/-- Two calls for one account that both find no token before. -/
def Sample.overlapping : List (Action ℤ) :=
  [Sample.fern, Sample.moss, .advance 0, .advance 0, .advance 1, .advance 1]

/-- Both links can be redeemed. -/
theorem two_live_tokens : ∃ s : State ℤ,
    Machine.Run (State.step id) (fun _ _ => True) (start 0) s ∧
    (∀ call ∈ s.calls, call.phase = .returned) ∧
    Redeemable s "password-reset" "fern" 1 ∧ Redeemable s "password-reset" "moss" 1 := by
  obtain ⟨s, hplay, hs⟩ := Option.map_eq_some_iff.mp
    (show (Machine.play (State.step id) (fun _ _ => True) (start (0 : ℤ))
        Sample.overlapping).map (fun s => (s.calls.map Issue.phase,
          (s.tokens ("password-reset", "fern")).read s.clock,
          (s.tokens ("password-reset", "moss")).read s.clock)) =
      some ([.returned, .returned], some 1, some 1) by decide +kernel)
  simp only [Prod.mk.injEq] at hs
  refine ⟨s, Machine.Run.of_play hplay, fun call hm => ?_, hs.2.1, hs.2.2⟩
  have hphase := List.mem_map_of_mem (f := Issue.phase) hm
  simpa [hs.1] using hphase

/-- A link that is redeemed, and two more, one after the other. -/
theorem one_live_token_sample : ∃ s : State ℤ, s.redeemed = [⟨"password-reset", 1, "fern"⟩] ∧
    (s.redeemed.map fun x => (x.purpose, x.digest)).Nodup ∧
    (∀ x ∈ s.redeemed, ∃ call ∈ s.calls, call.issued = x) ∧
    s.newest "password-reset" 1 = some ⟨"password-reset", 1, "reed"⟩ := by
  obtain ⟨s, hplay, hs⟩ := Option.map_eq_some_iff.mp
    (show (Machine.play (State.step id) Undisturbed (start (0 : ℤ))
        [Sample.fern, .advance 0, .advance 0, .consume "password-reset" "fern", Sample.moss,
          .advance 1, .advance 1, .issue "password-reset" 1 1800 "reed", .advance 2, .advance 2,
          .advance 2]).map (fun s => (s.redeemed, s.calls.map Issue.phase,
          (s.tokens ("password-reset", "reed")).read s.clock)) =
      some ([⟨"password-reset", 1, "fern"⟩], [.returned, .returned, .returned], some 1) by
        decide +kernel)
  simp only [Prod.mk.injEq] at hs
  have hrun := Machine.Run.of_play hplay
  have hreturned : ∀ call ∈ s.calls, call.phase = .returned := by
    intro call hm
    have hphase := List.mem_map_of_mem (f := Issue.phase) hm
    simpa [hs.2.1] using hphase
  have hall := one_live_token.1 (hrun.mono fun _ _ _ => trivial)
  exact ⟨s, hs.1, hall.1, hall.2,
    one_live_token.2 hrun hreturned "password-reset" "reed" 1 hs.2.2⟩

end ActionTokens

end ForkRoom
