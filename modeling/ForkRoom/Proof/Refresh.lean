/-
# `Proof.Refresh` — refresh tokens are used once, revoked families stay revoked

A token that was exchanged at `t` is marked as used for `max(1, int(exp - t))`
seconds.  Cutting off the fraction lets the mark run out before the token does:
in what is left of the last second the token is taken for unused.  As long as no
token comes back in that rest of its life, each is exchanged once, and whoever
presents it again has its family revoked (`refresh_single_use`).

The revocation marker of a family lasts as long as a refresh token, counted from
the revocation, and no token of the family is signed after it; so every token of
the family runs out before its marker does (`revoked_family_stays`).
-/
import ForkRoom.System.Sessions
import Mathlib.Data.Rat.Floor
import Mathlib.Tactic.GCongr
import Mathlib.Tactic.LinearCombination
import Mathlib.Tactic.Linarith

namespace ForkRoom

namespace Sessions

open RefreshTokenRepository

theorem jtis_sign {T : Type} {s : Sessions T} {fresh : FreshJtis} {pair : TokenPair}
    (h : (s.signed.map Token.jti).Nodup)
    (hfresh : s.Unused fresh) (ha : pair.accessToken.jti = fresh.access)
    (hr : pair.refreshToken.jti = fresh.refresh) :
    ((s.sign pair).signed.map Token.jti).Nodup := by
  obtain ⟨hne, hacc, hrefr⟩ := hfresh
  rw [sign, List.map_append, List.map_cons, List.map_cons, List.map_nil, ha, hr]
  refine List.Nodup.append h (by simpa using hne) ?_
  intro j hj hm
  rcases List.mem_cons.mp hm with rfl | hm
  · exact hacc hj
  · exact hrefr (List.mem_singleton.mp hm ▸ hj)

section
variable {T : Type} [Field T] [LinearOrder T] [FloorRing T]

/-! ## The last fraction of a second -/

/-- A token that was exchanged at `t`, with a second or more to go, is presented at
`now` in the fraction of a second that was left over then. -/
def Lapsed (t : T) (exp : Int) (now : T) : Prop :=
  1 ≤ exp - t ∧ exp - Int.fract (exp - t) ≤ now ∧ now < exp

instance (t : T) (exp : Int) (now : T) : Decidable (Lapsed t exp now) :=
  inferInstanceAs (Decidable (_ ∧ _ ∧ _))

/-- Until then the mark is there. -/
theorem marked_of_not_lapsed [IsStrictOrderedRing T] {t now : T} {exp : Int}
    (hlapsed : ¬ Lapsed t exp now) (hexp : now < exp) (ht : t < exp) :
    now < t + ((max 1 (truncate ((exp : T) - t)) : Int) : T) := by
  have hpos : 0 ≤ (exp : T) - t := sub_nonneg.mpr ht.le
  rw [truncate, if_pos hpos]
  by_cases hone : 1 ≤ (exp : T) - t
  · have hnow : now < exp - Int.fract ((exp : T) - t) := by
      by_contra hle
      exact hlapsed ⟨hone, not_lt.mp hle, hexp⟩
    have hfloor : (⌊(exp : T) - t⌋ : T) ≤ ((max 1 ⌊(exp : T) - t⌋ : Int) : T) :=
      Int.cast_le.mpr (le_max_right _ _)
    have hsum := Int.floor_add_fract ((exp : T) - t)
    calc now < exp - Int.fract ((exp : T) - t) := hnow
      _ = t + ⌊(exp : T) - t⌋ := by linear_combination -hsum
      _ ≤ _ := by gcongr
  · have hmax : (1 : T) ≤ ((max 1 ⌊(exp : T) - t⌋ : Int) : T) := by
      exact_mod_cast le_max_left 1 ⌊(exp : T) - t⌋
    calc now < exp := hexp
      _ < t + 1 := by linarith [not_le.mp hone]
      _ ≤ _ := by gcongr

/-- The marker of a family is there when it has been set. -/
theorem revoked_revoke [IsStrictOrderedRing T] {settings : AuthSettings} {now : T} {family : UUID}
    {r : RefreshTokens T} :
    isFamilyRevoked now family (AuthService.revoke settings now family r) := by
  have hpos : (0 : T) < settings.refreshLifetime := by
    have h := settings.refreshTokenExpireDays_pos
    exact_mod_cast (by unfold AuthSettings.refreshLifetime; omega : 0 < settings.refreshLifetime)
  have hkey : (AuthService.revoke settings now family r).revoked family =
      .putFor now (settings.refreshLifetime : T) () := Function.update_self ..
  rw [isFamilyRevoked, hkey, Expiring.Key.present_putFor]
  exact lt_add_of_pos_right now hpos

/-! ## Single use -/

/-- No token comes back in the rest of its life that its mark leaves out, unless
its family is revoked. -/
def InTime (s : Sessions T) : Action T → Prop
  | .refresh token _ => token ∈ s.signed →
      isFamilyRevoked s.clock token.family s.refreshTokens = false →
      ∀ x ∈ s.exchanges, x.1 = token.jti → ¬ Lapsed x.2 token.exp s.clock
  | _ => True

instance (s : Sessions T) : ∀ a : Action T, Decidable (InTime s a)
  | .refresh token _ => inferInstanceAs (Decidable (token ∈ s.signed →
      isFamilyRevoked s.clock token.family s.refreshTokens = false →
      ∀ x ∈ s.exchanges, x.1 = token.jti → ¬ Lapsed x.2 token.exp s.clock))
  | .tick _ | .edit _ | .login .. | .logout _ | .currentUser _ => instDecidableTrue

/-- The token was exchanged at `t`, and is marked since. -/
structure Marked (s : Sessions T) (token : Token) (t : T) : Prop where
  signed : token ∈ s.signed
  valid : t < token.exp
  mark : s.refreshTokens.used token.jti =
    .putFor t ((max 1 (truncate ((token.exp : T) - t)) : Int) : T) ()

structure UsedOnce (s : Sessions T) : Prop where
  jtis : (s.signed.map Token.jti).Nodup
  exchanges : (s.exchanges.map Prod.fst).Nodup
  marked : ∀ x ∈ s.exchanges, ∃ token, token.jti = x.1 ∧ Marked s token x.2

section
variable {settings : AuthSettings} {s s' : Sessions T} {token : Token}

/-- An exchanged token that comes back in time is found to be used. -/
theorem UsedOnce.consume_false [IsStrictOrderedRing T] (h : UsedOnce s) (hs : token ∈ s.signed)
    (hexp : s.clock < token.exp) (hused : token.jti ∈ s.exchanges.map Prod.fst)
    (hlapsed : ∀ x ∈ s.exchanges, x.1 = token.jti → ¬ Lapsed x.2 token.exp s.clock) :
    (consume s.clock token.jti token.exp s.refreshTokens).1 = false := by
  obtain ⟨x, hx, hxjti⟩ := List.mem_map.mp hused
  obtain ⟨token', hjti, hmark⟩ := h.marked x hx
  -- the identifiers of tokens differ
  have hsame : token' = token := List.inj_on_of_nodup_map h.jtis hmark.signed hs (hjti.trans hxjti)
  subst hsame
  have hlive : (s.refreshTokens.used token'.jti).present s.clock := by
    rw [hmark.mark, Expiring.Key.present_putFor]
    exact marked_of_not_lapsed (hlapsed x hx hxjti) hexp hmark.valid
  rw [consume_fst, hlive]
  rfl

/-- Tokens are only added and the mark is left alone. -/
theorem Marked.mono {t : T} (h : Marked s token t) (hs : token ∈ s.signed → token ∈ s'.signed)
    (hu : s'.refreshTokens.used token.jti = s.refreshTokens.used token.jti) :
    Marked s' token t :=
  ⟨hs h.signed, h.valid, hu ▸ h.mark⟩

theorem UsedOnce.step [IsStrictOrderedRing T] {a : Action T} (h : UsedOnce s) (hok : InTime s a)
    (hstep : Steps settings s a s') : UsedOnce s' := by
  cases hstep with
  | tick | edit | unchanged | loggedOut =>
      refine ⟨h.jtis, h.exchanges, fun x hx => ?_⟩
      obtain ⟨token, hjti, hmark⟩ := h.marked x hx
      exact ⟨token, hjti, hmark.mono id rfl⟩
  | loggedIn hfresh =>
      refine ⟨jtis_sign h.jtis hfresh rfl rfl, h.exchanges, ?_⟩
      intro x hx
      obtain ⟨token, hjti, hmark⟩ := h.marked x hx
      exact ⟨token, hjti, hmark.mono (List.mem_append_left _) rfl⟩
  | @refused token fresh hs htype hexp hrev =>
      refine ⟨h.jtis, h.exchanges, ?_⟩
      intro x hx
      obtain ⟨token', hjti, hmark⟩ := h.marked x hx
      refine ⟨token', hjti, hmark.mono id (used_consume_of_present fun he => ?_)⟩
      have hused : token.jti ∈ s.exchanges.map Prod.fst :=
        List.mem_map.mpr ⟨x, hx, hjti.symm.trans he⟩
      exact h.consume_false hs hexp hused (hok hs hrev)
  | @exchanged token fresh userId version hfresh hs htype hexp hrev hcon =>
      have hnew : token.jti ∉ s.exchanges.map Prod.fst := by
        intro hused
        rw [h.consume_false hs hexp hused (hok hs hrev)] at hcon
        cases hcon
      refine ⟨jtis_sign h.jtis hfresh rfl rfl, ?_, ?_⟩
      · show ((s.exchanges ++ [(token.jti, s.clock)]).map Prod.fst).Nodup
        rw [List.map_append]
        exact List.nodup_append_comm.mp (List.nodup_cons.mpr ⟨hnew, h.exchanges⟩)
      · refine Machine.forall_snoc (fun x hx => ?_) ?_
        · obtain ⟨token', hjti, hmark⟩ := h.marked x hx
          refine ⟨token', hjti, hmark.mono (List.mem_append_left _)
            (used_consume_of_present fun he => ?_)⟩
          exact absurd (List.mem_map.mpr ⟨x, hx, hjti.symm.trans he⟩) hnew
        · exact ⟨token, rfl, List.mem_append_left _ hs, hexp, used_consume_of_new hcon⟩

end

/-- In a run in which no token comes back in the rest of its life that its mark
leaves out, each is exchanged at most once, and an exchanged token that comes back
while it is valid is refused, and its family is revoked. -/
theorem refresh_single_use [IsStrictOrderedRing T] {credentials : Credentials}
    {settings : AuthSettings} {clock : T} {s : Sessions T}
    (hrun : Machine.Run (step credentials settings) InTime (start clock) s) :
    (s.exchanges.map Prod.fst).Nodup ∧
    ∀ token fresh, token.jti ∈ s.exchanges.map Prod.fst → InTime s (.refresh token fresh) →
      decodeToken s.signed s.clock .refresh token = .ok token →
      (s.refreshed settings token fresh).1 = .error .invalidToken ∧
      isFamilyRevoked s.clock token.family (s.refreshed settings token fresh).2 := by
  have hinv : UsedOnce s := by
    refine hrun.invariant (fun s a s' h hok hs => h.step hok (step_cases hs)) ?_
    exact ⟨List.nodup_nil, List.nodup_nil, fun x hx => nomatch hx⟩
  refine ⟨hinv.exchanges, fun token fresh hused hok hdecode => ?_⟩
  obtain ⟨-, hs, hexp, -⟩ := decodeToken_ok hdecode
  cases hanswer : s.refreshed settings token fresh with
  | mk result refreshTokens =>
  obtain ⟨user, hcases, rfl⟩ := refreshed_cases hdecode hanswer
  cases hcases with
  | revoked hrev => exact ⟨rfl, hrev⟩
  | refused hrev he =>
      rw [he (hinv.consume_false hs hexp hused (hok hs hrev))]
      exact ⟨rfl, revoked_revoke⟩
  | exchanged hrev hcon _ _ _ =>
      rw [hinv.consume_false hs hexp hused (hok hs hrev)] at hcon
      cases hcon

/-! ### A sample -/

/-- Hashes that show the password. -/
def Sample.credentials : Credentials where
  lower s := String.ofList (s.toList.map Char.toLower)
  hashPassword password salt := salt ++ "$" ++ password
  verifyPassword password hash := (hash.toList.dropWhile (· ≠ '$')).drop 1 = password.toList

def Sample.settings : AuthSettings := .default

def Sample.ada : Account :=
  ⟨1, "ada@forkroom.test", "salt$marble-quarry", "Ada", none, true, true, 0⟩

def Sample.login : AuthService.LoginRequest := ⟨"ada@forkroom.test", "marble-quarry"⟩

/-- The refresh token of a login at 0.7 seconds: it runs out at 604800. -/
def Sample.token : Token := ⟨1, .refresh, 61, 50, 0, 0, 604800⟩

def Sample.signIn : List (Action ℚ) :=
  [.edit [ada], .tick (7 / 10), .login login 50 ⟨60, 61⟩]

/-- Exchanged six seconds before it runs out, the token is marked for five; half a
second before it runs out, it is exchanged again. -/
theorem refresh_not_single_use : ∃ s : Sessions ℚ,
    Machine.Run (step Sample.credentials Sample.settings) (fun _ _ => True) (start 0) s ∧
    ¬ (s.exchanges.map Prod.fst).Nodup := by
  obtain ⟨s, hplay, hs⟩ := Option.map_eq_some_iff.mp
    (show (Machine.play (step Sample.credentials Sample.settings) (fun _ _ => True)
        (start (0 : ℚ)) (Sample.signIn ++ [.tick (6047943 / 10), .refresh Sample.token ⟨62, 63⟩,
          .tick (6047995 / 10), .refresh Sample.token ⟨64, 65⟩])).map
          (fun s => s.exchanges.map Prod.fst) = some [61, 61] by decide +kernel)
  refine ⟨s, Machine.Run.of_play hplay, ?_⟩
  rw [hs]
  decide

/-- Presented again a second earlier, it is refused. -/
theorem refresh_single_use_sample : ∃ s : Sessions ℚ, s.exchanges.map Prod.fst = [61] ∧
    (s.refreshed Sample.settings Sample.token ⟨64, 65⟩).1 = .error .invalidToken := by
  obtain ⟨s, hplay, hs⟩ := Option.map_eq_some_iff.mp
    (show (Machine.play (step Sample.credentials Sample.settings) InTime
        (start (0 : ℚ)) (Sample.signIn ++ [.tick (6047943 / 10), .refresh Sample.token ⟨62, 63⟩,
          .tick (6047985 / 10)])).map
          (fun s : Sessions ℚ => (s.exchanges.map Prod.fst,
            decide (InTime s (.refresh Sample.token ⟨64, 65⟩)),
            decide (Sample.token ∈ s.signed ∧ s.clock < (Sample.token.exp : ℚ)))) =
        some ([61], true, true) by decide +kernel)
  obtain ⟨hused, hs⟩ := Prod.mk.inj hs
  obtain ⟨hok, hvalid⟩ := Prod.mk.inj hs
  obtain ⟨hsigned, hexp⟩ := of_decide_eq_true hvalid
  have h := (refresh_single_use (Machine.Run.of_play hplay)).2 Sample.token ⟨64, 65⟩
    (by rw [hused]; decide +kernel) (of_decide_eq_true hok)
    (decodeToken_of_valid hsigned hexp rfl)
  exact ⟨s, hused, h.1⟩

end

/-! ## Revoked families -/

section
variable {T : Type} [Field T] [LinearOrder T]

/-- No signed token outlives a refresh token signed now. -/
def Bounded (settings : AuthSettings) (s : Sessions T) : Prop :=
  ∀ token ∈ s.signed, (token.exp : T) ≤ s.clock + settings.refreshLifetime

/-- The marker of the family outlives its tokens, and no login can draw the family. -/
def Sealed (s : Sessions T) (family : UUID) : Prop :=
  ∃ t, s.refreshTokens.revoked family = some ⟨(), some t⟩ ∧
    (∀ token ∈ s.signed, token.family = family → (token.exp : T) ≤ t) ∧
    family ∈ s.signed.map Token.family

structure Revocations (settings : AuthSettings) (s : Sessions T) : Prop where
  bounded : Bounded settings s
  marked : ∀ family, (s.refreshTokens.revoked family).isSome → Sealed s family

variable {settings : AuthSettings} {s s' : Sessions T} {family : UUID}

/-- Once a family is sealed, its tokens are refused as long as they are valid. -/
theorem Sealed.revoked (h : Sealed s family) {token : Token} (hs : token ∈ s.signed)
    (hf : token.family = family) (hexp : s.clock < token.exp) :
    isFamilyRevoked s.clock family s.refreshTokens := by
  obtain ⟨t, hmarker, hbound, -⟩ := h
  rw [isFamilyRevoked, Expiring.Key.present_iff]
  refine ⟨_, hmarker, Expiring.Key.live_iff.mpr fun t' ht' => ?_⟩
  cases ht'
  exact hexp.trans_le (hbound token hs hf)

theorem Sealed.mono (h : Sealed s family)
    (hr : s'.refreshTokens.revoked family = s.refreshTokens.revoked family)
    (hsigned : ∀ token ∈ s'.signed, token.family = family → token ∈ s.signed)
    (hgrow : s.signed ⊆ s'.signed) : Sealed s' family := by
  obtain ⟨t, hmarker, hbound, hmem⟩ := h
  refine ⟨t, hr.trans hmarker, fun token hs hf => hbound token (hsigned token hs hf) hf, ?_⟩
  exact List.map_subset _ hgrow hmem

/-- A revocation seals the family. -/
theorem sealed_revoke {r : RefreshTokens T} {token : Token} (h : Bounded settings s)
    (hs : token ∈ s.signed) :
    Sealed { s with refreshTokens := AuthService.revoke settings s.clock token.family r }
      token.family :=
  ⟨s.clock + settings.refreshLifetime, Function.update_self .., fun token' hs' _ => h token' hs',
    List.mem_map_of_mem hs⟩

/-- A step that signs no token and leaves the markers of the other families alone. -/
theorem Revocations.of_revoked {r : RefreshTokens T} {token : Token} (h : Revocations settings s)
    (hs : token ∈ s.signed) (hr : r.revoked = s.refreshTokens.revoked) :
    Revocations settings
      { s with refreshTokens := AuthService.revoke settings s.clock token.family r } := by
  refine ⟨h.bounded, fun family hsome => ?_⟩
  by_cases hf : family = token.family
  · rw [hf]
    exact sealed_revoke h.bounded hs
  · have hkey : (AuthService.revoke settings s.clock token.family r).revoked family =
        s.refreshTokens.revoked family := by
      rw [← hr]
      exact Function.update_of_ne hf _ _
    exact (h.marked family (hkey ▸ hsome)).mono hkey (fun _ hm _ => hm) (List.Subset.refl _)

variable [FloorRing T]

theorem bounded_sign [IsStrictOrderedRing T] {userId familyId : UUID} {version : Nat}
    {fresh : FreshJtis}
    (hle : settings.accessLifetime ≤ settings.refreshLifetime) (h : Bounded settings s)
    (hclock : s'.clock = s.clock)
    (hsigned : s'.signed = (s.sign (createTokenPair settings s.clock userId familyId version
      fresh)).signed) : Bounded settings s' := by
  intro token hs
  rw [hclock]
  rw [hsigned, sign] at hs
  rcases List.mem_append.mp hs with hs | hs
  · exact h token hs
  · have hlife : (settings.accessLifetime : T) ≤ settings.refreshLifetime := by exact_mod_cast hle
    rcases List.mem_cons.mp hs with rfl | hs
    · exact (Int.floor_le _).trans (by gcongr)
    · rw [List.mem_singleton.mp hs]
      exact Int.floor_le _

/-- A step keeps the markers ahead of the tokens, and removes none. -/
theorem Revocations.step [IsStrictOrderedRing T] {a : Action T}
    (hle : settings.accessLifetime ≤ settings.refreshLifetime) (h : Revocations settings s)
    (hstep : Steps settings s a s') : Revocations settings s' ∧
      ∀ family, (s.refreshTokens.revoked family).isSome →
        (s'.refreshTokens.revoked family).isSome := by
  have hset : ∀ {r : RefreshTokens T} {token : Token}, r.revoked = s.refreshTokens.revoked →
      ∀ family, (s.refreshTokens.revoked family).isSome →
      ((AuthService.revoke settings s.clock token.family r).revoked family).isSome := by
    intro r token hr family hsome
    by_cases hf : family = token.family
    · rw [hf]
      exact Option.isSome_iff_exists.mpr ⟨_, Function.update_self ..⟩
    · rw [← hr] at hsome
      have hkey : (AuthService.revoke settings s.clock token.family r).revoked family =
          r.revoked family := Function.update_of_ne hf _ _
      rw [hkey]
      exact hsome
  cases hstep with
  | tick hclock =>
      refine ⟨⟨fun token hs => (h.bounded token hs).trans (by gcongr), fun f hf => ?_⟩, fun _ => id⟩
      exact (h.marked f hf).mono rfl (fun _ hm _ => hm) (List.Subset.refl _)
  | edit =>
      refine ⟨⟨h.bounded, fun f hf => ?_⟩, fun _ => id⟩
      exact (h.marked f hf).mono rfl (fun _ hm _ => hm) (List.Subset.refl _)
  | unchanged => exact ⟨h, fun _ => id⟩
  | @loggedIn payload familyId fresh userId version hfresh hfamily =>
      refine ⟨⟨bounded_sign hle h.bounded rfl rfl, fun f hf => ?_⟩, fun _ => id⟩
      have hsealed := h.marked f hf
      obtain ⟨-, -, -, hmem⟩ := id hsealed
      refine hsealed.mono rfl (fun token hs hf' => ?_) (List.subset_append_left _ _)
      -- the tokens of the login are of another family
      rcases List.mem_append.mp hs with hs | hs
      · exact hs
      · have hnew : token.family = familyId := by
          rcases List.mem_cons.mp hs with rfl | hs
          · rfl
          · rw [List.mem_singleton.mp hs]
            rfl
        exact absurd (hnew ▸ hf' ▸ hmem) hfamily
  | refused hs _ _ _ => exact ⟨h.of_revoked hs rfl, hset rfl⟩
  | @exchanged token fresh userId version _ hs _ hexp hrev _ =>
      refine ⟨⟨bounded_sign hle h.bounded rfl rfl, fun f hf => ?_⟩, fun _ => id⟩
      have hsealed := h.marked f hf
      refine hsealed.mono rfl (fun token' hs' hf' => ?_) (List.subset_append_left _ _)
      -- a sealed family exchanges no valid token
      rcases List.mem_append.mp hs' with hs' | hs'
      · exact hs'
      · have hsame : token'.family = token.family := by
          rcases List.mem_cons.mp hs' with rfl | hs'
          · rfl
          · rw [List.mem_singleton.mp hs']
            rfl
        rw [hsame.symm.trans hf', hsealed.revoked hs (hsame.symm.trans hf') hexp] at hrev
        cases hrev
  | loggedOut hs _ _ => exact ⟨h.of_revoked hs rfl, hset rfl⟩

/-- The ways a request revokes a family: a logout, or a refresh that is refused for
a token that decodes. -/
inductive Revokes (settings : AuthSettings) (s : Sessions T) : Action T → UUID → Prop
  | logout {token : Token} : decodeToken s.signed s.clock .refresh token = .ok token →
      Revokes settings s (.logout token) token.family
  | refused {token : Token} {fresh : FreshJtis} {e : AuthError} :
      decodeToken s.signed s.clock .refresh token = .ok token →
      (s.refreshed settings token fresh).1 = .error e →
      Revokes settings s (.refresh token fresh) token.family

/-- Each of them leaves a marker. -/
theorem Revokes.marker {credentials : Credentials} {a : Action T} (h : Revokes settings s a family)
    (hstep : s.step credentials settings a = some s') :
    (s'.refreshTokens.revoked family).isSome := by
  cases h with
  | @logout token hd =>
      cases hstep
      unfold AuthService.logout
      rw [hd]
      exact Option.isSome_iff_exists.mpr ⟨_, Function.update_self ..⟩
  | @refused token fresh e hd herror =>
      obtain ⟨-, hstep⟩ := Machine.guard_bind hstep
      cases hanswer : s.refreshed settings token fresh with
      | mk result refreshTokens =>
      rw [hanswer] at hstep herror
      obtain ⟨user, hcases, rfl⟩ := refreshed_cases hd hanswer
      cases hcases with
      | revoked hrev =>
          cases hstep
          obtain ⟨entry, hentry, -⟩ := Expiring.Key.present_iff.mp hrev
          exact Option.isSome_iff_exists.mpr ⟨entry, hentry⟩
      | refused =>
          cases hstep
          exact Option.isSome_iff_exists.mpr ⟨_, Function.update_self ..⟩
      | exchanged => cases herror

end

/-- Once a family has been revoked, no refresh and no request with a token of the
family succeeds any more, at any later time. -/
theorem revoked_family_stays {T : Type} [Field T] [LinearOrder T] [IsStrictOrderedRing T]
    [FloorRing T] {credentials : Credentials} {settings : AuthSettings}
    (hle : settings.accessLifetime ≤ settings.refreshLifetime) {clock : T} {s s₁ s₂ : Sessions T}
    {a : Action T} {family : UUID}
    (hrun : Machine.Run (step credentials settings) (fun _ _ => True) (start clock) s)
    (hrevokes : Revokes settings s a family) (hstep : s.step credentials settings a = some s₁)
    (hlater : Machine.Run (step credentials settings) (fun _ _ => True) s₁ s₂) {token : Token}
    (hfamily : token.family = family) :
    (∀ fresh pair, (s₂.refreshed settings token fresh).1 ≠ .ok pair) ∧
    ∀ user, getCurrentUser s₂.signed s₂.accounts s₂.clock (some token) s₂.refreshTokens ≠
      .ok user := by
  have hstart : Revocations settings s₁ := by
    refine (hrun.step trivial hstep).invariant
      (fun s a s' h _ hs => (h.step hle (step_cases hs)).1) ?_
    exact ⟨fun token hs => (nomatch hs), fun f hf => (nomatch hf)⟩
  have hend : Revocations settings s₂ ∧ (s₂.refreshTokens.revoked family).isSome := by
    refine hlater.invariant
      (I := fun s => Revocations settings s ∧ (s.refreshTokens.revoked family).isSome)
      (fun s a s' h _ hs => ?_) ⟨hstart, hrevokes.marker hstep⟩
    have hnext := h.1.step hle (step_cases hs)
    exact ⟨hnext.1, hnext.2 family h.2⟩
  have hsealed : Sealed s₂ family := hend.1.marked family hend.2
  constructor
  · intro fresh pair hok
    cases hd : decodeToken s₂.signed s₂.clock .refresh token with
    | error e =>
        rw [refreshed_invalid hd] at hok
        cases hok
    | ok decoded =>
        obtain ⟨rfl, hs, hexp, -⟩ := decodeToken_ok hd
        have hrev := hsealed.revoked hs hfamily hexp
        cases hanswer : s₂.refreshed settings decoded fresh with
        | mk result refreshTokens =>
        rw [hanswer] at hok
        obtain ⟨user, hcases, rfl⟩ := refreshed_cases hd hanswer
        cases hcases with
        | revoked | refused => cases hok
        | exchanged hnot =>
            rw [hfamily, hrev] at hnot
            cases hnot
  · intro user hok
    obtain ⟨token', htoken, hs, hexp, -, hnot, -⟩ := getCurrentUser_ok hok
    cases htoken
    rw [hfamily, hsealed.revoked hs hfamily hexp] at hnot
    cases hnot

/-- A minute after a logout the refresh token is still valid, and refused. -/
theorem revoked_family_stays_sample : ∃ s : Sessions ℚ, Sample.token ∈ s.signed ∧
    s.clock < (Sample.token.exp : ℚ) ∧
    ∀ fresh pair, (s.refreshed Sample.settings Sample.token fresh).1 ≠ .ok pair := by
  obtain ⟨s, hplay, hs⟩ := Option.map_eq_some_iff.mp
    (show (Machine.play (step Sample.credentials Sample.settings) (fun _ _ => True)
        (start (0 : ℚ)) Sample.signIn).map
          (fun s : Sessions ℚ => decide (Sample.token ∈ s.signed ∧ s.clock = 7 / 10)) =
        some true by decide +kernel)
  obtain ⟨hsigned, hclock⟩ := of_decide_eq_true hs
  have hexp : s.clock < (Sample.token.exp : ℚ) := by
    rw [hclock]
    decide +kernel
  have hlater : (60 : ℚ) < (Sample.token.exp : ℚ) := by decide +kernel
  obtain ⟨s₁, hlogout⟩ : ∃ s₁, s.step Sample.credentials Sample.settings
      (.logout Sample.token) = some s₁ := ⟨_, rfl⟩
  have htick : s₁.step Sample.credentials Sample.settings (.tick 60) =
      some { s₁ with clock := 60 } := by
    cases hlogout
    refine if_pos ?_
    show s.clock ≤ 60
    rw [hclock]
    decide +kernel
  have hrevokes : Revokes Sample.settings s (.logout Sample.token) Sample.token.family :=
    .logout (decodeToken_of_valid hsigned hexp rfl)
  have h := revoked_family_stays (by decide) (Machine.Run.of_play hplay) hrevokes hlogout
    (.step (.refl _) trivial htick) rfl
  cases hlogout
  refine ⟨_, ?_, ?_, h.1⟩
  · exact hsigned
  · exact hlater

end Sessions

end ForkRoom
