/-
# `Proof.PasswordReset` — a reset makes the tokens before it worthless

A reset writes one more than the version it has read.  When another reset of the
user commits in between, that version has been written before: a token signed from
the newer row has it too, and stays good.

As long as no reset is overtaken in this way, the version read is still the stored
one when a reset commits.  Every token of the user, and every row read by a login or
a refresh under way, is at that version or below, so the commit leaves them behind
(`Versions.step`).
-/
import ForkRoom.Proof.Refresh
import ForkRoom.Service.Accounts
import ForkRoom.System.PasswordReset

namespace ForkRoom

namespace PasswordReset

/-- How the version that a request has read stands to that of the stored row. -/
def Request.Standing (stored : Account) : Request → Prop
  | .reset user _ false => user.authVersion = stored.authVersion
  | .reset user _ true => user.authVersion < stored.authVersion
  | .login user | .refresh _ user => user.authVersion ≤ stored.authVersion

theorem Request.Standing.le {request : Request} {stored : Account} (h : request.Standing stored) :
    request.user.authVersion ≤ stored.authVersion := by
  cases request with
  | reset user passwordHash overtaken =>
      cases overtaken with
      | false => exact Nat.le_of_eq h
      | true => exact Nat.le_of_lt h
  | login | refresh => exact h

theorem Request.standing_self {request : Request} (h : request.overtaken = false) :
    request.Standing request.user := by
  cases request with
  | reset user passwordHash overtaken =>
      cases overtaken with
      | false => rfl
      | true => cases h
  | login | refresh => exact Nat.le_refl _

@[simp] theorem Request.overtake_user (userId : UUID) (request : Request) :
    (request.overtake userId).user = request.user := by
  cases request <;> rfl

/-- The version is raised by a reset of the user. -/
theorem Request.Standing.overtake {request : Request} {stored stored' : Account}
    (h : request.Standing stored) (hlt : stored.authVersion < stored'.authVersion) :
    (request.overtake request.user.id).Standing stored' := by
  have hle := Nat.lt_of_le_of_lt h.le hlt
  cases request with
  | reset user passwordHash overtaken =>
      rw [Request.overtake, Request.user, decide_eq_true rfl, Bool.or_true]
      exact hle
  | login | refresh => exact Nat.le_of_lt hle

theorem Request.overtake_of_ne {userId : UUID} {request : Request} (h : request.user.id ≠ userId) :
    request.overtake userId = request := by
  cases request with
  | reset user passwordHash overtaken =>
      have hne : decide (user.id = userId) = false := decide_eq_false h
      rw [Request.overtake, hne, Bool.or_false]
  | login | refresh => rfl

/-- No version is ahead of the stored one, and the outdated tokens are behind it. -/
structure Versions {T : Type} (s : State T) : Prop where
  ids : (s.sessions.accounts.map Account.id).Nodup
  standing : ∀ request ∈ s.requests, ∀ stored,
    Rows.find request.user.id s.sessions.accounts = some stored → request.Standing stored
  signed : ∀ token ∈ s.sessions.signed, ∀ stored,
    Rows.find token.sub s.sessions.accounts = some stored → token.ver ≤ stored.authVersion
  below : ∀ token ∈ s.outdated, ∀ stored,
    Rows.find token.sub s.sessions.accounts = some stored → token.ver < stored.authVersion

theorem versions_start {T : Type} {clock : T} {accounts : List Account}
    (hids : (accounts.map Account.id).Nodup) : Versions (start clock accounts) where
  ids := hids
  standing _ h := nomatch h
  signed _ h := nomatch h
  below _ h := nomatch h

/-- **The commit of a reset that is not overtaken leaves every token behind.** -/
theorem Versions.commit {T : Type} {s s' : State T} {i : Nat} {user : Account}
    {passwordHash : String} (h : Versions s)
    (hrequest : s.requests[i]? = some (.reset user passwordHash false))
    (hupdate : UserRepository.updatePassword user passwordHash s.sessions.accounts =
      some s'.sessions.accounts)
    (hsigned : s'.sessions.signed = s.sessions.signed)
    (hout : s'.outdated = s.outdated ++ s.sessions.signed.filter fun token => token.sub = user.id)
    (hrequests : s'.requests = (s.requests.eraseIdx i).map (Request.overtake user.id)) :
    Versions s' := by
  have hids : s'.sessions.accounts.map Account.id = s.sessions.accounts.map Account.id := by
    rw [UserRepository.updatePassword_some hupdate]
    refine Rows.map_modify Account.id ?_ _
    intro stored
    rfl
  have hmem := List.mem_of_getElem? hrequest
  -- a row of the new state was there before, and has moved on if it is the user's
  have hback : ∀ id stored', Rows.find id s'.sessions.accounts = some stored' →
      ∃ stored, Rows.find id s.sessions.accounts = some stored ∧
        stored.authVersion ≤ stored'.authVersion ∧
        (id = user.id → stored.authVersion < stored'.authVersion) := by
    intro id stored' hfind
    by_cases hid : id = user.id
    · subst hid
      obtain ⟨hmem', hkey'⟩ := Rows.find_some hfind
      have hkey : user.id ∈ s.sessions.accounts.map Account.id := by
        rw [← hids]
        exact List.mem_map.mpr ⟨stored', hmem', hkey'⟩
      obtain ⟨stored, hmem₀, hkey₀⟩ := List.mem_map.mp hkey
      have hstored : Rows.find user.id s.sessions.accounts = some stored :=
        hkey₀ ▸ Rows.find_of_mem h.ids hmem₀
      have hsame : user.authVersion = stored.authVersion := h.standing _ hmem stored hstored
      have hnew := UserRepository.version_of_updatePassword hupdate hfind
      exact ⟨stored, hstored, by omega, fun _ => by omega⟩
    · rw [UserRepository.find_updatePassword_of_ne hupdate hid] at hfind
      exact ⟨stored', hfind, Nat.le_refl _, fun he => absurd he hid⟩
  refine ⟨hids ▸ h.ids, fun request hr stored' hfind => ?_, fun token ht stored' hfind => ?_,
    fun token ht stored' hfind => ?_⟩
  · rw [hrequests] at hr
    obtain ⟨request, hmem, rfl⟩ := List.mem_map.mp hr
    rw [Request.overtake_user] at hfind
    obtain ⟨stored, hstored, -, hlt⟩ := hback _ _ hfind
    have hstanding := h.standing request (List.mem_of_mem_eraseIdx hmem) stored hstored
    by_cases hid : request.user.id = user.id
    · rw [← hid]
      exact hstanding.overtake (hlt hid)
    · rw [UserRepository.find_updatePassword_of_ne hupdate hid, hstored] at hfind
      cases hfind
      rw [Request.overtake_of_ne hid]
      exact hstanding
  · rw [hsigned] at ht
    obtain ⟨stored, hstored, hle, -⟩ := hback _ _ hfind
    exact (h.signed token ht stored hstored).trans hle
  · rw [hout] at ht
    obtain ⟨stored, hstored, hle, hlt⟩ := hback _ _ hfind
    cases List.mem_append.mp ht with
    | inl ht => exact Nat.lt_of_lt_of_le (h.below token ht stored hstored) hle
    | inr ht =>
        obtain ⟨ht, hsub⟩ := List.mem_filter.mp ht
        exact Nat.lt_of_le_of_lt (h.signed token ht stored hstored)
          (hlt (of_decide_eq_true hsub))

theorem Versions.step {T : Type} {s s' : State T} {a : Action T} (h : Versions s)
    (hok : NotOvertaken s a) (hstep : Steps s a s') : Versions s' := by
  cases hstep with
  | read hacc hsigned hout hrequests =>
      refine ⟨hacc ▸ h.ids, fun request hr stored hfind => ?_, ?_, ?_⟩
      · rw [hacc] at hfind
        cases hrequests request hr with
        | inl hr => exact h.standing request hr stored hfind
        | inr hr =>
            have hown : Rows.find request.user.id s.sessions.accounts = some request.user :=
              Rows.find_of_mem h.ids hr.1
            rw [hown] at hfind
            cases hfind
            exact Request.standing_self hr.2
      · rw [hacc, hsigned]
        exact h.signed
      · rw [hacc, hout]
        exact h.below
  | signed hr hpair hacc hsigned hout hsub =>
      refine ⟨hacc ▸ h.ids, ?_, fun token ht stored hfind => ?_, ?_⟩
      · rw [hacc]
        exact fun request hr => h.standing request (hsub hr)
      · rw [hacc] at hfind
        rw [hsigned] at ht
        cases List.mem_append.mp ht with
        | inl ht => exact h.signed token ht stored hfind
        | inr ht =>
            obtain ⟨hid, hver⟩ := hpair token ht
            rw [hid] at hfind
            rw [hver]
            exact (h.standing _ hr stored hfind).le
      · rw [hacc, hout]
        exact h.below
  | @reset i familyId fresh user passwordHash overtaken s' hrequest hupdate hsigned
      hout hrequests =>
      cases overtaken with
      | true => simp [NotOvertaken, hrequest, Request.overtaken] at hok
      | false => exact h.commit hrequest hupdate hsigned hout hrequests

/-- A request that has just read its row. -/
theorem Steps.start {T : Type} {s : State T} {a : Action T} {request : Request} {s' : State T}
    (hacc : s'.sessions.accounts = s.sessions.accounts)
    (hsigned : s'.sessions.signed = s.sessions.signed) (hout : s'.outdated = s.outdated)
    (hrequests : s'.requests = s.requests ++ [request])
    (huser : request.user ∈ s.sessions.accounts) (hnew : request.overtaken = false) :
    Steps s a s' := by
  refine .read hacc hsigned hout fun x hx => ?_
  rw [hrequests] at hx
  rcases List.mem_append.mp hx with hx | hx
  · exact Or.inl hx
  · rw [List.mem_singleton.mp hx]
    exact Or.inr ⟨huser, hnew⟩

section
variable {T : Type} [Field T] [LinearOrder T] [FloorRing T] {credentials : Credentials}
  {settings : AuthSettings} {s s' : State T}

theorem finish_cases {i : Nat} {familyId : UUID} {fresh : FreshJtis}
    (h : finish settings s i familyId fresh = some s') :
    Steps s (.finish i familyId fresh) s' := by
  obtain ⟨request, hrequest, h⟩ := Option.bind_eq_some_iff.mp h
  have hmem := List.mem_of_getElem? hrequest
  have hpair : ∀ (user : Account) (family : UUID) (token : Token), token ∈
      [(createTokenPair settings s.sessions.clock user.id family
        user.authVersion fresh).accessToken,
        (createTokenPair settings s.sessions.clock user.id family user.authVersion
          fresh).refreshToken] → token.sub = user.id ∧ token.ver = user.authVersion := by
    intro user family token ht
    simp only [List.mem_cons, List.not_mem_nil, or_false] at ht
    rcases ht with rfl | rfl <;> exact ⟨rfl, rfl⟩
  cases request with
  | reset user passwordHash overtaken =>
      cases hupdate : UserRepository.updatePassword user passwordHash s.sessions.accounts with
      | none =>
          simp only [hupdate] at h
          cases h
          exact .read rfl rfl rfl fun request hr => Or.inl (List.mem_of_mem_eraseIdx hr)
      | some accounts =>
          simp only [hupdate] at h
          cases h
          exact .reset hrequest hupdate rfl rfl rfl
  | login user =>
      obtain ⟨-, h⟩ := Machine.guard_bind h
      cases h
      exact .signed hmem (hpair user _) rfl rfl rfl fun _ => List.mem_of_mem_eraseIdx
  | refresh token user =>
      obtain ⟨-, h⟩ := Machine.guard_bind h
      cases h
      exact .signed hmem (hpair user _) rfl rfl rfl fun _ => List.mem_of_mem_eraseIdx

theorem State.step_cases {a : Action T} (h : s.step credentials settings a = some s') :
    Steps s a s' := by
  cases a with
  | finish i familyId fresh => exact finish_cases h
  | tick clock =>
      simp only [State.step] at h
      split at h
      · cases h
        exact .read rfl rfl rfl fun _ => Or.inl
      · cases h
  | resetPassword userId passwordHash =>
      simp only [State.step] at h
      split at h
      · rename_i user huser
        cases h
        obtain ⟨hfind, -⟩ := Option.filter_eq_some_iff.mp huser
        exact .start rfl rfl rfl rfl (Rows.find_some hfind).1 rfl
      · cases h
        exact .read rfl rfl rfl fun _ => Or.inl
  | login payload =>
      simp only [State.step] at h
      split at h
      · rename_i user huser
        cases h
        exact .start rfl rfl rfl rfl (AuthService.authenticate_ok huser).1 rfl
      · cases h
        exact .read rfl rfl rfl fun _ => Or.inl
  | refresh token =>
      simp only [State.step] at h
      split at h
      · rename_i user huser
        cases h
        exact .start rfl rfl rfl rfl (refreshUser_mem huser) rfl
      · cases h
        exact .read rfl rfl rfl fun _ => Or.inl

/-- A token below the version of its account is good for nothing. -/
theorem refused_of_below {sessions : Sessions T} {token : Token}
    (h : ∀ user, Rows.find token.sub sessions.accounts = some user → token.ver < user.authVersion) :
    (∀ fresh pair, (sessions.refreshed settings token fresh).1 ≠ .ok pair) ∧
    ∀ user, getCurrentUser sessions.signed sessions.accounts sessions.clock (some token)
      sessions.refreshTokens ≠ .ok user := by
  constructor
  · intro fresh pair hok
    cases hd : decodeToken sessions.signed sessions.clock .refresh token with
    | error e =>
        rw [Sessions.refreshed_invalid hd] at hok
        cases hok
    | ok decoded =>
        obtain ⟨rfl, -⟩ := decodeToken_ok hd
        cases hanswer : sessions.refreshed settings decoded fresh with
        | mk result refreshTokens =>
        rw [hanswer] at hok
        obtain ⟨user, hcases, rfl⟩ := Sessions.refreshed_cases hd hanswer
        cases hcases with
        | revoked | refused => cases hok
        | exchanged _ _ hfind _ hver => exact absurd hver (h _ hfind).ne
  · intro user hok
    obtain ⟨token', htoken, -, -, -, -, hfind, hver⟩ := getCurrentUser_ok hok
    cases htoken
    exact absurd hver (h user hfind).ne

end

/-- After a reset, in a run in which none is overtaken: every token signed before is
below the version of the account and is refused.  A reset that is overtaken raises no
version, so that a token of the stored one is not below. -/
theorem reset_invalidates {T : Type} [Field T] [LinearOrder T] [FloorRing T]
    {credentials : Credentials} {settings : AuthSettings} {clock : T} {accounts : List Account}
    {s : State T} (hids : (accounts.map Account.id).Nodup)
    (hrun : Machine.Run (State.step credentials settings) NotOvertaken (start clock accounts) s) :
    (∀ token ∈ s.outdated,
      (∀ user, Rows.find token.sub s.sessions.accounts = some user →
        token.ver < user.authVersion) ∧
      (∀ fresh pair, (s.sessions.refreshed settings token fresh).1 ≠ .ok pair) ∧
      ∀ user, getCurrentUser s.sessions.signed s.sessions.accounts s.sessions.clock
        (some token) s.sessions.refreshTokens ≠ .ok user) ∧
    ∀ s' i familyId fresh, s.step credentials settings (.finish i familyId fresh) = some s' →
      ¬ NotOvertaken s (.finish i familyId fresh) → ∀ userId user user',
      Rows.find userId s.sessions.accounts = some user →
      Rows.find userId s'.sessions.accounts = some user' →
        user'.authVersion ≤ user.authVersion := by
  have hinv : Versions s :=
    hrun.invariant (fun s a s' h hok hs => h.step hok (State.step_cases hs)) (versions_start hids)
  refine ⟨fun token ht => ⟨hinv.below token ht, refused_of_below (hinv.below token ht)⟩, ?_⟩
  intro s' i familyId fresh hstep hnot userId user user' hfind hfind'
  cases State.step_cases hstep with
  | read hacc | signed _ _ hacc =>
      rw [hacc, hfind] at hfind'
      cases hfind'
      exact Nat.le_refl _
  | @reset _ _ _ loaded _ overtaken _ hrequest hupdate =>
      have hover : overtaken = true := by
        cases overtaken with
        | true => rfl
        | false => simp [NotOvertaken, hrequest, Request.overtaken] at hnot
      subst hover
      by_cases hid : userId = loaded.id
      · subst hid
        have hlt : loaded.authVersion < user.authVersion :=
          hinv.standing _ (List.mem_of_getElem? hrequest) user hfind
        rw [UserRepository.version_of_updatePassword hupdate hfind']
        exact hlt
      · rw [UserRepository.find_updatePassword_of_ne hupdate hid, hfind] at hfind'
        cases hfind'
        exact Nat.le_refl _

/-! ## A sample -/

open Sessions.Sample (credentials settings ada)

def Sample.login : Action ℚ := .login ⟨"ada@forkroom.test", "granite-quarry"⟩

/-- Two resets have read the row; one commits, a login follows, the other commits. -/
def Sample.overlapping : List (Action ℚ) :=
  [.resetPassword 1 "salt$granite-quarry", .resetPassword 1 "salt$basalt-quarry",
    .finish 0 50 ⟨60, 61⟩, Sample.login, .finish 1 50 ⟨60, 61⟩, .finish 0 51 ⟨62, 63⟩]

/-- The access token of the login. -/
def Sample.token : Token := ⟨1, .access, 60, 50, 1, 0, 900⟩

/-- The token was signed before the second reset committed, and is still accepted. -/
theorem reset_overtaken : ∃ s : State ℚ,
    Machine.Run (State.step credentials settings) (fun _ _ => True) (start 0 [ada]) s ∧
    Sample.token ∈ s.outdated ∧
    ∃ user, getCurrentUser s.sessions.signed s.sessions.accounts s.sessions.clock
      (some Sample.token) s.sessions.refreshTokens = .ok user := by
  obtain ⟨s, hplay, hs⟩ := Option.map_eq_some_iff.mp
    (show (Machine.play (State.step credentials settings) (fun _ _ => True) (start (0 : ℚ) [ada])
        Sample.overlapping).map (fun s => (decide (Sample.token ∈ s.outdated),
          (getCurrentUser s.sessions.signed s.sessions.accounts s.sessions.clock
            (some Sample.token) s.sessions.refreshTokens).isOk)) = some (true, true) by
      decide +kernel)
  obtain ⟨hout, hok⟩ := Prod.mk.inj hs
  refine ⟨s, Machine.Run.of_play hplay, of_decide_eq_true hout, ?_⟩
  revert hok
  cases getCurrentUser s.sessions.signed s.sessions.accounts s.sessions.clock
      (some Sample.token) s.sessions.refreshTokens with
  | error e => intro hok; cases hok
  | ok user => exact fun _ => ⟨user, rfl⟩

/-- One reset, a login, and another reset, one after the other: the token is refused. -/
theorem reset_invalidates_sample : ∃ s : State ℚ, Sample.token ∈ s.outdated ∧
    ∀ user, getCurrentUser s.sessions.signed s.sessions.accounts s.sessions.clock
      (some Sample.token) s.sessions.refreshTokens ≠ .ok user := by
  obtain ⟨s, hplay, hs⟩ := Option.map_eq_some_iff.mp
    (show (Machine.play (State.step credentials settings) NotOvertaken (start (0 : ℚ) [ada])
        [.resetPassword 1 "salt$granite-quarry", .finish 0 50 ⟨60, 61⟩, Sample.login,
          .finish 0 50 ⟨60, 61⟩, .resetPassword 1 "salt$basalt-quarry",
          .finish 0 51 ⟨62, 63⟩]).map (fun s => decide (Sample.token ∈ s.outdated)) =
      some true by decide +kernel)
  have hout := of_decide_eq_true hs
  have h := reset_invalidates (by decide) (Machine.Run.of_play hplay)
  exact ⟨s, hout, (h.1 Sample.token hout).2.2⟩

end PasswordReset

end ForkRoom
