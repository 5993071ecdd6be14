/-
# `System.Sessions` — sessions over time

Requests one after the other, at the time on the clock, which only moves on:
`login`, `refresh`, `logout` and `get_current_user`, while the accounts change in
any way.  A client presents any token the service has signed, or one that does not
decode; `uuid4` draws identifiers nobody has.

`exchanges` are the refresh tokens exchanged so far, and when.
-/
import ForkRoom.Lib.Machine
import ForkRoom.Service.Auth

namespace ForkRoom

/-- Sessions at one point of time. -/
structure Sessions (T : Type) where
  clock : T
  accounts : List Account
  refreshTokens : RefreshTokens T
  signed : List Token
  exchanges : List (UUID × T)

namespace Sessions

variable {T : Type}

def start (clock : T) : Sessions T := ⟨clock, [], .empty T, [], []⟩

inductive Action (T : Type) where
  | tick (clock : T)
  | edit (accounts : List Account)
  | login (payload : AuthService.LoginRequest) (familyId : UUID) (fresh : FreshJtis)
  | refresh (token : Token) (fresh : FreshJtis)
  | logout (token : Token)
  | currentUser (accessToken : Option Token)

/-- What `uuid4` draws is new. -/
def Unused (s : Sessions T) (fresh : FreshJtis) : Prop :=
  fresh.access ≠ fresh.refresh ∧ fresh.access ∉ s.signed.map Token.jti ∧
    fresh.refresh ∉ s.signed.map Token.jti

instance (s : Sessions T) (fresh : FreshJtis) : Decidable (s.Unused fresh) :=
  inferInstanceAs (Decidable (_ ∧ _ ∧ _))

/-- The pair is handed out. -/
def sign (s : Sessions T) (pair : TokenPair) : Sessions T :=
  { s with signed := s.signed ++ [pair.accessToken, pair.refreshToken] }

section
variable [Field T] [LinearOrder T] [FloorRing T]

/-- The answer of `refresh` in a state, and what it leaves in Redis. -/
def refreshed (settings : AuthSettings) (s : Sessions T) (token : Token) (fresh : FreshJtis) :
    Except AuthError TokenPair × RefreshTokens T :=
  AuthService.refresh settings s.signed s.accounts s.clock token fresh s.refreshTokens

def step (credentials : Credentials) (settings : AuthSettings) (s : Sessions T) :
    Action T → Option (Sessions T)
  | .tick clock => if s.clock ≤ clock then some { s with clock := clock } else none
  | .edit accounts => some { s with accounts := accounts }
  | .login payload familyId fresh => do
      guard (s.Unused fresh ∧ familyId ∉ s.signed.map Token.family)
      match AuthService.login credentials settings s.accounts s.clock payload familyId fresh with
      | .ok (_, pair) => pure (s.sign pair)
      | .error _ => pure s
  | .refresh token fresh => do
      guard (s.Unused fresh)
      match s.refreshed settings token fresh with
      | (.ok pair, refreshTokens) =>
          pure ({ s with
            refreshTokens := refreshTokens
            exchanges := s.exchanges ++ [(token.jti, s.clock)] }.sign pair)
      | (.error _, refreshTokens) => pure { s with refreshTokens := refreshTokens }
  | .logout token =>
      some { s with
        refreshTokens :=
          (AuthService.logout settings s.signed s.clock token s.refreshTokens).2 }
  | .currentUser _ => some s

end

/-! ## What one step can do -/

section
variable [Field T] [LinearOrder T] [FloorRing T]

open RefreshTokenRepository in
/-- One step, case by case. -/
inductive Steps (settings : AuthSettings) (s : Sessions T) : Action T → Sessions T → Prop
  | tick {clock : T} : s.clock ≤ clock → Steps settings s (.tick clock) { s with clock := clock }
  | edit {accounts : List Account} :
      Steps settings s (.edit accounts) { s with accounts := accounts }
  | unchanged {a : Action T} : Steps settings s a s
  | loggedIn {payload : AuthService.LoginRequest} {familyId : UUID} {fresh : FreshJtis}
      {userId : UUID} {version : Nat} : s.Unused fresh → familyId ∉ s.signed.map Token.family →
      Steps settings s (.login payload familyId fresh)
        (s.sign (createTokenPair settings s.clock userId familyId version fresh))
  | refused {token : Token} {fresh : FreshJtis} : token ∈ s.signed → token.type = .refresh →
      s.clock < token.exp → isFamilyRevoked s.clock token.family s.refreshTokens = false →
      Steps settings s (.refresh token fresh)
        { s with
          refreshTokens := AuthService.revoke settings s.clock token.family
            (consume s.clock token.jti token.exp s.refreshTokens).2 }
  | exchanged {token : Token} {fresh : FreshJtis} {userId : UUID} {version : Nat} :
      s.Unused fresh → token ∈ s.signed → token.type = .refresh → s.clock < token.exp →
      isFamilyRevoked s.clock token.family s.refreshTokens = false →
      (consume s.clock token.jti token.exp s.refreshTokens).1 →
      Steps settings s (.refresh token fresh)
        ({ s with
          refreshTokens := (consume s.clock token.jti token.exp s.refreshTokens).2
          exchanges := s.exchanges ++ [(token.jti, s.clock)] }.sign
            (createTokenPair settings s.clock userId token.family version fresh))
  | loggedOut {token : Token} : token ∈ s.signed → token.type = .refresh →
      s.clock < token.exp →
      Steps settings s (.logout token)
        { s with
          refreshTokens := AuthService.revoke settings s.clock token.family s.refreshTokens }

variable {credentials : Credentials} {settings : AuthSettings} {s s' : Sessions T}

/-- What a refresh of a token that decodes comes to. -/
theorem refreshed_cases {token : Token} {fresh : FreshJtis} {result : Except AuthError TokenPair}
    {refreshTokens : RefreshTokens T}
    (hd : decodeToken s.signed s.clock .refresh token = .ok token)
    (h : s.refreshed settings token fresh = (result, refreshTokens)) :
    ∃ user, RefreshCases settings s.accounts s.clock token s.refreshTokens user refreshTokens ∧
      result = user.map fun user =>
        createTokenPair settings s.clock user.id token.family user.authVersion fresh := by
  cases h
  exact ⟨_, refresh_cases hd, rfl⟩

theorem refreshed_invalid {token : Token} {fresh : FreshJtis} {e : AuthError}
    (hd : decodeToken s.signed s.clock .refresh token = .error e) :
    s.refreshed settings token fresh = (.error e, s.refreshTokens) := by
  rw [refreshed, AuthService.refresh, refresh_invalid hd]
  rfl

theorem refresh_step {token : Token} {fresh : FreshJtis}
    (h : s.step credentials settings (.refresh token fresh) = some s') :
    Steps settings s (.refresh token fresh) s' := by
  obtain ⟨hfresh, h⟩ := Machine.guard_bind h
  cases hd : decodeToken s.signed s.clock .refresh token with
  | error e =>
      rw [refreshed_invalid hd] at h
      cases h
      exact .unchanged
  | ok decoded =>
      obtain ⟨rfl, hs, hexp, htype⟩ := decodeToken_ok hd
      cases hanswer : s.refreshed settings decoded fresh with
      | mk result refreshTokens =>
      rw [hanswer] at h
      obtain ⟨user, hcases, rfl⟩ := refreshed_cases hd hanswer
      cases hcases with
      | revoked hrev =>
          cases h
          exact .unchanged
      | refused hrev _ =>
          cases h
          exact .refused hs htype hexp hrev
      | exchanged hrev hcon _ _ _ =>
          cases h
          exact .exchanged hfresh hs htype hexp hrev hcon

theorem step_cases {a : Action T} (h : s.step credentials settings a = some s') :
    Steps settings s a s' := by
  cases a with
  | tick clock =>
      simp only [step] at h
      split at h
      · rename_i hle
        cases h
        exact .tick hle
      · cases h
  | edit accounts =>
      cases h
      exact .edit
  | login payload familyId fresh =>
      obtain ⟨⟨hfresh, hfamily⟩, h⟩ := Machine.guard_bind h
      unfold AuthService.login at h
      cases hauth : AuthService.authenticate credentials s.accounts payload with
      | error e =>
          rw [hauth] at h
          cases h
          exact .unchanged
      | ok user =>
          rw [hauth] at h
          cases h
          exact .loggedIn hfresh hfamily
  | refresh token fresh => exact refresh_step h
  | logout token =>
      cases h
      unfold AuthService.logout
      cases hd : decodeToken s.signed s.clock .refresh token with
      | error e => exact .unchanged
      | ok decoded =>
          obtain ⟨rfl, hs, hexp, htype⟩ := decodeToken_ok hd
          exact .loggedOut hs htype hexp
  | currentUser accessToken =>
      cases h
      exact .unchanged

end

end Sessions

end ForkRoom
