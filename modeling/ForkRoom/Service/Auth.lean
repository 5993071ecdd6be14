/-
# `Service.Auth` — signing in, and staying signed in

`login`, `refresh` and `logout` of `AuthService`, and the dependency
`get_current_user`.  A call reads the clock once; what it reads of the accounts
and what `uuid4` draws are arguments.
-/
import ForkRoom.Model.Auth

namespace ForkRoom

/-- What the accounts use of Python, Postgres and pwdlib. -/
structure Credentials where
  /-- `email.lower()`, and `lower(email)` -/
  lower : String → String
  /-- `password_hasher.hash`, with the salt it draws -/
  hashPassword : String → String → String
  verifyPassword : String → String → Bool

/-- `raise HTTPException` -/
structure HTTPException where
  statusCode : Nat
  detail : String
  deriving DecidableEq

namespace UserRepository

def getAccountByEmail (lower : String → String) (email : String) (accounts : List Account) :
    Option Account :=
  accounts.find? fun a => lower a.email = lower email

/-- The `UPDATE` of `update_password`: both columns as they follow from the row that
was read.  A version past the range of the column fails. -/
def updatePassword (user : Account) (passwordHash : String) (accounts : List Account) :
    Option (List Account) :=
  if user.authVersion + 1 < 2 ^ 31 then
    some (Rows.modify user.id (fun stored => { stored with
      passwordHash := Rows.column user.passwordHash passwordHash stored.passwordHash
      authVersion := user.authVersion + 1 }) accounts)
  else none

theorem updatePassword_some {user : Account} {passwordHash : String}
    {accounts accounts' : List Account}
    (h : updatePassword user passwordHash accounts = some accounts') :
    accounts' = Rows.modify user.id (fun stored => { stored with
      passwordHash := Rows.column user.passwordHash passwordHash stored.passwordHash
      authVersion := user.authVersion + 1 }) accounts := by
  unfold updatePassword at h
  split at h
  · cases h
    rfl
  · cases h

/-- The stored version is the one that was read, and one more. -/
theorem version_of_updatePassword {user user' : Account} {passwordHash : String}
    {accounts accounts' : List Account}
    (h : updatePassword user passwordHash accounts = some accounts')
    (hfind : Rows.find user.id accounts' = some user') :
    user'.authVersion = user.authVersion + 1 := by
  obtain ⟨hmem, hid⟩ := Rows.find_some hfind
  rw [updatePassword_some h] at hmem
  obtain ⟨stored, hstored, hrow⟩ := Rows.mem_modify.mp hmem
  split at hrow
  · rw [← hrow]
  · rename_i hne
    exact absurd (hrow ▸ hid) hne

/-- The other accounts are left alone. -/
theorem find_updatePassword_of_ne {user : Account} {passwordHash : String} {userId : UUID}
    {accounts accounts' : List Account}
    (h : updatePassword user passwordHash accounts = some accounts') (hne : userId ≠ user.id) :
    Rows.find userId accounts' = Rows.find userId accounts := by
  rw [updatePassword_some h]
  refine Rows.find_modify_of_ne hne ?_ accounts
  intro stored
  rfl

end UserRepository

namespace AuthService

structure LoginRequest where
  email : String
  password : String
  deriving DecidableEq

/-- The checks of `login`. -/
def authenticate (credentials : Credentials) (accounts : List Account) (payload : LoginRequest) :
    Except AuthError Account :=
  match UserRepository.getAccountByEmail credentials.lower (credentials.lower payload.email)
    accounts with
  | none => .error .invalidCredentials
  | some user =>
      if ¬ credentials.verifyPassword payload.password user.passwordHash then
        .error .invalidCredentials
      else if ¬ user.isActive then .error .inactiveAccount
      else if ¬ user.isEmailVerified then .error .emailNotVerified
      else .ok user

section
variable {T : Type} [Field T] [LinearOrder T] [FloorRing T]

def login (credentials : Credentials) (settings : AuthSettings) (accounts : List Account) (now : T)
    (payload : LoginRequest) (familyId : UUID) (fresh : FreshJtis) :
    Except AuthError (Account × TokenPair) :=
  (authenticate credentials accounts payload).map fun user =>
    (user, createTokenPair settings now user.id familyId user.authVersion fresh)

/-- `revoke_family(decoded.family_id, self._family_revocation_ttl())` -/
def revoke (settings : AuthSettings) (now : T) (familyId : UUID) (s : RefreshTokens T) :
    RefreshTokens T :=
  RefreshTokenRepository.revokeFamily now familyId (settings.refreshLifetime : T) s

open RefreshTokenRepository in
/-- `refresh` up to the new pair: the account the token stands for. -/
def refreshUser (settings : AuthSettings) (signed : List Token) (accounts : List Account) (now : T)
    (token : Token) (s : RefreshTokens T) : Except AuthError Account × RefreshTokens T :=
  match decodeToken signed now .refresh token with
  | .error e => (.error e, s)
  | .ok decoded =>
      if isFamilyRevoked now decoded.family s then (.error .invalidToken, s)
      else
        let (wasConsumed, s) := consume now decoded.jti decoded.exp s
        if ¬ wasConsumed then (.error .invalidToken, revoke settings now decoded.family s)
        else
          match Rows.find decoded.sub accounts with
          | none => (.error .invalidToken, revoke settings now decoded.family s)
          | some user =>
              if ¬ user.isActive then
                (.error .inactiveAccount, revoke settings now decoded.family s)
              else if decoded.ver ≠ user.authVersion then
                (.error .invalidToken, revoke settings now decoded.family s)
              else (.ok user, s)

def refresh (settings : AuthSettings) (signed : List Token) (accounts : List Account) (now : T)
    (token : Token) (fresh : FreshJtis) (s : RefreshTokens T) :
    Except AuthError TokenPair × RefreshTokens T :=
  let (user, s) := refreshUser settings signed accounts now token s
  (user.map fun user =>
    createTokenPair settings now user.id token.family user.authVersion fresh, s)

def logout (settings : AuthSettings) (signed : List Token) (now : T) (token : Token)
    (s : RefreshTokens T) : Except AuthError Unit × RefreshTokens T :=
  match decodeToken signed now .refresh token with
  | .error e => (.error e, s)
  | .ok decoded => (.ok (), revoke settings now decoded.family s)

end

end AuthService

def unauthorized : HTTPException := ⟨401, "Invalid or expired access token"⟩

open RefreshTokenRepository in
/-- `get_current_user`, given the cookie `forkroom_access` if there is one. -/
def getCurrentUser {T : Type} [Field T] [LinearOrder T] [FloorRing T] (signed : List Token)
    (accounts : List Account) (now : T) (accessToken : Option Token) (s : RefreshTokens T) :
    Except HTTPException Account :=
  match accessToken with
  | none => .error unauthorized
  | some accessToken =>
      match decodeToken signed now .access accessToken with
      | .error _ => .error unauthorized
      | .ok decoded =>
          if isFamilyRevoked now decoded.family s then .error unauthorized
          else
            match Rows.find decoded.sub accounts with
            | none => .error unauthorized
            | some user =>
                if ¬ user.isActive then .error ⟨403, "This account is inactive"⟩
                else if decoded.ver ≠ user.authVersion then .error unauthorized
                else .ok user

/-! ## What the calls do -/

section
variable {T : Type} [Field T] [LinearOrder T] [FloorRing T] {settings : AuthSettings}
  {signed : List Token} {accounts : List Account} {now : T} {token : Token}
  {s : RefreshTokens T}

/-- The ways `refresh` can go for a token that decodes. -/
inductive RefreshCases (settings : AuthSettings) (accounts : List Account) (now : T)
    (token : Token) (s : RefreshTokens T) : Except AuthError Account → RefreshTokens T → Prop
  /-- the family was revoked before -/
  | revoked : RefreshTokenRepository.isFamilyRevoked now token.family s →
      RefreshCases settings accounts now token s (.error .invalidToken) s
  /-- the family is revoked now -/
  | refused {e : AuthError} :
      RefreshTokenRepository.isFamilyRevoked now token.family s = false →
      ((RefreshTokenRepository.consume now token.jti token.exp s).1 = false → e = .invalidToken) →
      RefreshCases settings accounts now token s (.error e)
        (AuthService.revoke settings now token.family
          (RefreshTokenRepository.consume now token.jti token.exp s).2)
  /-- the token is exchanged -/
  | exchanged {user : Account} :
      RefreshTokenRepository.isFamilyRevoked now token.family s = false →
      (RefreshTokenRepository.consume now token.jti token.exp s).1 →
      Rows.find token.sub accounts = some user → user.isActive → token.ver = user.authVersion →
      RefreshCases settings accounts now token s (.ok user)
        (RefreshTokenRepository.consume now token.jti token.exp s).2

theorem refresh_cases (h : decodeToken signed now .refresh token = .ok token) :
    RefreshCases settings accounts now token s
      (AuthService.refreshUser settings signed accounts now token s).1
      (AuthService.refreshUser settings signed accounts now token s).2 := by
  unfold AuthService.refreshUser
  rw [h]
  simp only
  cases hrev : RefreshTokenRepository.isFamilyRevoked now token.family s with
  | true =>
      rw [if_pos rfl]
      exact .revoked hrev
  | false =>
      rw [if_neg (by decide)]
      cases hcon : (RefreshTokenRepository.consume now token.jti token.exp s).1 with
      | false =>
          rw [if_pos (by decide)]
          exact .refused hrev fun _ => rfl
      | true =>
          have hused : ∀ {e : AuthError},
              (RefreshTokenRepository.consume now token.jti token.exp s).1 = false →
              e = .invalidToken := by
            intro e h
            rw [hcon] at h
            cases h
          rw [if_neg (by decide)]
          cases huser : Rows.find token.sub accounts with
          | none => exact .refused hrev hused
          | some user =>
              simp only
              split
              · exact .refused hrev hused
              · rename_i hactive
                split
                · exact .refused hrev hused
                · rename_i hver
                  exact .exchanged hrev hcon huser (not_not.mp hactive) (not_not.mp hver)

/-- A token that does not decode changes nothing. -/
theorem refresh_invalid {e : AuthError} (h : decodeToken signed now .refresh token = .error e) :
    AuthService.refreshUser settings signed accounts now token s = (.error e, s) := by
  unfold AuthService.refreshUser
  rw [h]

theorem refreshUser_mem {user : Account}
    (h : (AuthService.refreshUser settings signed accounts now token s).1 = .ok user) :
    user ∈ accounts := by
  cases hd : decodeToken signed now .refresh token with
  | error e =>
      rw [refresh_invalid hd] at h
      cases h
  | ok decoded =>
      obtain ⟨rfl, -⟩ := decodeToken_ok hd
      have hcases : RefreshCases settings accounts now decoded s _ _ := refresh_cases hd
      generalize AuthService.refreshUser settings signed accounts now decoded s = answer at h hcases
      obtain ⟨result, s'⟩ := answer
      cases hcases with
      | exchanged _ _ hfind _ _ =>
          cases h
          exact (Rows.find_some hfind).1
      | revoked | refused => cases h

theorem getCurrentUser_ok {accessToken : Option Token} {user : Account}
    (h : getCurrentUser signed accounts now accessToken s = .ok user) :
    ∃ token, accessToken = some token ∧ token ∈ signed ∧ now < token.exp ∧
      token.type = .access ∧
      RefreshTokenRepository.isFamilyRevoked now token.family s = false ∧
      Rows.find token.sub accounts = some user ∧ token.ver = user.authVersion := by
  unfold getCurrentUser at h
  split at h
  · cases h
  rename_i token
  split at h
  · cases h
  rename_i decoded hd
  obtain ⟨rfl, hs, hexp, htype⟩ := decodeToken_ok hd
  split at h
  · cases h
  rename_i hrev
  split at h
  · cases h
  rename_i user' huser
  split at h
  · cases h
  split at h
  · cases h
  rename_i hver
  cases h
  exact ⟨_, rfl, hs, hexp, htype, Bool.eq_false_iff.mpr hrev, huser, not_not.mp hver⟩

end

end ForkRoom
