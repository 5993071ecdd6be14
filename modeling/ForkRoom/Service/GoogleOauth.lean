/-
# `Service.GoogleOauth` — signing in with Google

`GoogleOAuthService` of `app/services/google_oauth.py` and the states of
`app/repositories/auth_oauth.py`, which Redis keeps for a time and gives out once.

    begin       keeps the return path, if it is safe, under a new state
    complete    exchanges the code; back to the frontend with status=success
    cancel      back to the frontend with an error

What Google and the accounts answer is a parameter of the call.  `urlsplit` is that of
`urllib.parse`; whether it takes a netloc (brackets, their address, the characters that
NFKC makes of others) is a parameter too, and decides between two ways to refuse a path.
-/
import ForkRoom.Lib.Uri
import ForkRoom.Model.Auth
import ForkRoom.Service.Accounts
import Mathlib.Data.List.DropRight

namespace ForkRoom

/-! ## `urllib.parse` -/

/-- What `urlsplit` finds in front of the path. -/
structure SplitResult where
  scheme : List Char
  netloc : List Char
  deriving DecidableEq

/-- `_WHATWG_C0_CONTROL_OR_SPACE` -/
def isC0ControlOrSpace (c : Char) : Bool := c.toNat ≤ 32

/-- `_UNSAFE_URL_BYTES_TO_REMOVE` -/
def isUnsafeUrlByte (c : Char) : Bool := c = '\t' || c = '\r' || c = '\n'

/-- `scheme_chars` -/
def isSchemeChar (c : Char) : Bool := c.isAlphanum || c = '+' || c = '-' || c = '.'

/-- `urlsplit(url)`, up to the path; `none` is a `ValueError`. -/
def urlsplit (isNetloc : List Char → Bool) (url : List Char) : Option SplitResult :=
  let url := (url.dropWhile isC0ControlOrSpace).filter fun c => !isUnsafeUrlByte c
  let front := url.takeWhile (· ≠ ':')
  let (scheme, url) :=
    if front.length < url.length ∧ front ≠ [] ∧ front.head?.any Char.isAlpha ∧
        front.all isSchemeChar then
      (front.map Char.toLower, url.drop (front.length + 1))
    else ([], url)
  if url.take 2 = ['/', '/'] then
    let netloc := Uri.upTo ['/', '?', '#'] (url.drop 2)
    if netloc = [] ∨ isNetloc netloc then some ⟨scheme, netloc⟩ else none
  else some ⟨scheme, []⟩

/-- A hexadecimal digit of a percent encoding. -/
def upperHexDigit (n : Nat) : Char := (Nat.digitChar n).toUpper

/-- `quote_plus` of one character. -/
def quotePlus (c : Char) : List Char :=
  if c.isAlphanum || c = '_' || c = '.' || c = '-' || c = '~' then [c]
  else if c = ' ' then ['+']
  else (String.utf8EncodeChar c).flatMap fun b =>
    ['%', upperHexDigit (b.toNat / 16), upperHexDigit (b.toNat % 16)]

/-- `urlencode(query)` -/
def urlencode (query : List (String × String)) : List Char :=
  ['&'].intercalate (query.map fun p =>
    p.1.toList.flatMap quotePlus ++ '=' :: p.2.toList.flatMap quotePlus)

/-! ## States -/

inductive GoogleFlowError where
  | notConfigured | stateInvalid | provider | profileInvalid
  | account (error : GoogleOAuthError)
  /-- of `urlsplit`; nobody handles it -/
  | valueError
  deriving DecidableEq, Repr

structure AuthOAuthState where
  codeVerifier : String
  returnPath : List Char
  deriving DecidableEq

/-- The keys `auth:google:oauth-state:…`. -/
abbrev AuthOAuthStates (T : Type) := String → Expiring.Key T AuthOAuthState

namespace AuthOAuthStateRepository

section
variable {T : Type} [LinearOrder T]

/-- `SET … EX` under a new state. -/
def issue [Add T] (now ttlSeconds : T) (state : String) (value : AuthOAuthState)
    (states : AuthOAuthStates T) : AuthOAuthStates T :=
  Function.update states state (.putFor now ttlSeconds value)

/-- `GET` and `DEL` in one script. -/
def consume (now : T) (state : String) (states : AuthOAuthStates T) :
    Option AuthOAuthState × AuthOAuthStates T :=
  ((states state).read now, Function.update states state none)

end

end AuthOAuthStateRepository

/-! ## `GoogleOAuthService` -/

/-- The settings of `app/core/config.py` on signing in with Google, within their bounds. -/
structure GoogleOAuthSettings where
  frontendUrl : List Char
  googleOauthStateTtlSeconds : Nat
  ttl_ge : 300 ≤ googleOauthStateTtlSeconds
  ttl_le : googleOauthStateTtlSeconds ≤ 1800

/-- What is outside of the service: Google, its client, the accounts, and a hash. -/
structure GoogleOutside where
  isNetloc : List Char → Bool
  codeChallenge : String → String
  authorizationUrl : String → String → Except GoogleFlowError String
  exchangeCode : String → String → Except GoogleFlowError GoogleProfile
  authenticateGoogle : GoogleProfile → Except GoogleOAuthError Account

structure GoogleOAuthCompletion where
  user : Account
  tokens : TokenPair
  redirectUrl : List Char

namespace GoogleOAuthService

/-- `_safe_return_path` -/
def safeReturnPath (isNetloc : List Char → Bool) (returnPath : List Char) :
    Except GoogleFlowError (List Char) :=
  if returnPath.length > 2048 then .ok ['/']
  else
    match urlsplit isNetloc returnPath with
    | none => .error .valueError
    | some parsed =>
        if returnPath.head? ≠ some '/' ∨ returnPath.take 2 = ['/', '/'] ∨ parsed.scheme ≠ [] ∨
            parsed.netloc ≠ [] ∨ '\\' ∈ returnPath then .ok ['/']
        else .ok returnPath

/-- `_frontend_redirect` -/
def frontendRedirect (settings : GoogleOAuthSettings) (returnPath : List Char)
    (query : List (String × String)) : List Char :=
  let separator := if '?' ∈ returnPath then '&' else '?'
  settings.frontendUrl.rdropWhile (· = '/') ++ returnPath ++ separator :: urlencode query

/-- The query of a completion. -/
def successQuery : List (String × String) := [("oauth", "google"), ("status", "success")]

/-- The query of a cancellation. -/
def errorQuery (providerError : String) : List (String × String) :=
  let safeError := if providerError = "access_denied" then "access_denied" else "oauth_failed"
  [("oauth", "google"), ("error", safeError)]

section
variable {T : Type} [Field T] [LinearOrder T] [FloorRing T]

/-- `begin`, with the verifier and the state that are drawn for it. -/
def begin (outside : GoogleOutside) (settings : GoogleOAuthSettings) (now : T)
    (returnPath : List Char) (codeVerifier state : String) (states : AuthOAuthStates T) :
    Except GoogleFlowError String × AuthOAuthStates T :=
  match safeReturnPath outside.isNetloc returnPath with
  | .error error => (.error error, states)
  | .ok safeReturnPath =>
      (outside.authorizationUrl state (outside.codeChallenge codeVerifier),
        AuthOAuthStateRepository.issue now settings.googleOauthStateTtlSeconds state
          ⟨codeVerifier, safeReturnPath⟩ states)

def complete (outside : GoogleOutside) (settings : GoogleOAuthSettings)
    (authSettings : AuthSettings) (now : T) (code state : String) (familyId : UUID)
    (fresh : FreshJtis) (states : AuthOAuthStates T) :
    Except GoogleFlowError GoogleOAuthCompletion × AuthOAuthStates T :=
  let (oauthState, states) := AuthOAuthStateRepository.consume now state states
  match oauthState with
  | none => (.error .stateInvalid, states)
  | some oauthState =>
      (do
        let profile ← outside.exchangeCode code oauthState.codeVerifier
        let user ← (outside.authenticateGoogle profile).mapError .account
        .ok {
          user := user
          tokens := createTokenPair authSettings now user.id familyId user.authVersion fresh
          redirectUrl := frontendRedirect settings oauthState.returnPath successQuery },
        states)

def cancel (settings : GoogleOAuthSettings) (now : T) (state providerError : String)
    (states : AuthOAuthStates T) : Except GoogleFlowError (List Char) × AuthOAuthStates T :=
  let (oauthState, states) := AuthOAuthStateRepository.consume now state states
  match oauthState with
  | none => (.error .stateInvalid, states)
  | some oauthState =>
      (.ok (frontendRedirect settings oauthState.returnPath (errorQuery providerError)), states)

end

end GoogleOAuthService

/-! ## What a return path is -/

namespace GoogleOAuthService

variable {isNetloc : List Char → Bool} {returnPath kept : List Char}

/-- A path that is kept is absolute. -/
theorem safeReturnPath_ok (h : safeReturnPath isNetloc returnPath = .ok kept) :
    ∃ more, kept = '/' :: more ∧ more.head? ≠ some '/' := by
  have hroot : ∀ l : List Char, (Except.ok ['/'] : Except GoogleFlowError (List Char)) = .ok l →
      ∃ more, l = '/' :: more ∧ more.head? ≠ some '/' := by
    intro l hl
    cases hl
    exact ⟨[], rfl, by simp⟩
  unfold safeReturnPath at h
  split at h
  · exact hroot kept h
  · split at h
    · cases h
    · split at h
      · exact hroot kept h
      · rename_i hsafe
        cases h
        cases returnPath with
        | nil => simp at hsafe
        | cons c more =>
            have hc : c = '/' := by
              by_contra hne
              exact hsafe (.inl (by simpa using hne))
            subst hc
            refine ⟨more, rfl, fun hm => hsafe (.inr (.inl ?_))⟩
            cases more with
            | nil => cases hm
            | cons c more =>
                rw [List.head?_cons] at hm
                cases hm
                rfl

section
variable {T : Type} [Field T] [LinearOrder T] [FloorRing T] {outside : GoogleOutside}
  {settings : GoogleOAuthSettings} {authSettings : AuthSettings} {now : T} {code state : String}
  {familyId : UUID} {fresh : FreshJtis} {states states' : AuthOAuthStates T}

/-- However a completion ends, its state is used up. -/
theorem complete_states :
    (complete outside settings authSettings now code state familyId fresh states).2 =
      (AuthOAuthStateRepository.consume now state states).2 := by
  unfold complete
  dsimp only
  split <;> rfl

/-- A completion leads to the return path of its state. -/
theorem complete_ok {completion : GoogleOAuthCompletion}
    (h : (complete outside settings authSettings now code state familyId fresh states).1 =
      .ok completion) :
    ∃ value, (AuthOAuthStateRepository.consume now state states).1 = some value ∧
      completion.redirectUrl = frontendRedirect settings value.returnPath successQuery := by
  unfold complete at h
  dsimp only at h
  split at h
  · cases h
  · rename_i value hread
    cases hexchange : outside.exchangeCode code value.codeVerifier with
    | error error =>
        rw [hexchange] at h
        cases h
    | ok profile =>
        rw [hexchange] at h
        cases huser : outside.authenticateGoogle profile with
        | error error =>
            simp only [bind, Except.bind, huser, Except.mapError] at h
            cases h
        | ok user =>
            simp only [bind, Except.bind, huser, Except.mapError] at h
            cases h
            exact ⟨value, hread, rfl⟩

end

end GoogleOAuthService

end ForkRoom
