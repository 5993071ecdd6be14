/-
# `System.PasswordReset` — resets among logins and refreshes

Each request in two steps: it reads the row of the user (and, for a refresh, checks
and marks the token), and later commits the new password, or signs a new pair.
Between the two, any other request may run.

    request            first step                          second step
    reset_password     reads the row                       writes hash and version
    login              reads the row, checks the password  signs a pair, a new family
    refresh            checks, marks, reads the row        signs a pair, same family

`outdated` are the tokens that were signed before a committed reset of their user.
-/
import ForkRoom.System.Sessions

namespace ForkRoom

namespace PasswordReset

/-- A request between its two steps, with the row it has read.  A reset also notes whether
another reset of the user has committed since. -/
inductive Request where
  | reset (user : Account) (passwordHash : String) (overtaken : Bool)
  | login (user : Account)
  | refresh (token : Token) (user : Account)
  deriving DecidableEq

def Request.user : Request → Account
  | .reset user .. | .login user | .refresh _ user => user

def Request.overtaken : Request → Bool
  | .reset _ _ overtaken => overtaken
  | .login _ | .refresh .. => false

/-- A reset of the user commits. -/
def Request.overtake (userId : UUID) : Request → Request
  | .reset user passwordHash overtaken =>
      .reset user passwordHash (overtaken || user.id = userId)
  | request => request

structure State (T : Type) where
  sessions : Sessions T
  requests : List Request
  outdated : List Token

def start {T : Type} (clock : T) (accounts : List Account) : State T :=
  ⟨{ Sessions.start clock with accounts := accounts }, [], []⟩

inductive Action (T : Type) where
  | tick (clock : T)
  | resetPassword (userId : UUID) (passwordHash : String)
  | login (payload : AuthService.LoginRequest)
  | refresh (token : Token)
  | finish (i : Nat) (familyId : UUID) (fresh : FreshJtis)

/-- No other reset of the user commits between the read of a reset and its commit. -/
def NotOvertaken {T : Type} (s : State T) : Action T → Prop
  | .finish i _ _ => (s.requests[i]?).all fun request => !request.overtaken
  | .tick _ | .resetPassword .. | .login _ | .refresh _ => True

instance {T : Type} (s : State T) : ∀ a : Action T, Decidable (NotOvertaken s a)
  | .finish i _ _ => inferInstanceAs (Decidable
      ((s.requests[i]?).all fun request => !request.overtaken))
  | .tick _ | .resetPassword .. | .login _ | .refresh _ => instDecidableTrue

section
variable {T : Type} [Field T] [LinearOrder T] [FloorRing T]

/-- The second step of the `i`-th request. -/
def finish (settings : AuthSettings) (s : State T) (i : Nat) (familyId : UUID)
    (fresh : FreshJtis) : Option (State T) := do
  let request ← s.requests[i]?
  let s' := { s with requests := s.requests.eraseIdx i }
  match request with
  | .reset user passwordHash _ =>
      match UserRepository.updatePassword user passwordHash s.sessions.accounts with
      | some accounts =>
          pure { s' with
            sessions := { s.sessions with accounts := accounts }
            requests := s'.requests.map (Request.overtake user.id)
            outdated := s.outdated ++ s.sessions.signed.filter fun token => token.sub = user.id }
      | none => pure s'
  | .login user =>
      guard (s.sessions.Unused fresh ∧ familyId ∉ s.sessions.signed.map Token.family)
      let pair :=
        createTokenPair settings s.sessions.clock user.id familyId user.authVersion fresh
      pure { s' with sessions := s.sessions.sign pair }
  | .refresh token user =>
      guard (s.sessions.Unused fresh)
      let pair :=
        createTokenPair settings s.sessions.clock user.id token.family user.authVersion fresh
      pure { s' with sessions := s.sessions.sign pair }

def State.step (credentials : Credentials) (settings : AuthSettings) (s : State T) :
    Action T → Option (State T)
  | .tick clock =>
      if s.sessions.clock ≤ clock then
        some { s with sessions := { s.sessions with clock := clock } }
      else none
  | .resetPassword userId passwordHash =>
      match (Rows.find userId s.sessions.accounts).filter Account.isActive with
      | some user => some { s with requests := s.requests ++ [.reset user passwordHash false] }
      | none => some s
  | .login payload =>
      match AuthService.authenticate credentials s.sessions.accounts payload with
      | .ok user => some { s with requests := s.requests ++ [.login user] }
      | .error _ => some s
  | .refresh token =>
      let (user, refreshTokens) := AuthService.refreshUser settings s.sessions.signed
        s.sessions.accounts s.sessions.clock token s.sessions.refreshTokens
      let s' := { s with sessions := { s.sessions with refreshTokens := refreshTokens } }
      match user with
      | .ok user => some { s' with requests := s.requests ++ [.refresh token user] }
      | .error _ => some s'
  | .finish i familyId fresh => finish settings s i familyId fresh

end

/-! ## What one step can do -/

/-- One step, as far as versions are concerned. -/
inductive Steps {T : Type} (s : State T) : Action T → State T → Prop
  /-- nothing is written or signed; a request may read its row -/
  | read {a : Action T} {s' : State T} : s'.sessions.accounts = s.sessions.accounts →
      s'.sessions.signed = s.sessions.signed → s'.outdated = s.outdated →
      (∀ request ∈ s'.requests, request ∈ s.requests ∨
        request.user ∈ s.sessions.accounts ∧ request.overtaken = false) → Steps s a s'
  /-- a pair is signed -/
  | signed {a : Action T} {s' : State T} {request : Request} {pair : TokenPair} :
      request ∈ s.requests →
      (∀ token ∈ [pair.accessToken, pair.refreshToken],
        token.sub = request.user.id ∧ token.ver = request.user.authVersion) →
      s'.sessions.accounts = s.sessions.accounts →
      s'.sessions.signed = s.sessions.signed ++ [pair.accessToken, pair.refreshToken] →
      s'.outdated = s.outdated → s'.requests ⊆ s.requests → Steps s a s'
  /-- a reset is committed -/
  | reset {i : Nat} {familyId : UUID} {fresh : FreshJtis} {user : Account} {passwordHash : String}
      {overtaken : Bool} {s' : State T} :
      s.requests[i]? = some (.reset user passwordHash overtaken) →
      UserRepository.updatePassword user passwordHash s.sessions.accounts =
        some s'.sessions.accounts →
      s'.sessions.signed = s.sessions.signed →
      s'.outdated = s.outdated ++ s.sessions.signed.filter (fun token => token.sub = user.id) →
      s'.requests = (s.requests.eraseIdx i).map (Request.overtake user.id) →
      Steps s (.finish i familyId fresh) s'

end PasswordReset

end ForkRoom
