/-
# `System.Mailbox` — registrations, mails and Google sign-ins

The requests of `AuthService` and the completions of Google sign-ins, each a
sequence of steps among those of all the others.

    request                     steps
    register                    look up, insert, issue a token, send the mail
    request_email_verification  look up, issue a token, send the mail
    forgot_password             look up, issue a token, send the mail
    verify_email                consume the token, look up, update
    reset_password              consume the token, look up, update
    Google sign-in              look up, then link or insert
    login                       look up; it writes nothing here

The Redis commands of `issue` and `consume` are those of `System.ActionTokens`.
Any request can end early.  A token is random: nobody presents one that has been
drawn and has not been mailed.
-/
import ForkRoom.Service.Accounts
import ForkRoom.System.ActionTokens

namespace ForkRoom

namespace Mailbox

/-! ## States -/

structure Mail where
  recipient : String
  displayName : String
  purpose : String
  token : String
  deriving DecidableEq

/-- What has happened to an account. -/
inductive Event where
  | registered (userId : UUID) (password : String)
  | redeemed (token : ActionTokens.Issued)
  | signedIn (userId : UUID) (profile : GoogleProfile)
  deriving DecidableEq

def Event.userId : Event → UUID
  | .registered userId _ | .signedIn userId _ => userId
  | .redeemed token => token.userId

/-- The next step of a request, with what it has read. -/
inductive Request where
  | create (user : Account) (password : String)
  | issue (purpose : String) (user : Account)
  | send (purpose : String) (user : Account) (token : String)
  | verify (userId : UUID)
  | markVerified (user : Account)
  | reset (userId : UUID) (newPassword : String)
  | updatePassword (user : Account) (passwordHash : String)
  | linked (account : OAuthAccount) (user : Account) (profile : GoogleProfile)
  | link (user : Option Account) (profile : GoogleProfile)

structure State (T : Type) where
  tokens : ActionTokens.State T
  accounts : List Account
  links : List OAuthAccount
  requests : List Request
  mails : List Mail
  history : List Event

def start {T : Type} (clock : T) : State T := ⟨ActionTokens.start clock, [], [], [], [], []⟩

/-- What a step of a request draws. -/
structure Draws where
  google : GoogleDraws
  token : String
  salt : String

inductive Action (T : Type) where
  | tick (clock : T)
  | command (i : Nat)
  | register (payload : AuthService.RegisterRequest) (id : UUID) (salt : String)
  | requestEmailVerification (email : String)
  | forgotPassword (email : String)
  | verifyEmail (token : String)
  | resetPassword (token newPassword : String)
  | signIn (profile : GoogleProfile)
  | login (payload : AuthService.LoginRequest)
  | advance (i : Nat) (draws : Draws)
  | stop (i : Nat)

/-! ## Steps -/

section
variable {T : Type}

/-- A request begins. -/
def State.begin (s : State T) (request : Request) : State T :=
  { s with requests := s.requests ++ [request] }

/-- A request goes on. -/
def State.goOn (s : State T) (i : Nat) (request : Request) : State T :=
  { s with requests := s.requests.set i request }

/-- A request ends. -/
def State.finish (s : State T) (i : Nat) : State T := { s with requests := s.requests.eraseIdx i }

def State.log (s : State T) (event : Event) : State T := { s with history := s.history ++ [event] }

def State.deliver (s : State T) (mail : Mail) : State T := { s with mails := s.mails ++ [mail] }

variable [LinearOrder T] [Add T] [NatCast T]

def lifetime (settings : AuthSettings) (purpose : String) : Nat :=
  if purpose = AuthService.passwordResetPurpose then settings.passwordResetExpireMinutes * 60
  else settings.emailVerificationExpireMinutes * 60

/-- `consume`, and the request that goes on if there was such a token. -/
def redeem (digest : String → String) (s : State T) (purpose token : String)
    (next : UUID → Request) : Option (State T) := do
  guard (token ∈ s.mails.map Mail.token ∨
    digest token ∉ s.tokens.calls.map ActionTokens.Issue.digest)
  let s' := { s with tokens := ActionTokens.consume s.tokens purpose (digest token) }
  match (s.tokens.tokens (purpose, digest token)).read s.tokens.clock with
  | none => pure s'
  | some userId => pure ((s'.log (.redeemed ⟨purpose, userId, digest token⟩)).begin (next userId))

open OAuthAccountRepository in
/-- The next step of the `i`-th request. -/
def advance (credentials : Credentials) (settings : AuthSettings) (digest : String → String)
    (s : State T) (i : Nat) (draws : Draws) : Option (State T) := do
  let request ← s.requests[i]?
  match request with
  | .create user password =>
      match UserRepository.createAccount user s.accounts with
      | .error _ => pure (s.finish i)
      | .ok accounts =>
          let s' := s.log (.registered user.id password)
          pure ({ s' with accounts := accounts }.goOn i
            (.issue AuthService.emailVerificationPurpose user))
  | .issue purpose user => do
      let tokens ← ActionTokens.issue s.tokens purpose user.id (lifetime settings purpose : T)
        (digest draws.token)
      pure ({ s with tokens := tokens }.goOn i (.send purpose user draws.token))
  | .send purpose user token => do
      guard (∃ call ∈ s.tokens.calls, call.digest = digest token ∧ call.phase = .returned)
      pure ((s.deliver ⟨user.email, user.displayName, purpose, token⟩).finish i)
  | .verify userId =>
      match AuthService.tokenUser s.accounts userId with
      | .error _ => pure (s.finish i)
      | .ok user =>
          pure (if user.isEmailVerified then s.finish i else s.goOn i (.markVerified user))
  | .markVerified user =>
      pure ({ s with accounts := UserRepository.markEmailVerified user s.accounts }.finish i)
  | .reset userId newPassword =>
      match AuthService.tokenUser s.accounts userId with
      | .error _ => pure (s.finish i)
      | .ok user =>
          pure (s.goOn i (.updatePassword user (credentials.hashPassword newPassword draws.salt)))
  | .updatePassword user passwordHash =>
      match UserRepository.updatePassword user passwordHash s.accounts with
      | none => pure (s.finish i)
      | some accounts => pure ({ s with accounts := accounts }.finish i)
  | .linked account user profile =>
      let s' := s.log (.signedIn user.id profile)
      pure ({ s' with links := relink account profile s.links }.finish i)
  | .link user profile =>
      match link credentials profile draws.google user s.accounts s.links with
      | some (userId, accounts, links) =>
          let s' := s.log (.signedIn userId profile)
          pure ({ s' with accounts := accounts, links := links }.finish i)
      | none =>
          match relookup profile s.accounts s.links with
          | .error _ => pure (s.finish i)
          | .ok user => pure ((s.log (.signedIn user.id profile)).finish i)

def State.step (credentials : Credentials) (settings : AuthSettings) (digest : String → String)
    (s : State T) : Action T → Option (State T)
  | .tick clock =>
      (s.tokens.step digest (.tick clock)).map fun tokens => { s with tokens := tokens }
  | .command i => (ActionTokens.advance s.tokens i).map fun tokens => { s with tokens := tokens }
  | .register payload id salt =>
      match AuthService.register credentials s.accounts payload id salt with
      | .error _ => some s
      | .ok user => some (s.begin (.create user payload.password))
  | .requestEmailVerification email =>
      match AuthService.requestEmailVerification credentials s.accounts email with
      | none => some s
      | some user => some (s.begin (.issue AuthService.emailVerificationPurpose user))
  | .forgotPassword email =>
      match AuthService.forgotPassword credentials s.accounts email with
      | none => some s
      | some user => some (s.begin (.issue AuthService.passwordResetPurpose user))
  | .verifyEmail token => redeem digest s AuthService.emailVerificationPurpose token .verify
  | .resetPassword token newPassword =>
      redeem digest s AuthService.passwordResetPurpose token fun userId => .reset userId newPassword
  | .signIn profile =>
      match OAuthAccountRepository.findGoogle credentials.lower profile s.accounts s.links with
      | .error _ => some s
      | .ok (.linked account user) => some (s.begin (.linked account user profile))
      | .ok (.unlinked user) => some (s.begin (.link user profile))
  | .login _ => some s
  | .advance i draws => advance credentials settings digest s i draws
  | .stop i => some (s.finish i)

end

end Mailbox

end ForkRoom
