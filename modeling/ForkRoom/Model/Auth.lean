/-
# `Model.Auth` — accounts, signed tokens and the refresh markers

The columns of `app/models/user.py` that the authentication code reads or writes,
the payload of the JWTs of `app/core/security.py`, and `RefreshTokenRepository`.

Times of day are any ordered field with a floor; a JWT holds whole seconds.  A
signature verifies on the tokens the service has signed and on no others, so
`signed` is the list of those.  PyJWT takes a token as long as `now < exp`.
-/
import ForkRoom.Lib.Expiring
import ForkRoom.Model.Records
import Mathlib.Algebra.Order.Floor.Ring

namespace ForkRoom

/-! ## Accounts -/

structure Account where
  id : UUID
  email : String
  passwordHash : String
  displayName : String
  avatarUrl : Option String
  isActive : Bool
  isEmailVerified : Bool
  authVersion : Nat
  deriving DecidableEq

instance : Rows.Keyed Account UUID := ⟨Account.id⟩

inductive AuthError where
  | emailAlreadyRegistered | invalidCredentials | inactiveAccount | emailNotVerified
  | invalidToken | invalidActionToken
  deriving DecidableEq, Repr

/-- The settings of `app/core/config.py` on tokens, within their bounds. -/
structure AuthSettings where
  accessTokenExpireMinutes : Nat
  refreshTokenExpireDays : Nat
  emailVerificationExpireMinutes : Nat
  passwordResetExpireMinutes : Nat
  accessTokenExpireMinutes_pos : 0 < accessTokenExpireMinutes
  refreshTokenExpireDays_pos : 0 < refreshTokenExpireDays
  emailVerificationExpireMinutes_pos : 0 < emailVerificationExpireMinutes
  passwordResetExpireMinutes_pos : 0 < passwordResetExpireMinutes

/-- The settings where nothing else is configured. -/
def AuthSettings.default : AuthSettings :=
  ⟨15, 7, 60, 15, by decide, by decide, by decide, by decide⟩

/-! ## Signed tokens -/

inductive TokenType where
  | access | refresh
  deriving DecidableEq, Repr

/-- The payload of a JWT. -/
structure Token where
  sub : UUID
  type : TokenType
  jti : UUID
  family : UUID
  ver : Nat
  iat : Int
  exp : Int
  deriving DecidableEq

structure TokenPair where
  accessToken : Token
  refreshToken : Token
  accessTokenExpiresIn : Nat
  deriving DecidableEq

def AuthSettings.accessLifetime (settings : AuthSettings) : Nat :=
  settings.accessTokenExpireMinutes * 60

def AuthSettings.refreshLifetime (settings : AuthSettings) : Nat :=
  settings.refreshTokenExpireDays * 86400

/-- The identifiers drawn for a pair: a `uuid4` for each token. -/
structure FreshJtis where
  access : UUID
  refresh : UUID
  deriving DecidableEq

section
variable {T : Type} [Field T] [LinearOrder T] [FloorRing T]

/-- `_create_token`; PyJWT writes the whole seconds of a time. -/
def createToken (now : T) (subject : UUID) (type : TokenType) (familyId : UUID)
    (tokenVersion : Nat) (lifetime : Nat) (jti : UUID) : Token :=
  { sub := subject
    type := type
    jti := jti
    family := familyId
    ver := tokenVersion
    iat := ⌊now⌋
    exp := ⌊now + lifetime⌋ }

/-- `create_token_pair` -/
def createTokenPair (settings : AuthSettings) (now : T) (userId familyId : UUID)
    (tokenVersion : Nat) (fresh : FreshJtis) : TokenPair :=
  { accessToken :=
      createToken now userId .access familyId tokenVersion settings.accessLifetime fresh.access
    refreshToken :=
      createToken now userId .refresh familyId tokenVersion settings.refreshLifetime fresh.refresh
    accessTokenExpiresIn := settings.accessLifetime }

/-- `_decode_token` -/
def decodeToken (signed : List Token) (now : T) (expectedType : TokenType) (token : Token) :
    Except AuthError Token :=
  if token ∈ signed ∧ now < token.exp ∧ token.type = expectedType then .ok token
  else .error .invalidToken

end

section
variable {T : Type} [Field T] [LinearOrder T] {signed : List Token} {now : T} {token : Token}
  {type : TokenType}

theorem decodeToken_ok {decoded : Token}
    (h : decodeToken signed now type token = .ok decoded) :
    decoded = token ∧ token ∈ signed ∧ now < token.exp ∧ token.type = type := by
  unfold decodeToken at h
  split at h
  · rename_i hd
    cases h
    exact ⟨rfl, hd⟩
  · cases h

theorem decodeToken_of_valid (hs : token ∈ signed) (hexp : now < token.exp)
    (htype : token.type = type) : decodeToken signed now type token = .ok token :=
  if_pos ⟨hs, hexp, htype⟩

end

/-! ## `RefreshTokenRepository` -/

/-- The keys `auth:refresh:used:…` and `auth:refresh:family:revoked:…`. -/
structure RefreshTokens (T : Type) where
  used : UUID → Expiring.Key T Unit
  revoked : UUID → Expiring.Key T Unit

def RefreshTokens.empty (T : Type) : RefreshTokens T := ⟨fun _ => none, fun _ => none⟩

/-- `int(seconds)`, which cuts off towards zero. -/
def truncate {T : Type} [Field T] [LinearOrder T] [FloorRing T] (seconds : T) : Int :=
  if 0 ≤ seconds then ⌊seconds⌋ else ⌈seconds⌉

namespace RefreshTokenRepository

section
variable {T : Type} [Field T] [LinearOrder T] [FloorRing T]

/-- Whether the token was still unused; it is marked as used. -/
def consume (now : T) (jti : UUID) (expiresAt : Int) (s : RefreshTokens T) :
    Bool × RefreshTokens T :=
  let ttl := max 1 (truncate (expiresAt - now))
  let (result, key) := (s.used jti).putNew now ttl ()
  (result, { s with used := Function.update s.used jti key })

theorem consume_fst (now : T) (jti : UUID) (exp : Int) (s : RefreshTokens T) :
    (consume now jti exp s).1 = !(s.used jti).present now :=
  Expiring.Key.putNew_fst

theorem used_consume (now : T) (jti : UUID) (exp : Int) (s : RefreshTokens T) :
    (consume now jti exp s).2.used = Function.update s.used jti
      (if (s.used jti).present now then s.used jti
        else .putFor now ((max 1 (truncate ((exp : T) - now)) : Int) : T) ()) :=
  congrArg (Function.update s.used jti) Expiring.Key.putNew_snd

/-- A token that is taken is marked. -/
theorem used_consume_of_new {now : T} {jti : UUID} {exp : Int} {s : RefreshTokens T}
    (h : (consume now jti exp s).1) : (consume now jti exp s).2.used jti =
      .putFor now ((max 1 (truncate ((exp : T) - now)) : Int) : T) () := by
  rw [consume_fst, Bool.not_eq_true'] at h
  rw [used_consume, Function.update_self, if_neg (by simp [h])]

/-- A mark that is there stays. -/
theorem used_consume_of_present {now : T} {jti jti' : UUID} {exp : Int} {s : RefreshTokens T}
    (h : jti' = jti → (consume now jti exp s).1 = false) :
    (consume now jti exp s).2.used jti' = s.used jti' := by
  rw [used_consume]
  by_cases hj : jti' = jti
  · subst hj
    have hpresent := h rfl
    rw [consume_fst, Bool.not_eq_false'] at hpresent
    rw [Function.update_self, if_pos hpresent]
  · rw [Function.update_of_ne hj]

end

variable {T : Type} [LinearOrder T]

def isFamilyRevoked (now : T) (familyId : UUID) (s : RefreshTokens T) : Bool :=
  (s.revoked familyId).present now

def revokeFamily [Add T] (now : T) (familyId : UUID) (ttlSeconds : T) (s : RefreshTokens T) :
    RefreshTokens T :=
  { s with revoked := Function.update s.revoked familyId (.putFor now ttlSeconds ()) }

end RefreshTokenRepository

end ForkRoom
