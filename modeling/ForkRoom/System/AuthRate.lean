/-
# `System.AuthRate` — the rate limit of the auth routes

`enforce_auth_rate_limit` of `app/dependencies/auth.py`, and `RateLimitRepository.hit`: a
counter for each action and client, which the first hit of a window makes, and which runs
out at the end of it.  The action is the last segment of the path, and the limits are
those of the actions:

    register 3    login 5    authorize 5 (the limit of a login)
    refresh 10    logout 10    request 3, confirm 3 (of a verification)
    forgot-password 3    reset-password 5

if nothing else is configured; other actions have no limit.  The script of a hit is one
step, at the time of the server.  The log has the answers, the last first.
-/
import ForkRoom.Lib.Expiring
import ForkRoom.Lib.Machine
import ForkRoom.Lib.Throttle
import Mathlib.Algebra.Order.Ring.Rat
import Mathlib.Data.Rat.Floor

namespace ForkRoom

/-- The settings of `app/core/config.py` on these limits, within their bounds. -/
structure AuthRateSettings where
  authRateLimitWindowSeconds : Nat
  registerRateLimitRequests : Nat
  loginRateLimitRequests : Nat
  refreshRateLimitRequests : Nat
  logoutRateLimitRequests : Nat
  verificationRateLimitRequests : Nat
  forgotPasswordRateLimitRequests : Nat
  resetPasswordRateLimitRequests : Nat
  pos : ∀ n ∈ [authRateLimitWindowSeconds, registerRateLimitRequests, loginRateLimitRequests,
    refreshRateLimitRequests, logoutRateLimitRequests, verificationRateLimitRequests,
    forgotPasswordRateLimitRequests, resetPasswordRateLimitRequests], 0 < n

/-- The settings where nothing else is configured. -/
def AuthRateSettings.default : AuthRateSettings := ⟨60, 3, 5, 10, 10, 3, 3, 5, by decide⟩

theorem AuthRateSettings.window_pos (settings : AuthRateSettings) :
    0 < settings.authRateLimitWindowSeconds := settings.pos _ List.mem_cons_self

def AuthRateSettings.limits (settings : AuthRateSettings) : List (String × Nat) :=
  [("register", settings.registerRateLimitRequests),
    ("login", settings.loginRateLimitRequests),
    ("authorize", settings.loginRateLimitRequests),
    ("refresh", settings.refreshRateLimitRequests),
    ("logout", settings.logoutRateLimitRequests),
    ("request", settings.verificationRateLimitRequests),
    ("confirm", settings.verificationRateLimitRequests),
    ("forgot-password", settings.forgotPasswordRateLimitRequests),
    ("reset-password", settings.resetPasswordRateLimitRequests)]

structure RateLimitResult where
  allowed : Bool
  retryAfter : Int
  deriving DecidableEq

namespace AuthRate

abbrev Counters (T : Type) := String → Expiring.Key T Nat

/-- `auth:rate:{action}:{client_ip}` -/
def rateKey (action client : String) : String := "auth:rate:" ++ action ++ ":" ++ client

/-- `path.rsplit("/", maxsplit=1)[-1]` -/
def lastSegment (path : String) : String :=
  String.ofList (path.toList.reverse.takeWhile (· ≠ '/')).reverse

section
variable {T : Type} [Field T] [LinearOrder T]

/-- `TTL`: what is left of the time of a key, which the server rounds to whole seconds. -/
def timeToLive (round : T → Int) (clock : T) (key : Expiring.Key T Nat) : Int :=
  match key.filter (Expiring.Entry.live clock) with
  | none => -2
  | some entry =>
      match entry.expiresAt with
      | none => -1
      | some x => round (x - clock)

/-- `RateLimitRepository.hit` -/
def hit (round : T → Int) (clock : T) (key : String) (limit windowSeconds : Nat)
    (counters : Counters T) : RateLimitResult × Counters T :=
  let counter := (counters key).upsert clock 0 (· + 1)
  let current := counter.contents clock 0
  let counter := if current = 1 then counter.expireIn clock windowSeconds else counter
  (⟨current ≤ limit, max (timeToLive round clock counter) 1⟩, Function.update counters key counter)

/-- A limited request: when, what and whose it was, and after how many seconds it was told
to come again (429), if it was turned away. -/
structure Answer (T : Type) where
  time : T
  action : String
  client : String
  retryAfter : Option Int
  deriving DecidableEq

structure State (T : Type) where
  clock : T
  counters : Counters T
  log : List (Answer T)

def start : State T := ⟨0, fun _ => none, []⟩

inductive Action (T : Type) where
  | tick (clock : T)
  | request (path : String) (client : Option String)

/-- `enforce_auth_rate_limit` -/
def enforceAuthRateLimit (settings : AuthRateSettings) (round : T → Int) (s : State T)
    (path : String) (client : Option String) : State T :=
  let action := lastSegment path
  match settings.limits.lookup action with
  | none => s
  | some limit =>
      let clientIp := client.getD "unknown"
      let (result, counters) := hit round s.clock (rateKey action clientIp) limit
        settings.authRateLimitWindowSeconds s.counters
      let retryAfter := if result.allowed then none else some result.retryAfter
      { s with counters := counters, log := ⟨s.clock, action, clientIp, retryAfter⟩ :: s.log }

def State.step (settings : AuthRateSettings) (round : T → Int) (s : State T) :
    Action T → Option (State T)
  | .tick clock => if s.clock ≤ clock then some { s with clock := clock } else none
  | .request path client => some (enforceAuthRateLimit settings round s path client)

/-- The answers to the requests of a client, the last first. -/
def answers (action client : String) (log : List (Answer T)) : List (T × Option Int) :=
  (log.filter fun a => a.action = action ∧ a.client = client).map fun a => (a.time, a.retryAfter)

/-- Requests in any order. -/
abbrev Run (settings : AuthRateSettings) (round : T → Int) (s s' : State T) : Prop :=
  Machine.Run (State.step settings round) (fun _ _ => True) s s'

end

end AuthRate

end ForkRoom
