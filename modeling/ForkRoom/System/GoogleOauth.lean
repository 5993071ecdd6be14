/-
# `System.GoogleOauth` — flows of signing in with Google

The calls of `GoogleOAuthService`, of any browsers and in any order, at the time on the
clock.  A call comes with the text that is drawn for it or given to it, and with what is
outside of the service at its time.  The log has the flows and the redirects, the last
first; a flow is named by its state.
-/
import ForkRoom.Lib.Machine
import ForkRoom.Service.GoogleOauth

namespace ForkRoom

namespace GoogleOauth

inductive Event where
  | begun (state : String) (returnPath : List Char)
  | redirected (state : String) (query : List (String × String)) (url : List Char)
  deriving DecidableEq

/-- The return path that a flow was begun with. -/
def flowOf (state : String) : List Event → Option (List Char)
  | [] => none
  | .begun state' returnPath :: log => if state' = state then some returnPath else flowOf state log
  | .redirected .. :: log => flowOf state log

structure State (T : Type) where
  clock : T
  states : AuthOAuthStates T
  log : List Event

inductive Action (T : Type) where
  | tick (clock : T)
  | begin (outside : GoogleOutside) (returnPath : List Char) (codeVerifier state : String)
  | complete (outside : GoogleOutside) (code state : String) (familyId : UUID) (fresh : FreshJtis)
  | cancel (state providerError : String)

section
variable {T : Type} [Field T] [LinearOrder T] [FloorRing T]

def start (clock : T) : State T := ⟨clock, fun _ => none, []⟩

open GoogleOAuthService in
def State.step (isNetloc : List Char → Bool) (settings : GoogleOAuthSettings)
    (authSettings : AuthSettings) (s : State T) : Action T → Option (State T)
  | .tick clock => if s.clock ≤ clock then some { s with clock := clock } else none
  | .begin outside returnPath codeVerifier state =>
      let (_, states) := begin { outside with isNetloc := isNetloc } settings s.clock returnPath
        codeVerifier state s.states
      match safeReturnPath isNetloc returnPath with
      | .ok _ => some { s with states := states, log := .begun state returnPath :: s.log }
      | .error _ => some { s with states := states }
  | .complete outside code state familyId fresh =>
      match complete outside settings authSettings s.clock code state familyId fresh s.states with
      | (.ok completion, states) => some { s with
          states := states
          log := .redirected state successQuery completion.redirectUrl :: s.log }
      | (.error _, states) => some { s with states := states }
  | .cancel state providerError =>
      match cancel settings s.clock state providerError s.states with
      | (.ok url, states) => some { s with
          states := states
          log := .redirected state (errorQuery providerError) url :: s.log }
      | (.error _, states) => some { s with states := states }

end

end GoogleOauth

end ForkRoom
