/-
# `System.ActionTokens` — one-time links, command by command

`ActionTokenRepository.issue` as its Redis commands, each a step of its own, and
`consume`, whose script is one step.  Any number of calls may be under way, and
keys run out with the clock.

    issue      GET  user key          the digest issued before, if any
               DEL  its token key     only if there was one
               SET  token key         user id, EX ttl
               SET  user key          digest, EX ttl
    consume    GET and DEL of the token key, DEL of the user key if it is current

A token is random, and no two tokens drawn have the same digest.  `issued` are the
tokens whose call has written its last key, in that order; `redeemed` are the
answers of `consume`.
-/
import ForkRoom.Lib.Expiring
import ForkRoom.Lib.Machine
import ForkRoom.Model.Keys
import Mathlib.Algebra.Order.Monoid.Defs
import Mathlib.Logic.Function.Basic

namespace ForkRoom

namespace ActionTokens

/-! ## Keys -/

/-- The keys of the repository. -/
inductive ActionKey where
  | token (purpose digest : String)
  | user (purpose : String) (userId : UUID)
  deriving DecidableEq

def ActionKey.str : ActionKey → String
  | .token purpose digest => "auth:action:" ++ purpose ++ ":token:" ++ digest
  | .user purpose userId => "auth:action:" ++ purpose ++ ":user:" ++ userId.str

/-- The purpose of a key holds no colon: `email-verification`, `password-reset`. -/
def ActionKey.Plain : ActionKey → Prop
  | .token purpose _ | .user purpose _ => ':' ∉ purpose.toList

/-- Different keys are different strings. -/
theorem ActionKey.str_inj {k k' : ActionKey} (hk : k.Plain) (hk' : k'.Plain) (h : k.str = k'.str) :
    k = k' := by
  have hl := congrArg String.toList h
  have hcancel : ∀ l l' : List Char, "auth:action:".toList ++ l = "auth:action:".toList ++ l' →
      l = l' := fun l l' h => List.append_cancel_left h
  cases k with
  | token purpose digest =>
      cases k' with
      | token purpose' digest' =>
          simp only [ActionKey.str, String.toList_append, List.append_assoc] at hl
          obtain ⟨hp, hd⟩ := Text.split_eq hk hk' (hcancel _ _ hl)
          rw [String.toList_inj.mp hp, String.toList_inj.mp (List.append_cancel_left hd)]
      | user purpose' userId' =>
          simp only [ActionKey.str, String.toList_append, List.append_assoc] at hl
          obtain ⟨-, hd⟩ := Text.split_eq hk hk' (hcancel _ _ hl)
          cases (List.cons.inj hd).1
  | user purpose userId =>
      cases k' with
      | token purpose' digest' =>
          simp only [ActionKey.str, String.toList_append, List.append_assoc] at hl
          obtain ⟨-, hd⟩ := Text.split_eq hk hk' (hcancel _ _ hl)
          cases (List.cons.inj hd).1
      | user purpose' userId' =>
          simp only [ActionKey.str, String.toList_append, List.append_assoc] at hl
          obtain ⟨hp, hd⟩ := Text.split_eq hk hk' (hcancel _ _ hl)
          rw [String.toList_inj.mp hp,
            UUID.str_inj (String.toList_inj.mp (List.append_cancel_left hd))]

/-! ## States -/

/-- The next command of an `issue` call. -/
inductive Phase where
  | deleting | settingToken | settingUser | returned
  deriving DecidableEq, Repr

/-- The token key is written. -/
def Phase.written : Phase → Bool
  | .settingUser | .returned => true
  | .deleting | .settingToken => false

/-- A call of `issue` that has read the user key. -/
structure Issue (T : Type) where
  purpose : String
  userId : UUID
  ttlSeconds : T
  digest : String
  previousDigest : Option String
  phase : Phase
  deriving DecidableEq

structure Issued where
  purpose : String
  userId : UUID
  digest : String
  deriving DecidableEq

def Issue.issued {T : Type} (call : Issue T) : Issued := ⟨call.purpose, call.userId, call.digest⟩

structure State (T : Type) where
  clock : T
  tokens : String × String → Expiring.Key T UUID
  users : String × UUID → Expiring.Key T String
  calls : List (Issue T)
  issued : List Issued
  redeemed : List Issued

def start {T : Type} (clock : T) : State T := ⟨clock, fun _ => none, fun _ => none, [], [], []⟩

inductive Action (T : Type) where
  | tick (clock : T)
  | issue (purpose : String) (userId : UUID) (ttlSeconds : T) (token : String)
  | advance (i : Nat)
  | consume (purpose token : String)

section
variable {T : Type} [LinearOrder T] [Add T]

/-- The token can be redeemed for the user. -/
def Redeemable (s : State T) (purpose digest : String) (userId : UUID) : Prop :=
  (s.tokens (purpose, digest)).read s.clock = some userId

/-! ## Steps -/

/-- The first command of `issue`. -/
def issue (s : State T) (purpose : String) (userId : UUID) (ttlSeconds : T) (digest : String) :
    Option (State T) := do
  guard (digest ∉ s.calls.map Issue.digest)
  let previousDigest := (s.users (purpose, userId)).read s.clock
  let phase := if previousDigest.isSome then Phase.deleting else .settingToken
  pure { s with
    calls := s.calls ++ [⟨purpose, userId, ttlSeconds, digest, previousDigest, phase⟩] }

/-- The next command of the `i`-th call. -/
def advance (s : State T) (i : Nat) : Option (State T) := do
  let call ← s.calls[i]?
  match call.phase, call.previousDigest with
  | .deleting, some previousDigest =>
      pure { s with
        tokens := Function.update s.tokens (call.purpose, previousDigest) none
        calls := s.calls.set i { call with phase := .settingToken } }
  | .settingToken, _ =>
      pure { s with
        tokens := Function.update s.tokens (call.purpose, call.digest)
          (.putFor s.clock call.ttlSeconds call.userId)
        calls := s.calls.set i { call with phase := .settingUser } }
  | .settingUser, _ =>
      pure { s with
        users := Function.update s.users (call.purpose, call.userId)
          (.putFor s.clock call.ttlSeconds call.digest)
        calls := s.calls.set i { call with phase := .returned }
        issued := s.issued ++ [call.issued] }
  | _, _ => none

/-- `_CONSUME_SCRIPT` -/
def consume (s : State T) (purpose digest : String) : State T :=
  match (s.tokens (purpose, digest)).read s.clock with
  | none => s
  | some userId =>
      { s with
        tokens := Function.update s.tokens (purpose, digest) none
        users :=
          if (s.users (purpose, userId)).read s.clock = some digest then
            Function.update s.users (purpose, userId) none
          else s.users
        redeemed := s.redeemed ++ [⟨purpose, userId, digest⟩] }

def State.step (digest : String → String) (s : State T) : Action T → Option (State T)
  | .tick clock => if s.clock ≤ clock then some { s with clock := clock } else none
  | .issue purpose userId ttlSeconds token => issue s purpose userId ttlSeconds (digest token)
  | .advance i => advance s i
  | .consume purpose token => some (consume s purpose (digest token))

/-- The user key is gone, or still holds the digest that the call has read, or its token
is gone. -/
def Issue.undisturbed (s : State T) (call : Issue T) : Bool :=
  ((s.users (call.purpose, call.userId)).read s.clock).all fun digest =>
    call.previousDigest = some digest || !(s.tokens (call.purpose, digest)).present s.clock

/-- No call writes the user key over the digest of another call that came in between,
while its token can be redeemed. -/
def Undisturbed (s : State T) : Action T → Prop
  | .advance i => (s.calls[i]?).all fun call =>
      call.phase ≠ .settingUser || call.undisturbed s
  | .tick _ | .issue .. | .consume .. => True

instance (s : State T) : ∀ a : Action T, Decidable (Undisturbed s a)
  | .advance i => inferInstanceAs (Decidable ((s.calls[i]?).all fun call =>
      call.phase ≠ .settingUser || call.undisturbed s))
  | .tick _ | .issue .. | .consume .. => instDecidableTrue

end

end ActionTokens

end ForkRoom
