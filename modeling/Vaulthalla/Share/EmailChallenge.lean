import Vaulthalla.Foundation.ByteString
import Vaulthalla.Foundation.Pool
import Vaulthalla.Foundation.Transition

namespace Vaulthalla
namespace Share
namespace EmailChallenge

open Foundation
open Transition (run Along run_induction)
open Pool (total)

/-!
# Confirming an email challenge

`confirmEmailChallenge` reads the challenge, then the session, the link and
the recipient, and refuses if any of them does not fit.  It judges from the
challenge it read whether another attempt may be made, compares the code that
was sent with the code hash, and only then counts a wrong code or consumes the
challenge for a right one.  Counting and consuming are two update statements,
each atomic and each with a condition of its own: counting requires attempts
left, consuming does not.

Any number of calls may be under way.  Times are in seconds, and the database
and the service read the same clock.
-/

structure Challenge where
  codeHash : Str
  (attempts maxAttempts : Nat)
  expiresAt : Int
  consumedAt : Option Int
deriving DecidableEq

section

variable (challenge : Challenge) (now : Int)

def Challenge.isExpired : Bool :=
  decide (challenge.expiresAt ≤ now)

def Challenge.canAttempt : Bool :=
  challenge.consumedAt.isNone && !challenge.isExpired now && decide (challenge.attempts < challenge.maxAttempts)

/-- `share_email_challenge_record_attempt`. -/
def recordAttempt : Option Challenge :=
  if challenge.attempts < challenge.maxAttempts ∧ challenge.consumedAt = none ∧ now < challenge.expiresAt then
    some { challenge with attempts := challenge.attempts + 1 }
  else none

/-- `share_email_challenge_consume`. -/
def consume : Option Challenge :=
  if challenge.consumedAt = none ∧ now < challenge.expiresAt then some { challenge with consumedAt := some now }
  else none

end

/-! ## One call -/

/-- Where a call is. -/
inductive Control
  /-- It holds the challenge as it read it. -/
  | loaded (code : Str) (challenge : Challenge)
  /-- The code was wrong, and is to be counted. -/
  | mismatched
  /-- The code was right, and the challenge is to be consumed. -/
  | matched
  /-- The challenge is consumed, and the session is to be verified. -/
  | consumed
  | finished (compared : Bool)
deriving DecidableEq

/-- The call has compared its code with the code hash. -/
def Control.compared : Control -> Bool
  | .loaded _ _ => false
  | .mismatched => true
  | .matched => true
  | .consumed => true
  | .finished compared => compared

def Control.comparedCount (control : Control) : Nat :=
  control.compared.toNat

inductive Event
  /-- The session, the link or the recipient does not fit. -/
  | refuse | compare | recordAttempt | consume
  /-- `verifySession`, with the answer of its statement. -/
  | verify (found : Bool)
deriving DecidableEq

structure Moved where
  challenge : Challenge
  control : Control
  verifies : Bool

section Calls

variable (hashCode : Str -> Str)

def callStep (challenge : Challenge) (now : Int) (control : Control) (event : Event) : Option Moved :=
  match control, event with
  | .loaded _ _, .refuse => some { challenge := challenge, control := .finished false, verifies := false }
  | .loaded code seen, .compare =>
    if seen.canAttempt now then
      -- `verifyCode` compares the length first, then the bytes.
      if hashCode code = seen.codeHash then
        some { challenge := challenge, control := .matched, verifies := false }
      else some { challenge := challenge, control := .mismatched, verifies := false }
    else some { challenge := challenge, control := .finished false, verifies := false }
  | .mismatched, .recordAttempt =>
    some { challenge := (recordAttempt challenge now).getD challenge, control := .finished true, verifies := false }
  | .matched, .consume =>
    match consume challenge now with
    | none => some { challenge := challenge, control := .finished true, verifies := false }
    | some consumed => some { challenge := consumed, control := .consumed, verifies := false }
  | .consumed, .verify found => some { challenge := challenge, control := .finished true, verifies := found }
  | _, _ => none

/-! ## Any number of calls -/

inductive Label
  /-- A new call reads the challenge. -/
  | load (code : Str)
  | call (index : Nat) (event : Event)
  | tick (now : Int)

structure System where
  challenge : Challenge
  now : Int
  calls : List Control
  /-- How many sessions the challenge has verified. -/
  verified : Nat

def step (system : System) (label : Label) : Option System :=
  match label with
  | .load code => some { system with calls := system.calls ++ [.loaded code system.challenge] }
  | .call index event =>
    match system.calls[index]? with
    | none => none
    | some control =>
      (callStep hashCode system.challenge system.now control event).map fun moved =>
        { system with
          challenge := moved.challenge
          calls := system.calls.set index moved.control
          verified := system.verified + moved.verifies.toNat }
  | .tick now => if now < system.now then none else some { system with now := now }

end Calls

/-- A challenge that was created, before the first call on it. -/
structure Initial (system : System) : Prop where
  calls : system.calls = []
  verified : system.verified = 0
  consumedAt : system.challenge.consumedAt = none
  attempts : system.challenge.attempts ≤ system.challenge.maxAttempts

/-- The number of calls that have compared a code with the code hash. -/
def comparisons (system : System) : Nat :=
  total Control.comparedCount system.calls

end EmailChallenge
end Share
end Vaulthalla
