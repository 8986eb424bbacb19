import Mathlib.Data.List.AList
import Vaulthalla.Foundation.ByteString
import Vaulthalla.Foundation.FixedWindow
import Vaulthalla.Foundation.Transition

namespace Vaulthalla
namespace Share
namespace RateLimiter

open Foundation
open Transition (run Along)

/-!
# The rate limiter of public share commands

Each key has a bucket with the start of its window, the number of checks
allowed in the window, and the time of the last check.  Buckets are dropped
when they have been idle for half an hour, by `prune` or by a check that finds
the table full.  A table that is full even then loses the bucket that was seen
least recently, which may be the bucket of the key being checked.

Times are those of a steady clock, in nanoseconds.  The table is an unordered
map, and among several buckets seen at the same least time the one its
iteration meets first is dropped.  That choice belongs to the call.
-/

structure RateLimitPolicy where
  maxAttempts : Nat
  /-- In seconds. -/
  window : Int
deriving DecidableEq

namespace RateLimitPolicy

def nanoseconds (policy : RateLimitPolicy) : Int :=
  policy.window * 1000000000

end RateLimitPolicy

structure RateLimitDecision where
  allowed : Bool
  remaining : Nat
  /-- In seconds. -/
  retryAfter : Int

structure Bucket where
  (windowStart lastSeen : Int)
  count : Nat
deriving DecidableEq

abbrev Buckets := AList (fun _ : Str => Bucket)

def kMaxBuckets : Nat := 4096

/-- Thirty minutes. -/
def kIdleBucketTtl : Int := 30 * 60 * 1000000000

def keyMessage : Str := str "Rate limit key is required"

def maxAttemptsMessage : Str := str "Rate limit max attempts is required"

def windowMessage : Str := str "Rate limit window is required"

/-! ## Dropping buckets -/

def idle (now : Int) (bucket : Bucket) : Bool :=
  decide (kIdleBucketTtl ≤ now - bucket.lastSeen)

section

variable (buckets : Buckets)

def dropIdle (now : Int) : Buckets :=
  { entries := buckets.entries.filter fun entry => !idle now entry.2
    nodupKeys := buckets.nodupKeys.sublist List.filter_sublist }

/-- The bucket of the key was seen least recently. -/
def isOldest (key : Str) : Bool :=
  match buckets.lookup key with
  | none => false
  | some bucket => buckets.entries.all fun entry => decide (bucket.lastSeen ≤ entry.2.lastSeen)

/-- The key whose bucket makes room for a check, if the table stays full without the idle buckets. -/
def evicted (now : Int) (oldest : Str) : Option Str :=
  if kMaxBuckets ≤ buckets.entries.length ∧ kMaxBuckets ≤ (dropIdle buckets now).entries.length then some oldest
  else none

def makeRoom (now : Int) (oldest : Str) : Option Buckets :=
  if kMaxBuckets ≤ buckets.entries.length then
    let kept := dropIdle buckets now
    if kMaxBuckets ≤ kept.entries.length then
      if isOldest kept oldest then some (kept.erase oldest) else none
    else some kept
  else some buckets

end

/-! ## Calls -/

def newBucket : Bucket := { windowStart := 0, lastSeen := 0, count := 0 }

section

variable (policy : RateLimitPolicy) (now : Int) (bucket : Bucket)

/-- The bucket of the check's own window. -/
def opened : Bucket :=
  if bucket.count = 0 ∨ policy.nanoseconds ≤ now - bucket.windowStart then
    { windowStart := now, lastSeen := now, count := 0 }
  else { bucket with lastSeen := now }

/-- `duration_cast` to seconds rounds towards zero. -/
def retryAfter : Int :=
  let elapsed := (now - bucket.windowStart).tdiv 1000000000
  if policy.window ≤ elapsed then 0 else policy.window - elapsed

def decideBucket : Bucket × RateLimitDecision :=
  if policy.maxAttempts ≤ bucket.count then
    (bucket, { allowed := false, remaining := 0, retryAfter := retryAfter policy now bucket })
  else
    ({ bucket with count := bucket.count + 1 },
      { allowed := true, remaining := policy.maxAttempts - (bucket.count + 1), retryAfter := 0 })

end

def requireCheckable (key : Str) (policy : RateLimitPolicy) : Except Str Unit :=
  if key.isEmpty then .error keyMessage
  else if policy.maxAttempts = 0 then .error maxAttemptsMessage
  else if policy.window ≤ 0 then .error windowMessage
  else .ok ()

section

variable (buckets : Buckets) (key : Str) (policy : RateLimitPolicy) (now : Int)

/-- A check on the table after room was made for it. -/
def check : Buckets × RateLimitDecision :=
  let bucket := opened policy now ((buckets.lookup key).getD newBucket)
  let (counted, decision) := decideBucket policy now bucket
  (buckets.insert key counted, decision)

/-- `peek` leaves the table as it is. -/
def peek : Except Str RateLimitDecision :=
  if key.isEmpty then .error keyMessage
  else if policy.maxAttempts = 0 then .error maxAttemptsMessage
  else
    match buckets.lookup key with
    | none => .ok { allowed := true, remaining := policy.maxAttempts, retryAfter := 0 }
    | some bucket =>
      if policy.nanoseconds ≤ now - bucket.windowStart then
        .ok { allowed := true, remaining := policy.maxAttempts, retryAfter := 0 }
      else if policy.maxAttempts ≤ bucket.count then
        .ok { allowed := false, remaining := 0, retryAfter := retryAfter policy now bucket }
      else .ok { allowed := true, remaining := policy.maxAttempts - bucket.count, retryAfter := 0 }

end

def prune (buckets : Buckets) (now : Int) : Buckets :=
  dropIdle buckets now

/-! ## Runs -/

inductive Call
  /-- A check, with the bucket that goes if the table is full. -/
  | check (key : Str) (policy : RateLimitPolicy) (now : Int) (oldest : Str)
  | peek (key : Str) (policy : RateLimitPolicy) (now : Int)
  | prune (now : Int)

def Call.now : Call -> Int
  | .check _ _ now _ => now
  | .peek _ _ now => now
  | .prune now => now

/-- The answer to a check. -/
structure Answer where
  key : Str
  time : Int
  decision : RateLimitDecision

/-- The table, the time of the latest call, and the checks answered so far, the latest first. -/
structure System where
  buckets : Buckets
  clock : Int
  answers : List Answer

def fresh (clock : Int) : System :=
  { buckets := ∅, clock := clock, answers := [] }

/-- One call.  A call that throws leaves the table as it was. -/
def step (system : System) (call : Call) : Option System :=
  if call.now < system.clock then none
  else
    match call with
    | .check key policy now oldest =>
      match requireCheckable key policy with
      | .error _ => some { system with clock := now }
      | .ok () =>
        (makeRoom system.buckets now oldest).map fun room =>
          let (buckets, decision) := check room key policy now
          { buckets := buckets, clock := now,
            answers := { key := key, time := now, decision := decision } :: system.answers }
    | .peek _ _ now => some { system with clock := now }
    | .prune now => some { system with buckets := prune system.buckets now, clock := now }

/-- What the callers that check a key have seen. -/
def attempts (key : Str) (system : System) : List FixedWindow.Attempt :=
  (system.answers.filter fun answer => answer.key == key).map fun answer =>
    { time := answer.time, admitted := answer.decision.allowed }

end RateLimiter
end Share
end Vaulthalla
