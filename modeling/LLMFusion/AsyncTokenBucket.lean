import LLMFusion.Lib.Runs
import Mathlib

/-! The token bucket that limits the rate of requests. Times and sizes are in an ordered
field, so that the rounding of floating point numbers is left out. -/

namespace LLMFusion.AsyncTokenBucket
open Runs

variable {K : Type} [Field K] [LinearOrder K]

structure Bucket (K : Type) where
  rateLimit : K
  maxTokens : K
  tokens : K
  lastUpdate : Option K

/-- `__init__`, with `max_tokens or rate_limit` -/
def Bucket.create (rateLimit : K) (maxTokens : Option K) : Bucket K :=
  let capacity := match maxTokens with
    | some tokens => if tokens = 0 then rateLimit else tokens
    | none => rateLimit
  ⟨rateLimit, capacity, capacity, none⟩

/-- The tokens that are new since the last update, up to the capacity. -/
def Bucket.refill (bucket : Bucket K) (now : K) : Bucket K :=
  let elapsed := now - bucket.lastUpdate.getD now
  { bucket with
    tokens := min bucket.maxTokens (bucket.tokens + elapsed * bucket.rateLimit)
    lastUpdate := some now }

/-- How the locked part of `acquire` ends: with the request granted, with a sleep before
it is, or with a sleep before the next round. -/
inductive Outcome (K : Type) where
  | granted
  | pays (waitTime : K)
  | retries (waitTime : K)

/-- The locked part of `acquire`. A request larger than the bucket is debited at once. -/
def Bucket.acquire (bucket : Bucket K) (now numTokens : K) : Bucket K × Outcome K :=
  let refilled := bucket.refill now
  let tokensNeeded := numTokens - refilled.tokens
  if bucket.maxTokens < numTokens then
    ({ refilled with tokens := refilled.tokens - numTokens },
      if 0 < tokensNeeded then .pays (tokensNeeded / bucket.rateLimit) else .granted)
  else if numTokens ≤ refilled.tokens then ({ refilled with tokens := refilled.tokens - numTokens }, .granted)
  else (refilled, .retries (tokensNeeded / bucket.rateLimit))

/-- A call of `acquire`: before the lock, asleep before the next round, asleep after it
was debited, or returned. -/
inductive Task (K : Type) where
  | asking (numTokens : K)
  | resting (numTokens : K) (wakeTime : K)
  | paying (numTokens : K) (wakeTime : K)
  | granted (numTokens : K) (time : K)

/-- The bucket, the clock, the calls, and when the first one came. -/
structure State (K : Type) where
  bucket : Bucket K
  now : K
  tasks : List (Task K)
  started : Option K

def Outcome.task (outcome : Outcome K) (now numTokens : K) : Task K :=
  match outcome with
  | .granted => .granted numTokens now
  | .pays waitTime => .paying numTokens (now + waitTime)
  | .retries waitTime => .resting numTokens (now + waitTime)

def State.enter (state : State K) (before : List (Task K)) (numTokens : K) (after : List (Task K)) : State K where
  bucket := (state.bucket.acquire state.now numTokens).1
  now := state.now
  tasks := before ++ (state.bucket.acquire state.now numTokens).2.task state.now numTokens :: after
  started := some (state.started.getD state.now)

inductive Event (K : Type) where
  | tick
  | call (numTokens : K)
  | enter (numTokens : K)
  | wake (numTokens : K)

/-- The clock is monotone and a sleep is at least as long as asked for. -/
inductive Step : State K → Event K → State K → Prop where
  | tick {state : State K} {time : K} (later : state.now ≤ time) : Step state .tick { state with now := time }
  | call {state : State K} {numTokens : K} (positive : 0 < numTokens) :
      Step state (.call numTokens) { state with tasks := state.tasks ++ [.asking numTokens] }
  | ask {state : State K} {before after : List (Task K)} {numTokens : K}
      (isTask : state.tasks = before ++ .asking numTokens :: after) :
      Step state (.enter numTokens) (state.enter before numTokens after)
  | retry {state : State K} {before after : List (Task K)} {numTokens wakeTime : K}
      (isTask : state.tasks = before ++ .resting numTokens wakeTime :: after) (rested : wakeTime ≤ state.now) :
      Step state (.enter numTokens) (state.enter before numTokens after)
  | wake {state : State K} {before after : List (Task K)} {numTokens wakeTime : K}
      (isTask : state.tasks = before ++ .paying numTokens wakeTime :: after) (rested : wakeTime ≤ state.now) :
      Step state (.wake numTokens) { state with tasks := before ++ .granted numTokens state.now :: after }

/-- A new bucket without calls. -/
def State.initial (rateLimit : K) (maxTokens : Option K) (now : K) : State K :=
  ⟨Bucket.create rateLimit maxTokens, now, [], none⟩

/-- What a call was granted by a time. -/
def Task.grantedBy (time : K) : Task K → K
  | .granted numTokens due => if due ≤ time then numTokens else 0
  | _ => 0

/-- The total size of the requests that were granted by a time. -/
def State.grantedBy (state : State K) (time : K) : K := (state.tasks.map (Task.grantedBy time)).sum

end LLMFusion.AsyncTokenBucket
