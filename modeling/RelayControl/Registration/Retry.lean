import RelayControl.Fault
import RelayControl.Settings

/-!
The retry policy of the registration client. Spans of time are whole nanoseconds up to a largest
span; sums and multiples beyond it stay there.
-/

namespace RelayControl

/-- One nanosecond more than the largest span: as many seconds as 64 bits can tell apart. -/
def Span.bound : Nat := 0x10000000000000000 * 1000000000

structure Span where
  nanos : Nat
  fits : nanos < Span.bound

namespace Span

deriving instance DecidableEq for Span

def ofNanos (n : Nat) : Span :=
  ⟨min n (bound - 1), by unfold bound; omega⟩

@[simp] theorem ofNanos_nanos (n : Nat) : (ofNanos n).nanos = min n (bound - 1) := rfl

def zero : Span := ofNanos 0

instance : Inhabited Span := ⟨zero⟩

def ofMillis (ms : Nat) : Span := ofNanos (ms * 1000000)

def millis (s : Span) : Nat := s.nanos / 1000000

def times (s : Span) (n : Nat) : Span := ofNanos (s.nanos * n)

def plus (s t : Span) : Span := ofNanos (s.nanos + t.nanos)

def atMost (s ceiling : Span) : Span :=
  if s.nanos ≤ ceiling.nanos then s else ceiling

@[simp] theorem times_nanos (s : Span) (n : Nat) :
    (s.times n).nanos = min (s.nanos * n) (bound - 1) := rfl

@[simp] theorem plus_nanos (s t : Span) :
    (s.plus t).nanos = min (s.nanos + t.nanos) (bound - 1) := rfl

@[simp] theorem atMost_nanos (s ceiling : Span) :
    (s.atMost ceiling).nanos = min s.nanos ceiling.nanos := by
  unfold atMost
  split <;> omega

end Span

structure RetryPolicy where
  baseDelay : Span
  maxRetries : UInt32
  maxBackoff : Span
  /-- The largest jitter as a part of the base delay. -/
  jitterFraction : Binary64.Extended
  attemptTimeout : Span
  deriving DecidableEq, Inhabited

namespace RetryPolicy

def ofSettings (r : RetrySettings) : RetryPolicy where
  baseDelay := .ofMillis r.baseDelayMs.toNat
  maxRetries := r.maxRetries
  maxBackoff := .ofMillis r.maxBackoffMs.toNat
  jitterFraction := r.jitterFraction.clampUnit
  attemptTimeout := .ofMillis r.attemptTimeoutMs.toNat

def maxDoublings : Nat := 31

def backoffWithJitter (p : RetryPolicy) (retry : UInt32) (jitter : Span) : Span :=
  ((p.baseDelay.times (Nat.pow 2 (min retry.toNat maxDoublings))).plus jitter).atMost p.maxBackoff

/-- The largest jitter in milliseconds; a product below one leaves none. -/
def maxJitterMs (p : RetryPolicy) : Nat :=
  ((Binary64.Extended.ofInt p.baseDelay.millis).mul p.jitterFraction).toWord64

def backoff (p : RetryPolicy) (retry : UInt32) (draw : Nat) : Span :=
  p.backoffWithJitter retry (.ofMillis (min draw p.maxJitterMs))

def maxAttempts (p : RetryPolicy) : UInt32 :=
  if p.maxRetries.toNat + 1 < 0x100000000 then p.maxRetries + 1 else p.maxRetries

end RetryPolicy

inductive Attempt (α : Type) where
  | body (content : α)
  | unreachable (reason : String)
  | timedOut
  | serverError (status : String)
  | brokenBody (reason : String)
  | rejected (status : UInt16) (content : String)
  deriving Inhabited

namespace Attempt

def outcome (p : RetryPolicy) : Attempt α → Except Fault α
  | .body content => .ok content
  | .unreachable reason => .error (.transport reason)
  | .timedOut =>
      .error (.transport ("attempt timed out after " ++ toString p.attemptTimeout.millis ++ "ms"))
  | .serverError status => .error (.transport ("server returned " ++ status))
  | .brokenBody reason => .error (.transport reason)
  | .rejected status content => .error (.status status content)

end Attempt

structure Retried (α : Type) where
  result : Except Fault α
  attempts : Nat
  delays : List Span

namespace RetryPolicy

/-- The attempts from a retry number on, with `left` more retries allowed. -/
def attemptsFrom (p : RetryPolicy) (attempt : Nat → Attempt α) (draw : Nat → Nat) :
    Nat → Nat → Retried α
  | left, retry =>
      match (attempt retry).outcome p with
      | .ok content => ⟨.ok content, retry + 1, []⟩
      | .error f =>
          if f.retryable then
            match left with
            | 0 => ⟨.error (.exhausted p.maxAttempts f), retry + 1, []⟩
            | left + 1 =>
                let later := p.attemptsFrom attempt draw left (retry + 1)
                { later with delays := p.backoff (.ofNat retry) (draw retry) :: later.delays }
          else ⟨.error f, retry + 1, []⟩

def call (p : RetryPolicy) (attempt : Nat → Attempt α) (draw : Nat → Nat) : Retried α :=
  p.attemptsFrom attempt draw p.maxRetries.toNat 0

end RetryPolicy

end RelayControl
