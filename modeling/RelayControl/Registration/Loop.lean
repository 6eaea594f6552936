import RelayControl.Registration.Retry

/-!
The attempts of a call as they follow one another: an attempt, and after a passing failure a sleep
and the next attempt. The loop counts its retries in 32 bits.
-/

namespace RelayControl

inductive RetryEvent (α : Type) where
  | attempted (outcome : Except Fault α)
  | slept (delay : Span)

inductive RetryStage (α : Type) where
  | attempting
  | sleeping (delay : Span)
  | returning (result : Except Fault α)

structure RetryLoop (α : Type) where
  retry : UInt32 := 0
  made : Nat := 0
  stage : RetryStage α := .attempting
  events : List (RetryEvent α) := []

namespace RetryPolicy

/-- What follows on the outcome of an attempt: only a transport fault is tried again, and not once
all retries are used up. -/
def follow (p : RetryPolicy) (retry : UInt32) (draw : Nat) : Except Fault α → RetryStage α
  | .ok content => .returning (.ok content)
  | .error f =>
      if f.retryable then
        if p.maxRetries ≤ retry then .returning (.error (.exhausted p.maxAttempts f))
        else .sleeping (p.backoff retry draw)
      else .returning (.error f)

end RetryPolicy

namespace RetryLoop

/-- One step of the loop, none once it has returned. The attempts that are going to be made and the
jitter that is going to be drawn are numbered from zero. -/
def step? (p : RetryPolicy) (attempt : Nat → Attempt α) (draw : Nat → Nat) (l : RetryLoop α) :
    Option (RetryLoop α) :=
  match l.stage with
  | .attempting =>
      let outcome := (attempt l.made).outcome p
      some { l with
        made := l.made + 1
        stage := p.follow l.retry (draw l.made) outcome
        events := l.events ++ [.attempted outcome] }
  | .sleeping delay =>
      some { l with
        retry := l.retry + 1
        stage := .attempting
        events := l.events ++ [.slept delay] }
  | .returning _ => none

end RetryLoop

end RelayControl
