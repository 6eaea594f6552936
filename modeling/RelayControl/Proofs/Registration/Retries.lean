import RelayControl.Proofs.Registration.Calls
import RelayControl.Registration.Loop

/-!
The loop of a call, whatever its attempts come to. Before its attempt number `k` it has made the `k`
attempts before, has slept after each of them, and counts `k` retries; its counter of 32 bits does
not run over, because `k` stays within the allowed retries. From there the outcome of the attempt
decides, and one of the attempts is the last.
-/

namespace RelayControl

namespace Attempt

def final : Attempt α → Bool
  | .body _ => true
  | .rejected _ _ => true
  | _ => false

variable {p : RetryPolicy} {a : Attempt α}

theorem transport_of_passing (passing : a.final = false) :
    ∃ detail, a.outcome p = .error (.transport detail) := by
  cases a with
  | body content => cases passing
  | rejected status content => cases passing
  | unreachable reason => exact ⟨_, rfl⟩
  | timedOut => exact ⟨_, rfl⟩
  | serverError status => exact ⟨_, rfl⟩
  | brokenBody reason => exact ⟨_, rfl⟩

theorem settled_of_final (last : a.final = true) :
    (∃ content, a.outcome p = .ok content) ∨
    ∃ f, a.outcome p = .error f ∧ f.retryable = false := by
  cases a with
  | body content => exact .inl ⟨content, rfl⟩
  | rejected status content => exact .inr ⟨_, rfl, rfl⟩
  | unreachable reason => cases last
  | timedOut => cases last
  | serverError status => cases last
  | brokenBody reason => cases last

end Attempt

namespace RegistrationRequest

theorem final_attempt (q : RegistrationRequest) (reply : Http.Reply) :
    (q.attempt reply).final = (q.sendable && !reply.passing) := by
  unfold attempt
  cases q.sendable with
  | false => rfl
  | true =>
      cases reply with
      | unreachable reason => rfl
      | silent => rfl
      | answered status content =>
          cases broken : Http.isServerError status <;> cases success : Http.isSuccess status <;>
            simp [Http.Reply.passing, broken, success, Attempt.final]
      | brokenOff status reason =>
          cases broken : Http.isServerError status <;> cases success : Http.isSuccess status <;>
            simp [Http.Reply.passing, broken, success, Attempt.final]

end RegistrationRequest

section

variable (p : RetryPolicy) (attempt : Nat → Attempt α) (draw : Nat → Nat)

namespace RetryPolicy

def pause (k : Nat) : Span := p.backoff (.ofNat k) (draw k)

def retried (k : Nat) : List (RetryEvent α) :=
  (List.range k).flatMap fun i => [.attempted ((attempt i).outcome p), .slept (p.pause draw i)]

theorem retried_succ (k : Nat) :
    p.retried attempt draw (k + 1) =
      p.retried attempt draw k ++
        [.attempted ((attempt k).outcome p)] ++ [.slept (p.pause draw k)] := by
  simp [retried, List.range_succ, List.flatMap_append]

theorem toNat_maxAttempts : p.maxAttempts.toNat = min (p.maxRetries.toNat + 1) 0xFFFFFFFF := by
  have bounded := p.maxRetries.toNat_lt
  unfold maxAttempts
  split
  · rename_i fits
    rw [UInt32.toNat_add, UInt32.toNat_one]
    omega
  · omega

end RetryPolicy

namespace RetryLoop

inductive Ends : RetryLoop α → RetryLoop α → Prop
  | halted {l : RetryLoop α} (halted : l.step? p attempt draw = none) : Ends l l
  | step {l next last : RetryLoop α} (step : l.step? p attempt draw = some next)
      (rest : Ends next last) : Ends l last

def trying (k : Nat) : RetryLoop α where
  retry := .ofNat k
  made := k
  events := p.retried attempt draw k

def returned (k : Nat) (result : Except Fault α) : RetryLoop α where
  retry := .ofNat k
  made := k + 1
  stage := .returning result
  events := p.retried attempt draw k ++ [.attempted ((attempt k).outcome p)]

variable {p attempt draw} {l last : RetryLoop α} {k : Nat}

theorem Ends.unique {other : RetryLoop α} (ends : Ends p attempt draw l last)
    (also : Ends p attempt draw l other) : last = other := by
  induction ends with
  | halted halted =>
      cases also with
      | halted => rfl
      | step step rest => cases halted.symm.trans step
  | step step rest ih =>
      cases also with
      | halted halted => cases halted.symm.trans step
      | step step' rest' =>
          cases step.symm.trans step'
          exact ih rest'

theorem step_trying (k : Nat) :
    (trying p attempt draw k).step? p attempt draw =
      some { trying p attempt draw k with
        made := k + 1
        stage := p.follow (.ofNat k) (draw k) ((attempt k).outcome p)
        events := p.retried attempt draw k ++ [.attempted ((attempt k).outcome p)] } := rfl

theorem ends_of_follow {result : Except Fault α}
    (follow : p.follow (.ofNat k) (draw k) ((attempt k).outcome p) = .returning result) :
    Ends p attempt draw (trying p attempt draw k) (returned p attempt draw k result) := by
  refine .step (step_trying k) ?_
  rw [follow]
  exact .halted rfl

theorem ends_of_final (final : (attempt k).final = true) :
    Ends p attempt draw (trying p attempt draw k)
      (returned p attempt draw k ((attempt k).outcome p)) := by
  apply ends_of_follow
  obtain ⟨content, came⟩ | ⟨f, came, once⟩ := Attempt.settled_of_final (p := p) final
  · simp [came, RetryPolicy.follow]
  · simp [came, RetryPolicy.follow, once]

theorem ends_of_spent {f : Fault} (came : (attempt p.maxRetries.toNat).outcome p = .error f)
    (again : f.retryable = true) :
    Ends p attempt draw (trying p attempt draw p.maxRetries.toNat)
      (returned p attempt draw p.maxRetries.toNat (.error (.exhausted p.maxAttempts f))) := by
  apply ends_of_follow
  simp [came, RetryPolicy.follow, again]

theorem Ends.retry (passing : (attempt k).final = false) (allowed : k < p.maxRetries.toNat)
    (ends : Ends p attempt draw (trying p attempt draw (k + 1)) last) :
    Ends p attempt draw (trying p attempt draw k) last := by
  obtain ⟨detail, came⟩ := Attempt.transport_of_passing (p := p) passing
  have below : ¬ p.maxRetries ≤ UInt32.ofNat k := by
    have bounded : p.maxRetries.toNat < UInt32.size := p.maxRetries.toNat_lt
    rw [UInt32.le_iff_toNat_le, UInt32.toNat_ofNat_of_lt' (by omega)]
    omega
  have follow : p.follow (.ofNat k) (draw k) ((attempt k).outcome p) =
      .sleeping (p.pause draw k) := by
    simp [came, RetryPolicy.follow, below, RetryPolicy.pause]
  have counted : UInt32.ofNat k + 1 = UInt32.ofNat (k + 1) := by simp
  refine .step (step_trying k) (.step ?_ ends)
  rw [follow, step?, trying, trying, RetryPolicy.retried_succ, counted]

theorem Ends.of_passing (passing : ∀ i < k, (attempt i).final = false)
    (allowed : k ≤ p.maxRetries.toNat)
    (ends : Ends p attempt draw (trying p attempt draw k) last) : Ends p attempt draw {} last := by
  induction k with
  | zero => exact ends
  | succ k ih =>
      exact ih (fun i before => passing i (by omega)) (by omega)
        (ends.retry (passing k (by omega)) allowed)

end RetryLoop

namespace RetryPolicy

variable {p attempt draw} {k : Nat}

theorem attemptsFrom_of_final (final : (attempt k).final = true) (left : Nat) :
    p.attemptsFrom attempt draw left k = ⟨(attempt k).outcome p, k + 1, []⟩ := by
  unfold attemptsFrom
  obtain ⟨content, came⟩ | ⟨f, came, once⟩ := Attempt.settled_of_final (p := p) final
  · simp [came]
  · simp [came, once]

theorem attemptsFrom_of_spent {f : Fault} (came : (attempt k).outcome p = .error f)
    (again : f.retryable = true) :
    p.attemptsFrom attempt draw 0 k = ⟨.error (.exhausted p.maxAttempts f), k + 1, []⟩ := by
  unfold attemptsFrom
  simp [came, again]

theorem attemptsFrom_of_passing (passing : (attempt k).final = false) (left : Nat) :
    p.attemptsFrom attempt draw (left + 1) k =
      { p.attemptsFrom attempt draw left (k + 1) with
        delays := p.pause draw k :: (p.attemptsFrom attempt draw left (k + 1)).delays } := by
  obtain ⟨detail, came⟩ := Attempt.transport_of_passing (p := p) passing
  rw [attemptsFrom]
  simp [came, pause]

theorem call_of_passing (passing : ∀ i < k, (attempt i).final = false) (left : Nat)
    (allowed : p.maxRetries.toNat = left + k) :
    p.call attempt draw =
      { p.attemptsFrom attempt draw left k with
        delays := (List.range k).map (p.pause draw) ++
          (p.attemptsFrom attempt draw left k).delays } := by
  induction k generalizing left with
  | zero => simp [call, allowed]
  | succ k ih =>
      rw [ih (fun i before => passing i (by omega)) (left + 1) (by omega),
        attemptsFrom_of_passing (passing k (by omega)) left]
      simp [List.range_succ]

end RetryPolicy

end

/-- A call with its loop: it makes its attempts up to number `k`, sleeps in between and nowhere else,
and returns the result. -/
structure RetryPolicy.Makes (p : RetryPolicy) (attempt : Nat → Attempt α) (draw : Nat → Nat)
    (k : Nat) (result : Except Fault α) : Prop where
  ends : RetryLoop.Ends p attempt draw {} (RetryLoop.returned p attempt draw k result)
  call : p.call attempt draw = ⟨result, k + 1, (List.range k).map (p.pause draw)⟩

namespace RetryPolicy

variable {p : RetryPolicy} {attempt : Nat → Attempt α} {draw : Nat → Nat} {k : Nat}

theorem makes_of_final (passing : ∀ i < k, (attempt i).final = false)
    (allowed : k ≤ p.maxRetries.toNat) (final : (attempt k).final = true) :
    p.Makes attempt draw k ((attempt k).outcome p) where
  ends := .of_passing passing allowed (RetryLoop.ends_of_final final)
  call := by
    rw [call_of_passing passing (p.maxRetries.toNat - k) (by omega),
      attemptsFrom_of_final final, List.append_nil]

theorem makes_of_spent (passing : ∀ i ≤ p.maxRetries.toNat, (attempt i).final = false) :
    ∃ detail, (attempt p.maxRetries.toNat).outcome p = .error (.transport detail) ∧
      p.Makes attempt draw p.maxRetries.toNat
        (.error (.exhausted p.maxAttempts (.transport detail))) := by
  obtain ⟨detail, came⟩ := Attempt.transport_of_passing (p := p) (passing _ (Nat.le_refl _))
  have before : ∀ i < p.maxRetries.toNat, (attempt i).final = false :=
    fun i below => passing i (Nat.le_of_lt below)
  refine ⟨detail, came, ?_, ?_⟩
  · exact .of_passing before (Nat.le_refl _) (RetryLoop.ends_of_spent came rfl)
  · rw [call_of_passing before 0 (by omega), attemptsFrom_of_spent came rfl,
      List.append_nil]

theorem first_final_cases (attempt : Nat → Attempt α) (most : Nat) :
    (∀ i ≤ most, (attempt i).final = false) ∨
    ∃ k ≤ most, (∀ i < k, (attempt i).final = false) ∧ (attempt k).final = true := by
  by_cases some : ∃ k, k ≤ most ∧ (attempt k).final = true
  · obtain ⟨upper, final⟩ := Nat.find_spec some
    refine .inr ⟨Nat.find some, upper, fun i before => ?_, final⟩
    have not := Nat.find_min some before
    simpa [Nat.le_trans (Nat.le_of_lt before) upper] using not
  · exact .inl fun i upper => by simpa [upper] using fun final => some ⟨i, upper, final⟩

theorem ends_of_makes {result : Except Fault α} (makes : p.Makes attempt draw k result) :
    ∃! last, RetryLoop.Ends p attempt draw {} last :=
  ⟨_, makes.ends, fun _ ends => ends.unique makes.ends⟩

/-- The first final outcome within the allowed retries is what a call returns, after as many attempts
as it takes. Where there is none, all allowed attempts are made, and the call returns their number,
as far as 32 bits count, and the fault of the last one. Either way the loop comes to an end. -/
theorem call_until_final_or_spent (p : RetryPolicy) (attempt : Nat → Attempt α)
    (draw : Nat → Nat) :
    (∀ k ≤ p.maxRetries.toNat, (∀ i < k, (attempt i).final = false) → (attempt k).final = true →
      p.Makes attempt draw k ((attempt k).outcome p)) ∧
    ((∀ i ≤ p.maxRetries.toNat, (attempt i).final = false) →
      ∃ attempts detail,
        attempts.toNat = min (p.maxRetries.toNat + 1) 0xFFFFFFFF ∧
        (attempt p.maxRetries.toNat).outcome p = .error (.transport detail) ∧
        p.Makes attempt draw p.maxRetries.toNat
          (.error (.exhausted attempts (.transport detail)))) ∧
    (∃! last, RetryLoop.Ends p attempt draw {} last) ∧
    ∀ (q : RegistrationRequest) (reply : Http.Reply),
      (q.attempt reply).final = (q.sendable && !reply.passing) := by
  refine ⟨fun k allowed passing final => makes_of_final passing allowed final, fun passing => ?_, ?_,
    RegistrationRequest.final_attempt⟩
  · obtain ⟨detail, came, makes⟩ := makes_of_spent passing
    exact ⟨p.maxAttempts, detail, p.toNat_maxAttempts, came, makes⟩
  · obtain none | ⟨k, allowed, passing, final⟩ := first_final_cases attempt p.maxRetries.toNat
    · obtain ⟨detail, came, makes⟩ := makes_of_spent none
      exact ends_of_makes makes
    · exact ends_of_makes (makes_of_final passing allowed final)

theorem call_until_final_or_spent_unavailable :
    (RetryPolicy.ofSettings { maxRetries := 2 }).Makes
      (fun n => if n < 2 then .serverError "503 Service Unavailable" else .body "device")
      (fun _ => 0) 2 (.ok "device") ∧
    ∃ attempts detail, attempts.toNat = 3 ∧
      (RetryPolicy.ofSettings { maxRetries := 2 }).Makes
        (fun _ => (.serverError "503 Service Unavailable" : Attempt String)) (fun _ => 0) 2
        (.error (.exhausted attempts (.transport detail))) := by
  constructor
  · exact (call_until_final_or_spent (.ofSettings { maxRetries := 2 })
      (fun n => if n < 2 then .serverError "503 Service Unavailable" else .body "device")
      fun _ => 0).1 2 (by decide) (by decide) rfl
  · obtain ⟨attempts, detail, count, -, makes⟩ :=
      (call_until_final_or_spent (.ofSettings { maxRetries := 2 })
        (fun _ => (.serverError "503 Service Unavailable" : Attempt String)) fun _ => 0).2.1
        fun _ _ => rfl
    exact ⟨attempts, detail, count, makes⟩

end RetryPolicy

end RelayControl
