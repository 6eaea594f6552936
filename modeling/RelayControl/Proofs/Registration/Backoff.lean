import RelayControl.Proofs.Registration.SplitSpans

/-!
The delays before the retries of a call. The largest span stands above every ceiling, so that
saturation never shows: a delay is the base delay doubled for each retry before it, with the jitter
added, up to the ceiling. As long as the delay is doubled, one more doubling makes up for any jitter
within the base delay; from retry number 31 on nothing is doubled, and the jitter decides.
-/

namespace RelayControl

namespace RetryPolicy

variable {p : RetryPolicy} {r s retry : UInt32} {j k jitter : Span}

theorem nanos_backoffWithJitter (p : RetryPolicy) (retry : UInt32) (jitter : Span) :
    (p.backoffWithJitter retry jitter).nanos =
      min (p.baseDelay.nanos * 2 ^ min retry.toNat 31 + jitter.nanos) p.maxBackoff.nanos := by
  have ceiling : p.maxBackoff.nanos ≤ Span.bound - 1 := Nat.le_sub_one_of_lt p.maxBackoff.fits
  have factor : Nat.pow 2 (min retry.toNat maxDoublings) = 2 ^ min retry.toNat 31 := rfl
  rw [backoffWithJitter, Span.atMost_nanos, Span.plus_nanos, Span.times_nanos, factor]
  omega

theorem le_backoffWithJitter (within : p.baseDelay.nanos ≤ p.maxBackoff.nanos) :
    p.baseDelay.nanos ≤ (p.backoffWithJitter retry jitter).nanos := by
  have doubled : p.baseDelay.nanos ≤ p.baseDelay.nanos * 2 ^ min retry.toNat 31 :=
    Nat.le_mul_of_pos_right _ (Nat.two_pow_pos _)
  rw [nanos_backoffWithJitter]
  omega

theorem backoffWithJitter_le (p : RetryPolicy) (retry : UInt32) (jitter : Span) :
    (p.backoffWithJitter retry jitter).nanos ≤ p.maxBackoff.nanos := by
  rw [nanos_backoffWithJitter]
  exact Nat.min_le_right _ _

theorem nanos_ofMillis (ms : UInt64) : (Span.ofMillis ms.toNat).nanos = ms.toNat * 1000000 := by
  have fits : ms.toNat < 0x10000000000000000 := ms.toNat_lt
  rw [Span.ofMillis, Span.ofNanos_nanos, Span.bound]
  omega

/-- Every delay is the one of unbounded arithmetic, also where it is reckoned in seconds and
nanoseconds; under settings that are accepted it lies between the base delay and the ceiling. -/
theorem backoff_exact :
    (∀ (p : RetryPolicy) (retry : UInt32) (jitter : Span),
      (p.backoffWithJitter retry jitter).nanos =
        min (p.baseDelay.nanos * 2 ^ min retry.toNat 31 + jitter.nanos) p.maxBackoff.nanos) ∧
    (∀ (p : RetryPolicy) (retry : UInt32) (jitter : SplitSpan),
      (p.splitBackoff retry jitter).whole = p.backoffWithJitter retry jitter.whole) ∧
    ∀ s : Settings, s.Valid → ∀ (retry : UInt32) (jitter : Span),
      let r := s.registration.retry
      let delay := ((RetryPolicy.ofSettings r).backoffWithJitter retry jitter).nanos
      delay = min (r.baseDelayMs.toNat * 1000000 * 2 ^ min retry.toNat 31 + jitter.nanos)
        (r.maxBackoffMs.toNat * 1000000) ∧
      r.baseDelayMs.toNat * 1000000 ≤ delay ∧ delay ≤ r.maxBackoffMs.toNat * 1000000 := by
  refine ⟨nanos_backoffWithJitter, whole_splitBackoff, fun s valid retry jitter => ?_⟩
  intro r delay
  have base : (RetryPolicy.ofSettings r).baseDelay.nanos = r.baseDelayMs.toNat * 1000000 :=
    nanos_ofMillis r.baseDelayMs
  have ceiling : (RetryPolicy.ofSettings r).maxBackoff.nanos = r.maxBackoffMs.toNat * 1000000 :=
    nanos_ofMillis r.maxBackoffMs
  have within : r.baseDelayMs.toNat * 1000000 ≤ r.maxBackoffMs.toNat * 1000000 :=
    Nat.mul_le_mul_right _ (UInt64.le_iff_toNat_le.mp valid.baseDelay_le)
  rw [← base, ← ceiling] at within ⊢
  exact ⟨nanos_backoffWithJitter _ retry jitter, le_backoffWithJitter within,
    backoffWithJitter_le _ retry jitter⟩

/-- Base delay, ceiling, retry number and jitter as large as they can be. -/
theorem backoff_exact_largest :
    let s : Settings :=
      { registration := { retry :=
          { baseDelayMs := 0xFFFFFFFFFFFFFFFF, maxBackoffMs := 0xFFFFFFFFFFFFFFFF } } }
    s.Valid ∧
    ((RetryPolicy.ofSettings s.registration.retry).backoffWithJitter 0xFFFFFFFF
      (.ofNanos Span.bound)).nanos = 0xFFFFFFFFFFFFFFFF * 1000000 := by
  intro s
  have valid : s.Valid := by decide
  obtain ⟨-, lower, upper⟩ := backoff_exact.2.2 s valid 0xFFFFFFFF (.ofNanos Span.bound)
  exact ⟨valid, Nat.le_antisymm upper lower⟩

theorem mul_two_pow_add_le {base jitter m n : Nat} (bounded : jitter ≤ base) (later : m < n) :
    base * 2 ^ m + jitter ≤ base * 2 ^ n := by
  calc base * 2 ^ m + jitter
      ≤ base * 2 ^ m + base * 2 ^ m :=
        Nat.add_le_add_left (Nat.le_trans bounded (Nat.le_mul_of_pos_right _ (Nat.two_pow_pos m))) _
    _ = base * 2 ^ (m + 1) := by rw [Nat.pow_succ, ← Nat.mul_assoc, Nat.mul_two]
    _ ≤ base * 2 ^ n := Nat.mul_le_mul_left _ (Nat.pow_le_pow_right (by decide) later)

theorem backoffWithJitter_le_of_doubled (bounded : j.nanos ≤ p.baseDelay.nanos)
    (later : r < s) (doubled : r < 31) :
    (p.backoffWithJitter r j).nanos ≤ (p.backoffWithJitter s k).nanos := by
  rw [UInt32.lt_iff_toNat_lt] at later doubled
  have fewer : min r.toNat 31 < min s.toNat 31 := by
    change r.toNat < 31 at doubled
    omega
  have grown := mul_two_pow_add_le bounded fewer
  rw [nanos_backoffWithJitter, nanos_backoffWithJitter]
  omega

theorem nanos_backoffWithJitter_of_le (last : 31 ≤ retry) (jitter : Span) :
    (p.backoffWithJitter retry jitter).nanos =
      min (p.baseDelay.nanos * 2 ^ 31 + jitter.nanos) p.maxBackoff.nanos := by
  have capped : min retry.toNat 31 = 31 := Nat.min_eq_right (UInt32.le_iff_toNat_le.mp last)
  rw [nanos_backoffWithJitter, capped]

theorem backoffWithJitter_le_iff (bounded : j.nanos ≤ p.baseDelay.nanos)
    (later : r < s ∨ r = s ∧ j.nanos ≤ k.nanos) :
    (p.backoffWithJitter r j).nanos ≤ (p.backoffWithJitter s k).nanos ↔
      r < 31 ∨ j.nanos ≤ k.nanos ∨
        p.maxBackoff.nanos ≤ p.baseDelay.nanos * 2 ^ 31 + k.nanos := by
  by_cases doubled : r < 31
  · refine iff_of_true ?_ (.inl doubled)
    obtain later | ⟨rfl, less⟩ := later
    · exact backoffWithJitter_le_of_doubled bounded later doubled
    · rw [nanos_backoffWithJitter, nanos_backoffWithJitter]
      omega
  · have last : 31 ≤ r := UInt32.not_lt.mp doubled
    have last' : 31 ≤ s := by
      obtain later | ⟨rfl, -⟩ := later
      · exact UInt32.le_trans last (UInt32.le_of_lt later)
      · exact last
    rw [nanos_backoffWithJitter_of_le last, nanos_backoffWithJitter_of_le last', or_iff_right doubled]
    omega

def NeverShortens (p : RetryPolicy) : Prop :=
  ∀ (r s : UInt32) (j k : Span), j.nanos ≤ p.baseDelay.nanos → k.nanos ≤ p.baseDelay.nanos →
    r < s ∨ r = s ∧ j.nanos ≤ k.nanos →
    (p.backoffWithJitter r j).nanos ≤ (p.backoffWithJitter s k).nanos

theorem neverShortens_iff (p : RetryPolicy) :
    p.NeverShortens ↔
      p.baseDelay.nanos = 0 ∨ p.maxBackoff.nanos ≤ p.baseDelay.nanos * 2 ^ 31 := by
  constructor
  · intro never
    have none : Span.zero.nanos = 0 := Nat.zero_min _
    have next : (31 : UInt32) < 32 := by decide
    have kept := never 31 32 p.baseDelay .zero (Nat.le_refl _) (by omega) (.inl next)
    rw [backoffWithJitter_le_iff (Nat.le_refl _) (.inl next), none, Nat.add_zero] at kept
    rcases kept with doubled | least | reached
    · exact absurd doubled (by decide)
    · exact .inl (Nat.le_zero.mp least)
    · exact .inr reached
  · intro bound r s j k bounded bounded' later
    rw [backoffWithJitter_le_iff bounded later]
    omega

/-- A later delay is no shorter as long as the delays are doubled, as long as the jitter grows, or once
the ceiling is reached, and only then. So delays never get shorter under a policy whose ceiling is
within the last doubling, and under no other one that waits at all. -/
theorem delays_shorten_only_undoubled (p : RetryPolicy) :
    (∀ (r s : UInt32) (j k : Span), j.nanos ≤ p.baseDelay.nanos → k.nanos ≤ p.baseDelay.nanos →
      r < s ∨ r = s ∧ j.nanos ≤ k.nanos →
      ((p.backoffWithJitter r j).nanos ≤ (p.backoffWithJitter s k).nanos ↔
        r < 31 ∨ j.nanos ≤ k.nanos ∨
          p.maxBackoff.nanos ≤ p.baseDelay.nanos * 2 ^ 31 + k.nanos)) ∧
    (p.NeverShortens ↔
      p.baseDelay.nanos = 0 ∨ p.maxBackoff.nanos ≤ p.baseDelay.nanos * 2 ^ 31) :=
  ⟨fun _ _ _ _ bounded _ later => backoffWithJitter_le_iff bounded later, p.neverShortens_iff⟩

/-- The last doubling makes up for all the jitter. -/
theorem delays_shorten_only_undoubled_lastDoubling :
    let p : RetryPolicy := .ofSettings { baseDelayMs := 1, maxBackoffMs := 4294967296 }
    (p.baseDelay.nanos ≤ p.baseDelay.nanos ∧ Span.zero.nanos ≤ p.baseDelay.nanos ∧
      (30 : UInt32) < 31) ∧
    (p.backoffWithJitter 30 p.baseDelay).nanos ≤ (p.backoffWithJitter 31 .zero).nanos := by
  intro p
  have none : Span.zero.nanos ≤ p.baseDelay.nanos := by decide
  have next : (30 : UInt32) < 31 := by decide
  have kept := (delays_shorten_only_undoubled p).1 30 31 p.baseDelay .zero (Nat.le_refl _) none
    (.inl next)
  exact ⟨⟨Nat.le_refl _, none, next⟩, kept.mpr (.inl next)⟩

/-- One millisecond, doubled as often as it goes: the jitter that was drawn before retry number 31
and not before the next one is missing from the delay. -/
theorem delay_shortens_past_last_doubling :
    let p : RetryPolicy := .ofSettings
      { baseDelayMs := 1, maxRetries := 40, maxBackoffMs := 4294967296,
        jitterFraction := .finite .one }
    let j : Span := .ofMillis 1
    j.nanos ≤ p.baseDelay.nanos ∧ Span.zero.nanos ≤ p.baseDelay.nanos ∧
    p.backoffWithJitter 31 j = .ofMillis 2147483649 ∧
    p.backoffWithJitter 32 .zero = .ofMillis 2147483648 ∧
    p.backoff 31 1 = p.backoffWithJitter 31 j ∧ p.backoff 32 0 = p.backoffWithJitter 32 .zero ∧
    ¬p.NeverShortens := by
  intro p j
  have base : p.baseDelay.nanos = 1000000 := by decide
  have ceiling : p.maxBackoff.nanos = 4294967296000000 := by decide
  have shortens : ¬p.NeverShortens := by
    rw [neverShortens_iff, base, ceiling]
    decide
  exact ⟨by decide, by decide, by decide +kernel, by decide +kernel, by decide +kernel,
    by decide +kernel, shortens⟩

end RetryPolicy

end RelayControl
