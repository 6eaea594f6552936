import Mathlib.Algebra.GroupWithZero.Nat
import RelayControl.Registration.Retry

/-!
Spans of time as clocks keep them: whole seconds in 64 bits, and the nanoseconds that are left over.
A sum or a multiple carries whole seconds over, an overflow of the seconds gives the largest span,
and of two spans the seconds are compared first. This is arithmetic on plain nanoseconds up to the
largest span.
-/

namespace RelayControl

structure SplitSpan where
  seconds : UInt64
  nanos : Fin 1000000000

namespace SplitSpan

def upTo (seconds : Nat) (nanos : Fin 1000000000) : SplitSpan :=
  if seconds < 0x10000000000000000 then ⟨.ofNat seconds, nanos⟩
  else ⟨0xFFFFFFFFFFFFFFFF, 999999999⟩

def plus (s t : SplitSpan) : SplitSpan :=
  let nanos := s.nanos.val + t.nanos.val
  if below : nanos < 1000000000 then upTo (s.seconds.toNat + t.seconds.toNat) ⟨nanos, below⟩
  else upTo (s.seconds.toNat + t.seconds.toNat + 1) ⟨nanos - 1000000000, by omega⟩

def times (s : SplitSpan) (n : UInt32) : SplitSpan :=
  let nanos := s.nanos.val * n.toNat
  upTo (s.seconds.toNat * n.toNat + nanos / 1000000000)
    ⟨nanos % 1000000000, Nat.mod_lt _ (by decide)⟩

def atMost (s ceiling : SplitSpan) : SplitSpan :=
  if s.seconds < ceiling.seconds ∨ s.seconds = ceiling.seconds ∧ s.nanos ≤ ceiling.nanos then s
  else ceiling

def whole (s : SplitSpan) : Span where
  nanos := s.seconds.toNat * 1000000000 + s.nanos.val
  fits := by
    have seconds : s.seconds.toNat < 0x10000000000000000 := s.seconds.toNat_lt
    unfold Span.bound
    omega

def ofSpan (s : Span) : SplitSpan where
  seconds := .ofNat (s.nanos / 1000000000)
  nanos := ⟨s.nanos % 1000000000, Nat.mod_lt _ (by decide)⟩

theorem whole_nanos (s : SplitSpan) :
    s.whole.nanos = s.seconds.toNat * 1000000000 + s.nanos.val := rfl

theorem whole_eq_iff {s : SplitSpan} {t : Span} : s.whole = t ↔ s.whole.nanos = t.nanos := by
  cases t
  rw [Span.mk.injEq]

@[simp] theorem whole_ofSpan (s : Span) : (ofSpan s).whole = s := by
  have fits : s.nanos < 0x10000000000000000 * 1000000000 := s.fits
  have seconds : (UInt64.ofNat (s.nanos / 1000000000)).toNat = s.nanos / 1000000000 :=
    UInt64.toNat_ofNat_of_lt' (by simp only [UInt64.size]; omega)
  rw [whole_eq_iff, whole_nanos, ofSpan, seconds]
  dsimp only
  omega

theorem whole_upTo (seconds : Nat) (nanos : Fin 1000000000) :
    (upTo seconds nanos).whole = .ofNanos (seconds * 1000000000 + nanos.val) := by
  rw [whole_eq_iff, whole_nanos, Span.ofNanos_nanos, Span.bound, upTo]
  split
  · rename_i fits
    rw [UInt64.toNat_ofNat_of_lt' fits]
    dsimp only
    omega
  · change 0xFFFFFFFFFFFFFFFF * 1000000000 + 999999999 = _
    omega

theorem whole_plus (s t : SplitSpan) : (s.plus t).whole = s.whole.plus t.whole := by
  rw [Span.plus, whole_nanos, whole_nanos, plus]
  split
  · rw [whole_upTo]
    apply congrArg Span.ofNanos
    dsimp only
    omega
  · rw [whole_upTo]
    apply congrArg Span.ofNanos
    dsimp only
    omega

theorem whole_times (s : SplitSpan) (n : UInt32) :
    (s.times n).whole = s.whole.times n.toNat := by
  rw [times, whole_upTo, Span.times, whole_nanos]
  apply congrArg Span.ofNanos
  rw [Nat.add_mul, Nat.add_mul, Nat.mul_right_comm, Nat.add_assoc]
  apply congrArg (s.seconds.toNat * 1000000000 * n.toNat + ·)
  exact Nat.div_add_mod' (s.nanos.val * n.toNat) 1000000000

theorem whole_atMost (s ceiling : SplitSpan) :
    (s.atMost ceiling).whole = s.whole.atMost ceiling.whole := by
  have order : (s.seconds < ceiling.seconds ∨
      s.seconds = ceiling.seconds ∧ s.nanos ≤ ceiling.nanos) ↔
      s.whole.nanos ≤ ceiling.whole.nanos := by
    rw [UInt64.lt_iff_toNat_lt, ← UInt64.toNat_inj, Fin.le_def, whole_nanos, whole_nanos]
    omega
  unfold atMost Span.atMost
  rw [apply_ite whole]
  exact if_congr order rfl rfl

end SplitSpan

def doublings (k : Nat) : UInt32 :=
  if 2 ^ k < 0x100000000 then .ofNat (2 ^ k) else 0xFFFFFFFF

theorem toNat_doublings {k : Nat} (few : k ≤ RetryPolicy.maxDoublings) :
    (doublings k).toNat = 2 ^ k := by
  have small : 2 ^ k ≤ 2 ^ 31 := Nat.pow_le_pow_right (by decide) few
  have fits : 2 ^ k < 0x100000000 := by omega
  rw [doublings, if_pos fits, UInt32.toNat_ofNat_of_lt' fits]

namespace RetryPolicy

def splitBackoff (p : RetryPolicy) (retry : UInt32) (jitter : SplitSpan) : SplitSpan :=
  (((SplitSpan.ofSpan p.baseDelay).times (doublings (min retry.toNat maxDoublings))).plus
    jitter).atMost (.ofSpan p.maxBackoff)

theorem whole_splitBackoff (p : RetryPolicy) (retry : UInt32) (jitter : SplitSpan) :
    (p.splitBackoff retry jitter).whole = p.backoffWithJitter retry jitter.whole := by
  have factor := toNat_doublings (Nat.min_le_right retry.toNat maxDoublings)
  rw [splitBackoff, SplitSpan.whole_atMost, SplitSpan.whole_plus, SplitSpan.whole_times, factor,
    SplitSpan.whole_ofSpan, SplitSpan.whole_ofSpan]
  rfl

end RetryPolicy

end RelayControl
