import RelayControl.Proofs.Binary64.Rounding
import RelayControl.Store.Tally

/-!
Counters that leave their range. A counter to which no negative number is added holds the sum as
long as that fits. From then on it is a float, from which no further addition leads back, however
many there are and however they are rounded.
-/

namespace RelayControl

theorem fitsCounter_iff_of_nonneg {n : Int} (nonneg : 0 ≤ n) :
    fitsCounter n = true ↔ n < 0x8000000000000000 := by
  simp only [fitsCounter, Bool.and_eq_true, decide_eq_true_eq]
  omega

namespace Tally

open Binary64

structure Beyond (ceiling : Nat) (x : Binary64) : Prop where
  nonneg : x.negative = false
  least : 2 ^ 63 * unitsPerOne ≤ x.units
  most : x.units ≤ 2 ^ ceiling * unitsPerOne

/-- The counter after numbers with this sum were added. -/
inductive StandsAt (ceiling : Nat) : Tally → Int → Prop
  | whole {n : Int} (nonneg : 0 ≤ n) (fits : n < 0x8000000000000000) :
      StandsAt ceiling (.whole n) n
  | float {x : Binary64} {n : Int} (beyond : Beyond ceiling x) (out : 0x8000000000000000 ≤ n) :
      StandsAt ceiling (.float x) n

theorem Beyond.ofFloat_eq {ceiling : Nat} {x : Binary64} (beyond : Beyond ceiling x) :
    ofFloat x = .float x := by
  have floor : 0x8000000000000000 ≤ x.magnitudeFloor := by
    rw [magnitudeFloor, Nat.le_div_iff_mul_le unitsPerOne_pos]
    exact beyond.least
  rw [ofFloat, toInt?, beyond.nonneg]
  split
  · rename_i n found
    split at found
    · cases found
      exact if_neg (by simpa using floor)
    · cases found
  · rfl

theorem limit_eq : 2 ^ 63 * unitsPerOne = 2 ^ (1083 + 54) := two_pow_mul_unitsPerOne rfl

theorem units_lt {n : Int} (nonneg : 0 ≤ n) (fits : n < 0x8000000000000000) :
    n.natAbs * unitsPerOne < 2 ^ (1083 + 54) := by
  rw [← limit_eq, Nat.mul_lt_mul_right unitsPerOne_pos]
  omega

theorem toFloat_whole {n : Int} (nonneg : 0 ≤ n) (fits : n < 0x8000000000000000) :
    (whole n).toFloat.negative = false ∧
      (whole n).toFloat.units = rounded (n.natAbs * unitsPerOne) := by
  have far := place_le_of_le (units_lt nonneg fits).le
  obtain ⟨x, found, sign, units⟩ := ofInt?_of_nonneg nonneg (by omega)
  rw [toFloat, found]
  exact ⟨sign, units⟩

theorem plus_eq_ofFloat {s t : Tally}
    (unfit : ∀ m n, s = .whole m → t = .whole n → fitsCounter (m + n) = false) :
    s.plus t = ofFloat ((s.toFloat.add? t.toFloat).getD (.zero false)) := by
  unfold plus
  split
  · rename_i m n
    rw [if_neg (Bool.eq_false_iff.mp (unfit m n rfl rfl))]
  · rfl

namespace StandsAt

variable {s t : Tally} {m n : Int} {a b ceiling slack : Nat}

theorem nonneg (stands : StandsAt a t n) : 0 ≤ n := by
  cases stands with
  | whole nonneg _ => exact nonneg
  | float _ out => omega

theorem mono (stands : StandsAt a t n) (above : a ≤ b) : StandsAt b t n := by
  cases stands with
  | whole nonneg fits => exact .whole nonneg fits
  | float beyond out =>
      have higher := Nat.mul_le_mul_right unitsPerOne (Nat.pow_le_pow_right Nat.two_pos above)
      exact .float ⟨beyond.nonneg, beyond.least, beyond.most.trans higher⟩ out

theorem toFloat_nonneg (stands : StandsAt a t n) : t.toFloat.negative = false := by
  cases stands with
  | whole nonneg fits => exact (toFloat_whole nonneg fits).1
  | float beyond _ => exact beyond.nonneg

theorem toFloat_le (stands : StandsAt a t n) (large : 63 ≤ a) :
    t.toFloat.units ≤ 2 ^ a * unitsPerOne := by
  cases stands with
  | whole nonneg fits =>
      rw [(toFloat_whole nonneg fits).2]
      calc rounded (n.natAbs * unitsPerOne) ≤ 2 ^ (1083 + 54) :=
            rounded_le_two_pow_of_lt (units_lt nonneg fits)
        _ = 2 ^ 63 * unitsPerOne := limit_eq.symm
        _ ≤ 2 ^ a * unitsPerOne :=
            Nat.mul_le_mul_right _ (Nat.pow_le_pow_right (by decide) large)
  | float beyond _ => exact beyond.most

theorem limit_le_rounded (left : StandsAt a s m) (right : StandsAt b t n)
    (out : 0x8000000000000000 ≤ m + n) :
    2 ^ (1083 + 54) ≤ rounded (s.toFloat.units + t.toFloat.units) := by
  cases left with
  | float beyond _ =>
      apply two_pow_le_rounded
      rw [← limit_eq]
      exact beyond.least.trans (Nat.le_add_right _ _)
  | whole nonneg fits =>
      cases right with
      | float beyond _ =>
          apply two_pow_le_rounded
          rw [← limit_eq]
          exact beyond.least.trans (Nat.le_add_left _ _)
      | whole nonneg' fits' =>
          rw [(toFloat_whole nonneg fits).2, (toFloat_whole nonneg' fits').2]
          apply two_pow_le_rounded_add (units_lt nonneg fits) (units_lt nonneg' fits')
          rw [← limit_eq, ← Nat.add_mul]
          apply Nat.mul_le_mul_right
          omega

theorem ofFloat_sum (left : StandsAt a s m) (right : StandsAt b t n)
    (out : 0x8000000000000000 ≤ m + n)
    (room : s.toFloat.units + t.toFloat.units ≤
      2 ^ ceiling * unitsPerOne + 2 ^ slack * unitsPerOne)
    (small : slack + 54 ≤ ceiling) (far : ceiling ≤ 900) :
    StandsAt ceiling (ofFloat ((s.toFloat.add? t.toFloat).getD (.zero false))) (m + n) := by
  have top : 2 ^ ceiling * unitsPerOne = 2 ^ (ceiling + 1020 + 54) := two_pow_mul_unitsPerOne rfl
  have rest : 2 ^ slack * unitsPerOne ≤ 2 ^ (ceiling + 1020) := by
    rw [two_pow_mul_unitsPerOne rfl]
    exact Nat.pow_le_pow_right (by decide) (by omega)
  have double : 2 ^ (ceiling + 1075) = 2 * 2 ^ (ceiling + 1020 + 54) := Nat.pow_succ'
  have less : 2 ^ (ceiling + 1020) ≤ 2 ^ (ceiling + 1020 + 54) :=
    Nat.pow_le_pow_right (by decide) (by omega)
  have near : place (s.toFloat.units + t.toFloat.units) ≤ ceiling + 1075 :=
    place_le_of_le (by omega)
  obtain ⟨z, found, sign, units⟩ :=
    add?_of_nonneg left.toFloat_nonneg right.toFloat_nonneg (by omega)
  have beyond : Beyond ceiling z := by
    refine ⟨sign, ?_, ?_⟩
    · rw [units, limit_eq]
      exact limit_le_rounded left right out
    · rw [units, top]
      exact rounded_le_two_pow (by omega)
  rw [found, Option.getD_some, beyond.ofFloat_eq]
  exact .float beyond out

theorem plus_of_room (left : StandsAt a s m) (right : StandsAt b t n)
    (room : s.toFloat.units + t.toFloat.units ≤
      2 ^ ceiling * unitsPerOne + 2 ^ slack * unitsPerOne)
    (small : slack + 54 ≤ ceiling) (far : ceiling ≤ 900) :
    StandsAt ceiling (s.plus t) (m + n) := by
  have leftNonneg := left.nonneg
  have rightNonneg := right.nonneg
  by_cases out : 0x8000000000000000 ≤ m + n
  · rw [plus_eq_ofFloat]
    · exact ofFloat_sum left right out room small far
    · rintro _ _ rfl rfl
      cases left
      cases right
      rw [Bool.eq_false_iff, Ne, fitsCounter_iff_of_nonneg (by omega)]
      omega
  · cases left with
    | float _ past => omega
    | whole _ _ =>
        cases right with
        | float _ past => omega
        | whole _ _ =>
            have fits := (fitsCounter_iff_of_nonneg (n := m + n) (by omega)).mpr (by omega)
            rw [plus_whole fits]
            exact .whole (by omega) (by omega)

theorem of_fits (nonneg : 0 ≤ n) (fits : fitsCounter n = true) : StandsAt a (.whole n) n :=
  .whole nonneg ((fitsCounter_iff_of_nonneg nonneg).mp fits)

theorem entry (left : StandsAt 63 s m) (right : StandsAt 63 t n) :
    StandsAt 64 (s.plus t) (m + n) := by
  have leftMost := left.toFloat_le (Nat.le_refl _)
  have rightMost := right.toFloat_le (Nat.le_refl _)
  have room : s.toFloat.units + t.toFloat.units ≤
      2 ^ 64 * unitsPerOne + 2 ^ 0 * unitsPerOne := by omega
  exact plus_of_room left right room (by decide) (by decide)

/-- However large the counter is, it stays below its ceiling: it absorbs what is added to it. -/
theorem plus (left : StandsAt 120 s m) (right : StandsAt 64 t n) :
    StandsAt 120 (s.plus t) (m + n) := by
  have leftMost := left.toFloat_le (by decide)
  have rightMost := right.toFloat_le (by decide)
  exact plus_of_room left right (Nat.add_le_add leftMost rightMost) (by decide) (by decide)

theorem bytes?_eq (stands : StandsAt a t n) :
    t.bytes? = if fitsCounter n = true then some n else none := by
  have nonneg := stands.nonneg
  simp only [fitsCounter_iff_of_nonneg nonneg]
  cases stands with
  | whole _ fits => rw [if_pos fits, bytes?_whole]
  | float _ out => rw [if_neg (Int.not_lt.mpr out), bytes?_float]

end StandsAt

end Tally

end RelayControl
