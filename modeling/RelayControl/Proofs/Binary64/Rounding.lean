import Mathlib.Algebra.Order.Group.Nat
import Mathlib.Algebra.Order.Ring.Nat
import Mathlib.Tactic.Ring
import RelayControl.Binary64

/-!
Rounding, seen in units. The nearest number to a magnitude is found among the multiples of one power
of two. So no magnitude is rounded past a power of two: a sum that reaches one stays there although
its terms were rounded before, and what is small beside one is absorbed by it.
-/

namespace RelayControl

namespace Binary64

/-! The nearest natural number to a quotient. -/

theorem roundHalfEven_cases (num den : Nat) :
    (roundHalfEven num den = num / den ∧ 2 * (num % den) ≤ den) ∨
      (roundHalfEven num den = num / den + 1 ∧ den ≤ 2 * (num % den)) := by
  simp only [roundHalfEven]
  split
  · exact .inl ⟨rfl, by omega⟩
  · split
    · exact .inr ⟨rfl, by omega⟩
    · split
      · exact .inl ⟨rfl, by omega⟩
      · exact .inr ⟨rfl, by omega⟩

theorem div_le_roundHalfEven (num den : Nat) : num / den ≤ roundHalfEven num den := by
  have nearest := roundHalfEven_cases num den
  omega

theorem roundHalfEven_le (num den : Nat) : roundHalfEven num den ≤ num / den + 1 := by
  have nearest := roundHalfEven_cases num den
  omega

theorem roundHalfEven_of_lt_half {num den : Nat} (below : 2 * (num % den) < den) :
    roundHalfEven num den = num / den := by
  rw [roundHalfEven]
  exact if_pos below

theorem roundHalfEven_of_odd {num den : Nat} (reached : den ≤ 2 * (num % den))
    (odd : num / den % 2 = 1) : roundHalfEven num den = num / den + 1 := by
  have notEven : ¬ num / den % 2 = 0 := by omega
  simp only [roundHalfEven, if_neg (Nat.not_lt.mpr reached), if_neg notEven, ite_self]

theorem roundHalfEven_mul {factor : Nat} (positive : 0 < factor) (num den : Nat) :
    roundHalfEven (num * factor) (den * factor) = roundHalfEven num den := by
  have twice : 2 * (num % den * factor) = 2 * (num % den) * factor := by ring
  simp only [roundHalfEven, Nat.mul_div_mul_right _ _ positive, Nat.mul_mod_mul_right, twice,
    Nat.mul_lt_mul_right positive]

theorem le_roundHalfEven_mul (num : Nat) {den : Nat} (positive : 0 < den) :
    2 * num ≤ 2 * (roundHalfEven num den * den) + den := by
  have parts := Nat.div_add_mod' num den
  rcases roundHalfEven_cases num den with ⟨down, near⟩ | ⟨up, near⟩
  · rw [down]
    omega
  · have rest := Nat.mod_lt num positive
    rw [up, Nat.add_mul, Nat.one_mul]
    omega

/-! The power of two whose multiples are the numbers next to a magnitude. -/

def place (q : Nat) : Nat := q.log2 - 52

def rounded (q : Nat) : Nat := roundHalfEven q (2 ^ place q) * 2 ^ place q

theorem lt_two_pow_place (q : Nat) : q < 2 ^ (place q + 53) :=
  Nat.lt_of_lt_of_le Nat.lt_log2_self
    (Nat.pow_le_pow_right (by decide) (by unfold place; omega))

theorem two_pow_place_le {q : Nat} (positive : 0 < place q) : 2 ^ (place q + 52) ≤ q := by
  have top : place q + 52 = q.log2 := by
    unfold place at positive ⊢
    omega
  have nonzero : q ≠ 0 := by
    rintro rfl
    exact absurd positive (by decide)
  rw [top]
  exact Nat.log2_self_le nonzero

theorem place_le {q k : Nat} (below : q < 2 ^ (k + 53)) : place q ≤ k := by
  by_contra beyond
  have least := two_pow_place_le (q := q) (by omega)
  have grown : 2 ^ (k + 53) ≤ 2 ^ (place q + 52) := Nat.pow_le_pow_right (by decide) (by omega)
  omega

theorem place_le_of_le {q k : Nat} (most : q ≤ 2 ^ k) : place q ≤ k :=
  place_le (most.trans_lt (Nat.pow_lt_pow_right (by decide) (by omega)))

theorem le_place {q k : Nat} (reached : 2 ^ (k + 52) ≤ q) : k ≤ place q := by
  have between := Nat.lt_of_le_of_lt reached (lt_two_pow_place q)
  have := (Nat.pow_lt_pow_iff_right (by decide)).mp between
  omega

theorem place_eq {q k : Nat} (reached : 2 ^ (k + 52) ≤ q) (below : q < 2 ^ (k + 53)) :
    place q = k :=
  Nat.le_antisymm (place_le below) (le_place reached)

theorem div_two_pow_place_lt (q : Nat) : q / 2 ^ place q < 2 ^ 53 := by
  rw [Nat.div_lt_iff_lt_mul (Nat.two_pow_pos _), ← Nat.pow_add, Nat.add_comm]
  exact lt_two_pow_place q

theorem le_rounded (q : Nat) : 2 * q ≤ 2 * rounded q + 2 ^ place q :=
  le_roundHalfEven_mul q (Nat.two_pow_pos _)

theorem dvd_rounded (q : Nat) : 2 ^ place q ∣ rounded q := Nat.dvd_mul_left _ _

/-- What is a number itself stays below. -/
theorem le_rounded_of_dvd {v q k : Nat} (multiple : 2 ^ k ∣ v) (short : v < 2 ^ (k + 53))
    (below : v ≤ q) : v ≤ rounded q := by
  have kept : q / 2 ^ place q * 2 ^ place q ≤ rounded q :=
    Nat.mul_le_mul_right _ (div_le_roundHalfEven q _)
  refine Nat.le_trans ?_ kept
  by_cases coarse : place q ≤ k
  · obtain ⟨n, rfl⟩ : 2 ^ place q ∣ v := (Nat.pow_dvd_pow 2 coarse).trans multiple
    rw [Nat.mul_comm]
    apply Nat.mul_le_mul_right
    rw [Nat.le_div_iff_mul_le (Nat.two_pow_pos _), Nat.mul_comm]
    exact below
  · have least := two_pow_place_le (q := q) (by omega)
    calc v ≤ 2 ^ (k + 53) := Nat.le_of_lt short
      _ ≤ 2 ^ (52 + place q) := Nat.pow_le_pow_right (by decide) (by omega)
      _ = 2 ^ 52 * 2 ^ place q := Nat.pow_add 2 52 _
      _ ≤ q / 2 ^ place q * 2 ^ place q := by
        apply Nat.mul_le_mul_right
        rw [Nat.le_div_iff_mul_le (Nat.two_pow_pos _), ← Nat.pow_add, Nat.add_comm]
        exact least

theorem two_pow_le_rounded {q k : Nat} (reached : 2 ^ k ≤ q) : 2 ^ k ≤ rounded q :=
  le_rounded_of_dvd (Nat.dvd_refl _) (Nat.pow_lt_pow_right (by decide) (by omega)) reached

theorem rounded_le_two_pow_of_lt {q k : Nat} (below : q < 2 ^ k) : rounded q ≤ 2 ^ k := by
  have coarse : place q ≤ k := place_le_of_le below.le
  have steps : 2 ^ (k - place q) * 2 ^ place q = 2 ^ k := by
    rw [← Nat.pow_add, Nat.sub_add_cancel coarse]
  have quotient : q / 2 ^ place q < 2 ^ (k - place q) := by
    rw [Nat.div_lt_iff_lt_mul (Nat.two_pow_pos _), steps]
    exact below
  calc rounded q ≤ (q / 2 ^ place q + 1) * 2 ^ place q :=
        Nat.mul_le_mul_right _ (roundHalfEven_le q _)
    _ ≤ 2 ^ (k - place q) * 2 ^ place q := Nat.mul_le_mul_right _ quotient
    _ = 2 ^ k := steps

/-- What is small beside a power of two is absorbed by it. -/
theorem rounded_le_two_pow {q k : Nat} (slack : q ≤ 2 ^ (k + 54) + 2 ^ k) :
    rounded q ≤ 2 ^ (k + 54) := by
  by_cases reached : 2 ^ (k + 54) ≤ q
  · obtain ⟨excess, parts⟩ := Nat.exists_eq_add_of_le reached
    -- the next number is four times as far from the power as the excess may be
    have step : 2 ^ (k + 2) = 4 * 2 ^ k := by rw [Nat.pow_add, Nat.mul_comm]
    have power : 2 ^ (k + 54) = 2 ^ (k + 2) * 2 ^ 52 := (Nat.pow_add 2 (k + 2) 52)
    have room := Nat.two_pow_pos k
    have here : place q = k + 2 := by
      apply place_eq reached
      have double : 2 ^ (k + 2 + 53) = 2 * 2 ^ (k + 54) := Nat.pow_succ'
      omega
    obtain ⟨quotient, remainder⟩ : q / 2 ^ (k + 2) = 2 ^ 52 ∧ q % 2 ^ (k + 2) = excess :=
      (Nat.div_mod_unique (Nat.two_pow_pos _)).mpr ⟨by omega, by omega⟩
    rw [rounded, here, roundHalfEven_of_lt_half (by omega), quotient, power, Nat.mul_comm]
  · exact rounded_le_two_pow_of_lt (Nat.not_le.mp reached)

/-- A magnitude within half a step below a power of two is rounded up to it. -/
theorem two_pow_le_rounded_of_near {q k : Nat} (near : 2 ^ (k + 54) ≤ q + 2 ^ k) :
    2 ^ (k + 54) ≤ rounded q := by
  by_cases reached : 2 ^ (k + 54) ≤ q
  · exact two_pow_le_rounded reached
  · have step : 2 ^ (k + 1) = 2 * 2 ^ k := Nat.pow_succ'
    have power : 2 ^ (k + 54) = 2 ^ (k + 1) * 2 ^ 53 := Nat.pow_add 2 (k + 1) 53
    have half : 2 ^ (k + 54) = 2 * 2 ^ (k + 1 + 52) := Nat.pow_succ'
    have here : place q = k + 1 := by
      apply place_eq
      · have small : 2 ^ k ≤ 2 ^ (k + 1 + 52) := Nat.pow_le_pow_right (by decide) (by omega)
        omega
      · exact Nat.not_le.mp reached
    -- the last number before the power has an odd significand, so that a tie goes up too
    obtain ⟨quotient, remainder⟩ : q / 2 ^ (k + 1) = 2 ^ 53 - 1 ∧
        q % 2 ^ (k + 1) = q - 2 ^ (k + 1) * (2 ^ 53 - 1) :=
      (Nat.div_mod_unique (Nat.two_pow_pos _)).mpr ⟨by omega, by omega⟩
    have up : roundHalfEven q (2 ^ (k + 1)) = 2 ^ 53 := by
      rw [roundHalfEven_of_odd (by omega) (by omega)]
      omega
    rw [rounded, here, up, power, Nat.mul_comm]

/-- A sum that reaches a power of two reaches it although its terms were rounded. -/
theorem two_pow_le_rounded_add {m n k : Nat} (left : m < 2 ^ (k + 54)) (right : n < 2 ^ (k + 54))
    (reached : 2 ^ (k + 54) ≤ m + n) :
    2 ^ (k + 54) ≤ rounded (rounded m + rounded n) := by
  wlog greater : n ≤ m generalizing m n
  · rw [Nat.add_comm (rounded m)]
    exact this right left (by omega) (by omega)
  have half : 2 ^ (k + 54) = 2 * 2 ^ (k + 53) := Nat.pow_succ'
  have step : 2 ^ (k + 1) = 2 * 2 ^ k := Nat.pow_succ'
  have here : place m = k + 1 := by
    apply place_eq
    · have same : k + 1 + 52 = k + 53 := by omega
      rw [same]
      omega
    · exact left
  have lost := le_rounded m
  have multiple := dvd_rounded m
  rw [here] at lost multiple
  have large : 2 ^ (k + 53) ≤ rounded m := two_pow_le_rounded (by omega)
  -- what the greater term lacks, but for half a step, is a number, so the lesser is not below it
  have lacking : 2 ^ (k + 54) - 2 ^ k - rounded m ≤ rounded n := by
    apply le_rounded_of_dvd (k := k)
    · refine Nat.dvd_sub (Nat.dvd_sub ?_ (Nat.dvd_refl _)) ?_
      · exact Nat.pow_dvd_pow 2 (by omega)
      · exact (Nat.pow_dvd_pow 2 (by omega)).trans multiple
    · have room := Nat.two_pow_pos k
      omega
    · omega
  exact two_pow_le_rounded_of_near (by omega)

/-! The numbers. -/

theorem two_pow_mul_shiftLeft (n m : Nat) : 2 ^ n * 1 <<< m = 2 ^ (n + m) := by
  rw [Nat.shiftLeft_eq, Nat.one_mul, Nat.pow_add]

theorem two_pow_mul_unitsPerOne {n k : Nat} (same : n + 1074 = k) :
    2 ^ n * unitsPerOne = 2 ^ k :=
  same ▸ two_pow_mul_shiftLeft n 1074

theorem unitsPerOne_pos : 0 < unitsPerOne := by decide

theorem units_eq (x : Binary64) : x.units = x.significand * 2 ^ x.exponent :=
  Nat.shiftLeft_eq ..

theorem ofRatio?_of_units (negative : Bool) {num den q : Nat} (positive : 0 < den)
    (exact : num * unitsPerOne = q * den) (small : place q < 2045) :
    ∃ x, ofRatio? negative num den = some x ∧ x.negative = negative ∧ x.units = rounded q := by
  have scaled : den <<< place q = 2 ^ place q * den := by rw [Nat.shiftLeft_eq, Nat.mul_comm]
  have exponent : q.log2 - 52 = place q := rfl
  simp only [ofRatio?, exact, Nat.mul_div_cancel _ positive, exponent, scaled,
    roundHalfEven_mul positive]
  have short := div_two_pow_place_lt q
  have atMost := roundHalfEven_le q (2 ^ place q)
  split
  · rename_i carry
    refine ⟨⟨negative, 0x10000000000000, place q + 1, by decide, .inl (by decide), by omega⟩,
      ?_, rfl, ?_⟩
    · exact dif_pos ⟨by decide, .inl (by decide), by omega⟩
    · have same : 0x10000000000000 * 2 ^ (place q + 1) = 0x20000000000000 * 2 ^ place q := by
        rw [Nat.pow_succ']
        omega
      rw [rounded, carry, units_eq]
      exact same
  · rename_i noCarry
    have fits : roundHalfEven q (2 ^ place q) < 0x20000000000000 := by omega
    have normal : 0x10000000000000 ≤ roundHalfEven q (2 ^ place q) ∨ place q = 0 := by
      rcases Nat.eq_zero_or_pos (place q) with least | above
      · exact .inr least
      · left
        refine Nat.le_trans ?_ (div_le_roundHalfEven q _)
        rw [Nat.le_div_iff_mul_le (Nat.two_pow_pos _)]
        have reached := two_pow_place_le above
        rw [Nat.pow_add, Nat.mul_comm] at reached
        exact reached
    exact ⟨⟨negative, _, _, fits, normal, by omega⟩, dif_pos ⟨fits, normal, by omega⟩, rfl,
      units_eq _⟩

theorem add?_of_nonneg {x y : Binary64} (left : x.negative = false) (right : y.negative = false)
    (small : place (x.units + y.units) < 2045) :
    ∃ z, x.add? y = some z ∧ z.negative = false ∧ z.units = rounded (x.units + y.units) := by
  have sum : x.signedUnits + y.signedUnits = ((x.units + y.units : Nat) : Int) := by
    simp [signedUnits, left, right]
  have sign : decide (((x.units + y.units : Nat) : Int) < 0) = false := by
    rw [decide_eq_false_iff_not]
    omega
  simp only [add?, sum, sign, Int.natAbs_natCast]
  exact ofRatio?_of_units false unitsPerOne_pos rfl small

theorem ofInt?_of_nonneg {n : Int} (nonneg : 0 ≤ n)
    (small : place (n.natAbs * unitsPerOne) < 2045) :
    ∃ x, ofInt? n = some x ∧ x.negative = false ∧ x.units = rounded (n.natAbs * unitsPerOne) := by
  have sign : decide (n < 0) = false := by
    rw [decide_eq_false_iff_not]
    omega
  rw [ofInt?, sign]
  exact ofRatio?_of_units false Nat.one_pos (Nat.mul_one _).symm small

end Binary64

end RelayControl
