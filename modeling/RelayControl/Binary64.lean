/-!
Finite binary64 numbers in exact natural-number arithmetic. A number is a sign and a multiple of
`2 ^ -1074`; rounding takes a ratio to the nearest such number, ties to the even significand.
-/

namespace RelayControl

/--
The number `± significand * 2 ^ exponent / 2 ^ 1074`, in its one normalised form: the significand
has 53 bits, or fewer at the least exponent.
-/
structure Binary64 where
  negative : Bool
  significand : Nat
  exponent : Nat
  fits : significand < 0x20000000000000
  normal : 0x10000000000000 ≤ significand ∨ exponent = 0
  bounded : exponent ≤ 2045

deriving instance DecidableEq for Binary64

namespace Binary64

/-- The magnitude counted in units of `2 ^ -1074`. -/
def units (x : Binary64) : Nat :=
  x.significand <<< x.exponent

/-- The unit of `units` is one part in this many of one. -/
def unitsPerOne : Nat :=
  1 <<< 1074

def zero (negative : Bool) : Binary64 :=
  ⟨negative, 0, 0, by decide, .inr rfl, by decide⟩

instance : Inhabited Binary64 := ⟨zero false⟩

def isZero (x : Binary64) : Bool :=
  x.significand == 0

/-- Equal as numbers: the two zeros are one number. -/
def same (x y : Binary64) : Bool :=
  x == y || (x.isZero && y.isZero)

@[simp] theorem same_self (x : Binary64) : x.same x = true := by
  simp [same]

def roundHalfEven (num den : Nat) : Nat :=
  let low := num / den
  let twice := 2 * (num % den)
  if twice < den then low
  else if den < twice then low + 1
  else if low % 2 = 0 then low else low + 1

def ofParts? (negative : Bool) (significand exponent : Nat) : Option Binary64 :=
  if h : significand < 0x20000000000000 ∧ (0x10000000000000 ≤ significand ∨ exponent = 0) ∧
      exponent ≤ 2045 then
    some ⟨negative, significand, exponent, h.1, h.2.1, h.2.2⟩
  else
    none

@[simp] theorem ofParts?_parts (x : Binary64) :
    ofParts? x.negative x.significand x.exponent = some x :=
  dif_pos ⟨x.fits, x.normal, x.bounded⟩

/-- The number nearest to `± num / den`; `none` when it is not finite. -/
def ofRatio? (negative : Bool) (num den : Nat) : Option Binary64 :=
  let scaled := num * unitsPerOne
  let exponent := (scaled / den).log2 - 52
  let significand := roundHalfEven scaled (den <<< exponent)
  if significand = 0x20000000000000 then ofParts? negative 0x10000000000000 (exponent + 1)
  else ofParts? negative significand exponent

def digitCount (n : Nat) : Nat :=
  if n = 0 then 0 else (Nat.toDigits 10 n).length

/--
The number nearest to `± digits * 10 ^ exponent`; `none` when it is not finite. Magnitudes whose
leading digit already settles the answer are not expanded.
-/
def ofDecimal? (negative : Bool) (digits : Nat) (exponent : Int) : Option Binary64 :=
  if digits = 0 then some (zero negative)
  else
    let magnitude := (digitCount digits : Int) + exponent
    if magnitude > 400 then none
    else if magnitude < -400 then some (zero negative)
    else if exponent ≥ 0 then ofRatio? negative (digits * Nat.pow 10 exponent.toNat) 1
    else ofRatio? negative digits (Nat.pow 10 (-exponent).toNat)

def mul? (x y : Binary64) : Option Binary64 :=
  ofRatio? (x.negative != y.negative) (x.units * y.units) (unitsPerOne * unitsPerOne)

def signedUnits (x : Binary64) : Int :=
  if x.negative then -(x.units : Int) else x.units

def add? (x y : Binary64) : Option Binary64 :=
  let sum := x.signedUnits + y.signedUnits
  ofRatio? (sum < 0) sum.natAbs unitsPerOne

def ofInt? (n : Int) : Option Binary64 := ofRatio? (n < 0) n.natAbs 1

def magnitudeFloor (x : Binary64) : Nat :=
  x.units / unitsPerOne

def toInt? (x : Binary64) : Option Int :=
  if x.units % unitsPerOne = 0 then
    some (if x.negative then -(x.magnitudeFloor : Int) else x.magnitudeFloor)
  else none

def inUnitInterval (x : Binary64) : Bool :=
  x.isZero || (!x.negative && x.units ≤ unitsPerOne)

def one : Binary64 :=
  ⟨false, 0x10000000000000, 1022, by decide, .inl (by decide), by decide⟩

def half : Binary64 :=
  ⟨false, 0x10000000000000, 1021, by decide, .inl (by decide), by decide⟩

/-- The nearest number between zero and one; either zero stays as it is. -/
def clampUnit (x : Binary64) : Binary64 :=
  if x.inUnitInterval then x
  else if x.negative then zero false
  else one

inductive Extended where
  | finite (x : Binary64)
  | infinite (negative : Bool)
  | nan
  deriving DecidableEq, Inhabited

namespace Extended

def inUnitInterval : Extended → Bool
  | .finite x => x.inUnitInterval
  | _ => false

def clampUnit : Extended → Extended
  | .finite x => .finite x.clampUnit
  | .infinite negative => .finite (if negative then zero false else one)
  | .nan => .nan

def ofInt (n : Int) : Extended :=
  match ofDecimal? (n < 0) n.natAbs 0 with
  | some x => .finite (if n = 0 then zero false else x)
  | none => .infinite (n < 0)

def mul : Extended → Extended → Extended
  | .finite x, .finite y =>
      match x.mul? y with
      | some z => .finite z
      | none => .infinite (x.negative != y.negative)
  | .finite x, .infinite negative | .infinite negative, .finite x =>
      if x.isZero then .nan else .infinite (x.negative != negative)
  | .infinite negative, .infinite other => .infinite (negative != other)
  | _, _ => .nan

/-- The whole part as a number of 64 bits, zero for NaN; what lies outside their range is taken to
its nearer end. -/
def toWord64 : Extended → Nat
  | .finite x => if x.negative then 0 else min x.magnitudeFloor 0xFFFFFFFFFFFFFFFF
  | .infinite negative => if negative then 0 else 0xFFFFFFFFFFFFFFFF
  | .nan => 0

end Extended

end Binary64

end RelayControl
