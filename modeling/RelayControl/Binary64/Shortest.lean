import RelayControl.Binary64

/-!
The shortest decimal that reads back as a given number, and the layouts it is written in. A layout
is a record, so that each format states its own choices.
-/

namespace RelayControl

namespace Binary64

structure Decimal where
  digits : Nat
  exponent : Int
  deriving DecidableEq, Repr

inductive Tie where
  | even
  | up
  deriving DecidableEq, Repr

/-- The least `k` with `den ≤ num * 10 ^ k`, searched upwards. -/
private def scaleUp (num den : Nat) : Nat → Nat → Nat
  | 0, k => k
  | fuel + 1, k => if den ≤ num * Nat.pow 10 k then k else scaleUp num den fuel (k + 1)

def leadingExponent (x : Binary64) : Int :=
  if unitsPerOne ≤ x.units then (digitCount x.magnitudeFloor : Int) - 1
  else -(scaleUp x.units unitsPerOne 400 0 : Int)

/-- `units / 2 ^ 1074 / 10 ^ exponent` as a numerator and a denominator. -/
private def scaledRatio (x : Binary64) (exponent : Int) : Nat × Nat :=
  if exponent ≥ 0 then (x.units, unitsPerOne * Nat.pow 10 exponent.toNat)
  else (x.units * Nat.pow 10 (-exponent).toNat, unitsPerOne)

def reads (x : Binary64) (d : Decimal) : Bool :=
  ofDecimal? x.negative d.digits d.exponent == some x

def nearestAt (tie : Tie) (x : Binary64) (exponent : Int) : Option Decimal :=
  let (num, den) := scaledRatio x exponent
  let low : Decimal := ⟨num / den, exponent⟩
  let high : Decimal := ⟨num / den + 1, exponent⟩
  let twice := 2 * (num % den)
  let preferLow :=
    if twice < den then true
    else if den < twice then false
    else match tie with
      | .even => num / den % 2 == 0
      | .up => false
  let first := if preferLow then low else high
  let second := if preferLow then high else low
  if reads x first then some first
  else if reads x second then some second
  else none

def exactDecimal (x : Binary64) : Decimal :=
  if x.exponent ≥ 1074 then ⟨x.significand <<< (x.exponent - 1074), 0⟩
  else ⟨x.significand * Nat.pow 5 (1074 - x.exponent), -((1074 - x.exponent : Nat) : Int)⟩

/-- The fewest digits that read back as `x`, the nearest such decimal of that length. -/
def shortest (tie : Tie) (x : Binary64) : Decimal :=
  let lead := leadingExponent x
  match (List.range 17).findSome? fun (n : Nat) => nearestAt tie x (lead - (n : Int)) with
  | some d => d
  | none => exactDecimal x

structure Layout where
  /-- The powers of ten of the leading digit for which no exponent is written. -/
  plainFrom : Int
  plainTo : Int
  /-- Written between the digits and an exponent that is not negative. -/
  positiveMark : String
  negativeMark : String
  tie : Tie

private def strip : Nat → List Char → Int → List Char × Int
  | 0, ds, e => (ds, e)
  | fuel + 1, ds, e =>
      if ds.length > 1 ∧ ds.getLast? = some '0' then strip fuel ds.dropLast (e + 1) else (ds, e)

/-- Writes digits whose leading one stands at the power `lead` of ten without an exponent. -/
private def plain (ds : List Char) (lead : Int) : String :=
  if lead < 0 then
    "0." ++ String.ofList (List.replicate ((-lead).toNat - 1) '0' ++ ds)
  else
    let whole := lead.toNat + 1
    let padded := ds ++ List.replicate (whole - ds.length) '0'
    let fraction := ds.drop whole
    String.ofList (padded.take whole) ++ "." ++
      (if fraction.isEmpty then "0" else String.ofList fraction)

private def scientific (layout : Layout) (ds : List Char) (lead : Int) : String :=
  let head := String.ofList (ds.take 1)
  let tail := ds.drop 1
  let mantissa := if tail.isEmpty then head else head ++ "." ++ String.ofList tail
  mantissa ++ (if lead < 0 then layout.negativeMark else layout.positiveMark) ++
    toString lead.natAbs

def render (layout : Layout) (x : Binary64) : String :=
  let sign := if x.negative then "-" else ""
  if x.isZero then sign ++ "0.0"
  else
    let d := shortest layout.tie x
    let written := Nat.toDigits 10 d.digits
    let (ds, e) := strip written.length written d.exponent
    let lead := e + (ds.length : Int) - 1
    sign ++
      if layout.plainFrom ≤ lead ∧ lead ≤ layout.plainTo then plain ds lead
      else scientific layout ds lead

def Extended.render (layout : Layout) : Extended → String
  | .finite x => x.render layout
  | .infinite negative => if negative then "-inf" else "inf"
  | .nan => "NaN"

end Binary64

end RelayControl
