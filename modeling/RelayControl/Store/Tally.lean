import RelayControl.Binary64

/-!
Stored counters. A counter is a whole number of 64 bits; a sum beyond that range becomes a float,
which can be stored but not read as a number of bytes.
-/

namespace RelayControl

def fitsCounter (n : Int) : Bool := -0x8000000000000000 ≤ n && n < 0x8000000000000000

inductive Tally where
  | whole (n : Int)
  | float (x : Binary64)
  deriving DecidableEq, Inhabited

namespace Tally

def zero : Tally := .whole 0

def toFloat (t : Tally) : Binary64 :=
  match t with
  | .whole n => (Binary64.ofInt? n).getD (.zero false)
  | .float x => x

/-- A float as it is stored: one that is a whole number in range becomes one. -/
def ofFloat (x : Binary64) : Tally :=
  match x.toInt? with
  | some n => if n.natAbs < 0x8000000000000000 then .whole n else .float x
  | none => .float x

def plus (s t : Tally) : Tally :=
  match s, t with
  | .whole m, .whole n =>
      if fitsCounter (m + n) then .whole (m + n)
      else ofFloat (((whole m).toFloat.add? (whole n).toFloat).getD (.zero false))
  | s, t => ofFloat ((s.toFloat.add? t.toFloat).getD (.zero false))

def bytes? : Tally → Option Int
  | .whole n => some n
  | .float _ => none

@[simp] theorem bytes?_whole (n : Int) : (whole n).bytes? = some n := rfl

@[simp] theorem bytes?_float (x : Binary64) : (float x).bytes? = none := rfl

theorem plus_whole {m n : Int} (h : fitsCounter (m + n) = true) :
    (whole m).plus (whole n) = .whole (m + n) :=
  if_pos h

end Tally

end RelayControl
