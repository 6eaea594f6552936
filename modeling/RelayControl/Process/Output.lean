import RelayControl.Text.Blank

/-!
The tail of a relay's output: of the lines that were captured, the last ones up to a limit.
-/

namespace RelayControl

structure OutputTail where
  limit : Nat
  lines : List String := []
  deriving DecidableEq, Repr, Inhabited

namespace OutputTail

def evict (t : OutputTail) : OutputTail :=
  if t.lines.length = t.limit then { t with lines := t.lines.drop 1 } else t

def append (t : OutputTail) (line : String) : OutputTail :=
  if 0 < t.limit then { t with lines := t.lines ++ [line] } else t

def push (t : OutputTail) (line : String) : OutputTail := t.evict.append line

def pushAll (t : OutputTail) (lines : List String) : OutputTail := lines.foldl push t

def text (t : OutputTail) : String := String.intercalate "\n" t.lines

@[simp] theorem evict_limit (t : OutputTail) : t.evict.limit = t.limit := by
  unfold evict; split <;> rfl

@[simp] theorem push_limit (t : OutputTail) (line : String) : (t.push line).limit = t.limit := by
  unfold push append; split <;> simp

end OutputTail

end RelayControl
