import RelayControl.Process.Output

/-!
The readers of a relay's two output streams. Each pushes its lines into one tail, line by line, and
holds the lock of the tail from before it makes room until after the line is at the end.
-/

namespace RelayControl

inductive OutputStream where
  | standard
  | errors
  deriving DecidableEq, Repr

inductive PushStage where
  | evicting
  | appending
  | releasing
  deriving DecidableEq, Repr

structure Push where
  stream : OutputStream
  line : String
  stage : PushStage := .evicting
  deriving DecidableEq, Repr

structure Capture where
  tail : OutputTail
  /-- The lines that each reader has not taken up yet. -/
  unread : OutputStream → List String
  lock : Option Push := none
  /-- The lines that were put at the end, the earliest first. -/
  pushed : List (OutputStream × String) := []

namespace Capture

def opened (limit : Nat) (streams : OutputStream → List String) : Capture :=
  { tail := { limit }, unread := streams }

def proceed (c : Capture) (p : Push) : Capture :=
  match p.stage with
  | .evicting => { c with tail := c.tail.evict, lock := some { p with stage := .appending } }
  | .appending =>
      { c with
        tail := c.tail.append p.line
        lock := some { p with stage := .releasing }
        pushed := c.pushed ++ [(p.stream, p.line)] }
  | .releasing => { c with lock := none }

/-- The turn of a reader. It waits while the other one holds the lock, and when it has no line. -/
def turn (c : Capture) (stream : OutputStream) : Capture :=
  match c.lock, c.unread stream with
  | some p, _ => if p.stream = stream then c.proceed p else c
  | none, [] => c
  | none, line :: rest =>
      { c with
        unread := fun other => if other = stream then rest else c.unread other
        lock := some { stream, line } }

def pushedBy (c : Capture) (stream : OutputStream) : List String :=
  (c.pushed.filter (·.1 = stream)).map (·.2)

/-- The line that a reader has taken up and not put at the end yet. -/
def inHand (c : Capture) (stream : OutputStream) : List String :=
  match c.lock with
  | some p => if p.stream = stream ∧ p.stage ≠ .releasing then [p.line] else []
  | none => []

/-- The captured text; who asks for it takes the lock, and waits while a reader holds it. -/
def result? (c : Capture) : Option String :=
  match c.lock with
  | some _ => none
  | none => some c.tail.text

end Capture

end RelayControl
