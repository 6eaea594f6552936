/-!
The flag that the stored configuration has changed since the relay was last restarted.
-/

namespace RelayControl

structure RestartFlag where
  dirty : Bool := false
  deriving DecidableEq, Repr, Inhabited

namespace RestartFlag

def mark (_ : RestartFlag) : RestartFlag := ⟨true⟩

def consume (f : RestartFlag) : Bool × RestartFlag := (f.dirty, ⟨false⟩)

@[simp] theorem mark_dirty (f : RestartFlag) : f.mark.dirty = true := rfl

@[simp] theorem consume_fst (f : RestartFlag) : f.consume.1 = f.dirty := rfl

@[simp] theorem consume_snd (f : RestartFlag) : f.consume.2.dirty = false := rfl

inductive Use where
  | mark
  | consume
  deriving DecidableEq, Repr

def use (f : RestartFlag) : Use → Option Bool × RestartFlag
  | .mark => (none, f.mark)
  | .consume => let (was, f) := f.consume; (some was, f)

def run (f : RestartFlag) : List Use → List (Option Bool) × RestartFlag
  | [] => ([], f)
  | u :: rest =>
      let (answer, f) := f.use u
      let (answers, f) := run f rest
      (answer :: answers, f)

@[simp] theorem run_nil (f : RestartFlag) : f.run [] = ([], f) := rfl

structure Entry (Caller : Type) where
  caller : Caller
  use : Use
  answer : Option Bool
  deriving DecidableEq, Repr

/-- The flag among its callers. Each has uses to make in its own order, and a use is one step. -/
structure Sharing (Caller : Type) where
  flag : RestartFlag := {}
  pending : Caller → List Use
  journal : List (Entry Caller) := []

namespace Sharing

variable {Caller : Type}

def turn [DecidableEq Caller] (s : Sharing Caller) (caller : Caller) : Sharing Caller :=
  match s.pending caller with
  | [] => s
  | u :: rest =>
      let (answer, flag) := s.flag.use u
      { flag
        pending := fun other => if other = caller then rest else s.pending other
        journal := s.journal ++ [{ caller, use := u, answer }] }

def doneBy [DecidableEq Caller] (s : Sharing Caller) (caller : Caller) : List Use :=
  (s.journal.filter (·.caller = caller)).map (·.use)

end Sharing

end RestartFlag

end RelayControl
