/-!
The PID file. A process that starts opens and empties the file, takes its lock without waiting, and
writes its number and the end of the line; the lock lasts until the process ends, and the file goes at
its clean-up. Each of these is one step, and the steps of other processes may come in between.
-/

namespace RelayControl

structure LockedFile where
  content : List Char := []
  holder : Option Nat := none
  deriving DecidableEq, Repr, Inhabited

/-- What a file holds once a text was written at a place: the text stands over what was there, and
what was missing before the place is NUL. Places count characters, as all that is written to the file
are digits and line ends. -/
def overwrite (content : List Char) (place : Nat) (text : List Char) : List Char :=
  content.take place ++ List.replicate (place - content.length) '\x00' ++ text ++
    content.drop (place + text.length)

namespace LockedFile

def emptied (f : LockedFile) : LockedFile := { f with content := [] }

def write (f : LockedFile) (place : Nat) (text : List Char) : LockedFile :=
  { f with content := overwrite f.content place text }

def lockedBy (f : LockedFile) (pid : Nat) : LockedFile := { f with holder := some pid }

def released (f : LockedFile) (pid : Nat) : LockedFile :=
  if f.holder = some pid then { f with holder := none } else f

end LockedFile

inductive PidStage where
  | opened (file : Nat)
  | locked (file : Nat)
  /-- The number is written, and the line is still to be ended. -/
  | numbered (file : Nat)
  | claimed (file : Nat)
  | cleaned (file : Nat)
  /-- Another process held the lock. -/
  | refused
  deriving DecidableEq, Repr

namespace PidStage

def file? : PidStage → Option Nat
  | opened file | locked file | numbered file | claimed file | cleaned file => some file
  | refused => none

def held? : PidStage → Option Nat
  | locked file | numbered file | claimed file | cleaned file => some file
  | opened _ | refused => none

end PidStage

/-- A path, the files that were ever under it, and the processes that use it. -/
structure PidDirectory where
  present : Option Nat := none
  files : List LockedFile := []
  stages : List (Nat × PidStage) := []
  deriving DecidableEq, Repr, Inhabited

inductive PidAction where
  /-- Opens the file under the path, which empties it, or makes one. -/
  | opening (pid : Nat)
  | locking (pid : Nat)
  | numbering (pid : Nat)
  | completing (pid : Nat)
  /-- Removes the file under the path, whichever it is. -/
  | cleaning (pid : Nat)
  /-- The process ends, in whatever way, and its number may be given to another one. -/
  | ending (pid : Nat)
  deriving DecidableEq, Repr

namespace PidDirectory

/-- A path with a file that some earlier process left. -/
def ofContent : Option String → PidDirectory
  | none => {}
  | some content => { present := some 0, files := [{ content := content.toList }] }

def stage? (d : PidDirectory) (pid : Nat) : Option PidStage := d.stages.lookup pid

def setStage (d : PidDirectory) (pid : Nat) (stage : PidStage) : PidDirectory :=
  { d with stages := (pid, stage) :: d.stages.filter (·.1 != pid) }

def dropStage (d : PidDirectory) (pid : Nat) : PidDirectory :=
  { d with stages := d.stages.filter (·.1 != pid) }

def updateFile (d : PidDirectory) (file : Nat) (change : LockedFile → LockedFile) :
    PidDirectory :=
  { d with files := d.files.modify file change }

def withNewFile (d : PidDirectory) : PidDirectory :=
  { d with present := some d.files.length, files := d.files ++ [{}] }

def withoutFile (d : PidDirectory) : PidDirectory := { d with present := none }

def unlocked (d : PidDirectory) (pid : Nat) : PidDirectory :=
  { d with files := d.files.map (·.released pid) }

/-- What is in a file, also in one that is no longer under the path. -/
def text? (d : PidDirectory) (file : Nat) : Option (List Char) :=
  (d.files[file]?).map (·.content)

def content? (d : PidDirectory) : Option String := (d.present.bind d.text?).map String.ofList

def numeral (pid : Nat) : List Char := Nat.toDigits 10 pid

def line (pid : Nat) : List Char := numeral pid ++ ['\n']

/-- The directory after an action; none where the process cannot do it now. -/
def step? (d : PidDirectory) : PidAction → Option PidDirectory
  | .opening pid =>
      match d.stage? pid, d.present with
      | none, some file => some ((d.updateFile file (·.emptied)).setStage pid (.opened file))
      | none, none => some (d.withNewFile.setStage pid (.opened d.files.length))
      | some _, _ => none
  | .locking pid =>
      match d.stage? pid with
      | some (.opened file) =>
          match d.files[file]? with
          | some f =>
              if f.holder = none then
                some ((d.updateFile file (·.lockedBy pid)).setStage pid (.locked file))
              else some (d.setStage pid .refused)
          | none => none
      | _ => none
  | .numbering pid =>
      match d.stage? pid with
      | some (.locked file) =>
          some ((d.updateFile file (·.write 0 (numeral pid))).setStage pid (.numbered file))
      | _ => none
  | .completing pid =>
      match d.stage? pid with
      | some (.numbered file) =>
          some ((d.updateFile file (·.write (numeral pid).length ['\n'])).setStage pid
            (.claimed file))
      | _ => none
  | .cleaning pid =>
      match d.stage? pid with
      | some (.claimed file) => some (d.withoutFile.setStage pid (.cleaned file))
      | _ => none
  | .ending pid =>
      match d.stage? pid with
      | some _ => some ((d.unlocked pid).dropStage pid)
      | none => none

def run? (d : PidDirectory) : List PidAction → Option PidDirectory
  | [] => some d
  | a :: rest => (d.step? a).bind (run? · rest)

/-- A start as one process does it, step by step; tells whether it got the lock. -/
def claim (d : PidDirectory) (pid : Nat) : Bool × PidDirectory :=
  match run? d [.opening pid, .locking pid] with
  | some d =>
      match run? d [.numbering pid, .completing pid] with
      | some d => (true, d)
      | none => (false, d)
  | none => (false, d)

end PidDirectory

end RelayControl
