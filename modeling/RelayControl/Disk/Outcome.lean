import RelayControl.Disk
import RelayControl.Startup

/-!
What the program meets on a disk: when it writes the configuration of the relay, when it claims its PID
file, and when it opens its store.
-/

namespace RelayControl

namespace Disk

def write (d : Disk) (path : String) : FileOutcome :=
  match d.parent true path with
  | .error reason => .noDirectory reason
  | .ok _ =>
      match d.target true path with
      | .error reason => .refused reason
      | .ok _ => .written

/-- Using the PID file, for which no folder is made. -/
def use (d : Disk) (path : String) : PathOutcome :=
  match d.target false path with
  | .error reason => .refused reason
  | .ok _ => .usable

def withFile (d : Disk) (path : String) : Disk :=
  match d.target false path with
  | .error _ => d
  | .ok p => { d with files := p :: d.files }

def unable : String := "unable to open database file"

def maxStorePathBytes : Nat := 512

def journalBytes : Nat := 8

def bytesOf (p : Spot) : Nat := p.foldl (fun n name => n + 1 + name.utf8ByteSize) 0

/-- One name further to the file of a store: a name back is taken back, a missing one is no obstacle. -/
def storeStep (d : Disk) (p : Spot) (name : String) : Option Spot :=
  let next := p ++ [name]
  if name == ".." then some p.dropLast
  else if d.isFile p || maxNameBytes < name.utf8ByteSize then none
  else if maxStorePathBytes ≤ bytesOf next then none
  else some next

def storeSpot? (d : Disk) (path : String) : Option Spot :=
  (Path.names path).foldlM d.storeStep (d.start path)

/-- Opening a file as a store, where the folders up to a place are made. -/
def openFile (d : Disk) (made : Spot) (f : StoreFile) : DatabaseOutcome :=
  match d.storeSpot? f.path with
  | none => .refused unable
  | some p =>
      let folder := p.dropLast
      let nameBytes := (p.getLast?.getD "").utf8ByteSize
      if p == [] || d.isFolder p || d.isSealed p then .refused unable
      else if maxStorePathBytes < bytesOf p + journalBytes then .refused unable
      else if !(d.isFolder folder || folder.isPrefixOf made) then .refused unable
      else if !f.like.all d.isThere then .refused unable
      else if d.files.contains p then .unusable .notDatabase
      else if !(d.isFile p || f.mayCreate) then .refused unable
      else if !f.writable then .unusable .readOnly
      else if d.full.contains p then .unusable .full
      else if d.sinks.contains p then .unusable .inputOutput
      else if maxNameBytes < nameBytes + journalBytes then .unusable .noJournal
      else .opened

/-- Opening the store: the folder of its path is made, then the place that the path names is opened. -/
def openStore (d : Disk) (s : Settings) : DatabaseOutcome :=
  match d.parent true s.database.path with
  | .error reason => .noDirectory reason
  | .ok made =>
      if s.database.path.contains '\x00' then .refused nulByte
      else
        match s.storePlace with
        | .transient writable => if writable then .opened else .unusable .readOnly
        | .nowhere => .refused unable
        | .file f => d.openFile made f

def storeFile? (d : Disk) (s : Settings) : Option Spot :=
  match s.storePlace with
  | .file f => d.storeSpot? f.path
  | .transient _ | .nowhere => none

/-- The places that a start makes, whatever it comes to: the PID file, and folders and files. -/
def made (d : Disk) (s : Settings) (result : Except StartupProblem ControlPlane) : List Spot :=
  let pid := (s.server.pidFile.bind fun path => (d.target false path).toOption).toList
  let storeFolder := (d.parent true s.database.path).toOption.toList
  let store := pid ++ storeFolder ++ (d.storeFile? s).toList
  let relay := (d.parent true s.process.configPath).toOption.toList ++
    (d.target true s.process.configPath).toOption.toList
  match result with
  | .error (.settings _) | .error (.pidFile _) => []
  | .error .alreadyRunning | .error (.directory _) => pid
  | .error (.database _) => pid ++ storeFolder
  | .error (.unusable _) => store
  | .error .bindAddress | .ok _ => store ++ relay

/-- What a start meets on a disk; the PID file is there before the store is opened. -/
def conditions (d : Disk) (s : Settings) (launch : LaunchConditions) : StartupConditions :=
  let claimed := (s.server.pidFile.map d.withFile).getD d
  { pidFile := (s.server.pidFile.map d.use).getD .usable
    database := claimed.openStore s
    surroundings := { launch := { launch with file := claimed.write s.process.configPath } } }

/-- A store that is kept in no file is opened whenever its folder can be made. -/
theorem openStore_of_transient {d : Disk} {s : Settings} {folder : Spot}
    (place : s.storePlace = .transient true) (parent : d.parent true s.database.path = .ok folder)
    (text : s.database.path.contains '\x00' = false) : d.openStore s = .opened := by
  simp only [openStore, parent, text, place]
  rfl

theorem storeFile?_of_transient (d : Disk) {s : Settings} {writable : Bool}
    (place : s.storePlace = .transient writable) : d.storeFile? s = none := by
  simp [storeFile?, place]

/-- A file that may not be written is never opened as a store. -/
theorem openFile_ne_opened (d : Disk) (folder : Spot) {f : StoreFile} (h : f.writable = false) :
    d.openFile folder f ≠ .opened := by
  unfold openFile
  simp only [h]
  repeat' split
  all_goals simp_all

end Disk

end RelayControl
