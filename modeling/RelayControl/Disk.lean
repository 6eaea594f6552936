import RelayControl.Text.Path

/-!
The file system as far as the program looks at it: which folders and files are there, where a path
leads, and why it leads nowhere. Main statement: no way leads through a file.
-/

namespace RelayControl

/-- A place in the file system: the names on the way from the root. -/
abbrev Spot := List String

structure Disk where
  home : Spot
  folders : List Spot := []
  files : List Spot := []
  /-- Folders in which nothing can be made. -/
  fixed : List Spot := []
  /-- Files that take any text and keep none. -/
  sinks : List Spot := []
  full : List Spot := []
  deriving DecidableEq, Repr, Inhabited

namespace Disk

def maxNameBytes : Nat := 255

def maxPathBytes : Nat := 4095

def noSuchFile : String := "No such file or directory (os error 2)"

def denied : String := "Permission denied (os error 13)"

def notDirectory : String := "Not a directory (os error 20)"

def isDirectory : String := "Is a directory (os error 21)"

def noSpace : String := "No space left on device (os error 28)"

def tooLong : String := "File name too long (os error 36)"

def nulByte : String := "file name contained an unexpected NUL byte"

def isFile (d : Disk) (p : Spot) : Bool :=
  d.files.contains p || d.sinks.contains p || d.full.contains p

/-- Whether a folder is there: those above the home are. -/
def isFolder (d : Disk) (p : Spot) : Bool :=
  p.isPrefixOf d.home || d.folders.contains p || d.fixed.contains p

def isSealed (d : Disk) (p : Spot) : Bool := d.fixed.any (·.isPrefixOf p)

def start (d : Disk) (path : String) : Spot := if path.startsWith "/" then [] else d.home

/-- One name further. A folder that is missing can be made on the way, or ends it. -/
def enter (d : Disk) (make : Bool) (p : Spot) (name : String) : Except String Spot :=
  let next := p ++ [name]
  if d.isFile p then .error notDirectory
  else if name == ".." then .ok p.dropLast
  else if maxNameBytes < name.utf8ByteSize then .error tooLong
  else if d.isFolder next || d.isFile next || (make && !d.isSealed next) then .ok next
  else .error noSuchFile

def folder (d : Disk) (make : Bool) (path : String) : Except String Spot :=
  if path.contains '\x00' then .error nulByte
  else if maxPathBytes < path.utf8ByteSize then .error tooLong
  else
    match (Path.names path).foldlM (d.enter make) (d.start path) with
    | .error reason => .error reason
    | .ok p => if d.isFile p then .error notDirectory else .ok p

def parent (d : Disk) (make : Bool) (path : String) : Except String Spot :=
  let directory := Path.directory path
  if directory == "" then .ok d.home else d.folder make directory

def target (d : Disk) (make : Bool) (path : String) : Except String Spot :=
  if path.contains '\x00' then .error nulByte
  else if path == "" then .error noSuchFile
  else
    match d.parent make path, (Path.names path).getLast? with
    | .error reason, _ => .error reason
    | .ok _, none => .error isDirectory
    | .ok p, some name =>
        let next := p ++ [name]
        if name == ".." || !path.endsWith name || d.isFolder next then .error isDirectory
        else if maxNameBytes < name.utf8ByteSize then .error tooLong
        else if maxPathBytes < path.utf8ByteSize then .error tooLong
        else if d.isSealed next then .error denied
        else if d.full.contains next then .error noSpace
        else .ok next

def isThere (d : Disk) (path : String) : Bool :=
  path != "" && ((Path.names path).foldlM (d.enter false) (d.start path)).isOk

theorem enter_of_isFile {d : Disk} {p : Spot} (h : d.isFile p = true) (make : Bool)
    (name : String) : d.enter make p name = .error notDirectory := by
  simp [enter, h]

theorem isFile_eq_false_of_enter {d : Disk} {make : Bool} {p q : Spot} {name : String}
    (h : d.enter make p name = .ok q) : d.isFile p = false := by
  cases hp : d.isFile p
  · rfl
  · simp [enter_of_isFile hp] at h

/-- No way leads through a file. -/
theorem isFile_eq_false_of_folder {d : Disk} {make : Bool} {path : String} {p : Spot}
    (h : d.folder make path = .ok p) : d.isFile p = false := by
  unfold folder at h
  repeat' split at h
  all_goals simp_all

end Disk

end RelayControl
