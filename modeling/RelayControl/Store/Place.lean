import RelayControl.Text.Digit

/-!
Where a store is kept: in a file, or nowhere that outlives the program. A place is a path or, behind
`file:`, a URI, whose parameters say how the file is opened. Main statement: parameters that do not
ask for memory never widen the access.
-/

namespace RelayControl

inductive OpenMode where
  | readOnly
  /-- Only a file that is there already is opened. -/
  | existing
  | create
  | memory
  deriving DecidableEq, Repr

structure StoreFile where
  path : String
  mayCreate : Bool := true
  writable : Bool := true
  /-- A file that must be there, from which a new one takes its permissions. -/
  like : Option String := none
  deriving DecidableEq, Repr

inductive StorePlace where
  /-- The store lasts no longer than the program. -/
  | transient (writable : Bool)
  | file (f : StoreFile)
  | nowhere
  deriving DecidableEq, Repr

namespace OpenMode

def named? : String → Option OpenMode
  | "ro" => some .readOnly
  | "rw" => some .existing
  | "rwc" => some .create
  | "memory" => some .memory
  | _ => none

def rank : OpenMode → Nat
  | .readOnly => 0
  | .existing => 1
  | .create => 2
  | .memory => 3

/-- Whether an access may be asked for where another one holds: memory always, else nothing wider. -/
def permits (held wanted : OpenMode) : Bool :=
  wanted == .memory || decide (wanted.rank ≤ held.rank)

end OpenMode

namespace StorePlace

/--
The text of a part of a URI: a percent sign and two digits stand for one character, and what follows
the character zero is left out.
-/
def decoded : List Char → List Char
  | '%' :: a :: b :: rest =>
      if Text.isHexDigit a && Text.isHexDigit b then
        let n := Text.numeral 16 [a, b]
        if n = 0 then [] else Char.ofNat n :: decoded rest
      else '%' :: decoded (a :: b :: rest)
  | c :: rest => c :: decoded rest
  | [] => []
termination_by cs => cs.length

/-- What follows the authority of a URI, which is the machine itself if it is there at all. -/
def afterAuthority? : List Char → Option (List Char)
  | '/' :: '/' :: rest =>
      let host := String.ofList (rest.takeWhile (· != '/'))
      if host == "" || host == "localhost" then some (rest.dropWhile (· != '/')) else none
  | rest => some rest

def parameters (query : String) : List (String × String) :=
  (query.splitOn "&").filterMap fun part =>
    let cs := part.toList
    let name := String.ofList (decoded (cs.takeWhile (· != '=')))
    if name == "" then none
    else some (name, String.ofList (decoded ((cs.dropWhile (· != '=')).drop 1)))

def narrowed? (access : OpenMode) : String × String → Option OpenMode
  | ("mode", value) => (OpenMode.named? value).filter access.permits
  | ("cache", value) => if value == "shared" || value == "private" then some access else none
  | _ => some access

def accessOf? (access : OpenMode) (parameters : List (String × String)) : Option OpenMode :=
  parameters.foldlM narrowed? access

def systems : List String := ["unix", "unix-none", "unix-dotfile", "unix-excl"]

def memorySystem : String := "memdb"

/-- The number that a text starts with, as far as it has 31 bits. -/
def leadingNumber (cs : List Char) : Nat :=
  let hex := match cs with
    | '0' :: x :: rest => (x == 'x' || x == 'X') && rest.head?.any Text.isHexDigit
    | _ => false
  let n :=
    if hex then Text.numeral 16 ((cs.drop 2).takeWhile Text.isHexDigit)
    else Text.numeral 10 (cs.takeWhile Char.isDigit)
  if n < 0x80000000 then n else 0

def isOn (value : String) : Bool :=
  let cs := value.toList
  if cs.head?.any Char.isDigit then leadingNumber cs % 256 != 0
  else ["on", "yes", "true"].contains value.toLower

def ofUri (uri : List Char) : StorePlace :=
  match afterAuthority? uri with
  | none => .nowhere
  | some rest =>
      let rest := rest.takeWhile (· != '#')
      let given := parameters (String.ofList ((rest.dropWhile (· != '?')).drop 1))
      let path := String.ofList (decoded (rest.takeWhile (· != '?')))
      let system := (given.reverse.lookup "vfs").getD "unix"
      let fixed := (given.lookup "immutable").any isOn
      match accessOf? .create given with
      | none => .nowhere
      | some access =>
          let writable := access != .readOnly
          if !(systems.contains system || system == memorySystem) then .nowhere
          else if path == "" || path == ":memory:" || access == .memory then .transient writable
          else if system == memorySystem then .transient (writable && !fixed)
          else .file
            { path
              mayCreate := access == .create
              writable := writable && !fixed
              like := given.lookup "modeof" }

/-- The place that the settings name. A path that is empty, or the name of memory, is no file. -/
def ofPath (path : String) : StorePlace :=
  match path.toList with
  | 'f' :: 'i' :: 'l' :: 'e' :: ':' :: uri => ofUri uri
  | _ => if path == "" || path == ":memory:" then .transient true else .file { path }

theorem ofPath_empty : ofPath "" = .transient true := by decide

theorem ofPath_memory : ofPath ":memory:" = .transient true := by decide

theorem rank_of_narrowed? {access access' : OpenMode} {p : String × String}
    (file : p ≠ ("mode", "memory")) (h : narrowed? access p = some access') :
    access'.rank ≤ access.rank := by
  unfold narrowed? at h
  split at h
  · next value =>
      obtain ⟨named, allowed⟩ := Option.filter_eq_some_iff.1 h
      have : access' ≠ .memory := by
        rintro rfl
        unfold OpenMode.named? at named
        split at named <;> simp_all
      simpa [OpenMode.permits, this] using allowed
  · grind
  · grind

theorem rank_of_accessOf? {access access' : OpenMode} {ps : List (String × String)}
    (file : ∀ p ∈ ps, p ≠ ("mode", "memory")) (h : accessOf? access ps = some access') :
    access'.rank ≤ access.rank := by
  induction ps generalizing access with
  | nil => simp_all [accessOf?]
  | cons p ps ih =>
      simp only [accessOf?, List.foldlM_cons, Option.bind_eq_bind, Option.bind_eq_some_iff] at h
      obtain ⟨mid, hp, rest⟩ := h
      exact Nat.le_trans (ih (fun q hq => file q (by simp [hq])) rest)
        (rank_of_narrowed? (file p (by simp)) hp)

end StorePlace

end RelayControl
