import RelayControl.ControlPlane
import RelayControl.PidFile
import RelayControl.Settings.Load
import RelayControl.Store.Place
import RelayControl.Text.Address

/-!
Starting the program: the settings are loaded, the PID file is claimed, the store is opened, the relay
is started, and the control interface is bound. A relay that does not start is no obstacle.
-/

namespace RelayControl

inductive PathOutcome where
  | usable
  | refused (reason : String)
  deriving DecidableEq, Repr

inductive StoreFlaw where
  | notDatabase
  | readOnly
  /-- The name leaves no room for that of the journal. -/
  | noJournal
  | inputOutput
  | full
  deriving DecidableEq, Repr

inductive DatabaseOutcome where
  | opened
  | noDirectory (reason : String)
  | refused (reason : String)
  | unusable (flaw : StoreFlaw)
  deriving DecidableEq, Repr

inductive StartupProblem where
  | settings (p : LoadProblem)
  | alreadyRunning
  | pidFile (reason : String)
  | directory (reason : String)
  | database (reason : String)
  | unusable (flaw : StoreFlaw)
  | bindAddress
  deriving DecidableEq, Repr

namespace StoreFlaw

def message : StoreFlaw → String
  | .notDatabase => "file is not a database"
  | .readOnly => "attempt to write a readonly database"
  | .noJournal => "unable to open database file"
  | .inputOutput => "disk I/O error"
  | .full => "database or disk is full"

end StoreFlaw

namespace StartupProblem

def message : StartupProblem → String
  | .settings .unreadable => "the settings cannot be read"
  | .settings .malformed => "TOML parse error"
  | .settings (.invalid p) => p.message
  | .alreadyRunning => "Another instance is already running (PID file is locked)"
  | .pidFile reason => reason
  | .directory reason => reason
  | .database _ => "Failed to open database"
  | .unusable flaw => flaw.message
  | .bindAddress => "Invalid control API bind address"

end StartupProblem

structure StartupConditions where
  pidFile : PathOutcome := .usable
  locked : Bool := false
  database : DatabaseOutcome := .opened
  store : Store := {}
  surroundings : Surroundings := {}

namespace Settings

def bindText (s : Settings) : String :=
  s.server.bind ++ ":" ++ toString s.server.adminPort.toNat

def storePlace (s : Settings) : StorePlace := .ofPath s.database.path

end Settings

namespace ControlPlane

def opened (settings : Settings) (store : Store) : ControlPlane := { settings, store }

end ControlPlane

structure Started where
  pidFileWritten : Bool := false
  result : Except StartupProblem ControlPlane
  /-- The control plane as it is when a later step fails. -/
  plane : Option ControlPlane := none

/-- The start from the text of the settings file; without a file, the defaults hold. -/
def start (text : Option String) (at_ : StartupConditions) : Started :=
  let loaded : Except LoadProblem Settings := match text with
    | none => .ok {}
    | some text => Settings.ofFile (some text)
  match loaded with
  | .error p => { result := .error (.settings p) }
  | .ok settings =>
      let claimed : Except StartupProblem Bool :=
        if settings.server.pidFile.isNone then .ok false
        else
          match at_.pidFile with
          | .refused reason => .error (.pidFile reason)
          | .usable => if at_.locked then .error .alreadyRunning else .ok true
      match claimed with
      | .error p => { result := .error p }
      | .ok written =>
          match at_.database with
          | .noDirectory reason =>
              { pidFileWritten := written, result := .error (.directory reason) }
          | .refused reason =>
              { pidFileWritten := written, result := .error (.database reason) }
          | .unusable flaw => { pidFileWritten := written, result := .error (.unusable flaw) }
          | .opened =>
              let (_, plane) :=
                (ControlPlane.opened settings at_.store).restart at_.surroundings false
              if Address.isSocketAddress settings.bindText then
                { pidFileWritten := written, result := .ok plane, plane := some plane }
              else
                { pidFileWritten := written, result := .error .bindAddress, plane := some plane }

/-- The signals that make the program shut down: an interrupt and a termination. -/
def shutdownSignals : List Int := [2, 15]

/-- What a shutdown does: the relay is stopped, whatever comes of it. -/
def shutDown (c : ControlPlane) (w : Surroundings) : ControlPlane := (c.stop w).2

end RelayControl
