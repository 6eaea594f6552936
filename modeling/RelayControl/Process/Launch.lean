import RelayControl.Process.Output
import RelayControl.Relay.Config.Encode
import RelayControl.Relay.Config.Lookup
import RelayControl.Fault
import RelayControl.Settings
import RelayControl.Json.Printer
import RelayControl.Text.Path

/-!
Launching a relay process: its configuration is written, its version is asked for, and the program
is started. What the system answers to each of these is given.
-/

namespace RelayControl

structure RelayProcess where
  id : Nat
  /-- Its number with the system. -/
  pid : Nat
  config : RelayConfig
  version : String
  controlPort : Option UInt16
  output : OutputTail
  running : Bool := true
  /-- Set once the process ended by itself. -/
  failure : Option ProcessFailure := none
  deriving Inhabited

inductive FileOutcome where
  | written
  | noDirectory (reason : String)
  | refused (reason : String)
  deriving DecidableEq, Repr

inductive VersionProbe where
  | answered (output : String)
  | failed
  deriving DecidableEq, Repr

structure LaunchConditions where
  file : FileOutcome := .written
  probe : VersionProbe := .failed
  /-- The number that the system gives the process, or why it gives none. -/
  spawn : Except String Nat := .ok 0

/-- What came of a launch: the text in the file, if it was written, and the process. -/
structure Launch where
  written : Option String
  result : Except Fault RelayProcess

namespace RelayProcess

def unknownVersion : String := "Unknown"

def versionOf (output : String) : String :=
  ((Text.lines output).head?.bind fun line => (Text.words line)[1]?).getD unknownVersion

def versionAfter : VersionProbe → String
  | .answered output => versionOf output
  | .failed => unknownVersion

def launch (p : ProcessSettings) (at_ : LaunchConditions) (id : Nat) (config : RelayConfig) :
    Launch :=
  match at_.file with
  | .noDirectory reason =>
      ⟨none, .error (.startFailed
        ("failed to create " ++ Path.directory p.configPath ++ ": " ++ reason))⟩
  | .refused reason =>
      ⟨none, .error (.startFailed ("failed to write " ++ p.configPath ++ ": " ++ reason))⟩
  | .written =>
      ⟨some config.toJson.pretty,
        match at_.spawn with
        | .error reason => .error (.startFailed (p.binary ++ ": " ++ reason))
        | .ok pid => .ok
            { id, pid, config
              version := versionAfter at_.probe
              controlPort := config.inboundPort? p.controlTag
              output := ⟨p.outputLines.toNat, []⟩ }⟩

def printed (p : RelayProcess) (lines : List String) : RelayProcess :=
  { p with output := p.output.pushAll lines }

def exited (p : RelayProcess) (failure : ProcessFailure) : RelayProcess :=
  if p.running then { p with running := false, failure := some failure } else p

/-- The process was stopped; one that had ended by itself stays as it is. -/
def stopped (p : RelayProcess) : RelayProcess := { p with running := false }

@[simp] theorem exited_id (p : RelayProcess) (f : ProcessFailure) : (p.exited f).id = p.id := by
  unfold exited; split <;> rfl

@[simp] theorem exited_running (p : RelayProcess) (f : ProcessFailure) :
    (p.exited f).running = false := by
  unfold exited; split <;> simp_all

@[simp] theorem stopped_id (p : RelayProcess) : p.stopped.id = p.id := rfl

@[simp] theorem stopped_running (p : RelayProcess) : p.stopped.running = false := rfl

theorem launch_id {p : ProcessSettings} {at_ : LaunchConditions} {id : Nat} {config : RelayConfig}
    {process : RelayProcess} (h : (launch p at_ id config).result = .ok process) :
    process.id = id ∧ process.config = config ∧ process.running = true := by
  unfold launch at h
  repeat' split at h
  all_goals simp_all
  all_goals (subst h; simp)

end RelayProcess

end RelayControl
