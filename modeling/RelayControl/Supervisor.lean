import RelayControl.Process.Launch

/-!
The supervisor of the one relay process. Its state is a handful of cells and the processes it
started; a restart, a stop and the record of a crash are made of the steps in this module.
-/

namespace RelayControl

inductive Phase where
  | stopped
  | starting
  | running
  | crashed
  deriving DecidableEq, Repr, Inhabited

namespace Phase

def name : Phase → String
  | .stopped => "stopped"
  | .starting => "starting"
  | .running => "running"
  | .crashed => "crashed"

end Phase

inductive Watch where
  | polling
  /-- It saw the process dead and is about to report it. -/
  | reporting
  | ended
  deriving DecidableEq, Repr, Inhabited

structure Instance where
  process : RelayProcess
  watch : Watch := .polling
  cancelled : Bool := false
  deriving Inhabited

namespace Instance

def id (i : Instance) : Nat := i.process.id

def alive (i : Instance) : Bool := i.process.running

end Instance

structure Supervisor where
  /-- Every process that was started, the latest first. -/
  instances : List Instance := []
  current : Option Nat := none
  phase : Phase := .stopped
  lastError : Option ProcessFailure := none
  /-- The end of the output of the last process that stopped or crashed. -/
  lastResult : String := ""
  /-- How many starts have been attempted, and the number of the latest. -/
  generation : Nat := 0
  /-- What stands in the configuration file. -/
  written : Option String := none
  deriving Inhabited

namespace Supervisor

def instance? (s : Supervisor) (id : Nat) : Option Instance :=
  s.instances.find? (·.id == id)

def currentInstance? (s : Supervisor) : Option Instance :=
  s.current.bind s.instance?

def update (s : Supervisor) (id : Nat) (change : Instance → Instance) : Supervisor :=
  { s with instances := s.instances.map fun i => if i.id == id then change i else i }

@[simp] theorem update_current (s : Supervisor) (id : Nat) (f : Instance → Instance) :
    (s.update id f).current = s.current := rfl

@[simp] theorem update_phase (s : Supervisor) (id : Nat) (f : Instance → Instance) :
    (s.update id f).phase = s.phase := rfl

@[simp] theorem update_generation (s : Supervisor) (id : Nat) (f : Instance → Instance) :
    (s.update id f).generation = s.generation := rfl

@[simp] theorem update_lastError (s : Supervisor) (id : Nat) (f : Instance → Instance) :
    (s.update id f).lastError = s.lastError := rfl

/-! What can be asked at any time. -/

def isRunning (s : Supervisor) : Bool := s.currentInstance?.any Instance.alive

def version (s : Supervisor) : String :=
  (s.currentInstance?.map (·.process.version)).getD RelayProcess.unknownVersion

def pid? (s : Supervisor) : Option Nat := s.currentInstance?.map (·.process.pid)

def runningConfig? (s : Supervisor) : Option RelayConfig :=
  s.currentInstance?.map (·.process.config)

def statsEndpoint? (s : Supervisor) : Option (Nat × UInt16) := do
  let i ← s.currentInstance?
  if i.alive then do
    let port ← i.process.controlPort
    pure (i.id, port)
  else none

def runs (s : Supervisor) (config : RelayConfig) : Bool :=
  s.currentInstance?.any fun i => i.alive && i.process.config == config

/-! The steps. -/

/-- Takes the current instance out of charge and tells its monitor to end. -/
def discard (s : Supervisor) : Supervisor :=
  match s.current with
  | none => s
  | some id => { s.update id ({ · with cancelled := true }) with current := none }

def stopProcess (s : Supervisor) (id : Nat) : Supervisor :=
  s.update id fun i => { i with process := i.process.stopped }

def exitProcess (s : Supervisor) (id : Nat) (failure : ProcessFailure) : Supervisor :=
  s.update id fun i => { i with process := i.process.exited failure }

def print (s : Supervisor) (id : Nat) (lines : List String) : Supervisor :=
  s.update id fun i => { i with process := i.process.printed lines }

def keepResult (s : Supervisor) (id : Nat) : Supervisor :=
  match s.instance? id with
  | some i => { s with lastResult := i.process.output.text }
  | none => s

def announce (s : Supervisor) : Supervisor :=
  { s with phase := .starting, generation := s.generation + 1 }

def arrive (s : Supervisor) (l : Launch) : Except Fault Unit × Supervisor :=
  let s := { s with written := l.written <|> s.written }
  match l.result with
  | .ok process =>
      (.ok (), { s with
        instances := { process } :: s.instances, current := some process.id, phase := .running })
  | .error f =>
      (.error f, { s with lastError := some (.startFailed f.message), phase := .crashed })

def halt (s : Supervisor) : Supervisor := { s with phase := .stopped }

def failureOf (i : Instance) : ProcessFailure :=
  i.process.failure.getD (.exited none none)

/-- Records that a process is dead, if it is still in charge. -/
def recordCrash (s : Supervisor) (id : Nat) : Bool × Supervisor :=
  if s.current = some id then
    match s.instance? id with
    | some i =>
        (true, { s with
          lastError := some (failureOf i), lastResult := i.process.output.text
          phase := .crashed })
    | none => (false, s)
  else (false, s)

/-! Whole operations, one at a time. -/

def retire (s : Supervisor) : Supervisor :=
  match s.current with
  | none => s
  | some id => (s.discard.stopProcess id).keepResult id

def replace (s : Supervisor) (config : RelayConfig) (launch : Nat → RelayConfig → Launch) :
    Except Fault Unit × Supervisor :=
  let s := s.retire.announce
  s.arrive (launch s.generation config)

/-- Applies what was synthesized; an unchanged relay is left alone unless `force` is set. -/
def restart (s : Supervisor) (synthesized : Except Fault RelayConfig) (force : Bool)
    (launch : Nat → RelayConfig → Launch) : Except Fault Unit × Supervisor :=
  match synthesized with
  | .error f => (.error f, s)
  | .ok config => if !force && s.runs config then (.ok (), s) else s.replace config launch

/-- Stops the relay; `outcome` says whether the system could end a running process cleanly. -/
def stop (s : Supervisor) (outcome : Except String Unit) : Except Fault Unit × Supervisor :=
  if s.isRunning then
    (match outcome with
     | .ok () => .ok ()
     | .error reason => .error (.stopFailed reason), s.retire.halt)
  else (.error .notRunning, s.retire.halt)

/-- One attempt to recover from the crash of a generation; none when the supervisor moved on. -/
def recover (s : Supervisor) (expected : Nat) (synthesized : Except Fault RelayConfig)
    (launch : Nat → RelayConfig → Launch) : Option (Except Fault Unit) × Supervisor :=
  if s.phase = .crashed ∧ s.generation = expected then
    let (result, s) := s.restart synthesized true launch
    (some result, s)
  else (none, s)

@[simp] theorem halt_phase (s : Supervisor) : s.halt.phase = .stopped := rfl

@[simp] theorem announce_phase (s : Supervisor) : s.announce.phase = .starting := rfl

@[simp] theorem announce_generation (s : Supervisor) :
    s.announce.generation = s.generation + 1 := rfl

@[simp] theorem discard_current (s : Supervisor) : s.discard.current = none := by
  unfold discard
  split <;> simp_all

theorem keepResult_current (s : Supervisor) (id : Nat) :
    (s.keepResult id).current = s.current := by
  unfold keepResult
  split <;> rfl

@[simp] theorem retire_current (s : Supervisor) : s.retire.current = none := by
  unfold retire
  split
  · assumption
  · rw [keepResult_current]
    simp [stopProcess]

end Supervisor

end RelayControl
