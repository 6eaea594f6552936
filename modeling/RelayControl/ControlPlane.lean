import RelayControl.Registration.Service
import RelayControl.Relay.Synthesis
import RelayControl.RestartFlag
import RelayControl.Stats.Collection
import RelayControl.Supervisor

/-!
The control plane as a whole: the store, the supervisor, the baseline of the counters and the restart
flag, with the operations that touch more than one of them.
-/

namespace RelayControl

structure ControlPlane where
  settings : Settings := {}
  store : Store := {}
  supervisor : Supervisor := {}
  baseline : Option Baseline := none
  flag : RestartFlag := {}
  deriving Inhabited

inductive BodyForm where
  | registration
  | license
  | reset
  deriving DecidableEq, Repr

/-- What an operation meets outside: the system, the registration endpoint, the store's file, the
relay's port, and the library that reads bodies. -/
structure Surroundings where
  launch : LaunchConditions := {}
  stopping : Except String Unit := .ok ()
  endpoint : Endpoint := ⟨fun _ => .unreachable "no network", fun _ => 0⟩
  /-- Accesses of a registration call to the stored texts that fail although their table is there. -/
  storage : StoreAccess := {}
  stats : Http.Reply := .unreachable "no network"
  statsTimeoutMs : Nat := 5000
  now : String := ""
  hostName : Option String := none
  /-- What the library says of a body that it cannot take in a form; it names a line and a column. -/
  wording : BodyForm → String → String := fun _ _ => "expected value at line 1 column 1"

namespace ControlPlane

def synthesized (c : ControlPlane) : Except Fault RelayConfig :=
  synthesize c.settings c.store.source

def launcher (c : ControlPlane) (w : Surroundings) : Nat → RelayConfig → Launch :=
  RelayProcess.launch c.settings.process w.launch

def restart (c : ControlPlane) (w : Surroundings) (force : Bool) :
    Except Fault Unit × ControlPlane :=
  let (result, supervisor) := c.supervisor.restart c.synthesized force (c.launcher w)
  (result, { c with supervisor })

def stop (c : ControlPlane) (w : Surroundings) : Except Fault Unit × ControlPlane :=
  let (result, supervisor) := c.supervisor.stop w.stopping
  (result, { c with supervisor })

def recover (c : ControlPlane) (w : Surroundings) (expected : Nat) :
    Option (Except Fault Unit) × ControlPlane :=
  let (result, supervisor) := c.supervisor.recover expected c.synthesized (c.launcher w)
  (result, { c with supervisor })

/-- Collects traffic without counting it anywhere. -/
def collectOnly (c : ControlPlane) (w : Surroundings) : Except Fault Growth × ControlPlane :=
  let (result, baseline) :=
    collect c.supervisor.statsEndpoint? w.statsTimeoutMs w.stats c.baseline fun _ =>
      (.ok () : Except Fault Unit)
  (result.map (·.1), { c with baseline })

def collectIntoStore (c : ControlPlane) (w : Surroundings) :
    Except Fault Growth × ControlPlane :=
  let (result, baseline) :=
    collect c.supervisor.statsEndpoint? w.statsTimeoutMs w.stats c.baseline fun growth =>
      ofStore (c.store.addTraffic growth.tags growth.clients)
  match result with
  | .ok (growth, store) => (.ok growth, { c with store, baseline })
  | .error f => (.error f, { c with baseline })

def registration (c : ControlPlane) (w : Surroundings) (call : RegistrationCall) :
    Except Fault RegistrationOutcome × List RegistrationRequest × ControlPlane :=
  let r := Registrar.ofSettings c.settings.registration w.hostName
  let done := call.perform r w.now w.endpoint (c.store.access.or w.storage) c.store.texts
  (done.result, done.requests, { c with store := { c.store with texts := done.texts } })

def markDirty (c : ControlPlane) : ControlPlane := { c with flag := c.flag.mark }

/-- What is done from time to time: a configuration that was marked as stale is applied, and traffic
is counted. Neither failure keeps the other from being tried. -/
def poll (c : ControlPlane) (w : Surroundings) : ControlPlane :=
  let (stale, flag) := c.flag.consume
  let c := { c with flag }
  let c := if stale then (c.restart w false).2 else c
  (c.collectIntoStore w).2

@[simp] theorem restart_store (c : ControlPlane) (w : Surroundings) (force : Bool) :
    (c.restart w force).2.store = c.store := rfl

@[simp] theorem stop_store (c : ControlPlane) (w : Surroundings) :
    (c.stop w).2.store = c.store := rfl

end ControlPlane

end RelayControl
