import RelayControl.Http
import RelayControl.Stats.Baseline

/-!
Collecting traffic: the control port of the running relay is looked up, one snapshot is asked for,
and its growth is persisted.
-/

namespace RelayControl

namespace Snapshot

def ofReply (timeoutMs : Nat) : Http.Reply → Except Fault Snapshot
  | .unreachable reason => .error (.transport ("stats query failed: " ++ reason))
  | .silent => .error (.transport ("stats query timed out after " ++ toString timeoutMs ++ "ms"))
  | .answered status content =>
      if Http.isSuccess status then
        match Json.decode published content with
        | .ok s => .ok s
        | .error f => .error (.reply ("stats: " ++ f.description))
      else .error (.transport ("stats endpoint returned " ++ Http.statusText status))
  | .brokenOff status reason =>
      if Http.isSuccess status then .error (.transport ("stats query failed: " ++ reason))
      else .error (.transport ("stats endpoint returned " ++ Http.statusText status))

end Snapshot

/--
One collection: without a running relay nothing is asked. `reply` is what comes back from the port,
and `persist` takes the growth.
-/
def collect (endpoint : Option (Nat × UInt16)) (timeoutMs : Nat) (reply : Http.Reply)
    (baseline : Option Baseline) (persist : Growth → Except Fault α) :
    Except Fault (Growth × α) × Option Baseline :=
  match endpoint with
  | none => (.error .notRunning, baseline)
  | some (process, _) =>
      match Snapshot.ofReply timeoutMs reply with
      | .error f => (.error f, baseline)
      | .ok snapshot => Baseline.advance baseline process snapshot persist

end RelayControl
