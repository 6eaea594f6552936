import RelayControl.Registration.Service

/-!
Registration calls side by side. Each reads the stored credential, asks the endpoint, and stores what
it answered text by text; a single reading or writing of the store is one step.
-/

namespace RelayControl

inductive CallStage where
  | begun
  /-- The credential was read, or is not needed; the request is due. -/
  | prepared (credential : Credential)
  | storing (writes : List (String × String))
  | finished
  | failed
  deriving DecidableEq, Repr

structure Registering where
  texts : List (String × String) := []
  calls : List (RegistrationCall × CallStage) := []
  /-- What the endpoint answered so far, the latest first, with the call that asked. -/
  answers : List (Nat × String) := []
  deriving Inhabited

inductive RegisterAction where
  | begin (call : RegistrationCall)
  /-- The call with an index reads the store, if it needs to. -/
  | prepare (call : Nat)
  | answer (call : Nat) (content : String)
  | write (call : Nat)
  deriving DecidableEq, Repr

namespace Registering

def setStage (r : Registering) (call : Nat) (stage : CallStage) : Registering :=
  { r with calls := r.calls.modify call fun c => (c.1, stage) }

def afterWrites : List (String × String) → CallStage
  | [] => .finished
  | writes => .storing writes

def step? (r : Registering) : RegisterAction → Option Registering
  | .begin call => some { r with calls := r.calls ++ [(call, .begun)] }
  | .prepare n =>
      match r.calls[n]? with
      | some (call, .begun) =>
          match call.prepare (.ok (r.texts.lookup StoreKey.credential)) with
          | .ok credential => some (r.setStage n (.prepared credential))
          | .error _ => some (r.setStage n .failed)
      | _ => none
  | .answer n content =>
      match r.calls[n]? with
      | some (call, .prepared credential) =>
          let r := { r with answers := (n, content) :: r.answers }
          match call.conclude credential content with
          | .ok outcome => some (r.setStage n (afterWrites outcome.writes))
          | .error _ => some (r.setStage n .failed)
      | _ => none
  | .write n =>
      match r.calls[n]? with
      | some (_, .storing ((key, value) :: rest)) =>
          some ({ r with texts := Store.putText key value r.texts }.setStage n (afterWrites rest))
      | _ => none

def run? (r : Registering) : List RegisterAction → Option Registering
  | [] => some r
  | a :: rest => (r.step? a).bind (run? · rest)

def allFinished (r : Registering) : Bool :=
  r.calls.all fun c => c.2 == .finished

end Registering

end RelayControl
