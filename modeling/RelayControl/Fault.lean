import RelayControl.Json.Printer
import RelayControl.Json.Decode

/-!
What can go wrong in the control plane, the text of each fault, and the code, status and body with
which the control interface reports it.
-/

namespace RelayControl

namespace Json.Flaw

/-- A word for the kind of a flaw. The full text, which names what is wrong and where, is that of the
library that reads JSON and is not told here. -/
def description : Flaw → String
  | .malformed => "malformed JSON"
  | .truncated => "JSON that ends too early"
  | .unfit => "JSON of another shape"

end Json.Flaw

inductive StoreCause where
  | takenTag
  | unknownInbound
  | unavailable
  /-- A counter that is no 64-bit integer any more. -/
  | overflown
  | flawed (f : Json.Flaw)
  | reason (text : String)
  deriving DecidableEq, Repr

/-- A failure of the store with what was being done, the innermost activity first. -/
structure StoreFault where
  activities : List String := []
  cause : StoreCause
  deriving DecidableEq, Repr

namespace StoreCause

def message : StoreCause → String
  | .takenTag => "the tag is taken"
  | .unknownInbound => "no such inbound"
  | .unavailable => "the table is not available"
  | .overflown => "the counter is out of range"
  | .flawed f => f.description
  | .reason text => text

end StoreCause

namespace StoreFault

def during (activity : String) (f : StoreFault) : StoreFault :=
  { f with activities := f.activities ++ [activity] }

def message (f : StoreFault) : String :=
  f.activities.foldl (fun story activity => activity ++ ": " ++ story) f.cause.message

@[simp] theorem cause_during (activity : String) (f : StoreFault) :
    (f.during activity).cause = f.cause := rfl

end StoreFault

inductive Fault where
  | template (flaw : Json.Flaw)
  | rule (tag : String) (flaw : Json.Flaw)
  /-- The registration endpoint answered with something unusable. -/
  | reply (detail : String)
  /-- The other side could not be reached or broke down. -/
  | transport (detail : String)
  | status (code : UInt16) (body : String)
  | exhausted (attempts : UInt32) (last : Fault)
  | notRunning
  | startFailed (detail : String)
  | stopFailed (detail : String)
  | noCredential
  | badKey (detail : String)
  | store (f : StoreFault)
  deriving DecidableEq, Repr, Inhabited

namespace Fault

def message : Fault → String
  | .template f => "template parse error: " ++ f.description
  | .rule tag f => "rule '" ++ tag ++ "' could not be parsed: " ++ f.description
  | .reply detail => "malformed registration response: " ++ detail
  | .transport detail => "transport error: " ++ detail
  | .status code body =>
      "registration endpoint returned " ++ toString code.toNat ++ ": " ++ body
  | .exhausted attempts last =>
      "all " ++ toString attempts.toNat ++ " attempts failed: " ++ last.message
  | .notRunning => "relay is not running"
  | .startFailed detail => "failed to start relay: " ++ detail
  | .stopFailed detail => "failed to stop relay: " ++ detail
  | .noCredential => "no registration credential stored"
  | .badKey detail => "invalid key: " ++ detail
  | .store f => "store error: " ++ f.message

inductive Origin where
  | document (flaw : Json.Flaw)
  | fault (f : Fault)

def origin? : Fault → Option Origin
  | .template f => some (.document f)
  | .rule _ f => some (.document f)
  | .exhausted _ last => some (.fault last)
  | _ => none

/-- Only a fault of the transport may be gone at the next attempt. -/
def retryable : Fault → Bool
  | .transport _ => true
  | _ => false

@[simp] theorem retryable_transport (detail : String) : (transport detail).retryable = true := rfl

end Fault

inductive FaultCode where
  | badRequest
  | notFound
  | configError
  | registrationFailed
  | notRunning
  | startFailed
  | stopFailed
  | missingCredential
  | internalError
  deriving DecidableEq, Repr

namespace FaultCode

def all : List FaultCode :=
  [.badRequest, .notFound, .configError, .registrationFailed, .notRunning, .startFailed,
    .stopFailed, .missingCredential, .internalError]

def name : FaultCode → String
  | .badRequest => "BAD_REQUEST"
  | .notFound => "NOT_FOUND"
  | .configError => "CONFIG_ERROR"
  | .registrationFailed => "REGISTRATION_FAILED"
  | .notRunning => "NOT_RUNNING"
  | .startFailed => "START_FAILED"
  | .stopFailed => "STOP_FAILED"
  | .missingCredential => "MISSING_CREDENTIAL"
  | .internalError => "INTERNAL_ERROR"

def status : FaultCode → Nat
  | .badRequest => 400
  | .notFound => 404
  | .configError => 422
  | .registrationFailed => 502
  | .notRunning => 409
  | .startFailed => 503
  | .stopFailed => 500
  | .missingCredential => 412
  | .internalError => 500

def named? (name : String) : Option FaultCode :=
  all.find? (·.name == name)

end FaultCode

def Fault.code : Fault → FaultCode
  | .template _ => .configError
  | .rule _ _ => .configError
  | .reply _ => .registrationFailed
  | .transport _ => .registrationFailed
  | .status _ _ => .registrationFailed
  | .exhausted _ _ => .registrationFailed
  | .notRunning => .notRunning
  | .startFailed _ => .startFailed
  | .stopFailed _ => .stopFailed
  | .noCredential => .missingCredential
  | .badKey _ => .badRequest
  | .store _ => .internalError

structure FaultReport where
  code : FaultCode
  message : String
  deriving DecidableEq, Repr

namespace FaultReport

def toJson (r : FaultReport) : Json :=
  .object [("code", .text r.code.name), ("message", .text r.message),
    ("status", .nat r.code.status)]

end FaultReport

def Fault.report (f : Fault) : FaultReport :=
  ⟨f.code, f.message⟩

inductive ProcessFailure where
  /-- It ended by itself, with an exit code or through a signal. -/
  | exited (code signal : Option Int)
  | startFailed (message : String)
  deriving DecidableEq, Repr

namespace ProcessFailure

private def shown : Option Int → String
  | none => "None"
  | some n => "Some(" ++ (Json.int n).compact ++ ")"

def message : ProcessFailure → String
  | .exited code signal =>
      "relay exited unexpectedly (code: " ++ shown code ++ ", signal: " ++ shown signal ++ ")"
  | .startFailed message => "relay failed to start: " ++ message

private def orNull : Option Int → Json
  | none => .null
  | some n => .int n

def toJson : ProcessFailure → Json
  | .exited code signal =>
      .object [("kind", .text "exited"), ("code", orNull code), ("signal", orNull signal)]
  | .startFailed message =>
      .object [("kind", .text "start_failed"), ("message", .text message)]

end ProcessFailure

end RelayControl
