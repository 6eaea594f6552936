import RelayControl.Http
import RelayControl.Registration.Credential
import RelayControl.Registration.Retry
import RelayControl.Relay.Source
import RelayControl.Text.Base64

/-!
What is sent to the registration endpoint, and what is made of its answers.
-/

namespace RelayControl

inductive RegistrationCall where
  | register (secretKey publicKey : String)
  | refresh
  | setLicense (license : String)
  deriving DecidableEq, Repr

structure RegistrationRequest where
  method : String
  /-- Follows the address of the endpoint. -/
  path : String
  bearer : Option String := none
  clientVersion : String
  body : Option Json := none
  deriving Inhabited

/-- This node as it presents itself to the endpoint. -/
structure Registrar where
  policy : RetryPolicy
  baseUrl : String
  clientVersion : String
  deviceName : String
  deviceModel : String

namespace Registrar

def ofSettings (r : RegistrationSettings) (hostName : Option String) : Registrar where
  policy := .ofSettings r.retry
  baseUrl := Text.dropTrailing '/' r.baseUrl
  clientVersion := r.clientVersion
  deviceName := r.announcedName hostName
  deviceModel := r.deviceModel

end Registrar

/-- Checks that a key is the base64 text of 32 bytes; blanks around it are allowed. -/
def checkKey (what key : String) : Except Fault Unit :=
  match Base64.decode (Text.trim key) with
  | .error f => .error (.badKey (what ++ " is not base64: " ++ f.message))
  | .ok bytes =>
      if bytes.length = 32 then .ok ()
      else .error (.badKey (what ++ " must be 32 bytes, got " ++ toString bytes.length))

namespace RegistrationCall

def needsCredential : RegistrationCall → Bool
  | .register _ _ => false
  | _ => true

def credentialFor (text : Except StoreFault (Option String)) : Except Fault Credential :=
  match text >>= Credential.ofStored? with
  | .error f => .error (.store f)
  | .ok none => .error .noCredential
  | .ok (some c) => if c.deviceId.isEmpty then .error .noCredential else .ok c

def prepare (stored : Except StoreFault (Option String)) : RegistrationCall →
    Except Fault Credential
  | .register secretKey publicKey => do
      checkKey "secret key" secretKey
      checkKey "public key" publicKey
      pure {}
  | _ => credentialFor stored

def request (r : Registrar) (now : String) (c : Credential) : RegistrationCall →
    RegistrationRequest
  | .register _ publicKey =>
      { method := "POST", path := "/reg", clientVersion := r.clientVersion
        body := some (.object
          [("key", .text publicKey), ("model", .text r.deviceModel), ("name", .text r.deviceName),
            ("tos", .text now), ("type", .text "PC")]) }
  | .refresh =>
      { method := "GET", path := "/reg/" ++ c.deviceId, bearer := some c.accessToken
        clientVersion := r.clientVersion }
  | .setLicense license =>
      { method := "PUT", path := "/reg/" ++ c.deviceId ++ "/account"
        bearer := some c.accessToken, clientVersion := r.clientVersion
        body := some (.object [("license", .text license)]) }

end RegistrationCall

namespace RegistrationRequest

def sendable (q : RegistrationRequest) : Bool :=
  Http.isHeaderText q.clientVersion && q.bearer.all Http.isHeaderText

def attempt (q : RegistrationRequest) (reply : Http.Reply) : Attempt String :=
  if q.sendable then
    match reply with
    | .unreachable reason => .unreachable reason
    | .silent => .timedOut
    | .answered status content =>
        if Http.isServerError status then .serverError (Http.statusText status)
        else if Http.isSuccess status then .body content
        else .rejected (.ofNat status) content
    | .brokenOff status reason =>
        if Http.isServerError status then .serverError (Http.statusText status)
        else if Http.isSuccess status then .brokenBody reason
        else .rejected (.ofNat status) ""
  else .unreachable "builder error"

def received (q : RegistrationRequest) (reply : Http.Reply) : Bool :=
  q.sendable && match reply with
    | .unreachable _ => false
    | _ => true

end RegistrationRequest

def answerJson (content : String) : Except Fault Json :=
  match Json.parse content with
  | .ok v => .ok v
  | .error f => .error (.reply f.description)

def requiredText (v : Json) (path : List String) : Except Fault String :=
  let name := ".".intercalate path
  match path.foldl (fun v key => v.bind (·.member? key)) (some v) with
  | none => .error (.reply ("missing '" ++ name ++ "'"))
  | some (.text s) => .ok s
  | some _ => .error (.reply ("'" ++ name ++ "' is not a string"))

structure RegistrationOutcome where
  credential : Option Credential := none
  remote : Option Json := none
  deriving Inhabited

namespace RegistrationOutcome

def writes (o : RegistrationOutcome) : List (String × String) :=
  (match o.credential with
   | some c => [(StoreKey.credential, c.stored)]
   | none => []) ++
  match o.remote with
  | some v => [(StoreKey.remoteConfig, v.compact)]
  | none => []

end RegistrationOutcome

namespace RegistrationCall

def conclude (c : Credential) (content : String) : RegistrationCall →
    Except Fault RegistrationOutcome
  | .register secretKey _ => do
      let remote ← answerJson content
      let token ← requiredText remote ["token"]
      let device ← requiredText remote ["id"]
      let license ← requiredText remote ["account", "license"]
      pure { credential := some ⟨token, device, license, secretKey⟩, remote := some remote }
  | .refresh => do
      let remote ← answerJson content
      pure { remote := some remote }
  | .setLicense license => pure { credential := some { c with licenseKey := license } }

end RegistrationCall

end RelayControl
