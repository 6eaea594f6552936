import RelayControl.ControlPlane

/-!
The control interface: which operation a request asks for, and how its result is answered.
-/

namespace RelayControl.Api

structure Request where
  method : String
  path : String
  query : Option String := none
  body : String := ""
  deriving DecidableEq, Repr, Inhabited

structure Response where
  status : Nat
  contentType : Option String
  body : String
  deriving DecidableEq, Repr, Inhabited

namespace Request

def forced (q : Request) : Bool :=
  q.query.any fun query => (query.splitOn "&").any fun pair =>
    pair == "force=true" || pair == "force=1"

end Request

def programName : String := "relayctl"

def programVersion : String := "0.1.0"

def maxBodyBytes : Nat := 64 * 1024

def json (status : Nat) (v : Json) : Response := ⟨status, some "application/json", v.compact⟩

def failure (r : FaultReport) : Response := json r.code.status r.toJson

def ofFault (f : Fault) : Response := failure f.report

def oversized : Response := failure ⟨.badRequest, "failed to read body: length limit exceeded"⟩

def unreadable (w : Surroundings) (form : BodyForm) (body : String) : Response :=
  failure ⟨.badRequest, "invalid JSON body: " ++ w.wording form body⟩

def readBody (w : Surroundings) (form : BodyForm) (item : Json.Decoder α) (q : Request) :
    Except Response α :=
  if maxBodyBytes < q.body.utf8ByteSize then .error oversized
  else
    match Json.decode item q.body with
    | .ok x => .ok x
    | .error _ => .error (unreadable w form q.body)

open Json

def registerBody : Decoder (String × String) :=
  Record.closed
    [ .mandatory "secret_key" .text fun v r => (v, r.2),
      .mandatory "public_key" .text fun v r => (r.1, v) ] ("", "")

def licenseBody : Decoder String := Record.closed [.mandatory "license" .text fun v _ => v] ""

def resetBody : Decoder String := Record.closed [.mandatory "tag" .text fun v _ => v] ""

private def orNull (f : α → Json) : Option α → Json
  | some x => f x
  | none => .null

def statusJson (s : Supervisor) : Json :=
  .object
    [("state", .text s.phase.name), ("running", .bool s.isRunning), ("pid", orNull .nat s.pid?),
      ("version", .text s.version), ("last_error", orNull ProcessFailure.toJson s.lastError),
      ("last_result", .text s.lastResult)]

def growthJson (g : Growth) : Json :=
  .object
    [("client_traffic", .array (g.clients.map fun c =>
        .object [("down", .int c.down), ("email", .text c.email), ("up", .int c.up)])),
      ("traffic", .array (g.tags.map fun t =>
        .object
          [("down", .int t.down), ("is_inbound", .bool t.inbound),
            ("is_outbound", .bool t.outbound), ("tag", .text t.tag), ("up", .int t.up)]))]

def usageJson (u : Store.OutboundUsage) : Json :=
  .object [("tag", .text u.tag), ("up", .int u.up), ("down", .int u.down), ("total", .int u.total)]

/-- What a request does: its answer, what the registration endpoint received, and the new state. -/
structure Handled where
  response : Response
  requests : List RegistrationRequest := []
  after : ControlPlane

namespace Handled

def status : Except Fault Unit × ControlPlane → Handled
  | (.ok (), after) => { response := json 200 (statusJson after.supervisor), after }
  | (.error f, after) => { response := ofFault f, after }

end Handled

/-- A registration call over the interface; success makes the relay's configuration stale. -/
def registration (c : ControlPlane) (w : Surroundings) (call : RegistrationCall)
    (answer : RegistrationOutcome → Json) : Handled :=
  let (result, requests, after) := c.registration w call
  match result with
  | .ok outcome => { response := json 200 (answer outcome), requests, after := after.markDirty }
  | .error f => { response := ofFault f, requests, after }

def credentialAnswer (o : RegistrationOutcome) : Members :=
  let credential := o.credential.getD {}
  [("device_id", .text credential.deviceId), ("license_key", .text credential.licenseKey)]

def handle (c : ControlPlane) (w : Surroundings) (q : Request) : Handled :=
  match q.method, q.path with
  | "GET", "/health" => { response := ⟨200, none, "ok"⟩, after := c }
  | "GET", "/version" =>
      { response := json 200 (.object
          [("name", .text programName), ("relay_version", .text c.supervisor.version),
            ("version", .text programVersion)])
        after := c }
  | "GET", "/status" => { response := json 200 (statusJson c.supervisor), after := c }
  | "POST", "/restart" => .status (c.restart w q.forced)
  | "POST", "/stop" => .status (c.stop w)
  | "POST", "/dirty" =>
      { response := json 202 (.object [("dirty", .bool true)]), after := c.markDirty }
  | "GET", "/traffic" =>
      match c.collectIntoStore w with
      | (.ok growth, after) => { response := json 200 (growthJson growth), after }
      | (.error f, after) => { response := ofFault f, after }
  | "POST", "/registration" =>
      match readBody w .registration registerBody q with
      | .error response => { response, after := c }
      | .ok (secretKey, publicKey) =>
          registration c w (.register secretKey publicKey) fun o =>
            .object (("config", o.remote.getD .null) :: credentialAnswer o)
  | "GET", "/registration/config" =>
      registration c w .refresh fun o => o.remote.getD .null
  | "PUT", "/registration/license" =>
      match readBody w .license licenseBody q with
      | .error response => { response, after := c }
      | .ok license =>
          registration c w (.setLicense license) fun o => .object (credentialAnswer o)
  | "GET", "/outbounds/traffic" =>
      match c.store.outboundUsage with
      | .ok rows => { response := json 200 (.array (rows.map usageJson)), after := c }
      | .error f => { response := ofFault (.store f), after := c }
  | "POST", "/outbounds/traffic/reset" =>
      match readBody w .reset resetBody q with
      | .error response => { response, after := c }
      | .ok tag =>
          match c.store.resetOutbounds tag with
          | .ok (rows, store) =>
              { response := json 200 (.object [("reset", .nat rows)]), after := { c with store } }
          | .error f => { response := ofFault (.store f), after := c }
  | method, path =>
      { response := failure ⟨.notFound, "no route for " ++ method ++ " " ++ path⟩, after := c }

end RelayControl.Api
