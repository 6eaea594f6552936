import RelayControl.Fault
import RelayControl.Text.Blank

/-!
The credential that identifies this node to the registration endpoint, and its stored text.
-/

namespace RelayControl

structure Credential where
  accessToken : String := ""
  deviceId : String := ""
  licenseKey : String := ""
  privateKey : String := ""
  deriving DecidableEq, Repr, Inhabited

namespace Credential

open Json

/-- Without a device or a private key there is nothing to build an outbound from. -/
def isEmpty (c : Credential) : Bool :=
  c.deviceId.isEmpty || c.privateKey.isEmpty

def fields : List (RecordField Credential) :=
  [ .defaulted "access_token" .text fun v c => { c with accessToken := v },
    .defaulted "device_id" .text fun v c => { c with deviceId := v },
    .defaulted "license_key" .text fun v c => { c with licenseKey := v },
    .defaulted "private_key" .text fun v c => { c with privateKey := v } ]

def decoder : Decoder Credential := Record.closed fields {}

def toJson (c : Credential) : Json :=
  .object
    [("access_token", .text c.accessToken), ("device_id", .text c.deviceId),
      ("license_key", .text c.licenseKey), ("private_key", .text c.privateKey)]

def stored (c : Credential) : String := c.toJson.pretty

def ofStored? (text : Option String) : Except StoreFault (Option Credential) :=
  match text with
  | none => .ok none
  | some s =>
      if Text.allBlank s then .ok none
      else
        match Json.decode decoder s with
        | .ok c => .ok (some c)
        | .error f =>
            .error ⟨["Stored registration credential is not valid JSON"], .flawed f⟩

@[simp] theorem ofStored?_none : ofStored? none = .ok none := rfl

end Credential

end RelayControl
