import RelayControl.Registration.Credential
import RelayControl.Relay.Clients
import RelayControl.Relay.Config.Lookup
import RelayControl.Relay.Source
import RelayControl.Relay.Stream
import RelayControl.Relay.Template
import RelayControl.Text.Base64

/-!
The synthesis of a relay configuration: the tuned template, an outbound for the stored credential,
and one inbound per enabled rule whose texts can be read.
-/

namespace RelayControl

open Json

def unlessBlank? (item : Decoder α) (text : String) : Except Flaw (Option α) :=
  if Text.allBlank text then .ok none else (Json.decode item text).map some

namespace InboundSettings

def ofRule (records : List ClientRecord) (policy : MissingRecordPolicy) (settings : Members) :
    InboundSettings :=
  match settings.lookup "clients" with
  | some (.array entries) =>
      { clients := some (admittedClients records policy entries)
        rest := Members.erase "clients" settings }
  | _ => { clients := none, rest := settings }

end InboundSettings

namespace Inbound

/-- The inbound of a rule; the first of its texts that cannot be read decides the flaw. -/
def ofRule (s : Settings) (rule : RoutingRule) : Except Flaw Inbound := do
  let settings ← unlessBlank? .members rule.settings
  let stream ← unlessBlank? StreamSettings.decoder rule.streamSettings
  let sniffing ← unlessBlank? .json rule.sniffing
  pure
    { listen := if rule.listen.isEmpty then none else some rule.listen
      port := .nat rule.port.toNat
      protocol := rule.protocol
      settings := .ofRule rule.records s.filter.missingRecord (settings.getD [])
      streamSettings := some ((stream.getD {}).stripped.tuned (.ofTuning s.tuning))
      tag := rule.tag
      sniffing }

def ofRule? (s : Settings) (rule : RoutingRule) : Option Inbound :=
  if rule.enabled then (ofRule s rule).toOption else none

end Inbound

namespace Tunnel

def fallbackAddress : String := "172.16.0.2/32"

def remoteText? (remote : Option Json) (path : List String) : Option String :=
  ((remote.bind (·.at? path)).bind Json.asText?).filter (!·.isEmpty)

private def listed (suffix : String) : Option String → List String
  | none => []
  | some s => [s ++ suffix]

def addresses (remote : Option Json) : List String :=
  let assigned :=
    listed "/32" (remoteText? remote ["config", "interface", "addresses", "v4"]) ++
      listed "/128" (remoteText? remote ["config", "interface", "addresses", "v6"])
  if assigned.isEmpty then [fallbackAddress] else assigned

theorem addresses_ne_nil (remote : Option Json) : addresses remote ≠ [] := by
  unfold addresses
  intro h
  dsimp only at h
  split at h <;> simp_all

def reserved? (remote : Option Json) : Option (List UInt8) :=
  ((remoteText? remote ["config", "client_id"]).bind fun id =>
    (Base64.decode id).toOption).filter (·.length == 3)

def ofCredential (r : RegistrationSettings) (credential : Credential) (remote : Option Json) :
    Tunnel where
  tag := r.outboundTag
  settings :=
    { secretKey := credential.privateKey
      address := addresses remote
      peers :=
        [{ publicKey :=
             (remoteText? remote ["config", "peers", "0", "public_key"]).getD r.peerPublicKey
           allowedIPs := ["0.0.0.0/0", "::/0"]
           endpoint :=
             (remoteText? remote ["config", "peers", "0", "endpoint", "host"]).getD
               r.peerEndpoint }]
      mtu := r.mtu
      workers := r.workers
      reserved := reserved? remote }

end Tunnel

def ofStore : Except StoreFault α → Except Fault α
  | .ok x => .ok x
  | .error f => .error (.store f)

@[simp] theorem ofStore_ok (x : α) : ofStore (.ok x) = .ok x := rfl

@[simp] theorem ofStore_error (f : StoreFault) :
    (ofStore (.error f) : Except Fault α) = .error (.store f) := rfl

def synthesize (s : Settings) (source : Source) : Except Fault RelayConfig := do
  let template ← ofStore (source.setting? StoreKey.template)
  let base ← RelayConfig.ofTemplate (template.filter (!Text.allBlank ·)) s.tuning
  let credential ← ofStore (source.setting? StoreKey.credential >>= Credential.ofStored?)
  let based ← match credential.filter (!·.isEmpty) with
    | some credential => do
        let remote ← ofStore (source.setting? StoreKey.remoteConfig)
        let remote := remote.bind fun text => (Json.parse text).toOption
        pure (base.upsertOutbound (.tunnel (.ofCredential s.registration credential remote)))
    | none => pure base
  let rules ← ofStore source.rules
  pure { based with inbounds := based.inbounds ++ rules.filterMap (Inbound.ofRule? s) }

end RelayControl
