import RelayControl.Fault
import RelayControl.Relay.Config.Decode
import RelayControl.Settings

/-!
The template of a relay configuration: the stored text, or the built-in one, with the tuning put
into the policy of the default level wherever the template leaves a knob open.
-/

namespace RelayControl

namespace LevelPolicy

def tuned (p : LevelPolicy) (t : Tuning) : LevelPolicy :=
  { p with
    handshake := p.handshake <|> some t.handshakeSecs
    connIdle := p.connIdle <|> some t.connIdleSecs
    uplinkOnly := p.uplinkOnly <|> some t.uplinkOnlySecs
    downlinkOnly := p.downlinkOnly <|> some t.downlinkOnlySecs
    bufferSize := p.bufferSize <|> some t.bufferSizeKb }

end LevelPolicy

namespace Policy

def defaultLevel : String := "0"

def tuned (p : Policy) (t : Tuning) : Policy :=
  let level := (p.levels.lookup defaultLevel).getD {}
  { p with levels := Members.insert defaultLevel (level.tuned t) p.levels }

end Policy

namespace RelayConfig

def tuned (c : RelayConfig) (t : Tuning) : RelayConfig :=
  { c with policy := some ((c.policy.getD {}).tuned t) }

@[simp] theorem tuned_inbounds (c : RelayConfig) (t : Tuning) :
    (c.tuned t).inbounds = c.inbounds := rfl

@[simp] theorem tuned_outbounds (c : RelayConfig) (t : Tuning) :
    (c.tuned t).outbounds = c.outbounds := rfl

private def texts (xs : List String) : Json := .array (xs.map .text)

def builtin : RelayConfig where
  log := some (.object
    [("access", .text "none"), ("dnsLog", .bool false), ("loglevel", .text "warning")])
  api := some (.object
    [("services", texts ["HandlerService", "LoggerService", "StatsService"]),
      ("tag", .text "api")])
  stats := some (.object [])
  metrics := some (.object [("tag", .text "metrics_out")])
  policy := some
    { levels := [("0", { statsUserUplink := some true, statsUserDownlink := some true })]
      system := some (.object
        [("statsInboundDownlink", .bool true), ("statsInboundUplink", .bool true),
          ("statsOutboundDownlink", .bool true), ("statsOutboundUplink", .bool true)]) }
  inbounds :=
    [{ listen := some "127.0.0.1", port := .nat 62789, protocol := "dokodemo-door", tag := "api"
       settings := { rest := [("address", .text "127.0.0.1")] } }]
  outbounds :=
    [.plain
      { protocol := "freedom", tag := some "direct"
        rest := [("settings", .object [("domainStrategy", .text "AsIs")])] },
     .plain
      { protocol := "blackhole", tag := some "blocked", rest := [("settings", .object [])] }]
  routing := some (.object
    [("domainStrategy", .text "AsIs"),
      ("rules", .array
        [.object
          [("inboundTag", texts ["api"]), ("outboundTag", .text "metrics_out"),
            ("type", .text "field")],
         .object
          [("ip", texts ["geoip:private"]), ("outboundTag", .text "blocked"),
            ("type", .text "field")]])])

def ofTemplate (text : Option String) (t : Tuning) : Except Fault RelayConfig :=
  match text with
  | none => .ok (builtin.tuned t)
  | some s =>
      match Json.decode decoder s with
      | .ok c => .ok (c.tuned t)
      | .error f => .error (.template f)

end RelayConfig

end RelayControl
