import RelayControl.Relay.Config

/-!
Relay configurations as JSON: the typed members in the order of their declaration, absent ones left
out, then the others in the order of their keys.
-/

namespace RelayControl

private def member? (key : String) (toJson : α → Json) : Option α → Members
  | none => []
  | some v => [(key, toJson v)]

theorem member?_eq (key : String) (toJson : α → Json) (v? : Option α) :
    member? key toJson v? = (v?.map toJson).toList.map (key, ·) := by
  cases v? <;> rfl

private def word (n : UInt32) : Json := .nat n.toNat

private def texts (xs : List String) : Json := .array (xs.map .text)

namespace LevelPolicy

def toJson (p : LevelPolicy) : Json :=
  .object <|
    member? "handshake" word p.handshake ++
    member? "connIdle" word p.connIdle ++
    member? "uplinkOnly" word p.uplinkOnly ++
    member? "downlinkOnly" word p.downlinkOnly ++
    member? "bufferSize" word p.bufferSize ++
    member? "statsUserUplink" .bool p.statsUserUplink ++
    member? "statsUserDownlink" .bool p.statsUserDownlink ++
    p.rest

end LevelPolicy

namespace Policy

def toJson (p : Policy) : Json :=
  .object <|
    [("levels", .object (p.levels.map fun (name, level) => (name, level.toJson)))] ++
    member? "system" id p.system ++
    p.rest

end Policy

namespace Client

def toJson (c : Client) : Json :=
  .object <|
    member? "id" .text c.id ++
    member? "password" .text c.password ++
    member? "email" .text c.email ++
    member? "flow" .text c.flow ++
    member? "method" .text c.method

end Client

namespace InboundSettings

def toJson (s : InboundSettings) : Json :=
  .object <| member? "clients" (fun cs => .array (cs.map Client.toJson)) s.clients ++ s.rest

end InboundSettings

namespace SocketOptions

def toJson (o : SocketOptions) : Json :=
  .object <|
    member? "tcpFastOpen" .bool o.tcpFastOpen ++
    member? "tcpKeepAliveInterval" word o.tcpKeepAliveInterval ++
    member? "tcpNoDelay" .bool o.tcpNoDelay ++
    o.rest

end SocketOptions

namespace StreamSettings

def toJson (s : StreamSettings) : Json :=
  .object <|
    member? "tlsSettings" .object s.tlsSettings ++
    member? "realitySettings" .object s.realitySettings ++
    member? "externalProxy" id s.externalProxy ++
    member? "sockopt" SocketOptions.toJson s.sockopt ++
    s.rest

end StreamSettings

namespace Inbound

def toJson (i : Inbound) : Json :=
  .object <|
    member? "listen" .text i.listen ++
    [("port", i.port), ("protocol", .text i.protocol), ("settings", i.settings.toJson)] ++
    member? "streamSettings" StreamSettings.toJson i.streamSettings ++
    [("tag", .text i.tag)] ++
    member? "sniffing" id i.sniffing ++
    i.rest

end Inbound

namespace Peer

def toJson (p : Peer) : Json :=
  .object <|
    [("publicKey", .text p.publicKey), ("allowedIPs", texts p.allowedIPs),
      ("endpoint", .text p.endpoint)] ++
    p.rest

end Peer

namespace TunnelSettings

def toJson (s : TunnelSettings) : Json :=
  .object <|
    [("secretKey", .text s.secretKey), ("address", texts s.address),
      ("peers", .array (s.peers.map Peer.toJson)), ("mtu", word s.mtu),
      ("workers", word s.workers)] ++
    member? "domainStrategy" .text s.domainStrategy ++
    member? "reserved" (fun bs => .array (bs.map fun b => .nat b.toNat)) s.reserved ++
    s.rest

end TunnelSettings

namespace Outbound

def toJson : Outbound → Json
  | .tunnel t =>
      .object <|
        [("protocol", .text "wireguard"), ("tag", .text t.tag), ("settings", t.settings.toJson)] ++
        t.rest
  | .plain o => .object <| [("protocol", .text o.protocol)] ++ member? "tag" .text o.tag ++ o.rest

end Outbound

namespace RelayConfig

def toJson (c : RelayConfig) : Json :=
  .object <|
    member? "log" id c.log ++
    member? "api" id c.api ++
    member? "stats" id c.stats ++
    member? "metrics" id c.metrics ++
    member? "policy" Policy.toJson c.policy ++
    [("inbounds", .array (c.inbounds.map Inbound.toJson)),
      ("outbounds", .array (c.outbounds.map Outbound.toJson))] ++
    member? "routing" id c.routing ++
    member? "dns" id c.dns ++
    c.rest

end RelayConfig

end RelayControl
