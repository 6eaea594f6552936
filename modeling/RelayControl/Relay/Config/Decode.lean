import RelayControl.Json.Decode
import RelayControl.Relay.Config

/-!
Reading relay configurations. A record that keeps unknown members has to be an object; a client may
also be written as the array of its fields.
-/

namespace RelayControl

open Json

namespace LevelPolicy

def fields : List (RecordField LevelPolicy) :=
  [ .optional "handshake" .word32 fun v r => { r with handshake := v },
    .optional "connIdle" .word32 fun v r => { r with connIdle := v },
    .optional "uplinkOnly" .word32 fun v r => { r with uplinkOnly := v },
    .optional "downlinkOnly" .word32 fun v r => { r with downlinkOnly := v },
    .optional "bufferSize" .word32 fun v r => { r with bufferSize := v },
    .optional "statsUserUplink" .bool fun v r => { r with statsUserUplink := v },
    .optional "statsUserDownlink" .bool fun v r => { r with statsUserDownlink := v } ]

def decoder : Decoder LevelPolicy :=
  Record.opened fields (fun k v r => { r with rest := Members.insert k v r.rest }) {}

end LevelPolicy

namespace Policy

def fields : List (RecordField Policy) :=
  [ .defaulted "levels" (.map LevelPolicy.decoder) fun v r => { r with levels := v },
    .optional "system" .json fun v r => { r with system := v } ]

def decoder : Decoder Policy :=
  Record.opened fields (fun k v r => { r with rest := Members.insert k v r.rest }) {}

end Policy

namespace Client

def fields : List (RecordField Client) :=
  [ .optional "id" .text fun v r => { r with id := v },
    .optional "password" .text fun v r => { r with password := v },
    .optional "email" .text fun v r => { r with email := v },
    .optional "flow" .text fun v r => { r with flow := v },
    .optional "method" .text fun v r => { r with method := v } ]

def decoder : Decoder Client := Record.closed fields {}

end Client

namespace InboundSettings

def fields : List (RecordField InboundSettings) :=
  [ .optional "clients" (.list Client.decoder) fun v r => { r with clients := v } ]

def decoder : Decoder InboundSettings :=
  Record.opened fields (fun k v r => { r with rest := Members.insert k v r.rest }) {}

end InboundSettings

namespace SocketOptions

def fields : List (RecordField SocketOptions) :=
  [ .optional "tcpFastOpen" .bool fun v r => { r with tcpFastOpen := v },
    .optional "tcpKeepAliveInterval" .word32 fun v r => { r with tcpKeepAliveInterval := v },
    .optional "tcpNoDelay" .bool fun v r => { r with tcpNoDelay := v } ]

def decoder : Decoder SocketOptions :=
  Record.opened fields (fun k v r => { r with rest := Members.insert k v r.rest }) {}

end SocketOptions

namespace StreamSettings

def fields : List (RecordField StreamSettings) :=
  [ .optional "tlsSettings" .members fun v r => { r with tlsSettings := v },
    .optional "realitySettings" .members fun v r => { r with realitySettings := v },
    .optional "externalProxy" .json fun v r => { r with externalProxy := v },
    .optional "sockopt" SocketOptions.decoder fun v r => { r with sockopt := v } ]

def decoder : Decoder StreamSettings :=
  Record.opened fields (fun k v r => { r with rest := Members.insert k v r.rest }) {}

end StreamSettings

namespace Inbound

def fields : List (RecordField Inbound) :=
  [ .optional "listen" .text fun v r => { r with listen := v },
    .mandatory "port" .json fun v r => { r with port := v },
    .mandatory "protocol" .text fun v r => { r with protocol := v },
    .defaulted "settings" InboundSettings.decoder fun v r => { r with settings := v },
    .optional "streamSettings" StreamSettings.decoder fun v r => { r with streamSettings := v },
    .mandatory "tag" .text fun v r => { r with tag := v },
    .optional "sniffing" .json fun v r => { r with sniffing := v } ]

def decoder : Decoder Inbound :=
  Record.opened fields (fun k v r => { r with rest := Members.insert k v r.rest })
    { port := .null, protocol := "", tag := "" }

end Inbound

namespace Peer

def fields : List (RecordField Peer) :=
  [ .mandatory "publicKey" .text fun v r => { r with publicKey := v },
    .mandatory "allowedIPs" (.list .text) fun v r => { r with allowedIPs := v },
    .mandatory "endpoint" .text fun v r => { r with endpoint := v } ]

def decoder : Decoder Peer :=
  Record.opened fields (fun k v r => { r with rest := Members.insert k v r.rest })
    { publicKey := "", allowedIPs := [], endpoint := "" }

end Peer

namespace TunnelSettings

def fields : List (RecordField TunnelSettings) :=
  [ .mandatory "secretKey" .text fun v r => { r with secretKey := v },
    .mandatory "address" (.list .text) fun v r => { r with address := v },
    .mandatory "peers" (.list Peer.decoder) fun v r => { r with peers := v },
    .mandatory "mtu" .word32 fun v r => { r with mtu := v },
    .mandatory "workers" .word32 fun v r => { r with workers := v },
    .optional "domainStrategy" .text fun v r => { r with domainStrategy := v },
    .optional "reserved" (.list .byte) fun v r => { r with reserved := v } ]

def decoder : Decoder TunnelSettings :=
  Record.opened fields (fun k v r => { r with rest := Members.insert k v r.rest })
    { secretKey := "", address := [], peers := [], mtu := 0, workers := 0 }

end TunnelSettings

namespace Tunnel

/-- The protocol of a tunnel: its name, or an object whose one key is the name, with no value. -/
def protocolName : Decoder Unit
  | _, .text s => if s = "wireguard" then .ok () else .error .unfit
  | _, .members [(some "wireguard", .null)] none => .ok ()
  | _, d => .error d.refusal

def fields : List (RecordField Tunnel) :=
  [ .mandatory "protocol" protocolName fun _ r => r,
    .mandatory "tag" .text fun v r => { r with tag := v },
    .mandatory "settings" TunnelSettings.decoder fun v r => { r with settings := v } ]

def decoder : Decoder Tunnel :=
  Record.opened fields (fun k v r => { r with rest := Members.insert k v r.rest }) default

end Tunnel

namespace PlainOutbound

def fields : List (RecordField PlainOutbound) :=
  [ .mandatory "protocol" .text fun v r => { r with protocol := v },
    .optional "tag" .text fun v r => { r with tag := v } ]

def decoder : Decoder PlainOutbound :=
  Record.opened fields (fun k v r => { r with rest := Members.insert k v r.rest }) { protocol := "" }

end PlainOutbound

namespace Outbound

/-- A tunnel where the value has all that a tunnel needs, else a plain outbound. -/
def decoder : Decoder Outbound :=
  .oneOf (Tunnel.decoder.andThen .tunnel) (PlainOutbound.decoder.andThen .plain)

end Outbound

namespace RelayConfig

def fields : List (RecordField RelayConfig) :=
  [ .optional "log" .json fun v r => { r with log := v },
    .optional "api" .json fun v r => { r with api := v },
    .optional "stats" .json fun v r => { r with stats := v },
    .optional "metrics" .json fun v r => { r with metrics := v },
    .optional "policy" Policy.decoder fun v r => { r with policy := v },
    .defaulted "inbounds" (.list Inbound.decoder) fun v r => { r with inbounds := v },
    .defaulted "outbounds" (.list Outbound.decoder) fun v r => { r with outbounds := v },
    .optional "routing" .json fun v r => { r with routing := v },
    .optional "dns" .json fun v r => { r with dns := v } ]

def decoder : Decoder RelayConfig :=
  Record.opened fields (fun k v r => { r with rest := Members.insert k v r.rest }) {}

end RelayConfig

end RelayControl
