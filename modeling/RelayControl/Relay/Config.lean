import RelayControl.Json.Basic

/-!
The configuration document of the relay. The sections that the control plane never touches are kept
as JSON values; the parts it changes have types, and each keeps the members it does not know in
`rest`.
-/

namespace RelayControl

/-- Connection policy of one user level; times are in seconds, the buffer size in KiB. -/
structure LevelPolicy where
  handshake : Option UInt32 := none
  connIdle : Option UInt32 := none
  uplinkOnly : Option UInt32 := none
  downlinkOnly : Option UInt32 := none
  bufferSize : Option UInt32 := none
  statsUserUplink : Option Bool := none
  statsUserDownlink : Option Bool := none
  rest : Members := []
  deriving BEq, ReflBEq, Inhabited

structure Policy where
  levels : List (String × LevelPolicy) := []
  system : Option Json := none
  rest : Members := []
  deriving BEq, ReflBEq, Inhabited

structure Client where
  id : Option String := none
  password : Option String := none
  email : Option String := none
  flow : Option String := none
  method : Option String := none
  deriving DecidableEq, Inhabited, Repr

/-- Protocol settings of an inbound; only the client list has a type. -/
structure InboundSettings where
  clients : Option (List Client) := none
  rest : Members := []
  deriving BEq, ReflBEq, Inhabited

structure SocketOptions where
  tcpFastOpen : Option Bool := none
  tcpKeepAliveInterval : Option UInt32 := none
  tcpNoDelay : Option Bool := none
  rest : Members := []
  deriving BEq, ReflBEq, Inhabited

structure StreamSettings where
  tlsSettings : Option Members := none
  realitySettings : Option Members := none
  /-- A hint for share links, not meant for the relay. -/
  externalProxy : Option Json := none
  sockopt : Option SocketOptions := none
  rest : Members := []
  deriving BEq, ReflBEq, Inhabited

structure Inbound where
  listen : Option String := none
  /-- A port number, or a text that holds one or a range of them. -/
  port : Json
  protocol : String
  settings : InboundSettings := {}
  streamSettings : Option StreamSettings := none
  tag : String
  sniffing : Option Json := none
  rest : Members := []
  deriving BEq, ReflBEq, Inhabited

structure Peer where
  publicKey : String
  allowedIPs : List String
  endpoint : String
  rest : Members := []
  deriving BEq, ReflBEq, Inhabited

structure TunnelSettings where
  secretKey : String
  address : List String
  peers : List Peer
  mtu : UInt32
  workers : UInt32
  domainStrategy : Option String := none
  reserved : Option (List UInt8) := none
  rest : Members := []
  deriving BEq, ReflBEq, Inhabited

structure Tunnel where
  tag : String
  settings : TunnelSettings
  rest : Members := []
  deriving BEq, ReflBEq, Inhabited

structure PlainOutbound where
  protocol : String
  tag : Option String := none
  rest : Members := []
  deriving BEq, ReflBEq, Inhabited

inductive Outbound where
  | tunnel (t : Tunnel)
  | plain (o : PlainOutbound)
  deriving BEq, ReflBEq, Inhabited

structure RelayConfig where
  log : Option Json := none
  api : Option Json := none
  stats : Option Json := none
  metrics : Option Json := none
  policy : Option Policy := none
  inbounds : List Inbound := []
  outbounds : List Outbound := []
  routing : Option Json := none
  dns : Option Json := none
  rest : Members := []
  deriving BEq, ReflBEq, Inhabited

namespace Outbound

def tag? : Outbound → Option String
  | .tunnel t => some t.tag
  | .plain o => o.tag

def protocol : Outbound → String
  | .tunnel _ => "wireguard"
  | .plain o => o.protocol

end Outbound

end RelayControl
