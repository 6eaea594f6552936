import RelayControl.Proofs.Json.Decoders
import RelayControl.Proofs.Json.Layout
import RelayControl.Relay.Config.Decode
import RelayControl.Relay.Config.Encode

/-!
The layouts of the records of a relay configuration. Each record is read and written as its layout
tells.
-/

namespace RelayControl

open Json

namespace LevelPolicy

def layout : Layout LevelPolicy where
  slots :=
    [ .optional "handshake" .word32 Json.word (·.handshake) fun v r => { r with handshake := v },
      .optional "connIdle" .word32 Json.word (·.connIdle) fun v r => { r with connIdle := v },
      .optional "uplinkOnly" .word32 Json.word (·.uplinkOnly)
        fun v r => { r with uplinkOnly := v },
      .optional "downlinkOnly" .word32 Json.word (·.downlinkOnly)
        fun v r => { r with downlinkOnly := v },
      .optional "bufferSize" .word32 Json.word (·.bufferSize)
        fun v r => { r with bufferSize := v },
      .optional "statsUserUplink" .bool .bool (·.statsUserUplink)
        fun v r => { r with statsUserUplink := v },
      .optional "statsUserDownlink" .bool .bool (·.statsUserDownlink)
        fun v r => { r with statsUserDownlink := v } ]
  blank := {}
  rest := (·.rest)
  keep k v r := { r with rest := Members.insert k v r.rest }

theorem decoder_eq : decoder = layout.opened := rfl

theorem toJson_eq (p : LevelPolicy) : p.toJson = .object (layout.write p) := by
  simp only [toJson, layout, Layout.write, Slot.written, member?_eq, List.flatMap_cons,
    List.flatMap_nil, List.append_assoc, List.append_nil]
  rfl

theorem keeps : layout.Keeps where
  apart := ⟨by decide, by simp [layout], by simp [layout]⟩
  rest_put := by simp [layout]
  rest_blank := rfl
  ext r r' := by
    cases r
    cases r'
    simp +contextual [layout]
  get_keep := by simp [layout]
  rest_keep _ _ _ := rfl

end LevelPolicy

namespace Policy

def layout : Layout Policy where
  slots :=
    [ .defaulted "levels" (.map LevelPolicy.decoder) (entries LevelPolicy.toJson) (·.levels)
        fun v r => { r with levels := v },
      .optional "system" .json id (·.system) fun v r => { r with system := v } ]
  blank := {}
  rest := (·.rest)
  keep k v r := { r with rest := Members.insert k v r.rest }

theorem decoder_eq : decoder = layout.opened := rfl

theorem toJson_eq (p : Policy) : p.toJson = .object (layout.write p) := by
  simp only [toJson, layout, Layout.write, Slot.written, member?_eq, List.flatMap_cons,
    List.flatMap_nil, List.append_assoc, List.append_nil]
  rfl

theorem keeps : layout.Keeps where
  apart := ⟨by decide, by simp [layout], by simp [layout]⟩
  rest_put := by simp [layout]
  rest_blank := rfl
  ext r r' := by
    cases r
    cases r'
    simp +contextual [layout]
  get_keep := by simp [layout]
  rest_keep _ _ _ := rfl

end Policy

namespace Client

def layout : Layout Client where
  slots :=
    [ .optional "id" .text .text (·.id) fun v r => { r with id := v },
      .optional "password" .text .text (·.password) fun v r => { r with password := v },
      .optional "email" .text .text (·.email) fun v r => { r with email := v },
      .optional "flow" .text .text (·.flow) fun v r => { r with flow := v },
      .optional "method" .text .text (·.method) fun v r => { r with method := v } ]
  blank := {}
  rest _ := []
  keep _ _ r := r

theorem decoder_eq : decoder = layout.closed := rfl

theorem toJson_eq (c : Client) : c.toJson = .object (layout.write c) := by
  simp only [toJson, layout, Layout.write, Slot.written, member?_eq, List.flatMap_cons,
    List.flatMap_nil, List.append_assoc, List.append_nil]
  rfl

theorem lawful : layout.Lawful where
  apart := ⟨by decide, by simp [layout], by simp [layout]⟩
  rest_put _ _ _ _ := rfl
  rest_blank := rfl
  ext r r' := by
    cases r
    cases r'
    simp +contextual [layout]

theorem bare (c : Client) : layout.rest c = [] := rfl

theorem nodup_write (c : Client) : ((layout.write c).map (·.1)).Nodup := by
  rw [Layout.write, bare, List.append_nil]
  exact Slot.nodup_written lawful.apart.names c

theorem text_of_mem_write {c : Client} {m : String × Json} (member : m ∈ layout.write c) :
    ∃ t, m.2 = .text t := by
  rw [Layout.write, bare, List.append_nil] at member
  obtain ⟨s, among, own⟩ := List.mem_flatMap.mp member
  obtain ⟨v, present, rfl⟩ := List.mem_map.mp own
  have each : ∀ s ∈ layout.slots, ∀ v, s.member? c = some v → ∃ t, v = .text t := by
    have text : ∀ {t? : Option String} (v : Json), t?.map Json.text = some v →
        ∃ t, v = .text t := by
      intro t? v written
      obtain ⟨t, -, rfl⟩ := Option.map_eq_some_iff.mp written
      exact ⟨t, rfl⟩
    simp only [layout, List.forall_mem_cons]
    exact ⟨text, text, text, text, text, List.forall_mem_nil _⟩
  exact each s among v (Option.mem_toList.mp present)

end Client

namespace InboundSettings

def layout : Layout InboundSettings where
  slots :=
    [ .optional "clients" (.list Client.decoder) (items Client.toJson) (·.clients)
        fun v r => { r with clients := v } ]
  blank := {}
  rest := (·.rest)
  keep k v r := { r with rest := Members.insert k v r.rest }

theorem decoder_eq : decoder = layout.opened := rfl

theorem toJson_eq (s : InboundSettings) : s.toJson = .object (layout.write s) := by
  simp only [toJson, layout, Layout.write, Slot.written, member?_eq, List.flatMap_cons,
    List.flatMap_nil, List.append_nil]
  rfl

theorem keeps : layout.Keeps where
  apart := ⟨by decide, by simp [layout], by simp [layout]⟩
  rest_put := by simp [layout]
  rest_blank := rfl
  ext r r' := by
    cases r
    cases r'
    simp +contextual [layout]
  get_keep := by simp [layout]
  rest_keep _ _ _ := rfl

end InboundSettings

namespace SocketOptions

def layout : Layout SocketOptions where
  slots :=
    [ .optional "tcpFastOpen" .bool .bool (·.tcpFastOpen) fun v r => { r with tcpFastOpen := v },
      .optional "tcpKeepAliveInterval" .word32 Json.word (·.tcpKeepAliveInterval)
        fun v r => { r with tcpKeepAliveInterval := v },
      .optional "tcpNoDelay" .bool .bool (·.tcpNoDelay) fun v r => { r with tcpNoDelay := v } ]
  blank := {}
  rest := (·.rest)
  keep k v r := { r with rest := Members.insert k v r.rest }

theorem decoder_eq : decoder = layout.opened := rfl

theorem toJson_eq (o : SocketOptions) : o.toJson = .object (layout.write o) := by
  simp only [toJson, layout, Layout.write, Slot.written, member?_eq, List.flatMap_cons,
    List.flatMap_nil, List.append_assoc, List.append_nil]
  rfl

theorem keeps : layout.Keeps where
  apart := ⟨by decide, by simp [layout], by simp [layout]⟩
  rest_put := by simp [layout]
  rest_blank := rfl
  ext r r' := by
    cases r
    cases r'
    simp +contextual [layout]
  get_keep := by simp [layout]
  rest_keep _ _ _ := rfl

end SocketOptions

namespace StreamSettings

def layout : Layout StreamSettings where
  slots :=
    [ .optional "tlsSettings" .members .object (·.tlsSettings)
        fun v r => { r with tlsSettings := v },
      .optional "realitySettings" .members .object (·.realitySettings)
        fun v r => { r with realitySettings := v },
      .optional "externalProxy" .json id (·.externalProxy)
        fun v r => { r with externalProxy := v },
      .optional "sockopt" SocketOptions.decoder SocketOptions.toJson (·.sockopt)
        fun v r => { r with sockopt := v } ]
  blank := {}
  rest := (·.rest)
  keep k v r := { r with rest := Members.insert k v r.rest }

theorem decoder_eq : decoder = layout.opened := rfl

theorem toJson_eq (s : StreamSettings) : s.toJson = .object (layout.write s) := by
  simp only [toJson, layout, Layout.write, Slot.written, member?_eq, List.flatMap_cons,
    List.flatMap_nil, List.append_assoc, List.append_nil]
  rfl

theorem keeps : layout.Keeps where
  apart := ⟨by decide, by simp [layout], by simp [layout]⟩
  rest_put := by simp [layout]
  rest_blank := rfl
  ext r r' := by
    cases r
    cases r'
    simp +contextual [layout]
  get_keep := by simp [layout]
  rest_keep _ _ _ := rfl

end StreamSettings

namespace Inbound

def layout : Layout Inbound where
  slots :=
    [ .optional "listen" .text .text (·.listen) fun v r => { r with listen := v },
      .mandatory "port" .json id (·.port) fun v r => { r with port := v },
      .mandatory "protocol" .text .text (·.protocol) fun v r => { r with protocol := v },
      .defaulted "settings" InboundSettings.decoder InboundSettings.toJson (·.settings)
        fun v r => { r with settings := v },
      .optional "streamSettings" StreamSettings.decoder StreamSettings.toJson (·.streamSettings)
        fun v r => { r with streamSettings := v },
      .mandatory "tag" .text .text (·.tag) fun v r => { r with tag := v },
      .optional "sniffing" .json id (·.sniffing) fun v r => { r with sniffing := v } ]
  blank := { port := .null, protocol := "", tag := "" }
  rest := (·.rest)
  keep k v r := { r with rest := Members.insert k v r.rest }

theorem decoder_eq : decoder = layout.opened := rfl

theorem toJson_eq (i : Inbound) : i.toJson = .object (layout.write i) := by
  simp only [toJson, layout, Layout.write, Slot.written, member?_eq, List.flatMap_cons,
    List.flatMap_nil, List.append_assoc, List.append_nil]
  rfl

theorem keeps : layout.Keeps where
  apart := ⟨by decide, by simp [layout], by simp [layout]⟩
  rest_put := by simp [layout]
  rest_blank := rfl
  ext r r' := by
    cases r
    cases r'
    simp +contextual [layout]
  get_keep := by simp [layout]
  rest_keep _ _ _ := rfl

end Inbound

namespace Peer

def layout : Layout Peer where
  slots :=
    [ .mandatory "publicKey" .text .text (·.publicKey) fun v r => { r with publicKey := v },
      .mandatory "allowedIPs" (.list .text) (items .text) (·.allowedIPs)
        fun v r => { r with allowedIPs := v },
      .mandatory "endpoint" .text .text (·.endpoint) fun v r => { r with endpoint := v } ]
  blank := { publicKey := "", allowedIPs := [], endpoint := "" }
  rest := (·.rest)
  keep k v r := { r with rest := Members.insert k v r.rest }

theorem decoder_eq : decoder = layout.opened := rfl

theorem toJson_eq (p : Peer) : p.toJson = .object (layout.write p) := by
  simp only [toJson, layout, Layout.write, Slot.written, List.flatMap_cons,
    List.flatMap_nil, List.append_assoc, List.append_nil]
  rfl

theorem keeps : layout.Keeps where
  apart := ⟨by decide, by simp [layout], by simp [layout]⟩
  rest_put := by simp [layout]
  rest_blank := rfl
  ext r r' := by
    cases r
    cases r'
    simp +contextual [layout]
  get_keep := by simp [layout]
  rest_keep _ _ _ := rfl

end Peer

namespace TunnelSettings

def layout : Layout TunnelSettings where
  slots :=
    [ .mandatory "secretKey" .text .text (·.secretKey) fun v r => { r with secretKey := v },
      .mandatory "address" (.list .text) (items .text) (·.address)
        fun v r => { r with address := v },
      .mandatory "peers" (.list Peer.decoder) (items Peer.toJson) (·.peers)
        fun v r => { r with peers := v },
      .mandatory "mtu" .word32 Json.word (·.mtu) fun v r => { r with mtu := v },
      .mandatory "workers" .word32 Json.word (·.workers) fun v r => { r with workers := v },
      .optional "domainStrategy" .text .text (·.domainStrategy)
        fun v r => { r with domainStrategy := v },
      .optional "reserved" (.list .byte) (items byte) (·.reserved)
        fun v r => { r with reserved := v } ]
  blank := { secretKey := "", address := [], peers := [], mtu := 0, workers := 0 }
  rest := (·.rest)
  keep k v r := { r with rest := Members.insert k v r.rest }

theorem decoder_eq : decoder = layout.opened := rfl

theorem toJson_eq (s : TunnelSettings) : s.toJson = .object (layout.write s) := by
  simp only [toJson, layout, Layout.write, Slot.written, member?_eq, List.flatMap_cons,
    List.flatMap_nil, List.append_assoc, List.append_nil]
  rfl

theorem keeps : layout.Keeps where
  apart := ⟨by decide, by simp [layout], by simp [layout]⟩
  rest_put := by simp [layout]
  rest_blank := rfl
  ext r r' := by
    cases r
    cases r'
    simp +contextual [layout]
  get_keep := by simp [layout]
  rest_keep _ _ _ := rfl

end TunnelSettings

namespace Tunnel

def layout : Layout Tunnel where
  slots :=
    [ .mandatory "protocol" protocolName (fun _ => .text "wireguard") (fun _ => ()) fun _ r => r,
      .mandatory "tag" .text .text (·.tag) fun v r => { r with tag := v },
      .mandatory "settings" TunnelSettings.decoder TunnelSettings.toJson (·.settings)
        fun v r => { r with settings := v } ]
  blank := default
  rest := (·.rest)
  keep k v r := { r with rest := Members.insert k v r.rest }

theorem decoder_eq : decoder = layout.opened := rfl

theorem toJson_eq (t : Tunnel) : (Outbound.tunnel t).toJson = .object (layout.write t) := by
  simp only [Outbound.toJson, layout, Layout.write, Slot.written, List.flatMap_cons,
    List.flatMap_nil, List.append_assoc, List.append_nil]
  rfl

theorem keeps : layout.Keeps where
  apart := ⟨by decide, by simp [layout], by simp [layout]⟩
  rest_put := by simp [layout]
  rest_blank := rfl
  ext r r' := by
    cases r
    cases r'
    simp +contextual [layout]
  get_keep := by simp [layout]
  rest_keep _ _ _ := rfl

end Tunnel

namespace PlainOutbound

def layout : Layout PlainOutbound where
  slots :=
    [ .mandatory "protocol" .text .text (·.protocol) fun v r => { r with protocol := v },
      .optional "tag" .text .text (·.tag) fun v r => { r with tag := v } ]
  blank := { protocol := "" }
  rest := (·.rest)
  keep k v r := { r with rest := Members.insert k v r.rest }

theorem decoder_eq : decoder = layout.opened := rfl

theorem toJson_eq (o : PlainOutbound) :
    (Outbound.plain o).toJson = .object (layout.write o) := by
  simp only [Outbound.toJson, layout, Layout.write, Slot.written, member?_eq, List.flatMap_cons,
    List.flatMap_nil, List.append_assoc, List.append_nil]
  rfl

theorem keeps : layout.Keeps where
  apart := ⟨by decide, by simp [layout], by simp [layout]⟩
  rest_put := by simp [layout]
  rest_blank := rfl
  ext r r' := by
    cases r
    cases r'
    simp +contextual [layout]
  get_keep := by simp [layout]
  rest_keep _ _ _ := rfl

end PlainOutbound

namespace RelayConfig

def layout : Layout RelayConfig where
  slots :=
    [ .optional "log" .json id (·.log) fun v r => { r with log := v },
      .optional "api" .json id (·.api) fun v r => { r with api := v },
      .optional "stats" .json id (·.stats) fun v r => { r with stats := v },
      .optional "metrics" .json id (·.metrics) fun v r => { r with metrics := v },
      .optional "policy" Policy.decoder Policy.toJson (·.policy) fun v r => { r with policy := v },
      .defaulted "inbounds" (.list Inbound.decoder) (items Inbound.toJson) (·.inbounds)
        fun v r => { r with inbounds := v },
      .defaulted "outbounds" (.list Outbound.decoder) (items Outbound.toJson) (·.outbounds)
        fun v r => { r with outbounds := v },
      .optional "routing" .json id (·.routing) fun v r => { r with routing := v },
      .optional "dns" .json id (·.dns) fun v r => { r with dns := v } ]
  blank := {}
  rest := (·.rest)
  keep k v r := { r with rest := Members.insert k v r.rest }

theorem decoder_eq : decoder = layout.opened := rfl

theorem toJson_eq (c : RelayConfig) : c.toJson = .object (layout.write c) := by
  simp only [toJson, layout, Layout.write, Slot.written, member?_eq, List.flatMap_cons,
    List.flatMap_nil, List.append_assoc, List.append_nil]
  rfl

theorem keeps : layout.Keeps where
  apart := ⟨by decide, by simp [layout], by simp [layout]⟩
  rest_put := by simp [layout]
  rest_blank := rfl
  ext r r' := by
    cases r
    cases r'
    simp +contextual [layout]
  get_keep := by simp [layout]
  rest_keep _ _ _ := rfl

end RelayConfig

end RelayControl
