import RelayControl.Proofs.Json.Rewrite
import RelayControl.Proofs.Json.Shapes
import RelayControl.Proofs.Relay.Config.Layouts

/-!
What comes back of a template that is read and written again. Each section says which of its members
do not come back as they are; all others do, at any depth, and so do the members no section knows.
Whether an outbound is a tunnel shows in its value.
-/

namespace RelayControl

open Json
open Layout (faithfulAt_opened)
open Slot (follows_optional follows_mandatory follows_defaulted)

namespace LevelPolicy

def returned : Json → Json :=
  rewrite
    [ ("handshake", .nullable), ("connIdle", .nullable), ("uplinkOnly", .nullable),
      ("downlinkOnly", .nullable), ("bufferSize", .nullable), ("statsUserUplink", .nullable),
      ("statsUserDownlink", .nullable) ]

theorem faithful : Faithful decoder toJson returned := by
  intro p
  apply faithfulAt_opened keeps ⟨by decide, by decide⟩ decoder_eq (toJson_eq p)
  intro depth
  simp only [layout, List.forall_mem_cons]
  exact ⟨follows_optional rfl rfl faithful_word32, follows_optional rfl rfl faithful_word32,
    follows_optional rfl rfl faithful_word32, follows_optional rfl rfl faithful_word32,
    follows_optional rfl rfl faithful_word32, follows_optional rfl rfl faithful_bool,
    follows_optional rfl rfl faithful_bool, List.forall_mem_nil _⟩

end LevelPolicy

namespace Policy

/-- Missing levels are added. -/
def returned : Json → Json :=
  rewrite
    [ ("levels", .defaulted (.object []) (eachMember LevelPolicy.returned)),
      ("system", .nullable) ]

theorem faithful : Faithful decoder toJson returned := by
  intro p
  apply faithfulAt_opened keeps ⟨by decide, by decide⟩ decoder_eq (toJson_eq p)
  intro depth
  simp only [layout, List.forall_mem_cons]
  exact ⟨follows_defaulted rfl rfl (faithful_map LevelPolicy.faithful p.levels),
    follows_optional rfl rfl faithful_json, List.forall_mem_nil _⟩

end Policy

namespace Client

def names : List String := ["id", "password", "email", "flow", "method"]

/-- Of the members of a client, those come back that it knows, but no `null`. -/
def known (ms : List (String × Json)) : Json :=
  rewrite (names.map (·, .nullable)) (.object (ms.filter fun (k, _) => names.contains k))

/-- A client that is written as the row of its values comes back as the object of them. -/
def returned : Json → Json
  | .array vs => known (names.zip vs)
  | .object ms => known ms
  | v => v

theorem ordered_write {depth : Nat} {ms : List (String × Json)} {c : Client}
    (distinct : (object ms).Distinct)
    (held : Slot.Held layout.slots layout.blank depth (fun k => (ms.lookup k).map Doc.ofJson) c) :
    (object (layout.write c)).ordered = (known ms).ordered := by
  rw [distinct_object] at distinct
  have names_eq : names = layout.slots.map (·.name) := rfl
  have found : ∀ s ∈ layout.slots,
      (ms.filter fun (k, _) => names.contains k).lookup s.name = ms.lookup s.name := by
    intro s member
    apply lookup_filter_of_kept
    rw [names_eq, List.contains_iff_mem]
    exact List.mem_map_of_mem member
  have holds : layout.Holds depth
      (fun k => ((ms.filter fun (k, _) => names.contains k).lookup k).map Doc.ofJson) c := by
    apply Layout.Holds.of_held bare
    · constructor
      · intro s member
        rw [found s member]
        exact held.given s member
      · intro s member
        rw [found s member]
        exact held.missing s member
    · intro k foreign
      rw [Option.map_eq_none_iff, lookup_eq_none_iff_notMem]
      intro inside
      obtain ⟨m, kept, rfl⟩ := List.mem_map.mp inside
      have own := List.contains_iff_mem.mp (List.mem_filter.mp kept).2
      obtain ⟨s, member, named⟩ := List.mem_map.mp (names_eq ▸ own)
      exact foreign s member named
  apply holds.ordered_write lawful ⟨by decide, by decide⟩
  · rw [distinct_object]
    exact ⟨distinct.1.sublist (List.filter_sublist.map _),
      fun m member => distinct.2 m (List.mem_of_mem_filter member)⟩
  · simp only [layout, List.forall_mem_cons]
    exact ⟨follows_optional rfl rfl faithful_text, follows_optional rfl rfl faithful_text,
      follows_optional rfl rfl faithful_text, follows_optional rfl rfl faithful_text,
      follows_optional rfl rfl faithful_text, List.forall_mem_nil _⟩

theorem faithful : Faithful decoder toJson returned := by
  intro c depth v distinct read
  rw [decoder_eq] at read
  rw [toJson_eq]
  cases v with
  | object ms =>
      obtain ⟨-, held⟩ := Layout.held_of_closed_members lawful read
      have keys := Doc.nodup_ofMembers (distinct_object.mp distinct).1
      simp only [lookup_reverse keys, Doc.lookup_ofMembers] at held
      exact ordered_write distinct held
  | array vs =>
      obtain ⟨-, held⟩ := Layout.held_of_closed_items lawful read
      have found : ∀ k, ((layout.slots.map (·.name)).zip (Doc.ofItems vs)).lookup k =
          ((names.zip vs).lookup k).map Doc.ofJson := by
        intro k
        rw [Doc.ofItems_eq_map, List.zip_map_right]
        exact lookup_map_values Doc.ofJson (names.zip vs) k
      simp only [found] at held
      refine ordered_write (distinct_object.mpr ⟨?_, ?_⟩) held
      · exact (show names.Nodup by decide).sublist (keys_zip_sublist names vs)
      · exact fun m member => distinct_array.mp distinct m.2 (List.of_mem_zip member).2
  | _ => cases read

end Client

namespace InboundSettings

def returned : Json → Json := rewrite [("clients", .optional (each Client.returned))]

theorem faithful : Faithful decoder toJson returned := by
  intro s
  apply faithfulAt_opened keeps ⟨by decide, by decide⟩ decoder_eq (toJson_eq s)
  intro depth
  simp only [layout, List.forall_mem_cons]
  exact ⟨follows_optional rfl rfl (faithful_list Client.faithful), List.forall_mem_nil _⟩

end InboundSettings

namespace SocketOptions

def returned : Json → Json :=
  rewrite
    [ ("tcpFastOpen", .nullable), ("tcpKeepAliveInterval", .nullable), ("tcpNoDelay", .nullable) ]

theorem faithful : Faithful decoder toJson returned := by
  intro o
  apply faithfulAt_opened keeps ⟨by decide, by decide⟩ decoder_eq (toJson_eq o)
  intro depth
  simp only [layout, List.forall_mem_cons]
  exact ⟨follows_optional rfl rfl faithful_bool, follows_optional rfl rfl faithful_word32,
    follows_optional rfl rfl faithful_bool, List.forall_mem_nil _⟩

end SocketOptions

namespace StreamSettings

def returned : Json → Json :=
  rewrite
    [ ("tlsSettings", .nullable), ("realitySettings", .nullable), ("externalProxy", .nullable),
      ("sockopt", .optional SocketOptions.returned) ]

theorem faithful : Faithful decoder toJson returned := by
  intro s
  apply faithfulAt_opened keeps ⟨by decide, by decide⟩ decoder_eq (toJson_eq s)
  intro depth
  simp only [layout, List.forall_mem_cons]
  exact ⟨follows_optional rfl rfl faithful_members, follows_optional rfl rfl faithful_members,
    follows_optional rfl rfl faithful_json, follows_optional rfl rfl SocketOptions.faithful,
    List.forall_mem_nil _⟩

end StreamSettings

namespace Inbound

/-- Missing settings are added. -/
def returned : Json → Json :=
  rewrite
    [ ("listen", .nullable), ("settings", .defaulted (.object []) InboundSettings.returned),
      ("streamSettings", .optional StreamSettings.returned), ("sniffing", .nullable) ]

theorem faithful : Faithful decoder toJson returned := by
  intro i
  apply faithfulAt_opened keeps ⟨by decide, by decide⟩ decoder_eq (toJson_eq i)
  intro depth
  simp only [layout, List.forall_mem_cons]
  exact ⟨follows_optional rfl rfl faithful_text, follows_mandatory (fun _ => rfl) faithful_json,
    follows_mandatory (fun _ => rfl) faithful_text,
    follows_defaulted rfl rfl (InboundSettings.faithful i.settings),
    follows_optional rfl rfl StreamSettings.faithful,
    follows_mandatory (fun _ => rfl) faithful_text, follows_optional rfl rfl faithful_json,
    List.forall_mem_nil _⟩

end Inbound

namespace Peer

def shape : Shape :=
  .withMembers
    [ .mandatory "publicKey" .text, .mandatory "allowedIPs" (.listOf .text),
      .mandatory "endpoint" .text ]

theorem accepts : Accepts decoder shape := by
  rw [decoder_eq]
  apply Layout.accepts_opened keeps
  exact .cons ⟨rfl, rfl, accepts_text⟩ <| .cons ⟨rfl, rfl, accepts_list accepts_text⟩ <|
    .cons ⟨rfl, rfl, accepts_text⟩ .nil

theorem faithful : Faithful decoder toJson id := by
  intro p
  have whole : (id : Json → Json) = rewrite [] := funext fun v => (rewrite_nil v).symm
  rw [whole]
  apply faithfulAt_opened keeps ⟨by decide, by decide⟩ decoder_eq (toJson_eq p)
  intro depth
  simp only [layout, List.forall_mem_cons]
  exact ⟨follows_mandatory (fun _ => rfl) faithful_text,
    follows_mandatory (fun _ => rfl) (faithful_list_id faithful_text),
    follows_mandatory (fun _ => rfl) faithful_text, List.forall_mem_nil _⟩

end Peer

namespace TunnelSettings

def shape : Shape :=
  .withMembers
    [ .mandatory "secretKey" .text, .mandatory "address" (.listOf .text),
      .mandatory "peers" (.listOf Peer.shape), .mandatory "mtu" (.natural 32),
      .mandatory "workers" (.natural 32), .optional "domainStrategy" .text,
      .optional "reserved" (.listOf (.natural 8)) ]

theorem accepts : Accepts decoder shape := by
  rw [decoder_eq]
  apply Layout.accepts_opened keeps
  exact .cons ⟨rfl, rfl, accepts_text⟩ <| .cons ⟨rfl, rfl, accepts_list accepts_text⟩ <|
    .cons ⟨rfl, rfl, accepts_list Peer.accepts⟩ <| .cons ⟨rfl, rfl, accepts_word32⟩ <|
    .cons ⟨rfl, rfl, accepts_word32⟩ <| .cons ⟨rfl, rfl, accepts_optional accepts_text⟩ <|
    .cons ⟨rfl, rfl, accepts_optional (accepts_list accepts_byte)⟩ .nil

def returned : Json → Json := rewrite [("domainStrategy", .nullable), ("reserved", .nullable)]

theorem faithful : Faithful decoder toJson returned := by
  intro s
  apply faithfulAt_opened keeps ⟨by decide, by decide⟩ decoder_eq (toJson_eq s)
  intro depth
  simp only [layout, List.forall_mem_cons]
  exact ⟨follows_mandatory (fun _ => rfl) faithful_text,
    follows_mandatory (fun _ => rfl) (faithful_list_id faithful_text),
    follows_mandatory (fun _ => rfl) (faithful_list_id Peer.faithful),
    follows_mandatory (fun _ => rfl) faithful_word32,
    follows_mandatory (fun _ => rfl) faithful_word32, follows_optional rfl rfl faithful_text,
    follows_optional rfl rfl (faithful_list_id faithful_byte),
    List.forall_mem_nil _⟩

end TunnelSettings

namespace Tunnel

/-- The name of the protocol, by itself or as the one key of an object that says no more. -/
def protocolShape : Shape
  | .text s => s == "wireguard"
  | .object [("wireguard", .null)] => true
  | _ => false

def shape : Shape :=
  .withMembers
    [ .mandatory "protocol" protocolShape, .mandatory "tag" .text,
      .mandatory "settings" TunnelSettings.shape ]

theorem accepts_protocol : Accepts protocolName protocolShape := by
  intro depth v _ _
  fun_cases protocolShape v with
  | case1 s => simp [protocolName, Doc.ofJson]
  | case2 => simp [protocolName, Doc.ofJson, Doc.ofMembers]
  | case3 _ unnamed untagged =>
      rw [Bool.false_eq_true, iff_false]
      rintro ⟨_, read⟩
      unfold protocolName at read
      split at read
      next s same _ => exact unnamed s (Doc.ofJson_injective same)
      next same _ => exact untagged (Doc.ofJson_injective same)
      next => cases read

theorem accepts : Accepts decoder shape := by
  rw [decoder_eq]
  apply Layout.accepts_opened keeps
  exact .cons ⟨rfl, rfl, accepts_protocol⟩ <| .cons ⟨rfl, rfl, accepts_text⟩ <|
    .cons ⟨rfl, rfl, TunnelSettings.accepts⟩ .nil

/-- The protocol is written as a name. -/
def returned : Json → Json :=
  rewrite
    [ ("protocol", .changed fun _ => .text "wireguard"),
      ("settings", .changed TunnelSettings.returned) ]

theorem faithful : Faithful decoder (fun t => (Outbound.tunnel t).toJson) returned := by
  intro t
  apply faithfulAt_opened keeps ⟨by decide, by decide⟩ decoder_eq (toJson_eq t)
  intro depth
  simp only [layout, List.forall_mem_cons]
  exact ⟨follows_mandatory (fun _ => rfl) fun _ _ _ _ _ => rfl,
    follows_mandatory (fun _ => rfl) faithful_text,
    follows_mandatory (fun _ => rfl) TunnelSettings.faithful, List.forall_mem_nil _⟩

end Tunnel

namespace PlainOutbound

def returned : Json → Json := rewrite [("tag", .nullable)]

theorem faithful : Faithful decoder (fun o => (Outbound.plain o).toJson) returned := by
  intro o
  apply faithfulAt_opened keeps ⟨by decide, by decide⟩ decoder_eq (toJson_eq o)
  intro depth
  simp only [layout, List.forall_mem_cons]
  exact ⟨follows_mandatory (fun _ => rfl) faithful_text, follows_optional rfl rfl faithful_text,
    List.forall_mem_nil _⟩

end PlainOutbound

namespace Outbound

/-- What has all that a tunnel needs comes back as one; any other outbound is carried as it is. -/
def returned (v : Json) : Json :=
  if Tunnel.shape v then Tunnel.returned v else PlainOutbound.returned v

theorem faithful : Faithful decoder toJson returned := by
  intro o depth v distinct read
  obtain ⟨⟨w, sound⟩, taken⟩ := Decoder.oneOf_eq_ok read
  have readable : v.Readable depth := by rwa [Readable, ← Doc.toJson_ofJson sound]
  have accepts := Tunnel.accepts distinct readable
  rcases taken with tunnel | ⟨⟨e, failed⟩, plain⟩
  · obtain ⟨t, found, rfl⟩ := map_eq_ok_iff.mp tunnel
    rw [returned, if_pos (accepts.mp ⟨t, found⟩)]
    exact Tunnel.faithful t distinct found
  · obtain ⟨p, found, rfl⟩ := map_eq_ok_iff.mp plain
    rw [returned, if_neg]
    · exact PlainOutbound.faithful p distinct found
    · intro shaped
      obtain ⟨t, found⟩ := accepts.mpr shaped
      simp [Decoder.andThen, found, Except.map] at failed

end Outbound

namespace RelayConfig

/-- Missing lists of inbounds and outbounds are added. -/
def returned : Json → Json :=
  rewrite
    [ ("log", .nullable), ("api", .nullable), ("stats", .nullable), ("metrics", .nullable),
      ("policy", .optional Policy.returned),
      ("inbounds", .defaulted (.array []) (each Inbound.returned)),
      ("outbounds", .defaulted (.array []) (each Outbound.returned)),
      ("routing", .nullable), ("dns", .nullable) ]

/-- Nothing in a template is lost but what its sections do not bring back. -/
theorem template_returned {v : Json} {c : RelayConfig} (distinct : v.Distinct)
    (read : fromJson decoder v = .ok c) : c.toJson.ordered = (returned v).ordered := by
  refine faithfulAt_opened keeps ⟨by simp, ?_⟩ decoder_eq (toJson_eq c) ?_ distinct read
  · simp [layout]
  intro depth
  simp only [layout, List.forall_mem_cons]
  exact ⟨follows_optional rfl rfl faithful_json, follows_optional rfl rfl faithful_json,
    follows_optional rfl rfl faithful_json, follows_optional rfl rfl faithful_json,
    follows_optional rfl rfl Policy.faithful,
    follows_defaulted rfl rfl (faithful_list Inbound.faithful c.inbounds),
    follows_defaulted rfl rfl (faithful_list Outbound.faithful c.outbounds),
    follows_optional rfl rfl faithful_json, follows_optional rfl rfl faithful_json,
    List.forall_mem_nil _⟩

/--
A template with `null` at several levels, a client written as a row, a client with a member that is
not its own, sections without their lists, a tunnel whose protocol is a tagged `null`, and an outbound
that has the protocol of a tunnel and not its settings.
-/
theorem template_returned_clientRow :
    let one : Json := .number (.whole 1 (by decide))
    let v : Json := .object
      [("log", .null), ("dns", .object [("servers", .null)]), ("fakedns", .null),
        ("policy", .object [("system", .null), ("note", .text "p")]),
        ("outbounds", .array [
          .object
            [("tag", .text "w"), ("mux", .bool false),
              ("protocol", .object [("wireguard", .null)]),
              ("settings", .object
                [("secretKey", .text "k"), ("address", .array []), ("mtu", one), ("workers", one),
                  ("reserved", .null), ("noKernelTun", .bool true),
                  ("peers", .array [.object
                    [("publicKey", .text "p"), ("allowedIPs", .array []), ("endpoint", .text "e"),
                      ("keepAlive", one)]])])],
          .object
            [("protocol", .text "wireguard"), ("tag", .null),
              ("settings", .object [("reserved", .null)])]]),
        ("inbounds", .array [
          .object
            [("tag", .text "in"), ("protocol", .text "vless"), ("port", one), ("listen", .null),
              ("settings", .object
                [("decryption", .text "none"),
                  ("clients", .array
                    [.array [.text "id-1", .null, .text "a@x"],
                      .object [("email", .text "b@x"), ("flow", .null), ("level", one)]])])],
          .object [("tag", .text "bare"), ("protocol", .text "http"), ("port", .text "80-90")]])]
    let c : RelayConfig :=
      { dns := some (.object [("servers", .null)])
        policy := some { rest := [("note", .text "p")] }
        outbounds :=
          [.tunnel
            { tag := "w"
              settings :=
                { secretKey := "k", address := [], mtu := 1, workers := 1
                  peers := [
                    { publicKey := "p", allowedIPs := [], endpoint := "e"
                      rest := [("keepAlive", one)] }]
                  rest := [("noKernelTun", .bool true)] }
              rest := [("mux", .bool false)] },
          .plain
            { protocol := "wireguard", rest := [("settings", .object [("reserved", .null)])] }]
        inbounds :=
          [{ tag := "in", protocol := "vless", port := one
             settings :=
              { clients := some [{ id := "id-1", email := "a@x" }, { email := "b@x" }]
                rest := [("decryption", .text "none")] } },
          { tag := "bare", protocol := "http", port := .text "80-90" }]
        rest := [("fakedns", .null)] }
    v.Distinct ∧ fromJson decoder v = .ok c ∧ c.toJson.ordered = (returned v).ordered ∧
      returned v = .object
        [("dns", .object [("servers", .null)]), ("fakedns", .null),
          ("policy", .object [("note", .text "p"), ("levels", .object [])]),
          ("outbounds", .array [
            .object
              [("tag", .text "w"), ("mux", .bool false), ("protocol", .text "wireguard"),
                ("settings", .object
                  [("secretKey", .text "k"), ("address", .array []), ("mtu", one),
                    ("workers", one), ("noKernelTun", .bool true),
                    ("peers", .array [.object
                      [("publicKey", .text "p"), ("allowedIPs", .array []),
                        ("endpoint", .text "e"), ("keepAlive", one)]])])],
            .object
              [("protocol", .text "wireguard"), ("settings", .object [("reserved", .null)])]]),
          ("inbounds", .array [
            .object
              [("tag", .text "in"), ("protocol", .text "vless"), ("port", one),
                ("settings", .object
                  [("decryption", .text "none"),
                    ("clients", .array
                      [.object [("id", .text "id-1"), ("email", .text "a@x")],
                        .object [("email", .text "b@x")]])])],
            .object
              [("tag", .text "bare"), ("protocol", .text "http"), ("port", .text "80-90"),
                ("settings", .object [])]])] := by
  intro one v c
  have distinct : v.Distinct := by
    simp [v, one, Json.Distinct, DistinctItems, DistinctMembers]
  have read : fromJson decoder v = .ok c := rfl
  exact ⟨distinct, read, template_returned distinct read, rfl⟩

end RelayConfig

end RelayControl
