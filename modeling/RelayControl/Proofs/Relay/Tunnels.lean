import RelayControl.Proofs.Relay.Outbounds
import RelayControl.Proofs.Relay.Stages

/-!
The tunnel of the credential. Whatever the endpoint has said of this node, one complete outbound is
made of the credential; where the endpoint is silent, or its answer is no text, the settings speak.
The outbound is put in its place among those of the template.
-/

namespace RelayControl

def Tells (remote : Option Json) (path : List String) (text : String) : Prop :=
  text ≠ "" ∧ ∃ v, remote = some v ∧ v.at? path = some (.text text)

def Silent (remote : Option Json) (path : List String) : Prop := ∀ text, ¬Tells remote path text

structure ToldOr (remote : Option Json) (path : List String) (default value : String) : Prop where
  told : ∀ text, Tells remote path text → value = text
  silent : Silent remote path → value = default

namespace Tunnel

abbrev v4Path : List String := ["config", "interface", "addresses", "v4"]

abbrev v6Path : List String := ["config", "interface", "addresses", "v6"]

abbrev clientIdPath : List String := ["config", "client_id"]

abbrev publicKeyPath : List String := ["config", "peers", "0", "public_key"]

abbrev hostPath : List String := ["config", "peers", "0", "endpoint", "host"]

inductive Addressed (remote : Option Json) : List String → Prop
  | both {v4 v6 : String} (has4 : Tells remote v4Path v4) (has6 : Tells remote v6Path v6) :
      Addressed remote [v4 ++ "/32", v6 ++ "/128"]
  | only4 {v4 : String} (has4 : Tells remote v4Path v4) (no6 : Silent remote v6Path) :
      Addressed remote [v4 ++ "/32"]
  | only6 {v6 : String} (no4 : Silent remote v4Path) (has6 : Tells remote v6Path v6) :
      Addressed remote [v6 ++ "/128"]
  | neither (no4 : Silent remote v4Path) (no6 : Silent remote v6Path) :
      Addressed remote ["172.16.0.2/32"]

structure Peered (r : RegistrationSettings) (remote : Option Json) (peer : Peer) : Prop where
  publicKey : ToldOr remote publicKeyPath r.peerPublicKey peer.publicKey
  endpoint : ToldOr remote hostPath r.peerEndpoint peer.endpoint
  allowedIPs : peer.allowedIPs = ["0.0.0.0/0", "::/0"]
  rest : peer.rest = []

/-- The tunnel that settings, a credential and what the endpoint said of the node call for. -/
structure Registered (r : RegistrationSettings) (c : Credential) (remote : Option Json)
    (t : Tunnel) : Prop where
  tag : t.tag = r.outboundTag
  secretKey : t.settings.secretKey = c.privateKey
  mtu : t.settings.mtu = r.mtu
  workers : t.settings.workers = r.workers
  peer : ∃ peer, t.settings.peers = [peer] ∧ Peered r remote peer
  addressed : Addressed remote t.settings.address
  address_ne_nil : t.settings.address ≠ []
  reserved : ∀ bytes, t.settings.reserved = some bytes ↔
    bytes.length = 3 ∧ ∃ id, Tells remote clientIdPath id ∧ Base64.decode id = .ok bytes
  domainStrategy : t.settings.domainStrategy = none
  settingsRest : t.settings.rest = []
  rest : t.rest = []

section

variable {remote : Option Json} {path : List String}

theorem remoteText?_eq_some_iff {text : String} :
    remoteText? remote path = some text ↔ Tells remote path text := by
  unfold remoteText? Tells
  rw [Option.filter_eq_some_iff, Option.bind_eq_some_iff]
  have asText : ∀ {v : Json}, v.asText? = some text ↔ v = .text text := by
    intro v
    cases v <;> simp [Json.asText?]
  simp only [Option.bind_eq_some_iff, asText, exists_eq_right, Bool.not_eq_true',
    String.isEmpty_eq_false_iff]
  exact and_comm

theorem remoteText?_eq_none_iff : remoteText? remote path = none ↔ Silent remote path := by
  simp only [Option.eq_none_iff_forall_ne_some, ne_eq, remoteText?_eq_some_iff, Silent]

theorem toldOr_getD (default : String) :
    ToldOr remote path default ((remoteText? remote path).getD default) where
  told text tells := by rw [remoteText?_eq_some_iff.mpr tells, Option.getD_some]
  silent silent := by rw [remoteText?_eq_none_iff.mpr silent, Option.getD_none]

theorem addressed_addresses (remote : Option Json) : Addressed remote (addresses remote) := by
  unfold addresses
  cases v4 : remoteText? remote v4Path with
  | none =>
      have no4 := remoteText?_eq_none_iff.mp v4
      cases v6 : remoteText? remote v6Path with
      | none => exact .neither no4 (remoteText?_eq_none_iff.mp v6)
      | some v6 => exact .only6 no4 (remoteText?_eq_some_iff.mp ‹_›)
  | some v4 =>
      have has4 := remoteText?_eq_some_iff.mp ‹_›
      cases v6 : remoteText? remote v6Path with
      | none => exact .only4 has4 (remoteText?_eq_none_iff.mp v6)
      | some v6 => exact .both has4 (remoteText?_eq_some_iff.mp ‹_›)

theorem reserved?_eq_some_iff {bytes : List UInt8} :
    reserved? remote = some bytes ↔
      bytes.length = 3 ∧ ∃ id, Tells remote clientIdPath id ∧ Base64.decode id = .ok bytes := by
  unfold reserved?
  simp only [Option.filter_eq_some_iff, Option.bind_eq_some_iff, remoteText?_eq_some_iff,
    toOption_eq_some_iff, beq_iff_eq]
  exact and_comm

end

theorem registered_ofCredential (r : RegistrationSettings) (c : Credential)
    (remote : Option Json) : Registered r c remote (.ofCredential r c remote) where
  tag := rfl
  secretKey := rfl
  mtu := rfl
  workers := rfl
  peer := ⟨_, rfl, toldOr_getD _, toldOr_getD _, rfl, rfl⟩
  addressed := addressed_addresses remote
  address_ne_nil := addresses_ne_nil remote
  reserved _ := reserved?_eq_some_iff
  domainStrategy := rfl
  settingsRest := rfl
  rest := rfl

end Tunnel

/--
Without a credential of use the outbounds are the template's. With one, whatever the remote
configuration holds, the tunnel it calls for is put in its place among them, over the first outbound
of its tag or behind all others, and is what is found under its tag.
-/
theorem tunnel_placed (s : Settings) {source : Source} {template : RelayConfig}
    {held : Option Credential} {rules : List RoutingRule}
    (stands : source.template? = some template)
    (known : source.setting? StoreKey.credential >>= Credential.ofStored? = .ok held)
    (listed : source.rules = .ok rules) :
    ((∀ c, held = some c → c.deviceId = "" ∨ c.privateKey = "") →
      ∃ config, synthesize s source = .ok config ∧ config.outbounds = template.outbounds) ∧
    ∀ c, held = some c → c.deviceId ≠ "" → c.privateKey ≠ "" →
      ∀ remote, source.setting? StoreKey.remoteConfig = .ok remote →
        ∃ config tunnel, synthesize s source = .ok config ∧
          Tunnel.Registered s.registration c
            (remote.bind fun text => (Json.parse text).toOption) tunnel ∧
          Placed s.registration.outboundTag (.tunnel tunnel) template.outbounds
            config.outbounds ∧
          config.outbound? s.registration.outboundTag = some (.tunnel tunnel) := by
  constructor
  · intro useless
    have placed : withTunnel s source (template.tuned s.tuning) held =
        .ok (template.tuned s.tuning) := by
      cases held with
      | none => rfl
      | some c =>
          apply withTunnel_of_isEmpty
          simpa [Credential.isEmpty] using useless c rfl
    exact ⟨_, synthesize_of_stages stands known placed listed, rfl⟩
  · rintro c rfl device key text? cached
    have ofUse := Credential.isEmpty_eq_false_iff.mpr ⟨device, key⟩
    let tunnel := Tunnel.ofCredential s.registration c
      (text?.bind fun text => (Json.parse text).toOption)
    have placed : withTunnel s source (template.tuned s.tuning) (some c) =
        .ok ((template.tuned s.tuning).upsertOutbound (.tunnel tunnel)) := by
      rw [withTunnel_of_not_isEmpty ofUse, cached]
      rfl
    have placement : Placed s.registration.outboundTag (.tunnel tunnel) template.outbounds
        (upsert (.tunnel tunnel) template.outbounds) := .upsert rfl _
    exact ⟨_, tunnel, synthesize_of_stages stands known placed listed,
      Tunnel.registered_ofCredential _ _ _, placement, placement.find? rfl⟩

/-- The template has two outbounds of the tag. The endpoint named no peer, and of the addresses only
the second is a text that is not empty. -/
theorem tunnel_placed_overFirst :
    let c : Credential := ⟨"token-1", "dev-1", "license-1", "key"⟩
    let template := "\x7b\"outbounds\": [\x7b\"protocol\": \"freedom\"\x7d, \x7b\"protocol\": \"socks\", \"tag\": \"registration\"\x7d, \x7b\"protocol\": \"http\", \"tag\": \"registration\"\x7d]\x7d"
    let remote := "\x7b\"config\": \x7b\"client_id\": \"AQID\", \"interface\": \x7b\"addresses\": \x7b\"v4\": \"\", \"v6\": \"fd01::1\"\x7d\x7d, \"peers\": [7]\x7d\x7d"
    let source : Source :=
      { setting? := fun key => .ok <|
          if key = StoreKey.template then some template
          else if key = StoreKey.credential then some c.stored else some remote
        rules := .ok [] }
    (source.setting? StoreKey.credential >>= Credential.ofStored? = .ok (some c) ∧
      c.deviceId ≠ "" ∧ c.privateKey ≠ "" ∧
      source.setting? StoreKey.remoteConfig = .ok (some remote)) ∧
    ∃ template config tunnel, source.template? = some template ∧
      synthesize {} source = .ok config ∧
      Tunnel.Registered {} c (Json.parse remote).toOption tunnel ∧
      Placed "registration" (.tunnel tunnel) template.outbounds config.outbounds ∧
      config.outbound? "registration" = some (.tunnel tunnel) ∧
      config.outbounds.map (·.protocol) = ["freedom", "wireguard", "http"] := by
  intro c template remote source
  have known : source.setting? StoreKey.credential >>= Credential.ofStored? = .ok (some c) := by
    decide +kernel
  have stands : source.template?.isSome = true := by decide +kernel
  have written : (synthesize {} source).toOption.map (·.outbounds.map (·.protocol)) =
      some ["freedom", "wireguard", "http"] := by decide +kernel
  obtain ⟨template, stands⟩ := Option.isSome_iff_exists.mp stands
  obtain ⟨config, tunnel, synthesized, registered, placement, found⟩ :=
    (tunnel_placed {} stands known rfl).2 c rfl (by decide) (by decide) (some remote) rfl
  rw [synthesized] at written
  exact ⟨⟨known, by decide, by decide, rfl⟩, template, config, tunnel, stands, synthesized,
    registered, placement, found, Option.some.inj written⟩

end RelayControl
