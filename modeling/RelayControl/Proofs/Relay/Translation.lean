import RelayControl.Proofs.Relay.Isolation
import RelayControl.Proofs.Relay.Stream

/-!
From a rule to its inbound. What the rule says in so many words is carried over; of its texts, the
settings lose the clients that are not admitted, the stream settings are stripped and filled in, and
nothing else is lost or added.
-/

namespace RelayControl

open Json

/-- The first value is the second one up to the order of members, and repeats no key. -/
structure Json.Spells (v w : Json) : Prop where
  distinct : v.Distinct
  same : v.ordered = w.ordered

theorem Client.distinct_toJson (c : Client) : c.toJson.Distinct := by
  rw [Client.toJson_eq, distinct_object]
  refine ⟨c.nodup_write, ?_⟩
  intro m member
  obtain ⟨t, text⟩ := Client.text_of_mem_write member
  rw [text]
  trivial

namespace InboundSettings

/-- A list of clients cut down to those admitted; any other value as it is. -/
def admitting (records : List ClientRecord) (policy : MissingRecordPolicy) : Json → Json
  | .array entries => items Client.toJson (admittedClients records policy entries)
  | v => v

def forwarding (records : List ClientRecord) (policy : MissingRecordPolicy) : Json → Json :=
  rewrite [("clients", .changed (admitting records policy))]

theorem spells_ofRule (records : List ClientRecord) (policy : MissingRecordPolicy) {ms : Members}
    (distinct : (object ms).Distinct) :
    (ofRule records policy ms).toJson.Spells (forwarding records policy (.object ms)) := by
  obtain ⟨keys, values⟩ := distinct_object.mp distinct
  have keys' := nodup_rewriteMembers_singleton "clients" (.changed (admitting records policy)) keys
  unfold ofRule
  split
  · rename_i raw found
    let clients := items Client.toJson (admittedClients records policy raw)
    have written : toJson
        { clients := some (admittedClients records policy raw)
          rest := Members.erase "clients" ms } =
        .object (("clients", clients) :: Members.erase "clients" ms) := rfl
    have fresh : ((("clients", clients) :: Members.erase "clients" ms).map (·.1)).Nodup :=
      List.nodup_cons.mpr ⟨lookup_eq_none_iff_notMem.mp (Members.lookup_erase ..),
        Members.nodup_erase _ keys⟩
    have list : clients.Distinct :=
      distinct_array.mpr (List.forall_mem_map.mpr fun c _ => c.distinct_toJson)
    rw [written]
    constructor
    · rw [distinct_object, List.forall_mem_cons]
      exact ⟨fresh, list, fun m member => values m (List.mem_of_mem_filter member)⟩
    · apply ordered_object_congr fresh keys'
      intro k
      rw [lookup_cons_eq_ite, Members.lookup_erase_eq_ite, lookup_rewriteMembers_singleton _ _ keys]
      split
      · rename_i own
        rw [own, found]
        rfl
      · rfl
  · rename_i other
    have written : toJson { clients := none, rest := ms } = .object ms := rfl
    rw [written]
    refine ⟨distinct, ordered_object_congr keys keys' ?_⟩
    intro k
    rw [lookup_rewriteMembers_singleton _ _ keys]
    split
    · rename_i own
      rw [own]
      cases found : ms.lookup "clients" with
      | none => rfl
      | some v =>
          cases v with
          | array raw => exact absurd found (other raw)
          | _ => rfl
    · rfl

end InboundSettings

/-- The value of a text; a blank text stands for a value of its own. -/
def valueOr (blank : Json) (text : String) : Except Flaw Json :=
  if Text.allBlank text then .ok blank else Json.parse text

theorem valueOr_of_unlessBlank? {item : Decoder α} (reads : ReadsValue item) {default : α}
    (start : fromJson item (.object []) = .ok default) {text : String} {x? : Option α}
    (read : unlessBlank? item text = .ok x?) :
    ∃ v, valueOr (.object []) text = .ok v ∧ v.ordered = v ∧
      fromJson item v = .ok (x?.getD default) := by
  unfold unlessBlank? at read
  unfold valueOr
  split at read
  · rename_i blank
    cases read
    rw [if_pos blank]
    exact ⟨_, rfl, rfl, start⟩
  · rename_i solid
    obtain ⟨x, decoded, rfl⟩ := map_eq_ok_iff.mp read
    obtain ⟨v, parsed, again⟩ := parse_of_decode reads decoded
    rw [if_neg solid]
    exact ⟨v, parsed, ordered_of_parse parsed, again⟩

structure Translates (s : Settings) (rule : RoutingRule) (inbound : Inbound) : Prop where
  tag : inbound.tag = rule.tag
  port : inbound.port = .nat rule.port.toNat
  protocol : inbound.protocol = rule.protocol
  listen : inbound.listen = if rule.listen = "" then none else some rule.listen
  settings : ∃ v, valueOr (.object []) rule.settings = .ok v ∧
    inbound.settings.toJson.Spells
      (InboundSettings.forwarding rule.records s.filter.missingRecord v)
  stream : ∃ v stream, valueOr (.object []) rule.streamSettings = .ok v ∧
    inbound.streamSettings = some stream ∧
    stream.toJson.Spells (StreamSettings.forwarding s.tuning v) ∧
    stream.stripped.tuned (.ofTuning s.tuning) = stream
  sniffing : (Text.allBlank rule.sniffing = true → inbound.sniffing = none) ∧
    (Text.allBlank rule.sniffing = false →
      ∃ v, Json.parse rule.sniffing = .ok v ∧ inbound.sniffing = some v)
  rest : inbound.rest = []

/-- A sound rule has an inbound, and the inbound gives the rule. -/
theorem sound_rule_translated (s : Settings) {rule : RoutingRule} (sound : rule.sound = true) :
    ∃ inbound, Inbound.ofRule? s rule = some inbound ∧ Translates s rule inbound := by
  obtain ⟨inbound, added, built⟩ := Inbound.ofRule?_of_sound (s := s) sound
  refine ⟨inbound, added, ?_⟩
  obtain ⟨settings?, settings, built⟩ := bind_eq_ok_iff.mp built
  obtain ⟨stream?, stream, built⟩ := bind_eq_ok_iff.mp built
  obtain ⟨sniffing?, sniffing, built⟩ := bind_eq_ok_iff.mp built
  cases built
  refine
    { tag := rfl, port := ?port, protocol := rfl, listen := ?listen, settings := ?settings
      stream := ?stream, sniffing := ?sniffing, rest := rfl }
  case settings =>
    obtain ⟨v, value, sorted, again⟩ := valueOr_of_unlessBlank? readsValue_members rfl settings
    obtain rfl : .object (settings?.getD []) = v :=
      (Doc.toJson_ofJson (Decoder.members_eq_ok_iff.mp again)).trans sorted
    exact ⟨_, value, InboundSettings.spells_ofRule _ _ (sorted ▸ distinct_ordered _)⟩
  case stream =>
    obtain ⟨v, value, sorted, again⟩ := valueOr_of_unlessBlank? StreamSettings.readsValue rfl stream
    have distinct : v.Distinct := sorted ▸ distinct_ordered v
    exact ⟨v, _, value, rfl, ⟨StreamSettings.distinct_forwarded _ again,
      StreamSettings.faithful_forwarded s.tuning _ distinct again⟩,
      StreamSettings.stripped_tuned_idem _ _⟩
  case sniffing =>
    unfold unlessBlank? at sniffing
    split at sniffing
    · rename_i blank
      cases sniffing
      exact ⟨fun _ => rfl, fun solid => absurd blank (by simp [solid])⟩
    · rename_i solid
      obtain ⟨v, parsed, rfl⟩ := map_eq_ok_iff.mp sniffing
      exact ⟨fun blank => absurd blank solid, fun _ => ⟨v, parsed, rfl⟩⟩
  case listen => simp only [String.isEmpty_iff]
  case port => with_reducible rfl

/-- The clients are no list, one tuned option is `null`, another is set against the tuning, and the
sniffing is a `null` that stands there. -/
theorem sound_rule_translated_oddClients :
    let rule : RoutingRule :=
      { id := 1, tag := "R1", port := 443, protocol := "vless"
        settings := "\x7b\"decryption\": \"none\", \"clients\": 5\x7d"
        streamSettings := "\x7b\"network\": \"tcp\", \"tlsSettings\": \x7b\"alpn\": null, \"settings\": \x7b\x7d\x7d, \"realitySettings\": null, \"externalProxy\": [], \"sockopt\": \x7b\"tcpFastOpen\": false, \"tcpNoDelay\": null, \"mark\": null\x7d\x7d"
        sniffing := "null" }
    rule.sound = true ∧
    ∃ inbound stream, Inbound.ofRule? {} rule = some inbound ∧ Translates {} rule inbound ∧
      inbound.streamSettings = some stream ∧
      (inbound.settings.toJson ==
        .object [("clients", .nat 5), ("decryption", .text "none")]) = true ∧
      (stream.toJson == .object
        [("tlsSettings", .object [("alpn", .null)]),
          ("sockopt", .object
            [("tcpFastOpen", .bool false), ("tcpKeepAliveInterval", .nat 30),
              ("tcpNoDelay", .bool true), ("mark", .null)]),
          ("network", .text "tcp")]) = true ∧
      (inbound.sniffing == some .null) = true := by
  intro rule
  have written : (Inbound.ofRule? {} rule).map (fun inbound =>
      (inbound.settings.toJson == .object [("clients", .nat 5), ("decryption", .text "none")],
        inbound.streamSettings.map fun stream => stream.toJson == .object
          [("tlsSettings", .object [("alpn", .null)]),
            ("sockopt", .object
              [("tcpFastOpen", .bool false), ("tcpKeepAliveInterval", .nat 30),
                ("tcpNoDelay", .bool true), ("mark", .null)]),
            ("network", .text "tcp")],
        inbound.sniffing == some .null)) = some (true, some true, true) := by decide +kernel
  have sound : rule.sound = true := by
    by_contra unsound
    rw [Inbound.ofRule?_of_not_sound unsound] at written
    cases written
  obtain ⟨inbound, added, translates⟩ := sound_rule_translated {} sound
  rw [added, Option.map_some, Option.some.injEq, Prod.mk.injEq, Prod.mk.injEq] at written
  obtain ⟨settings, stream, sniffing⟩ := written
  obtain ⟨stream, given, same⟩ := Option.map_eq_some_iff.mp stream
  exact ⟨sound, inbound, stream, added, translates, given, settings, same, sniffing⟩

end RelayControl
