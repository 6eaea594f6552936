import RelayControl.Proofs.Relay.Stages

/-!
Rules side by side. A rule that is enabled and can be read adds one inbound behind those of the
template; any other rule adds nothing, and no rule changes what the others add or what the template
defines.
-/

namespace RelayControl

def readable (item : Json.Decoder α) (text : String) : Bool :=
  Text.allBlank text || (Json.decode item text).isOk

/-- Whether a rule is enabled and each of its three texts is blank or can be read. -/
def RoutingRule.sound (rule : RoutingRule) : Bool :=
  rule.enabled && readable .members rule.settings &&
    readable StreamSettings.decoder rule.streamSettings && readable .json rule.sniffing

namespace Source

def withRules (source : Source) (rules : List RoutingRule) : Source :=
  { source with rules := .ok rules }

end Source

/-! Which rules add an inbound. -/

theorem unlessBlank?_eq_ok_iff {item : Json.Decoder α} {text : String} :
    (∃ value, unlessBlank? item text = .ok value) ↔ readable item text = true := by
  unfold unlessBlank? readable
  cases Text.allBlank text with
  | true => simp
  | false => cases Json.decode item text <;> simp [Except.map, Except.isOk, Except.toBool]

theorem Inbound.ofRule_eq_ok_iff (s : Settings) (rule : RoutingRule) :
    (∃ inbound, ofRule s rule = .ok inbound) ↔
      readable .members rule.settings = true ∧
        readable StreamSettings.decoder rule.streamSettings = true ∧
        readable .json rule.sniffing = true := by
  rw [← unlessBlank?_eq_ok_iff, ← unlessBlank?_eq_ok_iff, ← unlessBlank?_eq_ok_iff]
  constructor
  · rintro ⟨inbound, built⟩
    obtain ⟨settings, read, built⟩ := bind_eq_ok_iff.mp built
    obtain ⟨stream, streamRead, built⟩ := bind_eq_ok_iff.mp built
    obtain ⟨sniffing, sniffingRead, _⟩ := bind_eq_ok_iff.mp built
    exact ⟨⟨settings, read⟩, ⟨stream, streamRead⟩, ⟨sniffing, sniffingRead⟩⟩
  · rintro ⟨⟨settings, read⟩, ⟨stream, streamRead⟩, ⟨sniffing, sniffingRead⟩⟩
    unfold ofRule
    rw [read, streamRead, sniffingRead]
    exact ⟨_, rfl⟩

theorem RoutingRule.sound_iff (s : Settings) (rule : RoutingRule) :
    rule.sound = true ↔ rule.enabled = true ∧ ∃ inbound, Inbound.ofRule s rule = .ok inbound := by
  rw [Inbound.ofRule_eq_ok_iff, sound, Bool.and_eq_true, Bool.and_eq_true, Bool.and_eq_true,
    and_assoc, and_assoc]

theorem Inbound.ofRule?_of_sound {s : Settings} {rule : RoutingRule} (sound : rule.sound = true) :
    ∃ inbound, ofRule? s rule = some inbound ∧ ofRule s rule = .ok inbound := by
  obtain ⟨enabled, inbound, built⟩ := (rule.sound_iff s).mp sound
  exact ⟨inbound, ofRule?_eq_some_iff.mpr ⟨enabled, built⟩, built⟩

theorem Inbound.ofRule?_of_not_sound {s : Settings} {rule : RoutingRule}
    (unsound : ¬rule.sound = true) : ofRule? s rule = none := by
  rw [Option.eq_none_iff_forall_ne_some]
  intro inbound built
  obtain ⟨enabled, read⟩ := ofRule?_eq_some_iff.mp built
  exact unsound ((rule.sound_iff s).mpr ⟨enabled, inbound, read⟩)

theorem filterMap_ofRule?_filter_sound (s : Settings) (rules : List RoutingRule) :
    (rules.filter RoutingRule.sound).filterMap (Inbound.ofRule? s) =
      rules.filterMap (Inbound.ofRule? s) := by
  rw [List.filterMap_filter]
  apply List.filterMap_congr
  intro rule _
  split
  · rfl
  · rename_i unsound
    exact (Inbound.ofRule?_of_not_sound unsound).symm

theorem forall₂_ofRule (s : Settings) (rules : List RoutingRule) :
    List.Forall₂ (fun rule inbound => Inbound.ofRule s rule = .ok inbound)
      (rules.filter RoutingRule.sound) (rules.filterMap (Inbound.ofRule? s)) := by
  induction rules with
  | nil => exact .nil
  | cons rule rest ih =>
      by_cases sound : rule.sound = true
      · obtain ⟨inbound, added, built⟩ := Inbound.ofRule?_of_sound (s := s) sound
        rw [List.filter_cons_of_pos sound, List.filterMap_cons_some added]
        exact .cons built ih
      · rw [List.filter_cons_of_neg sound,
          List.filterMap_cons_none (Inbound.ofRule?_of_not_sound sound)]
        exact ih

/-! What rules leave alone. -/

theorem synthesize_withRules {s : Settings} {source : Source} {config : RelayConfig}
    (synthesized : synthesize s source = .ok config) :
    ∃ template rules, source.template? = some template ∧ source.rules = .ok rules ∧
      config.inbounds = template.inbounds ++ rules.filterMap (Inbound.ofRule? s) ∧
      ∀ others, synthesize s (source.withRules others) = .ok { config with
        inbounds := template.inbounds ++ others.filterMap (Inbound.ofRule? s) } := by
  obtain ⟨template, held, based, rules, stands, known, placed, listed, rfl⟩ :=
    stages_of_synthesize synthesized
  obtain ⟨outbounds, rfl⟩ := withTunnel_frame placed
  refine ⟨template, rules, stands, listed, rfl, fun others => ?_⟩
  have stands' : (source.withRules others).template? = some template := stands
  have placed' : withTunnel s (source.withRules others) (template.tuned s.tuning) held =
      .ok { template.tuned s.tuning with outbounds := outbounds } := placed
  exact synthesize_of_stages stands' known placed' rfl

theorem inboundPort?_of_template {config template : RelayConfig} {more : List Inbound}
    (inbounds : config.inbounds = template.inbounds ++ more) {tag : String}
    (defined : tag ∈ template.inbounds.map (·.tag)) :
    config.inboundPort? tag = template.inboundPort? tag := by
  obtain ⟨i, member, rfl⟩ := List.mem_map.mp defined
  have found : (template.inbounds.find? (·.tag == i.tag)).isSome = true :=
    List.find?_isSome.mpr ⟨i, member, beq_self_eq_true _⟩
  unfold RelayConfig.inboundPort? RelayConfig.inbound?
  rw [inbounds, List.find?_append, Option.or_of_isSome found]

/--
The inbounds of a synthesis are the template's, as they stand there, and behind them one for each
sound rule, in the order of the rules, which depends on that rule and the settings alone. So rules
that are not sound may be added anywhere or removed without any change, and whatever the rules are,
a tag of the template leads to the template's port.
-/
theorem rules_isolated {s : Settings} {source : Source} {config : RelayConfig}
    (synthesized : synthesize s source = .ok config) :
    ∃ template rules built,
      source.template? = some template ∧ source.rules = .ok rules ∧
      config.inbounds = template.inbounds ++ built ∧
      List.Forall₂ (fun rule inbound => Inbound.ofRule s rule = .ok inbound)
        (rules.filter RoutingRule.sound) built ∧
      (∀ others, others.filter RoutingRule.sound = rules.filter RoutingRule.sound →
        synthesize s (source.withRules others) = .ok config) ∧
      ∀ others, ∃ config', synthesize s (source.withRules others) = .ok config' ∧
        ∀ tag ∈ template.inbounds.map (·.tag),
          config'.inboundPort? tag = template.inboundPort? tag := by
  obtain ⟨template, rules, stands, listed, inbounds, others⟩ := synthesize_withRules synthesized
  refine ⟨template, rules, _, stands, listed, inbounds, forall₂_ofRule s rules, ?_, ?_⟩
  · intro rules' same
    have added : rules'.filterMap (Inbound.ofRule? s) = rules.filterMap (Inbound.ofRule? s) := by
      rw [← filterMap_ofRule?_filter_sound, same, filterMap_ofRule?_filter_sound]
    rw [others rules', added, ← inbounds]
  · intro rules'
    refine ⟨_, others rules', ?_⟩
    intro tag defined
    exact inboundPort?_of_template rfl defined

/-- Among the rules one is disabled, one breaks off in its last text, and one takes the template's
tag for another port. -/
theorem rules_isolated_takenTag :
    let rule : RoutingRule := { id := 1, tag := "R1", port := 443, protocol := "vless" }
    let broken : RoutingRule := { rule with id := 2, tag := "R2", sniffing := "\x7b" }
    let disabled : RoutingRule := { rule with id := 3, tag := "R3", enabled := false }
    let taking : RoutingRule := { rule with id := 4, tag := "api", port := 8443 }
    let template := "\x7b\"inbounds\": [\x7b\"tag\": \"api\", \"port\": 62789, \"protocol\": \"d\"\x7d]\x7d"
    let source : Source :=
      { setting? := fun key => .ok (if key = StoreKey.template then some template else none)
        rules := .ok [rule, broken, disabled, taking] }
    ∃ config, synthesize {} source = .ok config ∧
      config.inbounds.map (·.tag) = ["api", "R1", "api"] ∧
      synthesize {} (source.withRules [disabled, rule, taking, broken]) = .ok config ∧
      ∃ config', synthesize {} (source.withRules [taking, rule]) = .ok config' ∧
        config'.inboundPort? "api" = some 62789 := by
  intro rule broken disabled taking template source
  have succeeds : ((synthesize {} source).toOption.map (·.inbounds.map (·.tag))) =
      some ["api", "R1", "api"] := by decide +kernel
  have port : (source.template?.map fun c =>
      (c.inbounds.map (·.tag), c.inboundPort? "api")) = some (["api"], some 62789) := by
    decide +kernel
  have same : [disabled, rule, taking, broken].filter RoutingRule.sound =
      [rule, broken, disabled, taking].filter RoutingRule.sound := by decide +kernel
  obtain ⟨config, synthesized, tags⟩ := Option.map_eq_some_iff.mp succeeds
  rw [toOption_eq_some_iff] at synthesized
  obtain ⟨c, rules, built, stands, listed, -, -, stable, ports⟩ := rules_isolated synthesized
  cases listed
  rw [stands, Option.map_some, Option.some.injEq, Prod.mk.injEq] at port
  obtain ⟨config', synthesized', kept⟩ := ports [taking, rule]
  refine ⟨config, synthesized, tags, stable _ same, config', synthesized', ?_⟩
  rw [kept "api" (by rw [port.1]; simp), port.2]

end RelayControl
