import RelayControl.Proofs.Basic
import RelayControl.Relay.Synthesis

/-! What a synthesis that succeeds has read, and where each inbound of its result comes from. -/

namespace RelayControl

theorem ofStore_eq_ok_iff {x : Except StoreFault α} {a : α} : ofStore x = .ok a ↔ x = .ok a := by
  cases x <;> simp

theorem synthesize_inbounds {s : Settings} {source : Source} {config : RelayConfig}
    (synthesized : synthesize s source = .ok config) :
    ∃ template base rules,
      source.setting? StoreKey.template = .ok template ∧
      RelayConfig.ofTemplate (template.filter (!Text.allBlank ·)) s.tuning = .ok base ∧
      source.rules = .ok rules ∧
      config.inbounds = base.inbounds ++ rules.filterMap (Inbound.ofRule? s) := by
  obtain ⟨template, stored, synthesized⟩ := bind_eq_ok_iff.mp synthesized
  obtain ⟨base, read, synthesized⟩ := bind_eq_ok_iff.mp synthesized
  obtain ⟨credential, _, synthesized⟩ := bind_eq_ok_iff.mp synthesized
  have finish : ∀ {based : RelayConfig}, based.inbounds = base.inbounds →
      (ofStore source.rules >>= fun rules => pure
        { based with inbounds := based.inbounds ++ rules.filterMap (Inbound.ofRule? s) }) =
        Except.ok config →
      ∃ rules, source.rules = .ok rules ∧
        config.inbounds = base.inbounds ++ rules.filterMap (Inbound.ofRule? s) := by
    intro based same finished
    obtain ⟨rules, listed, finished⟩ := bind_eq_ok_iff.mp finished
    cases finished
    exact ⟨rules, ofStore_eq_ok_iff.mp listed, by rw [same]⟩
  have inbounds : ∃ rules, source.rules = .ok rules ∧
      config.inbounds = base.inbounds ++ rules.filterMap (Inbound.ofRule? s) := by
    split at synthesized
    · obtain ⟨remote, _, synthesized⟩ := bind_eq_ok_iff.mp synthesized
      exact finish (RelayConfig.upsertOutbound_inbounds ..) synthesized
    · exact finish rfl synthesized
  obtain ⟨rules, listed, placed⟩ := inbounds
  exact ⟨template, base, rules, ofStore_eq_ok_iff.mp stored, read, listed, placed⟩

theorem Inbound.ofRule?_eq_some_iff {s : Settings} {rule : RoutingRule} {inbound : Inbound} :
    ofRule? s rule = some inbound ↔ rule.enabled = true ∧ ofRule s rule = .ok inbound := by
  unfold ofRule?
  split
  · rename_i on
    cases ofRule s rule <;> simp [on, Except.toOption]
  · rename_i off
    simp [off]

theorem Inbound.ofRule_settings {s : Settings} {rule : RoutingRule} {inbound : Inbound}
    (built : ofRule s rule = .ok inbound) :
    ∃ settings, unlessBlank? .members rule.settings = .ok settings ∧
      inbound.settings = .ofRule rule.records s.filter.missingRecord (settings.getD []) := by
  obtain ⟨settings, read, built⟩ := bind_eq_ok_iff.mp built
  obtain ⟨stream, _, built⟩ := bind_eq_ok_iff.mp built
  obtain ⟨sniffing, _, built⟩ := bind_eq_ok_iff.mp built
  cases built
  exact ⟨settings, read, rfl⟩

end RelayControl
