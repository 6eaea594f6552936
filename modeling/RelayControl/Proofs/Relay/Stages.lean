import RelayControl.Proofs.Relay.Dependence

/-!
The stages of a synthesis: what each of them takes, and when it fails. The template and the
credential count as absent where their texts are blank, and the remote configuration is asked for
only when a credential of use is held.
-/

namespace RelayControl

def Source.template? (source : Source) : Option RelayConfig :=
  match source.setting? StoreKey.template with
  | .error _ => none
  | .ok none => some .builtin
  | .ok (some text) =>
      if Text.allBlank text then some .builtin
      else (Json.decode RelayConfig.decoder text).toOption

theorem ofStore_eq_error_iff {x : Except StoreFault α} {f : Fault} :
    ofStore x = .error f ↔ ∃ g, x = .error g ∧ .store g = f := by
  cases x <;> simp

namespace RelayConfig

theorem ofTemplate_eq_error_iff {template : Option String} {t : Tuning} {f : Fault} :
    ofTemplate (template.filter (!Text.allBlank ·)) t = .error f ↔
      ∃ text flaw, template = some text ∧ Text.allBlank text = false ∧
        Json.decode decoder text = .error flaw ∧ .template flaw = f := by
  cases template with
  | none => simp [ofTemplate]
  | some text =>
      rw [Option.filter_some]
      cases blank : Text.allBlank text with
      | true => simp [ofTemplate, blank]
      | false => cases decoded : Json.decode decoder text <;> simp [ofTemplate, blank, decoded]

end RelayConfig

namespace Credential

theorem isEmpty_eq_false_iff {c : Credential} :
    c.isEmpty = false ↔ c.deviceId ≠ "" ∧ c.privateKey ≠ "" := by
  simp [isEmpty]

theorem ofStored?_eq_error_iff {text? : Option String} {f : StoreFault} :
    ofStored? text? = .error f ↔
      ∃ text flaw, text? = some text ∧ Text.allBlank text = false ∧
        Json.decode decoder text = .error flaw ∧
        ⟨["Stored registration credential is not valid JSON"], .flawed flaw⟩ = f := by
  cases text? with
  | none => simp
  | some text =>
      cases blank : Text.allBlank text with
      | true => simp [ofStored?, blank]
      | false => cases decoded : Json.decode decoder text <;> simp [ofStored?, blank, decoded]

theorem ofStored?_eq_some_iff {text? : Option String} {c : Credential} :
    ofStored? text? = .ok (some c) ↔
      ∃ text, text? = some text ∧ Text.allBlank text = false ∧ Json.decode decoder text = .ok c := by
  cases text? with
  | none => simp
  | some text =>
      cases blank : Text.allBlank text with
      | true => simp [ofStored?, blank]
      | false => cases decoded : Json.decode decoder text <;> simp [ofStored?, blank, decoded]

end Credential

section

variable {s : Settings} {source : Source} {base : RelayConfig} {c : Credential}

@[simp] theorem withTunnel_none : withTunnel s source base none = .ok base := rfl

theorem withTunnel_of_isEmpty (useless : c.isEmpty = true) :
    withTunnel s source base (some c) = .ok base := by
  rw [withTunnel, Option.filter_some_neg (by simp [useless])]
  rfl

theorem withTunnel_of_not_isEmpty (ofUse : c.isEmpty = false) :
    withTunnel s source base (some c) =
      (ofStore (source.setting? StoreKey.remoteConfig)).map fun text? =>
        base.upsertOutbound (.tunnel (.ofCredential s.registration c
          (text?.bind fun text => (Json.parse text).toOption))) := by
  rw [withTunnel, Option.filter_some_pos (by simp [ofUse])]
  cases ofStore (source.setting? StoreKey.remoteConfig) <;> rfl

theorem withTunnel_eq_error_iff {held : Option Credential} {f : Fault} :
    withTunnel s source base held = .error f ↔
      ∃ c g, held = some c ∧ c.isEmpty = false ∧
        source.setting? StoreKey.remoteConfig = .error g ∧ .store g = f := by
  cases held with
  | none => simp
  | some c =>
      cases useless : c.isEmpty with
      | true => simp [withTunnel_of_isEmpty useless, useless]
      | false =>
          rw [withTunnel_of_not_isEmpty useless]
          cases read : source.setting? StoreKey.remoteConfig <;> simp [Except.map, useless]

theorem withTunnel_tuned (s : Settings) (t : Tuning) (source : Source) (template : RelayConfig)
    (held : Option Credential) :
    withTunnel { s with tuning := t } source (template.tuned t) held =
      (withTunnel s source template held).map (·.tuned t) := by
  unfold withTunnel
  cases held.filter (!·.isEmpty) with
  | none => rfl
  | some credential => cases ofStore (source.setting? StoreKey.remoteConfig) <;> rfl

theorem withTunnel_frame {held : Option Credential} {based : RelayConfig}
    (placed : withTunnel s source base held = .ok based) :
    ∃ outbounds, based = { base with outbounds := outbounds } := by
  unfold withTunnel at placed
  split at placed
  · obtain ⟨remote, -, placed⟩ := bind_eq_ok_iff.mp placed
    cases placed
    exact ⟨_, rfl⟩
  · cases placed
    exact ⟨_, rfl⟩

end

/-! Stages that pass, put together. -/

theorem ofTemplate_eq_ok_iff {source : Source} {t : Tuning} {base : RelayConfig} :
    (∃ text?, source.setting? StoreKey.template = .ok text? ∧
      RelayConfig.ofTemplate (text?.filter (!Text.allBlank ·)) t = .ok base) ↔
    ∃ template, source.template? = some template ∧ template.tuned t = base := by
  unfold Source.template?
  cases source.setting? StoreKey.template with
  | error f => simp
  | ok text? =>
      cases text? with
      | none => simp [RelayConfig.ofTemplate]
      | some text =>
          simp only [Except.ok.injEq, exists_eq_left', Option.filter_some]
          cases Text.allBlank text with
          | true => simp [RelayConfig.ofTemplate]
          | false =>
              cases decoded : Json.decode RelayConfig.decoder text <;>
                simp [RelayConfig.ofTemplate, decoded, Except.toOption]

theorem stages_of_synthesize {s : Settings} {source : Source} {config : RelayConfig}
    (synthesized : synthesize s source = .ok config) :
    ∃ template held based rules, source.template? = some template ∧
      source.setting? StoreKey.credential >>= Credential.ofStored? = .ok held ∧
      withTunnel s source (template.tuned s.tuning) held = .ok based ∧
      source.rules = .ok rules ∧
      config =
        { based with inbounds := based.inbounds ++ rules.filterMap (Inbound.ofRule? s) } := by
  rw [synthesize_eq] at synthesized
  obtain ⟨text, stored, synthesized⟩ := bind_eq_ok_iff.mp synthesized
  obtain ⟨base, read, synthesized⟩ := bind_eq_ok_iff.mp synthesized
  obtain ⟨held, known, synthesized⟩ := bind_eq_ok_iff.mp synthesized
  obtain ⟨based, placed, synthesized⟩ := bind_eq_ok_iff.mp synthesized
  obtain ⟨rules, listed, synthesized⟩ := bind_eq_ok_iff.mp synthesized
  cases synthesized
  obtain ⟨template, stands, rfl⟩ :=
    ofTemplate_eq_ok_iff.mp ⟨text, ofStore_eq_ok_iff.mp stored, read⟩
  exact ⟨template, held, based, rules, stands, ofStore_eq_ok_iff.mp known, placed,
    ofStore_eq_ok_iff.mp listed, rfl⟩

theorem synthesize_of_stages {s : Settings} {source : Source} {template based : RelayConfig}
    {held : Option Credential} {rules : List RoutingRule}
    (stands : source.template? = some template)
    (known : source.setting? StoreKey.credential >>= Credential.ofStored? = .ok held)
    (placed : withTunnel s source (template.tuned s.tuning) held = .ok based)
    (listed : source.rules = .ok rules) :
    synthesize s source = .ok
      { based with inbounds := based.inbounds ++ rules.filterMap (Inbound.ofRule? s) } := by
  obtain ⟨text?, stored, read⟩ := ofTemplate_eq_ok_iff.mpr ⟨template, stands, rfl⟩
  rw [synthesize_eq, bind_eq_ok_iff]
  refine ⟨text?, ofStore_eq_ok_iff.mpr stored, bind_eq_ok_iff.mpr ⟨_, read, ?_⟩⟩
  refine bind_eq_ok_iff.mpr ⟨held, ofStore_eq_ok_iff.mpr known, ?_⟩
  refine bind_eq_ok_iff.mpr ⟨based, placed, ?_⟩
  exact bind_eq_ok_iff.mpr ⟨rules, ofStore_eq_ok_iff.mpr listed, rfl⟩

end RelayControl
