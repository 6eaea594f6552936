import RelayControl.Proofs.Relay.Clients
import RelayControl.Proofs.Relay.Synthesis
import RelayControl.Proofs.Store.History

/-!
Entitlement of the clients that reach the relay. Whatever the history of the store, a synthesis
passes on only clients that the last recording of their email lets use the rule.
-/

namespace RelayControl

def RuleBody.clientEntries? (rule : RuleBody) : Option (List Json) :=
  match unlessBlank? .members rule.settings with
  | .ok (some settings) =>
      match settings.lookup "clients" with
      | some (.array entries) => some entries
      | _ => none
  | _ => none

/--
The clients of a rule are entitled by what is recorded of each email, the rule it is attached to and
whether it is enabled there.
-/
structure Entitled (recorded : String → Option (Int × Bool)) (rule : Int)
    (policy : MissingRecordPolicy) (entries : List Json) (clients : List Client) : Prop where
  notDisabled : ∀ c ∈ clients, ∀ email, c.email = some email → recorded email ≠ some (rule, false)
  fromEntry : ∀ c ∈ clients, ∃ members, .object members ∈ entries ∧
    members.lookup "enable" ≠ some (.bool false) ∧
    ∃ raw, Json.fromJson Client.decoder (.object members) = .ok raw ∧ c = raw.withPlainFlow
  oncePerEmail : (clients.filterMap (·.email)).Nodup
  recordedIfAsked : policy = .drop → ∀ c ∈ clients,
    ∃ email, c.email = some email ∧ recorded email = some (rule, true)

namespace Store

def ruleOf (s : Store) (row : InboundRow) : RoutingRule :=
  { row.toRuleBody with id := row.id, records := s.recordsOf row.id }

theorem enabledRules_eq_ok {s : Store} {rules : List RoutingRule}
    (listed : s.enabledRules = .ok rules) :
    rules = (s.inbounds.filter (·.enabled)).map s.ruleOf := by
  obtain ⟨_, _, listed⟩ := bind_eq_ok_iff.mp listed
  obtain ⟨_, _, listed⟩ := bind_eq_ok_iff.mp listed
  cases listed
  rfl

end Store

open Store

theorem admittedClients_entitled (history : List StoreAction) (rule : Int)
    (policy : MissingRecordPolicy) (entries : List Json) :
    Entitled (lastRecording? {} · history) rule policy entries
      (admittedClients ((after history).recordsOf rule) policy entries) where
  notDisabled c member email named disabled := by
    obtain ⟨_, _, raw, _, entitled, rfl⟩ := mem_admittedClients member
    rw [Client.withPlainFlow_email] at named
    have listed : ⟨email, false⟩ ∈ (after history).recordsOf rule :=
      mem_recordsOf_after.mpr disabled
    have enabled := (entitles_iff.mp entitled).1 ⟨email, false⟩ listed named
    cases enabled
  fromEntry c member := by
    obtain ⟨entry, entryMember, raw, read, _, rfl⟩ := mem_admittedClients member
    obtain ⟨members, rfl, switchedOn, decoded⟩ := Client.ofRaw?_eq_some read
    exact ⟨members, entryMember, switchedOn, raw, decoded, rfl⟩
  oncePerEmail := admittedClients_nodup _ _ _
  recordedIfAsked asked c member := by
    obtain ⟨_, _, raw, _, entitled, rfl⟩ := mem_admittedClients member
    obtain ⟨allEnabled, present⟩ := entitles_iff.mp entitled
    obtain ⟨record, listed, named⟩ := present asked
    refine ⟨record.email, by rw [Client.withPlainFlow_email]; exact named, ?_⟩
    rw [← allEnabled record listed named]
    exact mem_recordsOf_after.mp listed

theorem Inbound.ofRule_clients {s : Settings} {rule : RoutingRule} {inbound : Inbound}
    {entries : List Json} (built : ofRule s rule = .ok inbound)
    (listed : rule.clientEntries? = some entries) :
    inbound.settings.clients =
      some (admittedClients rule.records s.filter.missingRecord entries) := by
  obtain ⟨settings, read, shaped⟩ := ofRule_settings built
  rw [RuleBody.clientEntries?, read] at listed
  cases settings with
  | none => cases listed
  | some settings =>
      dsimp only at listed
      split at listed
      · rename_i held
        cases listed
        simp [shaped, InboundSettings.ofRule, held]
      · cases listed

/--
After any history of the store, the inbounds of a synthesis are the template's and those built from
the enabled rules, and the clients of each rule with a client list are entitled.
-/
theorem synthesize_clients_entitled (s : Settings) (history : List StoreAction)
    {config : RelayConfig} (synthesized : synthesize s (after history).source = .ok config) :
    (∀ email, (after history).record? email = lastRecording? {} email history) ∧
    (∃ template, config.inbounds = template ++
      ((after history).inbounds.filter (·.enabled)).filterMap fun row =>
        Inbound.ofRule? s ((after history).ruleOf row)) ∧
    ∀ row ∈ (after history).inbounds, row.enabled = true →
      ∀ inbound, Inbound.ofRule? s ((after history).ruleOf row) = some inbound →
        inbound ∈ config.inbounds ∧
        ∀ entries, row.clientEntries? = some entries →
          ∃ clients, inbound.settings.clients = some clients ∧
            Entitled (lastRecording? {} · history) row.id s.filter.missingRecord entries
              clients := by
  obtain ⟨_, base, rules, _, _, listed, inbounds⟩ := synthesize_inbounds synthesized
  rw [enabledRules_eq_ok listed, List.filterMap_map] at inbounds
  refine ⟨fun email => after_record? email history, ⟨base.inbounds, inbounds⟩, ?_⟩
  intro row member enabled inbound built
  constructor
  · rw [inbounds, List.mem_append]
    right
    exact List.mem_filterMap.mpr ⟨row, List.mem_filter.mpr ⟨member, enabled⟩, built⟩
  · intro entries held
    have read := (Inbound.ofRule?_eq_some_iff.mp built).2
    exact ⟨_, Inbound.ofRule_clients read held,
      admittedClients_entitled history row.id s.filter.missingRecord entries⟩

def expiringHistory : List StoreAction :=
  [ .setText StoreKey.template "\x7b\x7d",
    .addInbound
      { tag := "R1", port := 443, protocol := "vless"
        settings := "\x7b\"clients\": [\x7b\"email\": \"a@x\"\x7d, \x7b\"email\": \"b@x\"\x7d]\x7d" },
    .addInbound { tag := "R2", port := 444, protocol := "vless" },
    .addClient 2 "a@x" true,
    .addClient 1 "b@x" true,
    .addClient 1 "a@x" false ]

theorem synthesize_clients_entitled_expiring :
    ∃ config, synthesize {} (after expiringHistory).source = .ok config ∧
      ∃ row ∈ (after expiringHistory).inbounds, row.enabled = true ∧
        ∃ inbound ∈ config.inbounds,
          Inbound.ofRule? {} ((after expiringHistory).ruleOf row) = some inbound ∧
          ∃ entries, row.clientEntries? = some entries ∧
            ∃ clients, inbound.settings.clients = some clients ∧
              clients.map (·.email) = [some "b@x"] ∧
              Entitled (lastRecording? {} · expiringHistory) row.id .keep entries clients := by
  have succeeds : (synthesize {} (after expiringHistory).source).toOption.isSome = true := by
    decide +kernel
  have builds : ∃ row ∈ (after expiringHistory).inbounds, row.enabled = true ∧
      row.clientEntries?.isSome = true ∧
      ((Inbound.ofRule? {} ((after expiringHistory).ruleOf row)).bind (·.settings.clients)).map
        (·.map (·.email)) = some [some "b@x"] := by
    decide +kernel
  obtain ⟨config, synthesized⟩ := Option.isSome_iff_exists.mp succeeds
  rw [toOption_eq_some_iff] at synthesized
  obtain ⟨row, member, enabled, holds, emails⟩ := builds
  obtain ⟨entries, held⟩ := Option.isSome_iff_exists.mp holds
  obtain ⟨clients, chosen, named⟩ := Option.map_eq_some_iff.mp emails
  obtain ⟨inbound, built, listed⟩ := Option.bind_eq_some_iff.mp chosen
  obtain ⟨_, _, perRule⟩ := synthesize_clients_entitled {} expiringHistory synthesized
  obtain ⟨placed, entitled⟩ := perRule row member enabled inbound built
  obtain ⟨admitted, listedToo, entitled⟩ := entitled entries held
  rw [listed, Option.some.injEq] at listedToo
  subst admitted
  exact ⟨config, synthesized, row, member, enabled, inbound, placed, built, entries, held,
    clients, listed, named, entitled⟩

end RelayControl
