import RelayControl.ControlPlane
import RelayControl.Proofs.Registration.Likeness
import RelayControl.Proofs.Relay.Clients
import RelayControl.Proofs.Relay.Synthesis
import RelayControl.Proofs.Store.Counters

/-!
What a synthesized configuration depends on. Of the rules it is the enabled ones, and of their
records which there are; of the credential it is the device and the private key; of the traffic,
nothing.
-/

namespace RelayControl

/-! Records in any order, repeated or not. -/

section Records

variable {records others : List ClientRecord}

theorem entitles_congr (same : ∀ r, r ∈ records ↔ r ∈ others) (policy : MissingRecordPolicy)
    (email : Option String) : entitles records policy email = entitles others policy email := by
  rw [Bool.eq_iff_iff, entitles_iff, entitles_iff]
  simp only [same]

theorem admittedClients_congr (same : ∀ r, r ∈ records ↔ r ∈ others) (policy : MissingRecordPolicy)
    (entries : List Json) :
    admittedClients records policy entries = admittedClients others policy entries := by
  simp only [admittedClients, entitles_congr same]

theorem InboundSettings.ofRule_congr (same : ∀ r, r ∈ records ↔ r ∈ others)
    (policy : MissingRecordPolicy) (settings : Members) :
    ofRule records policy settings = ofRule others policy settings := by
  unfold ofRule
  split
  · rw [admittedClients_congr same]
  · rfl

end Records

/-- Rules that are the same, with the same records in any order. -/
structure RoutingRule.Alike (rule other : RoutingRule) : Prop where
  body : rule.toRuleBody = other.toRuleBody
  records : ∀ r, r ∈ rule.records ↔ r ∈ other.records

theorem Inbound.ofRule?_congr {rule other : RoutingRule} (alike : rule.Alike other) (s : Settings) :
    ofRule? s rule = ofRule? s other := by
  obtain ⟨body, id, records⟩ := rule
  obtain ⟨body', id', records'⟩ := other
  obtain ⟨rfl, same⟩ := alike
  simp only [ofRule?, ofRule, InboundSettings.ofRule_congr same]

def Credential.tunnelled (c : Credential) : String × String := (c.deviceId, c.privateKey)

structure Source.Alike (source other : Source) : Prop where
  template : source.setting? StoreKey.template = other.setting? StoreKey.template
  remote : source.setting? StoreKey.remoteConfig = other.setting? StoreKey.remoteConfig
  credential : SameUpTo (fun c d => c.map Credential.tunnelled = d.map Credential.tunnelled)
    (source.setting? StoreKey.credential >>= Credential.ofStored?)
    (other.setting? StoreKey.credential >>= Credential.ofStored?)
  rules : SameUpTo (List.Forall₂ RoutingRule.Alike) source.rules other.rules

theorem SameUpTo.ofStore {R : α → β → Prop} {x : Except StoreFault α} {y : Except StoreFault β}
    (same : SameUpTo R x y) :
    SameUpTo R (RelayControl.ofStore x) (RelayControl.ofStore y) := by
  cases same with
  | fault f => exact .fault (Fault.store f)
  | value related => exact .value related

theorem Credential.isEmpty_congr {c d : Credential} (same : c.tunnelled = d.tunnelled) :
    c.isEmpty = d.isEmpty := by
  have device : c.deviceId = d.deviceId := congrArg Prod.fst same
  have key : c.privateKey = d.privateKey := congrArg Prod.snd same
  rw [isEmpty, isEmpty, device, key]

theorem Tunnel.ofCredential_congr {c d : Credential} (same : c.tunnelled = d.tunnelled)
    (r : RegistrationSettings) (remote : Option Json) :
    ofCredential r c remote = ofCredential r d remote := by
  have key : c.privateKey = d.privateKey := congrArg Prod.snd same
  rw [ofCredential, ofCredential, key]

def withTunnel (s : Settings) (source : Source) (base : RelayConfig) (held : Option Credential) :
    Except Fault RelayConfig :=
  match held.filter (!·.isEmpty) with
  | some credential => do
      let remote ← ofStore (source.setting? StoreKey.remoteConfig)
      let remote := remote.bind fun text => (Json.parse text).toOption
      pure (base.upsertOutbound (.tunnel (.ofCredential s.registration credential remote)))
  | none => pure base

theorem withTunnel_congr {source other : Source} (alike : source.Alike other) (s : Settings)
    (base : RelayConfig) {held held' : Option Credential}
    (same : held.map Credential.tunnelled = held'.map Credential.tunnelled) :
    withTunnel s source base held = withTunnel s other base held' := by
  rcases map_eq_map_cases same with ⟨rfl, rfl⟩ | ⟨c, d, rfl, rfl, told⟩
  · rfl
  · unfold withTunnel
    rw [Option.filter_some, Option.filter_some, Credential.isEmpty_congr told, alike.remote]
    cases d.isEmpty with
    | true => rfl
    | false => simp [Tunnel.ofCredential_congr told]

theorem synthesize_eq (s : Settings) (source : Source) :
    synthesize s source = (do
      let template ← ofStore (source.setting? StoreKey.template)
      let base ← RelayConfig.ofTemplate (template.filter (!Text.allBlank ·)) s.tuning
      let held ← ofStore (source.setting? StoreKey.credential >>= Credential.ofStored?)
      let based ← withTunnel s source base held
      let rules ← ofStore source.rules
      pure { based with inbounds := based.inbounds ++ rules.filterMap (Inbound.ofRule? s) }) := by
  unfold synthesize withTunnel
  apply bind_congr
  intro template
  apply bind_congr
  intro base
  apply bind_congr
  intro held
  cases held.filter (!·.isEmpty) with
  | none => rfl
  | some credential => cases ofStore (source.setting? StoreKey.remoteConfig) <;> rfl

theorem filterMap_ofRule?_congr {rules others : List RoutingRule}
    (alike : List.Forall₂ RoutingRule.Alike rules others) (s : Settings) :
    rules.filterMap (Inbound.ofRule? s) = others.filterMap (Inbound.ofRule? s) := by
  induction alike with
  | nil => rfl
  | cons first _ ih =>
      rw [List.filterMap_cons, List.filterMap_cons, Inbound.ofRule?_congr first, ih]

theorem synthesize_congr {source other : Source} (alike : source.Alike other) (s : Settings) :
    synthesize s source = synthesize s other := by
  apply SameUpTo.eq
  rw [synthesize_eq, synthesize_eq, alike.template]
  apply (SameUpTo.refl Eq.refl (ofStore (other.setting? StoreKey.template))).bind
  rintro template _ rfl
  apply (SameUpTo.refl Eq.refl (RelayConfig.ofTemplate _ s.tuning)).bind
  rintro base _ rfl
  apply alike.credential.ofStore.bind
  intro held held' same
  rw [withTunnel_congr alike s base same]
  apply (SameUpTo.refl Eq.refl (withTunnel s other base held')).bind
  rintro based _ rfl
  apply alike.rules.ofStore.bind
  intro rules others same
  rw [filterMap_ofRule?_congr same]
  exact .value rfl

/-! Stores that synthesis cannot tell apart. -/

/--
Two stores that differ only in the traffic they count, in disabled rules with their records, in the
order or repetition of the records of a rule, and in what the relay is not told of the credential.
-/
structure Store.SameForRelay (s s' : Store) : Prop where
  reach : ∀ table, table ≠ .outbounds → s.reach table = s'.reach table
  texts : AlikeTexts Credential.tunnelled s.texts s'.texts
  enabled : List.Forall₂ (fun r r' => r.toRuleBody = r'.toRuleBody ∧
      ∀ record, record ∈ s.recordsOf r.id ↔ record ∈ s'.recordsOf r'.id)
    (s.inbounds.filter (·.enabled)) (s'.inbounds.filter (·.enabled))

namespace Store.SameForRelay

variable {s s' : Store}

theorem text? (same : s.SameForRelay s') {key : String} (other : key ≠ StoreKey.credential) :
    s.text? key = s'.text? key := by
  unfold Store.text?
  rw [same.reach .settings (by decide), same.texts.rest key other]

theorem enabledRules (same : s.SameForRelay s') :
    SameUpTo (List.Forall₂ RoutingRule.Alike) s.enabledRules s'.enabledRules := by
  unfold Store.enabledRules
  rw [same.reach .inbounds (by decide), same.reach .clients (by decide)]
  apply (SameUpTo.refl Eq.refl (s'.reach .inbounds)).bind
  intro _ _ _
  apply (SameUpTo.refl Eq.refl (s'.reach .clients)).bind
  intro _ _ _
  apply SameUpTo.value
  rw [List.forall₂_map_left_iff, List.forall₂_map_right_iff]
  exact same.enabled.imp fun r r' rows => ⟨rows.1, rows.2⟩

theorem credential (same : s.SameForRelay s') :
    SameUpTo (fun c d => c.map Credential.tunnelled = d.map Credential.tunnelled)
      (s.text? StoreKey.credential >>= Credential.ofStored?)
      (s'.text? StoreKey.credential >>= Credential.ofStored?) := by
  unfold Store.text?
  rw [same.reach .settings (by decide)]
  cases s'.reach .settings with
  | error f => exact .fault (f.during _)
  | ok => exact same.texts.held

theorem source (same : s.SameForRelay s') : s.source.Alike s'.source where
  template := same.text? (by decide)
  remote := same.text? (by decide)
  credential := same.credential
  rules := same.enabledRules

end Store.SameForRelay

/-! Deeds that synthesis does not notice. -/

inductive QuietDeed where
  | collect (w : Surroundings)
  | reset (tag : String)
  | setLicense (w : Surroundings) (license : String)

theorem RegistrationCall.setLicense_alike (license : String) (r : Registrar) (now : String)
    (e : Endpoint) (access : StoreAccess) (texts : List (String × String)) :
    AlikeTexts Credential.tunnelled texts
      ((RegistrationCall.setLicense license).perform r now e access texts).texts := by
  rcases perform_cases r now e access texts (.setLicense license) with
    ⟨f, -, done⟩ | ⟨f, requests, -, done⟩ |
    ⟨c, content, outcome, requests, prepared, -, means, done⟩
  · rw [done]
    exact .refl _ texts
  · rw [done]
    exact .refl _ texts
  · rw [done]
    cases means
    simp only [RegistrationOutcome.writes, List.append_nil, writeAll]
    split
    · exact .refl _ texts
    · obtain ⟨text, stored, read⟩ := prepare_eq_ok rfl prepared
      have held : heldCredential texts = .ok (some c) := by
        unfold StoreAccess.stored at stored
        split at stored
        · cases stored
        · cases stored
          exact read
      exact .renewed held rfl

namespace ControlPlane

def doQuietly (c : ControlPlane) : QuietDeed → ControlPlane
  | .collect w => (c.collectIntoStore w).2
  | .reset tag =>
      match c.store.resetOutbounds tag with
      | .ok (_, store) => { c with store }
      | .error _ => c
  | .setLicense w license => (c.registration w (.setLicense license)).2.2

/-- Planes whose relay runs alike and would be restarted alike. -/
structure Undisturbed (c c' : ControlPlane) : Prop where
  settings : c'.settings = c.settings
  supervisor : c'.supervisor = c.supervisor
  synthesized : c'.synthesized = c.synthesized

variable {c c' : ControlPlane}

theorem Undisturbed.trans {c'' : ControlPlane} (first : Undisturbed c c')
    (second : Undisturbed c' c'') : Undisturbed c c'' where
  settings := second.settings.trans first.settings
  supervisor := second.supervisor.trans first.supervisor
  synthesized := second.synthesized.trans first.synthesized

theorem undisturbed_of_uncounted (c : ControlPlane) {store : Store} (baseline : Option Baseline)
    (same : store.uncounted = c.store.uncounted) : Undisturbed c { c with store, baseline } where
  settings := rfl
  supervisor := rfl
  synthesized := congrArg (synthesize c.settings) (Store.source_eq_of_uncounted same)

theorem collect_eq_ok {α : Type} {endpoint : Option (Nat × UInt16)} {timeoutMs : Nat}
    {reply : Http.Reply} {baseline : Option Baseline} {persist : Growth → Except Fault α}
    {growth : Growth} {x : α}
    (collected : (collect endpoint timeoutMs reply baseline persist).1 = .ok (growth, x)) :
    persist growth = .ok x := by
  unfold collect at collected
  cases endpoint with
  | none => cases collected
  | some port =>
      cases came : Snapshot.ofReply timeoutMs reply with
      | error f =>
          rw [came] at collected
          cases collected
      | ok snapshot =>
          simp only [came, Baseline.advance] at collected
          split at collected
          · rename_i persisted
            cases collected
            exact persisted
          · cases collected

theorem collectIntoStore_undisturbed (c : ControlPlane) (w : Surroundings) :
    Undisturbed c (c.collectIntoStore w).2 := by
  unfold collectIntoStore
  dsimp only
  split
  · rename_i growth store collected
    apply undisturbed_of_uncounted
    exact Store.addTraffic_uncounted (ofStore_eq_ok_iff.mp (collect_eq_ok collected))
  · exact undisturbed_of_uncounted c _ rfl

theorem doQuietly_undisturbed (c : ControlPlane) (deed : QuietDeed) :
    Undisturbed c (c.doQuietly deed) := by
  cases deed with
  | collect w => exact c.collectIntoStore_undisturbed w
  | reset tag =>
      unfold doQuietly
      dsimp only
      split
      · rename_i rows store reset
        exact undisturbed_of_uncounted c c.baseline (Store.resetOutbounds_uncounted reset)
      · exact ⟨rfl, rfl, rfl⟩
  | setLicense w license =>
      have texts := RegistrationCall.setLicense_alike license
        (.ofSettings c.settings.registration w.hostName) w.now w.endpoint
        (c.store.access.or w.storage) c.store.texts
      refine ⟨rfl, rfl, (synthesize_congr (Store.SameForRelay.source ?_) c.settings).symm⟩
      exact ⟨fun _ _ => rfl, texts, List.forall₂_same.mpr fun r _ => ⟨rfl, fun _ => .rfl⟩⟩

theorem foldl_doQuietly_undisturbed (c : ControlPlane) (deeds : List QuietDeed) :
    Undisturbed c (deeds.foldl doQuietly c) := by
  induction deeds generalizing c with
  | nil => exact ⟨rfl, rfl, rfl⟩
  | cons deed rest ih => exact (c.doQuietly_undisturbed deed).trans (ih _)

theorem Undisturbed.restart (same : Undisturbed c c') (w : Surroundings) (force : Bool) :
    (c'.restart w force).1 = (c.restart w force).1 ∧
      (c'.restart w force).2.supervisor = (c.restart w force).2.supervisor := by
  simp only [ControlPlane.restart, launcher, same.settings, same.supervisor, same.synthesized,
    and_self]

def upToDate (c : ControlPlane) : Bool := c.synthesized.toOption.any c.supervisor.runs

theorem restart_of_upToDate (current : c.upToDate = true) (w : Surroundings) :
    c.restart w false = (.ok (), c) := by
  unfold upToDate at current
  unfold ControlPlane.restart
  cases synthesized : c.synthesized with
  | error f =>
      rw [synthesized] at current
      cases current
  | ok config =>
      rw [synthesized] at current
      have running : c.supervisor.runs config = true := current
      simp [Supervisor.restart, running]

/-- A poll leaves the relay alone if nothing was marked, and if what it runs with is not stale. -/
theorem poll_undisturbed (c : ControlPlane) (w : Surroundings)
    (calm : c.flag.dirty = false ∨ c.upToDate = true) : Undisturbed c (c.poll w) := by
  let d : ControlPlane := { c with flag := c.flag.consume.2 }
  have consumed : Undisturbed c d := ⟨rfl, rfl, rfl⟩
  have applied : (if c.flag.dirty then (d.restart w false).2 else d) = d := by
    rcases calm with clean | current
    · rw [if_neg (by simp [clean])]
    · have still : d.upToDate = true := current
      rw [restart_of_upToDate still w, ite_self]
  have polled : c.poll w = (d.collectIntoStore w).2 :=
    congrArg (fun d => (ControlPlane.collectIntoStore d w).2) applied
  rw [polled]
  exact consumed.trans (d.collectIntoStore_undisturbed w)

end ControlPlane

/--
Stores that differ only in traffic, in disabled rules, in how the records of a rule are listed and
in the token and the license of the credential give one configuration. So collecting traffic,
setting counters to zero and changing the license leave a restart what it would have been, and a
relay that is up to date is left alone by it.
-/
theorem synthesis_dependence :
    (∀ (settings : Settings) (s s' : Store), s.SameForRelay s' →
      synthesize settings s.source = synthesize settings s'.source) ∧
    ∀ (c : ControlPlane) (deeds : List QuietDeed) (w : Surroundings),
      let c' := deeds.foldl ControlPlane.doQuietly c
      (∀ force, (c'.restart w force).1 = (c.restart w force).1 ∧
        (c'.restart w force).2.supervisor = (c.restart w force).2.supervisor) ∧
      (c.upToDate = true → c'.restart w false = (.ok (), c')) := by
  refine ⟨fun settings s s' same => synthesize_congr same.source settings, ?_⟩
  intro c deeds w c'
  have same : c.Undisturbed c' := c.foldl_doQuietly_undisturbed deeds
  refine ⟨same.restart w, ?_⟩
  intro current
  apply ControlPlane.restart_of_upToDate
  rwa [ControlPlane.upToDate, same.synthesized, same.supervisor]

/-- A relay with one rule runs on while traffic is counted for the rule, the counters of an outbound
are set to zero, and the device gets another license. -/
theorem synthesis_dependence_relicensed :
    let credential (token license : String) : Credential := ⟨token, "dev-1", license, "key"⟩
    let rule : InboundRow := { id := 1, tag := "R1", port := 443, protocol := "vless" }
    let s : Store :=
      { texts := Store.putText StoreKey.credential (credential "token-1" "license-1").stored []
        inbounds := [rule, { rule with id := 2, tag := "R2", enabled := false }]
        clients := [⟨1, "a@x", true, .zero, .zero⟩, ⟨2, "b@x", true, .zero, .zero⟩,
          ⟨1, "c@x", false, .zero, .zero⟩]
        outbounds := [⟨"direct", .whole 1, .whole 2, .whole 3⟩] }
    let s' : Store :=
      { texts := Store.putText StoreKey.credential (credential "token-2" "license-2").stored []
        inbounds := [{ rule with up := .whole 5 }]
        clients := [⟨1, "c@x", false, .zero, .whole 7⟩, ⟨1, "a@x", true, .zero, .zero⟩] }
    let w : Surroundings :=
      { endpoint := ⟨fun _ => .answered 200 "", fun _ => 0⟩
        stats := .answered 200
          "\x7b\"stats\": \x7b\"inbound\": \x7b\"R1\": \x7b\"uplink\": 5\x7d\x7d\x7d\x7d" }
    let c := (ControlPlane.restart { store := s } w true).2
    let deeds : List QuietDeed := [.collect w, .reset "direct", .setLicense w "license-2"]
    let c' := deeds.foldl ControlPlane.doQuietly c
    synthesize {} s.source = synthesize {} s'.source ∧
      (c'.store.texts.lookup StoreKey.credential = some (credential "token-1" "license-2").stored ∧
        c'.store.inbounds.map (·.up) = [.whole 5, .zero] ∧
        c'.store.outbounds = [⟨"direct", .zero, .zero, .zero⟩] ∧
        c'.supervisor.isRunning = true) ∧
      c'.restart w false = (.ok (), c') := by
  intro credential rule s s' w c deeds c'
  have same : s.SameForRelay s' := by
    have texts : AlikeTexts Credential.tunnelled s.texts s'.texts :=
      AlikeTexts.putCredential (c := credential "token-1" "license-1")
        (d := credential "token-2" "license-2") (.refl _ []) rfl
    have available : s.unavailable = [] := rfl
    refine ⟨fun table _ => by rw [Store.reach, Store.reach, available], texts, ?_⟩
    have row : s.inbounds.filter (·.enabled) = [rule] := rfl
    have row' : s'.inbounds.filter (·.enabled) = [{ rule with up := .whole 5 }] := rfl
    have records : s.recordsOf rule.id = [⟨"a@x", true⟩, ⟨"c@x", false⟩] := by decide
    have records' : s'.recordsOf rule.id = [⟨"c@x", false⟩, ⟨"a@x", true⟩] := by decide
    rw [row, row']
    refine .cons ⟨rfl, ?_⟩ .nil
    intro record
    rw [records, records', List.mem_pair, List.mem_pair, or_comm]
  have current : c.upToDate = true := by decide +kernel
  have noticed : c'.store.texts.lookup StoreKey.credential =
        some (credential "token-1" "license-2").stored ∧
      c'.store.inbounds.map (·.up) = [.whole 5, .zero] ∧
      c'.store.outbounds = [⟨"direct", .zero, .zero, .zero⟩] ∧
      c'.supervisor.isRunning = true := by decide +kernel
  exact ⟨synthesis_dependence.1 {} s s' same, noticed,
    (synthesis_dependence.2 c deeds w).2 current⟩

end RelayControl
