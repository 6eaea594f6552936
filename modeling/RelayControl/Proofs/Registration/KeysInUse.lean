import RelayControl.Proofs.Registration.Atomicity
import RelayControl.Proofs.Registration.Keys
import RelayControl.Proofs.Relay.Outbounds
import RelayControl.Proofs.Relay.Stages

/-!
The keys that a registration puts to use: the one it stores, which the next tunnel carries, and the
one it sends. These are the texts that were supplied, and the check is of what they are without the
blanks at their ends.
-/

namespace RelayControl

theorem RetryPolicy.attemptsFrom_sent {p : RetryPolicy} {attempt : Nat → Attempt α}
    {draw : Nat → Nat} {left retry : Nat} {content : α}
    (sent : (p.attemptsFrom attempt draw left retry).result = .ok content) :
    ∃ n < (p.attemptsFrom attempt draw left retry).attempts,
      (attempt n).outcome p = .ok content := by
  fun_induction attemptsFrom p attempt draw left retry with
  | case1 _ retry value final =>
      cases sent
      exact ⟨retry, Nat.lt_succ_self retry, final⟩
  | case2 retry f first again => cases sent
  | case3 retry f first again left later ih => exact ih sent
  | case4 _ retry f final again => cases sent

namespace RegistrationCall

variable {r : Registrar} {now : String} {e : Endpoint} {access : StoreAccess}
  {texts : List (String × String)} {call : RegistrationCall} {outcome : RegistrationOutcome}
  {secretKey publicKey : String}

theorem requests_of_perform_ok
    (registered : (call.perform r now e access texts).result = .ok outcome) :
    ∃ c, call.prepare (access.stored texts) = .ok c ∧
      (call.perform r now e access texts).requests ≠ [] ∧
      ∀ q ∈ (call.perform r now e access texts).requests, q = call.request r now c := by
  unfold perform at registered ⊢
  cases prepared : call.prepare (access.stored texts) with
  | error f => simp [prepared] at registered
  | ok c =>
      rw [prepared] at registered
      dsimp only at registered ⊢
      split at registered
      · cases registered
      · rename_i concluded came
        obtain ⟨content, sent, -⟩ := bind_eq_ok_iff.mp came
        obtain ⟨n, inside, final⟩ := RetryPolicy.attemptsFrom_sent sent
        obtain ⟨status, answered, -⟩ := RegistrationRequest.attempt_eq_ok final
        have sendable := RegistrationRequest.sendable_of_ok final
        have got : (call.request r now c).received (e.reply n) = true := by
          simp [RegistrationRequest.received, answered, sendable]
        refine ⟨c, rfl, List.ne_nil_of_mem (a := call.request r now c) ?_, fun q member => ?_⟩
        · exact List.mem_filterMap.mpr ⟨n, List.mem_range.mpr inside, by rw [if_pos got]⟩
        · obtain ⟨m, -, same⟩ := List.mem_filterMap.mp member
          split at same <;> cases same
          rfl

theorem held_of_register_ok
    (registered : (perform r now e access texts (.register secretKey publicKey)).result =
      .ok outcome) :
    ∃ c, outcome.credential = some c ∧ c.privateKey = secretKey ∧
      heldCredential (perform r now e access texts (.register secretKey publicKey)).texts =
        .ok (some c) := by
  rcases perform_cases r now e access texts (.register secretKey publicKey) with
    ⟨g, -, done⟩ | ⟨g, requests, -, done⟩ | ⟨c, content, kept, requests, -, -, reports, done⟩
  · rw [done] at registered
    cases registered
  · rw [done] at registered
    cases registered
  rw [done] at registered ⊢
  rcases writeAll_cases access texts kept.writes with all | ⟨_, _, _, _, _, -, -, -, part⟩
  · rw [all] at registered ⊢
    cases registered
    cases reports with
    | registered body hasToken hasDevice hasLicense =>
        refine ⟨_, rfl, rfl, ?_⟩
        change heldCredential (Store.putText StoreKey.remoteConfig _
          (Store.putText StoreKey.credential (Credential.stored _) texts)) = _
        rw [heldCredential_putText_remoteConfig, heldCredential_putText]
  · rw [part] at registered
    cases registered

end RegistrationCall

theorem tunnel_of_synthesize {s : Settings} {source : Source} {config : RelayConfig}
    {c : Credential} (known : source.setting? StoreKey.credential >>= Credential.ofStored? =
      .ok (some c)) (ofUse : c.isEmpty = false) (synthesized : synthesize s source = .ok config) :
    ∃ tunnel, config.outbound? s.registration.outboundTag = some (.tunnel tunnel) ∧
      tunnel.settings.secretKey = c.privateKey := by
  obtain ⟨template, held, based, rules, -, known', placed, -, rfl⟩ :=
    stages_of_synthesize synthesized
  cases known.symm.trans known'
  rw [withTunnel_of_not_isEmpty ofUse] at placed
  obtain ⟨remote, -, rfl⟩ := map_eq_ok_iff.mp placed
  let tunnel := Tunnel.ofCredential s.registration c
    (remote.bind fun text => (Json.parse text).toOption)
  have placement : Placed s.registration.outboundTag (.tunnel tunnel) template.outbounds
      (upsert (.tunnel tunnel) template.outbounds) := .upsert rfl _
  exact ⟨tunnel, placement.find? rfl, rfl⟩

structure KeysInUse (done : RegistrationDone) (secretKey publicKey : String) : Prop where
  stored : ∃ c, heldCredential done.texts = .ok (some c) ∧ c.privateKey = secretKey
  sent : done.requests ≠ [] ∧
    ∀ q ∈ done.requests, q.body.bind (·.member? "key") = some (.text publicKey)
  /-- Whoever reads the stored text makes the tunnel of the device with the key. -/
  tunnelled : ∀ (s : Settings) (source : Source) (config : RelayConfig) (c : Credential),
    source.setting? StoreKey.credential = .ok (done.texts.lookup StoreKey.credential) →
    heldCredential done.texts = .ok (some c) → c.deviceId ≠ "" →
    synthesize s source = .ok config →
    ∃ tunnel, config.outbound? s.registration.outboundTag = some (.tunnel tunnel) ∧
      tunnel.settings.secretKey = secretKey

namespace KeysInUse

variable {done : RegistrationDone} {secretKey publicKey : String}

theorem unique {used shared : String} (keys : KeysInUse done secretKey publicKey)
    (also : KeysInUse done used shared) : used = secretKey ∧ shared = publicKey := by
  constructor
  · obtain ⟨c, held, rfl⟩ := keys.stored
    obtain ⟨d, held', rfl⟩ := also.stored
    cases held.symm.trans held'
    rfl
  · obtain ⟨q, member⟩ := List.exists_mem_of_ne_nil _ keys.sent.1
    have own := keys.sent.2 q member
    rw [also.sent.2 q member] at own
    cases own
    rfl

/-- Whatever the endpoint and the store do, a registration that succeeds uses the keys it was given. -/
theorem of_register_ok {r : Registrar} {now : String} {e : Endpoint} {access : StoreAccess}
    {texts : List (String × String)} {outcome : RegistrationOutcome}
    (registered : (RegistrationCall.perform r now e access texts
      (.register secretKey publicKey)).result = .ok outcome) :
    KeyText (Text.trim secretKey) ∧ KeyText (Text.trim publicKey) ∧
      KeysInUse (RegistrationCall.perform r now e access texts (.register secretKey publicKey))
        secretKey publicKey := by
  obtain ⟨start, prepared, some, all⟩ := RegistrationCall.requests_of_perform_ok registered
  obtain ⟨c, -, rfl, held⟩ := RegistrationCall.held_of_register_ok registered
  obtain ⟨secret, shared⟩ := RegistrationCall.checkKey_of_prepare prepared
  refine ⟨checkKey_eq_ok_iff.mp secret, checkKey_eq_ok_iff.mp shared, ⟨c, held, rfl⟩, ⟨some, ?_⟩, ?_⟩
  · intro q member
    rw [all q member]
    rfl
  · intro s source config d known held' device synthesized
    cases held.symm.trans held'
    have key : c.privateKey ≠ "" := by
      intro nothing
      have size := size_of_checkKey secret
      rw [nothing] at size
      cases size
    refine tunnel_of_synthesize ?_ (Credential.isEmpty_eq_false_iff.mpr ⟨device, key⟩) synthesized
    rw [known]
    exact held

end KeysInUse

theorem register_eq_ok {r : Registrar} {e : Endpoint} {c : Credential}
    {secretKey publicKey : String} (own : c.privateKey = secretKey)
    (secret : KeyText (Text.trim secretKey)) (shared : KeyText (Text.trim publicKey))
    (version : Http.isHeaderText r.clientVersion = true)
    (reply : e.reply 0 = .answered 200 c.answer.pretty) :
    (RegistrationCall.perform r "" e {} [] (.register secretKey publicKey)).result =
      .ok { credential := some c, remote := some c.answer } := by
  subst own
  have prepared : RegistrationCall.prepare (StoreAccess.stored {} [])
      (.register c.privateKey publicKey) = .ok {} := by
    rw [RegistrationCall.prepare, checkKey_eq_ok_iff.mpr secret, checkKey_eq_ok_iff.mpr shared]
    rfl
  have sendable : (RegistrationCall.request r "" {} (.register c.privateKey publicKey)).sendable =
      true := by
    rw [RegistrationRequest.sendable, Bool.and_eq_true]
    exact ⟨version, rfl⟩
  obtain ⟨requests, done⟩ := RegistrationCall.perform_of_answer r "" e {} [] prepared sendable
    reply (RegistrationCall.conclude_answer c publicKey)
  rw [done]
  rfl

/-- A registration that succeeds uses the texts it was given, whose keys were checked without the
blanks around them. So it always uses key texts just if the keys it is given are no good in any
case, or have no blanks around them. -/
theorem keys_in_use_iff_bare (secretKey publicKey : String) :
    (∀ r now e access texts outcome,
      let done := RegistrationCall.perform r now e access texts (.register secretKey publicKey)
      done.result = .ok outcome →
        KeyText (Text.trim secretKey) ∧ KeyText (Text.trim publicKey) ∧
        KeysInUse done secretKey publicKey) ∧
    ((∀ r now e access texts outcome used shared,
      let done := RegistrationCall.perform r now e access texts (.register secretKey publicKey)
      done.result = .ok outcome → KeysInUse done used shared → KeyText used ∧ KeyText shared) ↔
      (KeyText (Text.trim secretKey) → KeyText (Text.trim publicKey) →
        Text.trim secretKey = secretKey ∧ Text.trim publicKey = publicKey)) := by
  refine ⟨fun r now e access texts outcome => KeysInUse.of_register_ok, ?_, ?_⟩
  · intro always secret shared
    let r : Registrar := ⟨default, "", "", "", ""⟩
    let c : Credential := { privateKey := secretKey }
    let e : Endpoint := { reply := fun _ => .answered 200 c.answer.pretty }
    have registered := register_eq_ok (r := r) (e := e) (c := c) rfl secret shared rfl rfl
    obtain ⟨-, -, keys⟩ := KeysInUse.of_register_ok registered
    obtain ⟨used, sent⟩ := always r "" e {} [] _ _ _ registered keys
    exact ⟨used.bare, sent.bare⟩
  · intro bare r now e access texts outcome used shared done registered also
    obtain ⟨secretText, publicText, keys⟩ := KeysInUse.of_register_ok registered
    obtain ⟨rfl, rfl⟩ := keys.unique also
    obtain ⟨bareSecret, barePublic⟩ := bare secretText publicText
    exact ⟨bareSecret ▸ secretText, barePublic ▸ publicText⟩

theorem keys_in_use_iff_bare_registered :
    let secretKey := "AQEBAQEBAQEBAQEBAQEBAQEBAQEBAQEBAQEBAQEBAQE="
    let publicKey := "AgICAgICAgICAgICAgICAgICAgICAgICAgICAgICAgI="
    let c : Credential := ⟨"token-1", "dev-1", "license-1", secretKey⟩
    let r : Registrar := ⟨default, "", "a-7.21-0721", "node-a", "relayctl"⟩
    let e : Endpoint := { reply := fun _ => .answered 200 c.answer.pretty }
    let register : RegistrationCall := .register secretKey publicKey
    (register.perform r "" e {} []).result = .ok { credential := some c, remote := some c.answer } ∧
      KeysInUse (register.perform r "" e {} []) secretKey publicKey ∧
      KeyText secretKey ∧ KeyText publicKey := by
  intro secretKey publicKey c r e register
  have secret : checkKey "secret key" secretKey = .ok () := by decide +kernel
  have shared : checkKey "public key" publicKey = .ok () := by decide +kernel
  have bareSecret : Text.trim secretKey = secretKey := by decide +kernel
  have barePublic : Text.trim publicKey = publicKey := by decide +kernel
  have version : Http.isHeaderText r.clientVersion = true := by decide +kernel
  have registered := register_eq_ok (e := e) (c := c) rfl (checkKey_eq_ok_iff.mp secret)
    (checkKey_eq_ok_iff.mp shared) version rfl
  obtain ⟨inUse, wellFormed⟩ := keys_in_use_iff_bare secretKey publicKey
  obtain ⟨-, -, keys⟩ := inUse r "" e {} [] _ registered
  exact ⟨registered, keys, wellFormed.mpr (fun _ _ => ⟨bareSecret, barePublic⟩) r "" e {} []
    _ _ _ registered keys⟩

/-- A secret key with a line end, and a public key behind an ideographic space: both are registered
as they are, and neither is the text of a key. -/
theorem register_uses_blanks :
    let secretKey := "AQEBAQEBAQEBAQEBAQEBAQEBAQEBAQEBAQEBAQEBAQE=\n"
    let publicKey := "\u3000AgICAgICAgICAgICAgICAgICAgICAgICAgICAgICAgI="
    let c : Credential := ⟨"token-1", "dev-1", "license-1", secretKey⟩
    let r : Registrar := ⟨default, "", "a-7.21-0721", "node-a", "relayctl"⟩
    let e : Endpoint := { reply := fun _ => .answered 200 c.answer.pretty }
    let register : RegistrationCall := .register secretKey publicKey
    (register.perform r "" e {} []).result = .ok { credential := some c, remote := some c.answer } ∧
      KeysInUse (register.perform r "" e {} []) secretKey publicKey ∧
      ¬KeyText secretKey ∧ ¬KeyText publicKey := by
  intro secretKey publicKey c r e register
  have secret : checkKey "secret key" secretKey = .ok () := by decide +kernel
  have shared : checkKey "public key" publicKey = .ok () := by decide +kernel
  have blankSecret : Text.trim secretKey ≠ secretKey := by decide +kernel
  have blankPublic : Text.trim publicKey ≠ publicKey := by decide +kernel
  have version : Http.isHeaderText r.clientVersion = true := by decide +kernel
  have registered := register_eq_ok (e := e) (c := c) rfl (checkKey_eq_ok_iff.mp secret)
    (checkKey_eq_ok_iff.mp shared) version rfl
  obtain ⟨-, -, keys⟩ := KeysInUse.of_register_ok registered
  exact ⟨registered, keys, fun text => blankSecret text.bare, fun text => blankPublic text.bare⟩

end RelayControl
