import RelayControl.Proofs.Registration.Calls

/-!
What a failed call leaves behind. Nothing is stored before the endpoint has answered and the answer
has been read, so that a call which stores one text stores it or changes nothing. A registration
stores two: where the second is refused, the first one stays.
-/

namespace RelayControl

namespace RegistrationCall

/-- Where the call fails, the stored credential and the cached configuration are what they were. -/
def Atomic (call : RegistrationCall) (access : StoreAccess) : Prop :=
  ∀ (r : Registrar) (now : String) (e : Endpoint) (texts : List (String × String)) (f : Fault),
    (call.perform r now e access texts).result = .error f →
    ∀ key ∈ [StoreKey.credential, StoreKey.remoteConfig],
      (call.perform r now e access texts).texts.lookup key = texts.lookup key

/-- The call registers a device, whose credential is stored and whose configuration is refused. -/
def Torn (call : RegistrationCall) (access : StoreAccess) : Prop :=
  ∃ secretKey publicKey, call = .register secretKey publicKey ∧
    checkKey "secret key" secretKey = .ok () ∧ checkKey "public key" publicKey = .ok () ∧
    access.writing StoreKey.credential = none ∧ access.writing StoreKey.remoteConfig ≠ none

variable {call : RegistrationCall} {access : StoreAccess}

theorem checkKey_of_prepare {stored : Except StoreFault (Option String)} {c : Credential}
    {secretKey publicKey : String}
    (prepared : prepare stored (.register secretKey publicKey) = .ok c) :
    checkKey "secret key" secretKey = .ok () ∧ checkKey "public key" publicKey = .ok () := by
  simp only [prepare, bind_eq_ok_iff] at prepared
  obtain ⟨⟨⟩, secret, ⟨⟩, shared, -⟩ := prepared
  exact ⟨secret, shared⟩

/-- A failed call changed nothing, or left the new credential beside the old configuration. -/
theorem texts_of_perform_error {r : Registrar} {now : String} {e : Endpoint}
    {texts : List (String × String)} {f : Fault}
    (failed : (call.perform r now e access texts).result = .error f) :
    (call.perform r now e access texts).texts = texts ∨
    call.Torn access ∧ ∃ c : Credential, (call.perform r now e access texts).texts =
      Store.putText StoreKey.credential c.stored texts := by
  rcases perform_cases r now e access texts call with
    ⟨g, -, done⟩ | ⟨g, requests, -, done⟩ |
      ⟨c, content, outcome, requests, prepared, -, reports, done⟩
  · rw [done]
    exact .inl rfl
  · rw [done]
    exact .inl rfl
  rw [done] at failed ⊢
  rcases writeAll_cases access texts outcome.writes with
    all | ⟨before, key, value, after, g, writes, taken, refused, part⟩
  · simp [all, Except.map] at failed
  rw [part]
  cases reports with
  | registered body hasToken hasDevice hasLicense =>
      -- The two writes of a registration: either one may be the first that is refused.
      rcases before with _ | ⟨w, _ | ⟨w', before⟩⟩
      · exact .inl rfl
      · obtain ⟨secret, shared⟩ := checkKey_of_prepare prepared
        cases writes
        have kept : access.writing StoreKey.credential = none := taken _ (List.mem_cons_self ..)
        exact .inr ⟨⟨_, _, rfl, secret, shared, kept, by simp [refused]⟩, _, rfl⟩
      · simp [RegistrationOutcome.writes] at writes
  | refreshed body =>
      rcases before with _ | ⟨w, before⟩
      · exact .inl rfl
      · simp [RegistrationOutcome.writes] at writes
  | relicensed =>
      rcases before with _ | ⟨w, before⟩
      · exact .inl rfl
      · simp [RegistrationOutcome.writes] at writes

/-- Whatever the endpoint does, a call is undone by its failure unless it is torn. -/
theorem atomic_iff_not_torn (call : RegistrationCall) (access : StoreAccess) :
    call.Atomic access ↔ ¬call.Torn access := by
  constructor
  · rintro atomic ⟨secretKey, publicKey, rfl, secret, shared, taken, refused⟩
    obtain ⟨f, refused⟩ := Option.ne_none_iff_exists'.mp refused
    let r : Registrar := ⟨default, "", "", "", ""⟩
    let c : Credential := { privateKey := secretKey }
    let e : Endpoint := { reply := fun _ => .answered 200 c.answer.pretty }
    have prepared : prepare (access.stored []) (.register secretKey publicKey) = .ok {} := by
      rw [prepare, secret, shared]
      rfl
    obtain ⟨requests, done⟩ := perform_of_answer r "" e access [] prepared rfl rfl
      (conclude_answer c publicKey)
    have failed : (perform r "" e access [] (.register secretKey publicKey)).result =
        .error (.store f) := by
      rw [done]
      simp [RegistrationOutcome.writes, writeAll, taken, refused, Except.map]
    have changed := atomic r "" e [] (.store f) failed StoreKey.credential (by simp)
    rw [done] at changed
    simp [RegistrationOutcome.writes, writeAll, taken, refused, Store.putText] at changed
  · intro whole r now e texts f failed key _
    rcases texts_of_perform_error failed with same | ⟨torn, -⟩
    · rw [same]
    · exact absurd torn whole

/-- A registration whose second text is refused: it fails, and the credential of the new device
stands beside the configuration of the old one. -/
theorem register_torn_at_configuration :
    let key := "AAAAAAAAAAAAAAAAAAAAAAAAAAAAAAAAAAAAAAAAAAA="
    let former : Credential := ⟨"token-1", "dev-1", "license-1", key⟩
    let latter : Credential := ⟨"token-2", "dev-2", "license-2", key⟩
    let r : Registrar := ⟨default, "", "", "", ""⟩
    let e : Endpoint := { reply := fun _ => .answered 200 latter.answer.pretty }
    let access : StoreAccess :=
      { writing := fun key =>
          if key = StoreKey.remoteConfig then some { cause := .unavailable } else none }
    let texts :=
      [(StoreKey.credential, former.stored), (StoreKey.remoteConfig, former.answer.compact)]
    let done := perform r "" e access texts (.register key key)
    done.result = .error (.store { cause := .unavailable }) ∧
    done.texts =
      [(StoreKey.credential, latter.stored), (StoreKey.remoteConfig, former.answer.compact)] ∧
    latter.stored ≠ former.stored := by
  intro key former latter r e access texts done
  have secret : checkKey "secret key" key = .ok () := by decide +kernel
  have shared : checkKey "public key" key = .ok () := by decide +kernel
  have prepared : prepare (access.stored texts) (.register key key) = .ok {} := by
    rw [prepare, secret, shared]
    rfl
  have taken : access.writing StoreKey.credential = none := by decide
  have refused : access.writing StoreKey.remoteConfig = some { cause := .unavailable } := by decide
  have distinct : latter.stored ≠ former.stored := by decide +kernel
  obtain ⟨requests, performed⟩ :=
    perform_of_answer r "" e access texts prepared rfl rfl (conclude_answer latter key)
  change done = _ at performed
  rw [performed]
  simp [texts, RegistrationOutcome.writes, writeAll, taken, refused, Except.map, Store.putText,
    distinct]

end RegistrationCall

end RelayControl
