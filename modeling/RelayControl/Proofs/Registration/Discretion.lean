import RelayControl.Proofs.Registration.Likeness

/-!
What a registration call tells of private keys: nothing. Two calls that differ in their secret keys,
on texts that differ in the stored one, send the same requests and come to results that differ in
the private key only.
-/

namespace RelayControl

def Credential.exposed (c : Credential) : String × String × String :=
  (c.accessToken, c.deviceId, c.licenseKey)

/-- Texts that differ at most in the private key of a stored credential. One that cannot be read holds
no key, and is the same in both. -/
structure TwinTexts (texts others : List (String × String)) : Prop extends
    AlikeTexts Credential.exposed texts others where
  legible : (∃ held, heldCredential texts = .ok held) ∨
    texts.lookup StoreKey.credential = others.lookup StoreKey.credential

namespace TwinTexts

variable {texts others : List (String × String)}

theorem refl (texts : List (String × String)) : TwinTexts texts texts :=
  ⟨.refl Credential.exposed texts, .inr rfl⟩

theorem putCredential (twins : TwinTexts texts others) {c d : Credential}
    (same : c.exposed = d.exposed) :
    TwinTexts (Store.putText StoreKey.credential c.stored texts)
      (Store.putText StoreKey.credential d.stored others) :=
  ⟨twins.toAlikeTexts.putCredential same, .inl ⟨_, heldCredential_putText texts c⟩⟩

theorem putRemote (twins : TwinTexts texts others) (text : String) :
    TwinTexts (Store.putText StoreKey.remoteConfig text texts)
      (Store.putText StoreKey.remoteConfig text others) := by
  refine ⟨twins.toAlikeTexts.putRemote text, ?_⟩
  rw [heldCredential_putText_remoteConfig, Store.lookup_putText_of_ne credential_ne_remoteConfig,
    Store.lookup_putText_of_ne credential_ne_remoteConfig]
  exact twins.legible

end TwinTexts

def RegistrationOutcome.exposed (o : RegistrationOutcome) :
    Option (String × String × String) × Option Json :=
  (o.credential.map Credential.exposed, o.remote)

section Writing

variable {texts others : List (String × String)}

theorem writeAll_remote_alike (access : StoreAccess)
    (alike : TwinTexts texts others) (remote : Option Json) :
    (writeAll access texts ({ remote } : RegistrationOutcome).writes).1 =
        (writeAll access others ({ remote } : RegistrationOutcome).writes).1 ∧
      TwinTexts
        (writeAll access texts ({ remote } : RegistrationOutcome).writes).2
        (writeAll access others ({ remote } : RegistrationOutcome).writes).2 := by
  cases remote with
  | none => exact ⟨rfl, alike⟩
  | some v =>
      simp only [RegistrationOutcome.writes, List.nil_append, writeAll]
      split
      · exact ⟨rfl, alike⟩
      · exact ⟨rfl, alike.putRemote _⟩

theorem writeAll_alike (access : StoreAccess)
    (alike : TwinTexts texts others) {o p : RegistrationOutcome}
    (same : o.exposed = p.exposed) :
    (writeAll access texts o.writes).1 = (writeAll access others p.writes).1 ∧
      TwinTexts (writeAll access texts o.writes).2
        (writeAll access others p.writes).2 := by
  obtain ⟨kept, remote⟩ := o
  obtain ⟨kept', remote'⟩ := p
  obtain ⟨credentials, rfl⟩ := Prod.mk.inj same
  rcases map_eq_map_cases credentials with ⟨rfl, rfl⟩ | ⟨c, d, rfl, rfl, shown⟩
  · exact writeAll_remote_alike access alike remote
  · change (writeAll access texts ((StoreKey.credential, c.stored) :: _)).1 =
      (writeAll access others ((StoreKey.credential, d.stored) :: _)).1 ∧ TwinTexts
        (writeAll access texts ((StoreKey.credential, c.stored) :: _)).2
        (writeAll access others ((StoreKey.credential, d.stored) :: _)).2
    unfold writeAll
    split
    · exact ⟨rfl, alike⟩
    · exact writeAll_remote_alike access (alike.putCredential shown) remote

end Writing

/-- The same key, or two good ones. -/
inductive TwinKeys : String → String → Prop
  | same (key : String) : TwinKeys key key
  | good {key other : String} (good : checkKey "secret key" key = .ok ())
      (otherGood : checkKey "secret key" other = .ok ()) : TwinKeys key other

inductive RegistrationCall.Twins : RegistrationCall → RegistrationCall → Prop
  | register {secretKey other : String} (keys : TwinKeys secretKey other) (publicKey : String) :
      Twins (.register secretKey publicKey) (.register other publicKey)
  | refresh : Twins .refresh .refresh
  | setLicense (license : String) : Twins (.setLicense license) (.setLicense license)

structure Dispatch where
  url : String
  request : RegistrationRequest
  attempts : Nat
  pauses : List Span

namespace RegistrationCall

def dispatch? (call : RegistrationCall) (r : Registrar) (now : String) (e : Endpoint)
    (stored : Except StoreFault (Option String)) : Option Dispatch :=
  match call.prepare stored with
  | .error _ => none
  | .ok c =>
      let request := call.request r now c
      let sent := r.policy.call (fun n => request.attempt (e.reply n)) e.draw
      some ⟨r.baseUrl ++ request.path, request, sent.attempts, sent.delays⟩

/-- Of what is sent the endpoint receives the attempts that get through. -/
def received (e : Endpoint) (d : Dispatch) : List RegistrationRequest :=
  (List.range d.attempts).filterMap fun n =>
    if d.request.received (e.reply n) then some d.request else none

variable {call other : RegistrationCall} {texts others : List (String × String)}

theorem requests_perform (call : RegistrationCall) (r : Registrar) (now : String) (e : Endpoint)
    (access : StoreAccess) (texts : List (String × String)) :
    (call.perform r now e access texts).requests =
      ((call.dispatch? r now e (access.stored texts)).elim [] (received e)) := by
  unfold perform dispatch?
  cases call.prepare (access.stored texts) with
  | error f => rfl
  | ok c =>
      dsimp only
      split <;> rfl

theorem credentialFor_lookup (texts : List (String × String)) :
    credentialFor (.ok (texts.lookup StoreKey.credential)) =
      match heldCredential texts with
      | .error f => .error (.store f)
      | .ok none => .error .noCredential
      | .ok (some c) => if c.deviceId.isEmpty then .error .noCredential else .ok c :=
  rfl

theorem credentialFor_alike (access : StoreAccess)
    (alike : TwinTexts texts others) :
    SameUpTo (fun c d => c.exposed = d.exposed) (credentialFor (access.stored texts))
      (credentialFor (access.stored others)) := by
  unfold StoreAccess.stored
  cases access.reading with
  | some f => exact .fault (Fault.store f)
  | none =>
      have held := alike.held
      dsimp only
      rw [credentialFor_lookup, credentialFor_lookup]
      generalize heldCredential texts = c? at held ⊢
      generalize heldCredential others = d? at held ⊢
      cases held with
      | fault f => exact .fault (Fault.store f)
      | value same =>
          rcases map_eq_map_cases same with ⟨rfl, rfl⟩ | ⟨c, d, rfl, rfl, shown⟩
          · exact .fault Fault.noCredential
          · have device : c.deviceId = d.deviceId := congrArg (·.2.1) shown
            dsimp only
            rw [device]
            split
            · exact .fault Fault.noCredential
            · exact .value shown

theorem Twins.prepare (twins : Twins call other) (access : StoreAccess)
    (alike : TwinTexts texts others) :
    SameUpTo (fun c d => c.exposed = d.exposed) (call.prepare (access.stored texts))
      (other.prepare (access.stored others)) := by
  cases twins with
  | @register secretKey otherKey keys publicKey =>
      have same : (RegistrationCall.register secretKey publicKey).prepare (access.stored texts) =
          (RegistrationCall.register otherKey publicKey).prepare (access.stored others) := by
        cases keys with
        | same => rfl
        | good good otherGood => simp only [RegistrationCall.prepare, good, otherGood]
      rw [same]
      apply SameUpTo.refl
      intro c
      rfl
  | refresh => exact credentialFor_alike access alike
  | setLicense license => exact credentialFor_alike access alike

variable {c d : Credential}

theorem Twins.request (twins : Twins call other) (same : c.exposed = d.exposed) (r : Registrar)
    (now : String) : call.request r now c = other.request r now d := by
  have token : c.accessToken = d.accessToken := congrArg (·.1) same
  have device : c.deviceId = d.deviceId := congrArg (·.2.1) same
  cases twins with
  | register keys publicKey => rfl
  | refresh => simp only [RegistrationCall.request, token, device]
  | setLicense license => simp only [RegistrationCall.request, token, device]

theorem Twins.conclude (twins : Twins call other) (same : c.exposed = d.exposed)
    (content : String) :
    SameUpTo (fun o p => o.exposed = p.exposed) (call.conclude c content)
      (other.conclude d content) := by
  cases twins with
  | register keys publicKey =>
      apply (SameUpTo.refl Eq.refl (answerJson content)).bind
      rintro remote _ rfl
      apply (SameUpTo.refl Eq.refl (requiredText remote ["token"])).bind
      rintro token _ rfl
      apply (SameUpTo.refl Eq.refl (requiredText remote ["id"])).bind
      rintro device _ rfl
      apply (SameUpTo.refl Eq.refl (requiredText remote ["account", "license"])).bind
      rintro license _ rfl
      exact .value rfl
  | refresh =>
      apply (SameUpTo.refl Eq.refl (answerJson content)).bind
      rintro remote _ rfl
      exact .value rfl
  | setLicense license =>
      have token : c.accessToken = d.accessToken := congrArg (·.1) same
      have device : c.deviceId = d.deviceId := congrArg (·.2.1) same
      apply SameUpTo.value
      simp only [RegistrationOutcome.exposed, Credential.exposed, Option.map_some, token, device]

theorem Twins.dispatch? (twins : Twins call other)
    (alike : TwinTexts texts others) (r : Registrar) (now : String)
    (e : Endpoint) (access : StoreAccess) :
    call.dispatch? r now e (access.stored texts) =
      other.dispatch? r now e (access.stored others) := by
  have prepared := twins.prepare access alike
  unfold RegistrationCall.dispatch?
  generalize call.prepare (access.stored texts) = c? at prepared ⊢
  generalize other.prepare (access.stored others) = d? at prepared ⊢
  cases prepared with
  | fault f => rfl
  | value same =>
      dsimp only
      rw [twins.request same]

/-- What two calls come to that cannot be told apart. -/
structure Indistinct (done other : RegistrationDone) : Prop where
  result : SameUpTo (fun o p => o.exposed = p.exposed) done.result other.result
  requests : done.requests = other.requests
  texts : TwinTexts done.texts other.texts

theorem Twins.perform (twins : Twins call other)
    (alike : TwinTexts texts others) (r : Registrar) (now : String)
    (e : Endpoint) (access : StoreAccess) :
    Indistinct (call.perform r now e access texts) (other.perform r now e access others) := by
  have prepared := twins.prepare access alike
  unfold RegistrationCall.perform
  generalize call.prepare (access.stored texts) = c? at prepared ⊢
  generalize other.prepare (access.stored others) = d? at prepared ⊢
  cases prepared with
  | fault f => exact ⟨.fault f, rfl, alike⟩
  | @value c d same =>
      dsimp only
      rw [twins.request same]
      generalize (r.policy.call _ e.draw).result = sent
      have concluded : SameUpTo (fun o p => o.exposed = p.exposed)
          (sent >>= fun content => call.conclude c content)
          (sent >>= fun content => other.conclude d content) := by
        apply (SameUpTo.refl Eq.refl sent).bind
        rintro content _ rfl
        exact twins.conclude same content
      generalize sent >>= (fun content => call.conclude c content) = o? at concluded ⊢
      generalize sent >>= (fun content => other.conclude d content) = p? at concluded ⊢
      cases concluded with
      | fault f => exact ⟨.fault f, rfl, alike⟩
      | @value outcome outcome' shown =>
          obtain ⟨written, kept⟩ := writeAll_alike access alike shown
          refine ⟨?_, rfl, kept⟩
          dsimp only
          rw [written]
          apply (SameUpTo.refl Eq.refl (writeAll access others outcome'.writes).1).map
          exact fun _ _ _ => shown

end RegistrationCall

end RelayControl
