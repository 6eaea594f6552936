import RelayControl.Proofs.Basic
import RelayControl.Proofs.Json.Reading
import RelayControl.Registration.Service

/-!
One registration call: how its attempts end, which answer it goes by, and what it then leaves in the
stored texts.
-/

namespace RelayControl

namespace Credential

theorem legible_toJson (c : Credential) : c.toJson.Legible := by
  simp [toJson, Json.Legible, Json.LegibleMembers]

theorem allBlank_stored (c : Credential) : Text.allBlank c.stored = false := by
  rw [Text.allBlank, stored, Json.pretty, toJson, Json.prettyAt, Json.prettyMembers,
    Json.toList_block_cons]
  rfl

theorem ofStored?_stored (c : Credential) : ofStored? (some c.stored) = .ok (some c) := by
  have read : Json.decode decoder c.stored = .ok c := Json.decode_pretty c.legible_toJson decoder
  simp [ofStored?, allBlank_stored, read]

def answer (c : Credential) : Json :=
  .object
    [("account", .object [("license", .text c.licenseKey)]), ("id", .text c.deviceId),
      ("token", .text c.accessToken)]

theorem legible_answer (c : Credential) : c.answer.Legible := by
  simp [answer, Json.Legible, Json.LegibleMembers]

theorem parse_answer (c : Credential) : Json.parse c.answer.pretty = .ok c.answer := by
  have read : Json.fromJson Json.Decoder.json c.answer =
      .ok (.object (Members.insert "token" (.text c.accessToken)
        (Members.insert "id" (.text c.deviceId) (Members.insert "account"
          (.object (Members.insert "license" (.text c.licenseKey) [])) [])))) := by
    simp [answer, Json.fromJson, Json.Decoder.json, Json.Doc.ofJson, Json.Doc.ofMembers,
      Json.Doc.toJson, Json.Doc.toMembers, Json.proceed, Json.depthLimit]
  rw [Json.parse, Json.decode_pretty c.legible_answer, read, Members.insert, Members.insert]
  rw [Members.insert_cons_of_not_lt (by decide) (by decide), Members.insert]
  rw [Members.insert_cons_of_not_lt (by decide) (by decide),
    Members.insert_cons_of_not_lt (by decide) (by decide), Members.insert]
  rfl

end Credential

/-! The attempts of one call. -/

namespace Http

def Reply.passing : Reply → Bool
  | .unreachable _ => true
  | .silent => true
  | .answered status _ => isServerError status
  | .brokenOff status _ => isServerError status || isSuccess status

end Http

def Endpoint.Answers (e : Endpoint) (content : String) : Prop :=
  ∃ n status, e.reply n = .answered status content ∧ Http.isSuccess status = true ∧
    ∀ m < n, (e.reply m).passing = true

namespace RetryPolicy

variable {p : RetryPolicy} {attempt : Nat → Attempt α} {draw : Nat → Nat}

theorem attemptsFrom_eq_ok {left retry : Nat} {content : α}
    (sent : (p.attemptsFrom attempt draw left retry).result = .ok content) :
    ∃ n, retry ≤ n ∧ (attempt n).outcome p = .ok content ∧
      ∀ m, retry ≤ m → m < n → ∃ f, (attempt m).outcome p = .error f ∧ f.retryable = true := by
  fun_induction attemptsFrom p attempt draw left retry with
  | case1 _ retry value final =>
      cases sent
      exact ⟨retry, Nat.le_refl _, final, fun m _ _ => by omega⟩
  | case2 retry f first again => cases sent
  | case3 retry f first again left later ih =>
      obtain ⟨n, after, final, passed⟩ := ih sent
      refine ⟨n, by omega, final, fun m lower upper => ?_⟩
      rcases Nat.eq_or_lt_of_le lower with rfl | lower
      · exact ⟨f, first, again⟩
      · exact passed m lower upper
  | case4 _ retry f final again => cases sent

theorem outcome_eq_error {a : Attempt α} {f : Fault} (failed : a.outcome p = .error f) :
    f.code = .registrationFailed := by
  cases a <;> cases failed <;> rfl

theorem attemptsFrom_eq_error {left retry : Nat} {f : Fault}
    (sent : (p.attemptsFrom attempt draw left retry).result = .error f) :
    f.code = .registrationFailed := by
  fun_induction attemptsFrom p attempt draw left retry with
  | case1 _ retry value final => cases sent
  | case2 retry last first again =>
      cases sent
      rfl
  | case3 retry last first again left later ih => exact ih sent
  | case4 _ retry last final again =>
      cases sent
      exact outcome_eq_error final

theorem call_of_ok {content : α} (first : (attempt 0).outcome p = .ok content) :
    (p.call attempt draw).result = .ok content := by
  unfold call attemptsFrom
  simp [first]

end RetryPolicy

namespace RegistrationRequest

variable {q : RegistrationRequest} {p : RetryPolicy} {reply : Http.Reply}

theorem attempt_eq_ok {content : String}
    (sent : (q.attempt reply).outcome p = .ok content) :
    ∃ status, reply = .answered status content ∧ Http.isSuccess status = true := by
  unfold attempt at sent
  split at sent
  · split at sent
    · cases sent
    · cases sent
    · rename_i status body
      split at sent
      · cases sent
      · split at sent
        · rename_i success
          cases sent
          exact ⟨status, rfl, success⟩
        · cases sent
    · split at sent
      · cases sent
      · split at sent <;> cases sent
  · cases sent

theorem outcome_attempt_of_success (sendable : q.sendable = true) {content : String} :
    (q.attempt (.answered 200 content)).outcome p = .ok content := by
  rw [attempt, if_pos sendable]
  rfl

theorem passing_of_retryable (sendable : q.sendable = true) {f : Fault}
    (sent : (q.attempt reply).outcome p = .error f) (again : f.retryable = true) :
    reply.passing = true := by
  cases reply with
  | unreachable reason => rfl
  | silent => rfl
  | answered status body =>
      cases broken : Http.isServerError status with
      | true => exact broken
      | false =>
          cases success : Http.isSuccess status <;>
            simp [attempt, sendable, broken, success, Attempt.outcome] at sent
          subst sent
          cases again
  | brokenOff status reason =>
      cases broken : Http.isServerError status with
      | true => simp [Http.Reply.passing, broken]
      | false =>
          cases success : Http.isSuccess status with
          | true => simp [Http.Reply.passing, success]
          | false =>
              simp [attempt, sendable, broken, success, Attempt.outcome] at sent
              subst sent
              cases again

theorem sendable_of_ok {content : String}
    (sent : (q.attempt reply).outcome p = .ok content) : q.sendable = true := by
  cases sendable : q.sendable with
  | true => rfl
  | false => simp [attempt, sendable, Attempt.outcome] at sent

theorem answers_of_call {e : Endpoint} {content : String}
    (sent : (p.call (fun n => q.attempt (e.reply n)) e.draw).result = .ok content) :
    e.Answers content := by
  obtain ⟨n, -, final, passed⟩ := RetryPolicy.attemptsFrom_eq_ok sent
  obtain ⟨status, reply, success⟩ := attempt_eq_ok final
  refine ⟨n, status, reply, success, fun m before => ?_⟩
  obtain ⟨f, failed, again⟩ := passed m (Nat.zero_le m) before
  exact passing_of_retryable (sendable_of_ok final) failed again

end RegistrationRequest

/-! The stored texts. -/

def heldCredential (texts : List (String × String)) : Except StoreFault (Option Credential) :=
  Credential.ofStored? (texts.lookup StoreKey.credential)

theorem credential_ne_remoteConfig : StoreKey.credential ≠ StoreKey.remoteConfig := by decide

theorem heldCredential_putText (texts : List (String × String)) (c : Credential) :
    heldCredential (Store.putText StoreKey.credential c.stored texts) = .ok (some c) := by
  rw [heldCredential, Store.lookup_putText_self, Credential.ofStored?_stored]

theorem heldCredential_putText_remoteConfig (texts : List (String × String)) (text : String) :
    heldCredential (Store.putText StoreKey.remoteConfig text texts) = heldCredential texts := by
  rw [heldCredential, Store.lookup_putText_of_ne credential_ne_remoteConfig, heldCredential]

def putAll (texts writes : List (String × String)) : List (String × String) :=
  writes.foldl (fun texts w => Store.putText w.1 w.2 texts) texts

theorem writeAll_cases (access : StoreAccess) (texts writes : List (String × String)) :
    writeAll access texts writes = (.ok (), putAll texts writes) ∨
    ∃ before key value after f, writes = before ++ (key, value) :: after ∧
      (∀ w ∈ before, access.writing w.1 = none) ∧ access.writing key = some f ∧
      writeAll access texts writes = (.error (.store f), putAll texts before) := by
  induction writes generalizing texts with
  | nil => exact .inl rfl
  | cons w rest ih =>
      obtain ⟨key, value⟩ := w
      cases taken : access.writing key with
      | some f =>
          refine .inr ⟨[], key, value, rest, f, rfl, by simp, taken, ?_⟩
          rw [writeAll, taken]
          rfl
      | none =>
          have step : writeAll access texts ((key, value) :: rest) =
              writeAll access (Store.putText key value texts) rest := by rw [writeAll, taken]
          rw [step]
          rcases ih (Store.putText key value texts) with
            all | ⟨before, k, v, after, f, rfl, free, refused, part⟩
          · exact .inl all
          · refine .inr ⟨(key, value) :: before, k, v, after, f, rfl, ?_, refused, part⟩
            intro w member
            rcases List.mem_cons.mp member with rfl | member
            · exact taken
            · exact free w member

/-! What a whole call does. -/

theorem requiredText_eq_ok {v : Json} {path : List String} {s : String}
    (found : requiredText v path = .ok s) :
    path.foldl (fun v key => v.bind (·.member? key)) (some v) = some (.text s) := by
  unfold requiredText at found
  simp only at found
  split at found
  · cases found
  · rename_i at_path
    cases found
    exact at_path
  · cases found

theorem requiredText_eq_error {v : Json} {path : List String} {f : Fault}
    (failed : requiredText v path = .error f) : f.code = .registrationFailed := by
  unfold requiredText at failed
  simp only at failed
  split at failed <;> cases failed <;> rfl

theorem answerJson_eq_ok {content : String} {v : Json} (read : answerJson content = .ok v) :
    Json.parse content = .ok v := by
  unfold answerJson at read
  split at read
  · rename_i parsed
    cases read
    exact parsed
  · cases read

theorem answerJson_eq_error {content : String} {f : Fault}
    (failed : answerJson content = .error f) : f.code = .registrationFailed := by
  unfold answerJson at failed
  split at failed <;> cases failed
  rfl

namespace RegistrationCall

/-- What an answer means to a call that was made with a credential. -/
inductive Reports (c : Credential) (content : String) :
    RegistrationCall → RegistrationOutcome → Prop
  | registered {secretKey publicKey token device license : String} {remote : Json}
      (body : Json.parse content = .ok remote)
      (hasToken : remote.member? "token" = some (.text token))
      (hasDevice : remote.member? "id" = some (.text device))
      (hasLicense : (remote.member? "account").bind (·.member? "license") = some (.text license)) :
      Reports c content (.register secretKey publicKey)
        { credential := some ⟨token, device, license, secretKey⟩, remote := some remote }
  | refreshed {remote : Json} (body : Json.parse content = .ok remote) :
      Reports c content .refresh { remote := some remote }
  | relicensed {license : String} :
      Reports c content (.setLicense license)
        { credential := some { c with licenseKey := license } }

variable {c : Credential} {content : String} {call : RegistrationCall}

theorem conclude_eq_ok {outcome : RegistrationOutcome}
    (concluded : call.conclude c content = .ok outcome) : call.Reports c content outcome := by
  cases call with
  | register secretKey publicKey =>
      simp only [conclude, bind_eq_ok_iff, pure_eq_ok_iff] at concluded
      obtain ⟨remote, body, token, hasToken, device, hasDevice, license, hasLicense, rfl⟩ :=
        concluded
      exact .registered (answerJson_eq_ok body) (requiredText_eq_ok hasToken)
        (requiredText_eq_ok hasDevice) (requiredText_eq_ok hasLicense)
  | refresh =>
      simp only [conclude, bind_eq_ok_iff, pure_eq_ok_iff] at concluded
      obtain ⟨remote, body, rfl⟩ := concluded
      exact .refreshed (answerJson_eq_ok body)
  | setLicense license =>
      cases concluded
      exact .relicensed

theorem conclude_eq_error {f : Fault} (failed : call.conclude c content = .error f) :
    f.code = .registrationFailed := by
  cases call with
  | register secretKey publicKey =>
      rcases bind_eq_error_iff.mp failed with failed | ⟨remote, -, failed⟩
      · exact answerJson_eq_error failed
      rcases bind_eq_error_iff.mp failed with failed | ⟨token, -, failed⟩
      · exact requiredText_eq_error failed
      rcases bind_eq_error_iff.mp failed with failed | ⟨device, -, failed⟩
      · exact requiredText_eq_error failed
      rcases bind_eq_error_iff.mp failed with failed | ⟨license, -, failed⟩
      · exact requiredText_eq_error failed
      cases failed
  | refresh =>
      rcases bind_eq_error_iff.mp failed with failed | ⟨remote, -, failed⟩
      · exact answerJson_eq_error failed
      cases failed
  | setLicense license => cases failed

theorem prepare_eq_ok {stored : Except StoreFault (Option String)}
    (needs : call.needsCredential = true) (prepared : call.prepare stored = .ok c) :
    ∃ text, stored = .ok text ∧ Credential.ofStored? text = .ok (some c) := by
  have found : credentialFor stored = .ok c := by
    cases call with
    | register secretKey publicKey => cases needs
    | refresh => exact prepared
    | setLicense license => exact prepared
  unfold credentialFor at found
  split at found
  · cases found
  · cases found
  · rename_i held read
    obtain ⟨text, available, read⟩ := bind_eq_ok_iff.mp read
    split at found
    · cases found
    · cases found
      exact ⟨text, available, read⟩

theorem conclude_answer (c : Credential) (publicKey : String) :
    conclude {} c.answer.pretty (.register c.privateKey publicKey) =
      .ok { credential := some c, remote := some c.answer } := by
  rw [conclude, answerJson, c.parse_answer]
  rfl

/-- A call is refused before anything is sent, fails through the endpoint with nothing stored, or
stores what an answer means to it. -/
theorem perform_cases (r : Registrar) (now : String) (e : Endpoint) (access : StoreAccess)
    (texts : List (String × String)) (call : RegistrationCall) :
    (∃ f, call.prepare (access.stored texts) = .error f ∧
      call.perform r now e access texts = ⟨.error f, [], texts⟩) ∨
    (∃ f requests, f.code = .registrationFailed ∧
      call.perform r now e access texts = ⟨.error f, requests, texts⟩) ∨
    ∃ c content outcome requests,
      call.prepare (access.stored texts) = .ok c ∧ e.Answers content ∧
      call.Reports c content outcome ∧
      call.perform r now e access texts =
        ⟨(writeAll access texts outcome.writes).1.map fun _ => outcome, requests,
          (writeAll access texts outcome.writes).2⟩ := by
  cases prepared : call.prepare (access.stored texts) with
  | error f => exact .inl ⟨f, rfl, by simp only [perform, prepared]⟩
  | ok c =>
      cases came : (r.policy.call (fun n => (call.request r now c).attempt (e.reply n)) e.draw).result
          >>= fun content => call.conclude c content with
      | error f =>
          refine .inr (.inl ⟨f, _, ?_, by simp only [perform, prepared, came]; rfl⟩)
          rcases bind_eq_error_iff.mp came with failed | ⟨content, -, failed⟩
          · exact RetryPolicy.attemptsFrom_eq_error failed
          · exact conclude_eq_error failed
      | ok outcome =>
          obtain ⟨content, answered, concluded⟩ := bind_eq_ok_iff.mp came
          exact .inr (.inr ⟨c, content, outcome, _, rfl, RegistrationRequest.answers_of_call answered,
            conclude_eq_ok concluded, by simp only [perform, prepared, came]; rfl⟩)

theorem perform_of_answer (r : Registrar) (now : String) (e : Endpoint) (access : StoreAccess)
    (texts : List (String × String)) {content : String} {outcome : RegistrationOutcome}
    (prepared : call.prepare (access.stored texts) = .ok c)
    (sendable : (call.request r now c).sendable = true) (reply : e.reply 0 = .answered 200 content)
    (concluded : call.conclude c content = .ok outcome) :
    ∃ requests, call.perform r now e access texts =
      ⟨(writeAll access texts outcome.writes).1.map fun _ => outcome, requests,
        (writeAll access texts outcome.writes).2⟩ := by
  have answered : (r.policy.call (fun n => (call.request r now c).attempt (e.reply n))
      e.draw).result = .ok content := by
    apply RetryPolicy.call_of_ok
    rw [reply]
    exact RegistrationRequest.outcome_attempt_of_success sendable
  have came : ((r.policy.call (fun n => (call.request r now c).attempt (e.reply n)) e.draw).result
      >>= fun content => call.conclude c content) = .ok outcome :=
    bind_eq_ok_iff.mpr ⟨content, answered, concluded⟩
  exact ⟨_, by simp only [perform, prepared, came]; rfl⟩

end RegistrationCall

end RelayControl
