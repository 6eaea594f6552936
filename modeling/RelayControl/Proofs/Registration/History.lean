import Mathlib.Data.List.Induction
import RelayControl.Proofs.Registration.Calls

/-!
Registration calls one after the other, on a store that takes every text. What is held in the end is
the device of the last registration under the license that was given last, and what is cached is the
configuration that was fetched last; a call that fails leaves no trace.
-/

namespace RelayControl

structure RegistrationVisit where
  call : RegistrationCall
  now : String
  endpoint : Endpoint

def RegistrationVisit.perform (v : RegistrationVisit) (r : Registrar)
    (texts : List (String × String)) : RegistrationDone :=
  v.call.perform r v.now v.endpoint {} texts

structure RegistrationEntry where
  visit : RegistrationVisit
  before : List (String × String)
  done : RegistrationDone

def registrationLog (r : Registrar) (texts : List (String × String)) :
    List RegistrationVisit → List RegistrationEntry
  | [] => []
  | v :: rest => ⟨v, texts, v.perform r texts⟩ :: registrationLog r (v.perform r texts).texts rest

def textsAfter (r : Registrar) (texts : List (String × String)) (visits : List RegistrationVisit) :
    List (String × String) :=
  visits.foldl (fun texts v => (v.perform r texts).texts) texts

namespace RegistrationEntry

def registered? (n : RegistrationEntry) : Option Credential :=
  match n.visit.call, n.done.result with
  | .register _ _, .ok outcome => outcome.credential
  | _, _ => none

def licensed? (n : RegistrationEntry) : Option String :=
  match n.visit.call, n.done.result with
  | .register _ _, .ok outcome => outcome.credential.map (·.licenseKey)
  | .setLicense license, .ok _ => some license
  | _, _ => none

def configured? (n : RegistrationEntry) : Option Json :=
  match n.visit.call, n.done.result with
  | .setLicense _, _ => none
  | _, .ok outcome => outcome.remote
  | _, .error _ => none

/-- A call that failed stored nothing, and sent nothing where a key was bad or no credential was
there. A call that succeeded reports what its answer means for the credential that was held. -/
structure Sound (n : RegistrationEntry) : Prop where
  failed : ∀ f, n.done.result = .error f → n.done.texts = n.before ∧
    (f = .noCredential ∨ (∃ detail, f = .badKey detail) → n.done.requests = [])
  succeeded : ∀ outcome, n.done.result = .ok outcome → ∃ c content,
    (n.visit.call.needsCredential = true → heldCredential n.before = .ok (some c)) ∧
    n.visit.endpoint.Answers content ∧ n.visit.call.Reports c content outcome ∧
    n.done.texts = putAll n.before outcome.writes

end RegistrationEntry

theorem RegistrationVisit.sound (v : RegistrationVisit) (r : Registrar)
    (texts : List (String × String)) : RegistrationEntry.Sound ⟨v, texts, v.perform r texts⟩ := by
  rcases RegistrationCall.perform_cases r v.now v.endpoint {} texts v.call with
    ⟨g, -, done⟩ | ⟨g, requests, foreign, done⟩ |
      ⟨c, content, outcome, requests, prepared, answered, reports, done⟩
  all_goals
    change v.perform r texts = _ at done
    rw [done]
  · refine ⟨fun f failed => ⟨rfl, fun _ => rfl⟩, fun outcome succeeded => ?_⟩
    cases succeeded
  · refine ⟨fun f failed => ⟨rfl, ?_⟩, fun outcome succeeded => ?_⟩
    · cases failed
      rintro (rfl | ⟨detail, rfl⟩) <;> cases foreign
    · cases succeeded
  · rcases writeAll_cases {} texts outcome.writes with
      all | ⟨before, key, value, after, f, -, -, refused, -⟩
    · rw [all]
      refine ⟨fun f failed => ?_, fun same succeeded => ?_⟩
      · cases failed
      · cases succeeded
        refine ⟨c, content, fun needs => ?_, answered, reports, rfl⟩
        obtain ⟨text, available, read⟩ := RegistrationCall.prepare_eq_ok needs prepared
        cases available
        exact read
    · cases refused

/-! What one visit makes of the stored texts. -/

/-- What is held once a device was registered, if one was, and a license was given, if one was. -/
def renewed (held : Except StoreFault (Option Credential)) (device : Option Credential)
    (license : Option String) : Except StoreFault (Option Credential) :=
  (device.elim held fun c => .ok (some c)).map
    (Option.map fun c => { c with licenseKey := license.getD c.licenseKey })

theorem renewed_none (held : Except StoreFault (Option Credential)) :
    renewed held none none = held := by
  rcases held with f | _ | c <;> rfl

theorem renewed_renewed (held : Except StoreFault (Option Credential))
    {device later : Option Credential} {license after : Option String}
    (given : later.isSome = true → after.isSome = true) :
    renewed (renewed held device license) later after =
      renewed held (later.or device) (after.or license) := by
  cases later with
  | some c =>
      obtain ⟨l, rfl⟩ := Option.isSome_iff_exists.mp (given rfl)
      rfl
  | none =>
      rw [renewed, renewed, renewed, Option.elim_none, Option.none_or]
      generalize (device.elim held fun c => .ok (some c)) = base
      rcases base with f | _ | c
      · rfl
      · rfl
      · cases after <;> rfl

namespace RegistrationEntry

variable {n : RegistrationEntry}

theorem Sound.cases (sound : n.Sound) :
    (n.done.texts = n.before ∧
      n.registered? = none ∧ n.licensed? = none ∧ n.configured? = none) ∨
    (∃ c remote, n.done.texts = Store.putText StoreKey.remoteConfig (Json.compact remote)
        (Store.putText StoreKey.credential (Credential.stored c) n.before) ∧
      n.registered? = some c ∧ n.licensed? = some c.licenseKey ∧ n.configured? = some remote) ∨
    (∃ remote, n.done.texts =
        Store.putText StoreKey.remoteConfig (Json.compact remote) n.before ∧
      n.registered? = none ∧ n.licensed? = none ∧ n.configured? = some remote) ∨
    ∃ c license, heldCredential n.before = .ok (some c) ∧
      n.done.texts = Store.putText StoreKey.credential
        { c with licenseKey := license : Credential }.stored n.before ∧
      n.registered? = none ∧ n.licensed? = some license ∧ n.configured? = none := by
  unfold registered? licensed? configured?
  cases came : n.done.result with
  | error f =>
      refine .inl ⟨(sound.failed f came).1, ?_⟩
      cases n.visit.call <;> exact ⟨rfl, rfl, rfl⟩
  | ok outcome =>
      obtain ⟨c, content, held, -, reports, stored⟩ := sound.succeeded outcome came
      rw [stored]
      generalize n.visit.call = call at held reports
      cases reports with
      | registered body hasToken hasDevice hasLicense =>
          exact .inr (.inl ⟨_, _, rfl, rfl, rfl, rfl⟩)
      | refreshed body => exact .inr (.inr (.inl ⟨_, rfl, rfl, rfl, rfl⟩))
      | relicensed => exact .inr (.inr (.inr ⟨c, _, held rfl, rfl, rfl, rfl, rfl⟩))

theorem Sound.held (sound : n.Sound) : heldCredential n.done.texts =
    renewed (heldCredential n.before) n.registered? n.licensed? := by
  rcases sound.cases with ⟨stored, device, license, -⟩ | ⟨c, remote, stored, device, license, -⟩ |
    ⟨remote, stored, device, license, -⟩ | ⟨c, l, held, stored, device, license, -⟩
  all_goals rw [stored, device, license]
  · exact (renewed_none _).symm
  · rw [heldCredential_putText_remoteConfig, heldCredential_putText]
    rfl
  · rw [heldCredential_putText_remoteConfig, renewed_none]
  · rw [heldCredential_putText, held]
    rfl

theorem Sound.cached (sound : n.Sound) : n.done.texts.lookup StoreKey.remoteConfig =
    (n.configured?.map Json.compact).or (n.before.lookup StoreKey.remoteConfig) := by
  rcases sound.cases with ⟨stored, -, -, fetched⟩ | ⟨c, remote, stored, -, -, fetched⟩ |
    ⟨remote, stored, -, -, fetched⟩ | ⟨c, l, -, stored, -, -, fetched⟩
  all_goals rw [stored, fetched]
  · rfl
  · rw [Store.lookup_putText_self]
    rfl
  · rw [Store.lookup_putText_self]
    rfl
  · rw [Store.lookup_putText_of_ne credential_ne_remoteConfig.symm]
    rfl

theorem Sound.licensed_of_registered (sound : n.Sound) (device : n.registered?.isSome = true) :
    n.licensed?.isSome = true := by
  rcases sound.cases with ⟨-, absent, -⟩ | ⟨c, remote, -, -, license, -⟩ | ⟨remote, -, absent, -⟩ |
    ⟨c, l, -, -, absent, -⟩
  · simp [absent] at device
  · simp [license]
  · simp [absent] at device
  · simp [absent] at device

end RegistrationEntry

/-! Whole histories. -/

theorem registrationLog_append (r : Registrar) (texts : List (String × String))
    (visits : List RegistrationVisit) (v : RegistrationVisit) :
    registrationLog r texts (visits ++ [v]) = registrationLog r texts visits ++
      [⟨v, textsAfter r texts visits, v.perform r (textsAfter r texts visits)⟩] := by
  induction visits generalizing texts with
  | nil => rfl
  | cons first rest ih => exact congrArg (List.cons _) (ih _)

theorem textsAfter_append (r : Registrar) (texts : List (String × String))
    (visits : List RegistrationVisit) (v : RegistrationVisit) :
    textsAfter r texts (visits ++ [v]) = (v.perform r (textsAfter r texts visits)).texts := by
  rw [textsAfter, List.foldl_append]
  rfl

/-- Device and keys are those of the last registration, the license is the one given last, and the
configuration is the one fetched last; each call by itself is sound. -/
theorem registration_history (r : Registrar) (texts : List (String × String))
    (visits : List RegistrationVisit) :
    let log := registrationLog r texts visits
    let final := textsAfter r texts visits
    heldCredential final = renewed (heldCredential texts)
      (log.filterMap (·.registered?)).getLast? (log.filterMap (·.licensed?)).getLast? ∧
    final.lookup StoreKey.remoteConfig =
      ((log.filterMap (·.configured?)).getLast?.map Json.compact).or
        (texts.lookup StoreKey.remoteConfig) ∧
    ∀ n ∈ log, n.Sound := by
  induction visits using List.reverseRecOn with
  | nil => exact ⟨(renewed_none _).symm, rfl, by simp [registrationLog]⟩
  | append_singleton visits v ih =>
      obtain ⟨held, cached, sound⟩ := ih
      -- The last visit finds what the earlier ones left, so its own soundness closes the step.
      have last := v.sound r (textsAfter r texts visits)
      rw [registrationLog_append, textsAfter_append]
      refine ⟨?_, ?_, ?_⟩
      · rw [getLast?_filterMap_append, getLast?_filterMap_append,
          ← renewed_renewed _ last.licensed_of_registered, ← held]
        exact last.held
      · rw [getLast?_filterMap_append, Option.map_or, Option.or_assoc, ← cached]
        exact last.cached
      · intro n member
        rcases List.mem_append.mp member with member | member
        · exact sound n member
        · exact List.mem_singleton.mp member ▸ last

end RelayControl
