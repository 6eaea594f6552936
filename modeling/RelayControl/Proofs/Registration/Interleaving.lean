import RelayControl.Proofs.Registration.Calls
import RelayControl.Proofs.Registration.Ledger
import RelayControl.Registration.Interleaving

/-!
Registration calls side by side, and the ledger of what they do. Whichever way the calls overlap,
the ledger says which device is stored and of which one the configuration is cached; so the order of
the calls decides whether a registration is lost.
-/

namespace RelayControl

open Ledger

def heldDevice (texts : List (String × String)) : String :=
  match heldCredential texts with
  | .ok (some c) => c.deviceId
  | _ => ""

theorem heldDevice_putText (texts : List (String × String)) (c : Credential) :
    heldDevice (Store.putText StoreKey.credential c.stored texts) = c.deviceId := by
  rw [heldDevice, heldCredential_putText]

theorem heldDevice_putText_remoteConfig (texts : List (String × String)) (text : String) :
    heldDevice (Store.putText StoreKey.remoteConfig text texts) = heldDevice texts := by
  rw [heldDevice, heldCredential_putText_remoteConfig, heldDevice]

namespace Registering

def event? (r : Registering) : RegisterAction → Option RegistrationEvent
  | .begin _ => none
  | .prepare n =>
      match r.calls[n]? with
      | some (call, .begun) =>
          match call.prepare (.ok (r.texts.lookup StoreKey.credential)) with
          | .ok c => if call.needsCredential then some (.asked n c.deviceId) else none
          | .error _ => none
      | _ => none
  | .answer n content =>
      match r.calls[n]? with
      | some (.register secretKey publicKey, .prepared c) =>
          match RegistrationCall.conclude c content (.register secretKey publicKey) with
          | .ok outcome => outcome.credential.map fun c => .registered n c.deviceId
          | .error _ => none
      | _ => none
  | .write n =>
      match r.calls[n]? with
      | some (call, .storing ((key, _) :: _)) =>
          some (if key = StoreKey.remoteConfig then .cached n
            else if call.needsCredential then .relicensed n else .saved n)
      | _ => none

/-- What the calls do in a run, the latest first. -/
def journal (r : Registering) (events : List RegistrationEvent) :
    List RegisterAction → List RegistrationEvent
  | [] => events
  | a :: rest =>
      match r.step? a with
      | some r' => r'.journal ((r.event? a).toList ++ events) rest
      | none => events

def Fetched (answers : List (Nat × String)) (n : Nat) (remote : String) : Prop :=
  ∃ content v, (n, content) ∈ answers ∧ Json.parse content = .ok v ∧ remote = v.compact

/-- The ledger of the events tells the devices of the stored texts. -/
structure Agrees (texts : List (String × String)) (events : List RegistrationEvent)
    (r : Registering) : Prop where
  stored : heldDevice r.texts = deviceOf (heldDevice texts) events (after events).stored
  cached : (after events).cached = 0 ∧
      r.texts.lookup StoreKey.remoteConfig = texts.lookup StoreKey.remoteConfig ∨
    ∃ n device remote, (.asked n device ∈ events ∨ .registered n device ∈ events) ∧
      device = deviceOf (heldDevice texts) events (after events).cached ∧
      Fetched r.answers n remote ∧ r.texts.lookup StoreKey.remoteConfig = some remote

/-- What a call holds at each of its stages. -/
inductive Fits (answers : List (Nat × String)) (events : List RegistrationEvent) (n : Nat) :
    RegistrationCall → CallStage → Prop
  | begun {call : RegistrationCall} (new : ∀ e ∈ events, e.call ≠ n) :
      Fits answers events n call .begun
  | registering {secretKey publicKey : String} {c : Credential} (new : ∀ e ∈ events, e.call ≠ n) :
      Fits answers events n (.register secretKey publicKey) (.prepared c)
  | asking {call : RegistrationCall} {c : Credential} (needs : call.needsCredential = true)
      (asked : .asked n c.deviceId ∈ events) : Fits answers events n call (.prepared c)
  | saving {secretKey publicKey : String} {c : Credential} {remote : String}
      (registered : .registered n c.deviceId ∈ events) (unsaved : .saved n ∉ events)
      (fetched : Fetched answers n remote) :
      Fits answers events n (.register secretKey publicKey)
        (.storing [(StoreKey.credential, c.stored), (StoreKey.remoteConfig, remote)])
  | caching {call : RegistrationCall} {device remote : String}
      (owned : .asked n device ∈ events ∨ .registered n device ∈ events ∧ .saved n ∈ events)
      (fetched : Fetched answers n remote) :
      Fits answers events n call (.storing [(StoreKey.remoteConfig, remote)])
  | relicensing {license : String} {c : Credential} (asked : .asked n c.deviceId ∈ events) :
      Fits answers events n (.setLicense license) (.storing [(StoreKey.credential, c.stored)])
  | finished {call : RegistrationCall} : Fits answers events n call .finished
  | failed {call : RegistrationCall} : Fits answers events n call .failed

theorem getElem?_setStage (r : Registering) (n m : Nat) (stage : CallStage) :
    (r.setStage n stage).calls[m]? =
      if n = m then r.calls[m]?.map fun c => (c.1, stage) else r.calls[m]? := by
  rw [setStage, List.getElem?_modify]
  split <;> simp

theorem Fits.mono {answers answers' : List (Nat × String)} {events later : List RegistrationEvent}
    {n : Nat} {call : RegistrationCall} {stage : CallStage}
    (fits : Fits answers events n call stage) (more : answers ⊆ answers')
    (other : ∀ e ∈ later, e.call ≠ n) : Fits answers' (later ++ events) n call stage := by
  have kept {e : RegistrationEvent} (member : e ∈ events) : e ∈ later ++ events :=
    List.mem_append_right later member
  have new (absent : ∀ e ∈ events, e.call ≠ n) : ∀ e ∈ later ++ events, e.call ≠ n := by
    intro e member
    rcases List.mem_append.mp member with member | member
    · exact other e member
    · exact absent e member
  have fetchedStill {remote : String} : Fetched answers n remote → Fetched answers' n remote := by
    rintro ⟨content, v, member, parsed, rfl⟩
    exact ⟨content, v, more member, parsed, rfl⟩
  cases fits with
  | begun absent => exact .begun (new absent)
  | registering absent => exact .registering (new absent)
  | asking needs asked => exact .asking needs (kept asked)
  | saving registered unsaved fetched =>
      refine .saving (kept registered) ?_ (fetchedStill fetched)
      intro member
      rcases List.mem_append.mp member with member | member
      · exact other _ member rfl
      · exact unsaved member
  | caching owned fetched =>
      exact .caching (owned.imp kept fun ⟨registered, saved⟩ => ⟨kept registered, kept saved⟩)
        (fetchedStill fetched)
  | relicensing asked => exact .relicensing (kept asked)
  | finished => exact .finished
  | failed => exact .failed

variable {texts : List (String × String)} {events : List RegistrationEvent} {r r' : Registering}

/-! What each action can do. -/

theorem step?_prepare {n : Nat} (stepped : r.step? (.prepare n) = some r') :
    ∃ call, r.calls[n]? = some (call, .begun) ∧
      ((∃ c, call.prepare (.ok (r.texts.lookup StoreKey.credential)) = .ok c ∧
        r' = r.setStage n (.prepared c)) ∨
      ∃ f, call.prepare (.ok (r.texts.lookup StoreKey.credential)) = .error f ∧
        r' = r.setStage n .failed) := by
  unfold step? at stepped
  simp only at stepped
  split at stepped
  · rename_i call found
    refine ⟨call, found, ?_⟩
    cases prepared : call.prepare (.ok (r.texts.lookup StoreKey.credential)) with
    | ok c =>
        simp only [prepared, Option.some.injEq] at stepped
        exact .inl ⟨c, rfl, stepped.symm⟩
    | error f =>
        simp only [prepared, Option.some.injEq] at stepped
        exact .inr ⟨f, rfl, stepped.symm⟩
  · cases stepped

theorem step?_answer {n : Nat} {content : String}
    (stepped : r.step? (.answer n content) = some r') :
    ∃ call c, r.calls[n]? = some (call, .prepared c) ∧
      ((∃ outcome, call.conclude c content = .ok outcome ∧
        r' = { r with answers := (n, content) :: r.answers }.setStage n
          (afterWrites outcome.writes)) ∨
      ∃ f, call.conclude c content = .error f ∧
        r' = { r with answers := (n, content) :: r.answers }.setStage n .failed) := by
  unfold step? at stepped
  simp only at stepped
  split at stepped
  · rename_i call c found
    refine ⟨call, c, found, ?_⟩
    cases concluded : call.conclude c content with
    | ok outcome =>
        simp only [concluded, Option.some.injEq] at stepped
        exact .inl ⟨outcome, rfl, stepped.symm⟩
    | error f =>
        simp only [concluded, Option.some.injEq] at stepped
        exact .inr ⟨f, rfl, stepped.symm⟩
  · cases stepped

theorem step?_write {n : Nat} (stepped : r.step? (.write n) = some r') :
    ∃ call key value rest, r.calls[n]? = some (call, .storing ((key, value) :: rest)) ∧
      r' = { r with texts := Store.putText key value r.texts }.setStage n (afterWrites rest) := by
  unfold step? at stepped
  simp only at stepped
  split at stepped
  · rename_i call key value rest found
    cases stepped
    exact ⟨call, key, value, rest, found, rfl⟩
  · cases stepped

/-! The ledger and the texts, event by event. -/

namespace Agrees

variable {n : Nat} {device : String}

theorem asked (agrees : r.Agrees texts events) : r.Agrees texts (.asked n device :: events) := by
  refine ⟨agrees.stored, agrees.cached.imp_right ?_⟩
  rintro ⟨m, d, remote, owned, same, fetched⟩
  exact ⟨m, d, remote, owned.imp (List.mem_cons_of_mem _) (List.mem_cons_of_mem _), same, fetched⟩

theorem registered (agrees : r.Agrees texts events) :
    r.Agrees texts (.registered n device :: events) := by
  obtain ⟨-, stored, cached⟩ := bounded events
  -- The number of the new device is beyond every number that stands in the ledger.
  have same {k : Nat} (le : k ≤ (after events).devices) :
      deviceOf (heldDevice texts) (.registered n device :: events) k =
        deviceOf (heldDevice texts) events k := if_neg (by omega)
  refine ⟨agrees.stored.trans (same stored).symm, agrees.cached.imp_right ?_⟩
  rintro ⟨m, d, remote, owned, equal, fetched⟩
  exact ⟨m, d, remote, owned.imp (List.mem_cons_of_mem _) (List.mem_cons_of_mem _),
    equal.trans (same cached).symm, fetched⟩

theorem putCredential (agrees : r.Agrees texts events) (feasible : Feasible (heldDevice texts) events)
    {c : Credential}
    (owned : .asked n c.deviceId ∈ events ∨ .registered n c.deviceId ∈ events)
    {e : RegistrationEvent} (storing : e = .saved n ∨ e = .relicensed n) :
    { r with texts := Store.putText StoreKey.credential c.stored r.texts }.Agrees texts
      (e :: events) := by
  have moved : (after (e :: events)).stored = (after events).subject n ∧
      (after (e :: events)).cached = (after events).cached ∧
      deviceOf (heldDevice texts) (e :: events) = deviceOf (heldDevice texts) events := by
    rcases storing with rfl | rfl <;> exact ⟨rfl, rfl, rfl⟩
  obtain ⟨stored, cached, sameDevices⟩ := moved
  refine ⟨?_, ?_⟩
  · rw [stored, sameDevices, feasible.deviceOf_subject owned]
    exact heldDevice_putText r.texts c
  · rw [cached, sameDevices, Store.lookup_putText_of_ne credential_ne_remoteConfig.symm]
    refine agrees.cached.imp_right ?_
    rintro ⟨m, d, remote, owned, same, fetched⟩
    exact ⟨m, d, remote, owned.imp (List.mem_cons_of_mem _) (List.mem_cons_of_mem _), same, fetched⟩

theorem putRemote (agrees : r.Agrees texts events) (feasible : Feasible (heldDevice texts) events)
    {remote : String} (owned : .asked n device ∈ events ∨ .registered n device ∈ events)
    (fetched : Fetched r.answers n remote) :
    { r with texts := Store.putText StoreKey.remoteConfig remote r.texts }.Agrees texts
      (.cached n :: events) := by
  refine ⟨?_, .inr ⟨n, device, remote, ?_, ?_, fetched, Store.lookup_putText_self ..⟩⟩
  · exact (heldDevice_putText_remoteConfig ..).trans agrees.stored
  · exact owned.imp (List.mem_cons_of_mem _) (List.mem_cons_of_mem _)
  · exact (feasible.deviceOf_subject owned).symm

theorem answered (agrees : r.Agrees texts events) (n : Nat) (content : String) :
    { r with answers := (n, content) :: r.answers }.Agrees texts events := by
  refine ⟨agrees.stored, agrees.cached.imp_right ?_⟩
  rintro ⟨m, d, remote, owned, same, ⟨body, v, member, parsed, rfl⟩, found⟩
  exact ⟨m, d, v.compact, owned, same, ⟨body, v, List.mem_cons_of_mem _ member, parsed, rfl⟩,
    found⟩

end Agrees

structure Tracks (texts : List (String × String)) (events : List RegistrationEvent)
    (r : Registering) : Prop where
  feasible : Feasible (heldDevice texts) events
  agrees : r.Agrees texts events
  fits : ∀ n call stage, r.calls[n]? = some (call, stage) → Fits r.answers events n call stage
  unborn : ∀ n, r.calls.length ≤ n → ∀ e ∈ events, e.call ≠ n

namespace Tracks

theorem start (texts : List (String × String)) : Tracks texts [] { texts } :=
  ⟨.nil, ⟨rfl, .inl ⟨rfl, rfl⟩⟩, by simp, by simp⟩

theorem begin (tracks : Tracks texts events r) (call : RegistrationCall) :
    Tracks texts events { r with calls := r.calls ++ [(call, .begun)] } := by
  refine ⟨tracks.feasible, ⟨tracks.agrees.stored, tracks.agrees.cached⟩, fun n c stage found => ?_,
    fun n outside => tracks.unborn n ?_⟩
  · rcases Nat.lt_trichotomy n r.calls.length with inside | rfl | outside
    · rw [List.getElem?_append_left inside] at found
      exact tracks.fits n c stage found
    · rw [List.getElem?_concat_length] at found
      cases found
      exact .begun (tracks.unborn _ (Nat.le_refl _))
    · rw [List.getElem?_eq_none (by simp; omega)] at found
      cases found
  · rw [List.length_append, List.length_singleton] at outside
    omega

theorem advance (tracks : Tracks texts events r) {later : List RegistrationEvent} {n : Nat}
    {call : RegistrationCall} {before stage : CallStage} (found : r.calls[n]? = some (call, before))
    (calls : r'.calls = r.calls) (more : r.answers ⊆ r'.answers) (own : ∀ e ∈ later, e.call = n)
    (feasible : Feasible (heldDevice texts) (later ++ events))
    (agrees : r'.Agrees texts (later ++ events))
    (fits : Fits r'.answers (later ++ events) n call stage) :
    Tracks texts (later ++ events) (r'.setStage n stage) := by
  refine ⟨feasible, ⟨agrees.stored, agrees.cached⟩, fun m c s foundNow => ?_,
    fun m outside e member => ?_⟩
  · rw [getElem?_setStage, calls] at foundNow
    split at foundNow
    · rename_i same
      subst same
      rw [found] at foundNow
      cases foundNow
      exact fits
    · rename_i other
      exact (tracks.fits m c s foundNow).mono more fun e member same =>
        other ((own e member).symm.trans same)
  · have born : n < r.calls.length := (List.getElem?_eq_some_iff.mp found).1
    have size : (r'.setStage n stage).calls.length = r.calls.length := by
      rw [setStage, List.length_modify, calls]
    rw [size] at outside
    rcases List.mem_append.mp member with member | member
    · rw [own e member]
      omega
    · exact tracks.unborn m outside e member

theorem prepare (tracks : Tracks texts events r) {n : Nat}
    (stepped : r.step? (.prepare n) = some r') :
    Tracks texts ((r.event? (.prepare n)).toList ++ events) r' := by
  obtain ⟨call, found, ⟨c, prepared, rfl⟩ | ⟨f, refused, rfl⟩⟩ := step?_prepare stepped
  · have new : ∀ e ∈ events, e.call ≠ n := by
      cases tracks.fits n call .begun found with
      | begun new => exact new
    cases needs : call.needsCredential with
    | false =>
        have event : r.event? (.prepare n) = none := by simp [event?, found, prepared, needs]
        rw [event]
        cases call <;> simp [RegistrationCall.needsCredential] at needs
        exact tracks.advance found rfl (List.Subset.refl _) (by simp) tracks.feasible tracks.agrees
          (.registering new)
    | true =>
        have event : r.event? (.prepare n) = some (.asked n c.deviceId) := by
          simp [event?, found, prepared, needs]
        obtain ⟨text, same, read⟩ := RegistrationCall.prepare_eq_ok needs prepared
        cases same
        -- The credential that is read names the device that is stored by the ledger.
        have held : c.deviceId = deviceOf (heldDevice texts) events (after events).stored := by
          rw [← tracks.agrees.stored, heldDevice, heldCredential, read]
        rw [event]
        refine tracks.advance found rfl (List.Subset.refl _) ?_ ?_ tracks.agrees.asked
          (.asking needs (by simp))
        · simp [RegistrationEvent.call]
        · rw [held]
          exact tracks.feasible.asked new
  · have event : r.event? (.prepare n) = none := by simp [event?, found, refused]
    rw [event]
    exact tracks.advance found rfl (List.Subset.refl _) (by simp) tracks.feasible tracks.agrees
      .failed

theorem answer (tracks : Tracks texts events r) {n : Nat} {content : String}
    (stepped : r.step? (.answer n content) = some r') :
    Tracks texts ((r.event? (.answer n content)).toList ++ events) r' := by
  have more : r.answers ⊆ (n, content) :: r.answers := List.subset_cons_self _ _
  have answered := tracks.agrees.answered n content
  obtain ⟨call, c, found, ⟨outcome, concluded, rfl⟩ | ⟨f, failed, rfl⟩⟩ := step?_answer stepped
  · have fits := tracks.fits n call _ found
    cases RegistrationCall.conclude_eq_ok concluded with
    | @registered secretKey publicKey token device license remote body hasToken hasDevice hasLicense =>
        have event : r.event? (.answer n content) = some (.registered n device) := by
          simp [event?, found, concluded]
        have new : ∀ e ∈ events, e.call ≠ n := by
          cases fits with
          | registering new => exact new
          | asking needs asked => cases needs
        rw [event]
        refine tracks.advance found rfl more ?_ (tracks.feasible.registered new) answered.registered
          (.saving (by simp) ?_ ⟨content, remote, by simp, body, rfl⟩)
        · simp [RegistrationEvent.call]
        · simpa using fun member => new _ member rfl
    | @refreshed remote body =>
        have event : r.event? (.answer n content) = none := by simp [event?, found]
        cases fits with
        | asking needs asked =>
            rw [event]
            exact tracks.advance found rfl more (by simp) tracks.feasible answered
              (.caching (.inl asked) ⟨content, remote, by simp, body, rfl⟩)
    | relicensed =>
        have event : r.event? (.answer n content) = none := by simp [event?, found]
        cases fits with
        | asking needs asked =>
            rw [event]
            exact tracks.advance found rfl more (by simp) tracks.feasible answered
              (.relicensing asked)
  · have event : r.event? (.answer n content) = none := by
      cases call <;> simp [event?, found, failed]
    rw [event]
    exact tracks.advance found rfl more (by simp) tracks.feasible answered .failed

theorem write (tracks : Tracks texts events r) {n : Nat}
    (stepped : r.step? (.write n) = some r') :
    Tracks texts ((r.event? (.write n)).toList ++ events) r' := by
  obtain ⟨call, key, value, rest, found, rfl⟩ := step?_write stepped
  cases tracks.fits n call _ found with
  | saving registered unsaved fetched =>
      have event : r.event? (.write n) = some (.saved n) := by
        simp [event?, found, credential_ne_remoteConfig, RegistrationCall.needsCredential]
      rw [event]
      refine tracks.advance found rfl (List.Subset.refl _) ?_
        (tracks.feasible.saved registered unsaved)
        (tracks.agrees.putCredential tracks.feasible (.inr registered) (.inl rfl))
        (.caching (.inr ⟨List.mem_cons_of_mem _ registered, by simp⟩) fetched)
      simp [RegistrationEvent.call]
  | caching owned fetched =>
      have event : r.event? (.write n) = some (.cached n) := by simp [event?, found]
      have informed : Informed n events := owned.imp (fun asked => ⟨_, asked⟩) And.right
      rw [event]
      refine tracks.advance found rfl (List.Subset.refl _) ?_ (tracks.feasible.cached informed)
        (tracks.agrees.putRemote tracks.feasible (owned.imp_right And.left) fetched) .finished
      simp [RegistrationEvent.call]
  | relicensing asked =>
      have event : r.event? (.write n) = some (.relicensed n) := by
        simp [event?, found, credential_ne_remoteConfig, RegistrationCall.needsCredential]
      rw [event]
      refine tracks.advance found rfl (List.Subset.refl _) ?_ (tracks.feasible.relicensed asked)
        (tracks.agrees.putCredential tracks.feasible (.inl asked) (.inr rfl)) .finished
      simp [RegistrationEvent.call]

theorem step (tracks : Tracks texts events r) {a : RegisterAction}
    (stepped : r.step? a = some r') : Tracks texts ((r.event? a).toList ++ events) r' := by
  cases a with
  | begin call =>
      cases stepped
      exact tracks.begin call
  | prepare n => exact tracks.prepare stepped
  | answer n content => exact tracks.answer stepped
  | write n => exact tracks.write stepped

theorem run (tracks : Tracks texts events r) {actions : List RegisterAction}
    (ran : r.run? actions = some r') : Tracks texts (r.journal events actions) r' := by
  induction actions generalizing r events with
  | nil =>
      cases ran
      exact tracks
  | cons a rest ih =>
      rw [run?, Option.bind_eq_some_iff] at ran
      obtain ⟨middle, stepped, ran⟩ := ran
      rw [journal, stepped]
      exact ih (tracks.step stepped) ran

end Tracks

end Registering

/-- Whatever calls overlap, the ledger tells the devices of what is stored; and by it no registration
is lost and the stored texts match exactly when the calls went in order. -/
theorem registrations_kept_iff {actions : List RegisterAction} {texts : List (String × String)}
    {r : Registering} (ran : ({ texts } : Registering).run? actions = some r) :
    let events := ({ texts } : Registering).journal [] actions
    r.Agrees texts events ∧
    (NeverSetBack events ∧ Paired events ↔ Orderly events ∧ CacheUpToDate events) := by
  have tracks := (Registering.Tracks.start texts).run ran
  exact ⟨tracks.agrees, tracks.feasible.kept_iff⟩

/-- A license is set while a device is registered, and the registration is stored last. -/
theorem registrations_kept_in_order :
    let key := "AAAAAAAAAAAAAAAAAAAAAAAAAAAAAAAAAAAAAAAAAAA="
    let former : Credential := ⟨"token-1", "dev-1", "license-1", key⟩
    let latter : Credential := ⟨"token-2", "dev-2", "license-2", key⟩
    let start : Registering :=
      { texts :=
          [(StoreKey.credential, former.stored), (StoreKey.remoteConfig, former.answer.compact)] }
    let actions : List RegisterAction :=
      [.begin (.setLicense "license-3"), .begin (.register key key), .prepare 0, .prepare 1,
        .answer 0 "", .answer 1 latter.answer.pretty, .write 0, .write 1, .write 1]
    (start.run? actions).map (·.allFinished) = some true ∧
    NeverSetBack (start.journal [] actions) ∧ Paired (start.journal [] actions) := by
  intro key former latter start actions
  have finished : (start.run? actions).map (·.allFinished) = some true := by decide +kernel
  have events : start.journal [] actions =
      [.cached 1, .saved 1, .relicensed 0, .registered 1 "dev-2", .asked 0 "dev-1"] := by
    decide +kernel
  obtain ⟨r, ran, -⟩ := Option.map_eq_some_iff.mp finished
  refine ⟨finished, (registrations_kept_iff ran).2.mpr ?_⟩
  change Orderly (start.journal [] actions) ∧ CacheUpToDate (start.journal [] actions)
  rw [events]
  simp [Orderly, CacheUpToDate, UpToDate]

/-- A license is set on a credential that was read before a registration was stored: the device that
was registered is lost, and its configuration stands beside the credential of the former one. -/
theorem license_brings_back_former_device :
    let key := "AAAAAAAAAAAAAAAAAAAAAAAAAAAAAAAAAAAAAAAAAAA="
    let former : Credential := ⟨"token-1", "dev-1", "license-1", key⟩
    let latter : Credential := ⟨"token-2", "dev-2", "license-2", key⟩
    let start : Registering :=
      { texts :=
          [(StoreKey.credential, former.stored), (StoreKey.remoteConfig, former.answer.compact)] }
    let registering : List RegisterAction :=
      [.begin (.setLicense "license-3"), .begin (.register key key), .prepare 0, .prepare 1,
        .answer 0 "", .answer 1 latter.answer.pretty, .write 1, .write 1]
    (start.run? registering).map (·.texts) = some
      [(StoreKey.credential, latter.stored), (StoreKey.remoteConfig, latter.answer.compact)] ∧
    (start.run? (registering ++ [.write 0])).map (fun r => (r.texts, r.allFinished)) = some
      ([(StoreKey.credential, { former with licenseKey := "license-3" : Credential }.stored),
        (StoreKey.remoteConfig, latter.answer.compact)], true) := by
  decide +kernel

end RelayControl
