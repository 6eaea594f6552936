import RelayControl.Proofs.Api.Rejection
import RelayControl.Proofs.Json.Records
import RelayControl.Proofs.Registration.Discretion
import RelayControl.Proofs.Registration.Keys

/-!
The private key stays here. Two runs of the registration's requests that differ in the secret keys
supplied and in the one stored at first ask the endpoint for the same and give the same answers, but
for what the reader of bodies says of a body that is no registration.
-/

namespace RelayControl.Api

/-! Bodies that differ in the secret key. -/

/-- Members that are the same, or name two secret keys. -/
inductive TwinMembers : Option String × Json.Doc → Option String × Json.Doc → Prop
  | same (m : Option String × Json.Doc) : TwinMembers m m
  | secret {key other : String} (keys : TwinKeys key other) :
      TwinMembers (some "secret_key", .text key) (some "secret_key", .text other)

/-- Trees that differ at most in the secret keys of a registration; it may be written as a row. -/
inductive TwinTrees : Json.Doc → Json.Doc → Prop
  | same (d : Json.Doc) : TwinTrees d d
  | members {ms ms' : List (Option String × Json.Doc)} (twins : List.Forall₂ TwinMembers ms ms')
      (ending : Option Json.Flaw) : TwinTrees (.members ms ending) (.members ms' ending)
  | row {key other : String} (keys : TwinKeys key other) (rest : List Json.Doc)
      (ending : Option Json.Flaw) :
      TwinTrees (.items (.text key :: rest) ending) (.items (.text other :: rest) ending)

def TwinSupplies (supplied other : String × String) : Prop :=
  TwinKeys supplied.1 other.1 ∧ supplied.2 = other.2

section Reading

open Json

variable {d d' : Doc}

def secretField : RecordField (String × String) := .mandatory "secret_key" .text fun v r => (v, r.2)

def publicField : RecordField (String × String) := .mandatory "public_key" .text fun v r => (r.1, v)

theorem registerBody_eq : registerBody = Record.closed [secretField, publicField] ("", "") := rfl

theorem secretField_alikeAt
    (texts : ∀ depth, SameUpTo TwinKeys (Decoder.text depth d) (Decoder.text depth d')) :
    secretField.AlikeAt TwinSupplies d d' := by
  apply RecordField.alikeAt_mandatory _ texts
  intro v v' keys r r' related
  exact ⟨keys, related.2⟩

theorem secretField_alikeAt_text {key other : String} (keys : TwinKeys key other) :
    secretField.AlikeAt TwinSupplies (.text key) (.text other) := by
  apply secretField_alikeAt
  intro depth
  exact .value keys

theorem publicField_alikeAt (d : Doc) : publicField.AlikeAt TwinSupplies d d := by
  apply RecordField.alikeAt_mandatory _ fun depth => .refl Eq.refl (Decoder.text depth d)
  rintro v _ rfl r r' related
  exact ⟨related.1, rfl⟩

theorem TwinMembers.alike {m m' : Option String × Doc} (twins : TwinMembers m m') :
    AlikeMember TwinSupplies [secretField, publicField] m m' where
  key := by cases twins <;> rfl
  skipped := by cases twins <;> rfl
  known field member named := by
    simp only [List.mem_cons, List.not_mem_nil, or_false] at member
    cases twins with
    | same m =>
        rcases member with rfl | rfl
        · exact secretField_alikeAt fun depth => .refl TwinKeys.same (Decoder.text depth m.2)
        · exact publicField_alikeAt m.2
    | secret keys =>
        rcases member with rfl | rfl
        · exact secretField_alikeAt_text keys
        · exact absurd (Option.some.inj named) (by decide)

theorem TwinTrees.supplies (twins : TwinTrees d d') (depth : Nat) :
    SameUpTo TwinSupplies (registerBody depth d) (registerBody depth d') := by
  have initial : TwinSupplies ("", "") ("", "") := ⟨.same "", rfl⟩
  cases twins with
  | same =>
      apply SameUpTo.refl
      intro supplied
      exact ⟨.same supplied.1, rfl⟩
  | members twins ending =>
      rw [registerBody_eq]
      have alike := twins.imp fun _ _ => TwinMembers.alike
      exact Record.closed_members_alike alike initial depth ending
  | row keys rest ending =>
      rw [registerBody_eq]
      apply Record.closed_row_alike (secretField_alikeAt_text keys) _ initial
      intro field member d
      obtain rfl := List.mem_singleton.mp member
      exact publicField_alikeAt d

end Reading

/-- The same request, or two registrations that differ in the secret key alone. Blanks around a key
count towards the size of a body, so both bodies have to keep to the limit, or neither. -/
inductive Request.Twins : Request → Request → Prop
  | same (q : Request) : Twins q q
  | register {body other : String} (query : Option String)
      (size : maxBodyBytes < body.utf8ByteSize ↔ maxBodyBytes < other.utf8ByteSize)
      (trees : TwinTrees (Json.Doc.read body).1 (Json.Doc.read other).1)
      (trailing : (Json.Doc.read body).2 = (Json.Doc.read other).2) :
      Twins ⟨"POST", "/registration", query, body⟩ ⟨"POST", "/registration", query, other⟩

def registerText (secretKey publicKey : String) : String :=
  (Json.object [("public_key", .text publicKey), ("secret_key", .text secretKey)]).pretty

theorem read_registerText (secretKey publicKey : String) :
    Json.Doc.read (registerText secretKey publicKey) =
      (.members [(some "public_key", .text publicKey), (some "secret_key", .text secretKey)] none,
        false) :=
  Json.Doc.read_pretty (by simp [Json.Legible, Json.LegibleMembers])

theorem registerText_of_plain {secretKey publicKey : String}
    (plain : ∀ c ∈ secretKey.toList, Json.escape c = [c])
    (plain' : ∀ c ∈ publicKey.toList, Json.escape c = [c]) :
    registerText secretKey publicKey =
      "\x7b\n  \"public_key\": \"" ++ publicKey ++ "\",\n  \"secret_key\": \"" ++ secretKey ++
        "\"\n\x7d" := by
  apply String.toList_inj.mp
  simp [registerText, Json.pretty, Json.prettyAt, Json.prettyMembers, Json.toList_block_cons,
    Json.quoted_of_plain plain, Json.quoted_of_plain plain']
  rfl

theorem registerText_twins {key other : String} (keys : TwinKeys key other) (publicKey : String) :
    TwinTrees (Json.Doc.read (registerText key publicKey)).1
        (Json.Doc.read (registerText other publicKey)).1 ∧
      (Json.Doc.read (registerText key publicKey)).2 =
        (Json.Doc.read (registerText other publicKey)).2 := by
  rw [read_registerText, read_registerText]
  exact ⟨.members (.cons (.same _) (.cons (.secret keys) .nil)) none, rfl⟩

/-- Good keys without blanks around them take the same room, wherever they stand in a body. -/
theorem Request.Twins.of_spelled {key other : String}
    (good : checkKey "secret key" key = .ok ()) (bare : Text.trim key = key)
    (otherGood : checkKey "secret key" other = .ok ()) (otherBare : Text.trim other = other)
    {before after : String} (query : Option String)
    (trees : TwinTrees (Json.Doc.read (before ++ key ++ after)).1
      (Json.Doc.read (before ++ other ++ after)).1)
    (trailing : (Json.Doc.read (before ++ key ++ after)).2 =
      (Json.Doc.read (before ++ other ++ after)).2) :
    Twins ⟨"POST", "/registration", query, before ++ key ++ after⟩
      ⟨"POST", "/registration", query, before ++ other ++ after⟩ := by
  have room : key.utf8ByteSize = 44 := bare ▸ size_of_checkKey good
  have otherRoom : other.utf8ByteSize = 44 := otherBare ▸ size_of_checkKey otherGood
  apply Twins.register query _ trees trailing
  simp only [String.utf8ByteSize_append, room, otherRoom]

/-- Neither of two bodies can be read as a registration, for the same kind of flaw. -/
def Illegible (body other : String) : Prop :=
  ∃ f, Json.decode registerBody body = .error f ∧ Json.decode registerBody other = .error f

theorem decode_twins {body other : String}
    (trees : TwinTrees (Json.Doc.read body).1 (Json.Doc.read other).1)
    (trailing : (Json.Doc.read body).2 = (Json.Doc.read other).2) :
    SameUpTo TwinSupplies (Json.decode registerBody body) (Json.decode registerBody other) := by
  unfold Json.decode
  generalize Json.Doc.read body = read at trees trailing ⊢
  generalize Json.Doc.read other = read' at trees trailing ⊢
  apply (trees.supplies 0).bind
  intro supplied other related
  rw [trailing]
  split
  · exact .fault Json.Flaw.malformed
  · exact .value related

/-- Twin bodies supply the same but for the key, or are refused in the same words, unless the reader
of bodies has its say. -/
theorem readBody_twins (w : Surroundings) (q q' : Request)
    (size : maxBodyBytes < q.body.utf8ByteSize ↔ maxBodyBytes < q'.body.utf8ByteSize)
    (trees : TwinTrees (Json.Doc.read q.body).1 (Json.Doc.read q'.body).1)
    (trailing : (Json.Doc.read q.body).2 = (Json.Doc.read q'.body).2) :
    SameUpTo TwinSupplies (readBody w .registration registerBody q)
        (readBody w .registration registerBody q') ∨
      Illegible q.body q'.body ∧
        readBody w .registration registerBody q = .error (unreadable w .registration q.body) ∧
        readBody w .registration registerBody q' = .error (unreadable w .registration q'.body) := by
  have decoded := decode_twins trees trailing
  unfold readBody
  simp only [size]
  split
  · exact .inl (.fault _)
  · unfold Illegible
    generalize Json.decode registerBody q.body = x at decoded ⊢
    generalize Json.decode registerBody q'.body = y at decoded ⊢
    cases decoded with
    | fault f => exact .inr ⟨⟨f, rfl, rfl⟩, rfl, rfl⟩
    | value related => exact .inl (.value related)

/-! The routes of the registration as calls. -/

/-- What a request asks of the registration, or the answer to a body that cannot be read. -/
def Request.call? (w : Surroundings) (q : Request) : Option (Except Response RegistrationCall) :=
  match q.method, q.path with
  | "POST", "/registration" =>
      some ((readBody w .registration registerBody q).map fun supplied =>
        .register supplied.1 supplied.2)
  | "GET", "/registration/config" => some (.ok .refresh)
  | "PUT", "/registration/license" =>
      some ((readBody w .license licenseBody q).map .setLicense)
  | _, _ => none

theorem call?_register (w : Surroundings) (query : Option String) (body : String) :
    (⟨"POST", "/registration", query, body⟩ : Request).call? w =
      some ((readBody w .registration registerBody ⟨"POST", "/registration", query, body⟩).map
        fun supplied => .register supplied.1 supplied.2) := by
  simp only [Request.call?]

def callAnswer : RegistrationCall → RegistrationOutcome → Json
  | .register _ _, o => .object (("config", o.remote.getD .null) :: credentialAnswer o)
  | .refresh, o => o.remote.getD .null
  | .setLicense _, o => .object (credentialAnswer o)

theorem exists_call?_of_registers (w : Surroundings) {q : Request} (asked : q.registers) :
    ∃ called, q.call? w = some called := by
  obtain ⟨method, path, query, body⟩ := q
  rcases asked with ⟨rfl, rfl⟩ | ⟨rfl, rfl⟩ | ⟨rfl, rfl⟩
  · exact ⟨_, rfl⟩
  · exact ⟨_, rfl⟩
  · exact ⟨_, rfl⟩

def serve (c : ControlPlane) (w : Surroundings) : Except Response RegistrationCall → Handled
  | .error response => { response, after := c }
  | .ok call => registration c w call (callAnswer call)

theorem handle_of_call? {c : ControlPlane} {w : Surroundings} {q : Request}
    {called : Except Response RegistrationCall} (asked : q.call? w = some called) :
    handle c w q = serve c w called := by
  unfold Request.call? at asked
  split at asked
  case h_4 => cases asked
  all_goals
    rename_i method path
    obtain rfl := Option.some.inj asked
    simp only [handle, method, path]
  case h_1 => cases readBody w .registration registerBody q <;> rfl
  case h_2 => rfl
  case h_3 => cases readBody w .license licenseBody q <;> rfl

/-! What leaves this node. -/

/-- What the control interface and the registration endpoint see of a request. -/
structure Exposure where
  response : Response
  dispatched : Option Dispatch
  received : List RegistrationRequest

def dispatch? (c : ControlPlane) (w : Surroundings) (q : Request) : Option Dispatch :=
  match q.call? w with
  | some (.ok call) =>
      call.dispatch? (.ofSettings c.settings.registration w.hostName) w.now w.endpoint
        ((c.store.access.or w.storage).stored c.store.texts)
  | _ => none

def exposure (c : ControlPlane) (w : Surroundings) (q : Request) : Exposure where
  response := (handle c w q).response
  dispatched := dispatch? c w q
  received := (handle c w q).requests

def exposures (c : ControlPlane) : List (Surroundings × Request) → List Exposure
  | [] => []
  | (w, q) :: rest => exposure c w q :: exposures (handle c w q).after rest

/-- Planes that differ at most in the stored private key, and in what no registration looks at. -/
structure TwinPlanes (c c' : ControlPlane) : Prop where
  settings : c.settings = c'.settings
  unavailable : c.store.unavailable = c'.store.unavailable
  texts : TwinTexts c.store.texts c'.store.texts

/-- The same exposure, but for what the reader of bodies says of two that it cannot read. -/
inductive Exposure.Alike (w : Surroundings) (body other : String) : Exposure → Exposure → Prop
  | same (e : Exposure) : Alike w body other e e
  | worded (illegible : Illegible body other) :
      Alike w body other ⟨unreadable w .registration body, none, []⟩
        ⟨unreadable w .registration other, none, []⟩

section Serving

variable {c c' : ControlPlane} {w : Surroundings} {q q' : Request}
  {called called' : Except Response RegistrationCall}

theorem requests_registration (c : ControlPlane) (w : Surroundings) (call : RegistrationCall)
    (answer : RegistrationOutcome → Json) : (registration c w call answer).requests =
      (call.perform (.ofSettings c.settings.registration w.hostName) w.now w.endpoint
        (c.store.access.or w.storage) c.store.texts).requests := by
  unfold registration ControlPlane.registration
  dsimp only
  split <;> rfl

theorem exposure_of_refused {response : Response} (asked : q.call? w = some (.error response)) :
    exposure c w q = ⟨response, none, []⟩ := by
  rw [exposure, dispatch?, asked, handle_of_call? asked]
  rfl

theorem received_exposure (c : ControlPlane) (w : Surroundings) (asked : q.registers) :
    (exposure c w q).received =
      (exposure c w q).dispatched.elim [] (RegistrationCall.received w.endpoint) := by
  obtain ⟨called, asked⟩ := exists_call?_of_registers w asked
  simp only [exposure, dispatch?, asked, handle_of_call? asked]
  cases called with
  | error response => rfl
  | ok call =>
      simp only [serve]
      rw [requests_registration, RegistrationCall.requests_perform]

theorem TwinPlanes.access (planes : TwinPlanes c c') (w : Surroundings) :
    c.store.access.or w.storage = c'.store.access.or w.storage := by
  simp only [Store.access, planes.unavailable]

theorem callAnswer_twins {call other : RegistrationCall} (twins : call.Twins other)
    {o p : RegistrationOutcome} (same : o.exposed = p.exposed) :
    callAnswer call o = callAnswer other p := by
  obtain ⟨kept, remote⟩ := o
  obtain ⟨kept', remote'⟩ := p
  obtain ⟨credentials, rfl⟩ := Prod.mk.inj same
  have answers : credentialAnswer ⟨kept, remote⟩ = credentialAnswer ⟨kept', remote⟩ := by
    rcases map_eq_map_cases credentials with ⟨rfl, rfl⟩ | ⟨c, d, rfl, rfl, shown⟩
    · rfl
    · have device : c.deviceId = d.deviceId := congrArg (·.2.1) shown
      have license : c.licenseKey = d.licenseKey := congrArg (·.2.2) shown
      simp only [credentialAnswer, Option.getD_some, device, license]
  cases twins with
  | register keys publicKey => simp only [callAnswer, answers]
  | refresh => rfl
  | setLicense license => simp only [callAnswer, answers]

theorem registration_twins (planes : TwinPlanes c c') {call other : RegistrationCall}
    (twins : call.Twins other) (w : Surroundings) :
    (registration c w call (callAnswer call)).response =
        (registration c' w other (callAnswer other)).response ∧
      TwinPlanes (registration c w call (callAnswer call)).after
        (registration c' w other (callAnswer other)).after := by
  have done := twins.perform planes.texts (.ofSettings c.settings.registration w.hostName) w.now
    w.endpoint (c.store.access.or w.storage)
  unfold registration ControlPlane.registration
  rw [← planes.settings, ← planes.access]
  dsimp only
  generalize call.perform _ w.now w.endpoint _ c.store.texts = performed at done ⊢
  generalize other.perform _ w.now w.endpoint _ c'.store.texts = performed' at done ⊢
  obtain ⟨result, requests, texts⟩ := performed
  obtain ⟨result', requests', texts'⟩ := performed'
  cases done.result with
  | fault f => exact ⟨rfl, rfl, planes.unavailable, done.texts⟩
  | value shown =>
      refine ⟨?_, rfl, planes.unavailable, done.texts⟩
      dsimp only
      rw [callAnswer_twins twins shown]

theorem Request.Twins.call? (twins : Request.Twins q q') (asked : q.call? w = some called) :
    ∃ called', q'.call? w = some called' ∧
      (SameUpTo RegistrationCall.Twins called called' ∨ Illegible q.body q'.body ∧
        called = .error (unreadable w .registration q.body) ∧
        called' = .error (unreadable w .registration q'.body)) := by
  cases twins with
  | same =>
      refine ⟨called, asked, .inl ?_⟩
      apply SameUpTo.refl
      intro call
      cases call with
      | register secretKey publicKey => exact .register (.same secretKey) publicKey
      | refresh => exact .refresh
      | setLicense license => exact .setLicense license
  | register query size trees trailing =>
      rw [call?_register] at asked
      obtain rfl := Option.some.inj asked
      refine ⟨_, call?_register .., ?_⟩
      rcases readBody_twins w ⟨"POST", "/registration", query, _⟩
        ⟨"POST", "/registration", query, _⟩ size trees trailing with
        supplied | ⟨illegible, refused, refused'⟩
      · left
        apply supplied.map
        rintro ⟨secretKey, publicKey⟩ ⟨other, _⟩ ⟨keys, rfl⟩
        exact .register keys publicKey
      · right
        rw [refused, refused']
        exact ⟨illegible, rfl, rfl⟩

theorem Request.Twins.registers (twins : Request.Twins q q') (registers : q.registers) :
    q'.registers := by
  cases twins with
  | same => exact registers
  | register => exact .inl ⟨rfl, rfl⟩

theorem serve_twins (planes : TwinPlanes c c') (registers : q.registers) (registers' : q'.registers)
    (asked : q.call? w = some called) (asked' : q'.call? w = some called')
    (calls : SameUpTo RegistrationCall.Twins called called') :
    exposure c w q = exposure c' w q' ∧
      TwinPlanes (handle c w q).after (handle c' w q').after := by
  have response : (handle c w q).response = (handle c' w q').response ∧
      TwinPlanes (handle c w q).after (handle c' w q').after := by
    rw [handle_of_call? asked, handle_of_call? asked']
    cases calls with
    | fault response => exact ⟨rfl, planes⟩
    | value calls => exact registration_twins planes calls w
  have dispatched : dispatch? c w q = dispatch? c' w q' := by
    simp only [dispatch?, asked, asked']
    cases calls with
    | fault response => rfl
    | value calls =>
        rw [← planes.settings, ← planes.access]
        exact calls.dispatch? planes.texts ..
  have received : (exposure c w q).received = (exposure c' w q').received := by
    rw [received_exposure c w registers, received_exposure c' w registers']
    exact congrArg (Option.elim · [] (RegistrationCall.received w.endpoint)) dispatched
  refine ⟨?_, response.2⟩
  rw [exposure, exposure, response.1, dispatched]
  exact congrArg (Exposure.mk _ _) received

theorem handle_twins (planes : TwinPlanes c c') (twins : Request.Twins q q')
    (registers : q.registers) (w : Surroundings) :
    (exposure c w q).Alike w q.body q'.body (exposure c' w q') ∧
      TwinPlanes (handle c w q).after (handle c' w q').after := by
  obtain ⟨called, asked⟩ := exists_call?_of_registers w registers
  obtain ⟨called', asked', calls | ⟨illegible, rfl, rfl⟩⟩ := twins.call? asked
  · obtain ⟨seen, after⟩ := serve_twins planes registers (twins.registers registers) asked asked' calls
    rw [seen]
    exact ⟨.same _, after⟩
  · rw [exposure_of_refused asked, exposure_of_refused asked', handle_of_call? asked,
      handle_of_call? asked']
    exact ⟨.worded illegible, planes⟩

end Serving

structure TwinVisits (v v' : Surroundings × Request) : Prop where
  surroundings : v.1 = v'.1
  registers : v.2.registers
  twins : v.2.Twins v'.2

/--
Two runs of registrations, fetches of the configuration and changes of the license, in the same
surroundings, that differ only in the secret keys supplied and in the private key stored at first:
what is sent to the endpoint and what is answered is the same in both, but for what the reader of
bodies says of a body that is no registration. Where it has the same to say of both bodies, everything
is the same.
-/
theorem registration_discreet {c c' : ControlPlane} (planes : TwinPlanes c c')
    {visits visits' : List (Surroundings × Request)}
    (twins : List.Forall₂ TwinVisits visits visits') :
    List.Forall₂
        (fun seen seen' : (Surroundings × Request) × Exposure =>
          seen.2.Alike seen.1.1 seen.1.2.body seen'.1.2.body seen'.2)
        (visits.zip (exposures c visits)) (visits'.zip (exposures c' visits')) ∧
      (List.Forall₂ (fun v v' => v.1.wording .registration v.2.body =
          v'.1.wording .registration v'.2.body) visits visits' →
        exposures c visits = exposures c' visits') := by
  induction twins generalizing c c' with
  | nil => exact ⟨.nil, fun _ => rfl⟩
  | @cons visit visit' rest rest' same _ ih =>
      obtain ⟨w, q⟩ := visit
      obtain ⟨_, q'⟩ := visit'
      obtain ⟨rfl, asked, twins⟩ := same
      obtain ⟨seen, after⟩ := handle_twins planes twins asked w
      obtain ⟨later, sameLater⟩ := ih after
      refine ⟨.cons seen later, fun worded => ?_⟩
      obtain ⟨words, worded⟩ := List.forall₂_cons.mp worded
      rw [exposures, exposures, sameLater worded]
      congr 1
      generalize exposure c w q = e at seen ⊢
      generalize exposure c' w q' = e' at seen ⊢
      cases seen with
      | same => rfl
      | worded => rw [unreadable, unreadable, show w.wording _ q.body = _ from words]

/-- A body without a public key is refused. Another device registers, once the endpoint has recovered,
its configuration is fetched and its license changed. The keys of the two runs make no difference. -/
theorem registration_discreet_renewed :
    let key := "AAAAAAAAAAAAAAAAAAAAAAAAAAAAAAAAAAAAAAAAAAA="
    let other := "AQEBAQEBAQEBAQEBAQEBAQEBAQEBAQEBAQEBAQEBAQE="
    let plane (privateKey : String) : ControlPlane :=
      let credential : Credential := ⟨"", "dev-1", "", privateKey⟩
      { store := { texts := Store.putText StoreKey.credential credential.stored [] } }
    let answer := (Credential.answer ⟨"token-2", "dev-2", "license-1", ""⟩).pretty
    let w : Surroundings :=
      { endpoint := { reply := fun n => if n = 0 then .answered 503 "" else .answered 200 answer }
        wording := fun _ _ =>
          "invalid length 1, expected struct RegisterRequest with 2 elements at line 3 column 1" }
    let before := "\x7b\n  \"public_key\": \"" ++ key ++ "\",\n  \"secret_key\": \""
    let after := "\"\n\x7d"
    let visits (secretKey : String) : List (Surroundings × Request) :=
      [(w, ⟨"POST", "/registration", none, "[\n  \"" ++ secretKey ++ "\"\n]"⟩),
        (w, ⟨"POST", "/registration", none, before ++ secretKey ++ after⟩),
        (w, ⟨"GET", "/registration/config", none, ""⟩),
        (w, ⟨"PUT", "/registration/license", none, "[\"license-2\"]"⟩)]
    exposures (plane key) (visits key) = exposures (plane other) (visits other) ∧
      (exposures (plane key) (visits key)).map (fun x => (x.response.status, x.received.length)) =
        [(400, 0), (200, 2), (200, 2), (200, 2)] := by
  intro key other plane answer w before after visits
  have good : checkKey "secret key" key = .ok () := by decide +kernel
  have otherGood : checkKey "secret key" other = .ok () := by decide +kernel
  have keys : TwinKeys key other := .good good otherGood
  have planes : TwinPlanes (plane key) (plane other) :=
    ⟨rfl, rfl, (TwinTexts.refl []).putCredential rfl⟩
  have bare : Text.trim key = key := by decide +kernel
  have otherBare : Text.trim other = other := by decide +kernel
  have rowSpelled : "[\n  \"" ++ key ++ "\"\n]" = (Json.array [.text key]).pretty := by
    decide +kernel
  have rowOtherSpelled : "[\n  \"" ++ other ++ "\"\n]" = (Json.array [.text other]).pretty := by
    decide +kernel
  have row : Request.Twins ⟨"POST", "/registration", none, "[\n  \"" ++ key ++ "\"\n]"⟩
      ⟨"POST", "/registration", none, "[\n  \"" ++ other ++ "\"\n]"⟩ := by
    have read (s : String) : Json.Doc.read (Json.array [.text s]).pretty =
        (.items [.text s] none, false) :=
      Json.Doc.read_pretty (by simp [Json.Legible, Json.LegibleItems])
    apply Request.Twins.of_spelled good bare otherGood otherBare
    · rw [rowSpelled, rowOtherSpelled, read, read]
      exact .row keys [] none
    · rw [rowSpelled, rowOtherSpelled, read, read]
  have spelled : before ++ key ++ after = registerText key key := by decide +kernel
  have otherSpelled : before ++ other ++ after = registerText other key := by decide +kernel
  have register : Request.Twins ⟨"POST", "/registration", none, before ++ key ++ after⟩
      ⟨"POST", "/registration", none, before ++ other ++ after⟩ := by
    have twins := registerText_twins keys key
    rw [← spelled, ← otherSpelled] at twins
    exact .of_spelled good bare otherGood otherBare none twins.1 twins.2
  have twins : List.Forall₂ TwinVisits (visits key) (visits other) :=
    .cons ⟨rfl, .inl ⟨rfl, rfl⟩, row⟩ (.cons ⟨rfl, .inl ⟨rfl, rfl⟩, register⟩
      (.cons ⟨rfl, .inr (.inl ⟨rfl, rfl⟩), .same _⟩ (.cons ⟨rfl, .inr (.inr ⟨rfl, rfl⟩), .same _⟩
        .nil)))
  refine ⟨(registration_discreet planes twins).2 ?_, by decide +kernel⟩
  exact .cons rfl (.cons rfl (.cons rfl (.cons rfl .nil)))

def misfit (secretKey : String) : String :=
  "\x7b" ++ Json.quoted "secret_key" ++ ":" ++ Json.quoted secretKey ++ "," ++
    Json.quoted "public_key" ++ ":5\x7d"

theorem read_misfit (secretKey : String) :
    Json.Doc.read (misfit secretKey) =
      (.members
        [(some "secret_key", .text secretKey),
          (some "public_key", .number (.whole 5 (by decide)))] none, false) := by
  have spelled : (misfit secretKey).toList =
      '\x7b' :: ((Json.quoted "secret_key").toList ++ ':' :: ((Json.quoted secretKey).toList ++ ',' ::
        ((Json.quoted "public_key").toList ++ [':', '5', '\x7d']))) := by
    simp [misfit]
  rw [Json.Doc.read, spelled, Json.tokens_mark '\x7b' rfl, Json.tokens_quoted,
    Json.tokens_mark ':' rfl, Json.tokens_quoted, Json.tokens_mark ',' rfl, Json.tokens_quoted]
  rfl

/--
How a key is spelled shows. With blanks before it a good key may carry a body beyond the limit, and
the place of a flaw behind it, which the reader of bodies names, moves with every blank.
-/
theorem spelling_shows :
    let key := "AAAAAAAAAAAAAAAAAAAAAAAAAAAAAAAAAAAAAAAAAAA="
    let padded := Text.blanks maxBodyBytes ++ key
    let spaced := Text.blanks 1 ++ key
    let answer := (Credential.answer ⟨"token-2", "dev-2", "license-1", ""⟩).pretty
    let w : Surroundings :=
      { endpoint := { reply := fun _ => .answered 200 answer }
        wording := fun _ body =>
          "invalid type: integer `5`, expected a string at line 1 column " ++
            toString (body.utf8ByteSize - 1) }
    let seen (body : String) : List Exposure :=
      exposures {} [(w, ⟨"POST", "/registration", none, body⟩)]
    (TwinKeys key padded ∧ TwinTrees (Json.Doc.read (registerText key key)).1
        (Json.Doc.read (registerText padded key)).1 ∧
      (seen (registerText key key)).map (fun x => (x.response.status, x.received.length)) =
        [(200, 1)] ∧
      (seen (registerText padded key)).map (fun x => (x.response.status, x.received.length)) =
        [(400, 0)]) ∧
    TwinKeys key spaced ∧
      TwinTrees (Json.Doc.read (misfit key)).1 (Json.Doc.read (misfit spaced)).1 ∧
      (seen (misfit key)).map (·.response) ≠ (seen (misfit spaced)).map (·.response) := by
  intro key padded spaced answer w seen
  have good : checkKey "secret key" key = .ok () := by decide +kernel
  have longer (n : Nat) : TwinKeys key (Text.blanks n ++ key) :=
    .good good (by rw [checkKey_blanks_append, good])
  have plain : ∀ c ∈ key.toList, Json.escape c = [c] := by
    have all : (key.toList.all fun c => Json.escape c == [c]) = true := by decide +kernel
    exact fun c member => eq_of_beq (List.all_eq_true.mp all c member)
  have refused : (⟨"POST", "/registration", none, registerText padded key⟩ : Request).call? w =
      some (.error oversized) := by
    have plainPadded : ∀ c ∈ padded.toList, Json.escape c = [c] := by
      intro c member
      rw [String.toList_append, Text.blanks, String.toList_ofList] at member
      rcases List.mem_append.mp member with blank | own
      · rw [List.eq_of_mem_replicate blank]
        rfl
      · exact plain c own
    have size : maxBodyBytes < (registerText padded key).utf8ByteSize := by
      rw [registerText_of_plain plainPadded plain]
      simp only [String.utf8ByteSize_append, padded, Text.size_blanks]
      have some_room : 0 < key.utf8ByteSize := by decide +kernel
      omega
    rw [call?_register, readBody, if_pos size]
    rfl
  refine ⟨⟨longer _, (registerText_twins (longer _) key).1, by decide +kernel, ?_⟩, longer 1, ?_, ?_⟩
  · simp only [seen, exposures, exposure_of_refused refused]
    decide +kernel
  · rw [read_misfit, read_misfit]
    exact .members (.cons (.secret (longer 1)) (.cons (.same _) .nil)) none
  · decide +kernel

end RelayControl.Api
