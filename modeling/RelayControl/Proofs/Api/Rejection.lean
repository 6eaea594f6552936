import RelayControl.Api
import RelayControl.Proofs.Registration.Calls

/-!
Requests that are turned away. Every route either answers from the state as it is or carries out one
operation, and an operation whose fault turns a request away has changed nothing before it failed.
-/

namespace RelayControl

theorem RelayProcess.launch_eq_error {p : ProcessSettings} {at_ : LaunchConditions} {id : Nat}
    {config : RelayConfig} {f : Fault} (failed : (launch p at_ id config).result = .error f) :
    f.code = .startFailed := by
  unfold launch at failed
  split at failed
  · cases failed
    rfl
  · cases failed
    rfl
  · dsimp only at failed
    split at failed
    · cases failed
      rfl
    · cases failed

namespace Supervisor

variable {s : Supervisor} {f : Fault}

theorem arrive_eq_error {l : Launch} (failed : (s.arrive l).1 = .error f) :
    l.result = .error f := by
  unfold arrive at failed
  dsimp only at failed
  split at failed
  · cases failed
  · rename_i reason
    cases failed
    exact reason

/-- A restart that fails has changed nothing, or has tried to launch a process. -/
theorem restart_eq_error_cases {synthesized : Except Fault RelayConfig} {force : Bool}
    {launch : Nat → RelayConfig → Launch}
    (failed : (s.restart synthesized force launch).1 = .error f) :
    (s.restart synthesized force launch).2 = s ∨
      ∃ id config, (launch id config).result = .error f := by
  cases synthesized with
  | error g => exact .inl rfl
  | ok config =>
      unfold restart at failed
      dsimp only at failed
      split at failed
      · cases failed
      · exact .inr ⟨_, config, arrive_eq_error failed⟩

theorem stop_eq_error {outcome : Except String Unit} (failed : (s.stop outcome).1 = .error f) :
    f.code = .notRunning ∨ f.code = .stopFailed := by
  unfold stop at failed
  split at failed
  · dsimp only at failed
    split at failed
    · cases failed
    · cases failed
      exact .inr rfl
  · cases failed
    exact .inl rfl

end Supervisor

/-- A collection that fails has changed nothing, or its growth could not be persisted. -/
theorem collect_eq_error_cases {α : Type} {endpoint : Option (Nat × UInt16)} {timeoutMs : Nat}
    {reply : Http.Reply} {baseline : Option Baseline} {persist : Growth → Except Fault α}
    {f : Fault}
    (failed : (collect endpoint timeoutMs reply baseline persist).1 = .error f) :
    (collect endpoint timeoutMs reply baseline persist).2 = baseline ∨
      ∃ growth, persist growth = .error f := by
  unfold collect at failed ⊢
  cases endpoint with
  | none => exact .inl rfl
  | some port =>
      cases came : Snapshot.ofReply timeoutMs reply with
      | error g => exact .inl rfl
      | ok snapshot =>
          simp only [came, Baseline.advance] at failed
          split at failed
          · cases failed
          · rename_i refused
            cases failed
            exact .inr ⟨_, refused⟩

namespace ControlPlane

variable {c : ControlPlane} {w : Surroundings} {f : Fault}

/-! What an operation that fails has done. -/

theorem restart_eq_error {force : Bool} (failed : (c.restart w force).1 = .error f) :
    (c.restart w force).2 = c ∨ f.code = .startFailed := by
  rcases Supervisor.restart_eq_error_cases failed with same | ⟨id, config, refused⟩
  · exact .inl (congrArg (fun supervisor => { c with supervisor }) same)
  · exact .inr (RelayProcess.launch_eq_error refused)

theorem collectIntoStore_eq_error (failed : (c.collectIntoStore w).1 = .error f) :
    (c.collectIntoStore w).2 = c ∨ f.code = .internalError := by
  unfold collectIntoStore at failed ⊢
  dsimp only at failed ⊢
  split at failed
  · cases failed
  · rename_i g came
    cases failed
    rcases collect_eq_error_cases came with same | ⟨growth, refused⟩
    · left
      exact congrArg (fun baseline => { c with baseline }) same
    · right
      cases counted : c.store.addTraffic growth.tags growth.clients with
      | error reason =>
          rw [counted] at refused
          cases refused
          rfl
      | ok store =>
          rw [counted] at refused
          cases refused

theorem registration_eq_error {call : RegistrationCall}
    (failed : (c.registration w call).1 = .error f) :
    (c.registration w call).2.2 = c ∨ f.code = .internalError := by
  unfold registration at failed ⊢
  dsimp only at failed ⊢
  generalize c.store.access.or w.storage = access at failed ⊢
  rcases RegistrationCall.perform_cases (.ofSettings c.settings.registration w.hostName) w.now
      w.endpoint access c.store.texts call with
    ⟨g, -, done⟩ | ⟨g, requests, -, done⟩ | ⟨d, content, outcome, requests, -, -, -, done⟩
  · rw [done]
    exact .inl rfl
  · rw [done]
    exact .inl rfl
  · rw [done] at failed
    rcases writeAll_cases access c.store.texts outcome.writes with
      all | ⟨before, key, value, after, g, -, -, -, part⟩
    · rw [all] at failed
      cases failed
    · rw [part] at failed
      cases failed
      exact .inr rfl

/-! The flag is left to the requests themselves. -/

variable (c w)

theorem collectIntoStore_flag : (c.collectIntoStore w).2.flag = c.flag := by
  unfold collectIntoStore
  dsimp only
  split <;> rfl

theorem registration_flag (call : RegistrationCall) :
    (c.registration w call).2.2.flag = c.flag := rfl

end ControlPlane

namespace Api

variable {c : ControlPlane} {w : Surroundings} {q : Request}

def Request.marks (q : Request) : Prop := q.method = "POST" ∧ q.path = "/dirty"

def Request.registers (q : Request) : Prop :=
  q.method = "POST" ∧ q.path = "/registration" ∨
  q.method = "GET" ∧ q.path = "/registration/config" ∨
  q.method = "PUT" ∧ q.path = "/registration/license"

def rejections : List Nat := [400, 404, 412, 422, 502]

/-- What can come of a request. -/
inductive Serves (c : ControlPlane) (w : Surroundings) (q : Request) : Handled → Prop
  | answered {response : Response} (plain : ¬q.marks)
      (unregistered : q.registers → response.status ≠ 200) : Serves c w q { response, after := c }
  | marked {body : Json} (asked : q.marks) :
      Serves c w q { response := json 202 body, after := c.markDirty }
  | restarted (plain : ¬q.marks) (other : ¬q.registers) :
      Serves c w q (.status (c.restart w q.forced))
  | stopped (plain : ¬q.marks) (other : ¬q.registers) : Serves c w q (.status (c.stop w))
  | counted {body : Json} {growth : Growth} {after : ControlPlane} (plain : ¬q.marks)
      (other : ¬q.registers) (came : c.collectIntoStore w = (.ok growth, after)) :
      Serves c w q { response := json 200 body, after }
  | uncounted {f : Fault} {after : ControlPlane} (plain : ¬q.marks) (other : ¬q.registers)
      (came : c.collectIntoStore w = (.error f, after)) :
      Serves c w q { response := ofFault f, after }
  | reset {body : Json} {store : Store} (plain : ¬q.marks) (other : ¬q.registers) :
      Serves c w q { response := json 200 body, after := { c with store } }
  | registered {call : RegistrationCall} {answer : RegistrationOutcome → Json} (plain : ¬q.marks)
      (asked : q.registers) : Serves c w q (registration c w call answer)

theorem status_code_ne (code : FaultCode) : code.status ≠ 200 := by
  cases code <;> decide

theorem readBody_eq_error {α : Type} {form : BodyForm} {item : Json.Decoder α}
    {response : Response} (refused : readBody w form item q = .error response) :
    response.status ≠ 200 := by
  unfold readBody at refused
  split at refused
  · cases refused
    exact status_code_ne .badRequest
  · split at refused
    · cases refused
    · cases refused
      exact status_code_ne .badRequest

theorem serves_handle (c : ControlPlane) (w : Surroundings) (q : Request) :
    Serves c w q (handle c w q) := by
  unfold handle
  split
  case h_6 method path => exact .marked ⟨method, path⟩
  case h_13 =>
    rename_i unmarked _ _ _ _ _ _
    exact .answered (fun marks => unmarked marks.1 marks.2) fun _ => status_code_ne .notFound
  all_goals
    rename_i method path
    have plain : ¬q.marks := by simp [Request.marks, method, path]
  -- The three routes of the registration.
  case h_8 =>
    have asked : q.registers := .inl ⟨method, path⟩
    split
    · rename_i refused
      exact .answered plain fun _ => readBody_eq_error refused
    · exact .registered plain asked
  case h_9 => exact .registered plain (.inr (.inl ⟨method, path⟩))
  case h_10 =>
    have asked : q.registers := .inr (.inr ⟨method, path⟩)
    split
    · rename_i refused
      exact .answered plain fun _ => readBody_eq_error refused
    · exact .registered plain asked
  -- All the others.
  all_goals have other : ¬q.registers := by simp [Request.registers, method, path]
  case h_1 | h_2 | h_3 => exact .answered plain fun asked => absurd asked other
  case h_4 => exact .restarted plain other
  case h_5 => exact .stopped plain other
  case h_7 =>
    split
    · rename_i came
      exact .counted plain other came
    · rename_i came
      exact .uncounted plain other came
  case h_11 => split <;> exact .answered plain fun asked => absurd asked other
  case h_12 =>
    split
    · exact .answered plain fun asked => absurd asked other
    · split
      · exact .reset plain other
      · exact .answered plain fun asked => absurd asked other

theorem status_ofFault (f : Fault) : (ofFault f).status = f.code.status := rfl

/-- A request that is turned away has changed nothing. -/
theorem after_of_rejected (rejected : (handle c w q).response.status ∈ rejections) :
    (handle c w q).after = c := by
  have accepted : 200 ∉ rejections ∧ 202 ∉ rejections := by decide
  have serves := serves_handle c w q
  generalize handle c w q = handled at serves rejected
  cases serves with
  | answered plain unregistered => rfl
  | marked asked => exact absurd rejected accepted.2
  | restarted plain other =>
      rcases came : c.restart w q.forced with ⟨f | done, after⟩
      · rw [came] at rejected
        rcases c.restart_eq_error (congrArg Prod.fst came) with same | code
        · rwa [came] at same
        · exact absurd rejected (by rw [Handled.status, status_ofFault, code]; decide)
      · rw [came] at rejected
        exact absurd rejected accepted.1
  | stopped plain other =>
      rcases came : c.stop w with ⟨f | done, after⟩
      · rw [came] at rejected
        rcases Supervisor.stop_eq_error (congrArg Prod.fst came) with code | code
        all_goals exact absurd rejected (by rw [Handled.status, status_ofFault, code]; decide)
      · rw [came] at rejected
        exact absurd rejected accepted.1
  | counted plain other came => exact absurd rejected accepted.1
  | uncounted plain other came =>
      rcases c.collectIntoStore_eq_error (congrArg Prod.fst came) with same | code
      · rwa [came] at same
      · exact absurd rejected (by rw [status_ofFault, code]; decide)
  | reset plain other => exact absurd rejected accepted.1
  | @registered call answer plain asked =>
      rcases came : c.registration w call with ⟨f | outcome, requests, after⟩
      · simp only [registration, came] at rejected ⊢
        rcases c.registration_eq_error (congrArg Prod.fst came) with same | code
        · rwa [came] at same
        · exact absurd rejected (by rw [status_ofFault, code]; decide)
      · simp only [registration, came] at rejected
        exact absurd rejected accepted.1

theorem after_status (done : Except Fault Unit × ControlPlane) :
    (Handled.status done).after = done.2 := by
  obtain ⟨f | result, after⟩ := done <;> rfl

theorem dirty_after_of_same {handled : Handled} (same : handled.after.flag = c.flag)
    (plain : ¬q.marks) (refused : q.registers → handled.response.status ≠ 200) :
    handled.after.flag.dirty = true ↔
      c.flag.dirty = true ∨ q.marks ∨ q.registers ∧ handled.response.status = 200 := by
  rw [same]
  constructor
  · exact .inl
  · rintro (dirty | marks | ⟨asked, succeeded⟩)
    · exact dirty
    · exact absurd marks plain
    · exact absurd succeeded (refused asked)

theorem dirty_after_iff : (handle c w q).after.flag.dirty = true ↔
    c.flag.dirty = true ∨ q.marks ∨ q.registers ∧ (handle c w q).response.status = 200 := by
  have serves := serves_handle c w q
  generalize handle c w q = handled at serves
  cases serves with
  | answered plain unregistered => exact dirty_after_of_same rfl plain unregistered
  | marked asked => simp [ControlPlane.markDirty, asked]
  | restarted plain other =>
      apply dirty_after_of_same _ plain fun asked => absurd asked other
      rw [after_status]
      rfl
  | stopped plain other =>
      apply dirty_after_of_same _ plain fun asked => absurd asked other
      rw [after_status]
      rfl
  | counted plain other came =>
      apply dirty_after_of_same _ plain fun asked => absurd asked other
      have same := c.collectIntoStore_flag w
      rwa [came] at same
  | uncounted plain other came =>
      apply dirty_after_of_same _ plain fun asked => absurd asked other
      have same := c.collectIntoStore_flag w
      rwa [came] at same
  | reset plain other => exact dirty_after_of_same rfl plain fun asked => absurd asked other
  | @registered call answer plain asked =>
      rcases came : c.registration w call with ⟨f | outcome, requests, after⟩
      · have same : after.flag = c.flag := by
          have kept := c.registration_flag w call
          rwa [came] at kept
        have failed : registration c w call answer = ⟨ofFault f, requests, after⟩ := by
          simp only [registration, came]
        rw [failed]
        exact dirty_after_of_same same plain fun _ => status_code_ne f.code
      · have succeeded : registration c w call answer =
            ⟨json 200 (answer outcome), requests, after.markDirty⟩ := by
          simp only [registration, came]
        rw [succeeded]
        exact iff_of_true rfl (.inr (.inr ⟨asked, rfl⟩))

/--
A request that is turned away leaves no trace anywhere, and a request sets the restart flag exactly
if it marks it or carries out a registration.
-/
theorem rejection_traceless (c : ControlPlane) (w : Surroundings) (q : Request) :
    ((handle c w q).response.status ∈ rejections → (handle c w q).after = c) ∧
    ((handle c w q).after.flag.dirty = true ↔
      c.flag.dirty = true ∨ q.marks ∨ q.registers ∧ (handle c w q).response.status = 200) :=
  ⟨after_of_rejected, dirty_after_iff⟩

/-- Each of the statuses is given: to a body that says nothing, on an unknown route, without a
credential, for a template that cannot be read, and where the endpoint cannot be reached. -/
theorem rejection_traceless_each : ∀ status ∈ rejections, ∃ c w q,
    (handle c w q).response.status = status ∧ (handle c w q).after = c := by
  have turnedAway : ∀ {c w q status}, (handle c w q).response.status = status →
      status ∈ rejections → ∃ c w q, (handle c w q).response.status = status ∧
        (handle c w q).after = c := by
    intro c w q status same member
    exact ⟨c, w, q, same, (rejection_traceless c w q).1 (same ▸ member)⟩
  let registered : Store :=
    { texts := [(StoreKey.credential, ({ deviceId := "dev-1" } : Credential).stored)] }
  have badRequest : (handle {} {} ⟨"POST", "/registration", none, ""⟩).response.status = 400 := by
    decide +kernel
  have notFound : (handle {} {} ⟨"GET", "/", none, ""⟩).response.status = 404 := by
    decide +kernel
  have missing :
      (handle {} {} ⟨"GET", "/registration/config", none, ""⟩).response.status = 412 := by
    decide +kernel
  have unfit : (handle { store := { texts := [(StoreKey.template, "[")] } } {}
      ⟨"POST", "/restart", none, ""⟩).response.status = 422 := by
    decide +kernel
  have unreached : (handle { store := registered } {}
      ⟨"GET", "/registration/config", none, ""⟩).response.status = 502 := by
    decide +kernel
  intro status member
  have known := member
  simp only [rejections, List.mem_cons, List.not_mem_nil, or_false] at known
  rcases known with rfl | rfl | rfl | rfl | rfl
  · exact turnedAway badRequest member
  · exact turnedAway notFound member
  · exact turnedAway missing member
  · exact turnedAway unfit member
  · exact turnedAway unreached member

end Api

end RelayControl
