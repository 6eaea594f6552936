import RelayControl.Proofs.Supervisor.Operations

/-!
What a restart does to the supervisor, whatever state it finds. It leaves everything as it is where
nothing could be synthesized or the relay runs with the configuration already; else it gets rid of
the current instance and starts the next one.
-/

namespace RelayControl

namespace RelayProcess

theorem launch_cases (p : ProcessSettings) (conditions : LaunchConditions) (id : Nat)
    (config : RelayConfig) :
    (∃ process, launch p conditions id config = ⟨some config.toJson.pretty, .ok process⟩ ∧
      process.id = id ∧ process.config = config ∧ process.running = true) ∨
    ∃ written reason, launch p conditions id config = ⟨written, .error (.startFailed reason)⟩ ∧
      (written = none ∨ written = some config.toJson.pretty) := by
  unfold launch
  split
  · exact .inr ⟨_, _, rfl, .inl rfl⟩
  · exact .inr ⟨_, _, rfl, .inl rfl⟩
  · split
    · exact .inr ⟨_, _, rfl, .inr rfl⟩
    · exact .inl ⟨_, rfl, rfl, rfl, rfl⟩

end RelayProcess

namespace Supervisor

variable {s : Supervisor} {id : Nat}

theorem instances_keepResult (s : Supervisor) (id : Nat) :
    (s.keepResult id).instances = s.instances := by
  unfold keepResult
  split <;> rfl

theorem instances_retire (inCharge : s.current = some id) :
    s.retire.instances = s.instances.map fun i =>
      if i.id == id then { i with cancelled := true, process := i.process.stopped } else i := by
  unfold retire discard
  rw [inCharge]
  simp only [instances_keepResult, stopProcess, update, List.map_map]
  apply List.map_congr_left
  intro i _
  simp only [Function.comp]
  split
  next same => exact if_pos same
  next => rfl

/-- What is left of the processes of a supervisor once the one in charge is discarded: it is gone, its
monitor is told to end, and all others are as they were. -/
structure Retired (s : Supervisor) (instances : List Instance) : Prop where
  ids : instances.map Instance.id = s.instances.map Instance.id
  discarded : ∀ i ∈ instances, s.current = some i.id → i.alive = false ∧ i.cancelled = true
  others : ∀ i ∈ instances, s.current ≠ some i.id → i ∈ s.instances

theorem retired_retire (s : Supervisor) : s.Retired s.retire.instances := by
  cases inCharge : s.current with
  | none =>
      have same : s.retire = s := by rw [retire, inCharge]
      rw [same]
      exact ⟨rfl, by simp [inCharge], fun i member _ => member⟩
  | some id =>
      rw [instances_retire inCharge]
      refine ⟨?_, ?_, ?_⟩
      · rw [List.map_map]
        apply List.map_congr_left
        intro i _
        simp only [Function.comp]
        split <;> rfl
      · intro j member current
        obtain ⟨i, -, rfl⟩ := List.mem_map.mp member
        split at current
        next same =>
          rw [if_pos same]
          exact ⟨rfl, rfl⟩
        next differs =>
          cases inCharge.symm.trans current
          simp at differs
      · intro j member other
        obtain ⟨i, inside, rfl⟩ := List.mem_map.mp member
        split at other
        next same => exact absurd (inCharge.trans (congrArg some (eq_of_beq same).symm)) other
        next differs => rwa [if_neg differs]

theorem retire_others (s : Supervisor) :
    s.retire.generation = s.generation ∧ s.retire.lastError = s.lastError ∧
      s.retire.written = s.written := by
  unfold retire
  split
  next => exact ⟨rfl, rfl, rfl⟩
  next id inCharge =>
    unfold keepResult discard
    rw [inCharge]
    split <;> exact ⟨rfl, rfl, rfl⟩

inductive Restarted (s : Supervisor) :
    Except Fault RelayConfig → Bool → Except Fault Unit × Supervisor → Prop
  | refused (f : Fault) (force : Bool) : Restarted s (.error f) force (.error f, s)
  | unchanged {config : RelayConfig} {i : Instance} (found : s.currentInstance? = some i)
      (alive : i.alive = true) (same : (i.process.config == config) = true) :
      Restarted s (.ok config) false (.ok (), s)
  | started {config : RelayConfig} {force : Bool} {s' : Supervisor} {i : Instance}
      {rest : List Instance} (due : force = true ∨ s.runs config = false)
      (instances : s'.instances = i :: rest) (retired : s.Retired rest)
      (current : s'.currentInstance? = some i) (number : i.id = s.generation + 1)
      (alive : i.alive = true) (wanted : i.cancelled = false) (running : i.process.config = config)
      (generation : s'.generation = s.generation + 1) (phase : s'.phase = .running)
      (written : s'.written = some config.toJson.pretty)
      (lastError : s'.lastError = s.lastError) : Restarted s (.ok config) force (.ok (), s')
  | failed {config : RelayConfig} {force : Bool} {s' : Supervisor} {reason : String}
      (due : force = true ∨ s.runs config = false) (retired : s.Retired s'.instances)
      (vacant : s'.current = none) (generation : s'.generation = s.generation + 1)
      (phase : s'.phase = .crashed)
      (written : s'.written = s.written ∨ s'.written = some config.toJson.pretty)
      (lastError : s'.lastError = some (.startFailed (Fault.startFailed reason).message)) :
      Restarted s (.ok config) force (.error (.startFailed reason), s')

theorem runs_eq_true_iff {config : RelayConfig} :
    s.runs config = true ↔ ∃ i, s.currentInstance? = some i ∧ i.alive = true ∧
      (i.process.config == config) = true := by
  simp [runs, Option.any_eq_true]

theorem restarted_replace {config : RelayConfig} {force : Bool} (p : ProcessSettings)
    (conditions : LaunchConditions) (due : force = true ∨ s.runs config = false) :
    s.Restarted (.ok config) force (s.replace config (RelayProcess.launch p conditions)) := by
  obtain ⟨generation, lastError, file⟩ := s.retire_others
  have next : s.retire.announce.generation = s.generation + 1 := by
    rw [announce_generation, generation]
  unfold replace
  simp only [next]
  obtain ⟨process, launched, number, running, alive⟩ | ⟨written, reason, launched, text⟩ :=
    RelayProcess.launch_cases p conditions (s.generation + 1) config
  · rw [launched]
    have found : ({ process } :: s.retire.instances : List Instance).find? (·.id == process.id) =
        some { process } := List.find?_cons_of_pos (beq_self_eq_true process.id)
    exact .started due rfl s.retired_retire found number alive rfl running next rfl rfl lastError
  · rw [launched]
    refine .failed due s.retired_retire s.retire_current next rfl ?_ rfl
    rcases text with rfl | rfl
    · exact .inl file
    · exact .inr rfl

theorem restarted_restart (s : Supervisor) (synthesized : Except Fault RelayConfig) (force : Bool)
    (p : ProcessSettings) (conditions : LaunchConditions) :
    s.Restarted synthesized force
      (s.restart synthesized force (RelayProcess.launch p conditions)) := by
  cases synthesized with
  | error f => exact .refused f force
  | ok config =>
      simp only [restart]
      cases force with
      | true => exact restarted_replace p conditions (.inl rfl)
      | false =>
          cases same : s.runs config with
          | true =>
              obtain ⟨i, found, alive, equal⟩ := runs_eq_true_iff.mp same
              exact .unchanged found alive equal
          | false => exact restarted_replace p conditions (.inr same)

end Supervisor

end RelayControl
