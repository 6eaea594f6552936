import RelayControl.Proofs.Supervisor.Interplay.Step
import RelayControl.Proofs.Supervisor.Operations

/-!
What the cells of the supervisor say of each other. Each stage of whoever holds the lifecycle lock
has its own assertion about them, and every stage hands the next one what it asserts.
-/

namespace RelayControl

namespace Supervisor

variable (s : Supervisor) (id : Nat)

@[simp] theorem census_callOff : (s.callOff id).census = s.census :=
  census_update_of_keeps s id fun _ => ⟨rfl, rfl⟩

@[simp] theorem census_enrol (process : RelayProcess) :
    (s.enrol process).census = (process.id, process.running) :: s.census := rfl

@[simp] theorem generation_exitProcess (failure : ProcessFailure) :
    (s.exitProcess id failure).generation = s.generation := rfl

@[simp] theorem generation_print (lines : List String) :
    (s.print id lines).generation = s.generation := rfl

@[simp] theorem lastError_keepResult : (s.keepResult id).lastError = s.lastError := by
  unfold keepResult
  split <;> rfl

def ids : List Nat := s.census.map (·.1)

variable {s id}

theorem mem_ids_of_instance? {i : Instance} (found : s.instance? id = some i) : id ∈ s.ids := by
  have same : i.id = id := by simpa using List.find?_some found
  rw [ids, census, List.map_map]
  exact List.mem_map.mpr ⟨i, List.mem_of_find?_eq_some found, same⟩

theorem not_alive_of_instance? {i : Instance} (distinct : s.ids.Nodup)
    (found : s.instance? id = some i) (dead : i.alive = false) : (id, true) ∉ s.census := by
  intro alive
  obtain ⟨j, member, entry⟩ := List.mem_map.mp alive
  obtain ⟨number, living⟩ := Prod.mk.inj entry
  have unique : (s.instances.map (·.id)).Nodup := by
    rwa [ids, census, List.map_map] at distinct
  have other : s.instance? j.id = some j := find?_eq_some_of_nodup unique member
  rw [number, found] at other
  cases other
  rw [dead] at living
  cases living

end Supervisor

namespace Interplay

variable {p : ProcessSettings} {w w' : Interplay} {a : Action} {e : Option Event}

/-- Nobody is in the middle of changing the cells. -/
structure Settled (s : Supervisor) : Prop where
  notStarting : s.phase ≠ .starting
  stopped : s.phase = .stopped → s.current = none
  running : s.phase = .running → ∃ id, s.current = some id
  current : ∀ id, s.current = some id →
    id = s.generation ∧ (s.phase = .running ∨ s.phase = .crashed)
  crashed : s.phase = .crashed →
    s.lastError ≠ none ∧ ∀ id, s.current = some id → (id, true) ∉ s.census
  alone : ∀ id, (id, true) ∈ s.census → s.current = some id

/-- Nothing is in charge, and all are dead but perhaps one. -/
structure Vacant (s : Supervisor) (last? : Option Nat) : Prop where
  current : s.current = none
  alone : ∀ id, (id, true) ∈ s.census → last? = some id

structure Reserved (s : Supervisor) (id : Nat) : Prop where
  vacant : Vacant s none
  phase : s.phase = .starting
  number : s.generation = id
  fresh : ∀ other ∈ s.ids, other < id

structure Arriving (w : Interplay) (id : Nat) (inCharge : Option Nat) (phase : Phase) : Prop where
  current : w.supervisor.current = inCharge
  phase : w.supervisor.phase = phase
  number : w.supervisor.generation = id
  known : id ∈ w.supervisor.ids
  unwatched : w.monitor id = .absent
  alone : ∀ other, (other, true) ∈ w.supervisor.census → other = id

def RestartStage.Fits (w : Interplay) : RestartStage → Prop
  | .synthesizing | .comparing _ | .taking _ | .returning _ => Settled w.supervisor
  | .callingOff _ old | .stopping _ old => Vacant w.supervisor (some old)
  | .keeping .. | .entering _ => Vacant w.supervisor none
  | .counting _ | .blaming _ => Vacant w.supervisor none ∧ w.supervisor.phase = .starting
  | .launching _ id => Reserved w.supervisor id
  | .installing id => Arriving w id none .starting
  | .announcing id => Arriving w id (some id) .starting
  | .watching id => Arriving w id (some id) .running
  | .failing _ => Vacant w.supervisor none ∧ w.supervisor.lastError ≠ none

def StopStage.Fits (s : Supervisor) : StopStage → Prop
  | .taking => Settled s
  | .looking old | .callingOff old _ | .stopping old _ => Vacant s (some old)
  | .keeping .. | .halting _ => Vacant s none
  | .returning _ => Settled s ∧ s.phase = .stopped

def Fits (w : Interplay) : Option Errand → Prop
  | some (.restart _ stage) => stage.Fits w
  | some (.stop stage) => stage.Fits w.supervisor
  | some (.checkingPhase _) | some (.checkingGeneration _) | some (.leaving _) | none =>
      Settled w.supervisor

structure Monitored (w : Interplay) : Prop where
  absent : ∀ id, id ∉ w.supervisor.ids → w.monitor id = .absent
  dead : ∀ id, (w.monitor id).sawDead = true → (id, true) ∉ w.supervisor.census
  reading : ∀ id, (w.monitor id).reads = true → w.supervisor.current = some id
  blamed : ∀ id, w.monitor id = .keeping ∨ w.monitor id = .marking → w.supervisor.lastError ≠ none

structure Sound (w : Interplay) : Prop where
  fits : w.Fits w.lock
  monitored : w.Monitored
  distinct : w.supervisor.ids.Nodup
  bounded : ∀ id ∈ w.supervisor.ids, id ≤ w.supervisor.generation
  known : ∀ id, w.supervisor.current = some id → id ∈ w.supervisor.ids

/-! Steps that leave the cells to each other as they were. -/

/-- Only that processes died, an error was noted and monitors went on. -/
structure Quieter (w w' : Interplay) : Prop where
  current : w'.supervisor.current = w.supervisor.current
  phase : w'.supervisor.phase = w.supervisor.phase
  generation : w'.supervisor.generation = w.supervisor.generation
  ids : w'.supervisor.ids = w.supervisor.ids
  fewer : ∀ id, (id, true) ∈ w'.supervisor.census → (id, true) ∈ w.supervisor.census
  error : w.supervisor.lastError ≠ none → w'.supervisor.lastError ≠ none
  unwatched : ∀ id, w.monitor id = .absent → w'.monitor id = .absent

namespace Quieter

theorem settled (quieter : Quieter w w') (settled : Settled w.supervisor) :
    Settled w'.supervisor where
  notStarting := quieter.phase ▸ settled.notStarting
  stopped := by
    rw [quieter.phase, quieter.current]
    exact settled.stopped
  running := by
    rw [quieter.phase, quieter.current]
    exact settled.running
  current := by
    rw [quieter.phase, quieter.current, quieter.generation]
    exact settled.current
  crashed := by
    rw [quieter.phase, quieter.current]
    intro crashed
    obtain ⟨error, dead⟩ := settled.crashed crashed
    exact ⟨quieter.error error, fun id inCharge alive => dead id inCharge (quieter.fewer id alive)⟩
  alone id alive := quieter.current.trans (settled.alone id (quieter.fewer id alive))

theorem vacant (quieter : Quieter w w') {last? : Option Nat} (vacant : Vacant w.supervisor last?) :
    Vacant w'.supervisor last? where
  current := quieter.current.trans vacant.current
  alone id alive := vacant.alone id (quieter.fewer id alive)

theorem reserved (quieter : Quieter w w') {id : Nat} (reserved : Reserved w.supervisor id) :
    Reserved w'.supervisor id where
  vacant := quieter.vacant reserved.vacant
  phase := quieter.phase.trans reserved.phase
  number := quieter.generation.trans reserved.number
  fresh := quieter.ids ▸ reserved.fresh

theorem arriving (quieter : Quieter w w') {id : Nat} {inCharge : Option Nat} {phase : Phase}
    (arriving : Arriving w id inCharge phase) : Arriving w' id inCharge phase where
  current := quieter.current.trans arriving.current
  phase := quieter.phase.trans arriving.phase
  number := quieter.generation.trans arriving.number
  known := quieter.ids ▸ arriving.known
  unwatched := quieter.unwatched id arriving.unwatched
  alone other alive := arriving.alone other (quieter.fewer other alive)

theorem fits (quieter : Quieter w w') {lock : Option Errand} (fits : w.Fits lock) :
    w'.Fits lock := by
  cases lock with
  | none => exact quieter.settled fits
  | some errand =>
      cases errand with
      | checkingPhase | checkingGeneration | leaving => exact quieter.settled fits
      | restart starter stage =>
          cases stage with
          | synthesizing | comparing | taking | returning => exact quieter.settled fits
          | callingOff | stopping | keeping | entering => exact quieter.vacant fits
          | counting | blaming => exact ⟨quieter.vacant fits.1, quieter.phase.trans fits.2⟩
          | launching => exact quieter.reserved fits
          | installing | announcing | watching => exact quieter.arriving fits
          | failing => exact ⟨quieter.vacant fits.1, quieter.error fits.2⟩
      | stop stage =>
          cases stage with
          | taking => exact quieter.settled fits
          | looking | callingOff | stopping | keeping | halting => exact quieter.vacant fits
          | returning => exact ⟨quieter.settled fits.1, quieter.phase.trans fits.2⟩

theorem watch (vigil : Vigil) {id : Nat} (watched : w.monitor id ≠ .absent) :
    Quieter w (w.watch id vigil) where
  current := rfl
  phase := rfl
  generation := rfl
  ids := rfl
  fewer _ alive := alive
  error error := error
  unwatched other absent := by
    have differs : other ≠ id := by
      rintro rfl
      exact watched absent
    rw [watch_monitor_of_ne w vigil differs, absent]

theorem trans {w'' : Interplay} (first : Quieter w w') (second : Quieter w' w'') :
    Quieter w w'' where
  current := second.current.trans first.current
  phase := second.phase.trans first.phase
  generation := second.generation.trans first.generation
  ids := second.ids.trans first.ids
  fewer id alive := first.fewer id (second.fewer id alive)
  error error := second.error (first.error error)
  unwatched id absent := second.unwatched id (first.unwatched id absent)

theorem sets {s : Supervisor} (current : s.current = w.supervisor.current)
    (phase : s.phase = w.supervisor.phase) (generation : s.generation = w.supervisor.generation)
    (ids : s.ids = w.supervisor.ids)
    (fewer : ∀ id, (id, true) ∈ s.census → (id, true) ∈ w.supervisor.census)
    (error : w.supervisor.lastError ≠ none → s.lastError ≠ none) : Quieter w (w.sets s) :=
  ⟨current, phase, generation, ids, fewer, error, fun _ absent => absent⟩

end Quieter

/-! The assertion of the next stage. -/

section Stages

variable {s s' : Supervisor} {id old : Nat}

theorem Settled.vacated (settled : Settled s) (inCharge : s.current = some old) :
    Vacant s.vacate (some old) where
  current := rfl
  alone id alive := inCharge.symm.trans (settled.alone id alive)

theorem Settled.unoccupied (settled : Settled s) (vacant : s.current = none) :
    Vacant s.vacate none where
  current := rfl
  alone id alive := vacant.symm.trans (settled.alone id alive)

theorem Vacant.of_same {last? : Option Nat} (vacant : Vacant s last?)
    (current : s'.current = s.current) (census : s'.census = s.census) : Vacant s' last? where
  current := current.trans vacant.current
  alone := census ▸ vacant.alone

theorem Vacant.stopped (vacant : Vacant s (some old)) : Vacant (s.stopProcess old) none where
  current := vacant.current
  alone id alive := by
    rw [Supervisor.census_stopProcess, Supervisor.mem_map_bury] at alive
    exact absurd (Option.some.inj (vacant.alone id alive.1)).symm alive.2

theorem Vacant.settled (vacant : Vacant s none) (notStarting : s.phase ≠ .starting)
    (notRunning : s.phase ≠ .running) (crashed : s.phase = .crashed → s.lastError ≠ none) :
    Settled s where
  notStarting := notStarting
  stopped _ := vacant.current
  running running := absurd running notRunning
  current id inCharge := absurd (vacant.current.symm.trans inCharge) (by simp)
  crashed phase :=
    ⟨crashed phase, fun id inCharge => absurd (vacant.current.symm.trans inCharge) (by simp)⟩
  alone id alive := absurd (vacant.alone id alive) (by simp)

theorem Settled.marked (settled : Settled s) (inCharge : s.current = some id)
    (dead : (id, true) ∉ s.census) (error : s.lastError ≠ none) :
    Settled (s.enter .crashed) where
  notStarting := by simp
  stopped phase := by cases phase
  running phase := by cases phase
  current other occupied := ⟨(settled.current other occupied).1, .inr rfl⟩
  crashed _ := by
    refine ⟨error, ?_⟩
    intro other occupied
    cases inCharge.symm.trans occupied
    exact dead
  alone := settled.alone

theorem Arriving.settled (arriving : Arriving w id (some id) .running) :
    Settled w.supervisor where
  notStarting := by simp [arriving.phase]
  stopped := by simp [arriving.phase]
  running _ := ⟨id, arriving.current⟩
  current other inCharge := by
    cases arriving.current.symm.trans inCharge
    exact ⟨arriving.number.symm, .inl arriving.phase⟩
  crashed := by simp [arriving.phase]
  alone other alive := arriving.alone other alive ▸ arriving.current

theorem Reserved.arriving (reserved : Reserved w.supervisor id) (monitored : w.Monitored)
    {conditions : LaunchConditions} {config : RelayConfig} {process : RelayProcess}
    (began : (RelayProcess.launch p conditions id config).result = .ok process)
    (launch : Launch) (errand : Errand) :
    Arriving ((w.sets ((w.supervisor.rewrite launch).enrol process)).holds errand) id none
      .starting where
  current := reserved.vacant.current
  phase := reserved.phase
  number := reserved.number
  known := by
    obtain ⟨rfl, -, -⟩ := RelayProcess.launch_id began
    exact List.mem_cons_self
  unwatched := by
    apply monitored.absent
    intro member
    exact Nat.lt_irrefl _ (reserved.fresh id member)
  alone other alive := by
    obtain ⟨rfl, -, -⟩ := RelayProcess.launch_id began
    rcases List.mem_cons.mp alive with entry | alive
    · exact congrArg Prod.fst entry
    · cases reserved.vacant.alone other alive

end Stages

namespace Quieter

theorem exited (w : Interplay) (id : Nat) (failure : ProcessFailure) :
    Quieter w (w.sets (w.supervisor.exitProcess id failure)) := by
  refine sets rfl rfl rfl ?_ ?_ fun error => error
  · simp [Supervisor.ids]
  · intro other alive
    rw [Supervisor.census_exitProcess, Supervisor.mem_map_bury] at alive
    exact alive.1

theorem stopped (w : Interplay) (id : Nat) : Quieter w (w.sets (w.supervisor.stopProcess id)) := by
  refine sets rfl rfl rfl ?_ ?_ fun error => error
  · simp [Supervisor.ids]
  · intro other alive
    rw [Supervisor.census_stopProcess, Supervisor.mem_map_bury] at alive
    exact alive.1

theorem calledOff (w : Interplay) (id : Nat) : Quieter w (w.sets (w.supervisor.callOff id)) := by
  refine sets rfl rfl rfl ?_ ?_ fun error => error
  · simp [Supervisor.ids]
  · intro other alive
    rwa [Supervisor.census_callOff] at alive

theorem printed (w : Interplay) (id : Nat) (lines : List String) :
    Quieter w (w.sets (w.supervisor.print id lines)) := by
  refine sets rfl rfl rfl ?_ ?_ fun error => error
  · simp [Supervisor.ids]
  · intro other alive
    rwa [Supervisor.census_print] at alive

theorem kept (w : Interplay) (id : Nat) : Quieter w (w.sets (w.supervisor.keepResult id)) := by
  apply sets (Supervisor.keepResult_current _ _) (Supervisor.phase_keepResult _ _)
    (Supervisor.generation_keepResult _ _)
  · simp [Supervisor.ids]
  · intro other alive
    rwa [Supervisor.census_keepResult] at alive
  · rw [Supervisor.lastError_keepResult]
    exact fun error => error

theorem blamed (w : Interplay) (failure : ProcessFailure) :
    Quieter w (w.sets (w.supervisor.blame failure)) := by
  refine sets rfl rfl rfl rfl (fun _ alive => alive) fun _ => ?_
  simp [Supervisor.blame]

theorem move (w : Interplay) (task : Nat) (stage : RecoveryStage) : Quieter w (w.move task stage) :=
  ⟨rfl, rfl, rfl, rfl, fun _ alive => alive, fun error => error, fun _ absent => absent⟩

end Quieter

end Interplay

end RelayControl
