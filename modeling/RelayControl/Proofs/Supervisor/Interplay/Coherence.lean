import RelayControl.Proofs.Supervisor.Interplay.Soundness

/-!
What can be relied on of the supervisor whenever nobody holds the lifecycle lock, wherever the
monitors and the recoveries are.
-/

namespace RelayControl

namespace Supervisor

structure Coherent (s : Supervisor) : Prop where
  notStarting : s.phase ≠ .starting
  stopped : s.phase = .stopped → s.current = none
  running : s.phase = .running → ∃ i, s.currentInstance? = some i
  current : ∀ i, s.currentInstance? = some i →
    i.id = s.generation ∧ (s.phase = .running ∨ s.phase = .crashed)
  crashed : s.phase = .crashed →
    s.lastError ≠ none ∧ ∀ i, s.currentInstance? = some i → i.alive = false
  alive : ∀ i ∈ s.instances, i.alive = true → s.phase = .running

variable {s : Supervisor} {id : Nat} {i : Instance}

theorem exists_instance?_of_mem_ids (known : id ∈ s.ids) : ∃ i, s.instance? id = some i := by
  rw [ids, census, List.map_map] at known
  obtain ⟨i, member, same⟩ := List.mem_map.mp known
  have found : (s.instances.find? (·.id == id)).isSome :=
    List.find?_isSome.mpr ⟨i, member, by simpa using same⟩
  exact Option.isSome_iff_exists.mp found

theorem id_of_instance? (found : s.instance? id = some i) : i.id = id := by
  simpa using List.find?_some found

theorem current_of_currentInstance? (found : s.currentInstance? = some i) :
    s.current = some i.id ∧ s.instance? i.id = some i := by
  obtain ⟨id, inCharge, found⟩ := Option.bind_eq_some_iff.mp found
  rw [id_of_instance? found]
  exact ⟨inCharge, found⟩

end Supervisor

namespace Interplay

variable {p : ProcessSettings} {w w' : Interplay} {a : Action} {e : Option Event}

theorem Settled.coherent {s : Supervisor} (settled : Settled s)
    (known : ∀ id, s.current = some id → id ∈ s.ids) : s.Coherent where
  notStarting := settled.notStarting
  stopped := settled.stopped
  running running := by
    obtain ⟨id, inCharge⟩ := settled.running running
    obtain ⟨i, found⟩ := Supervisor.exists_instance?_of_mem_ids (known id inCharge)
    exact ⟨i, by rw [Supervisor.currentInstance?, inCharge]; exact found⟩
  current i found := settled.current i.id (Supervisor.current_of_currentInstance? found).1
  crashed crashed := by
    obtain ⟨error, dead⟩ := settled.crashed crashed
    refine ⟨error, fun i found => ?_⟩
    obtain ⟨inCharge, found⟩ := Supervisor.current_of_currentInstance? found
    rw [← Bool.not_eq_true]
    intro alive
    exact dead i.id inCharge
      (Supervisor.mem_census_of_alive (List.mem_of_find?_eq_some found) alive)
  alive i member alive := by
    have living := Supervisor.mem_census_of_alive member alive
    have inCharge := settled.alone i.id living
    rcases (settled.current i.id inCharge).2 with running | crashed
    · exact running
    · exact absurd living ((settled.crashed crashed).2 i.id inCharge)

/-- The start whose number is taken and that is still to be attempted. -/
def startsAhead (w : Interplay) : Nat :=
  match w.lock with
  | some (.restart _ (.launching _ _)) => 1
  | _ => 0

theorem Step.starts (step : Step p w a e w') :
    w'.supervisor.generation + w.startsAhead =
      w.supervisor.generation + (if a.isLaunch then 1 else 0) + w'.startsAhead := by
  cases step with
  | callRestart free | callStop free | callRecovery free =>
      simp [startsAhead, Action.isLaunch, free]
  | passed _ held next =>
      rcases next with rfl | ⟨rfl, -⟩ <;> simp [startsAhead, Action.isLaunch, held]
  | refused _ held | unchanged _ held | differs _ held | takeOver _ held | skipOver _ held
  | calledOff _ held | replaced _ held | kept _ held | entered _ held | counted _ held
  | launched _ held | launchFailed _ held | installed _ held | announced _ held | watched _ held
  | blamed _ held | failed _ held | returned held | recovered held | attemptFailed held
  | gaveUp held | stopTake held | stopSkip held | stopLooked held | stopCalledOff held
  | stopEnded held | stopKept held | stopHalted held | stopReturned held | sawCrash held
  | sawOther held | sawSame held | sawNewer held =>
      simp [startsAhead, Action.isLaunch, held]
  | exited | printed | lookedAlive | lookedDead | heard | excused | confirmed | claimed
  | superseded | blames | keeps | marks | rereads | wakes =>
      simp [startsAhead, Action.isLaunch]

theorem run?_starts {actions : List Action} (ran : run? p w actions = some w') :
    w'.supervisor.generation + w.startsAhead =
      w.supervisor.generation + actions.countP Action.isLaunch + w'.startsAhead := by
  induction actions generalizing w with
  | nil =>
      cases ran
      simp
  | cons a rest ih =>
      obtain ⟨middle, stepped, ran⟩ := run?_cons_eq_some.mp ran
      have first := (step_of_step? stepped).starts
      have later := ih ran
      rw [List.countP_cons]
      omega

/--
Whatever callers, monitors, recoveries and processes do, while nobody holds the lifecycle lock the
phase, what is in charge, the last error and the processes agree with each other, and the generation
is the number of starts that were attempted.
-/
theorem coherent_of_free {actions : List Action} (ran : run? p {} actions = some w)
    (free : w.lock = none) :
    w.supervisor.Coherent ∧ w.supervisor.generation = actions.countP Action.isLaunch := by
  have sound : Sound w := Reachable.sound ⟨actions, ran⟩
  have fits := sound.fits
  rw [free] at fits
  refine ⟨Settled.coherent fits sound.known, ?_⟩
  simpa [startsAhead, free] using run?_starts ran

def restarting : List Action :=
  [.callRestart false, .synthesized (.ok {}), .proceed, .proceed, .proceed, .proceed,
    .launched { spawn := .ok 7 }, .proceed, .proceed, .proceed, .release]

def crashing (id : Nat) : List Action :=
  [.exited id (.exited (some 1) none), .look id, .advance id, .advance id, .advance id,
    .advance id, .advance id]

def failingRecovery (task : Nat) : List Action :=
  [.callRecovery task, .proceed, .proceed, .synthesized (.ok {}), .proceed, .proceed,
    .stopped (.ok ()), .proceed, .proceed, .proceed,
    .launched { spawn := .error "No such file or directory" }, .proceed, .proceed, .release]

theorem coherent_of_free_failingRecovery :
    ∃ w, run? {} {} (restarting ++ crashing 1 ++ failingRecovery 0) = some w ∧ w.lock = none ∧
      w.supervisor.Coherent ∧ w.supervisor.generation =
        (restarting ++ crashing 1 ++ failingRecovery 0).countP Action.isLaunch := by
  have reached : ∃ w, run? {} {} (restarting ++ crashing 1 ++ failingRecovery 0) = some w ∧
      w.lock = none := ⟨_, rfl, rfl⟩
  obtain ⟨w, ran, free⟩ := reached
  exact ⟨w, ran, free, coherent_of_free ran free⟩

end Interplay

end RelayControl
