import RelayControl.Proofs.Supervisor.Operations
import RelayControl.Proofs.Supervisor.Step

/-!
At most one relay is alive. A process that is taken out of charge is gone before the next one is
started, since whoever took it out holds the lock until then.
-/

namespace RelayControl

namespace RestartStage

def vacant : RestartStage → Bool
  | .stopping .. | .keeping .. | .announcing _ | .launching _ => true
  | .synthesizing | .replacing _ | .returning _ => false

def victim? : RestartStage → Option Nat
  | .stopping _ old => some old
  | _ => none

def reserves : RestartStage → Bool
  | .launching _ => true
  | _ => false

end RestartStage

namespace StopStage

def vacant : StopStage → Bool
  | .taking => false
  | _ => true

def victim? : StopStage → Option Nat
  | .stopping old _ => some old
  | _ => none

end StopStage

namespace Errand

def vacant : Errand → Bool
  | .restart _ stage => stage.vacant
  | .recovery _ stage => stage.vacant
  | .stop stage => stage.vacant

def victim? : Errand → Option Nat
  | .restart _ stage => stage.victim?
  | .recovery _ stage => stage.victim?
  | .stop stage => stage.victim?

def reserves : Errand → Bool
  | .restart _ stage => stage.reserves
  | .recovery _ stage => stage.reserves
  | .stop _ => false

theorem vacant_of_victim? {errand : Errand} {id : Nat} (victim : errand.victim? = some id) :
    errand.vacant = true := by
  cases errand with
  | restart force stage | recovery origin stage => cases stage <;> first | rfl | cases victim
  | stop stage => cases stage <;> first | rfl | cases victim

end Errand

namespace Starter

variable (starter : Starter) (stage : RestartStage)

@[simp] theorem vacant_errand : (starter.errand stage).vacant = stage.vacant := by
  cases starter <;> rfl

@[simp] theorem victim?_errand : (starter.errand stage).victim? = stage.victim? := by
  cases starter <;> rfl

@[simp] theorem reserves_errand : (starter.errand stage).reserves = stage.reserves := by
  cases starter <;> rfl

end Starter

theorem Supervision.afterSynthesis_cases (s : Supervisor) (force : Bool)
    (outcome : Except Fault RelayConfig) :
    (∃ config, outcome = .ok config ∧ afterSynthesis s force outcome = .replacing config) ∨
      ∃ result, afterSynthesis s force outcome = .returning result := by
  cases outcome with
  | error f => exact .inr ⟨.error f, rfl⟩
  | ok config =>
      simp only [afterSynthesis]
      split
      · exact .inr ⟨.ok (), rfl⟩
      · exact .inl ⟨config, rfl, rfl⟩

namespace Supervision

structure Numbering (w : Supervision) : Prop where
  distinct : (w.supervisor.census.map (·.1)).Nodup
  bounded : ∀ id ∈ w.supervisor.census.map (·.1), id ≤ w.supervisor.generation
  fresh : ∀ errand, w.lock = some errand → errand.reserves = true →
    ∀ id ∈ w.supervisor.census.map (·.1), id < w.supervisor.generation

/-- Only the process in charge is alive, or the one that is about to be gone. -/
structure Charge (w : Supervision) : Prop where
  vacant : ∀ errand, w.lock = some errand → errand.vacant = true → w.supervisor.current = none
  alone : ∀ id, (id, true) ∈ w.supervisor.census →
    w.supervisor.current = some id ∨ ∃ errand, w.lock = some errand ∧ errand.victim? = some id

variable {p : ProcessSettings} {w w' : Supervision} {a : Action}

@[simp] theorem holds_supervisor (w : Supervision) (supervisor : Supervisor) (errand : Errand) :
    (w.holds supervisor errand).supervisor = supervisor := rfl

@[simp] theorem census_monitors (w : Supervision) (id : Nat) (watch : Watch) :
    (w.monitors id watch).supervisor.census = w.supervisor.census :=
  Supervisor.census_update_of_keeps _ id fun _ => ⟨rfl, rfl⟩

/-! Numbers. -/

namespace Numbering

theorem of_same (numbering : Numbering w)
    (ids : w'.supervisor.census.map (·.1) = w.supervisor.census.map (·.1))
    (generation : w'.supervisor.generation = w.supervisor.generation)
    (announced : ∀ errand, w'.lock = some errand → errand.reserves = true →
      w.lock = some errand) : Numbering w' where
  distinct := ids ▸ numbering.distinct
  bounded := by
    rw [ids, generation]
    exact numbering.bounded
  fresh := by
    rw [ids, generation]
    intro errand held launching
    exact numbering.fresh errand (announced errand held launching) launching

theorem of_lock (numbering : Numbering w) {errand : Errand}
    (ids : w'.supervisor.census.map (·.1) = w.supervisor.census.map (·.1))
    (generation : w'.supervisor.generation = w.supervisor.generation)
    (held : w'.lock = some errand) (idle : errand.reserves = false) : Numbering w' := by
  apply numbering.of_same ids generation
  intro other held' launching
  rw [held] at held'
  cases held'
  rw [idle] at launching
  cases launching

theorem of_free (numbering : Numbering w)
    (ids : w'.supervisor.census.map (·.1) = w.supervisor.census.map (·.1))
    (generation : w'.supervisor.generation = w.supervisor.generation)
    (free : w'.lock = none) : Numbering w' := by
  apply numbering.of_same ids generation
  intro errand held
  rw [free] at held
  cases held

theorem announce (numbering : Numbering w) (errand : Errand) :
    Numbering (w.holds w.supervisor.announce errand) where
  distinct := numbering.distinct
  bounded id member := Nat.le_succ_of_le (numbering.bounded id member)
  fresh _ _ _ id member := Nat.lt_succ_of_le (numbering.bounded id member)

theorem launched (numbering : Numbering w) {errand errand' : Errand}
    (held : w.lock = some errand) (launching : errand.reserves = true)
    (idle : errand'.reserves = false) {conditions : LaunchConditions} {config : RelayConfig}
    {result : Except Fault Unit} {supervisor : Supervisor}
    (arrived : w.supervisor.arrive
      (RelayProcess.launch p conditions w.supervisor.generation config) = (result, supervisor)) :
    Numbering (w.holds supervisor errand') := by
  obtain ⟨generation, ⟨-, -, added, -⟩ | ⟨-, -, -, same, -⟩⟩ :=
    Supervisor.arrive_launch_cases arrived
  · have below := numbering.fresh errand held launching
    exact {
      distinct := by
        change (supervisor.census.map (·.1)).Nodup
        rw [added, List.map_cons, List.nodup_cons]
        exact ⟨fun member => Nat.lt_irrefl _ (below _ member), numbering.distinct⟩
      bounded := by
        change ∀ id ∈ supervisor.census.map (·.1), id ≤ supervisor.generation
        rw [added, generation]
        intro id member
        rcases List.mem_cons.mp member with rfl | member
        · exact Nat.le_refl _
        · exact numbering.bounded id member
      fresh := by
        rintro other ⟨⟩ launching'
        rw [idle] at launching'
        cases launching' }
  · exact numbering.of_lock (congrArg (List.map (·.1)) same) generation rfl idle

theorem step (numbering : Numbering w) (step : Step p w a w') : Numbering w' := by
  cases step with
  | callRestart | callStop | callRecovery => exact numbering.of_lock rfl rfl rfl rfl
  | giveUp free => exact numbering.of_free rfl rfl free
  | synthesized starter held outcome =>
      refine numbering.of_lock rfl rfl rfl ?_
      rw [starter.reserves_errand]
      obtain ⟨config, -, next⟩ | ⟨result, next⟩ :=
        afterSynthesis_cases w.supervisor starter.force outcome
      · rw [next]; rfl
      · rw [next]; rfl
  | takeOver starter | skipOver starter | replaced starter | kept starter =>
      exact numbering.of_lock (by simp) (by simp) rfl (starter.reserves_errand _)
  | announced starter held => exact numbering.announce _
  | launched starter held conditions arrived =>
      exact numbering.launched held (starter.reserves_errand _) (starter.reserves_errand _)
        arrived
  | restarted | recovered | recoveryFailed | stopReturned =>
      exact numbering.of_free rfl rfl rfl
  | stopTake | stopSkip | stopEnded | stopKept | stopHalted =>
      exact numbering.of_lock (by simp) (by simp) rfl rfl
  | exited | printed | pollCancelled | pollDead =>
      exact numbering.of_same (by simp) rfl fun _ held _ => held
  | pollAlive => exact numbering
  | reported found reporting crash | ignored found reporting crash =>
      obtain ⟨census, -, generation, -⟩ := Supervisor.recordCrash_cases crash
      rw [census_monitors] at census
      exact numbering.of_same (congrArg (List.map (·.1)) census) generation fun _ held _ => held
  | reread | wake => exact numbering.of_same rfl rfl fun _ held _ => held

end Numbering

/-! Who is in charge. -/

namespace Charge

theorem current_of_alive (charge : Charge w) {id : Nat} (alive : (id, true) ∈ w.supervisor.census)
    (calm : ∀ errand, w.lock = some errand → errand.victim? = none) :
    w.supervisor.current = some id := by
  rcases charge.alone id alive with inCharge | ⟨errand, held, victim⟩
  · exact inCharge
  · rw [calm errand held] at victim
    cases victim

theorem current_of_held (charge : Charge w) {errand : Errand} (held : w.lock = some errand)
    (calm : errand.victim? = none) {id : Nat} (alive : (id, true) ∈ w.supervisor.census) :
    w.supervisor.current = some id := by
  apply charge.current_of_alive alive
  intro other held'
  rw [held] at held'
  cases held'
  exact calm

theorem none_alive (charge : Charge w) {errand : Errand} (held : w.lock = some errand)
    (vacant : errand.vacant = true) (calm : errand.victim? = none) (id : Nat) :
    (id, true) ∉ w.supervisor.census := by
  intro alive
  have current := charge.current_of_held held calm alive
  rw [charge.vacant errand held vacant] at current
  cases current

theorem of_current (occupied : ∀ errand, w.lock = some errand → errand.vacant = false)
    (alone : ∀ id, (id, true) ∈ w.supervisor.census → w.supervisor.current = some id) :
    Charge w where
  vacant errand held vacant := by
    rw [occupied errand held] at vacant
    cases vacant
  alone id alive := .inl (alone id alive)

theorem of_none (vacant : w.supervisor.current = none)
    (none : ∀ id, (id, true) ∉ w.supervisor.census) : Charge w where
  vacant _ _ _ := vacant
  alone id alive := absurd alive (none id)

theorem of_fewer (charge : Charge w) (held : w'.lock = w.lock)
    (current : w'.supervisor.current = w.supervisor.current)
    (fewer : ∀ id, (id, true) ∈ w'.supervisor.census → (id, true) ∈ w.supervisor.census) :
    Charge w' where
  vacant := by
    rw [held, current]
    exact charge.vacant
  alone := by
    rw [held, current]
    exact fun id alive => charge.alone id (fewer id alive)

theorem handOver (charge : Charge w)
    (calm : ∀ errand, w.lock = some errand → errand.victim? = none)
    (occupied : ∀ errand, w'.lock = some errand → errand.vacant = false)
    (same : w'.supervisor = w.supervisor) : Charge w' := by
  apply of_current occupied
  intro id alive
  rw [same] at alive ⊢
  exact charge.current_of_alive alive calm

theorem takeOver (charge : Charge w) {errand : Errand} {old : Nat} (held : w.lock = some errand)
    (calm : errand.victim? = none) (inCharge : w.supervisor.current = some old)
    {errand' : Errand} (victim : errand'.victim? = some old) :
    Charge (w.holds w.supervisor.discard errand') where
  vacant _ _ _ := Supervisor.discard_current _
  alone id alive := by
    rw [holds_supervisor, Supervisor.census_discard] at alive
    have current := charge.current_of_held held calm alive
    rw [inCharge] at current
    cases current
    exact .inr ⟨errand', rfl, victim⟩

theorem skipOver (charge : Charge w) {errand : Errand} (held : w.lock = some errand)
    (calm : errand.victim? = none) (vacant : w.supervisor.current = none) (errand' : Errand) :
    Charge (w.holds w.supervisor errand') where
  vacant _ _ _ := vacant
  alone id alive :=
    absurd (vacant.symm.trans (charge.current_of_held held calm alive)) (by simp)

theorem gone (charge : Charge w) {errand : Errand} {old : Nat} (held : w.lock = some errand)
    (vacant : errand.vacant = true) (victim : errand.victim? = some old) (errand' : Errand) :
    Charge (w.holds (w.supervisor.stopProcess old) errand') := by
  have current : (w.holds (w.supervisor.stopProcess old) errand').supervisor.current = none :=
    charge.vacant errand held vacant
  apply of_none current
  intro id alive
  rw [holds_supervisor, Supervisor.census_stopProcess, Supervisor.mem_map_bury] at alive
  rcases charge.alone id alive.1 with inCharge | ⟨other, held', victim'⟩
  · exact absurd (current.symm.trans inCharge) (by simp)
  · rw [held] at held'
    cases held'
    rw [victim] at victim'
    exact alive.2 (Option.some.inj victim').symm

theorem deserted (charge : Charge w) {errand : Errand} (held : w.lock = some errand)
    (vacant : errand.vacant = true) (calm : errand.victim? = none)
    (current : w'.supervisor.current = w.supervisor.current)
    (census : w'.supervisor.census = w.supervisor.census) : Charge w' := by
  apply of_none
  · rw [current]
    exact charge.vacant errand held vacant
  · rw [census]
    exact charge.none_alive held vacant calm

theorem launched (charge : Charge w) {errand errand' : Errand} (held : w.lock = some errand)
    (vacant : errand.vacant = true) (calm : errand.victim? = none)
    (occupied : errand'.vacant = false) {conditions : LaunchConditions} {config : RelayConfig}
    {result : Except Fault Unit} {supervisor : Supervisor}
    (arrived : w.supervisor.arrive
      (RelayProcess.launch p conditions w.supervisor.generation config) = (result, supervisor)) :
    Charge (w.holds supervisor errand') := by
  obtain ⟨-, ⟨-, -, census, current⟩ | ⟨-, -, -, census, current⟩⟩ :=
    Supervisor.arrive_launch_cases arrived
  · apply of_current
    · rintro other ⟨⟩
      exact occupied
    · -- The one before is gone, so only the new process is alive.
      intro id alive
      rw [holds_supervisor, census] at alive
      rcases List.mem_cons.mp alive with equal | alive
      · cases equal
        exact current
      · exact absurd alive (charge.none_alive held vacant calm id)
  · exact charge.deserted held vacant calm current census

theorem step (charge : Charge w) (step : Step p w a w') : Charge w' := by
  cases step with
  | callRestart free | callStop free | callRecovery free =>
      refine charge.handOver (by simp [free]) ?_ rfl
      rintro errand ⟨⟩
      rfl
  | giveUp free => exact charge.of_fewer rfl rfl fun _ alive => alive
  | synthesized starter held outcome =>
      refine charge.handOver (by simp [held, RestartStage.victim?]) ?_ rfl
      rintro errand ⟨⟩
      rw [starter.vacant_errand]
      obtain ⟨config, -, next⟩ | ⟨result, next⟩ :=
        afterSynthesis_cases w.supervisor starter.force outcome
      · rw [next]; rfl
      · rw [next]; rfl
  | takeOver starter held inCharge =>
      exact charge.takeOver held (starter.victim?_errand _) inCharge (starter.victim?_errand _)
  | skipOver starter held vacant =>
      exact charge.skipOver held (starter.victim?_errand _) vacant _
  | replaced starter held outcome =>
      exact charge.gone held (starter.vacant_errand _) (starter.victim?_errand _) _
  | kept starter held =>
      exact charge.deserted held (starter.vacant_errand _) (starter.victim?_errand _)
        (Supervisor.keepResult_current _ _) (Supervisor.census_keepResult _ _)
  | announced starter held =>
      exact charge.deserted held (starter.vacant_errand _) (starter.victim?_errand _) rfl rfl
  | launched starter held conditions arrived =>
      exact charge.launched held (starter.vacant_errand _) (starter.victim?_errand _)
        (starter.vacant_errand _) arrived
  | restarted held | recovered held | recoveryFailed held =>
      refine charge.handOver (by simp [held, Errand.victim?, RestartStage.victim?]) ?_ rfl
      rintro errand ⟨⟩
  | stopTake held inCharge => exact charge.takeOver held rfl inCharge rfl
  | stopSkip held vacant => exact charge.skipOver held rfl vacant _
  | stopEnded held outcome => exact charge.gone held rfl rfl _
  | stopKept held =>
      exact charge.deserted held rfl rfl (Supervisor.keepResult_current _ _)
        (Supervisor.census_keepResult _ _)
  | stopHalted held | stopReturned held => exact charge.deserted held rfl rfl rfl rfl
  | exited =>
      refine charge.of_fewer rfl rfl fun id alive => ?_
      rw [Supervisor.census_exitProcess, Supervisor.mem_map_bury] at alive
      exact alive.1
  | printed =>
      exact charge.of_fewer rfl rfl fun id alive => Supervisor.census_print _ _ _ ▸ alive
  | pollCancelled | pollDead =>
      exact charge.of_fewer rfl rfl fun id alive => census_monitors _ _ _ ▸ alive
  | pollAlive => exact charge
  | reported found reporting crash | ignored found reporting crash =>
      obtain ⟨census, current, -, -⟩ := Supervisor.recordCrash_cases crash
      rw [census_monitors] at census
      exact charge.of_fewer rfl current fun id alive => census ▸ alive
  | reread | wake => exact charge.of_fewer rfl rfl fun _ alive => alive

end Charge

/-! The two together, in every world that can be reached. -/

theorem Reachable.keeps {motive : Supervision → Prop} (initial : motive {})
    (step : ∀ {w a w'}, motive w → Step p w a w' → motive w') (reachable : Reachable p w) :
    motive w := by
  obtain ⟨actions, ran⟩ := reachable
  exact run?_keeps (fun _ => step) initial ran

theorem Reachable.numbering (reachable : Reachable p w) : Numbering w :=
  reachable.keeps ⟨by simp [Supervisor.census], by simp [Supervisor.census], by simp⟩
    Numbering.step

theorem Reachable.charge (reachable : Reachable p w) : Charge w :=
  reachable.keeps ⟨by simp, by simp [Supervisor.census]⟩ Charge.step

theorem Charge.alive_unique (charge : Charge w) {id other : Nat}
    (first : (id, true) ∈ w.supervisor.census) (second : (other, true) ∈ w.supervisor.census) :
    id = other := by
  have excluded {errand : Errand} {victim : Nat} (held : w.lock = some errand)
      (found : errand.victim? = some victim) (number : Nat) :
      w.supervisor.current ≠ some number := by
    rw [charge.vacant errand held (Errand.vacant_of_victim? found)]
    simp
  rcases charge.alone id first with inCharge | ⟨errand, held, victim⟩
  · rcases charge.alone other second with inCharge' | ⟨errand', held', victim'⟩
    · exact Option.some.inj (inCharge.symm.trans inCharge')
    · exact absurd inCharge (excluded held' victim' id)
  · rcases charge.alone other second with inCharge' | ⟨errand', held', victim'⟩
    · exact absurd inCharge' (excluded held victim other)
    · rw [held] at held'
      cases held'
      exact Option.some.inj (victim.symm.trans victim')

/--
Whatever the callers, monitors, recoveries and processes do, at most one started process is alive,
and while nobody holds the lifecycle lock it is the one in charge.
-/
theorem atMostOne_alive (reachable : Reachable p w) :
    (w.supervisor.instances.filter (·.alive)).length ≤ 1 ∧
      (w.lock = none → ∀ i ∈ w.supervisor.instances, i.alive = true →
        w.supervisor.currentInstance? = some i) := by
  have charge := reachable.charge
  have distinct := reachable.numbering.distinct
  constructor
  · exact Supervisor.length_alive_le_one distinct fun _ _ => charge.alive_unique
  · intro free i member alive
    have living := Supervisor.mem_census_of_alive member alive
    exact Supervisor.currentInstance?_of_mem distinct member
      (charge.current_of_alive living (by simp [free]))

def recovering : List Action :=
  [.callRestart false, .synthesized (.ok {}), .proceed, .proceed, .launched { spawn := .ok 7 },
    .release, .exited 1 (.exited (some 1) none), .poll 1, .report 1, .callRecovery 1,
    .synthesized (.ok {}), .proceed, .stopped (.ok ()), .proceed, .proceed,
    .launched { spawn := .ok 8 }, .release]

theorem atMostOne_alive_recovering :
    ∃ w, run? {} {} recovering = some w ∧ (w.supervisor.instances.filter (·.alive)).length ≤ 1 ∧
      (w.lock = none → ∀ i ∈ w.supervisor.instances, i.alive = true →
        w.supervisor.currentInstance? = some i) :=
  ⟨_, rfl, atMostOne_alive ⟨recovering, rfl⟩⟩

end Supervision

end RelayControl
