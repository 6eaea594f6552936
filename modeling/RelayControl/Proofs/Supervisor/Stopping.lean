import RelayControl.Proofs.Supervisor.Exclusion

/-!
A stop wins over every recovery. Once it has returned nothing is in charge, so no monitor can record
a crash any more, and the recoveries that are under way find the supervisor stopped.
-/

namespace RelayControl

namespace Supervision

variable {p : ProcessSettings} {w w' : Supervision} {a : Action}

structure Halting (w : Supervision) : Prop where
  charge : Charge w
  stopped : ∀ result, w.lock = some (.stop (.returning result)) → w.supervisor.phase = .stopped

namespace Halting

theorem unrecorded (halting : Halting w) {result : Except Fault Unit}
    (held : w.lock = some (.stop (.returning result))) {id : Nat} {recorded : Bool}
    {supervisor : Supervisor}
    (crash : (w.monitors id .ended).supervisor.recordCrash id = (recorded, supervisor)) :
    supervisor.phase = w.supervisor.phase := by
  obtain ⟨-, -, -, ⟨-, inCharge, -⟩ | ⟨-, rfl⟩⟩ := Supervisor.recordCrash_cases crash
  · have vacant : w.supervisor.current = none := halting.charge.vacant _ held rfl
    exact absurd (vacant.symm.trans inCharge) (by simp)
  · rfl

theorem step (halting : Halting w) (step : Step p w a w') : Halting w' := by
  refine ⟨halting.charge.step step, ?_⟩
  intro result held'
  cases step with
  | callRestart | callStop | callRecovery => cases held'
  | giveUp free => exact absurd held' (by simp [drop, free])
  | synthesized starter | takeOver starter | skipOver starter | replaced starter | kept starter
  | announced starter | launched starter => cases starter <;> cases held'
  | restarted | recovered | recoveryFailed | stopReturned => cases held'
  | stopTake | stopSkip | stopEnded | stopKept => cases held'
  | stopHalted => rfl
  | exited | printed | pollCancelled | pollDead | pollAlive | reread | wake =>
      exact halting.stopped result held'
  | reported found reporting crash | ignored found reporting crash =>
      exact (halting.unrecorded held' crash).trans (halting.stopped result held')

end Halting

theorem Reachable.halting (reachable : Reachable p w) : Halting w :=
  reachable.keeps ⟨⟨by simp, by simp [Supervisor.census]⟩, by simp⟩ Halting.step

/-- Nothing is in charge, and the lock is held for stops at most. -/
structure AtRest (ids : List Nat) (generation : Nat) (w : Supervision) : Prop where
  stopped : w.supervisor.phase = .stopped
  vacant : w.supervisor.current = none
  held : ∀ errand, w.lock = some errand → ∃ stage, errand = .stop stage
  started : w.supervisor.census.map (·.1) = ids
  numbered : w.supervisor.generation = generation

namespace AtRest

variable {ids : List Nat} {generation : Nat}

theorem unheld (rest : AtRest ids generation w) (starter : Starter) {stage : RestartStage}
    (held : w.lock = some (starter.errand stage)) : False := by
  obtain ⟨stopStage, equal⟩ := rest.held _ held
  cases starter <;> cases equal

theorem of_same (rest : AtRest ids generation w)
    (phase : w'.supervisor.phase = w.supervisor.phase)
    (current : w'.supervisor.current = w.supervisor.current)
    (started : w'.supervisor.census.map (·.1) = w.supervisor.census.map (·.1))
    (numbered : w'.supervisor.generation = w.supervisor.generation)
    (held : ∀ errand, w'.lock = some errand → ∃ stage, errand = .stop stage) :
    AtRest ids generation w' where
  stopped := phase.trans rest.stopped
  vacant := current.trans rest.vacant
  held := held
  started := started.trans rest.started
  numbered := numbered.trans rest.numbered

theorem step (rest : AtRest ids generation w) (unasked : ∀ force, a ≠ .callRestart force)
    (step : Step p w a w') : AtRest ids generation w' := by
  have onlyStops {stage : StopStage} : ∀ errand, some (Errand.stop stage) = some errand →
      ∃ stage, errand = .stop stage := by
    rintro errand ⟨⟩
    exact ⟨stage, rfl⟩
  have unlocked : ∀ errand, (none : Option Errand) = some errand →
      ∃ stage, errand = .stop stage := by
    rintro errand ⟨⟩
  cases step with
  | callRestart free force => exact absurd rfl (unasked force)
  | callStop free => exact rest.of_same rfl rfl rfl rfl onlyStops
  | callRecovery free queued current =>
      rw [rest.stopped] at current
      cases current.1
  | synthesized starter held | takeOver starter held | skipOver starter held
  | replaced starter held | kept starter held | announced starter held | launched starter held =>
      exact (rest.unheld starter held).elim
  | restarted held => exact (rest.unheld (.caller _) held).elim
  | recovered held | recoveryFailed held => exact (rest.unheld (.recovery _) held).elim
  | stopTake held inCharge => exact absurd (rest.vacant.symm.trans inCharge) (by simp)
  | stopSkip held => exact rest.of_same rfl rfl rfl rfl onlyStops
  | stopEnded held => exact rest.of_same rfl rfl (by simp) rfl onlyStops
  | stopKept held =>
      exact rest.of_same (Supervisor.phase_keepResult _ _) (Supervisor.keepResult_current _ _)
        (by simp) (Supervisor.generation_keepResult _ _) onlyStops
  | stopHalted held => exact rest.of_same rest.stopped.symm rfl rfl rfl onlyStops
  | stopReturned held => exact rest.of_same rfl rfl rfl rfl unlocked
  | exited | printed | pollCancelled | pollDead =>
      exact rest.of_same rfl rfl (by simp) rfl rest.held
  | reported found reporting crash | ignored found reporting crash =>
      obtain ⟨-, -, -, ⟨-, inCharge, -⟩ | ⟨-, rfl⟩⟩ := Supervisor.recordCrash_cases crash
      · -- A monitor that saw its process dead before the stop reports it too late.
        exact absurd (rest.vacant.symm.trans inCharge) (by simp)
      · exact rest.of_same rfl rfl (congrArg (List.map (·.1)) (census_monitors _ _ _)) rfl rest.held
  | giveUp | pollAlive | reread | wake => exact rest.of_same rfl rfl rfl rfl rest.held

theorem run {actions : List Action} (rest : AtRest ids generation w)
    (unasked : ∀ force, .callRestart force ∉ actions) (ran : run? p w actions = some w') :
    AtRest ids generation w' := by
  apply run?_keeps _ rest ran
  intro before a after member resting stepped
  exact resting.step (fun force same => unasked force (same ▸ member)) stepped

end AtRest

theorem Halting.atRest (halting : Halting w) {result : Except Fault Unit}
    (returning : w.lock = some (.stop (.returning result))) :
    AtRest (w.supervisor.census.map (·.1)) w.supervisor.generation w where
  stopped := halting.stopped result returning
  vacant := halting.charge.vacant _ returning rfl
  held _ held := ⟨.returning result, Option.some.inj (held.symm.trans returning)⟩
  started := rfl
  numbered := rfl

/--
Once a stop has returned, with whatever result, the supervisor is stopped with nothing in charge, and
it stays so, with no start even attempted, until a caller other than a recovery takes the lock for a
restart.
-/
theorem stop_prevails {result : Except Fault Unit} {after : List Action}
    (reachable : Reachable p w) (returning : w.lock = some (.stop (.returning result)))
    (ran : run? p w (.release :: after) = some w')
    (unasked : ∀ force, .callRestart force ∉ after) :
    w'.supervisor.phase = .stopped ∧ w'.supervisor.current = none ∧
      w'.supervisor.generation = w.supervisor.generation ∧
      w'.supervisor.instances.map (·.id) = w.supervisor.instances.map (·.id) := by
  have quiet : ∀ force, .callRestart force ∉ .release :: after := by
    intro force member
    rcases List.mem_cons.mp member with equal | member
    · cases equal
    · exact unasked force member
  have rest := (reachable.halting.atRest returning).run quiet ran
  have started := rest.started
  simp only [Supervisor.census, List.map_map] at started
  exact ⟨rest.stopped, rest.vacant, rest.numbered, started⟩

def stoppedAfterCrash : List Action :=
  [.callRestart false, .synthesized (.ok {}), .proceed, .proceed, .launched { spawn := .ok 7 },
    .release, .exited 1 (.exited (some 1) none), .poll 1, .report 1, .callStop, .proceed,
    .stopped (.ok ()), .proceed, .proceed]

theorem stop_prevails_afterCrash :
    ∃ w w', run? {} {} stoppedAfterCrash = some w ∧
      run? {} w [.release, .callRecovery 1] = some w' ∧ w'.supervisor.phase = .stopped ∧
      w'.supervisor.current = none ∧ w'.supervisor.generation = w.supervisor.generation ∧
      w'.supervisor.instances.map (·.id) = w.supervisor.instances.map (·.id) := by
  have unasked : ∀ force, Action.callRestart force ∉ [Action.callRecovery 1] := by simp
  refine ⟨_, _, rfl, rfl, ?_⟩
  exact stop_prevails ⟨stoppedAfterCrash, rfl⟩ rfl rfl unasked

end Supervision

end RelayControl
