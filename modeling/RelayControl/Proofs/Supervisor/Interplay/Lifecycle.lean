import RelayControl.Proofs.Supervisor.Interplay.Soundness

/-!
What holds of the coarser interleaving holds one access at a time as well: at most one relay is
alive, and a stop prevails over monitors and recoveries wherever it finds them.
-/

namespace RelayControl

namespace Interplay

variable {p : ProcessSettings} {w w' : Interplay} {a : Action} {e : Option Event}

/-! One relay. -/

theorem Fits.alone {lock : Option Errand} (fits : w.Fits lock) :
    ∃ last? : Option Nat, ∀ id, (id, true) ∈ w.supervisor.census → last? = some id := by
  have arriving {id : Nat} {inCharge : Option Nat} {phase : Phase}
      (arriving : Arriving w id inCharge phase) :
      ∃ last? : Option Nat, ∀ id, (id, true) ∈ w.supervisor.census → last? = some id :=
    ⟨some id, fun other alive => congrArg some (arriving.alone other alive).symm⟩
  cases lock with
  | none => exact ⟨_, Settled.alone fits⟩
  | some errand =>
      cases errand with
      | checkingPhase | checkingGeneration | leaving => exact ⟨_, Settled.alone fits⟩
      | restart starter stage =>
          cases stage with
          | synthesizing | comparing | taking | returning => exact ⟨_, Settled.alone fits⟩
          | callingOff | stopping | keeping | entering => exact ⟨_, Vacant.alone fits⟩
          | counting | blaming | failing => exact ⟨_, fits.1.alone⟩
          | launching => exact ⟨_, fits.vacant.alone⟩
          | installing | announcing | watching => exact arriving fits
      | stop stage =>
          cases stage with
          | taking => exact ⟨_, Settled.alone fits⟩
          | looking | callingOff | stopping | keeping | halting => exact ⟨_, Vacant.alone fits⟩
          | returning => exact ⟨_, fits.1.alone⟩

/--
Wherever callers, monitors, recoveries and processes are, at most one started process is alive, and
while nobody holds the lifecycle lock it is the one in charge.
-/
theorem one_alive (reachable : Reachable p w) :
    (w.supervisor.instances.filter (·.alive)).length ≤ 1 ∧
      (w.lock = none → ∀ i ∈ w.supervisor.instances, i.alive = true →
        w.supervisor.currentInstance? = some i) := by
  have sound := reachable.sound
  have fits := sound.fits
  constructor
  · obtain ⟨last?, alone⟩ := Fits.alone fits
    apply Supervisor.length_alive_le_one sound.distinct
    intro id other first second
    exact Option.some.inj ((alone id first).symm.trans (alone other second))
  · intro free i member alive
    rw [free] at fits
    have living := Supervisor.mem_census_of_alive member alive
    exact Supervisor.currentInstance?_of_mem sound.distinct member (Settled.alone fits i.id living)

/-! Stops. -/

def Errand.idle : Errand → Bool
  | .stop _ | .checkingPhase _ | .leaving _ => true
  | .restart .. | .checkingGeneration _ => false

/-- Nothing is in charge, and whoever holds the lock leaves it so. -/
structure AtRest (ids : List Nat) (generation : Nat) (w : Interplay) : Prop where
  stopped : w.supervisor.phase = .stopped
  vacant : w.supervisor.current = none
  idle : ∀ errand, w.lock = some errand → errand.idle = true
  started : w.supervisor.ids = ids
  numbered : w.supervisor.generation = generation

namespace AtRest

variable {ids : List Nat} {generation : Nat}

theorem of_same (rest : AtRest ids generation w)
    (phase : w'.supervisor.phase = w.supervisor.phase)
    (current : w'.supervisor.current = w.supervisor.current)
    (started : w'.supervisor.ids = w.supervisor.ids)
    (numbered : w'.supervisor.generation = w.supervisor.generation)
    (idle : ∀ errand, w'.lock = some errand → errand.idle = true) : AtRest ids generation w' where
  stopped := phase.trans rest.stopped
  vacant := current.trans rest.vacant
  idle := idle
  started := started.trans rest.started
  numbered := numbered.trans rest.numbered

theorem of_quieter {v : Interplay} (rest : AtRest ids generation w) (quieter : Quieter w v)
    (same : w'.supervisor = v.supervisor)
    (idle : ∀ errand, w'.lock = some errand → errand.idle = true) : AtRest ids generation w' := by
  apply rest.of_same _ _ _ _ idle
  · rw [same, quieter.phase]
  · rw [same, quieter.current]
  · rw [same, quieter.ids]
  · rw [same, quieter.generation]

theorem step (rest : AtRest ids generation w) (sound : Sound w)
    (unasked : ∀ force, a ≠ .callRestart force) (step : Step p w a e w') :
    AtRest ids generation w' := by
  have held {errand : Errand} (idle : errand.idle = true) :
      ∀ other, some errand = some other → other.idle = true := by
    rintro other ⟨⟩
    exact idle
  have freed : ∀ other, (none : Option Errand) = some other → other.idle = true := by
    rintro other ⟨⟩
  cases step with
  | callRestart _ force => exact absurd rfl (unasked force)
  | callStop | callRecovery | stopLooked | sawOther =>
      exact rest.of_same rfl rfl rfl rfl (held rfl)
  | stopSkip _ _ vacant => exact rest.of_same rfl vacant.symm rfl rfl (held rfl)
  | stopHalted => exact rest.of_same rest.stopped.symm rfl rfl rfl (held rfl)
  | stopCalledOff => exact rest.of_quieter (.calledOff w _) rfl (held rfl)
  | stopEnded => exact rest.of_quieter (.stopped w _) rfl (held rfl)
  | stopKept => exact rest.of_quieter (.kept w _) rfl (held rfl)
  | gaveUp | stopReturned => exact rest.of_same rfl rfl rfl rfl freed
  | refused _ busy | passed _ busy | unchanged _ busy | differs _ busy | takeOver _ busy
  | skipOver _ busy | calledOff _ busy | replaced _ busy | kept _ busy | entered _ busy
  | counted _ busy | launched _ busy | launchFailed _ busy | installed _ busy | announced _ busy
  | watched _ busy | blamed _ busy | failed _ busy | returned busy | recovered busy
  | attemptFailed busy | sawSame busy | sawNewer busy => cases rest.idle _ busy
  | stopTake _ _ inCharge => cases rest.vacant.symm.trans inCharge
  | sawCrash _ crashed => cases rest.stopped.symm.trans crashed
  | exited => exact rest.of_quieter (.exited w _ _) rfl rest.idle
  | printed => exact rest.of_quieter (.printed w _ _) rfl rest.idle
  | keeps => exact rest.of_quieter (.kept w _) rfl rest.idle
  | lookedAlive | lookedDead | heard | excused | confirmed | claimed | superseded | blames
  | rereads | wakes => exact rest.of_same rfl rfl rfl rfl rest.idle
  | marks _ marking =>
      -- A monitor records a crash only of what it still finds in charge.
      have inCharge := sound.monitored.reading _ (by rw [marking]; rfl)
      cases rest.vacant.symm.trans inCharge

theorem run {actions : List Action} (rest : AtRest ids generation w) (sound : Sound w)
    (unasked : ∀ force, .callRestart force ∉ actions) (ran : run? p w actions = some w') :
    AtRest ids generation w' := by
  induction actions generalizing w with
  | nil =>
      cases ran
      exact rest
  | cons a later ih =>
      obtain ⟨middle, stepped, ran⟩ := run?_cons_eq_some.mp ran
      have step := step_of_step? stepped
      have other : ∀ force, a ≠ .callRestart force := by
        rintro force rfl
        exact unasked force List.mem_cons_self
      exact ih (rest.step sound other step) (sound.step step)
        (fun force member => unasked force (.tail _ member)) ran

end AtRest

/--
A stop that gives the lock back, with whatever result, leaves the supervisor stopped with nothing in
charge. It stays so, with no start even attempted, until a caller takes the lock for a restart.
-/
theorem stopped_until_called {result : Except Fault Unit} {after : List Action}
    (reachable : Reachable p w) (returning : w.lock = some (.stop (.returning result)))
    (ran : run? p w (.release :: after) = some w')
    (unasked : ∀ force, .callRestart force ∉ after) :
    w'.supervisor.phase = .stopped ∧ w'.supervisor.current = none ∧
      w'.supervisor.generation = w.supervisor.generation ∧
      w'.supervisor.ids = w.supervisor.ids := by
  have sound := reachable.sound
  have fits := sound.fits
  rw [returning] at fits
  obtain ⟨settled, stopped⟩ := fits
  have rest : AtRest w.supervisor.ids w.supervisor.generation w := by
    refine ⟨stopped, settled.stopped stopped, ?_, rfl, rfl⟩
    intro errand held
    cases returning.symm.trans held
    rfl
  have quiet : ∀ force, .callRestart force ∉ .release :: after := by
    intro force member
    rcases List.mem_cons.mp member with equal | member
    · cases equal
    · exact unasked force member
  have later := rest.run sound quiet ran
  exact ⟨later.stopped, later.vacant, later.numbered, later.started⟩

end Interplay

end RelayControl
