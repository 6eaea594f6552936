import RelayControl.Proofs.Basic
import RelayControl.Supervisor.Interleaving

/-!
What a step of the supervision can do, said once. A restart takes the same way whether a caller or a
recovery asked for it, so the two share their cases.
-/

namespace RelayControl

/-- Who holds the lock for a restart: a caller, or the recovery from the death of a process. -/
inductive Starter where
  | caller (force : Bool)
  | recovery (origin : Nat)
  deriving DecidableEq, Repr

namespace Starter

def errand : Starter → RestartStage → Errand
  | .caller force, stage => .restart force stage
  | .recovery origin, stage => .recovery origin stage

def force : Starter → Bool
  | .caller force => force
  | .recovery _ => true

end Starter

namespace Supervision

def holds (w : Supervision) (supervisor : Supervisor) (errand : Errand) : Supervision :=
  { w with supervisor, lock := some errand }

def monitors (w : Supervision) (id : Nat) (watch : Watch) : Supervision :=
  { w with supervisor := w.supervisor.update id ({ · with watch }) }

inductive Step (p : ProcessSettings) (w : Supervision) : Action → Supervision → Prop where
  | callRestart (free : w.lock = none) (force : Bool) :
      Step p w (.callRestart force) { w with lock := some (.restart force .synthesizing) }
  | callStop (free : w.lock = none) : Step p w .callStop { w with lock := some (.stop .taking) }
  | callRecovery {origin expected : Nat} (free : w.lock = none)
      (queued : w.stageOf? origin = some (.queued expected))
      (current : w.supervisor.phase = .crashed ∧ w.supervisor.generation = expected) :
      Step p w (.callRecovery origin)
        { w.drop origin with lock := some (.recovery origin .synthesizing) }
  | giveUp {origin expected : Nat} (free : w.lock = none)
      (queued : w.stageOf? origin = some (.queued expected))
      (movedOn : ¬ (w.supervisor.phase = .crashed ∧ w.supervisor.generation = expected)) :
      Step p w (.callRecovery origin) (w.drop origin)
  | synthesized (starter : Starter) (held : w.lock = some (starter.errand .synthesizing))
      (outcome : Except Fault RelayConfig) :
      Step p w (.synthesized outcome)
        (w.holds w.supervisor
          (starter.errand (afterSynthesis w.supervisor starter.force outcome)))
  | takeOver (starter : Starter) {config : RelayConfig} {old : Nat}
      (held : w.lock = some (starter.errand (.replacing config)))
      (inCharge : w.supervisor.current = some old) :
      Step p w .proceed (w.holds w.supervisor.discard (starter.errand (.stopping config old)))
  | skipOver (starter : Starter) {config : RelayConfig}
      (held : w.lock = some (starter.errand (.replacing config)))
      (vacant : w.supervisor.current = none) :
      Step p w .proceed (w.holds w.supervisor (starter.errand (.announcing config)))
  | replaced (starter : Starter) {config : RelayConfig} {old : Nat}
      (held : w.lock = some (starter.errand (.stopping config old)))
      (outcome : Except String Unit) :
      Step p w (.stopped outcome)
        (w.holds (w.supervisor.stopProcess old) (starter.errand (.keeping config old)))
  | kept (starter : Starter) {config : RelayConfig} {old : Nat}
      (held : w.lock = some (starter.errand (.keeping config old))) :
      Step p w .proceed
        (w.holds (w.supervisor.keepResult old) (starter.errand (.announcing config)))
  | announced (starter : Starter) {config : RelayConfig}
      (held : w.lock = some (starter.errand (.announcing config))) :
      Step p w .proceed (w.holds w.supervisor.announce (starter.errand (.launching config)))
  | launched (starter : Starter) {config : RelayConfig}
      (held : w.lock = some (starter.errand (.launching config)))
      (conditions : LaunchConditions) {result : Except Fault Unit} {supervisor : Supervisor}
      (arrived : w.supervisor.arrive
        (RelayProcess.launch p conditions w.supervisor.generation config) = (result, supervisor)) :
      Step p w (.launched conditions) (w.holds supervisor (starter.errand (.returning result)))
  | restarted {force : Bool} {result : Except Fault Unit}
      (held : w.lock = some (.restart force (.returning result))) :
      Step p w .release { w with lock := none }
  | recovered {origin : Nat} (held : w.lock = some (.recovery origin (.returning (.ok ())))) :
      Step p w .release { w with lock := none }
  | recoveryFailed {origin : Nat} {f : Fault}
      (held : w.lock = some (.recovery origin (.returning (.error f)))) :
      Step p w .release { w.put origin .rereading with lock := none }
  | stopTake {old : Nat} (held : w.lock = some (.stop .taking))
      (inCharge : w.supervisor.current = some old) :
      Step p w .proceed
        (w.holds w.supervisor.discard (.stop (.stopping old w.supervisor.isRunning)))
  | stopSkip (held : w.lock = some (.stop .taking)) (vacant : w.supervisor.current = none) :
      Step p w .proceed (w.holds w.supervisor (.stop (.halting (.error .notRunning))))
  | stopEnded {old : Nat} {wasRunning : Bool}
      (held : w.lock = some (.stop (.stopping old wasRunning))) (outcome : Except String Unit) :
      Step p w (.stopped outcome)
        (w.holds (w.supervisor.stopProcess old)
          (.stop (.keeping old (stopResult wasRunning outcome))))
  | stopKept {old : Nat} {result : Except Fault Unit}
      (held : w.lock = some (.stop (.keeping old result))) :
      Step p w .proceed (w.holds (w.supervisor.keepResult old) (.stop (.halting result)))
  | stopHalted {result : Except Fault Unit} (held : w.lock = some (.stop (.halting result))) :
      Step p w .proceed (w.holds w.supervisor.halt (.stop (.returning result)))
  | stopReturned {result : Except Fault Unit} (held : w.lock = some (.stop (.returning result))) :
      Step p w .release { w with lock := none }
  | exited {id : Nat} {i : Instance} (found : w.supervisor.instance? id = some i)
      (alive : i.alive = true) (failure : ProcessFailure) :
      Step p w (.exited id failure) { w with supervisor := w.supervisor.exitProcess id failure }
  | printed (id : Nat) (lines : List String) :
      Step p w (.printed id lines) { w with supervisor := w.supervisor.print id lines }
  | pollCancelled {id : Nat} {i : Instance} (found : w.supervisor.instance? id = some i)
      (polling : i.watch = .polling) (cancelled : i.cancelled = true) :
      Step p w (.poll id) (w.monitors id .ended)
  | pollAlive {id : Nat} {i : Instance} (found : w.supervisor.instance? id = some i)
      (polling : i.watch = .polling) (wanted : i.cancelled = false) (alive : i.alive = true) :
      Step p w (.poll id) w
  | pollDead {id : Nat} {i : Instance} (found : w.supervisor.instance? id = some i)
      (polling : i.watch = .polling) (wanted : i.cancelled = false) (dead : i.alive = false) :
      Step p w (.poll id) (w.monitors id .reporting)
  | reported {id : Nat} {i : Instance} {supervisor : Supervisor}
      (found : w.supervisor.instance? id = some i) (reporting : i.watch = .reporting)
      (recorded : (w.monitors id .ended).supervisor.recordCrash id = (true, supervisor)) :
      Step p w (.report id) ({ w with supervisor }.put id (.queued id))
  | ignored {id : Nat} {i : Instance} {supervisor : Supervisor}
      (found : w.supervisor.instance? id = some i) (reporting : i.watch = .reporting)
      (unrecorded : (w.monitors id .ended).supervisor.recordCrash id = (false, supervisor)) :
      Step p w (.report id) { w with supervisor }
  | reread {origin : Nat} (failed : w.stageOf? origin = some .rereading) :
      Step p w (.reread origin) (w.put origin (.sleeping w.supervisor.generation))
  | wake {origin expected : Nat} (asleep : w.stageOf? origin = some (.sleeping expected)) :
      Step p w (.wake origin) (w.put origin (.queued expected))

variable {p : ProcessSettings} {w w' : Supervision}

theorem step_of_proceed (stepped : w.step? p .proceed = some w') : Step p w .proceed w' := by
  have starts (starter : Starter) {stage next : RestartStage} {supervisor : Supervisor}
      (held : w.lock = some (starter.errand stage))
      (progress : restartStep? w.supervisor stage = some (supervisor, next)) :
      Step p w .proceed (w.holds supervisor (starter.errand next)) := by
    cases stage with
    | replacing config =>
        simp only [restartStep?] at progress
        split at progress
        next inCharge => cases progress; exact .takeOver starter held inCharge
        next vacant => cases progress; exact .skipOver starter held vacant
    | keeping config old => cases progress; exact .kept starter held
    | announcing config => cases progress; exact .announced starter held
    | synthesizing | stopping | launching | returning => cases progress
  simp only [step?] at stepped
  split at stepped
  next force stage held =>
    obtain ⟨⟨supervisor, next⟩, progress, rfl⟩ := Option.map_eq_some_iff.mp stepped
    exact starts (.caller force) held progress
  next origin stage held =>
    obtain ⟨⟨supervisor, next⟩, progress, rfl⟩ := Option.map_eq_some_iff.mp stepped
    exact starts (.recovery origin) held progress
  next stage held =>
    obtain ⟨⟨supervisor, next⟩, progress, rfl⟩ := Option.map_eq_some_iff.mp stepped
    cases stage with
    | taking =>
        simp only [stopStep?] at progress
        split at progress
        next inCharge => cases progress; exact .stopTake held inCharge
        next vacant => cases progress; exact .stopSkip held vacant
    | keeping old result => cases progress; exact .stopKept held
    | halting result => cases progress; exact .stopHalted held
    | stopping | returning => cases progress
  next => cases stepped

theorem step_of_release (stepped : w.step? p .release = some w') : Step p w .release w' := by
  simp only [step?] at stepped
  split at stepped
  next held => cases stepped; exact .restarted held
  next held =>
    split at stepped
    next => cases stepped; exact .recovered held
    next => cases stepped; exact .recoveryFailed held
  next held => cases stepped; exact .stopReturned held
  next => cases stepped

theorem step_of_poll {id : Nat} (stepped : w.step? p (.poll id) = some w') :
    Step p w (.poll id) w' := by
  simp only [step?] at stepped
  split at stepped
  next i found =>
    split at stepped
    next polling =>
      split at stepped
      next cancelled => cases stepped; exact .pollCancelled found polling cancelled
      next wanted =>
        split at stepped
        next alive => cases stepped; exact .pollAlive found polling (by simpa using wanted) alive
        next dead =>
          cases stepped
          exact .pollDead found polling (by simpa using wanted) (by simpa using dead)
    next => cases stepped
  next => cases stepped

theorem step_of_report {id : Nat} (stepped : w.step? p (.report id) = some w') :
    Step p w (.report id) w' := by
  simp only [step?] at stepped
  split at stepped
  next i found =>
    split at stepped
    next reporting =>
      cases crash : (w.supervisor.update id ({ · with watch := .ended })).recordCrash id with
      | mk recorded supervisor =>
          rw [crash] at stepped
          cases recorded with
          | true => cases stepped; exact .reported found reporting crash
          | false => cases stepped; exact .ignored found reporting crash
    next => cases stepped
  next => cases stepped

theorem step_of_step? {a : Action} (stepped : w.step? p a = some w') : Step p w a w' := by
  cases a with
  | callRestart force =>
      simp only [step?] at stepped
      split at stepped
      next free => cases stepped; exact .callRestart free force
      next => cases stepped
  | callStop =>
      simp only [step?] at stepped
      split at stepped
      next free => cases stepped; exact .callStop free
      next => cases stepped
  | callRecovery origin =>
      simp only [step?] at stepped
      split at stepped
      next free queued =>
        split at stepped
        next current => cases stepped; exact .callRecovery free queued current
        next movedOn => cases stepped; exact .giveUp free queued movedOn
      next => cases stepped
  | synthesized outcome =>
      simp only [step?] at stepped
      split at stepped
      next force held => cases stepped; exact .synthesized (.caller force) held outcome
      next origin held =>
        cases stepped
        exact .synthesized (.recovery origin) held outcome
      next => cases stepped
  | proceed => exact step_of_proceed stepped
  | stopped outcome =>
      simp only [step?] at stepped
      split at stepped
      next force config old held =>
        cases stepped
        exact .replaced (.caller force) held outcome
      next origin config old held =>
        cases stepped
        exact .replaced (.recovery origin) held outcome
      next held => cases stepped; exact .stopEnded held outcome
      next => cases stepped
  | launched conditions =>
      simp only [step?] at stepped
      split at stepped
      next force config held =>
        cases stepped
        exact .launched (.caller force) held conditions rfl
      next origin config held =>
        cases stepped
        exact .launched (.recovery origin) held conditions rfl
      next => cases stepped
  | release => exact step_of_release stepped
  | exited id failure =>
      simp only [step?] at stepped
      split at stepped
      next i found =>
        split at stepped
        next alive => cases stepped; exact .exited found alive failure
        next => cases stepped
      next => cases stepped
  | printed id lines => cases stepped; exact .printed id lines
  | poll id => exact step_of_poll stepped
  | report id => exact step_of_report stepped
  | reread origin =>
      simp only [step?] at stepped
      split at stepped
      next failed => cases stepped; exact .reread failed
      next => cases stepped
  | wake origin =>
      simp only [step?] at stepped
      split at stepped
      next asleep => cases stepped; exact .wake asleep
      next => cases stepped

theorem run?_keeps {motive : Supervision → Prop} {actions : List Action}
    (keeps : ∀ {w a w'}, a ∈ actions → motive w → Step p w a w' → motive w')
    (initial : motive w) (ran : run? p w actions = some w') : motive w' := by
  induction actions generalizing w with
  | nil =>
      cases ran
      exact initial
  | cons a rest ih =>
      obtain ⟨middle, stepped, ran⟩ := Option.bind_eq_some_iff.mp ran
      have restKeeps : ∀ {w b w'}, b ∈ rest → motive w → Step p w b w' → motive w' :=
        fun member => keeps (List.mem_cons_of_mem a member)
      exact ih restKeeps (keeps List.mem_cons_self initial (step_of_step? stepped)) ran

end Supervision

end RelayControl
