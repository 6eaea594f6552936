import RelayControl.Supervisor

/-!
The supervisor among its callers. Restarts, stops and attempts to recover hold the lifecycle lock
from their first step to their last; monitors, exits of processes and the waiting of recoveries go
on in between. Every action is one atomic step, and a run is a list of actions.
-/

namespace RelayControl

inductive RestartStage where
  | synthesizing
  | replacing (config : RelayConfig)
  | stopping (config : RelayConfig) (old : Nat)
  | keeping (config : RelayConfig) (old : Nat)
  | announcing (config : RelayConfig)
  | launching (config : RelayConfig)
  | returning (result : Except Fault Unit)

inductive StopStage where
  | taking
  | stopping (old : Nat) (wasRunning : Bool)
  | keeping (old : Nat) (result : Except Fault Unit)
  | halting (result : Except Fault Unit)
  | returning (result : Except Fault Unit)

/-- What the lifecycle lock is held for; a recovery goes by the number of the process that died. -/
inductive Errand where
  | restart (force : Bool) (stage : RestartStage)
  | recovery (origin : Nat) (stage : RestartStage)
  | stop (stage : StopStage)

inductive RecoveryStage where
  | queued (expected : Nat)
  /-- Gave the lock back after an attempt that failed. -/
  | rereading
  | sleeping (expected : Nat)
  deriving DecidableEq, Repr

structure Recovery where
  origin : Nat
  stage : RecoveryStage
  deriving DecidableEq, Repr

structure Supervision where
  supervisor : Supervisor := {}
  lock : Option Errand := none
  recoveries : List Recovery := []

inductive Action where
  /-- A caller other than a recovery takes the lock for a restart. -/
  | callRestart (force : Bool)
  | callStop
  /-- A recovery takes the lock, or gives up because the supervisor moved on. -/
  | callRecovery (origin : Nat)
  | synthesized (outcome : Except Fault RelayConfig)
  /-- The holder of the lock does a step that asks nothing of its surroundings. -/
  | proceed
  | stopped (outcome : Except String Unit)
  | launched (conditions : LaunchConditions)
  | release
  | exited (id : Nat) (failure : ProcessFailure)
  | printed (id : Nat) (lines : List String)
  /-- The monitor of a process looks at it. -/
  | poll (id : Nat)
  | report (id : Nat)
  | reread (origin : Nat)
  | wake (origin : Nat)

namespace Supervision

def stageOf? (w : Supervision) (origin : Nat) : Option RecoveryStage :=
  (w.recoveries.find? (·.origin == origin)).map (·.stage)

def drop (w : Supervision) (origin : Nat) : Supervision :=
  { w with recoveries := w.recoveries.filter (·.origin != origin) }

def put (w : Supervision) (origin : Nat) (stage : RecoveryStage) : Supervision :=
  { w with recoveries := ⟨origin, stage⟩ :: w.recoveries.filter (·.origin != origin) }

def afterSynthesis (s : Supervisor) (force : Bool) : Except Fault RelayConfig → RestartStage
  | .error f => .returning (.error f)
  | .ok config => if !force && s.runs config then .returning (.ok ()) else .replacing config

def restartStep? (s : Supervisor) : RestartStage → Option (Supervisor × RestartStage)
  | .replacing config =>
      match s.current with
      | some old => some (s.discard, .stopping config old)
      | none => some (s, .announcing config)
  | .keeping config old => some (s.keepResult old, .announcing config)
  | .announcing config => some (s.announce, .launching config)
  | _ => none

def stopStep? (s : Supervisor) : StopStage → Option (Supervisor × StopStage)
  | .taking =>
      match s.current with
      | some old => some (s.discard, .stopping old s.isRunning)
      | none => some (s, .halting (.error .notRunning))
  | .keeping old result => some (s.keepResult old, .halting result)
  | .halting result => some (s.halt, .returning result)
  | _ => none

def stopResult (wasRunning : Bool) (outcome : Except String Unit) : Except Fault Unit :=
  if wasRunning then
    match outcome with
    | .ok () => .ok ()
    | .error reason => .error (.stopFailed reason)
  else .error .notRunning

/-- The world after an action; none where the action cannot happen. -/
def step? (p : ProcessSettings) (w : Supervision) : Action → Option Supervision
  | .callRestart force =>
      match w.lock with
      | none => some { w with lock := some (.restart force .synthesizing) }
      | some _ => none
  | .callStop =>
      match w.lock with
      | none => some { w with lock := some (.stop .taking) }
      | some _ => none
  | .callRecovery origin =>
      match w.lock, w.stageOf? origin with
      | none, some (.queued expected) =>
          if w.supervisor.phase = .crashed ∧ w.supervisor.generation = expected then
            some { w.drop origin with lock := some (.recovery origin .synthesizing) }
          else some (w.drop origin)
      | _, _ => none
  | .synthesized outcome =>
      match w.lock with
      | some (.restart force .synthesizing) =>
          some { w with lock := some (.restart force (afterSynthesis w.supervisor force outcome)) }
      | some (.recovery origin .synthesizing) =>
          some { w with lock := some (.recovery origin (afterSynthesis w.supervisor true outcome)) }
      | _ => none
  | .proceed =>
      match w.lock with
      | some (.restart force stage) =>
          (restartStep? w.supervisor stage).map fun (supervisor, stage) =>
            { w with supervisor, lock := some (.restart force stage) }
      | some (.recovery origin stage) =>
          (restartStep? w.supervisor stage).map fun (supervisor, stage) =>
            { w with supervisor, lock := some (.recovery origin stage) }
      | some (.stop stage) =>
          (stopStep? w.supervisor stage).map fun (supervisor, stage) =>
            { w with supervisor, lock := some (.stop stage) }
      | none => none
  | .stopped outcome =>
      match w.lock with
      | some (.restart force (.stopping config old)) =>
          some { w with
            supervisor := w.supervisor.stopProcess old
            lock := some (.restart force (.keeping config old)) }
      | some (.recovery origin (.stopping config old)) =>
          some { w with
            supervisor := w.supervisor.stopProcess old
            lock := some (.recovery origin (.keeping config old)) }
      | some (.stop (.stopping old wasRunning)) =>
          some { w with
            supervisor := w.supervisor.stopProcess old
            lock := some (.stop (.keeping old (stopResult wasRunning outcome))) }
      | _ => none
  | .launched conditions =>
      match w.lock with
      | some (.restart force (.launching config)) =>
          let (result, supervisor) := w.supervisor.arrive
            (RelayProcess.launch p conditions w.supervisor.generation config)
          some { w with supervisor, lock := some (.restart force (.returning result)) }
      | some (.recovery origin (.launching config)) =>
          let (result, supervisor) := w.supervisor.arrive
            (RelayProcess.launch p conditions w.supervisor.generation config)
          some { w with supervisor, lock := some (.recovery origin (.returning result)) }
      | _ => none
  | .release =>
      match w.lock with
      | some (.restart _ (.returning _)) => some { w with lock := none }
      | some (.recovery origin (.returning result)) =>
          match result with
          | .ok () => some { w with lock := none }
          | .error _ => some { w.put origin .rereading with lock := none }
      | some (.stop (.returning _)) => some { w with lock := none }
      | _ => none
  | .exited id failure =>
      match w.supervisor.instance? id with
      | some i =>
          if i.alive then some { w with supervisor := w.supervisor.exitProcess id failure }
          else none
      | none => none
  | .printed id lines => some { w with supervisor := w.supervisor.print id lines }
  | .poll id =>
      match w.supervisor.instance? id with
      | some i =>
          if i.watch = .polling then
            if i.cancelled then
              some { w with supervisor := w.supervisor.update id ({ · with watch := .ended }) }
            else if i.alive then some w
            else some { w with supervisor := w.supervisor.update id ({ · with watch := .reporting }) }
          else none
      | none => none
  | .report id =>
      match w.supervisor.instance? id with
      | some i =>
          if i.watch = .reporting then
            let ended := w.supervisor.update id ({ · with watch := .ended })
            let (recorded, supervisor) := ended.recordCrash id
            let w := { w with supervisor }
            some (if recorded then w.put id (.queued id) else w)
          else none
      | none => none
  | .reread origin =>
      match w.stageOf? origin with
      | some .rereading => some (w.put origin (.sleeping w.supervisor.generation))
      | _ => none
  | .wake origin =>
      match w.stageOf? origin with
      | some (.sleeping expected) => some (w.put origin (.queued expected))
      | _ => none

def run? (p : ProcessSettings) (w : Supervision) : List Action → Option Supervision
  | [] => some w
  | a :: rest => (w.step? p a).bind (run? p · rest)

def Reachable (p : ProcessSettings) (w : Supervision) : Prop :=
  ∃ actions, run? p {} actions = some w

@[simp] theorem run?_nil (p : ProcessSettings) (w : Supervision) : run? p w [] = some w := rfl

theorem Reachable.start (p : ProcessSettings) : Reachable p {} := ⟨[], rfl⟩

theorem run?_append (p : ProcessSettings) (w : Supervision) (first second : List Action) :
    run? p w (first ++ second) = (run? p w first).bind (run? p · second) := by
  induction first generalizing w with
  | nil => rfl
  | cons a rest ih =>
      simp only [List.cons_append, run?]
      cases w.step? p a with
      | none => rfl
      | some w => simp [ih]

theorem Reachable.step {p : ProcessSettings} {w w' : Supervision} {a : Action}
    (h : Reachable p w) (step : w.step? p a = some w') : Reachable p w' := by
  obtain ⟨actions, run⟩ := h
  exact ⟨actions ++ [a], by simp [run?_append, run, run?, step]⟩

end Supervision

end RelayControl
