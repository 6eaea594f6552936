import RelayControl.Supervisor.Interleaving

/-!
The supervisor among its tasks, one access to a shared cell at a time. Whoever holds the lifecycle
lock, the monitors and the recoveries go on between any two accesses. A monitor that reports keeps
reading who is in charge until it is done, so that nobody can change it meanwhile. Its last write
and the begin of the recovery it leads to are one step, for nobody can tell a recovery that has yet
to begin from one that has not got the lock yet (`run?_of_late_begin`).
-/

namespace RelayControl

namespace Supervisor

/-! The accesses that write. -/

def vacate (s : Supervisor) : Supervisor := { s with current := none }

def install (s : Supervisor) (id : Nat) : Supervisor := { s with current := some id }

def callOff (s : Supervisor) (id : Nat) : Supervisor := s.update id ({ · with cancelled := true })

def enter (s : Supervisor) (phase : Phase) : Supervisor := { s with phase }

def count (s : Supervisor) : Supervisor := { s with generation := s.generation + 1 }

def blame (s : Supervisor) (failure : ProcessFailure) : Supervisor :=
  { s with lastError := some failure }

def rewrite (s : Supervisor) (l : Launch) : Supervisor :=
  { s with written := l.written <|> s.written }

def enrol (s : Supervisor) (process : RelayProcess) : Supervisor :=
  { s with instances := { process } :: s.instances }

section Accesses

variable (s : Supervisor) (id : Nat) (phase : Phase) (failure : ProcessFailure) (l : Launch)
  (process : RelayProcess)

@[simp] theorem vacate_current : s.vacate.current = none := rfl

@[simp] theorem enter_phase : (s.enter phase).phase = phase := rfl

@[simp] theorem vacate_generation : s.vacate.generation = s.generation := rfl

@[simp] theorem install_generation : (s.install id).generation = s.generation := rfl

@[simp] theorem callOff_generation : (s.callOff id).generation = s.generation := rfl

@[simp] theorem enter_generation : (s.enter phase).generation = s.generation := rfl

@[simp] theorem count_generation : s.count.generation = s.generation + 1 := rfl

@[simp] theorem blame_generation : (s.blame failure).generation = s.generation := rfl

@[simp] theorem rewrite_generation : (s.rewrite l).generation = s.generation := rfl

@[simp] theorem enrol_generation : (s.enrol process).generation = s.generation := rfl

end Accesses

theorem discard_eq {s : Supervisor} {id : Nat} (inCharge : s.current = some id) :
    s.discard = s.vacate.callOff id := by
  unfold discard
  rw [inCharge]
  rfl

theorem announce_eq (s : Supervisor) : s.announce = (s.enter .starting).count := rfl

theorem arrive_eq_of_ok {s : Supervisor} {l : Launch} {process : RelayProcess}
    (launched : l.result = .ok process) :
    s.arrive l = (.ok (), (((s.rewrite l).enrol process).install process.id).enter .running) := by
  unfold arrive
  rw [launched]
  rfl

theorem arrive_eq_of_error {s : Supervisor} {l : Launch} {f : Fault}
    (failed : l.result = .error f) :
    s.arrive l =
      (.error f, ((s.rewrite l).blame (.startFailed f.message)).enter .crashed) := by
  unfold arrive
  rw [failed]
  rfl

theorem recordCrash_eq {s : Supervisor} {id : Nat} {i : Instance} (inCharge : s.current = some id)
    (found : s.instance? id = some i) :
    s.recordCrash id = (true, ((s.blame (failureOf i)).keepResult id).enter .crashed) := by
  have kept : (s.blame (failureOf i)).instance? id = some i := found
  unfold recordCrash keepResult
  rw [if_pos inCharge, found, kept]
  rfl

end Supervisor

namespace Interplay

/-- Who restarts the relay: a caller, or the recovery with a number. -/
inductive Starter where
  | caller (force : Bool)
  | recovery (task : Nat)
  deriving DecidableEq, Repr

def Starter.force : Starter → Bool
  | .caller force => force
  | .recovery _ => true

inductive Ending where
  | refused (f : Fault)
  | unchanged
  | started
  | failed (f : Fault)

def Ending.result : Ending → Except Fault Unit
  | .refused f | .failed f => .error f
  | .unchanged | .started => .ok ()

inductive RestartStage where
  | synthesizing
  | comparing (config : RelayConfig)
  | taking (config : RelayConfig)
  | callingOff (config : RelayConfig) (old : Nat)
  | stopping (config : RelayConfig) (old : Nat)
  | keeping (config : RelayConfig) (old : Nat)
  | entering (config : RelayConfig)
  | counting (config : RelayConfig)
  | launching (config : RelayConfig) (id : Nat)
  | installing (id : Nat)
  | announcing (id : Nat)
  | watching (id : Nat)
  | blaming (f : Fault)
  | failing (f : Fault)
  | returning (ending : Ending)

inductive StopStage where
  | taking
  | looking (old : Nat)
  | callingOff (old : Nat) (wasRunning : Bool)
  | stopping (old : Nat) (wasRunning : Bool)
  | keeping (old : Nat) (result : Except Fault Unit)
  | halting (result : Except Fault Unit)
  | returning (result : Except Fault Unit)

inductive Errand where
  | restart (starter : Starter) (stage : RestartStage)
  | stop (stage : StopStage)
  /-- A recovery looks whether the supervisor is still crashed. -/
  | checkingPhase (task : Nat)
  | checkingGeneration (task : Nat)
  | leaving (task : Nat)

inductive Vigil where
  | absent
  | polling
  /-- It saw the process dead. -/
  | doubting
  /-- It was not told to end. -/
  | reporting
  | blaming
  | keeping
  | marking
  | ended
  deriving DecidableEq, Repr

namespace Vigil

/-- Whether it keeps reading who is in charge. -/
def reads : Vigil → Bool
  | .blaming | .keeping | .marking => true
  | _ => false

def sawDead : Vigil → Bool
  | .doubting | .reporting | .blaming | .keeping | .marking => true
  | _ => false

def active : Vigil → Bool
  | .absent | .ended => false
  | _ => true

end Vigil

/-- What a recovery does next; the number is the generation that it expects. -/
inductive RecoveryStage where
  | waiting (expected : Nat)
  | holding (expected : Nat)
  /-- It gave the lock back after an attempt that failed. -/
  | rereading
  | sleeping (expected : Nat)
  | finished
  deriving DecidableEq, Repr

structure Recovery where
  origin : Nat
  stage : RecoveryStage
  deriving DecidableEq, Repr

inductive Action where
  | callRestart (force : Bool)
  | callStop
  | callRecovery (task : Nat)
  | synthesized (outcome : Except Fault RelayConfig)
  | proceed
  | stopped (outcome : Except String Unit)
  | launched (conditions : LaunchConditions)
  | release
  | exited (id : Nat) (failure : ProcessFailure)
  | printed (id : Nat) (lines : List String)
  /-- The monitor of a process looks whether it is alive. -/
  | look (id : Nat)
  /-- The monitor of a process hears while it waits that it is to end. -/
  | hear (id : Nat)
  | advance (id : Nat)
  | reread (task : Nat)
  | wake (task : Nat)

namespace Action

def monitor? : Action → Option Nat
  | .look id | .hear id | .advance id => some id
  | _ => none

def isLaunch : Action → Bool
  | .launched _ => true
  | _ => false

end Action

end Interplay

structure Interplay where
  supervisor : Supervisor := {}
  lock : Option Interplay.Errand := none
  monitor : Nat → Interplay.Vigil := fun _ => .absent
  /-- Every recovery that was begun; its place is its number. -/
  recoveries : List Interplay.Recovery := []

namespace Interplay

def stageOf? (w : Interplay) (task : Nat) : Option RecoveryStage :=
  (w.recoveries[task]?).map (·.stage)

def move (w : Interplay) (task : Nat) (stage : RecoveryStage) : Interplay :=
  { w with recoveries := w.recoveries.modify task ({ · with stage }) }

def begin (w : Interplay) (origin : Nat) : Interplay :=
  { w with recoveries := w.recoveries ++ [⟨origin, .waiting origin⟩] }

def watch (w : Interplay) (id : Nat) (vigil : Vigil) : Interplay :=
  { w with monitor := fun other => if other = id then vigil else w.monitor other }

def sets (w : Interplay) (supervisor : Supervisor) : Interplay := { w with supervisor }

def holds (w : Interplay) (errand : Errand) : Interplay := { w with lock := some errand }

def frees (w : Interplay) : Interplay := { w with lock := none }

section Parts

variable (w : Interplay) (task id : Nat) (stage : RecoveryStage) (vigil : Vigil) (s : Supervisor)
  (errand : Errand)

@[simp] theorem move_supervisor : (w.move task stage).supervisor = w.supervisor := rfl

@[simp] theorem move_lock : (w.move task stage).lock = w.lock := rfl

@[simp] theorem move_monitor : (w.move task stage).monitor = w.monitor := rfl

@[simp] theorem begin_supervisor : (w.begin id).supervisor = w.supervisor := rfl

@[simp] theorem begin_lock : (w.begin id).lock = w.lock := rfl

@[simp] theorem begin_monitor : (w.begin id).monitor = w.monitor := rfl

@[simp] theorem watch_supervisor : (w.watch id vigil).supervisor = w.supervisor := rfl

@[simp] theorem watch_lock : (w.watch id vigil).lock = w.lock := rfl

@[simp] theorem watch_recoveries : (w.watch id vigil).recoveries = w.recoveries := rfl

@[simp] theorem sets_supervisor : (w.sets s).supervisor = s := rfl

@[simp] theorem sets_lock : (w.sets s).lock = w.lock := rfl

@[simp] theorem sets_monitor : (w.sets s).monitor = w.monitor := rfl

@[simp] theorem sets_recoveries : (w.sets s).recoveries = w.recoveries := rfl

@[simp] theorem holds_supervisor : (w.holds errand).supervisor = w.supervisor := rfl

@[simp] theorem holds_lock : (w.holds errand).lock = some errand := rfl

@[simp] theorem holds_monitor : (w.holds errand).monitor = w.monitor := rfl

@[simp] theorem holds_recoveries : (w.holds errand).recoveries = w.recoveries := rfl

@[simp] theorem frees_supervisor : w.frees.supervisor = w.supervisor := rfl

@[simp] theorem frees_lock : w.frees.lock = none := rfl

@[simp] theorem frees_monitor : w.frees.monitor = w.monitor := rfl

@[simp] theorem frees_recoveries : w.frees.recoveries = w.recoveries := rfl

end Parts

theorem watch_monitor (w : Interplay) (id other : Nat) (vigil : Vigil) :
    (w.watch id vigil).monitor other = if other = id then vigil else w.monitor other := rfl

@[simp] theorem watch_monitor_self (w : Interplay) (id : Nat) (vigil : Vigil) :
    (w.watch id vigil).monitor id = vigil := by
  simp [watch]

theorem watch_monitor_of_ne (w : Interplay) {id other : Nat} (vigil : Vigil)
    (differs : other ≠ id) : (w.watch id vigil).monitor other = w.monitor other := by
  simp [watch, differs]

def guarded (w : Interplay) : Bool :=
  w.supervisor.instances.any fun i => (w.monitor i.id).reads

def taken? (w : Interplay) : Option (Interplay × Option Nat) :=
  if w.guarded then none else some (w.sets w.supervisor.vacate, w.supervisor.current)

def afterSynthesis (force : Bool) : Except Fault RelayConfig → RestartStage
  | .error f => .returning (.refused f)
  | .ok config => if force then .taking config else .comparing config

def restartStep? (w : Interplay) : RestartStage → Option (Interplay × RestartStage)
  | .comparing config =>
      some (w, if w.supervisor.runs config then .returning .unchanged else .taking config)
  | .taking config =>
      w.taken?.map fun
        | (w, some old) => (w, .callingOff config old)
        | (w, none) => (w, .entering config)
  | .callingOff config old => some (w.sets (w.supervisor.callOff old), .stopping config old)
  | .keeping config old => some (w.sets (w.supervisor.keepResult old), .entering config)
  | .entering config => some (w.sets (w.supervisor.enter .starting), .counting config)
  | .counting config =>
      some (w.sets w.supervisor.count, .launching config (w.supervisor.generation + 1))
  | .installing id =>
      if w.guarded then none else some (w.sets (w.supervisor.install id), .announcing id)
  | .announcing id => some (w.sets (w.supervisor.enter .running), .watching id)
  | .watching id => some (w.watch id .polling, .returning .started)
  | .blaming f => some (w.sets (w.supervisor.blame (.startFailed f.message)), .failing f)
  | .failing f => some (w.sets (w.supervisor.enter .crashed), .returning (.failed f))
  | _ => none

def stopStep? (w : Interplay) : StopStage → Option (Interplay × StopStage)
  | .taking =>
      w.taken?.map fun
        | (w, some old) => (w, .looking old)
        | (w, none) => (w, .halting (.error .notRunning))
  | .looking old => some (w, .callingOff old ((w.supervisor.instance? old).any Instance.alive))
  | .callingOff old wasRunning =>
      some (w.sets (w.supervisor.callOff old), .stopping old wasRunning)
  | .keeping old result => some (w.sets (w.supervisor.keepResult old), .halting result)
  | .halting result => some (w.sets w.supervisor.halt, .returning result)
  | _ => none

def proceed? (w : Interplay) : Errand → Option Interplay
  | .restart starter stage =>
      (w.restartStep? stage).map fun (w, stage) => w.holds (.restart starter stage)
  | .stop stage => (w.stopStep? stage).map fun (w, stage) => w.holds (.stop stage)
  | .checkingPhase task =>
      if w.supervisor.phase = .crashed then some (w.holds (.checkingGeneration task))
      else some (w.holds (.leaving task))
  | .checkingGeneration task =>
      if w.stageOf? task = some (.holding w.supervisor.generation) then
        some (w.holds (.restart (.recovery task) .synthesizing))
      else some (w.holds (.leaving task))
  | .leaving _ => none

def release? (w : Interplay) : Errand → Option Interplay
  | .restart (.caller _) (.returning _) => some w.frees
  | .restart (.recovery task) (.returning ending) =>
      match ending.result with
      | .ok () => some (w.move task .finished).frees
      | .error _ => some (w.move task .rereading).frees
  | .stop (.returning _) => some w.frees
  | .leaving task => some (w.move task .finished).frees
  | _ => none

def advance? (w : Interplay) (id : Nat) (i : Instance) : Option Interplay :=
  match w.monitor id with
  | .doubting => some (w.watch id (if i.cancelled then .ended else .reporting))
  | .reporting =>
      some (w.watch id (if w.supervisor.current = some id then .blaming else .ended))
  | .blaming =>
      some ((w.sets (w.supervisor.blame (Supervisor.failureOf i))).watch id .keeping)
  | .keeping => some ((w.sets (w.supervisor.keepResult id)).watch id .marking)
  | .marking => some (((w.sets (w.supervisor.enter .crashed)).watch id .ended).begin id)
  | _ => none

def step? (p : ProcessSettings) (w : Interplay) : Action → Option Interplay
  | .callRestart force =>
      if w.lock.isNone then some (w.holds (.restart (.caller force) .synthesizing)) else none
  | .callStop => if w.lock.isNone then some (w.holds (.stop .taking)) else none
  | .callRecovery task =>
      match w.lock, w.stageOf? task with
      | none, some (.waiting expected) =>
          some ((w.move task (.holding expected)).holds (.checkingPhase task))
      | _, _ => none
  | .synthesized outcome =>
      match w.lock with
      | some (.restart starter .synthesizing) =>
          some (w.holds (.restart starter (afterSynthesis starter.force outcome)))
      | _ => none
  | .proceed => w.lock.bind w.proceed?
  | .stopped outcome =>
      match w.lock with
      | some (.restart starter (.stopping config old)) =>
          some ((w.sets (w.supervisor.stopProcess old)).holds
            (.restart starter (.keeping config old)))
      | some (.stop (.stopping old wasRunning)) =>
          some ((w.sets (w.supervisor.stopProcess old)).holds
            (.stop (.keeping old (Supervision.stopResult wasRunning outcome))))
      | _ => none
  | .launched conditions =>
      match w.lock with
      | some (.restart starter (.launching config id)) =>
          let launch := RelayProcess.launch p conditions id config
          match launch.result with
          | .ok process =>
              some ((w.sets ((w.supervisor.rewrite launch).enrol process)).holds
                (.restart starter (.installing id)))
          | .error f =>
              some ((w.sets (w.supervisor.rewrite launch)).holds (.restart starter (.blaming f)))
      | _ => none
  | .release => w.lock.bind w.release?
  | .exited id failure =>
      match w.supervisor.instance? id with
      | some i => if i.alive then some (w.sets (w.supervisor.exitProcess id failure)) else none
      | none => none
  | .printed id lines => some (w.sets (w.supervisor.print id lines))
  | .look id =>
      match w.supervisor.instance? id with
      | some i =>
          if w.monitor id = .polling then
            some (if i.alive then w else w.watch id .doubting)
          else none
      | none => none
  | .hear id =>
      match w.supervisor.instance? id with
      | some i =>
          if w.monitor id = .polling ∧ i.cancelled = true then some (w.watch id .ended) else none
      | none => none
  | .advance id => (w.supervisor.instance? id).bind (w.advance? id)
  | .reread task =>
      if w.stageOf? task = some .rereading then
        some (w.move task (.sleeping w.supervisor.generation))
      else none
  | .wake task =>
      match w.stageOf? task with
      | some (.sleeping expected) => some (w.move task (.waiting expected))
      | _ => none

def run? (p : ProcessSettings) (w : Interplay) : List Action → Option Interplay
  | [] => some w
  | a :: rest => (w.step? p a).bind (run? p · rest)

def Reachable (p : ProcessSettings) (w : Interplay) : Prop :=
  ∃ actions, run? p {} actions = some w

/-! What of a run counts for those who look back on it. -/

inductive Event where
  | stopCalled
  | stopReturned (result : Except Fault Unit)
  | passed (starter : Starter)
  /-- A restart takes the number of its start. -/
  | begun (starter : Starter) (id : Nat)
  | started (starter : Starter) (id : Nat)
  | restartReturned (starter : Starter) (ending : Ending)
  /-- A monitor recorded the crash of a process and began the recovery with a number. -/
  | reported (id : Nat) (task : Nat)
  | reread (task : Nat)
  | gaveUp (task : Nat)

namespace Event

def reports (id : Nat) : Event → Bool
  | .reported other _ => other == id
  | _ => false

end Event

def releaseEvent? : Errand → Option Event
  | .restart starter (.returning ending) => some (.restartReturned starter ending)
  | .stop (.returning result) => some (.stopReturned result)
  | .leaving task => some (.gaveUp task)
  | _ => none

def event? (p : ProcessSettings) (w : Interplay) : Action → Option Event
  | .callStop => some .stopCalled
  | .synthesized (.ok _) =>
      match w.lock with
      | some (.restart starter _) => some (.passed starter)
      | _ => none
  | .proceed =>
      match w.lock with
      | some (.restart starter (.counting _)) =>
          some (.begun starter (w.supervisor.generation + 1))
      | _ => none
  | .launched conditions =>
      match w.lock with
      | some (.restart starter (.launching config id)) =>
          match (RelayProcess.launch p conditions id config).result with
          | .ok _ => some (.started starter id)
          | .error _ => none
      | _ => none
  | .release => w.lock.bind releaseEvent?
  | .advance id =>
      if w.monitor id = .marking then some (.reported id w.recoveries.length) else none
  | .reread task => some (.reread task)
  | _ => none

def journal (p : ProcessSettings) (w : Interplay) : List Action → List Event
  | [] => []
  | a :: rest =>
      match w.step? p a with
      | some next => (w.event? p a).toList ++ journal p next rest
      | none => []

end Interplay

end RelayControl
