import RelayControl.Proofs.Supervisor.Interplay.Launches
import RelayControl.Proofs.Supervisor.Interplay.Solo

/-!
Restarts that come to the same configuration again. Once an instance was started with it they leave
that instance alone, until it is stopped or dies.
-/

namespace RelayControl

namespace Interplay

variable {p : ProcessSettings} {w w' : Interplay} {a : Action} {e : Option Event} {id : Nat}

/-- Nobody stops the relay or forces a restart, and no process dies by itself. -/
def Action.peaceful : Action → Bool
  | .callRestart force => !force
  | .callStop | .callRecovery _ | .exited .. => false
  | _ => true

def configsOf (actions : List Action) : List RelayConfig :=
  actions.filterMap fun
    | .synthesized (.ok config) => some config
    | _ => none

def Event.isStart : Event → Bool
  | .started .. => true
  | _ => false

def RestartStage.config? : RestartStage → Option RelayConfig
  | .comparing config | .taking config | .callingOff config _ | .stopping config _
  | .keeping config _ | .entering config | .counting config | .launching config _ => some config
  | _ => none

/-- Whether a restart at this stage leaves alone what is in charge, or puts it in charge. -/
def RestartStage.idle : RestartStage → Bool
  | .synthesizing | .comparing _ | .installing _ | .announcing _ | .watching _ | .returning _ => true
  | _ => false

section Calls

variable {pool : List RelayConfig}

def Calling (pool : List RelayConfig) (w : Interplay) : Prop :=
  w.lock = none ∨ ∃ stage, w.lock = some (.restart (.caller false) stage) ∧
    ∀ config, stage.config? = some config → config ∈ pool

theorem Calling.restart (calling : Calling pool w) {starter : Starter} {stage : RestartStage}
    (held : w.lock = some (.restart starter stage)) :
    starter = .caller false ∧ ∀ config, stage.config? = some config → config ∈ pool := by
  rcases calling with free | ⟨stage', held', known⟩
  · cases free.symm.trans held
  · cases held'.symm.trans held
    exact ⟨rfl, known⟩

theorem Calling.not_foreign (calling : Calling pool w) {errand : Errand}
    (other : ∀ stage, errand ≠ .restart (.caller false) stage) : w.lock ≠ some errand := by
  intro held
  rcases calling with free | ⟨stage, held', -⟩
  · cases free.symm.trans held
  · exact other stage (Option.some.inj (held.symm.trans held'))

theorem Calling.onward (calling : Calling pool w) {starter : Starter} {stage next : RestartStage}
    (held : w.lock = some (.restart starter stage))
    (moved : w'.lock = some (.restart starter next))
    (known : ∀ config, next.config? = some config → stage.config? = some config ∨ config ∈ pool) :
    Calling pool w' := by
  obtain ⟨rfl, about⟩ := calling.restart held
  exact .inr ⟨next, moved, fun config found => (known config found).elim (about config) id⟩

theorem Calling.step (calling : Calling pool w) (peaceful : a.peaceful = true)
    (within : ∀ config, a = .synthesized (.ok config) → config ∈ pool)
    (step : Step p w a e w') : Calling pool w' := by
  cases step with
  | callRestart _ force =>
      obtain rfl : force = false := by simpa [Action.peaceful] using peaceful
      exact .inr ⟨_, rfl, by simp [RestartStage.config?]⟩
  | callStop | callRecovery | exited => cases peaceful
  | passed _ held next =>
      refine calling.onward held rfl fun other found => .inr ?_
      rcases next with rfl | ⟨rfl, -⟩ <;> cases found <;> exact within _ rfl
  | differs _ held | takeOver _ held | skipOver _ held | calledOff _ held | replaced _ held
  | kept _ held | entered _ held | counted _ held =>
      exact calling.onward held rfl fun _ found => .inl found
  | refused _ held | unchanged _ held | launched _ held | launchFailed _ held | installed _ held
  | announced _ held | watched _ held | blamed _ held | failed _ held =>
      exact calling.onward held rfl (by simp [RestartStage.config?])
  | returned | recovered | attemptFailed | gaveUp | stopReturned => exact .inl rfl
  | stopTake held | stopSkip held | stopLooked held | stopCalledOff held | stopEnded held
  | stopKept held | stopHalted held | sawCrash held | sawOther held | sawSame held
  | sawNewer held => exact absurd held (calling.not_foreign (by simp))
  | printed | lookedAlive | lookedDead | heard | excused | confirmed | claimed | superseded | blames
  | keeps | marks | rereads | wakes => exact calling

def Lives (pool : List RelayConfig) (s : Supervisor) (id : Nat) : Prop :=
  ∃ i, s.instance? id = some i ∧ i.alive = true ∧ i.process.config ∈ pool

theorem Lives.print {s : Supervisor} (lives : Lives pool s id) (other : Nat)
    (lines : List String) : Lives pool (s.print other lines) id := by
  obtain ⟨i, found, alive, known⟩ := lives
  have keeps (i : Instance) :
      ({ i with process := i.process.printed lines } : Instance).id = i.id := rfl
  refine ⟨_, (Supervisor.instance?_update keeps).trans (by rw [found]; rfl), ?_⟩
  dsimp only
  split
  · exact ⟨alive, known⟩
  · exact ⟨alive, known⟩

theorem Lives.keepResult {s : Supervisor} (lives : Lives pool s id) (other : Nat) :
    Lives pool (s.keepResult other) id := by
  rwa [Lives, Supervisor.instance?_keepResult]

structure Serving (pool : List RelayConfig) (w : Interplay) (id : Nat) : Prop where
  calling : Calling pool w
  idle : ∀ starter stage, w.lock = some (.restart starter stage) → stage.idle = true
  inCharge : w.charged? = some id
  lives : Lives pool w.supervisor id

theorem Serving.runs (serving : Serving pool w id)
    (agree : ∀ c ∈ pool, ∀ d ∈ pool, (c == d) = true) {starter : Starter} {config : RelayConfig}
    (held : w.lock = some (.restart starter (.comparing config))) :
    w.supervisor.runs config = true := by
  obtain ⟨i, found, alive, known⟩ := serving.lives
  have inCharge := serving.inCharge
  rw [charged?, held] at inCharge
  have about : config ∈ pool := (serving.calling.restart held).2 config rfl
  refine Supervisor.runs_eq_true_iff.mpr ⟨i, ?_, alive, agree _ known _ about⟩
  rw [Supervisor.currentInstance?, show w.supervisor.current = some id from inCharge]
  exact found

theorem Serving.step (serving : Serving pool w id)
    (agree : ∀ c ∈ pool, ∀ d ∈ pool, (c == d) = true) (peaceful : a.peaceful = true)
    (within : ∀ config, a = .synthesized (.ok config) → config ∈ pool)
    (stepped : w.step? p a = some w') : Serving pool w' id := by
  obtain ⟨e, step⟩ : ∃ e, Step p w a e w' := ⟨_, step_of_step? stepped⟩
  have calling := serving.calling.step peaceful within step
  have lives := serving.lives
  have onward {stage : RestartStage} {starter : Starter}
      (held' : w'.lock = some (.restart starter stage)) (idle : stage.idle = true)
      (same : w'.charged? = w.charged?) (lives : Lives pool w'.supervisor id) :
      Serving pool w' id := by
    refine ⟨calling, fun _ _ held => ?_, same.trans serving.inCharge, lives⟩
    cases held'.symm.trans held
    exact idle
  have aside (lock : w'.lock = w.lock) (current : w'.supervisor.current = w.supervisor.current)
      (lives : Lives pool w'.supervisor id) : Serving pool w' id := by
    refine ⟨calling, lock ▸ serving.idle, ?_, lives⟩
    rw [← serving.inCharge, charged?, charged?, lock, current]
  cases step with
  | callRestart free => exact onward rfl rfl (by simp [charged?, free]) lives
  | callStop | callRecovery | exited => cases peaceful
  | @passed starter held config =>
      rw [step?, held] at stepped
      cases stepped
      obtain ⟨rfl, -⟩ := serving.calling.restart held
      exact onward rfl rfl (by simp [charged?, held, afterSynthesis, Starter.force]) lives
  | differs _ held other => cases (serving.runs agree held).symm.trans other
  | takeOver _ held | skipOver _ held | calledOff _ held | replaced _ held | kept _ held
  | entered _ held | counted _ held | launched _ held | launchFailed _ held | blamed _ held
  | failed _ held => cases serving.idle _ _ held
  | refused _ held | unchanged _ held | installed _ held | announced _ held | watched _ held =>
      exact onward rfl rfl (by simp [charged?, held, Supervisor.install, Supervisor.enter]) lives
  | @returned force ending held =>
      exact ⟨calling, by simp, by simpa [charged?, held] using serving.inCharge, lives⟩
  | recovered held | attemptFailed held | gaveUp held | stopTake held | stopSkip held
  | stopLooked held | stopCalledOff held | stopEnded held | stopKept held | stopHalted held
  | stopReturned held | sawCrash held | sawOther held | sawSame held | sawNewer held =>
      exact absurd held (serving.calling.not_foreign (by simp))
  | printed => exact aside rfl rfl (lives.print _ _)
  | keeps => exact aside rfl (Supervisor.keepResult_current _ _) (lives.keepResult _)
  | lookedAlive | lookedDead | heard | excused | confirmed | claimed | superseded | blames | marks
  | rereads | wakes => exact aside rfl rfl lives

theorem Step.serving {event : Event} (step : Step p w a (some event) w')
    (start : event.isStart = true) (calling : Calling pool w) (calling' : Calling pool w') :
    ∃ id, Serving pool w' id := by
  cases step with
  | @launched starter config id held conditions process began =>
      obtain ⟨rfl, rfl, alive⟩ := RelayProcess.launch_id began
      have about : process.config ∈ pool := (calling.restart held).2 _ rfl
      refine ⟨process.id, calling', fun _ _ held => ?_, rfl, { process }, ?_, alive, about⟩
      · cases held
        rfl
      · exact Supervisor.instance?_enrol_self _ _
  | _ => cases start

theorem Serving.starts_nothing {event : Event} (serving : Serving pool w id)
    (step : Step p w a (some event) w') : event.isStart = false := by
  cases step with
  | launched _ held => cases serving.idle _ _ held
  | _ => rfl

/-! Whole runs. -/

theorem mem_configsOf {actions : List Action} {config : RelayConfig}
    (member : .synthesized (.ok config) ∈ actions) : config ∈ configsOf actions :=
  List.mem_filterMap.mpr ⟨_, member, rfl⟩

structure Peaceful (pool : List RelayConfig) (actions : List Action) : Prop where
  peaceful : ∀ a ∈ actions, a.peaceful = true
  within : ∀ config, .synthesized (.ok config) ∈ actions → config ∈ pool

theorem Peaceful.tail {actions : List Action} (peace : Peaceful pool (a :: actions)) :
    Peaceful pool actions where
  peaceful a member := peace.peaceful a (List.mem_cons_of_mem _ member)
  within config member := peace.within config (List.mem_cons_of_mem _ member)

theorem Serving.journal (serving : Serving pool w id)
    (agree : ∀ c ∈ pool, ∀ d ∈ pool, (c == d) = true) {actions : List Action}
    (peace : Peaceful pool actions) : (journal p w actions).countP Event.isStart = 0 := by
  induction actions generalizing w with
  | nil => rfl
  | cons a rest ih =>
      rw [Interplay.journal]
      split
      next next stepped =>
        have step := step_of_step? stepped
        have onward := serving.step agree (peace.peaceful a List.mem_cons_self)
          (fun config same => peace.within config (same ▸ List.mem_cons_self)) stepped
        rw [List.countP_append, ih onward peace.tail]
        cases happened : w.event? p a with
        | none => rfl
        | some event =>
            rw [happened] at step
            simp [serving.starts_nothing step]
      next => rfl

theorem Calling.journal (calling : Calling pool w)
    (agree : ∀ c ∈ pool, ∀ d ∈ pool, (c == d) = true) {actions : List Action}
    (peace : Peaceful pool actions) : (journal p w actions).countP Event.isStart ≤ 1 := by
  induction actions generalizing w with
  | nil => simp [Interplay.journal]
  | cons a rest ih =>
      rw [Interplay.journal]
      split
      next next stepped =>
        have step := step_of_step? stepped
        have onward := calling.step (peace.peaceful a List.mem_cons_self)
          (fun config same => peace.within config (same ▸ List.mem_cons_self)) step
        rw [List.countP_append]
        cases happened : w.event? p a with
        | none => simpa using ih onward peace.tail
        | some event =>
            rw [happened] at step
            cases start : event.isStart with
            | false => simpa [start] using ih onward peace.tail
            | true =>
                obtain ⟨id, serving⟩ := step.serving start calling onward
                rw [serving.journal agree peace.tail]
                simp [start]
      next => simp

end Calls

/--
A restart does what was asked for and no more, from whatever state and whatever it meets. Unforced
restarts that come to one configuration start one process at most, and what is in charge has its
configuration in the file.
-/
theorem restart_replaces_when_due (p : ProcessSettings) :
    (∀ (s : Supervisor) synthesized force conditions, s.Restarted synthesized force
      (s.restart synthesized force (RelayProcess.launch p conditions))) ∧
    (∀ (w u v : Interplay) starter synthesized ending,
      (w.holds (.restart starter .synthesizing)).step? p (.synthesized synthesized) = some u →
      Alone p u v → v.lock = some (.restart starter (.returning ending)) →
      w.supervisor.Restarted synthesized starter.force (ending.result, v.supervisor)) ∧
    (∀ (w : Interplay) actions, w.lock = none → (∀ a ∈ actions, a.peaceful = true) →
      (∀ c ∈ configsOf actions, ∀ d ∈ configsOf actions, (c == d) = true) →
      (journal p w actions).countP Event.isStart ≤ 1) ∧
    ∀ w, Reachable p w → ∀ i, w.supervisor.currentInstance? = some i →
      w.supervisor.written = some i.process.config.toJson.pretty := by
  refine ⟨fun s synthesized force conditions => s.restarted_restart synthesized force p conditions,
    ?_, ?_, ?_⟩
  · intro w u v starter synthesized ending stepped alone held
    obtain ⟨conditions, answered⟩ := Alone.restarts stepped alone held
    rw [answered]
    exact w.supervisor.restarted_restart synthesized starter.force p conditions
  · intro w actions free peaceful agree
    have calling : Calling (configsOf actions) w := .inl free
    exact calling.journal agree ⟨peaceful, fun _ member => mem_configsOf member⟩
  · intro w reachable i found
    exact reachable.filed.written_of_current reachable.sound found

def repeating : List Action :=
  [.callRestart false, .synthesized (.ok {}), .proceed, .release]

theorem restart_replaces_when_due_twice :
    (journal {} {} (restarting ++ repeating)).countP Event.isStart ≤ 1 ∧
    ∃ w i, run? {} {} (restarting ++ repeating) = some w ∧
      w.supervisor.currentInstance? = some i ∧ i.id = 1 ∧
      w.supervisor.written = some i.process.config.toJson.pretty := by
  obtain ⟨-, -, once, filed⟩ := restart_replaces_when_due {}
  refine ⟨once {} (restarting ++ repeating) rfl (by decide) ?_, ?_⟩
  · simp [restarting, repeating, configsOf]
  · have reached : ∃ w, run? {} {} (restarting ++ repeating) = some w ∧
        ∃ i, w.supervisor.currentInstance? = some i ∧ i.id = 1 :=
      ⟨_, rfl, _, rfl, rfl⟩
    obtain ⟨w, ran, i, found, first⟩ := reached
    exact ⟨w, i, ran, found, first, filed w ⟨_, ran⟩ i found⟩

end Interplay

end RelayControl
