import RelayControl.Proofs.Supervisor.Interplay.Alone
import RelayControl.Proofs.Supervisor.Replacement

/-!
Whatever the accesses of a restart meet, as long as nobody else does anything in between: a process
that cannot be stopped, a file that cannot be written, a program that does not start. In whichever
way they get to the end, they have done what a restart of the supervisor does.
-/

namespace RelayControl

namespace Interplay

section Stages

variable (p : ProcessSettings) (s : Supervisor) (starter : Starter)
  (synthesized : Except Fault RelayConfig)

def Due (config : RelayConfig) : Prop :=
  synthesized = .ok config ∧ (starter.force = true ∨ s.runs config = false)

/-- A process was launched, and since then the supervisor was changed like this. -/
def Launched (id : Nat) (change : Supervisor → Supervisor) (now : Supervisor) : Prop :=
  ∃ config conditions process, Due s starter synthesized config ∧ process.id = id ∧
    (RelayProcess.launch p conditions s.retire.announce.generation config).result = .ok process ∧
    now = change ((s.retire.announce.rewrite
      (RelayProcess.launch p conditions s.retire.announce.generation config)).enrol process)

def Unlaunched (f : Fault) (change : Supervisor → Supervisor) (now : Supervisor) : Prop :=
  ∃ config conditions, Due s starter synthesized config ∧
    (RelayProcess.launch p conditions s.retire.announce.generation config).result = .error f ∧
    now = change (s.retire.announce.rewrite
      (RelayProcess.launch p conditions s.retire.announce.generation config))

/-- What a restart has made of a supervisor when it is at a stage after the synthesis. -/
def RestartStage.Makes (now : Supervisor) : RestartStage → Prop
  | .synthesizing => False
  | .comparing config => now = s ∧ synthesized = .ok config ∧ starter.force = false
  | .taking config => now = s ∧ Due s starter synthesized config
  | .callingOff config old =>
      now = s.vacate ∧ s.current = some old ∧ Due s starter synthesized config
  | .stopping config old =>
      now = s.vacate.callOff old ∧ s.current = some old ∧ Due s starter synthesized config
  | .keeping config old =>
      now = (s.vacate.callOff old).stopProcess old ∧ s.current = some old ∧
        Due s starter synthesized config
  | .entering config => now = s.retire ∧ Due s starter synthesized config
  | .counting config => now = s.retire.enter .starting ∧ Due s starter synthesized config
  | .launching config id =>
      now = s.retire.announce ∧ id = s.retire.announce.generation ∧ Due s starter synthesized config
  | .installing id => Launched p s starter synthesized id (fun s => s) now
  | .announcing id => Launched p s starter synthesized id (·.install id) now
  | .watching id => Launched p s starter synthesized id (fun s => (s.install id).enter .running) now
  | .blaming f => Unlaunched p s starter synthesized f (fun s => s) now
  | .failing f => Unlaunched p s starter synthesized f (·.blame (.startFailed f.message)) now
  | .returning ending => ∃ conditions,
      (ending.result, now) =
        s.restart synthesized starter.force (RelayProcess.launch p conditions)

end Stages

variable {p : ProcessSettings} {s : Supervisor} {starter : Starter}
  {synthesized : Except Fault RelayConfig} {w w' v : Interplay} {a : Action} {e : Option Event}

theorem Due.restart {config : RelayConfig} (due : Due s starter synthesized config)
    (launch : Nat → RelayConfig → Launch) :
    s.restart synthesized starter.force launch = s.replace config launch := by
  obtain ⟨rfl, due⟩ := due
  rw [Supervisor.restart]
  rcases due with force | other
  · simp [force]
  · simp [other]

section Changes

variable {id : Nat} {f : Fault} {now : Supervisor} {before after : Supervisor → Supervisor}

theorem Launched.on (launched : Launched p s starter synthesized id before now)
    (next : Supervisor → Supervisor) (same : ∀ s, next (before s) = after s) :
    Launched p s starter synthesized id after (next now) := by
  obtain ⟨config, conditions, process, due, number, began, rfl⟩ := launched
  exact ⟨config, conditions, process, due, number, began, same _⟩

theorem Unlaunched.on (unlaunched : Unlaunched p s starter synthesized f before now)
    (next : Supervisor → Supervisor) (same : ∀ s, next (before s) = after s) :
    Unlaunched p s starter synthesized f after (next now) := by
  obtain ⟨config, conditions, due, failure, rfl⟩ := unlaunched
  exact ⟨config, conditions, due, failure, same _⟩

end Changes

theorem Launched.returns {id : Nat} {now : Supervisor}
    (launched : Launched p s starter synthesized id (fun s => (s.install id).enter .running) now) :
    RestartStage.Makes p s starter synthesized now (.returning .started) := by
  obtain ⟨config, conditions, process, due, rfl, began, rfl⟩ := launched
  refine ⟨conditions, ?_⟩
  rw [due.restart, Supervisor.replace, Supervisor.arrive_eq_of_ok began]
  rfl

theorem Unlaunched.returns {f : Fault} {now : Supervisor}
    (unlaunched : Unlaunched p s starter synthesized f (·.blame (.startFailed f.message)) now) :
    RestartStage.Makes p s starter synthesized (now.enter .crashed) (.returning (.failed f)) := by
  obtain ⟨config, conditions, due, failure, rfl⟩ := unlaunched
  refine ⟨conditions, ?_⟩
  rw [due.restart, Supervisor.replace, Supervisor.arrive_eq_of_error failure]
  rfl

def Restarting (p : ProcessSettings) (s : Supervisor) (starter : Starter)
    (synthesized : Except Fault RelayConfig) (w : Interplay) : Prop :=
  w.lock = none ∨ ∃ stage, w.lock = some (.restart starter stage) ∧
    stage.Makes p s starter synthesized w.supervisor

theorem Step.held (step : Step p w a e w') (own : a.byHolder = true) :
    ∃ errand, w.lock = some errand := by
  cases step with
  | callRestart | callStop | callRecovery | exited | printed | lookedAlive | lookedDead | heard
  | excused | confirmed | claimed | superseded | blames | keeps | marks | rereads | wakes =>
      cases own
  | refused _ held | passed _ held | unchanged _ held | differs _ held | takeOver _ held
  | skipOver _ held | calledOff _ held | replaced _ held | kept _ held | entered _ held
  | counted _ held | launched _ held | launchFailed _ held | installed _ held | announced _ held
  | watched _ held | blamed _ held | failed _ held | returned held | recovered held
  | attemptFailed held | gaveUp held | stopTake held | stopSkip held | stopLooked held
  | stopCalledOff held | stopEnded held | stopKept held | stopHalted held | stopReturned held
  | sawCrash held | sawOther held | sawSame held | sawNewer held => exact ⟨_, held⟩

theorem Restarting.step (restarting : Restarting p s starter synthesized w)
    (own : a.byHolder = true) (step : Step p w a e w') : Restarting p s starter synthesized w' := by
  rcases restarting with free | ⟨stage, at_, makes⟩
  · obtain ⟨errand, held⟩ := step.held own
    cases free.symm.trans held
  · cases step with
    | callRestart | callStop | callRecovery | exited | printed | lookedAlive | lookedDead | heard
    | excused | confirmed | claimed | superseded | blames | keeps | marks | rereads | wakes =>
        cases own
    | gaveUp held | stopTake held | stopSkip held | stopLooked held | stopCalledOff held
    | stopEnded held | stopKept held | stopHalted held | stopReturned held | sawCrash held
    | sawOther held | sawSame held | sawNewer held => cases at_.symm.trans held
    | returned | recovered | attemptFailed => exact .inl rfl
    | refused _ held | passed _ held =>
        cases at_.symm.trans held
        cases makes
    | unchanged _ held same =>
        cases at_.symm.trans held
        obtain ⟨rfl, rfl, unforced⟩ := makes
        refine .inr ⟨_, rfl, {}, ?_⟩
        simp only [Supervisor.restart, unforced, same]
        rfl
    | differs _ held other =>
        cases at_.symm.trans held
        obtain ⟨rfl, came, -⟩ := makes
        exact .inr ⟨_, rfl, rfl, came, .inr other⟩
    | takeOver _ held _ inCharge =>
        cases at_.symm.trans held
        obtain ⟨rfl, due⟩ := makes
        exact .inr ⟨_, rfl, rfl, inCharge, due⟩
    | skipOver _ held _ vacant =>
        cases at_.symm.trans held
        obtain ⟨rfl, due⟩ := makes
        refine .inr ⟨_, rfl, ?_, due⟩
        exact (Supervisor.vacate_of_vacant vacant).trans (Supervisor.retire_of_vacant vacant).symm
    | calledOff _ held =>
        cases at_.symm.trans held
        obtain ⟨same, inCharge, due⟩ := makes
        exact .inr ⟨_, rfl, by rw [← same]; rfl, inCharge, due⟩
    | replaced _ held =>
        cases at_.symm.trans held
        obtain ⟨same, inCharge, due⟩ := makes
        exact .inr ⟨_, rfl, by rw [← same]; rfl, inCharge, due⟩
    | kept _ held =>
        cases at_.symm.trans held
        obtain ⟨same, inCharge, due⟩ := makes
        exact .inr ⟨_, rfl, by rw [Supervisor.retire_eq inCharge, ← same]; rfl, due⟩
    | entered _ held =>
        cases at_.symm.trans held
        obtain ⟨same, due⟩ := makes
        exact .inr ⟨_, rfl, by rw [← same]; rfl, due⟩
    | counted _ held =>
        cases at_.symm.trans held
        obtain ⟨same, due⟩ := makes
        refine .inr ⟨_, rfl, ?_, ?_, due⟩
        · rw [Supervisor.announce_eq, ← same]
          rfl
        · rw [same]
          rfl
    | launched _ held began =>
        cases at_.symm.trans held
        obtain ⟨same, rfl, due⟩ := makes
        refine .inr ⟨_, rfl, _, _, _, due, (RelayProcess.launch_id began).1, began, ?_⟩
        rw [← same]
        rfl
    | launchFailed _ held failure =>
        cases at_.symm.trans held
        obtain ⟨same, rfl, due⟩ := makes
        refine .inr ⟨_, rfl, _, _, due, failure, ?_⟩
        rw [← same]
        rfl
    | @installed _ id held =>
        cases at_.symm.trans held
        have launched : Launched p s starter synthesized id (fun s => s) w.supervisor := makes
        exact .inr ⟨_, rfl, launched.on (·.install id) fun _ => rfl⟩
    | @announced _ id held =>
        cases at_.symm.trans held
        have launched : Launched p s starter synthesized id (·.install id) w.supervisor := makes
        exact .inr ⟨_, rfl, launched.on (·.enter .running) fun _ => rfl⟩
    | watched _ held =>
        cases at_.symm.trans held
        exact .inr ⟨_, rfl, Launched.returns makes⟩
    | @blamed _ f held =>
        cases at_.symm.trans held
        have unlaunched : Unlaunched p s starter synthesized f (fun s => s) w.supervisor := makes
        exact .inr ⟨_, rfl, unlaunched.on (·.blame (.startFailed f.message)) fun _ => rfl⟩
    | failed _ held =>
        cases at_.symm.trans held
        exact .inr ⟨_, rfl, Unlaunched.returns makes⟩

theorem Alone.restarting (alone : Alone p w v) (restarting : Restarting p s starter synthesized w) :
    Restarting p s starter synthesized v := by
  induction alone with
  | refl => exact restarting
  | step own stepped _ ih => exact ih (restarting.step own (step_of_step? stepped))

theorem Restarting.begins
    (stepped : (w.holds (.restart starter .synthesizing)).step? p (.synthesized synthesized) =
      some w') : Restarting p w.supervisor starter synthesized w' := by
  cases stepped
  cases synthesized with
  | error f => exact .inr ⟨_, rfl, {}, rfl⟩
  | ok config =>
      cases force : starter.force with
      | true => exact .inr ⟨_, rfl, rfl, rfl, .inl force⟩
      | false => exact .inr ⟨_, rfl, rfl, rfl, force⟩

/-- Whoever restarts the relay while nobody else does anything restarts it as a supervisor does. -/
theorem Alone.restarts
    (stepped : (w.holds (.restart starter .synthesizing)).step? p (.synthesized synthesized) =
      some w') (alone : Alone p w' v) {ending : Ending}
    (held : v.lock = some (.restart starter (.returning ending))) :
    ∃ conditions, (ending.result, v.supervisor) =
      w.supervisor.restart synthesized starter.force (RelayProcess.launch p conditions) := by
  rcases alone.restarting (Restarting.begins stepped) with free | ⟨stage, at_, makes⟩
  · cases free.symm.trans held
  · cases at_.symm.trans held
    exact makes

end Interplay

end RelayControl
