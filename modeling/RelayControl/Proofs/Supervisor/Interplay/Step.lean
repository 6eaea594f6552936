import RelayControl.Proofs.Basic
import RelayControl.Supervisor.Interplay

/-!
What one access of the interplay can do, said once, with the event that it leaves in the journal.
Whatever a run keeps is then shown by cases on its steps.
-/

namespace RelayControl

namespace Interplay

inductive Step (p : ProcessSettings) (w : Interplay) :
    Action → Option Event → Interplay → Prop where
  | callRestart (free : w.lock = none) (force : Bool) :
      Step p w (.callRestart force) none (w.holds (.restart (.caller force) .synthesizing))
  | callStop (free : w.lock = none) :
      Step p w .callStop (some .stopCalled) (w.holds (.stop .taking))
  | callRecovery {task expected : Nat} (free : w.lock = none)
      (waiting : w.stageOf? task = some (.waiting expected)) :
      Step p w (.callRecovery task) none
        ((w.move task (.holding expected)).holds (.checkingPhase task))
  | refused (starter : Starter) (held : w.lock = some (.restart starter .synthesizing))
      (f : Fault) :
      Step p w (.synthesized (.error f)) none
        (w.holds (.restart starter (.returning (.refused f))))
  | passed (starter : Starter) (held : w.lock = some (.restart starter .synthesizing))
      {config : RelayConfig} {stage : RestartStage}
      (next : stage = .taking config ∨ stage = .comparing config ∧ starter.force = false) :
      Step p w (.synthesized (.ok config)) (some (.passed starter))
        (w.holds (.restart starter stage))
  | unchanged (starter : Starter) {config : RelayConfig}
      (held : w.lock = some (.restart starter (.comparing config)))
      (same : w.supervisor.runs config = true) :
      Step p w .proceed none (w.holds (.restart starter (.returning .unchanged)))
  | differs (starter : Starter) {config : RelayConfig}
      (held : w.lock = some (.restart starter (.comparing config)))
      (other : w.supervisor.runs config = false) :
      Step p w .proceed none (w.holds (.restart starter (.taking config)))
  | takeOver (starter : Starter) {config : RelayConfig} {old : Nat}
      (held : w.lock = some (.restart starter (.taking config))) (unread : w.guarded = false)
      (inCharge : w.supervisor.current = some old) :
      Step p w .proceed none
        ((w.sets w.supervisor.vacate).holds (.restart starter (.callingOff config old)))
  | skipOver (starter : Starter) {config : RelayConfig}
      (held : w.lock = some (.restart starter (.taking config))) (unread : w.guarded = false)
      (vacant : w.supervisor.current = none) :
      Step p w .proceed none
        ((w.sets w.supervisor.vacate).holds (.restart starter (.entering config)))
  | calledOff (starter : Starter) {config : RelayConfig} {old : Nat}
      (held : w.lock = some (.restart starter (.callingOff config old))) :
      Step p w .proceed none
        ((w.sets (w.supervisor.callOff old)).holds (.restart starter (.stopping config old)))
  | replaced (starter : Starter) {config : RelayConfig} {old : Nat}
      (held : w.lock = some (.restart starter (.stopping config old)))
      (outcome : Except String Unit) :
      Step p w (.stopped outcome) none
        ((w.sets (w.supervisor.stopProcess old)).holds (.restart starter (.keeping config old)))
  | kept (starter : Starter) {config : RelayConfig} {old : Nat}
      (held : w.lock = some (.restart starter (.keeping config old))) :
      Step p w .proceed none
        ((w.sets (w.supervisor.keepResult old)).holds (.restart starter (.entering config)))
  | entered (starter : Starter) {config : RelayConfig}
      (held : w.lock = some (.restart starter (.entering config))) :
      Step p w .proceed none
        ((w.sets (w.supervisor.enter .starting)).holds (.restart starter (.counting config)))
  | counted (starter : Starter) {config : RelayConfig}
      (held : w.lock = some (.restart starter (.counting config))) :
      Step p w .proceed (some (.begun starter (w.supervisor.generation + 1)))
        ((w.sets w.supervisor.count).holds
          (.restart starter (.launching config (w.supervisor.generation + 1))))
  | launched (starter : Starter) {config : RelayConfig} {id : Nat}
      (held : w.lock = some (.restart starter (.launching config id)))
      {conditions : LaunchConditions} {process : RelayProcess}
      (began : (RelayProcess.launch p conditions id config).result = .ok process) :
      Step p w (.launched conditions) (some (.started starter id))
        ((w.sets ((w.supervisor.rewrite (RelayProcess.launch p conditions id config)).enrol
          process)).holds (.restart starter (.installing id)))
  | launchFailed (starter : Starter) {config : RelayConfig} {id : Nat}
      (held : w.lock = some (.restart starter (.launching config id)))
      {conditions : LaunchConditions} {f : Fault}
      (failure : (RelayProcess.launch p conditions id config).result = .error f) :
      Step p w (.launched conditions) none
        ((w.sets (w.supervisor.rewrite (RelayProcess.launch p conditions id config))).holds
          (.restart starter (.blaming f)))
  | installed (starter : Starter) {id : Nat}
      (held : w.lock = some (.restart starter (.installing id))) (unread : w.guarded = false) :
      Step p w .proceed none
        ((w.sets (w.supervisor.install id)).holds (.restart starter (.announcing id)))
  | announced (starter : Starter) {id : Nat}
      (held : w.lock = some (.restart starter (.announcing id))) :
      Step p w .proceed none
        ((w.sets (w.supervisor.enter .running)).holds (.restart starter (.watching id)))
  | watched (starter : Starter) {id : Nat}
      (held : w.lock = some (.restart starter (.watching id))) :
      Step p w .proceed none
        ((w.watch id .polling).holds (.restart starter (.returning .started)))
  | blamed (starter : Starter) {f : Fault}
      (held : w.lock = some (.restart starter (.blaming f))) :
      Step p w .proceed none
        ((w.sets (w.supervisor.blame (.startFailed f.message))).holds
          (.restart starter (.failing f)))
  | failed (starter : Starter) {f : Fault}
      (held : w.lock = some (.restart starter (.failing f))) :
      Step p w .proceed none
        ((w.sets (w.supervisor.enter .crashed)).holds
          (.restart starter (.returning (.failed f))))
  | returned {force : Bool} {ending : Ending}
      (held : w.lock = some (.restart (.caller force) (.returning ending))) :
      Step p w .release (some (.restartReturned (.caller force) ending)) w.frees
  | recovered {task : Nat} {ending : Ending}
      (held : w.lock = some (.restart (.recovery task) (.returning ending)))
      (success : ending.result = .ok ()) :
      Step p w .release (some (.restartReturned (.recovery task) ending))
        (w.move task .finished).frees
  | attemptFailed {task : Nat} {ending : Ending} {f : Fault}
      (held : w.lock = some (.restart (.recovery task) (.returning ending)))
      (failure : ending.result = .error f) :
      Step p w .release (some (.restartReturned (.recovery task) ending))
        (w.move task .rereading).frees
  | gaveUp {task : Nat} (held : w.lock = some (.leaving task)) :
      Step p w .release (some (.gaveUp task)) (w.move task .finished).frees
  | stopTake {old : Nat} (held : w.lock = some (.stop .taking)) (unread : w.guarded = false)
      (inCharge : w.supervisor.current = some old) :
      Step p w .proceed none ((w.sets w.supervisor.vacate).holds (.stop (.looking old)))
  | stopSkip (held : w.lock = some (.stop .taking)) (unread : w.guarded = false)
      (vacant : w.supervisor.current = none) :
      Step p w .proceed none
        ((w.sets w.supervisor.vacate).holds (.stop (.halting (.error .notRunning))))
  | stopLooked {old : Nat} (held : w.lock = some (.stop (.looking old))) :
      Step p w .proceed none
        (w.holds (.stop (.callingOff old ((w.supervisor.instance? old).any Instance.alive))))
  | stopCalledOff {old : Nat} {wasRunning : Bool}
      (held : w.lock = some (.stop (.callingOff old wasRunning))) :
      Step p w .proceed none
        ((w.sets (w.supervisor.callOff old)).holds (.stop (.stopping old wasRunning)))
  | stopEnded {old : Nat} {wasRunning : Bool}
      (held : w.lock = some (.stop (.stopping old wasRunning))) (outcome : Except String Unit) :
      Step p w (.stopped outcome) none
        ((w.sets (w.supervisor.stopProcess old)).holds
          (.stop (.keeping old (Supervision.stopResult wasRunning outcome))))
  | stopKept {old : Nat} {result : Except Fault Unit}
      (held : w.lock = some (.stop (.keeping old result))) :
      Step p w .proceed none
        ((w.sets (w.supervisor.keepResult old)).holds (.stop (.halting result)))
  | stopHalted {result : Except Fault Unit} (held : w.lock = some (.stop (.halting result))) :
      Step p w .proceed none ((w.sets w.supervisor.halt).holds (.stop (.returning result)))
  | stopReturned {result : Except Fault Unit}
      (held : w.lock = some (.stop (.returning result))) :
      Step p w .release (some (.stopReturned result)) w.frees
  | sawCrash {task : Nat} (held : w.lock = some (.checkingPhase task))
      (crashed : w.supervisor.phase = .crashed) :
      Step p w .proceed none (w.holds (.checkingGeneration task))
  | sawOther {task : Nat} (held : w.lock = some (.checkingPhase task))
      (other : w.supervisor.phase ≠ .crashed) :
      Step p w .proceed none (w.holds (.leaving task))
  | sawSame {task : Nat} (held : w.lock = some (.checkingGeneration task))
      (same : w.stageOf? task = some (.holding w.supervisor.generation)) :
      Step p w .proceed none (w.holds (.restart (.recovery task) .synthesizing))
  | sawNewer {task : Nat} (held : w.lock = some (.checkingGeneration task))
      (newer : w.stageOf? task ≠ some (.holding w.supervisor.generation)) :
      Step p w .proceed none (w.holds (.leaving task))
  | exited {id : Nat} {i : Instance} (found : w.supervisor.instance? id = some i)
      (alive : i.alive = true) (failure : ProcessFailure) :
      Step p w (.exited id failure) none (w.sets (w.supervisor.exitProcess id failure))
  | printed (id : Nat) (lines : List String) :
      Step p w (.printed id lines) none (w.sets (w.supervisor.print id lines))
  | lookedAlive {id : Nat} {i : Instance} (found : w.supervisor.instance? id = some i)
      (polling : w.monitor id = .polling) (alive : i.alive = true) : Step p w (.look id) none w
  | lookedDead {id : Nat} {i : Instance} (found : w.supervisor.instance? id = some i)
      (polling : w.monitor id = .polling) (dead : i.alive = false) :
      Step p w (.look id) none (w.watch id .doubting)
  | heard {id : Nat} {i : Instance} (found : w.supervisor.instance? id = some i)
      (polling : w.monitor id = .polling) (cancelled : i.cancelled = true) :
      Step p w (.hear id) none (w.watch id .ended)
  | excused {id : Nat} {i : Instance} (found : w.supervisor.instance? id = some i)
      (doubting : w.monitor id = .doubting) (cancelled : i.cancelled = true) :
      Step p w (.advance id) none (w.watch id .ended)
  | confirmed {id : Nat} {i : Instance} (found : w.supervisor.instance? id = some i)
      (doubting : w.monitor id = .doubting) (wanted : i.cancelled = false) :
      Step p w (.advance id) none (w.watch id .reporting)
  | claimed {id : Nat} {i : Instance} (found : w.supervisor.instance? id = some i)
      (reporting : w.monitor id = .reporting) (inCharge : w.supervisor.current = some id) :
      Step p w (.advance id) none (w.watch id .blaming)
  | superseded {id : Nat} {i : Instance} (found : w.supervisor.instance? id = some i)
      (reporting : w.monitor id = .reporting) (replaced : w.supervisor.current ≠ some id) :
      Step p w (.advance id) none (w.watch id .ended)
  | blames {id : Nat} {i : Instance} (found : w.supervisor.instance? id = some i)
      (blaming : w.monitor id = .blaming) :
      Step p w (.advance id) none
        ((w.sets (w.supervisor.blame (Supervisor.failureOf i))).watch id .keeping)
  | keeps {id : Nat} {i : Instance} (found : w.supervisor.instance? id = some i)
      (keeping : w.monitor id = .keeping) :
      Step p w (.advance id) none ((w.sets (w.supervisor.keepResult id)).watch id .marking)
  | marks {id : Nat} {i : Instance} (found : w.supervisor.instance? id = some i)
      (marking : w.monitor id = .marking) :
      Step p w (.advance id) (some (.reported id w.recoveries.length))
        (((w.sets (w.supervisor.enter .crashed)).watch id .ended).begin id)
  | rereads {task : Nat} (failed : w.stageOf? task = some .rereading) :
      Step p w (.reread task) (some (.reread task))
        (w.move task (.sleeping w.supervisor.generation))
  | wakes {task expected : Nat} (asleep : w.stageOf? task = some (.sleeping expected)) :
      Step p w (.wake task) none (w.move task (.waiting expected))

variable {p : ProcessSettings} {w w' : Interplay}

theorem taken?_cases {taken : Interplay × Option Nat} (took : w.taken? = some taken) :
    w.guarded = false ∧ taken = (w.sets w.supervisor.vacate, w.supervisor.current) := by
  unfold taken? at took
  split at took
  next => cases took
  next unread => exact ⟨by simpa using unread, (Option.some.inj took).symm⟩

theorem step_of_restart {starter : Starter} {stage next : RestartStage}
    (held : w.lock = some (.restart starter stage))
    (progress : w.restartStep? stage = some (w', next)) :
    Step p w .proceed (w.event? p .proceed) (w'.holds (.restart starter next)) := by
  simp only [event?, held]
  cases stage with
  | comparing config =>
      cases same : w.supervisor.runs config with
      | true =>
          rw [restartStep?, same] at progress
          cases progress
          exact .unchanged starter held same
      | false =>
          rw [restartStep?, same] at progress
          cases progress
          exact .differs starter held same
  | taking config =>
      obtain ⟨taken, took, next⟩ := Option.map_eq_some_iff.mp progress
      obtain ⟨unread, rfl⟩ := taken?_cases took
      cases inCharge : w.supervisor.current with
      | some old => rw [inCharge] at next; cases next; exact .takeOver starter held unread inCharge
      | none => rw [inCharge] at next; cases next; exact .skipOver starter held unread inCharge
  | callingOff config old => cases progress; exact .calledOff starter held
  | keeping config old => cases progress; exact .kept starter held
  | entering config => cases progress; exact .entered starter held
  | counting config => cases progress; exact .counted starter held
  | installing id =>
      simp only [restartStep?] at progress
      split at progress
      next => cases progress
      next unread => cases progress; exact .installed starter held (by simpa using unread)
  | announcing id => cases progress; exact .announced starter held
  | watching id => cases progress; exact .watched starter held
  | blaming f => cases progress; exact .blamed starter held
  | failing f => cases progress; exact .failed starter held
  | synthesizing | stopping | launching | returning => cases progress

theorem step_of_stop {stage next : StopStage} (held : w.lock = some (.stop stage))
    (progress : w.stopStep? stage = some (w', next)) :
    Step p w .proceed (w.event? p .proceed) (w'.holds (.stop next)) := by
  simp only [event?, held]
  cases stage with
  | taking =>
      obtain ⟨taken, took, next⟩ := Option.map_eq_some_iff.mp progress
      obtain ⟨unread, rfl⟩ := taken?_cases took
      cases inCharge : w.supervisor.current with
      | some old => rw [inCharge] at next; cases next; exact .stopTake held unread inCharge
      | none => rw [inCharge] at next; cases next; exact .stopSkip held unread inCharge
  | looking old => cases progress; exact .stopLooked held
  | callingOff old wasRunning => cases progress; exact .stopCalledOff held
  | keeping old result => cases progress; exact .stopKept held
  | halting result => cases progress; exact .stopHalted held
  | stopping | returning => cases progress

theorem step_of_proceed {errand : Errand} (held : w.lock = some errand)
    (progress : w.proceed? errand = some w') : Step p w .proceed (w.event? p .proceed) w' := by
  cases errand with
  | restart starter stage =>
      obtain ⟨⟨moved, next⟩, moves, rfl⟩ := Option.map_eq_some_iff.mp progress
      exact step_of_restart held moves
  | stop stage =>
      obtain ⟨⟨moved, next⟩, moves, rfl⟩ := Option.map_eq_some_iff.mp progress
      exact step_of_stop held moves
  | checkingPhase task =>
      simp only [event?, held]
      simp only [proceed?] at progress
      split at progress
      next crashed => cases progress; exact .sawCrash held crashed
      next other => cases progress; exact .sawOther held other
  | checkingGeneration task =>
      simp only [event?, held]
      simp only [proceed?] at progress
      split at progress
      next same => cases progress; exact .sawSame held same
      next newer => cases progress; exact .sawNewer held newer
  | leaving task => cases progress

theorem step_of_release {errand : Errand} (held : w.lock = some errand)
    (progress : w.release? errand = some w') : Step p w .release (w.event? p .release) w' := by
  simp only [event?, held, Option.bind_some]
  unfold release? at progress
  split at progress
  next => cases progress; exact .returned held
  next =>
    split at progress
    next success => cases progress; exact .recovered held success
    next failure => cases progress; exact .attemptFailed held failure
  next => cases progress; exact .stopReturned held
  next => cases progress; exact .gaveUp held
  next => cases progress

theorem step_of_advance {id : Nat} {i : Instance} (found : w.supervisor.instance? id = some i)
    (progress : w.advance? id i = some w') :
    Step p w (.advance id) (w.event? p (.advance id)) w' := by
  simp only [event?]
  unfold advance? at progress
  split at progress
  next doubting =>
    rw [if_neg (by simp [doubting])]
    cases cancelled : i.cancelled with
    | true => rw [cancelled] at progress; cases progress; exact .excused found doubting cancelled
    | false => rw [cancelled] at progress; cases progress; exact .confirmed found doubting cancelled
  next reporting =>
    rw [if_neg (by simp [reporting])]
    cases progress
    split
    next inCharge => exact .claimed found reporting inCharge
    next replaced => exact .superseded found reporting replaced
  next blaming =>
    rw [if_neg (by simp [blaming])]
    cases progress
    exact .blames found blaming
  next keeping =>
    rw [if_neg (by simp [keeping])]
    cases progress
    exact .keeps found keeping
  next marking =>
    rw [if_pos marking]
    cases progress
    exact .marks found marking
  next => cases progress

theorem step_of_launched {conditions : LaunchConditions}
    (stepped : w.step? p (.launched conditions) = some w') :
    Step p w (.launched conditions) (w.event? p (.launched conditions)) w' := by
  simp only [step?] at stepped
  split at stepped
  next starter config id held =>
    simp only [event?, held]
    split at stepped
    next process began =>
      cases stepped
      exact .launched starter held began
    next f failure =>
      cases stepped
      exact .launchFailed starter held failure
  next => cases stepped

theorem step_of_look {id : Nat} (stepped : w.step? p (.look id) = some w') :
    Step p w (.look id) none w' := by
  simp only [step?] at stepped
  split at stepped
  next i found =>
    split at stepped
    next polling =>
      cases alive : i.alive with
      | true => rw [alive] at stepped; cases stepped; exact .lookedAlive found polling alive
      | false => rw [alive] at stepped; cases stepped; exact .lookedDead found polling alive
    next => cases stepped
  next => cases stepped

theorem step_of_step? {a : Action} (stepped : w.step? p a = some w') :
    Step p w a (w.event? p a) w' := by
  cases a with
  | callRestart force =>
      simp only [step?, Option.isNone_iff_eq_none] at stepped
      split at stepped
      next free => cases stepped; exact .callRestart free force
      next => cases stepped
  | callStop =>
      simp only [step?, Option.isNone_iff_eq_none] at stepped
      split at stepped
      next free => cases stepped; exact .callStop free
      next => cases stepped
  | callRecovery task =>
      simp only [step?] at stepped
      split at stepped
      next free waiting => cases stepped; exact .callRecovery free waiting
      next => cases stepped
  | synthesized outcome =>
      simp only [step?] at stepped
      split at stepped
      next starter held =>
        cases stepped
        cases outcome with
        | error f => exact .refused starter held f
        | ok config =>
            simp only [event?, held, afterSynthesis]
            apply Step.passed starter held
            split
            next => exact .inl rfl
            next asked => exact .inr ⟨rfl, by simpa using asked⟩
      next => cases stepped
  | proceed =>
      obtain ⟨errand, held, progress⟩ := Option.bind_eq_some_iff.mp stepped
      exact step_of_proceed held progress
  | stopped outcome =>
      simp only [step?] at stepped
      split at stepped
      next starter config old held => cases stepped; exact .replaced starter held outcome
      next old wasRunning held => cases stepped; exact .stopEnded held outcome
      next => cases stepped
  | launched conditions => exact step_of_launched stepped
  | release =>
      obtain ⟨errand, held, progress⟩ := Option.bind_eq_some_iff.mp stepped
      exact step_of_release held progress
  | exited id failure =>
      simp only [step?] at stepped
      split at stepped
      next i found =>
        split at stepped
        next alive => cases stepped; exact .exited found alive failure
        next => cases stepped
      next => cases stepped
  | printed id lines => cases stepped; exact .printed id lines
  | look id => exact step_of_look stepped
  | hear id =>
      simp only [step?] at stepped
      split at stepped
      next i found =>
        split at stepped
        next told => cases stepped; exact .heard found told.1 told.2
        next => cases stepped
      next => cases stepped
  | advance id =>
      obtain ⟨i, found, progress⟩ := Option.bind_eq_some_iff.mp stepped
      exact step_of_advance found progress
  | reread task =>
      simp only [step?] at stepped
      split at stepped
      next failed => cases stepped; exact .rereads failed
      next => cases stepped
  | wake task =>
      simp only [step?] at stepped
      split at stepped
      next asleep => cases stepped; exact .wakes asleep
      next => cases stepped

/-! Runs. -/

theorem run?_nil (p : ProcessSettings) (w : Interplay) : run? p w [] = some w := rfl

theorem run?_cons_eq_some {a : Action} {rest : List Action} :
    run? p w (a :: rest) = some w' ↔
      ∃ middle, w.step? p a = some middle ∧ run? p middle rest = some w' :=
  Option.bind_eq_some_iff

theorem run?_append {first second : List Action} :
    run? p w (first ++ second) = (run? p w first).bind (run? p · second) := by
  induction first generalizing w with
  | nil => rfl
  | cons a rest ih =>
      simp only [List.cons_append, run?]
      cases w.step? p a with
      | none => rfl
      | some w => simp [ih]

theorem Reachable.start (p : ProcessSettings) : Reachable p {} := ⟨[], rfl⟩

theorem Reachable.run {actions : List Action} (reachable : Reachable p w)
    (ran : run? p w actions = some w') : Reachable p w' := by
  obtain ⟨before, start⟩ := reachable
  exact ⟨before ++ actions, by rw [run?_append, start]; exact ran⟩

theorem Reachable.step {a : Action} (reachable : Reachable p w)
    (stepped : w.step? p a = some w') : Reachable p w' := by
  have ran : run? p w [a] = some w' := run?_cons_eq_some.mpr ⟨w', stepped, rfl⟩
  exact reachable.run ran

theorem run?_keeps {motive : Interplay → Prop} {actions : List Action}
    (keeps : ∀ {w a e w'}, motive w → Step p w a e w' → motive w') (initial : motive w)
    (ran : run? p w actions = some w') : motive w' := by
  induction actions generalizing w with
  | nil =>
      cases ran
      exact initial
  | cons a rest ih =>
      obtain ⟨middle, stepped, ran⟩ := run?_cons_eq_some.mp ran
      exact ih (keeps initial (step_of_step? stepped)) ran

theorem Reachable.keeps {motive : Interplay → Prop} (initial : motive {})
    (step : ∀ {w a e w'}, motive w → Step p w a e w' → motive w') (reachable : Reachable p w) :
    motive w := by
  obtain ⟨actions, ran⟩ := reachable
  exact run?_keeps step initial ran

theorem exists_step_of_journal_eq {event : Event} {actions : List Action}
    {before after : List Event} (happened : journal p w actions = before ++ event :: after) :
    ∃ earlier v a v' later, run? p w earlier = some v ∧ v.step? p a = some v' ∧
      v.event? p a = some event ∧ journal p v' later = after := by
  induction actions generalizing w before with
  | nil => simp [journal] at happened
  | cons a rest ih =>
      rw [journal] at happened
      split at happened
      next next stepped =>
        have onward {before : List Event} (later : journal p next rest = before ++ event :: after) :
            ∃ earlier v a v' later, run? p w earlier = some v ∧ v.step? p a = some v' ∧
              v.event? p a = some event ∧ journal p v' later = after := by
          obtain ⟨earlier, v, b, v', later, ran, found⟩ := ih later
          exact ⟨a :: earlier, v, b, v', later, run?_cons_eq_some.mpr ⟨next, stepped, ran⟩, found⟩
        cases noted : w.event? p a with
        | none =>
            rw [noted] at happened
            exact onward happened
        | some first =>
            rw [noted] at happened
            cases before with
            | nil =>
                obtain ⟨rfl, later⟩ := List.cons.inj happened
                exact ⟨[], w, a, next, rest, rfl, stepped, noted, later⟩
            | cons => exact onward (List.cons.inj happened).2
      next => simp at happened

theorem exists_mem_of_journal_eq {motive : Interplay → Prop} {ends : Event → Bool} {event : Event}
    (keeps : ∀ {w a e w'}, motive w → Step p w a e w' →
      (∀ event, e = some event → ends event = false) → motive w')
    (excludes : ∀ {w a w'}, motive w → ¬ Step p w a (some event) w')
    {actions : List Action} {before after : List Event} (initial : motive w)
    (happened : journal p w actions = before ++ event :: after) :
    ∃ earlier ∈ before, ends earlier = true := by
  induction actions generalizing w before with
  | nil => simp [journal] at happened
  | cons a rest ih =>
      rw [journal] at happened
      split at happened
      next next stepped =>
        have step := step_of_step? stepped
        cases noted : w.event? p a with
        | none =>
            rw [noted] at happened step
            exact ih (keeps initial step (by simp)) happened
        | some first =>
            rw [noted] at happened step
            cases before with
            | nil =>
                cases (List.cons.inj happened).1
                exact absurd step (excludes initial)
            | cons _ before =>
                obtain ⟨rfl, later⟩ := List.cons.inj happened
                by_cases isEnd : ends first = true
                · exact ⟨first, List.mem_cons_self, isEnd⟩
                · have kept := keeps initial step (by simpa using isEnd)
                  obtain ⟨earlier, member, isEnd⟩ := ih kept later
                  exact ⟨earlier, .tail _ member, isEnd⟩
      next => simp at happened

end Interplay

end RelayControl
