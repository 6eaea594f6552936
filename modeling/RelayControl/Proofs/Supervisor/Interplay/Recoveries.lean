import RelayControl.Proofs.Supervisor.Interplay.Soundness

/-!
Where the recoveries are. The one that holds the lifecycle lock has the stage of a holder, none
expects a generation that is still to come, and one that tries to restart the relay tries it in a
supervisor that is still crashed.
-/

namespace RelayControl

namespace Interplay

variable {p : ProcessSettings} {w w' : Interplay} {a : Action} {e : Option Event}
  {task other id : Nat}

def Starter.task? : Starter → Option Nat
  | .caller _ => none
  | .recovery task => some task

def Errand.task? : Errand → Option Nat
  | .restart starter _ => starter.task?
  | .stop _ => none
  | .checkingPhase task | .checkingGeneration task | .leaving task => some task

def holder? (w : Interplay) : Option Nat := w.lock.bind Errand.task?

def RecoveryStage.expected? : RecoveryStage → Option Nat
  | .waiting expected | .holding expected | .sleeping expected => some expected
  | .rereading | .finished => none

def expectation? (w : Interplay) (task : Nat) : Option Nat :=
  (w.stageOf? task).bind RecoveryStage.expected?

/-! Stages after a step. -/

theorem stageOf?_move (w : Interplay) (task other : Nat) (stage : RecoveryStage) :
    (w.move task stage).stageOf? other =
      if other = task then (w.stageOf? task).map fun _ => stage else w.stageOf? other := by
  simp only [stageOf?, move, List.getElem?_modify]
  split
  next same =>
    subst same
    simp [Function.comp_def]
  next differs => simp [Ne.symm differs]

theorem stageOf?_move_self {before : RecoveryStage} (found : w.stageOf? task = some before)
    (stage : RecoveryStage) : (w.move task stage).stageOf? task = some stage := by
  simp [stageOf?_move, found]

theorem stageOf?_move_of_ne (w : Interplay) (stage : RecoveryStage) (differs : other ≠ task) :
    (w.move task stage).stageOf? other = w.stageOf? other := by
  simp [stageOf?_move, differs]

theorem lt_length_of_stageOf? {stage : RecoveryStage} (found : w.stageOf? task = some stage) :
    task < w.recoveries.length := by
  obtain ⟨recovery, entry, -⟩ := Option.map_eq_some_iff.mp found
  exact (List.getElem?_eq_some_iff.mp entry).1

theorem stageOf?_begin (w : Interplay) (id task : Nat) :
    (w.begin id).stageOf? task =
      if task = w.recoveries.length then some (.waiting id) else w.stageOf? task := by
  simp only [stageOf?, begin]
  split
  next same => simp [same]
  next differs =>
    rcases Nat.lt_or_gt_of_ne differs with below | above
    · rw [List.getElem?_append_left below]
    · rw [List.getElem?_eq_none (by simp; omega), List.getElem?_eq_none (by omega)]

theorem stageOf?_begin_of_some {stage : RecoveryStage} (found : w.stageOf? task = some stage)
    (id : Nat) : (w.begin id).stageOf? task = some stage := by
  rw [stageOf?_begin, if_neg (Nat.ne_of_lt (lt_length_of_stageOf? found)), found]

/-! What steps leave alone. -/

theorem Step.steady (step : Step p w a e w') (settled : w.settled = true) :
    w'.supervisor.generation = w.supervisor.generation ∧
      (w.supervisor.phase = .crashed → w'.supervisor.phase = .crashed) := by
  unfold Interplay.settled at settled
  cases step with
  | callRestart | callStop | callRecovery | refused | passed | unchanged | differs | takeOver
  | skipOver | calledOff | replaced | launched | launchFailed | installed | watched | blamed
  | returned | recovered | attemptFailed | gaveUp | stopTake | stopSkip | stopLooked
  | stopCalledOff | stopEnded | stopReturned | sawCrash | sawOther | sawSame | sawNewer | exited
  | printed | lookedAlive | lookedDead | heard | excused | confirmed | claimed | superseded
  | blames | rereads | wakes => exact ⟨rfl, id⟩
  | kept | stopKept | keeps =>
      exact ⟨Supervisor.generation_keepResult _ _, (Supervisor.phase_keepResult _ _).trans⟩
  | failed | marks => exact ⟨rfl, fun _ => rfl⟩
  | entered _ held | counted _ held | announced _ held | stopHalted held =>
      rw [held] at settled
      cases settled

/-! The recoveries. -/

def RestartStage.trying : RestartStage → Bool
  | .synthesizing | .taking _ | .returning (.refused _) | .returning (.failed _) => true
  | _ => false

def Errand.reliesOnCrash : Errand → Bool
  | .checkingGeneration _ => true
  | .restart (.recovery _) stage => stage.trying
  | _ => false

theorem Errand.settled_of_reliesOnCrash {errand : Errand} (relies : errand.reliesOnCrash = true) :
    errand.settled = true := by
  cases errand with
  | checkingPhase | checkingGeneration | leaving => rfl
  | stop => cases relies
  | restart starter stage =>
      cases starter with
      | caller => cases relies
      | recovery =>
          cases stage with
          | synthesizing | taking | returning => rfl
          | _ => cases relies

theorem Step.holding_of_lock {expected : Nat} (step : Step p w a e w')
    (holding : w.stageOf? task = some (.holding expected)) (held : w.lock ≠ none)
    (same : w'.lock = w.lock) : w'.stageOf? task = some (.holding expected) := by
  cases step with
  | callRecovery free => exact absurd free held
  | recovered | attemptFailed | gaveUp => exact absurd same.symm held
  | rereads failed =>
      rw [stageOf?_move_of_ne, holding]
      rintro rfl
      cases failed.symm.trans holding
  | wakes asleep =>
      rw [stageOf?_move_of_ne, holding]
      rintro rfl
      cases asleep.symm.trans holding
  | marks => exact stageOf?_begin_of_some holding _
  | _ => exact holding

structure Tracked (w : Interplay) : Prop where
  holder : ∀ task, w.holder? = some task → ∃ expected, w.stageOf? task = some (.holding expected)
  bounded : ∀ task expected, w.expectation? task = some expected →
    expected ≤ w.supervisor.generation
  crashed : ∀ errand, w.lock = some errand → errand.reliesOnCrash = true →
    w.supervisor.phase = .crashed
  unforced : ∀ starter config, w.lock = some (.restart starter (.comparing config)) →
    starter.force = false

namespace Tracked

theorem holder_step (tracked : Tracked w) (step : Step p w a e w')
    (holds : w'.holder? = some task) : ∃ expected, w'.stageOf? task = some (.holding expected) := by
  have same (holder : w.holder? = w'.holder?) (stages : w'.stageOf? task = w.stageOf? task) :
      ∃ expected, w'.stageOf? task = some (.holding expected) := by
    rw [stages]
    exact tracked.holder task (holder.trans holds)
  have waited (lock : w'.lock = w.lock) :
      ∃ expected, w'.stageOf? task = some (.holding expected) := by
    rw [holder?, lock] at holds
    obtain ⟨expected, holding⟩ := tracked.holder task holds
    refine ⟨expected, step.holding_of_lock holding ?_ lock⟩
    intro free
    rw [free] at holds
    cases holds
  cases step with
  | callRestart | callStop | returned | recovered | attemptFailed | gaveUp | stopReturned =>
      cases holds
  | callRecovery _ waiting =>
      cases holds
      exact ⟨_, stageOf?_move_self waiting _⟩
  | refused _ held | passed _ held | unchanged _ held | differs _ held | takeOver _ held
  | skipOver _ held | calledOff _ held | replaced _ held | kept _ held | entered _ held
  | counted _ held | launched _ held | launchFailed _ held | installed _ held
  | announced _ held | watched _ held | blamed _ held | failed _ held | stopTake held
  | stopSkip held | stopLooked held | stopCalledOff held | stopEnded held | stopKept held
  | stopHalted held | sawCrash held | sawOther held | sawSame held | sawNewer held =>
      exact same (by rw [holder?, held]; rfl) rfl
  | exited | printed | lookedAlive | lookedDead | heard | excused | confirmed | claimed
  | superseded | blames | keeps | marks | rereads | wakes => exact waited rfl

theorem bounded_move {stage : RecoveryStage} (tracked : Tracked w)
    (within : ∀ expected, stage.expected? = some expected → expected ≤ w.supervisor.generation)
    (expected : Nat) (expects : (w.move task stage).expectation? other = some expected) :
    expected ≤ w.supervisor.generation := by
  unfold expectation? at expects
  rw [stageOf?_move] at expects
  split at expects
  next =>
    obtain ⟨moved, found, expects⟩ := Option.bind_eq_some_iff.mp expects
    obtain ⟨-, -, rfl⟩ := Option.map_eq_some_iff.mp found
    exact within expected expects
  next => exact tracked.bounded other expected expects

theorem expected_le {stage : RecoveryStage} {expected : Nat} (tracked : Tracked w)
    (found : w.stageOf? task = some stage) (expects : stage.expected? = some expected) :
    expected ≤ w.supervisor.generation :=
  tracked.bounded task expected (by rw [expectation?, found]; exact expects)

theorem bounded_step (tracked : Tracked w) (sound : Sound w) (step : Step p w a e w')
    (expected : Nat) (expects : w'.expectation? task = some expected) :
    expected ≤ w'.supervisor.generation := by
  have grows := step.generation_le
  cases step with
  | callRecovery _ waiting =>
      refine bounded_move tracked ?_ expected expects
      rintro _ ⟨⟩
      exact tracked.expected_le waiting rfl
  | recovered | attemptFailed | gaveUp =>
      refine bounded_move tracked ?_ expected expects
      rintro _ ⟨⟩
  | rereads =>
      refine bounded_move tracked ?_ expected expects
      rintro _ ⟨⟩
      exact Nat.le_refl _
  | wakes asleep =>
      refine bounded_move tracked ?_ expected expects
      rintro _ ⟨⟩
      exact tracked.expected_le asleep rfl
  | @marks id _ _ marking =>
      have inCharge := sound.monitored.reading id (by simp [marking, Vigil.reads])
      have within := sound.bounded id (sound.known id inCharge)
      unfold expectation? at expects
      rw [stageOf?_begin] at expects
      split at expects
      next =>
        cases expects
        exact within
      next => exact tracked.bounded task expected expects
  | _ => exact Nat.le_trans (tracked.bounded task expected expects) grows

theorem crashed_step (tracked : Tracked w) (step : Step p w a e w') {errand : Errand}
    (held' : w'.lock = some errand) (relies : errand.reliesOnCrash = true) :
    w'.supervisor.phase = .crashed := by
  have same {before : Errand} (held : w.lock = some before)
      (relied : before.reliesOnCrash = true) : w'.supervisor.phase = .crashed := by
    have settled : w.settled = true := by
      rw [Interplay.settled, held]
      exact Errand.settled_of_reliesOnCrash relied
    exact (step.steady settled).2 (tracked.crashed before held relied)
  have onward {starter : Starter} {stage next : RestartStage}
      (held : w.lock = some (.restart starter stage)) (trying : stage.trying = true)
      (moved : w'.lock = some (.restart starter next)) : w'.supervisor.phase = .crashed := by
    rw [moved] at held'
    cases held'
    cases starter with
    | caller => cases relies
    | recovery => exact same held trying
  cases step with
  | callRestart | callStop | callRecovery | stopTake | stopSkip | stopLooked | stopCalledOff
  | stopEnded | stopKept | stopHalted | sawOther | sawNewer =>
      cases held'
      cases relies
  | returned | recovered | attemptFailed | gaveUp | stopReturned => cases held'
  | differs starter held =>
      have unforced := tracked.unforced starter _ held
      cases held'
      cases starter with
      | caller => cases relies
      | recovery => cases unforced
  | unchanged starter | takeOver starter | skipOver starter | calledOff starter
  | replaced starter | kept starter | entered starter | counted starter | launched starter
  | launchFailed starter | installed starter | announced starter | watched starter
  | blamed starter =>
      cases held'
      cases starter <;> cases relies
  | failed => rfl
  | refused starter held => exact onward held rfl rfl
  | passed starter held => exact onward held rfl rfl
  | sawCrash _ crashed => exact crashed
  | sawSame held => exact same held rfl
  | exited | printed | lookedAlive | lookedDead | heard | excused | confirmed | claimed
  | superseded | blames | keeps | marks | rereads | wakes => exact same held' relies

theorem unforced_step (tracked : Tracked w) (step : Step p w a e w') {starter : Starter}
    {config : RelayConfig} (held' : w'.lock = some (.restart starter (.comparing config))) :
    starter.force = false := by
  cases step with
  | passed _ _ next =>
      cases held'
      rcases next with taking | ⟨-, unforced⟩
      · cases taking
      · exact unforced
  | exited | printed | lookedAlive | lookedDead | heard | excused | confirmed | claimed
  | superseded | blames | keeps | marks | rereads | wakes =>
      exact tracked.unforced starter config held'
  | _ => cases held'

theorem step (tracked : Tracked w) (sound : Sound w) (step : Step p w a e w') : Tracked w' where
  holder _ holds := tracked.holder_step step holds
  bounded _ expected expects := tracked.bounded_step sound step expected expects
  crashed _ held relies := tracked.crashed_step step held relies
  unforced _ _ held := tracked.unforced_step step held

theorem start : Tracked {} where
  holder := by simp [holder?]
  bounded := by simp [expectation?, stageOf?]
  crashed := by simp
  unforced := by simp

theorem crashed_of_failure (tracked : Tracked w) {ending : Ending} {f : Fault}
    (held : w.lock = some (.restart (.recovery task) (.returning ending)))
    (failure : ending.result = .error f) : w.supervisor.phase = .crashed := by
  refine tracked.crashed _ held ?_
  cases ending with
  | refused | failed => rfl
  | unchanged | started => cases failure

theorem finished_step (tracked : Tracked w) (step : Step p w a e w')
    (finished : w.stageOf? task = some .finished) : w'.stageOf? task = some .finished := by
  have other {moved : Nat} {stage : RecoveryStage} (found : w.stageOf? moved = some stage)
      (going : stage ≠ .finished) (next : RecoveryStage) :
      (w.move moved next).stageOf? task = some .finished := by
    rw [stageOf?_move_of_ne, finished]
    rintro rfl
    exact going (Option.some.inj (found.symm.trans finished))
  have released {moved : Nat} (holds : w.holder? = some moved) (next : RecoveryStage) :
      (w.move moved next).stageOf? task = some .finished := by
    obtain ⟨expected, holding⟩ := tracked.holder moved holds
    exact other holding (by simp) next
  cases step with
  | callRecovery _ found | rereads found | wakes found => exact other found (by simp) _
  | recovered held | attemptFailed held | gaveUp held =>
      exact released (by rw [holder?, held]; rfl) _
  | marks => exact stageOf?_begin_of_some finished _
  | _ => exact finished

end Tracked

/-! What a recovery does while it holds the lock. -/

section Holding

variable (step : Step p w a e w')

include step

theorem Step.of_checkingPhase (held : w.lock = some (.checkingPhase task)) :
    w'.lock = w.lock ∨
      (w.supervisor.phase = .crashed ∧ w' = w.holds (.checkingGeneration task) ∨
        w.supervisor.phase ≠ .crashed ∧ w' = w.holds (.leaving task)) := by
  cases step with
  | callRestart free | callStop free | callRecovery free => cases free.symm.trans held
  | refused _ other | passed _ other | unchanged _ other | differs _ other | takeOver _ other
  | skipOver _ other | calledOff _ other | replaced _ other | kept _ other | entered _ other
  | counted _ other | launched _ other | launchFailed _ other | installed _ other
  | announced _ other | watched _ other | blamed _ other | failed _ other | returned other
  | recovered other | attemptFailed other | gaveUp other | stopTake other | stopSkip other
  | stopLooked other | stopCalledOff other | stopEnded other | stopKept other
  | stopHalted other | stopReturned other | sawSame other | sawNewer other =>
      cases other.symm.trans held
  | sawCrash own crashed =>
      cases own.symm.trans held
      exact .inr (.inl ⟨crashed, rfl⟩)
  | sawOther own other =>
      cases own.symm.trans held
      exact .inr (.inr ⟨other, rfl⟩)
  | exited | printed | lookedAlive | lookedDead | heard | excused | confirmed | claimed
  | superseded | blames | keeps | marks | rereads | wakes => exact .inl rfl

theorem Step.of_checkingGeneration (held : w.lock = some (.checkingGeneration task)) :
    w'.lock = w.lock ∨
      (w.stageOf? task = some (.holding w.supervisor.generation) ∧
          w' = w.holds (.restart (.recovery task) .synthesizing) ∨
        w.stageOf? task ≠ some (.holding w.supervisor.generation) ∧
          w' = w.holds (.leaving task)) := by
  cases step with
  | callRestart free | callStop free | callRecovery free => cases free.symm.trans held
  | refused _ other | passed _ other | unchanged _ other | differs _ other | takeOver _ other
  | skipOver _ other | calledOff _ other | replaced _ other | kept _ other | entered _ other
  | counted _ other | launched _ other | launchFailed _ other | installed _ other
  | announced _ other | watched _ other | blamed _ other | failed _ other | returned other
  | recovered other | attemptFailed other | gaveUp other | stopTake other | stopSkip other
  | stopLooked other | stopCalledOff other | stopEnded other | stopKept other
  | stopHalted other | stopReturned other | sawCrash other | sawOther other =>
      cases other.symm.trans held
  | sawSame own same =>
      cases own.symm.trans held
      exact .inr (.inl ⟨same, rfl⟩)
  | sawNewer own newer =>
      cases own.symm.trans held
      exact .inr (.inr ⟨newer, rfl⟩)
  | exited | printed | lookedAlive | lookedDead | heard | excused | confirmed | claimed
  | superseded | blames | keeps | marks | rereads | wakes => exact .inl rfl

theorem Step.of_attempt {stage : RestartStage}
    (held : w.lock = some (.restart (.recovery task) stage)) :
    w'.lock = w.lock ∨
      (∃ next, w'.lock = some (.restart (.recovery task) next) ∧
        (stage.trying = true → w'.supervisor.current ≠ none → next.trying = true)) ∨
      ∃ ending, stage = .returning ending ∧
        (ending.result = .ok () ∧ w' = (w.move task .finished).frees ∨
          (∃ f, ending.result = .error f) ∧ w' = (w.move task .rereading).frees) := by
  cases step with
  | callRestart free | callStop free | callRecovery free => cases free.symm.trans held
  | returned other | gaveUp other | stopTake other | stopSkip other | stopLooked other
  | stopCalledOff other | stopEnded other | stopKept other | stopHalted other
  | stopReturned other | sawCrash other | sawOther other | sawSame other | sawNewer other =>
      cases other.symm.trans held
  | refused _ own | failed _ own =>
      cases own.symm.trans held
      exact .inr (.inl ⟨_, rfl, fun _ _ => rfl⟩)
  | passed _ own next =>
      cases own.symm.trans held
      rcases next with rfl | ⟨-, unforced⟩
      · exact .inr (.inl ⟨_, rfl, fun _ _ => rfl⟩)
      · cases unforced
  | takeOver _ own | skipOver _ own =>
      cases own.symm.trans held
      exact .inr (.inl ⟨_, rfl, fun _ occupied => absurd rfl occupied⟩)
  | unchanged _ own | differs _ own | calledOff _ own | replaced _ own | kept _ own
  | entered _ own | counted _ own | launched _ own | launchFailed _ own | installed _ own
  | announced _ own | watched _ own | blamed _ own =>
      cases own.symm.trans held
      exact .inr (.inl ⟨_, rfl, fun trying => by cases trying⟩)
  | recovered own success =>
      cases own.symm.trans held
      exact .inr (.inr ⟨_, rfl, .inl ⟨success, rfl⟩⟩)
  | attemptFailed own failure =>
      cases own.symm.trans held
      exact .inr (.inr ⟨_, rfl, .inr ⟨⟨_, failure⟩, rfl⟩⟩)
  | exited | printed | lookedAlive | lookedDead | heard | excused | confirmed | claimed
  | superseded | blames | keeps | marks | rereads | wakes => exact .inl rfl

end Holding

theorem Reachable.tracked (reachable : Reachable p w) : Tracked w := by
  have both := reachable.keeps (motive := fun w => Sound w ∧ Tracked w)
    ⟨Sound.start, Tracked.start⟩ fun known step => ⟨known.1.step step, known.2.step known.1 step⟩
  exact both.2

end Interplay

end RelayControl
