import RelayControl.Proofs.Supervisor.Interplay.Responsibility

/-!
A recovery gives way to whoever stopped or restarted the relay since it last read the generation.
After an attempt that failed it reads the generation again when it has given the lock back already,
and so it takes no notice of those who came in between.
-/

namespace RelayControl

namespace Interplay

variable {p : ProcessSettings} {w w' : Interplay} {a : Action} {e : Option Event}
  {task id : Nat}

/-! Generations whose crash was dealt with. -/

def RestartStage.starting : RestartStage → Bool
  | .launching .. | .installing _ | .announcing _ | .watching _ | .blaming _ | .failing _ => true
  | _ => false

/-- Nothing is in charge, nothing has crashed, and no process is being started. -/
structure Halted (w : Interplay) : Prop where
  vacant : w.supervisor.current = none
  calm : w.supervisor.phase ≠ .crashed
  idle : ∀ starter stage, w.lock = some (.restart starter stage) → stage.starting = false

theorem Halted.step (halted : w.Halted) (sound : Sound w) (step : Step p w a e w') :
    w'.Halted ∨ w.supervisor.generation < w'.supervisor.generation := by
  cases step with
  | callRestart | callStop | callRecovery | refused | unchanged | differs | takeOver | skipOver
  | calledOff | replaced | returned | recovered | attemptFailed | gaveUp | stopTake | stopSkip
  | stopLooked | stopCalledOff | stopEnded | stopReturned | sawCrash | sawOther | sawSame
  | sawNewer =>
      exact .inl ⟨by first | rfl | exact halted.vacant, halted.calm,
        fun _ _ held => by cases held <;> rfl⟩
  | passed _ _ next =>
      refine .inl ⟨halted.vacant, halted.calm, fun _ _ held => ?_⟩
      cases held
      rcases next with rfl | ⟨rfl, -⟩ <;> rfl
  | kept | stopKept =>
      exact .inl ⟨(Supervisor.keepResult_current _ _).trans halted.vacant,
        fun crashed => halted.calm ((Supervisor.phase_keepResult _ _).symm.trans crashed),
        fun _ _ held => by cases held <;> rfl⟩
  | entered | stopHalted =>
      exact .inl ⟨halted.vacant, by simp, fun _ _ held => by cases held <;> rfl⟩
  | counted => exact .inr (Nat.lt_succ_self _)
  | launched _ held | launchFailed _ held | installed _ held | announced _ held | watched _ held
  | blamed _ held | failed _ held => cases halted.idle _ _ held
  | exited | printed | lookedAlive | lookedDead | heard | excused | confirmed | claimed
  | superseded | blames | rereads | wakes =>
      exact .inl ⟨halted.vacant, halted.calm, halted.idle⟩
  | keeps =>
      exact .inl ⟨(Supervisor.keepResult_current _ _).trans halted.vacant,
        fun crashed => halted.calm ((Supervisor.phase_keepResult _ _).symm.trans crashed),
        halted.idle⟩
  | marks _ marking =>
      -- Only what is in charge is reported.
      have inCharge := sound.monitored.reading _ (by rw [marking]; rfl)
      cases halted.vacant.symm.trans inCharge

inductive Lapsed (w : Interplay) (expected : Nat) : Prop where
  | newer (newer : expected < w.supervisor.generation)
  | halted (halted : w.Halted)

theorem Lapsed.step {expected : Nat} (lapsed : w.Lapsed expected) (sound : Sound w)
    (within : expected ≤ w.supervisor.generation) (step : Step p w a e w') :
    w'.Lapsed expected := by
  cases lapsed with
  | newer newer => exact .newer (Nat.lt_of_lt_of_le newer step.generation_le)
  | halted halted =>
      rcases halted.step sound step with halted | later
      · exact .halted halted
      · exact .newer (Nat.lt_of_le_of_lt within later)

/-! Recoveries that were overtaken by others. -/

namespace Event

/-- Whether it settles the crash: a stop that is done, or a start of anyone but this recovery. -/
def overrides (task : Nat) : Event → Bool
  | .stopReturned _ => true
  | .begun starter _ => starter != .recovery task
  | _ => false

def rereads (task : Nat) : Event → Bool
  | .reread other => other == task
  | _ => false

def starts (task : Nat) : Event → Bool
  | .begun starter _ | .started starter _ => starter == .recovery task
  | _ => false

end Event

theorem Step.known (step : Step p w a e w') (known : ∃ stage, w.stageOf? task = some stage) :
    ∃ stage, w'.stageOf? task = some stage := by
  obtain ⟨stage, found⟩ := known
  have moved (other : Nat) (next : RecoveryStage) :
      ∃ stage, (w.move other next).stageOf? task = some stage := by
    by_cases own : task = other
    · subst own
      exact ⟨next, stageOf?_move_self found next⟩
    · exact ⟨stage, (stageOf?_move_of_ne w next own).trans found⟩
  cases step with
  | callRecovery | recovered | attemptFailed | gaveUp | rereads | wakes => exact moved _ _
  | marks => exact ⟨stage, stageOf?_begin_of_some found _⟩
  | _ => exact ⟨stage, found⟩

theorem Step.known_of_reported (step : Step p w a (some (.reported id task)) w') :
    ∃ stage, w'.stageOf? task = some stage := by
  cases step with
  | marks => exact ⟨.waiting id, by simp [stageOf?_begin]⟩

theorem Step.expectation (step : Step p w a e w') (known : ∃ stage, w.stageOf? task = some stage)
    (quiet : ∀ event, e = some event → event.rereads task = false) {expected : Nat}
    (expects : w'.expectation? task = some expected) : w.expectation? task = some expected := by
  obtain ⟨stage, found⟩ := known
  have moved {other : Nat} {next : RecoveryStage}
      (same : task = other → next.expected? = none ∨ next.expected? = stage.expected?)
      (expects : (w.move other next).expectation? task = some expected) :
      w.expectation? task = some expected := by
    by_cases own : task = other
    · rw [expectation?, found]
      subst own
      rw [expectation?, stageOf?_move_self found] at expects
      rcases same rfl with none | same
      · cases none.symm.trans expects
      · exact same.symm.trans expects
    · rwa [expectation?, stageOf?_move_of_ne w next own] at expects
  cases step with
  | callRecovery _ before | wakes before =>
      refine moved (fun own => ?_) expects
      subst own
      cases found.symm.trans before
      exact .inr rfl
  | recovered | attemptFailed | gaveUp => exact moved (fun _ => .inl rfl) expects
  | @rereads other =>
      have differs : (other == task) = false := quiet _ rfl
      refine moved (fun own => ?_) expects
      simp [own] at differs
  | marks =>
      have begun : (w.begin _).expectation? task = some expected := expects
      rw [expectation?, stageOf?_begin_of_some found] at begun
      rwa [expectation?, found]
  | _ => exact expects

theorem Step.restarting {stage : RestartStage} (step : Step p w a e w')
    (held' : w'.lock = some (.restart (.recovery task) stage)) :
    (∃ before, w.lock = some (.restart (.recovery task) before)) ∨
      w.lock = some (.checkingGeneration task) ∧
        w.stageOf? task = some (.holding w.supervisor.generation) := by
  cases step with
  | refused _ held | passed _ held | unchanged _ held | differs _ held | takeOver _ held
  | skipOver _ held | calledOff _ held | replaced _ held | kept _ held | entered _ held
  | counted _ held | launched _ held | launchFailed _ held | installed _ held
  | announced _ held | watched _ held | blamed _ held | failed _ held =>
      cases held'
      exact .inl ⟨_, held⟩
  | sawSame held same =>
      cases held'
      exact .inr ⟨held, same⟩
  | exited | printed | lookedAlive | lookedDead | heard | excused | confirmed | claimed
  | superseded | blames | keeps | marks | rereads | wakes => exact .inl ⟨stage, held'⟩
  | _ => cases held'

/-- A recovery whose crash was settled by others, and that has not read the generation since. -/
structure Overtaken (w : Interplay) (task : Nat) : Prop where
  known : ∃ stage, w.stageOf? task = some stage
  lapsed : ∀ expected, w.expectation? task = some expected → w.Lapsed expected
  idle : ∀ stage, w.lock ≠ some (.restart (.recovery task) stage)

namespace Overtaken

theorem of_overrides {event : Event} (sound : Sound w) (tracked : Tracked w)
    (known : ∃ stage, w.stageOf? task = some stage) (step : Step p w a (some event) w')
    (overrides : event.overrides task = true) : w'.Overtaken task := by
  have fits := sound.fits
  cases step with
  | stopReturned held =>
      rw [held] at fits
      obtain ⟨settled, stopped⟩ : Settled w.supervisor ∧ _ := fits
      refine ⟨known, fun _ _ => .halted ⟨settled.stopped stopped, by simp [stopped], ?_⟩, by simp⟩
      rintro _ _ ⟨⟩
  | counted starter =>
      refine ⟨known, fun expected expects => .newer ?_, ?_⟩
      · exact Nat.lt_succ_of_le (tracked.bounded task expected expects)
      · rintro _ ⟨⟩
        simp [Event.overrides] at overrides
  | _ => cases overrides

theorem step (overtaken : w.Overtaken task) (sound : Sound w) (tracked : Tracked w)
    (step : Step p w a e w') (quiet : ∀ event, e = some event → event.rereads task = false) :
    w'.Overtaken task where
  known := step.known overtaken.known
  lapsed expected expects := by
    have expected? := step.expectation overtaken.known quiet expects
    exact (overtaken.lapsed expected expected?).step sound (tracked.bounded task expected expected?)
      step
  idle stage held' := by
    -- It saw the crash before it compares, so its generation lapsed because there is a newer one.
    rcases step.restarting held' with ⟨before, held⟩ | ⟨held, same⟩
    · exact overtaken.idle before held
    · have crashed := tracked.crashed _ held rfl
      cases overtaken.lapsed _ (by rw [expectation?, same]; rfl) with
      | newer newer => exact Nat.lt_irrefl _ newer
      | halted halted => exact halted.calm crashed

theorem not_starts {event : Event} (overtaken : w.Overtaken task)
    (starts : event.starts task = true) : ¬ Step p w a (some event) w' := by
  intro step
  cases step with
  | counted _ held | launched _ held =>
      cases eq_of_beq starts
      exact overtaken.idle _ held
  | _ => cases starts

end Overtaken

/--
A recovery that starts a process although, since the crash was recorded, a stop was done or another
began a start, has read the generation again in between.
-/
theorem overtaken_recovery_rereads {actions : List Action} {id : Nat} {x start : Event}
    {before early between after : List Event}
    (happened : journal p {} actions =
      before ++ .reported id task :: (early ++ x :: (between ++ start :: after)))
    (overrides : x.overrides task = true) (starts : start.starts task = true) :
    ∃ event ∈ between, event.rereads task = true := by
  obtain ⟨toReport, u, a, u', sinceReport, ranToReport, reports, reported, happened⟩ :=
    exists_step_of_journal_eq happened
  obtain ⟨toOverride, v, b, v', sinceOverride, ranToOverride, settles, settled, happened⟩ :=
    exists_step_of_journal_eq happened
  have reachable : Reachable p v :=
    (Reachable.step ⟨toReport, ranToReport⟩ reports).run ranToOverride
  have report := step_of_step? reports
  rw [reported] at report
  have override := step_of_step? settles
  rw [settled] at override
  have known : ∃ stage, v.stageOf? task = some stage :=
    run?_keeps (motive := fun w => ∃ stage, w.stageOf? task = some stage)
      (fun known step => step.known known) report.known_of_reported ranToOverride
  have sound := reachable.sound
  have tracked := reachable.tracked
  have overtaken := Overtaken.of_overrides sound tracked known override overrides
  refine exists_mem_of_journal_eq (motive := fun w => Sound w ∧ Tracked w ∧ w.Overtaken task) ?_ ?_
    ⟨sound.step override, tracked.step sound override, overtaken⟩ happened
  · rintro w a e w' ⟨sound, tracked, overtaken⟩ step quiet
    exact ⟨sound.step step, tracked.step sound step, overtaken.step sound tracked step quiet⟩
  · rintro w a w' ⟨-, -, overtaken⟩
    exact overtaken.not_starts starts

def refusedRecovery (task : Nat) : List Action :=
  [.callRecovery task, .proceed, .proceed, .synthesized (.error .noCredential), .release]

def failingRestart : List Action :=
  [.callRestart false, .synthesized (.ok {}), .proceed, .proceed, .proceed, .proceed,
    .launched { spawn := .error "No such file or directory" }, .proceed, .proceed, .release]

def recovering (task : Nat) : List Action :=
  [.callRecovery task, .proceed, .proceed, .synthesized (.ok {}), .proceed, .proceed, .proceed,
    .launched { spawn := .ok 8 }]

/--
After the attempt of a recovery failed, and before it reads the generation again, the relay is
stopped and somebody tries in vain to start it.
-/
def overtaking : List Action :=
  restarting ++ crashing 1 ++ refusedRecovery 0 ++ stopping ++ failingRestart ++
    [.reread 0, .wake 0] ++ recovering 0

theorem overtaken_recovery_rereads_stopped :
    ∃ before early between,
      journal {} {} overtaking = before ++ .reported 1 0 :: (early ++
        .stopReturned (.error .notRunning) :: (between ++ .started (.recovery 0) 3 :: [])) ∧
        ∃ event ∈ between, event.rereads 0 = true := by
  have reached : ∃ before early between,
      journal {} {} overtaking = before ++ .reported 1 0 :: (early ++
        .stopReturned (.error .notRunning) :: (between ++ .started (.recovery 0) 3 :: [])) :=
    ⟨[_, _, _, _], [_, _], [_, _, _, _, _, _], rfl⟩
  obtain ⟨before, early, between, happened⟩ := reached
  exact ⟨before, early, between, happened, overtaken_recovery_rereads happened rfl rfl⟩

namespace Event

/-- Whether a recovery has something to recover from: a crash, or its own attempt that failed. -/
def prompts (task : Nat) : Event → Bool
  | .reported _ other | .restartReturned (.recovery other) (.refused _)
  | .restartReturned (.recovery other) (.failed _) => other == task
  | _ => false

def settles : Event → Bool
  | .stopReturned _ | .restartReturned (.caller _) .unchanged
  | .restartReturned (.caller _) .started | .restartReturned (.caller _) (.failed _) => true
  | _ => false

end Event

def Yields (task : Nat) (events : List Event) : Prop :=
  ∀ before prompt since id after,
    events = before ++ prompt :: (since ++ .started (.recovery task) id :: after) →
    prompt.prompts task = true → (∀ event ∈ since, event.prompts task = false) →
    ∀ event ∈ since, event.settles = false

theorem recovery_overtakes_stop : ¬ ∀ p actions task, Yields task (journal p {} actions) := by
  intro yields
  have happened : ∃ before f, journal {} {} overtaking =
      before ++ .restartReturned (.recovery 0) (.refused .noCredential) ::
        ([.stopCalled, .stopReturned (.error .notRunning), .passed (.caller false),
            .begun (.caller false) 2, .restartReturned (.caller false) (.failed f), .reread 0,
            .passed (.recovery 0), .begun (.recovery 0) 3] ++
          .started (.recovery 0) 3 :: []) :=
    ⟨[_, _, _, _, _], _, rfl⟩
  obtain ⟨before, f, happened⟩ := happened
  have unsettled := yields {} overtaking 0 before _ _ 3 [] happened rfl (by simp [Event.prompts])
    (.stopReturned (.error .notRunning)) (by simp)
  cases unsettled

end Interplay

end RelayControl
