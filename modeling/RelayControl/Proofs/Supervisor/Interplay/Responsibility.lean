import RelayControl.Proofs.Supervisor.Interplay.Monitoring
import RelayControl.Proofs.Supervisor.Interplay.Recoveries

/-!
Somebody answers for every crash: the monitor until it has recorded it, and from then on a recovery,
which tries until a process was started or others took over.
-/

namespace RelayControl

namespace Supervisor

variable (s : Supervisor) (id : Nat)

def notices (s : Supervisor) : List (Nat × Bool) :=
  s.instances.map fun i => (i.id, i.cancelled)

@[simp] theorem notices_stopProcess : (s.stopProcess id).notices = s.notices :=
  map_update_of_keeps s id fun _ => rfl

@[simp] theorem notices_exitProcess (failure : ProcessFailure) :
    (s.exitProcess id failure).notices = s.notices :=
  map_update_of_keeps s id fun i =>
    Prod.ext (i.process.exited_id failure) rfl

@[simp] theorem notices_print (lines : List String) : (s.print id lines).notices = s.notices :=
  map_update_of_keeps s id fun _ => rfl

@[simp] theorem notices_keepResult : (s.keepResult id).notices = s.notices := by
  unfold keepResult
  split <;> rfl

variable {s id}

theorem mem_notices_callOff {other : Nat} (told : (other, true) ∈ (s.callOff id).notices) :
    other = id ∨ (other, true) ∈ s.notices := by
  obtain ⟨changed, member, entry⟩ := List.mem_map.mp told
  obtain ⟨i, inside, rfl⟩ := List.mem_map.mp member
  split at entry
  next same => exact .inl ((Prod.mk.inj entry).1.symm.trans (eq_of_beq same))
  next => exact .inr (List.mem_map.mpr ⟨i, inside, entry⟩)

theorem mem_ids_of_mem_notices {cancelled : Bool} (member : (id, cancelled) ∈ s.notices) :
    id ∈ s.ids := by
  obtain ⟨i, inside, entry⟩ := List.mem_map.mp member
  rw [ids, census, List.map_map]
  exact List.mem_map.mpr ⟨i, inside, (Prod.mk.inj entry).1⟩

end Supervisor

namespace Interplay

variable {p : ProcessSettings} {w w' : Interplay} {a : Action} {e : Option Event}
  {task id : Nat}

/-! Recoveries that are going to try again. -/

/-- A recovery without the lock that expects the generation as it is, or is about to. -/
inductive Pending (w : Interplay) (task : Nat) : Prop where
  | waiting (stage : w.stageOf? task = some (.waiting w.supervisor.generation))
  | sleeping (stage : w.stageOf? task = some (.sleeping w.supervisor.generation))
  | rereading (stage : w.stageOf? task = some .rereading)

inductive Poised (w : Interplay) (task : Nat) : Prop where
  | pending (pending : w.Pending task)
  | looking (held : w.lock = some (.checkingPhase task))
      (stage : w.stageOf? task = some (.holding w.supervisor.generation))
  | comparing (held : w.lock = some (.checkingGeneration task))
      (stage : w.stageOf? task = some (.holding w.supervisor.generation))

namespace Pending

theorem known (pending : w.Pending task) : ∃ stage, w.stageOf? task = some stage := by
  cases pending with
  | waiting stage | sleeping stage | rereading stage => exact ⟨_, stage⟩

theorem not_holder (pending : w.Pending task) (tracked : Tracked w) : w.holder? ≠ some task := by
  intro holds
  obtain ⟨expected, holding⟩ := tracked.holder task holds
  cases pending with
  | waiting stage | sleeping stage | rereading stage => cases stage.symm.trans holding

theorem of_failure (tracked : Tracked w) {stage : RestartStage}
    (held : w.lock = some (.restart (.recovery task) stage)) :
    (w.move task .rereading).frees.Pending task := by
  obtain ⟨expected, holding⟩ := tracked.holder task (by rw [holder?, held]; rfl)
  exact .rereading (stageOf?_move_self holding _)

theorem of_same (pending : w.Pending task) (stages : w'.stageOf? task = w.stageOf? task)
    (generation : w'.supervisor.generation = w.supervisor.generation) : w'.Pending task := by
  cases pending with
  | waiting stage => exact .waiting (by rw [stages, generation, stage])
  | sleeping stage => exact .sleeping (by rw [stages, generation, stage])
  | rereading stage => exact .rereading (by rw [stages, stage])

theorem step (pending : w.Pending task) (tracked : Tracked w) (step : Step p w a e w')
    (same : w'.supervisor.generation = w.supervisor.generation) : w'.Poised task := by
  have released {other : Nat} (holds : w.holder? = some other) (stage : RecoveryStage) :
      (w.move other stage).frees.Poised task := by
    refine .pending (pending.of_same (stageOf?_move_of_ne w stage ?_) rfl)
    rintro rfl
    exact pending.not_holder tracked holds
  cases step with
  | @callRecovery other _ _ waiting =>
      by_cases own : task = other
      · subst own
        cases pending with
        | waiting stage =>
            cases stage.symm.trans waiting
            exact .looking rfl (stageOf?_move_self waiting _)
        | sleeping stage | rereading stage => cases stage.symm.trans waiting
      · exact .pending (pending.of_same (stageOf?_move_of_ne w _ own) rfl)
  | recovered held | attemptFailed held | gaveUp held =>
      exact released (by rw [holder?, held]; rfl) _
  | @rereads other failed =>
      by_cases own : task = other
      · subst own
        exact .pending (.sleeping (stageOf?_move_self failed _))
      · exact .pending (pending.of_same (stageOf?_move_of_ne w _ own) rfl)
  | @wakes other _ asleep =>
      by_cases own : task = other
      · subst own
        cases pending with
        | sleeping stage =>
            cases stage.symm.trans asleep
            exact .pending (.waiting (stageOf?_move_self asleep _))
        | waiting stage | rereading stage => cases stage.symm.trans asleep
      · exact .pending (pending.of_same (stageOf?_move_of_ne w _ own) rfl)
  | marks =>
      obtain ⟨stage, found⟩ := pending.known
      exact .pending (pending.of_same ((stageOf?_begin_of_some found _).trans found.symm) rfl)
  | _ => exact .pending (pending.of_same rfl same)

end Pending

namespace Poised

theorem not_restarting (poised : w.Poised task) (tracked : Tracked w) (stage : RestartStage) :
    w.lock ≠ some (.restart (.recovery task) stage) := by
  intro restarts
  cases poised with
  | pending pending => exact pending.not_holder tracked (by rw [holder?, restarts]; rfl)
  | looking held | comparing held => cases restarts.symm.trans held

theorem pending_of_free (poised : w.Poised task) (free : w.lock = none) : w.Pending task := by
  cases poised with
  | pending pending => exact pending
  | looking held | comparing held => cases free.symm.trans held

theorem step (poised : w.Poised task) (tracked : Tracked w)
    (crashed : w.supervisor.phase = .crashed) (step : Step p w a e w')
    (same : w'.supervisor.generation = w.supervisor.generation) :
    w'.Poised task ∨ w'.lock = some (.restart (.recovery task) .synthesizing) := by
  cases poised with
  | pending pending => exact .inl (pending.step tracked step same)
  | looking held stage =>
      rcases step.of_checkingPhase held with kept | ⟨-, rfl⟩ | ⟨alive, -⟩
      · have holding := step.holding_of_lock stage (by simp [held]) kept
        exact .inl (.looking (kept.trans held) (by rw [holding, same]))
      · exact .inl (.comparing rfl stage)
      · exact absurd crashed alive
  | comparing held stage =>
      rcases step.of_checkingGeneration held with kept | ⟨-, rfl⟩ | ⟨newer, -⟩
      · have holding := step.holding_of_lock stage (by simp [held]) kept
        exact .inl (.comparing (kept.trans held) (by rw [holding, same]))
      · exact .inr rfl
      · exact absurd stage newer

end Poised

/-! A crash of which the monitor is done. -/

structure Handled (w : Interplay) (id : Nat) : Prop where
  inCharge : w.supervisor.current = some id
  crashed : w.supervisor.phase = .crashed
  recovering : ∃ task, w.Poised task ∨
    ∃ stage, w.lock = some (.restart (.recovery task) stage) ∧ stage.trying = true

theorem Handled.step (handled : Handled w id) (sound : Sound w) (tracked : Tracked w)
    (watched : w.monitor id ≠ .absent) (step : Step p w a e w')
    (inCharge : w'.supervisor.current = some id) : Handled w' id := by
  have settled := sound.settled_of_watched handled.inCharge watched
  obtain ⟨same, crashes⟩ := step.steady settled
  refine ⟨inCharge, crashes handled.crashed, ?_⟩
  -- Either the recovery has yet to see the crash, or it holds the lock and tries.
  obtain ⟨task, poised | ⟨stage, held, trying⟩⟩ := handled.recovering
  · rcases poised.step tracked handled.crashed step same with poised | restarts
    · exact ⟨task, .inl poised⟩
    · exact ⟨task, .inr ⟨_, restarts, rfl⟩⟩
  · rcases step.of_attempt held with
      kept | ⟨next, held', tries⟩ | ⟨ending, rfl, ⟨success, -⟩ | ⟨-, rfl⟩⟩
    · exact ⟨task, .inr ⟨stage, kept.trans held, trying⟩⟩
    · exact ⟨task, .inr ⟨next, held', tries trying (by simp [inCharge])⟩⟩
    · cases ending with
      | refused | failed => cases success
      | unchanged | started => cases trying
    · exact ⟨task, .inl (.pending (.of_failure tracked held))⟩

/-! A monitor that is still to come. -/

def RestartStage.arriving? : RestartStage → Option Nat
  | .installing id | .announcing id | .watching id => some id
  | _ => none

def arriving? (w : Interplay) : Option Nat :=
  match w.lock with
  | some (.restart _ stage) => stage.arriving?
  | _ => none

theorem watch_monitor_cases {changed : Nat} {vigil after : Vigil}
    (found : (w.watch changed vigil).monitor id = after) :
    id = changed ∧ vigil = after ∨ w.monitor id = after := by
  rw [watch_monitor] at found
  split at found
  next same => exact .inl ⟨same, found⟩
  next => exact .inr found

theorem Step.absent_of_absent (step : Step p w a e w') (absent : w'.monitor id = .absent) :
    w.monitor id = .absent := by
  cases step with
  | watched | lookedDead | heard | excused | confirmed | claimed | superseded | blames | keeps
  | marks =>
      rcases watch_monitor_cases absent with ⟨-, present⟩ | before
      · cases present
      · exact before
  | _ => exact absent

theorem Step.arriving (step : Step p w a e w') (arriving : w.arriving? = some id)
    (absent : w'.monitor id = .absent) : w'.arriving? = some id := by
  cases step with
  | callRestart free | callStop free | callRecovery free =>
      rw [arriving?, free] at arriving
      cases arriving
  | refused _ held | passed _ held | unchanged _ held | differs _ held | takeOver _ held
  | skipOver _ held | calledOff _ held | replaced _ held | kept _ held | entered _ held
  | counted _ held | launched _ held | launchFailed _ held | blamed _ held | failed _ held
  | returned held | recovered held | attemptFailed held | gaveUp held | stopTake held
  | stopSkip held | stopLooked held | stopCalledOff held | stopEnded held | stopKept held
  | stopHalted held | stopReturned held | sawCrash held | sawOther held | sawSame held
  | sawNewer held =>
      rw [arriving?, held] at arriving
      cases arriving
  | installed _ held | announced _ held =>
      rw [arriving?, held] at arriving
      exact arriving
  | watched _ held =>
      rw [arriving?, held] at arriving
      cases arriving
      cases (watch_monitor_self w _ .polling).symm.trans absent
  | exited | printed | lookedAlive | lookedDead | heard | excused | confirmed | claimed
  | superseded | blames | keeps | marks | rereads | wakes => exact arriving

/-- Why a monitor does nothing. -/
structure Answered (w : Interplay) : Prop where
  told : ∀ id, (id, true) ∈ w.supervisor.notices → Dismissed w id
  absent : ∀ id ∈ w.supervisor.ids, w.monitor id = .absent → w.arriving? = some id
  ended : ∀ id, w.monitor id = .ended → Dismissed w id ∨ Handled w id

namespace Answered

theorem told_step (answered : Answered w) (sound : Sound w) (step : Step p w a e w')
    (told : (id, true) ∈ w'.supervisor.notices) : Dismissed w' id := by
  have fits := sound.fits
  have earlier (before : (id, true) ∈ w.supervisor.notices) : Dismissed w' id :=
    (answered.told id before).step sound step
  cases step with
  | calledOff _ held | stopCalledOff held =>
      rcases Supervisor.mem_notices_callOff told with rfl | before
      · rw [held] at fits
        exact .of_vacant (Supervisor.mem_ids_of_mem_notices told) fits.current (by simp)
      · exact earlier before
  | replaced | stopEnded | exited | printed | kept | stopKept | keeps =>
      exact earlier (by simpa using told)
  | launched =>
      rcases List.mem_cons.mp told with entry | before
      · cases (Prod.mk.inj entry).2
      · exact earlier before
  | _ => exact earlier told

theorem absent_step (answered : Answered w) (step : Step p w a e w')
    (known : id ∈ w'.supervisor.ids) (absent : w'.monitor id = .absent) :
    w'.arriving? = some id := by
  have before := step.absent_of_absent absent
  rcases step.ids with same | ⟨starter, config, fresh, held, held', grown⟩
  · exact step.arriving (answered.absent id (same ▸ known) before) absent
  · rw [grown] at known
    rcases List.mem_cons.mp known with rfl | known
    · rw [arriving?, held']
      rfl
    · have arriving := answered.absent id known before
      rw [arriving?, held] at arriving
      cases arriving

theorem ended_step (answered : Answered w) (sound : Sound w) (tracked : Tracked w)
    (step : Step p w a e w') (ended : w'.monitor id = .ended) :
    Dismissed w' id ∨ Handled w' id := by
  have earlier (before : w.monitor id = .ended) : Dismissed w' id ∨ Handled w' id := by
    rcases answered.ended id before with dismissed | handled
    · exact .inl (dismissed.step sound step)
    · rcases sound.inCharge_or_dismissed step handled.inCharge with inCharge | dismissed
      · exact .inr (handled.step sound tracked (by simp [before]) step inCharge)
      · exact .inl dismissed
  have cancelled {i : Instance} (found : w.supervisor.instance? id = some i)
      (told : i.cancelled = true) : Dismissed w' id := by
    have notice : (id, true) ∈ w.supervisor.notices :=
      List.mem_map.mpr ⟨i, List.mem_of_find?_eq_some found,
        Prod.ext (Supervisor.id_of_instance? found) told⟩
    exact (answered.told id notice).step sound step
  cases step with
  | watched | lookedDead | confirmed | claimed | blames | keeps =>
      rcases watch_monitor_cases ended with ⟨-, finished⟩ | before
      · cases finished
      · exact earlier before
  | heard found _ told | excused found _ told =>
      rcases watch_monitor_cases ended with ⟨rfl, -⟩ | before
      · exact .inl (cancelled found told)
      · exact earlier before
  | superseded found reporting replaced =>
      rcases watch_monitor_cases ended with ⟨rfl, -⟩ | before
      · refine .inl ⟨Supervisor.mem_ids_of_instance? found, replaced, ?_⟩
        intro starter held
        have fits := sound.fits
        rw [show w.lock = _ from held] at fits
        cases fits.unwatched.symm.trans reporting
      · exact earlier before
  | marks _ marking =>
      rcases watch_monitor_cases ended with ⟨rfl, -⟩ | before
      · have inCharge := sound.monitored.reading id (by simp [marking, Vigil.reads])
        have settled := sound.settled_of_watched inCharge (by simp [marking])
        have latest := ((sound.settled settled).current id inCharge).1
        refine .inr ⟨inCharge, rfl, w.recoveries.length, .inl (.pending (.waiting ?_))⟩
        simp [stageOf?_begin, ← latest]
      · exact earlier before
  | _ => exact earlier ended

theorem step (answered : Answered w) (sound : Sound w) (tracked : Tracked w)
    (step : Step p w a e w') : Answered w' where
  told _ told := answered.told_step sound step told
  absent _ known absent := answered.absent_step step known absent
  ended _ ended := answered.ended_step sound tracked step ended

theorem start : Answered {} where
  told := by simp [Supervisor.notices]
  absent := by simp [Supervisor.ids, Supervisor.census]
  ended := by simp

end Answered

theorem Reachable.answered (reachable : Reachable p w) : Answered w := by
  have all := reachable.keeps (motive := fun w => Sound w ∧ Tracked w ∧ Answered w)
    ⟨Sound.start, Tracked.start, Answered.start⟩ fun ⟨sound, tracked, answered⟩ step =>
      ⟨sound.step step, tracked.step sound step, answered.step sound tracked step⟩
  exact all.2.2

theorem Answered.watched_or_recovering (answered : Answered w) (sound : Sound w)
    (free : w.lock = none) {i : Instance} (found : w.supervisor.currentInstance? = some i) :
    (w.monitor i.id).active = true ∧ i.cancelled = false ∨
      w.supervisor.phase = .crashed ∧ ∃ task, w.Pending task := by
  obtain ⟨inCharge, found⟩ := Supervisor.current_of_currentInstance? found
  have kept : ¬ Dismissed w i.id := fun dismissed => dismissed.replaced inCharge
  have wanted : i.cancelled = false := by
    rw [← Bool.not_eq_true]
    intro told
    exact kept (answered.told i.id
      (List.mem_map.mpr ⟨i, List.mem_of_find?_eq_some found, Prod.ext rfl told⟩))
  cases vigil : w.monitor i.id with
  | absent =>
      have arriving := answered.absent i.id (sound.known i.id inCharge) vigil
      rw [arriving?, free] at arriving
      cases arriving
  | ended =>
      have handled := (answered.ended i.id vigil).resolve_left kept
      obtain ⟨task, poised | ⟨stage, held, -⟩⟩ := handled.recovering
      · exact .inr ⟨handled.crashed, task, poised.pending_of_free free⟩
      · cases free.symm.trans held
  | polling | doubting | reporting | blaming | keeping | marking => exact .inl ⟨rfl, wanted⟩

/-! What makes a recovery give up. -/

def RestartStage.past : RestartStage → Bool
  | .synthesizing | .returning (.refused _) => false
  | _ => true

/-- Whether the lock is held by a stop, or by a restart of another that got past synthesis. -/
def Errand.intervenes (task : Nat) : Errand → Bool
  | .stop _ => true
  | .restart starter stage => stage.past && starter != .recovery task
  | .checkingPhase _ | .checkingGeneration _ | .leaving _ => false

def Event.intervenes (task : Nat) : Event → Bool
  | .stopCalled => true
  | .passed starter => starter != .recovery task
  | _ => false

def Undisturbed (w : Interplay) (task : Nat) : Prop :=
  ∀ errand, w.lock = some errand → errand.intervenes task = false

theorem Undisturbed.step (undisturbed : w.Undisturbed task) (step : Step p w a e w')
    (quiet : ∀ event, e = some event → event.intervenes task = false) : w'.Undisturbed task := by
  intro errand held'
  have onward {starter : Starter} {stage next : RestartStage}
      (held : w.lock = some (.restart starter stage)) (past : stage.past = true)
      (moved : some (Errand.restart starter next) = some errand) :
      errand.intervenes task = false := by
    have own := undisturbed _ held
    rw [Errand.intervenes, past, Bool.true_and] at own
    cases moved
    rw [Errand.intervenes, own, Bool.and_false]
  cases step with
  | callRestart | callRecovery | refused | sawCrash | sawOther | sawSame | sawNewer =>
      cases held'
      rfl
  | callStop => cases quiet _ rfl
  | passed starter =>
      have own : (starter != .recovery task) = false := quiet _ rfl
      cases held'
      rw [Errand.intervenes, own, Bool.and_false]
  | unchanged _ held | differs _ held | takeOver _ held | skipOver _ held | calledOff _ held
  | replaced _ held | kept _ held | entered _ held | counted _ held | launched _ held
  | launchFailed _ held | installed _ held | announced _ held | watched _ held | blamed _ held
  | failed _ held => exact onward held rfl held'
  | returned | recovered | attemptFailed | gaveUp | stopReturned => cases held'
  | stopTake held | stopSkip held | stopLooked held | stopCalledOff held | stopEnded held
  | stopKept held | stopHalted held => cases undisturbed _ held
  | exited | printed | lookedAlive | lookedDead | heard | excused | confirmed | claimed
  | superseded | blames | keeps | marks | rereads | wakes => exact undisturbed errand held'

theorem Undisturbed.settled (undisturbed : w.Undisturbed task) (poised : w.Poised task)
    (tracked : Tracked w) : w.settled = true := by
  unfold Interplay.settled
  cases held : w.lock with
  | none => rfl
  | some errand =>
      have allowed := undisturbed errand held
      cases errand with
      | checkingPhase | checkingGeneration | leaving => rfl
      | stop => cases allowed
      | restart starter stage =>
          have other : (starter != .recovery task) = true := by
            rw [bne_iff_ne]
            rintro rfl
            exact poised.not_restarting tracked stage held
          rw [Errand.intervenes, other, Bool.and_true] at allowed
          cases stage with
          | synthesizing | returning => rfl
          | _ => cases allowed

/-- A recovery that nobody intervened against is poised, or it tries, or it succeeded. -/
inductive Upheld (w : Interplay) (task : Nat) : Prop where
  | poised (poised : w.Poised task) (crashed : w.supervisor.phase = .crashed)
      (undisturbed : w.Undisturbed task)
  | trying {stage : RestartStage} (held : w.lock = some (.restart (.recovery task) stage))
  | finished (stage : w.stageOf? task = some .finished)

namespace Upheld

theorem step (upheld : w.Upheld task) (tracked : Tracked w) (step : Step p w a e w')
    (quiet : ∀ event, e = some event → event.intervenes task = false) : w'.Upheld task := by
  cases upheld with
  | poised poised crashed undisturbed =>
      obtain ⟨same, crashes⟩ := step.steady (undisturbed.settled poised tracked)
      rcases poised.step tracked crashed step same with poised | restarts
      · exact .poised poised (crashes crashed) (undisturbed.step step quiet)
      · exact .trying restarts
  | trying held =>
      rcases step.of_attempt held with
        kept | ⟨next, held', -⟩ | ⟨ending, rfl, ⟨-, rfl⟩ | ⟨⟨f, failure⟩, rfl⟩⟩
      · exact .trying (kept.trans held)
      · exact .trying held'
      · obtain ⟨expected, holding⟩ := tracked.holder task (by rw [holder?, held]; rfl)
        exact .finished (stageOf?_move_self holding _)
      · refine .poised (.pending (.of_failure tracked held))
          (tracked.crashed_of_failure held failure) ?_
        rintro _ ⟨⟩
  | finished stage => exact .finished (tracked.finished_step step stage)

theorem not_gaveUp (upheld : w.Upheld task) (tracked : Tracked w) :
    ¬ Step p w a (some (.gaveUp task)) w' := by
  intro step
  cases step with
  | gaveUp leaving =>
      have holds : w.holder? = some task := by
        rw [holder?, leaving]
        rfl
      cases upheld with
      | poised poised =>
          cases poised with
          | pending pending => exact pending.not_holder tracked holds
          | looking held | comparing held => cases leaving.symm.trans held
      | trying held => cases leaving.symm.trans held
      | finished stage =>
          obtain ⟨expected, holding⟩ := tracked.holder task holds
          cases stage.symm.trans holding

end Upheld

/--
While nobody holds the lock, whatever is in charge is watched by a monitor that was not told to end,
or its crash was recorded and a recovery is pending. A recovery whose attempt failed stays pending.
It gives up only after a stop took the lock or a restart of another got past synthesis, unless one of
the two was that far when the crash was recorded.
-/
theorem crash_never_orphaned {actions : List Action} (ran : run? p {} actions = some w) :
    (w.lock = none → ∀ i, w.supervisor.currentInstance? = some i →
        (w.monitor i.id).active = true ∧ i.cancelled = false ∨
          w.supervisor.phase = .crashed ∧ ∃ task, w.Pending task) ∧
      (∀ task ending f, w.lock = some (.restart (.recovery task) (.returning ending)) →
        ending.result = .error f → ∃ w', w.step? p .release = some w' ∧ w'.lock = none ∧
          w'.supervisor.phase = .crashed ∧ w'.Pending task) ∧
      ∀ task later before after, w.supervisor.phase = .crashed → w.Pending task →
        journal p w later = before ++ .gaveUp task :: after →
        (∃ errand, w.lock = some errand ∧ errand.intervenes task = true) ∨
          ∃ event ∈ before, event.intervenes task = true := by
  have reachable : Reachable p w := ⟨actions, ran⟩
  have sound := reachable.sound
  have tracked := reachable.tracked
  refine ⟨fun free i found => reachable.answered.watched_or_recovering sound free found, ?_, ?_⟩
  · intro task ending f held failure
    refine ⟨(w.move task .rereading).frees, ?_, rfl, tracked.crashed_of_failure held failure,
      .of_failure tracked held⟩
    simp [step?, held, release?, failure]
  · intro task later before after crashed pending gaveUp
    by_cases undisturbed : w.Undisturbed task
    · refine .inr (exists_mem_of_journal_eq
        (motive := fun w => Sound w ∧ Tracked w ∧ w.Upheld task) ?_ ?_
        ⟨sound, tracked, .poised (.pending pending) crashed undisturbed⟩ gaveUp)
      · rintro w a e w' ⟨sound, tracked, upheld⟩ step quiet
        exact ⟨sound.step step, tracked.step sound step, upheld.step tracked step quiet⟩
      · rintro w a w' ⟨sound, tracked, upheld⟩
        exact upheld.not_gaveUp tracked
    · left
      simpa [Undisturbed] using undisturbed

def leaving (task : Nat) : List Action := [.callRecovery task, .proceed, .release]

theorem crash_never_orphaned_stopped :
    ∃ w before after, run? {} {} (restarting ++ crashing 1) = some w ∧ w.lock = none ∧
      w.supervisor.phase = .crashed ∧ w.Pending 0 ∧
      journal {} w (stopping ++ leaving 0) = before ++ .gaveUp 0 :: after ∧
      ∃ event ∈ before, event.intervenes 0 = true := by
  have reached : ∃ w, run? {} {} (restarting ++ crashing 1) = some w ∧ w.lock = none ∧
      w.supervisor.phase = .crashed ∧
      w.stageOf? 0 = some (.waiting w.supervisor.generation) ∧
      ∃ before after, journal {} w (stopping ++ leaving 0) = before ++ .gaveUp 0 :: after :=
    ⟨_, rfl, rfl, rfl, rfl, [.stopCalled, .stopReturned (.error .notRunning)], [], rfl⟩
  obtain ⟨w, ran, free, crashed, waiting, before, after, gaveUp⟩ := reached
  have given := (crash_never_orphaned ran).2.2 0 (stopping ++ leaving 0) before after crashed
    (.waiting waiting) gaveUp
  refine ⟨w, before, after, ran, free, crashed, .waiting waiting, gaveUp, given.resolve_left ?_⟩
  simp [free]

/--
A stop has the lock when the process dies and the monitor records it. The recovery gives up although
nobody took the lock or got past synthesis since.
-/
theorem given_up_for_earlier_stop :
    ∃ w before after, run? {} {} (restarting ++ .callStop :: crashing 1) = some w ∧
      w.lock = some (.stop .taking) ∧ w.supervisor.phase = .crashed ∧ w.Pending 0 ∧
      journal {} w (stopping.tail ++ leaving 0) = before ++ .gaveUp 0 :: after ∧
      ∀ event ∈ before, event.intervenes 0 = false := by
  have reached : ∃ w, run? {} {} (restarting ++ .callStop :: crashing 1) = some w ∧
      w.lock = some (.stop .taking) ∧ w.supervisor.phase = .crashed ∧
      w.stageOf? 0 = some (.waiting w.supervisor.generation) ∧
      journal {} w (stopping.tail ++ leaving 0) = [.stopReturned (.error .notRunning), .gaveUp 0] :=
    ⟨_, rfl, rfl, rfl, rfl, rfl⟩
  obtain ⟨w, ran, held, crashed, waiting, noted⟩ := reached
  refine ⟨w, [.stopReturned (.error .notRunning)], [], ran, held, crashed, .waiting waiting, noted, ?_⟩
  simp [Event.intervenes]

end Interplay

end RelayControl
