import RelayControl.Proofs.Supervisor.Interplay.Cells

/-!
The assertions about the cells hold in every world that can be reached. The monitors write without
the lifecycle lock, but only while they keep reading who is in charge, and then its holder is at a
stage where the cells are settled.
-/

namespace RelayControl

namespace Interplay

variable {p : ProcessSettings} {w w' : Interplay} {a : Action} {e : Option Event} {id : Nat}

/-! While the cells are settled. -/

def RestartStage.settled : RestartStage → Bool
  | .synthesizing | .comparing _ | .taking _ | .returning _ => true
  | _ => false

def StopStage.settled : StopStage → Bool
  | .taking | .returning _ => true
  | _ => false

def Errand.settled : Errand → Bool
  | .restart _ stage => stage.settled
  | .stop stage => stage.settled
  | .checkingPhase _ | .checkingGeneration _ | .leaving _ => true

def settled (w : Interplay) : Bool := w.lock.all Errand.settled

theorem Sound.settled (sound : Sound w) (settled : w.settled = true) : Settled w.supervisor := by
  have fits := sound.fits
  cases held : w.lock with
  | none => rw [held] at fits; exact fits
  | some errand =>
      rw [held] at fits
      rw [Interplay.settled, held] at settled
      cases errand with
      | checkingPhase | checkingGeneration | leaving => exact fits
      | restart starter stage =>
          cases stage with
          | synthesizing | comparing | taking | returning => exact fits
          | _ => cases settled
      | stop stage =>
          cases stage with
          | taking => exact fits
          | returning => exact fits.1
          | _ => cases settled

theorem Sound.settled_of_watched (sound : Sound w) (inCharge : w.supervisor.current = some id)
    (watched : w.monitor id ≠ .absent) : w.settled = true := by
  -- Everyone who changes the cells has taken out what was in charge, or puts in what is unwatched.
  have occupied {last? : Option Nat} (vacant : Vacant w.supervisor last?) : False := by
    cases vacant.current.symm.trans inCharge
  have unwatched {other : Nat} {phase : Phase}
      (arriving : Arriving w other (some other) phase) : False := by
    cases arriving.current.symm.trans inCharge
    exact watched arriving.unwatched
  have fits := sound.fits
  unfold Interplay.settled
  cases held : w.lock with
  | none => rfl
  | some errand =>
      rw [held] at fits
      cases errand with
      | checkingPhase | checkingGeneration | leaving => rfl
      | restart starter stage =>
          cases stage with
          | synthesizing | comparing | taking | returning => rfl
          | callingOff | stopping | keeping | entering => exact (occupied fits).elim
          | counting | blaming | failing => exact (occupied fits.1).elim
          | launching => exact (occupied fits.vacant).elim
          | installing => cases fits.current.symm.trans inCharge
          | announcing | watching => exact (unwatched fits).elim
      | stop stage =>
          cases stage with
          | taking | returning => rfl
          | looking | callingOff | stopping | keeping | halting => exact (occupied fits).elim

theorem Sound.marked (sound : Sound w) (marking : w.monitor id = .marking) :
    (((w.sets (w.supervisor.enter .crashed)).watch id .ended).begin id).Fits w.lock := by
  have inCharge := sound.monitored.reading id (by simp [marking, Vigil.reads])
  have dead := sound.monitored.dead id (by simp [marking, Vigil.sawDead])
  have error := sound.monitored.blamed id (.inr marking)
  have settled := sound.settled_of_watched inCharge (by simp [marking])
  have marks := (sound.settled settled).marked inCharge dead error
  have fits := sound.fits
  unfold Interplay.settled at settled
  cases held : w.lock with
  | none => exact marks
  | some errand =>
      rw [held] at fits settled
      cases errand with
      | checkingPhase | checkingGeneration | leaving => exact marks
      | restart starter stage =>
          cases stage with
          | synthesizing | comparing | taking | returning => exact marks
          | _ => cases settled
      | stop stage =>
          cases stage with
          | taking => exact marks
          | returning => cases (fits.1.stopped fits.2).symm.trans inCharge
          | _ => cases settled

theorem Sound.fits_step (sound : Sound w) (step : Step p w a e w') : w'.Fits w'.lock := by
  have fits := sound.fits
  have present {id : Nat} {vigil : Vigil} (found : w.monitor id = vigil)
      (there : vigil ≠ .absent) : w.monitor id ≠ .absent := found ▸ there
  cases step with
  | callRestart free | callStop free | callRecovery free =>
      rw [free] at fits
      exact fits
  | refused _ held | unchanged _ held | differs _ held | sawCrash held | sawOther held
  | sawSame held | sawNewer held | returned held | recovered held | attemptFailed held
  | gaveUp held =>
      rw [held] at fits
      exact fits
  | passed _ held next =>
      rw [held] at fits
      rcases next with rfl | ⟨rfl, -⟩
      · exact fits
      · exact fits
  | takeOver _ held _ inCharge | stopTake held _ inCharge =>
      rw [held] at fits
      exact Settled.vacated fits inCharge
  | skipOver _ held _ vacant | stopSkip held _ vacant =>
      rw [held] at fits
      exact Settled.unoccupied fits vacant
  | calledOff _ held | stopCalledOff held =>
      rw [held] at fits
      exact Vacant.of_same fits rfl (Supervisor.census_callOff _ _)
  | replaced _ held | stopEnded held =>
      rw [held] at fits
      exact Vacant.stopped fits
  | kept _ held | stopKept held =>
      rw [held] at fits
      exact Vacant.of_same fits (Supervisor.keepResult_current _ _)
        (Supervisor.census_keepResult _ _)
  | entered _ held =>
      rw [held] at fits
      exact ⟨Vacant.of_same fits rfl rfl, rfl⟩
  | counted _ held =>
      rw [held] at fits
      exact ⟨Vacant.of_same fits.1 rfl rfl, fits.2, rfl,
        fun id member => Nat.lt_succ_of_le (sound.bounded id member)⟩
  | launched _ held began =>
      rw [held] at fits
      exact Reserved.arriving fits sound.monitored began _ _
  | launchFailed _ held =>
      rw [held] at fits
      exact ⟨Vacant.of_same fits.vacant rfl rfl, fits.phase⟩
  | installed _ held =>
      rw [held] at fits
      exact { fits with current := rfl }
  | announced _ held =>
      rw [held] at fits
      exact { fits with phase := rfl }
  | watched _ held =>
      rw [held] at fits
      change Settled w.supervisor
      exact Arriving.settled fits
  | blamed _ held =>
      rw [held] at fits
      exact ⟨Vacant.of_same fits.1 rfl rfl, by simp [Supervisor.blame]⟩
  | failed _ held =>
      rw [held] at fits
      exact Vacant.settled (Vacant.of_same fits.1 rfl rfl) (by simp) (by simp) fun _ => fits.2
  | stopLooked held =>
      rw [held] at fits
      exact fits
  | stopHalted held =>
      rw [held] at fits
      exact ⟨Vacant.settled (Vacant.of_same fits rfl rfl) (by simp) (by simp) (by simp), rfl⟩
  | stopReturned held =>
      rw [held] at fits
      exact fits.1
  | exited => exact (Quieter.exited w _ _).fits fits
  | printed => exact (Quieter.printed w _ _).fits fits
  | lookedAlive => exact fits
  | lookedDead _ found | heard _ found | excused _ found | confirmed _ found | claimed _ found
  | superseded _ found =>
      exact (Quieter.watch _ (present found (by simp))).fits fits
  | blames _ found =>
      exact ((Quieter.blamed w _).trans (.watch _ (present found (by simp)))).fits fits
  | keeps _ found =>
      exact ((Quieter.kept w _).trans (.watch _ (present found (by simp)))).fits fits
  | marks _ marking => exact sound.marked marking
  | rereads | wakes => exact (Quieter.move w _ _).fits fits

/-! The monitors. -/

namespace Monitored

theorem of_same (monitored : Monitored w) (monitor : w'.monitor = w.monitor)
    (ids : w'.supervisor.ids = w.supervisor.ids)
    (current : w'.supervisor.current = w.supervisor.current)
    (fewer : ∀ id, (id, true) ∈ w'.supervisor.census → (id, true) ∈ w.supervisor.census)
    (error : w.supervisor.lastError ≠ none → w'.supervisor.lastError ≠ none) :
    Monitored w' where
  absent id unknown := by
    rw [monitor]
    exact monitored.absent id (ids ▸ unknown)
  dead id saw alive := by
    rw [monitor] at saw
    exact monitored.dead id saw (fewer id alive)
  reading id reads := by
    rw [monitor] at reads
    exact current.trans (monitored.reading id reads)
  blamed id wrote := by
    rw [monitor] at wrote
    exact error (monitored.blamed id wrote)

theorem congr (monitored : Monitored w) (monitor : w'.monitor = w.monitor)
    (supervisor : w'.supervisor = w.supervisor) : Monitored w' := by
  apply monitored.of_same monitor
  all_goals simp [supervisor]

theorem of_quieter (monitored : Monitored w) (quieter : Quieter w w')
    (monitor : w'.monitor = w.monitor) : Monitored w' :=
  monitored.of_same monitor quieter.ids quieter.current quieter.fewer quieter.error

theorem unread (monitored : Monitored w) (unguarded : w.guarded = false) (id : Nat) :
    (w.monitor id).reads = false := by
  by_cases known : id ∈ w.supervisor.ids
  · rw [Supervisor.ids, Supervisor.census, List.map_map] at known
    obtain ⟨i, member, rfl⟩ := List.mem_map.mp known
    have none := List.any_eq_false.mp unguarded i member
    simpa using none
  · rw [monitored.absent id known]
    rfl

theorem of_unread (monitored : Monitored w) (unguarded : w.guarded = false)
    (monitor : w'.monitor = w.monitor) (census : w'.supervisor.census = w.supervisor.census)
    (error : w'.supervisor.lastError = w.supervisor.lastError) : Monitored w' where
  absent id unknown := by
    rw [Supervisor.ids, census] at unknown
    rw [monitor]
    exact monitored.absent id unknown
  dead := by
    rw [monitor, census]
    exact monitored.dead
  reading id reads := by
    rw [monitor, monitored.unread unguarded id] at reads
    cases reads
  blamed := by
    rw [monitor, error]
    exact monitored.blamed

theorem watch (monitored : Monitored w) {id : Nat} {vigil : Vigil}
    (known : id ∈ w.supervisor.ids) (dead : vigil.sawDead = true → (id, true) ∉ w.supervisor.census)
    (reading : vigil.reads = true → w.supervisor.current = some id)
    (blamed : vigil = .keeping ∨ vigil = .marking → w.supervisor.lastError ≠ none) :
    Monitored (w.watch id vigil) where
  absent other unknown := by
    have differs : other ≠ id := by
      rintro rfl
      exact unknown known
    rw [watch_monitor_of_ne w vigil differs]
    exact monitored.absent other unknown
  dead other saw := by
    by_cases same : other = id
    · subst same
      rw [watch_monitor_self] at saw
      exact dead saw
    · rw [watch_monitor_of_ne w vigil same] at saw
      exact monitored.dead other saw
  reading other reads := by
    by_cases same : other = id
    · subst same
      rw [watch_monitor_self] at reads
      exact reading reads
    · rw [watch_monitor_of_ne w vigil same] at reads
      exact monitored.reading other reads
  blamed other wrote := by
    by_cases same : other = id
    · subst same
      rw [watch_monitor_self] at wrote
      exact blamed wrote
    · rw [watch_monitor_of_ne w vigil same] at wrote
      exact monitored.blamed other wrote

theorem proceeds (monitored : Monitored w) {id : Nat} {vigil : Vigil}
    (saw : (w.monitor id).sawDead = true)
    (reading : vigil.reads = true → w.supervisor.current = some id)
    (blamed : vigil = .keeping ∨ vigil = .marking → w.supervisor.lastError ≠ none) :
    Monitored (w.watch id vigil) := by
  apply monitored.watch _ (fun _ => monitored.dead id saw) reading blamed
  by_contra unknown
  rw [monitored.absent id unknown] at saw
  cases saw

theorem launched (monitored : Monitored w) {id : Nat} (reserved : Reserved w.supervisor id)
    {conditions : LaunchConditions} {config : RelayConfig} {process : RelayProcess}
    (began : (RelayProcess.launch p conditions id config).result = .ok process)
    (launch : Launch) (errand : Errand) :
    Monitored ((w.sets ((w.supervisor.rewrite launch).enrol process)).holds errand) where
  absent other unknown := monitored.absent other fun member => unknown (.tail _ member)
  dead other saw alive := by
    obtain ⟨rfl, -, -⟩ := RelayProcess.launch_id began
    rcases List.mem_cons.mp alive with entry | alive
    · have same : other = process.id := congrArg Prod.fst entry
      have new : other ∉ w.supervisor.ids := fun member =>
        Nat.lt_irrefl _ (same ▸ reserved.fresh other member)
      rw [holds_monitor, sets_monitor, monitored.absent other new] at saw
      cases saw
    · exact monitored.dead other saw alive
  reading := monitored.reading
  blamed := monitored.blamed

end Monitored

theorem Sound.monitored_step (sound : Sound w) (step : Step p w a e w') : w'.Monitored := by
  have monitored := sound.monitored
  have fits := sound.fits
  cases step with
  | callRestart | callStop | callRecovery | refused | passed | unchanged | differs | entered
  | counted | launchFailed | announced | failed | returned | recovered | attemptFailed | gaveUp
  | stopLooked | stopHalted | stopReturned | sawCrash | sawOther | sawSame | sawNewer
  | rereads | wakes =>
      exact monitored.of_same rfl rfl rfl (fun _ alive => alive) fun error => error
  | takeOver _ _ unread | skipOver _ _ unread | installed _ _ unread | stopTake _ unread
  | stopSkip _ unread => exact monitored.of_unread unread rfl rfl rfl
  | calledOff | stopCalledOff =>
      exact (monitored.of_quieter (.calledOff w _) rfl).congr rfl rfl
  | replaced | stopEnded => exact (monitored.of_quieter (.stopped w _) rfl).congr rfl rfl
  | kept | stopKept => exact (monitored.of_quieter (.kept w _) rfl).congr rfl rfl
  | launched _ held began =>
      rw [held] at fits
      exact monitored.launched fits began _ _
  | watched _ held =>
      rw [held] at fits
      have watched : Monitored (w.watch _ .polling) :=
        monitored.watch fits.known (by simp [Vigil.sawDead]) (by simp [Vigil.reads]) (by simp)
      exact watched.congr rfl rfl
  | blamed => exact (monitored.of_quieter (.blamed w _) rfl).congr rfl rfl
  | exited => exact monitored.of_quieter (.exited w _ _) rfl
  | printed => exact monitored.of_quieter (.printed w _ _) rfl
  | lookedAlive => exact monitored
  | lookedDead found _ dead =>
      exact monitored.watch (Supervisor.mem_ids_of_instance? found)
        (fun _ => Supervisor.not_alive_of_instance? sound.distinct found dead)
        (by simp [Vigil.reads]) (by simp)
  | heard found =>
      exact monitored.watch (Supervisor.mem_ids_of_instance? found) (by simp [Vigil.sawDead])
        (by simp [Vigil.reads]) (by simp)
  | excused _ doubting | confirmed _ doubting =>
      exact monitored.proceeds (by simp [doubting, Vigil.sawDead]) (by simp [Vigil.reads]) (by simp)
  | claimed _ reporting inCharge =>
      exact monitored.proceeds (by simp [reporting, Vigil.sawDead]) (fun _ => inCharge) (by simp)
  | superseded _ reporting =>
      exact monitored.proceeds (by simp [reporting, Vigil.sawDead]) (by simp [Vigil.reads])
        (by simp)
  | @blames id i _ blaming =>
      have noted := monitored.of_quieter (.blamed w (Supervisor.failureOf i)) rfl
      exact noted.proceeds (by simp [blaming, Vigil.sawDead])
        (fun _ => noted.reading id (by simp [blaming, Vigil.reads])) (by simp [Supervisor.blame])
  | @keeps id _ _ keeping =>
      have kept := monitored.of_quieter (.kept w id) rfl
      exact kept.proceeds (by simp [keeping, Vigil.sawDead])
        (fun _ => kept.reading id (by simp [keeping, Vigil.reads]))
        fun _ => kept.blamed id (.inl keeping)
  | @marks id _ _ marking =>
      have entered : Monitored (w.sets (w.supervisor.enter .crashed)) :=
        monitored.of_same rfl rfl rfl (fun _ alive => alive) fun error => error
      have ended : Monitored ((w.sets (w.supervisor.enter .crashed)).watch id .ended) :=
        entered.proceeds (by simp [marking, Vigil.sawDead]) (by simp [Vigil.reads]) (by simp)
      exact ended.congr rfl rfl

/-! Numbers. -/

theorem Step.generation_le (step : Step p w a e w') :
    w.supervisor.generation ≤ w'.supervisor.generation := by
  cases step with
  | counted => exact Nat.le_succ _
  | kept | stopKept | keeps => exact Nat.le_of_eq (Supervisor.generation_keepResult _ _).symm
  | _ => exact Nat.le_refl _

theorem Step.ids (step : Step p w a e w') :
    w'.supervisor.ids = w.supervisor.ids ∨
      ∃ starter config id, w.lock = some (.restart starter (.launching config id)) ∧
        w'.lock = some (.restart starter (.installing id)) ∧
        w'.supervisor.ids = id :: w.supervisor.ids := by
  cases step with
  | calledOff | stopCalledOff => exact .inl (Quieter.calledOff w _).ids
  | replaced | stopEnded => exact .inl (Quieter.stopped w _).ids
  | kept | stopKept | keeps => exact .inl (Quieter.kept w _).ids
  | exited => exact .inl (Quieter.exited w _ _).ids
  | printed => exact .inl (Quieter.printed w _ _).ids
  | launched starter held began =>
      obtain ⟨rfl, -, -⟩ := RelayProcess.launch_id began
      exact .inr ⟨starter, _, _, held, rfl, rfl⟩
  | _ => exact .inl rfl

theorem Step.mem_ids (step : Step p w a e w') (known : id ∈ w.supervisor.ids) :
    id ∈ w'.supervisor.ids := by
  rcases step.ids with same | ⟨_, _, _, _, _, grown⟩
  · rwa [same]
  · rw [grown]
    exact .tail _ known

theorem Step.current (step : Step p w a e w') :
    w'.supervisor.current = w.supervisor.current ∨
      (w'.supervisor.current = none ∧
        ∀ starter id, w'.lock ≠ some (.restart starter (.installing id))) ∨
      ∃ starter id, w.lock = some (.restart starter (.installing id)) ∧
        w'.supervisor.current = some id := by
  cases step with
  | takeOver | skipOver | stopTake | stopSkip => exact .inr (.inl ⟨rfl, by simp⟩)
  | installed starter held => exact .inr (.inr ⟨starter, _, held, rfl⟩)
  | kept | stopKept | keeps => exact .inl (Supervisor.keepResult_current _ _)
  | _ => exact .inl rfl

theorem Sound.numbers_step (sound : Sound w) (step : Step p w a e w') :
    w'.supervisor.ids.Nodup ∧ ∀ id ∈ w'.supervisor.ids, id ≤ w'.supervisor.generation := by
  have earlier (id : Nat) (member : id ∈ w.supervisor.ids) : id ≤ w'.supervisor.generation :=
    Nat.le_trans (sound.bounded id member) step.generation_le
  rcases step.ids with same | ⟨starter, config, fresh, held, -, grown⟩
  · rw [same]
    exact ⟨sound.distinct, earlier⟩
  · have fits := sound.fits
    rw [held] at fits
    rw [grown]
    constructor
    · exact List.nodup_cons.mpr ⟨fun member => Nat.lt_irrefl _ (fits.fresh _ member),
        sound.distinct⟩
    · intro id member
      rcases List.mem_cons.mp member with rfl | member
      · exact Nat.le_trans (Nat.le_of_eq fits.number.symm) step.generation_le
      · exact earlier id member

theorem Sound.known_step (sound : Sound w) (step : Step p w a e w') (id : Nat)
    (inCharge : w'.supervisor.current = some id) : id ∈ w'.supervisor.ids := by
  apply step.mem_ids
  rcases step.current with same | ⟨vacant, -⟩ | ⟨starter, installed, held, current⟩
  · exact sound.known id (same.symm.trans inCharge)
  · cases vacant.symm.trans inCharge
  · have fits := sound.fits
    rw [held] at fits
    cases current.symm.trans inCharge
    exact fits.known

theorem Sound.step (sound : Sound w) (step : Step p w a e w') : Sound w' where
  fits := sound.fits_step step
  monitored := sound.monitored_step step
  distinct := (sound.numbers_step step).1
  bounded := (sound.numbers_step step).2
  known := sound.known_step step

theorem Sound.start : Sound {} where
  fits := (Vacant.mk rfl (by simp [Supervisor.census])).settled (by simp) (by simp) (by simp)
  monitored := ⟨fun _ _ => rfl, by simp [Vigil.sawDead], by simp [Vigil.reads], by simp⟩
  distinct := List.nodup_nil
  bounded := by simp [Supervisor.ids, Supervisor.census]
  known := by simp

theorem Reachable.sound (reachable : Reachable p w) : Sound w :=
  reachable.keeps Sound.start Sound.step

end Interplay

end RelayControl
