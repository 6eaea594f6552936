import RelayControl.Proofs.Supervisor.Interplay.Coherence

/-!
A monitor touches the supervisor only for its own process, while that process is in charge and dead.
It reports once, and once its process was taken out of charge it has no effect any more.
-/

namespace RelayControl

namespace Interplay

variable {p : ProcessSettings} {w w' : Interplay} {a : Action} {e : Option Event} {id : Nat}

/-! What a monitor changes. -/

def SameButMonitors (w w' : Interplay) : Prop :=
  w'.supervisor = w.supervisor ∧ w'.recoveries = w.recoveries ∧ w'.lock = w.lock

theorem Step.sameButMonitors (step : Step p w a e w') (monitors : a.monitor? = some id)
    (silent : (w.monitor id).reads = false) : SameButMonitors w w' := by
  cases step with
  | lookedAlive | lookedDead | heard | excused | confirmed | claimed | superseded =>
      exact ⟨rfl, rfl, rfl⟩
  | blames _ blaming =>
      cases monitors
      simp [blaming, Vigil.reads] at silent
  | keeps _ keeping =>
      cases monitors
      simp [keeping, Vigil.reads] at silent
  | marks _ marking =>
      cases monitors
      simp [marking, Vigil.reads] at silent
  | _ => cases monitors

theorem Sound.dead_of_sawDead (sound : Sound w) (inCharge : w.supervisor.current = some id)
    (saw : (w.monitor id).sawDead = true) :
    ∃ i, w.supervisor.currentInstance? = some i ∧ i.id = id ∧ i.alive = false := by
  obtain ⟨i, found⟩ := Supervisor.exists_instance?_of_mem_ids (sound.known id inCharge)
  have same := Supervisor.id_of_instance? found
  refine ⟨i, by rw [Supervisor.currentInstance?, inCharge]; exact found, same, ?_⟩
  rw [← Bool.not_eq_true]
  intro alive
  have living := Supervisor.mem_census_of_alive (List.mem_of_find?_eq_some found) alive
  rw [same] at living
  exact sound.monitored.dead id saw living

theorem Vigil.sawDead_of_reads {vigil : Vigil} (reads : vigil.reads = true) :
    vigil.sawDead = true := by
  cases vigil <;> first | rfl | cases reads

/-! A monitor that has ended. -/

theorem Sound.ended_step (sound : Sound w) (step : Step p w a e w')
    (ended : w.monitor id = .ended) : w'.monitor id = .ended := by
  have other {changed : Nat} {vigil : Vigil} (found : w.monitor changed = vigil)
      (going : vigil ≠ .ended) (next : Vigil) : (w.watch changed next).monitor id = .ended := by
    rw [watch_monitor_of_ne w next, ended]
    rintro rfl
    exact going (found.symm.trans ended)
  cases step with
  | watched _ held =>
      have fits := sound.fits
      rw [held] at fits
      exact other fits.unwatched (by simp) _
  | lookedDead _ found | heard _ found | excused _ found | confirmed _ found | claimed _ found
  | superseded _ found | blames _ found | keeps _ found | marks _ found =>
      exact other found (by simp) _
  | _ => exact ended

theorem Step.marking_of_reports {event : Event} (step : Step p w a (some event) w')
    (reports : event.reports id = true) : w.monitor id = .marking ∧ w'.monitor id = .ended := by
  cases step with
  | marks _ marking =>
      cases eq_of_beq reports
      exact ⟨marking, watch_monitor_self _ _ _⟩
  | _ => cases reports

theorem Sound.journal_of_ended (sound : Sound w) (ended : w.monitor id = .ended)
    (actions : List Action) : (journal p w actions).countP (Event.reports id) = 0 := by
  induction actions generalizing w with
  | nil => rfl
  | cons a rest ih =>
      rw [journal]
      split
      next next stepped =>
        have step := step_of_step? stepped
        rw [List.countP_append, ih (sound.step step) (sound.ended_step step ended)]
        cases event : w.event? p a with
        | none => rfl
        | some event' =>
            rw [event] at step
            have silent : event'.reports id ≠ true := by
              intro reports
              cases ended.symm.trans (step.marking_of_reports reports).1
            simp [silent]
      next => rfl

theorem Sound.reported_once (sound : Sound w) (actions : List Action) :
    (journal p w actions).countP (Event.reports id) ≤ 1 := by
  induction actions generalizing w with
  | nil => simp [journal]
  | cons a rest ih =>
      rw [journal]
      split
      next next stepped =>
        have step := step_of_step? stepped
        have later := ih (sound.step step)
        rw [List.countP_append]
        cases event : w.event? p a with
        | none => simpa using later
        | some event' =>
            rw [event] at step
            by_cases reports : event'.reports id = true
            · rw [(sound.step step).journal_of_ended (step.marking_of_reports reports).2]
              simp [reports]
            · simpa [reports] using later
      next => simp

/-! A process that was taken out of charge. -/

structure Dismissed (w : Interplay) (id : Nat) : Prop where
  known : id ∈ w.supervisor.ids
  replaced : w.supervisor.current ≠ some id
  notNext : ∀ starter, w.lock ≠ some (.restart starter (.installing id))

theorem Step.installing {starter : Starter} (step : Step p w a e w')
    (held' : w'.lock = some (.restart starter (.installing id))) :
    w.lock = some (.restart starter (.installing id)) ∨
      ∃ config, w.lock = some (.restart starter (.launching config id)) := by
  cases step with
  | passed _ _ next =>
      cases held'
      rcases next with next | ⟨next, -⟩ <;> cases next
  | launched _ held =>
      cases held'
      exact .inr ⟨_, held⟩
  | exited | printed | lookedAlive | lookedDead | heard | excused | confirmed | claimed
  | superseded | blames | keeps | marks | rereads | wakes => exact .inl held'
  | _ => cases held'

namespace Dismissed

theorem of_vacant (known : id ∈ w.supervisor.ids) (vacant : w.supervisor.current = none)
    (notNext : ∀ starter, w.lock ≠ some (.restart starter (.installing id))) : Dismissed w id where
  known := known
  replaced := by simp [vacant]
  notNext := notNext

theorem step (dismissed : Dismissed w id) (sound : Sound w) (step : Step p w a e w') :
    Dismissed w' id where
  known := step.mem_ids dismissed.known
  replaced := by
    rcases step.current with same | ⟨vacant, -⟩ | ⟨starter, installed, held, current⟩
    · rw [same]
      exact dismissed.replaced
    · simp [vacant]
    · rw [current]
      rintro ⟨⟩
      exact dismissed.notNext starter held
  notNext := by
    intro starter held'
    rcases step.installing held' with held | ⟨config, held⟩
    · exact dismissed.notNext starter held
    · have fits := sound.fits
      rw [held] at fits
      exact Nat.lt_irrefl _ (fits.fresh id dismissed.known)

theorem run {actions : List Action} (dismissed : Dismissed w id) (sound : Sound w)
    (ran : run? p w actions = some w') : Dismissed w' id := by
  have both := run?_keeps (motive := fun w => Sound w ∧ Dismissed w id)
    (fun known step => ⟨known.1.step step, known.2.step known.1 step⟩) ⟨sound, dismissed⟩ ran
  exact both.2

end Dismissed

theorem Sound.inCharge_or_dismissed (sound : Sound w) (step : Step p w a e w')
    (inCharge : w.supervisor.current = some id) :
    w'.supervisor.current = some id ∨ Dismissed w' id := by
  rcases step.current with same | ⟨vacant, notNext⟩ | ⟨starter, installed, held, -⟩
  · exact .inl (same.trans inCharge)
  · have known := step.mem_ids (sound.known id inCharge)
    exact .inr (.of_vacant known vacant fun starter => notNext starter id)
  · have fits := sound.fits
    rw [held] at fits
    cases fits.current.symm.trans inCharge

theorem Sound.dismissed_of_taken {actions : List Action} (sound : Sound w)
    (inCharge : w.supervisor.current = some id) (ran : run? p w actions = some w')
    (taken : w'.supervisor.current ≠ some id) : Dismissed w' id := by
  have kept : Sound w' ∧ (w'.supervisor.current = some id ∨ Dismissed w' id) := by
    refine run?_keeps
      (motive := fun w => Sound w ∧ (w.supervisor.current = some id ∨ Dismissed w id))
      ?_ ⟨sound, .inl inCharge⟩ ran
    rintro w a e w' ⟨sound, inCharge | dismissed⟩ step
    · exact ⟨sound.step step, sound.inCharge_or_dismissed step inCharge⟩
    · exact ⟨sound.step step, .inr (dismissed.step sound step)⟩
  exact kept.2.resolve_left taken

theorem Dismissed.silent (dismissed : Dismissed w id) (sound : Sound w) :
    (w.monitor id).reads = false := by
  rw [← Bool.not_eq_true]
  exact fun reads => dismissed.replaced (sound.monitored.reading id reads)

/--
A monitor changes the supervisor, or begins a recovery, only while its own process is in charge and
dead. Each process is reported at most once. Once a process was taken out of charge, whatever
happens afterwards, its monitor changes nothing any more.
-/
theorem monitor_harmless {actions : List Action} (ran : run? p {} actions = some w) (id : Nat) :
    (∀ a w', a.monitor? = some id → w.step? p a = some w' → ¬ SameButMonitors w w' →
        ∃ i, w.supervisor.currentInstance? = some i ∧ i.id = id ∧ i.alive = false) ∧
      (journal p {} actions).countP (Event.reports id) ≤ 1 ∧
      ∀ taking w' later v a v', w.supervisor.current = some id →
        run? p w taking = some w' → w'.supervisor.current ≠ some id →
        run? p w' later = some v → a.monitor? = some id → v.step? p a = some v' →
        SameButMonitors v v' := by
  have reachable : Reachable p w := ⟨actions, ran⟩
  have sound := reachable.sound
  refine ⟨?_, Sound.start.reported_once actions, ?_⟩
  · intro a w' monitors stepped changed
    have reads : (w.monitor id).reads = true := by
      by_contra silent
      exact changed ((step_of_step? stepped).sameButMonitors monitors (by simpa using silent))
    exact sound.dead_of_sawDead (sound.monitored.reading id reads) (Vigil.sawDead_of_reads reads)
  · intro taking w' later v a v' inCharge took taken went monitors stepped
    have dismissed := sound.dismissed_of_taken inCharge took taken
    have dismissedThen := dismissed.run (reachable.run took).sound went
    have silent := dismissedThen.silent ((reachable.run took).run went).sound
    exact (step_of_step? stepped).sameButMonitors monitors silent

def noticing (id : Nat) : List Action :=
  [.exited id (.exited (some 1) none), .look id, .advance id]

def stopping : List Action :=
  [.callStop, .proceed, .proceed, .proceed, .stopped (.ok ()), .proceed, .proceed, .release]

theorem monitor_harmless_overtaken :
    ∃ w v v', run? {} {} (restarting ++ noticing 1) = some w ∧ w.monitor 1 = .reporting ∧
      run? {} w stopping = some v ∧ v.step? {} (.advance 1) = some v' ∧ SameButMonitors v v' := by
  have reached : ∃ w, run? {} {} (restarting ++ noticing 1) = some w ∧
      w.monitor 1 = .reporting ∧ w.supervisor.current = some 1 ∧
      ∃ v, run? {} w stopping = some v ∧ v.supervisor.current = none ∧
      ∃ v', v.step? {} (.advance 1) = some v' :=
    ⟨_, rfl, rfl, rfl, _, rfl, rfl, _, rfl⟩
  obtain ⟨w, ran, reporting, inCharge, v, stopped, vacant, v', stepped⟩ := reached
  have harmless := (monitor_harmless ran 1).2.2 stopping v [] v (.advance 1) v'
  exact ⟨w, v, v', ran, reporting, stopped, stepped,
    harmless inCharge stopped (by simp [vacant]) rfl rfl stepped⟩

end Interplay

end RelayControl
