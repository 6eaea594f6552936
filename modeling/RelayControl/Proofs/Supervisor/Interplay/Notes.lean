import RelayControl.Proofs.Supervisor.Interplay.Failures
import RelayControl.Proofs.Supervisor.Interplay.Responsibility

/-!
What stands as the last error. Two write it: the monitor that records a crash, and the restart that
gets no process started. Every start is noted at most once, and after all earlier ones that are
noted at all; the failure of what is in charge is noted together with its crash.
-/

namespace RelayControl

namespace Interplay

/-- What an action notes as the last error, with the number of the start that it is about. -/
def note? (w : Interplay) : Action → Option (Nat × ProcessFailure)
  | .proceed =>
      match w.lock with
      | some (.restart _ (.blaming f)) => some (w.supervisor.generation, .startFailed f.message)
      | _ => none
  | .advance id =>
      match w.monitor id with
      | .blaming => (w.supervisor.instance? id).map fun i => (id, Supervisor.failureOf i)
      | _ => none
  | _ => none

def notes (p : ProcessSettings) (w : Interplay) : List Action → List (Nat × ProcessFailure)
  | [] => []
  | a :: rest =>
      match w.step? p a with
      | some next => (w.note? a).toList ++ notes p next rest
      | none => []

variable {p : ProcessSettings} {w w' : Interplay} {a : Action} {e : Option Event} {id : Nat}
  {noted : List (Nat × ProcessFailure)}

theorem notes_cons {rest : List Action} (stepped : w.step? p a = some w') :
    notes p w (a :: rest) = (w.note? a).toList ++ notes p w' rest := by
  rw [notes, stepped]

theorem notes_append {first second : List Action} (ran : run? p w first = some w') :
    notes p w (first ++ second) = notes p w first ++ notes p w' second := by
  induction first generalizing w with
  | nil =>
      cases ran
      rfl
  | cons a rest ih =>
      obtain ⟨middle, stepped, ran⟩ := run?_cons_eq_some.mp ran
      rw [List.cons_append, notes_cons stepped, notes_cons stepped, ih ran, List.append_assoc]

theorem Step.note_cases (step : Step p w a e w') :
    (w.note? a = none ∧ w'.supervisor.lastError = w.supervisor.lastError) ∨
    (∃ starter f, w.lock = some (.restart starter (.blaming f)) ∧
      w.note? a = some (w.supervisor.generation, .startFailed f.message) ∧
      w' = (w.sets (w.supervisor.blame (.startFailed f.message))).holds
        (.restart starter (.failing f))) ∨
    ∃ id i, w.supervisor.instance? id = some i ∧ w.monitor id = .blaming ∧
      w.note? a = some (id, Supervisor.failureOf i) ∧
      w' = (w.sets (w.supervisor.blame (Supervisor.failureOf i))).watch id .keeping := by
  cases step with
  | blamed starter held => exact .inr (.inl ⟨starter, _, held, by simp [note?, held], rfl⟩)
  | blames found blaming =>
      exact .inr (.inr ⟨_, _, found, blaming, by simp [note?, blaming, found], rfl⟩)
  | callRestart | callStop | callRecovery | refused | passed | replaced | launched | launchFailed
  | returned | recovered | attemptFailed | gaveUp | stopEnded | stopReturned | exited | printed
  | lookedAlive | lookedDead | heard | rereads | wakes => exact .inl ⟨rfl, rfl⟩
  | unchanged _ held | differs _ held | takeOver _ held | skipOver _ held | calledOff _ held
  | entered _ held | counted _ held | installed _ held | announced _ held | watched _ held
  | failed _ held | stopTake held | stopSkip held | stopLooked held | stopCalledOff held
  | stopHalted held | sawCrash held | sawOther held | sawSame held | sawNewer held =>
      exact .inl ⟨by simp [note?, held], rfl⟩
  | kept _ held | stopKept held =>
      exact .inl ⟨by simp [note?, held], Supervisor.lastError_keepResult _ _⟩
  | excused _ found | confirmed _ found | claimed _ found | superseded _ found | marks _ found =>
      exact .inl ⟨by simp [note?, found], rfl⟩
  | keeps _ found => exact .inl ⟨by simp [note?, found], Supervisor.lastError_keepResult _ _⟩

/-! Whose failure is noted already. -/

def Vigil.wrote : Vigil → Bool
  | .keeping | .marking => true
  | _ => false

theorem Vigil.reads_of_wrote {vigil : Vigil} (wrote : vigil.wrote = true) : vigil.reads = true := by
  cases vigil <;> first | rfl | cases wrote

def Recorded (w : Interplay) (id : Nat) : Prop :=
  w.supervisor.phase = .crashed ∨ (w.monitor id).wrote = true

/-- A crash is marked by the monitor of what is in charge, which ends then. -/
def Concluded (w : Interplay) : Prop :=
  ∀ id, w.supervisor.current = some id → w.supervisor.phase = .crashed → w.monitor id = .ended

theorem Concluded.step (concluded : Concluded w) (sound : Sound w) (step : Step p w a e w') :
    Concluded w' := by
  intro id inCharge' crashed'
  have fits := sound.fits
  have earlier (inCharge : w.supervisor.current = some id)
      (crashed : w.supervisor.phase = .crashed) : w'.monitor id = .ended :=
    sound.ended_step step (concluded id inCharge crashed)
  cases step with
  | takeOver | skipOver | stopTake | stopSkip => cases inCharge'
  | entered | announced | stopHalted => cases crashed'
  | installed _ held =>
      rw [held] at fits
      cases fits.phase.symm.trans crashed'
  | failed _ held =>
      rw [held] at fits
      cases fits.1.current.symm.trans inCharge'
  | marks _ marking =>
      have reading := sound.monitored.reading _ (by rw [marking]; rfl)
      cases reading.symm.trans inCharge'
      exact watch_monitor_self _ _ _
  | kept | stopKept | keeps =>
      exact earlier ((Supervisor.keepResult_current _ _).symm.trans inCharge')
        ((Supervisor.phase_keepResult _ _).symm.trans crashed')
  | _ => exact earlier inCharge' crashed'

theorem Sound.died_of_recorded (sound : Sound w) (concluded : Concluded w)
    (inCharge : w.supervisor.current = some id) (recorded : w.Recorded id) :
    ∃ f, w.supervisor.Died id f := by
  obtain ⟨i, found⟩ := Supervisor.exists_instance?_of_mem_ids (sound.known id inCharge)
  refine ⟨_, i, found, ?_, rfl⟩
  rw [← Bool.not_eq_true]
  intro alive
  have living := Supervisor.mem_census_of_alive (List.mem_of_find?_eq_some found) alive
  rw [Supervisor.id_of_instance? found] at living
  rcases recorded with crashed | wrote
  · have watched : w.monitor id ≠ .absent := by simp [concluded id inCharge crashed]
    have settled := sound.settled (sound.settled_of_watched inCharge watched)
    exact (settled.crashed crashed).2 id inCharge living
  · exact sound.monitored.dead id (Vigil.sawDead_of_reads (Vigil.reads_of_wrote wrote)) living

theorem Sound.wrote_step (sound : Sound w) (step : Step p w a e w')
    (wrote : (w.monitor id).wrote = true) : w'.Recorded id := by
  have other {changed : Nat} {vigil : Vigil} (found : w.monitor changed = vigil)
      (silent : vigil.wrote = false) (next : Vigil) :
      ((w.watch changed next).monitor id).wrote = true := by
    rw [watch_monitor_of_ne w next, wrote]
    rintro rfl
    rw [found, silent] at wrote
    cases wrote
  cases step with
  | watched _ held =>
      have fits := sound.fits
      rw [held] at fits
      exact .inr (other fits.unwatched rfl _)
  | lookedDead _ found | heard _ found | excused _ found | confirmed _ found | claimed _ found
  | superseded _ found | blames _ found => exact .inr (other found rfl _)
  | @keeps changed _ _ found =>
      refine .inr ?_
      by_cases same : id = changed
      · rw [same]
        exact congrArg Vigil.wrote (watch_monitor_self _ _ _)
      · exact (congrArg Vigil.wrote (watch_monitor_of_ne _ _ same)).trans wrote
  | marks => exact .inl rfl
  | _ => exact .inr wrote

theorem Sound.recorded_step (sound : Sound w) (concluded : Concluded w) (step : Step p w a e w')
    (inCharge : w.supervisor.current = some id) (recorded : w.Recorded id) : w'.Recorded id := by
  rcases recorded with crashed | wrote
  · have watched : w.monitor id ≠ .absent := by simp [concluded id inCharge crashed]
    exact .inl ((step.steady (sound.settled_of_watched inCharge watched)).2 crashed)
  · exact sound.wrote_step step wrote

theorem Sound.recorded_cases (sound : Sound w) (step : Step p w a e w')
    (inCharge' : w'.supervisor.current = some id) (recorded' : w'.Recorded id) :
    w.supervisor.current = some id ∧ w.Recorded id ∨
      w.supervisor.current = some id ∧ w.monitor id = .blaming ∧ a = .advance id := by
  have fits := sound.fits
  have watched {changed : Nat} {vigil : Vigil} (inCharge : w.supervisor.current = some id)
      (silent : vigil.wrote = false)
      (recorded : (w.watch changed vigil).Recorded id) : w.Recorded id := by
    rcases recorded with crashed | wrote
    · exact .inl crashed
    · rw [watch_monitor] at wrote
      split at wrote
      · rw [silent] at wrote
        cases wrote
      · exact .inr wrote
  cases step with
  | takeOver | skipOver | stopTake | stopSkip => cases inCharge'
  | entered | announced | stopHalted =>
      exact .inl ⟨inCharge', .inr (recorded'.resolve_left (by simp))⟩
  | installed _ held =>
      rw [held] at fits
      cases inCharge'
      rcases recorded' with crashed | wrote
      · cases fits.phase.symm.trans crashed
      · have wrote : (w.monitor id).wrote = true := wrote
        rw [fits.unwatched] at wrote
        cases wrote
  | failed _ held =>
      rw [held] at fits
      cases fits.1.current.symm.trans inCharge'
  | watched | lookedDead | heard | excused | confirmed | claimed | superseded =>
      exact .inl ⟨inCharge', watched inCharge' rfl recorded'⟩
  | @blames changed _ _ blaming =>
      rcases recorded' with crashed | wrote
      · exact .inl ⟨inCharge', .inl crashed⟩
      · by_cases same : id = changed
        · subst same
          exact .inr ⟨inCharge', blaming, rfl⟩
        · exact .inl ⟨inCharge',
            .inr ((congrArg Vigil.wrote (watch_monitor_of_ne _ _ same)).symm.trans wrote)⟩
  | @keeps changed _ _ keeping =>
      have reading := sound.monitored.reading changed (by rw [keeping]; rfl)
      have inCharge := (Supervisor.keepResult_current _ _).symm.trans inCharge'
      cases reading.symm.trans inCharge
      exact .inl ⟨inCharge, .inr (by rw [keeping]; rfl)⟩
  | @marks changed _ _ marking =>
      have reading := sound.monitored.reading changed (by rw [marking]; rfl)
      cases reading.symm.trans inCharge'
      exact .inl ⟨inCharge', .inr (by rw [marking]; rfl)⟩
  | kept | stopKept =>
      refine .inl ⟨(Supervisor.keepResult_current _ _).symm.trans inCharge', ?_⟩
      exact recorded'.imp_left ((Supervisor.phase_keepResult _ _).symm.trans ·)
  | _ => exact .inl ⟨inCharge', recorded'⟩

/-! Which starts are not noted yet. -/

def RestartStage.owes : RestartStage → Bool
  | .launching .. | .installing _ | .blaming _ => true
  | _ => false

theorem Sound.vacant_of_owes (sound : Sound w) {starter : Starter} {stage : RestartStage}
    (held : w.lock = some (.restart starter stage)) (owes : stage.owes = true) :
    w.supervisor.current = none := by
  have fits := sound.fits
  rw [held] at fits
  cases stage with
  | launching => exact fits.vacant.current
  | installing => exact fits.current
  | blaming => exact fits.1.current
  | _ => cases owes

theorem Step.owes {starter : Starter} {stage : RestartStage} (step : Step p w a e w')
    (held' : w'.lock = some (.restart starter stage)) (owes : stage.owes = true) :
    (∃ before, w.lock = some (.restart starter before) ∧ before.owes = true) ∨
      w.supervisor.generation < w'.supervisor.generation := by
  cases step with
  | passed _ _ next =>
      cases held'
      rcases next with rfl | ⟨rfl, -⟩ <;> cases owes
  | counted => exact .inr (Nat.lt_succ_self _)
  | launched _ held | launchFailed _ held =>
      cases held'
      exact .inl ⟨_, held, rfl⟩
  | exited | printed | lookedAlive | lookedDead | heard | excused | confirmed | claimed
  | superseded | blames | keeps | marks | rereads | wakes => exact .inl ⟨stage, held', owes⟩
  | callRestart | refused | unchanged | differs | takeOver | skipOver | calledOff | replaced | kept
  | entered | installed | announced | watched | blamed | failed | sawSame =>
      cases held'
      cases owes
  | _ => cases held'

def Owing (w : Interplay) : Prop :=
  (∃ starter stage, w.lock = some (.restart starter stage) ∧ stage.owes = true) ∨
    ∃ id, w.supervisor.current = some id ∧ ¬ w.Recorded id

theorem Sound.owing_cases (sound : Sound w) (concluded : Concluded w) (step : Step p w a e w')
    (owing : w'.Owing) :
    w.Owing ∨ w.supervisor.generation < w'.supervisor.generation := by
  rcases owing with ⟨starter, stage, held', owes⟩ | ⟨id, inCharge', unrecorded⟩
  · rcases step.owes held' owes with before | grown
    · exact .inl (.inl ⟨starter, before⟩)
    · exact .inr grown
  · rcases step.current with same | ⟨vacant, -⟩ | ⟨starter, installed, held, -⟩
    · have inCharge := same.symm.trans inCharge'
      refine .inl (.inr ⟨id, inCharge, fun recorded => unrecorded ?_⟩)
      exact sound.recorded_step concluded step inCharge recorded
    · cases vacant.symm.trans inCharge'
    · exact .inl (.inl ⟨starter, _, held, rfl⟩)

/-! What was noted until now. -/

structure Noted (w : Interplay) (noted : List (Nat × ProcessFailure)) : Prop where
  last : w.supervisor.lastError = noted.getLast?.map (·.2)
  increasing : noted.Pairwise (·.1 < ·.1)
  within : ∀ n ∈ noted, n.1 ≤ w.supervisor.generation
  owing : w.Owing → ∀ n ∈ noted, n.1 < w.supervisor.generation
  recorded : ∀ id f, w.supervisor.current = some id → w.Recorded id → w.supervisor.Died id f →
    (id, f) ∈ noted

namespace Noted

theorem silent (known : Noted w noted) (sound : Sound w) (concluded : Concluded w)
    (step : Step p w a e w') (none : w.note? a = none)
    (same : w'.supervisor.lastError = w.supervisor.lastError) : Noted w' noted where
  last := same.trans known.last
  increasing := known.increasing
  within n member := Nat.le_trans (known.within n member) step.generation_le
  owing owing n member := by
    rcases sound.owing_cases concluded step owing with before | grown
    · exact Nat.lt_of_lt_of_le (known.owing before n member) step.generation_le
    · exact Nat.lt_of_le_of_lt (known.within n member) grown
  recorded id f inCharge' recorded' died' := by
    rcases sound.recorded_cases step inCharge' recorded' with
      ⟨inCharge, recorded⟩ | ⟨inCharge, blaming, rfl⟩
    · obtain ⟨g, died⟩ := sound.died_of_recorded concluded inCharge recorded
      rw [died'.unique (sound.died_step step died)]
      exact known.recorded id g inCharge recorded died
    · obtain ⟨i, found⟩ := Supervisor.exists_instance?_of_mem_ids (sound.known id inCharge)
      simp [note?, blaming, found] at none

theorem snoc (known : Noted w noted) {f : ProcessFailure} (owing : w.Owing)
    (last : w'.supervisor.lastError = some f)
    (generation : w'.supervisor.generation = w.supervisor.generation) (settled : ¬ w'.Owing)
    (recorded : ∀ id g, w'.supervisor.current = some id → w'.supervisor.Died id g →
      (id, g) = (w.supervisor.generation, f)) :
    Noted w' (noted ++ [(w.supervisor.generation, f)]) where
  last := by simp [last]
  increasing := by
    refine List.pairwise_append.mpr ⟨known.increasing, List.pairwise_singleton _ _, ?_⟩
    intro n member last latest
    rw [List.mem_singleton.mp latest]
    exact known.owing owing n member
  within n member := by
    rw [generation]
    rcases List.mem_append.mp member with before | latest
    · exact known.within n before
    · rw [List.mem_singleton.mp latest]
  owing owing' := absurd owing' settled
  recorded id g inCharge _ died := by simp [recorded id g inCharge died]

theorem step (known : Noted w noted) (sound : Sound w) (concluded : Concluded w)
    (step : Step p w a e w') : Noted w' (noted ++ (w.note? a).toList) := by
  rcases step.note_cases with
    ⟨none, same⟩ | ⟨starter, f, held, note, rfl⟩ | ⟨id, i, found, blaming, note, rfl⟩
  · rw [none, Option.toList_none, List.append_nil]
    exact known.silent sound concluded step none same
  · have vacant : w.supervisor.current = none := sound.vacant_of_owes held rfl
    rw [note]
    refine known.snoc (.inl ⟨starter, _, held, rfl⟩) rfl rfl ?_ ?_
    · rintro (⟨_, _, held', owes⟩ | ⟨id, inCharge, -⟩)
      · cases held'
        cases owes
      · cases vacant.symm.trans inCharge
    · intro id g inCharge
      cases vacant.symm.trans inCharge
  · have inCharge := sound.monitored.reading id (by rw [blaming]; rfl)
    have settled := sound.settled_of_watched inCharge (by simp [blaming])
    obtain ⟨rfl, -⟩ := (sound.settled settled).current id inCharge
    rw [note]
    refine known.snoc ?_ rfl rfl ?_ ?_
    · refine .inr ⟨_, inCharge, ?_⟩
      rintro (crashed | wrote)
      · cases blaming.symm.trans (concluded _ inCharge crashed)
      · rw [blaming] at wrote
        cases wrote
    · rintro (⟨starter, stage, held, owes⟩ | ⟨other, inCharge', unrecorded⟩)
      · cases (sound.vacant_of_owes held owes).symm.trans inCharge
      · cases inCharge.symm.trans inCharge'
        exact unrecorded (.inr (congrArg Vigil.wrote (watch_monitor_self _ _ _)))
    · intro other g inCharge' died
      cases inCharge.symm.trans inCharge'
      obtain ⟨j, found', -, rfl⟩ := died
      cases found.symm.trans found'
      rfl

theorem run {actions : List Action} (known : Noted w noted) (sound : Sound w)
    (concluded : Concluded w) (ran : run? p w actions = some w') :
    Noted w' (noted ++ notes p w actions) := by
  induction actions generalizing w noted with
  | nil =>
      cases ran
      rwa [notes, List.append_nil]
  | cons a rest ih =>
      obtain ⟨middle, stepped, ran⟩ := run?_cons_eq_some.mp ran
      have step := step_of_step? stepped
      rw [notes_cons stepped, ← List.append_assoc]
      exact ih (known.step sound concluded step) (sound.step step) (concluded.step sound step) ran

theorem start : Noted {} [] where
  last := rfl
  increasing := .nil
  within := by simp
  owing := by simp
  recorded := by simp

end Noted

theorem Reachable.concluded (reachable : Reachable p w) : Concluded w := by
  have both := reachable.keeps (motive := fun w => Sound w ∧ Concluded w)
    ⟨Sound.start, by simp [Concluded]⟩ fun known step =>
      ⟨known.1.step step, known.2.step known.1 step⟩
  exact both.2

theorem noted_of_run {actions : List Action} (ran : run? p {} actions = some w) :
    Noted w (notes p {} actions) :=
  Noted.start.run Sound.start (Reachable.start p).concluded ran

end Interplay

end RelayControl
