import RelayControl.Proofs.Supervisor.Interplay.Failures
import RelayControl.Proofs.Supervisor.Replacement

/-!
The configuration that the relay was started with. It stands in the file as long as its instance is
in charge, for only a restart that has taken the instance out of charge writes the file.
-/

namespace RelayControl

namespace Supervisor

variable (s : Supervisor) (id other : Nat)

def config? : Option RelayConfig := (s.instance? id).map (·.process.config)

theorem config?_update {change : Instance → Instance}
    (keeps : ∀ i, (change i).id = i.id ∧ (change i).process.config = i.process.config) :
    (s.update id change).config? other = s.config? other := by
  rw [config?, instance?_update fun i => (keeps i).1, Option.map_map, config?]
  congr 1
  funext i
  simp only [Function.comp]
  split
  · exact (keeps i).2
  · rfl

@[simp] theorem config?_callOff : (s.callOff id).config? other = s.config? other :=
  s.config?_update id other fun _ => ⟨rfl, rfl⟩

@[simp] theorem config?_stopProcess : (s.stopProcess id).config? other = s.config? other :=
  s.config?_update id other fun _ => ⟨rfl, rfl⟩

@[simp] theorem config?_print (lines : List String) :
    (s.print id lines).config? other = s.config? other :=
  s.config?_update id other fun _ => ⟨rfl, rfl⟩

@[simp] theorem config?_exitProcess (failure : ProcessFailure) :
    (s.exitProcess id failure).config? other = s.config? other := by
  refine s.config?_update id other fun i => ⟨i.process.exited_id failure, ?_⟩
  unfold RelayProcess.exited
  split <;> rfl

@[simp] theorem config?_keepResult : (s.keepResult id).config? other = s.config? other := by
  rw [config?, instance?_keepResult, config?]

@[simp] theorem written_keepResult : (s.keepResult id).written = s.written := by
  unfold keepResult
  split <;> rfl

theorem instance?_enrol_self (process : RelayProcess) :
    (s.enrol process).instance? process.id = some { process } :=
  List.find?_cons_of_pos (beq_self_eq_true process.id)

end Supervisor

namespace Interplay

variable {p : ProcessSettings} {w w' : Interplay} {a : Action} {e : Option Event} {id : Nat}

/-! What stands in the file. -/

/-- What is in charge, or is going to be with the next access of the holder. -/
def charged? (w : Interplay) : Option Nat :=
  match w.lock with
  | some (.restart _ (.installing id)) => some id
  | _ => w.supervisor.current

def Filed (w : Interplay) : Prop :=
  ∀ id config, w.charged? = some id → w.supervisor.config? id = some config →
    w.supervisor.written = some config.toJson.pretty

namespace Filed

theorem of_same (filed : Filed w)
    (charged : ∀ id, w'.charged? = some id → w.charged? = some id)
    (written : w'.supervisor.written = w.supervisor.written)
    (configs : ∀ id, w'.supervisor.config? id = w.supervisor.config? id) : Filed w' := by
  intro id config inCharge found
  rw [written]
  exact filed id config (charged id inCharge) ((configs id).symm.trans found)

theorem step (filed : Filed w) (sound : Sound w) (step : Step p w a e w') : Filed w' := by
  have fits := sound.fits
  cases step with
  | callRestart free | callStop free | callRecovery free =>
      exact filed.of_same (by simp [charged?, free]) rfl fun _ => rfl
  | passed _ held next =>
      refine filed.of_same ?_ rfl fun _ => rfl
      rcases next with rfl | ⟨rfl, -⟩ <;> simp [charged?, held]
  | takeOver | skipOver | stopTake | stopSkip =>
      exact filed.of_same (by simp [charged?]) rfl fun _ => rfl
  | calledOff _ held | stopCalledOff held =>
      exact filed.of_same (by simp [charged?, held, Supervisor.callOff]) rfl (by simp)
  | replaced _ held | stopEnded held =>
      exact filed.of_same (by simp [charged?, held, Supervisor.stopProcess]) rfl (by simp)
  | kept _ held | stopKept held =>
      exact filed.of_same (by simp [charged?, held, Supervisor.keepResult_current]) (by simp)
        (by simp)
  | @launched _ config id held conditions process began =>
      intro id' config' inCharge found
      cases inCharge
      obtain ⟨process', launched, rfl, rfl, -⟩ | ⟨written, reason, launched, -⟩ :=
        RelayProcess.launch_cases p conditions id config
      · rw [launched] at began ⊢
        cases began
        rw [Supervisor.config?, holds_supervisor, sets_supervisor,
          Supervisor.instance?_enrol_self] at found
        cases found
        rfl
      · rw [launched] at began
        cases began
  | launchFailed _ held =>
      rw [held] at fits
      intro id config inCharge
      cases fits.vacant.current.symm.trans inCharge
  | refused _ held | unchanged _ held | differs _ held | entered _ held | counted _ held
  | installed _ held | announced _ held | watched _ held | blamed _ held | failed _ held
  | returned held | recovered held | attemptFailed held | gaveUp held | stopLooked held
  | stopHalted held | stopReturned held | sawCrash held | sawOther held | sawSame held
  | sawNewer held =>
      refine filed.of_same ?_ rfl fun _ => rfl
      simp [charged?, held, Supervisor.install, Supervisor.enter, Supervisor.count,
        Supervisor.blame, Supervisor.halt]
  | exited => exact filed.of_same (by simp [charged?, Supervisor.exitProcess]) rfl (by simp)
  | printed => exact filed.of_same (by simp [charged?, Supervisor.print]) rfl (by simp)
  | keeps =>
      exact filed.of_same (by simp [charged?, Supervisor.keepResult_current]) (by simp) (by simp)
  | lookedAlive | lookedDead | heard | excused | confirmed | claimed | superseded | blames | marks
  | rereads | wakes => exact filed.of_same (fun _ inCharge => inCharge) rfl fun _ => rfl

theorem start : Filed {} := by simp [Filed, charged?]

end Filed

theorem Reachable.filed (reachable : Reachable p w) : Filed w := by
  have both := reachable.keeps (motive := fun w => Sound w ∧ Filed w)
    ⟨Sound.start, Filed.start⟩ fun known step => ⟨known.1.step step, known.2.step known.1 step⟩
  exact both.2

theorem Filed.written_of_current (filed : Filed w) (sound : Sound w) {i : Instance}
    (found : w.supervisor.currentInstance? = some i) :
    w.supervisor.written = some i.process.config.toJson.pretty := by
  obtain ⟨inCharge, found⟩ := Supervisor.current_of_currentInstance? found
  refine filed i.id i.process.config ?_ (by rw [Supervisor.config?, found]; rfl)
  unfold charged?
  split
  next starter id held =>
    have fits := sound.fits
    rw [held] at fits
    cases fits.current.symm.trans inCharge
  next => exact inCharge

end Interplay

end RelayControl
