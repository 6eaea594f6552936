import RelayControl.Proofs.Supervisor.Interplay.Recoveries

/-!
A recovery that has begun goes unnoticed until it gets the lock: whatever is done without it is
done with it. So it does not matter how long after its last write a monitor begins the recovery,
and who comes between the two cannot tell.
-/

namespace RelayControl

namespace Interplay

variable {p : ProcessSettings} {w w' : Interplay} {a : Action} {task other : Nat}

theorem move_begin {before : RecoveryStage} (found : w.stageOf? task = some before)
    (stage : RecoveryStage) (id : Nat) :
    (w.begin id).move task stage = (w.move task stage).begin id := by
  have known := lt_length_of_stageOf? found
  have kept : task < (w.begin id).recoveries.length := by
    rw [begin, List.length_append]
    omega
  simp only [move]
  rw [List.modify_eq_take_cons_drop known, List.modify_eq_take_cons_drop kept]
  simp only [begin, List.getElem_append_left known, List.append_assoc, List.cons_append,
    List.take_append_of_le_length (Nat.le_of_lt known), List.drop_append_of_le_length known]

theorem stageOf?_begin_holding (w : Interplay) (id task expected : Nat) :
    (w.begin id).stageOf? task = some (.holding expected) ↔
      w.stageOf? task = some (.holding expected) := by
  rw [stageOf?_begin]
  split
  next new => simp [new, stageOf?]
  next => exact Iff.rfl

theorem guarded_begin (w : Interplay) (id : Nat) : (w.begin id).guarded = w.guarded := rfl

theorem taken?_begin (w : Interplay) (id : Nat) :
    (w.begin id).taken? = w.taken?.map fun taken => (taken.1.begin id, taken.2) := by
  unfold taken?
  rw [guarded_begin]
  cases w.guarded <;> rfl

theorem restartStep?_begin (w : Interplay) (id : Nat) (stage : RestartStage) :
    (w.begin id).restartStep? stage =
      (w.restartStep? stage).map fun moved => (moved.1.begin id, moved.2) := by
  cases stage with
  | taking config =>
      simp only [restartStep?, taken?_begin]
      rcases w.taken? with _ | ⟨taken, _ | old⟩ <;> rfl
  | installing =>
      cases read : w.guarded with
      | true => simp only [restartStep?, guarded_begin, read, if_true, Option.map_none]
      | false =>
          simp only [restartStep?, guarded_begin, read]
          rfl
  | _ => rfl

theorem stopStep?_begin (w : Interplay) (id : Nat) (stage : StopStage) :
    (w.begin id).stopStep? stage =
      (w.stopStep? stage).map fun moved => (moved.1.begin id, moved.2) := by
  cases stage with
  | taking =>
      simp only [stopStep?, taken?_begin]
      rcases w.taken? with _ | ⟨taken, _ | old⟩ <;> rfl
  | _ => rfl

theorem proceed?_begin (w : Interplay) (id : Nat) (errand : Errand) :
    (w.begin id).proceed? errand = (w.proceed? errand).map (·.begin id) := by
  cases errand with
  | restart starter stage =>
      simp only [proceed?, restartStep?_begin, Option.map_map]
      rfl
  | stop stage =>
      simp only [proceed?, stopStep?_begin, Option.map_map]
      rfl
  | checkingPhase task =>
      simp only [proceed?]
      rw [begin_supervisor]
      split <;> rfl
  | checkingGeneration task =>
      have same := w.stageOf?_begin_holding id task w.supervisor.generation
      by_cases expects : w.stageOf? task = some (.holding w.supervisor.generation)
      · simp only [proceed?]
        rw [begin_supervisor, if_pos expects, if_pos (same.mpr expects)]
        rfl
      · simp only [proceed?]
        rw [begin_supervisor, if_neg expects, if_neg (mt same.mp expects)]
        rfl
  | leaving task => rfl

theorem release?_begin {id : Nat} (tracked : Tracked (w.begin id)) {errand : Errand}
    (held : w.lock = some errand) :
    (w.begin id).release? errand = (w.release? errand).map (·.begin id) := by
  have moves (task : Nat) (own : errand.task? = some task) (stage : RecoveryStage) :
      (w.begin id).move task stage = (w.move task stage).begin id := by
    obtain ⟨expected, holding⟩ :=
      tracked.holder task (by rw [holder?, begin_lock, held]; exact own)
    exact move_begin ((w.stageOf?_begin_holding id task expected).mp holding) stage id
  unfold release?
  split
  next => rfl
  next task ending =>
    rw [moves task rfl, moves task rfl]
    cases ending.result <;> rfl
  next => rfl
  next task =>
    rw [moves task rfl]
    rfl
  next => rfl

theorem advance?_begin {i : Instance} (busy : w.monitor other ≠ .marking) (id : Nat) :
    (w.begin id).advance? other i = (w.advance? other i).map (·.begin id) := by
  unfold advance?
  rw [begin_monitor]
  cases vigil : w.monitor other with
  | marking => exact absurd vigil busy
  | _ => rfl

theorem step?_begin {id : Nat} (tracked : Tracked (w.begin id)) (stepped : w.step? p a = some w')
    (quiet : ∀ other task, w.event? p a ≠ some (.reported other task)) :
    (w.begin id).step? p a = some (w'.begin id) := by
  cases a with
  | callRestart | callStop =>
      simp only [step?] at stepped ⊢
      rw [begin_lock]
      split at stepped
      next free =>
        cases stepped
        rw [if_pos free]
        rfl
      next => cases stepped
  | callRecovery task =>
      simp only [step?] at stepped
      split at stepped
      next expected free waiting =>
        cases stepped
        simp only [step?, begin_lock, free, stageOf?_begin_of_some waiting, move_begin waiting]
        rfl
      next => cases stepped
  | synthesized outcome =>
      simp only [step?] at stepped ⊢
      rw [begin_lock]
      split at stepped
      next => cases stepped; rfl
      next => cases stepped
  | proceed =>
      obtain ⟨errand, held, progress⟩ := Option.bind_eq_some_iff.mp stepped
      simp only [step?, begin_lock, held, Option.bind_some]
      rw [proceed?_begin, progress, Option.map_some]
  | stopped outcome =>
      simp only [step?] at stepped ⊢
      rw [begin_lock]
      split at stepped
      next => cases stepped; rfl
      next => cases stepped; rfl
      next => cases stepped
  | launched conditions =>
      simp only [step?] at stepped ⊢
      rw [begin_lock]
      split at stepped
      next starter config number held =>
        cases result : (RelayProcess.launch p conditions number config).result with
        | ok process => rw [result] at stepped; cases stepped; rfl
        | error f => rw [result] at stepped; cases stepped; rfl
      next => cases stepped
  | release =>
      obtain ⟨errand, held, progress⟩ := Option.bind_eq_some_iff.mp stepped
      simp only [step?, begin_lock, held, Option.bind_some]
      rw [release?_begin tracked held, progress, Option.map_some]
  | exited other failure =>
      simp only [step?] at stepped ⊢
      rw [begin_supervisor]
      split at stepped
      next i found =>
        cases alive : i.alive with
        | true => rw [alive] at stepped; cases stepped; rfl
        | false => rw [alive] at stepped; cases stepped
      next => cases stepped
  | printed other lines => cases stepped; rfl
  | look other =>
      simp only [step?] at stepped ⊢
      rw [begin_supervisor]
      split at stepped
      next i found =>
        split at stepped
        next polling =>
          cases stepped
          rw [begin_monitor, if_pos polling]
          cases i.alive <;> rfl
        next => cases stepped
      next => cases stepped
  | hear other =>
      simp only [step?] at stepped ⊢
      rw [begin_supervisor]
      split at stepped
      next i found =>
        split at stepped
        next told =>
          cases stepped
          rw [begin_monitor, if_pos told]
          rfl
        next => cases stepped
      next => cases stepped
  | advance other =>
      obtain ⟨i, found, progress⟩ := Option.bind_eq_some_iff.mp stepped
      have busy : w.monitor other ≠ .marking := by
        intro marking
        exact quiet other w.recoveries.length (by rw [event?, if_pos marking])
      simp only [step?, begin_supervisor, found, Option.bind_some]
      rw [advance?_begin busy, progress, Option.map_some]
  | reread task =>
      simp only [step?] at stepped
      split at stepped
      next failed =>
        cases stepped
        rw [step?, if_pos (stageOf?_begin_of_some failed id), move_begin failed]
        rfl
      next => cases stepped
  | wake task =>
      simp only [step?] at stepped
      split at stepped
      next asleep =>
        cases stepped
        simp only [step?, stageOf?_begin_of_some asleep, move_begin asleep]
      next => cases stepped

theorem run?_begin {actions : List Action} {id : Nat} (reachable : Reachable p (w.begin id))
    (ran : run? p w actions = some w')
    (quiet : ∀ other task, .reported other task ∉ journal p w actions) :
    run? p (w.begin id) actions = some (w'.begin id) := by
  induction actions generalizing w with
  | nil =>
      cases ran
      rfl
  | cons a rest ih =>
      obtain ⟨middle, stepped, ran⟩ := run?_cons_eq_some.mp ran
      simp only [journal, stepped, List.mem_append, not_or, Option.mem_toList] at quiet
      have begun := step?_begin reachable.tracked stepped fun other task => (quiet other task).1
      have onward := ih (reachable.step begun) ran fun other task => (quiet other task).2
      exact run?_cons_eq_some.mpr ⟨middle.begin id, begun, onward⟩

/-- A monitor that begins its recovery some time after its last write leaves the world as if it
had begun it at once. -/
theorem run?_of_late_begin {actions : List Action} {id : Nat} {i : Instance}
    (reachable : Reachable p w) (found : w.supervisor.instance? id = some i)
    (marking : w.monitor id = .marking)
    (ran : run? p ((w.sets (w.supervisor.enter .crashed)).watch id .ended) actions = some w')
    (quiet : ∀ other task, .reported other task ∉
      journal p ((w.sets (w.supervisor.enter .crashed)).watch id .ended) actions) :
    run? p w (.advance id :: actions) = some (w'.begin id) := by
  have stepped : w.step? p (.advance id) =
      some (((w.sets (w.supervisor.enter .crashed)).watch id .ended).begin id) := by
    simp [step?, found, advance?, marking]
  have onward := run?_begin (reachable.step stepped) ran quiet
  exact run?_cons_eq_some.mpr ⟨_, stepped, onward⟩

end Interplay

end RelayControl
