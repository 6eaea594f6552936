import RelayControl.Proofs.Supervisor.Interplay.Recoveries

/-!
What the accesses come to when nobody else does anything in between. They make up the restart, the
stop, the recovery and the record of a crash of the supervisor.
-/

namespace RelayControl

namespace Supervisor

theorem vacate_of_vacant {s : Supervisor} (vacant : s.current = none) : s.vacate = s := by
  cases s
  cases vacant
  rfl

theorem retire_of_vacant {s : Supervisor} (vacant : s.current = none) : s.retire = s := by
  unfold retire
  rw [vacant]

theorem instance?_keepResult (s : Supervisor) (id other : Nat) :
    (s.keepResult id).instance? other = s.instance? other := by
  unfold keepResult
  split <;> rfl

theorem retire_eq {s : Supervisor} {old : Nat} (inCharge : s.current = some old) :
    s.retire = ((s.vacate.callOff old).stopProcess old).keepResult old := by
  unfold retire
  rw [inCharge, discard_eq inCharge]

end Supervisor

namespace Interplay

variable {p : ProcessSettings} {w w' v : Interplay} {starter : Starter}

def Action.byHolder : Action → Bool
  | .synthesized _ | .proceed | .stopped _ | .launched _ | .release => true
  | _ => false

/-- Only whoever holds the lock goes on. -/
inductive Alone (p : ProcessSettings) : Interplay → Interplay → Prop where
  | refl (w : Interplay) : Alone p w w
  | step {w w' v : Interplay} {a : Action} (own : a.byHolder = true)
      (stepped : w.step? p a = some w') (rest : Alone p w' v) : Alone p w v

theorem Alone.trans (first : Alone p w w') (second : Alone p w' v) : Alone p w v := by
  induction first with
  | refl => exact second
  | step own stepped _ ih => exact .step own stepped (ih second)

def Unread (w : Interplay) : Prop := ∀ id, (w.monitor id).reads = false

theorem Unread.unguarded (unread : w.Unread) : w.guarded = false := by
  simp [guarded, unread _]

def Restarts (p : ProcessSettings) (w : Interplay) (starter : Starter)
    (answer : Except Fault Unit × Supervisor) : Prop :=
  ∃ v ending, Alone p w v ∧ v.lock = some (.restart starter (.returning ending)) ∧
    v.recoveries = w.recoveries ∧ (ending.result, v.supervisor) = answer

theorem Restarts.after {answer : Except Fault Unit × Supervisor}
    (restarts : Restarts p w' starter answer) (first : Alone p w w')
    (recoveries : w'.recoveries = w.recoveries) : Restarts p w starter answer := by
  obtain ⟨v, ending, later, held, same, answered⟩ := restarts
  exact ⟨v, ending, first.trans later, held, same.trans recoveries, answered⟩

theorem step?_proceed_restart {stage next : RestartStage}
    (progress : (w.holds (.restart starter stage)).restartStep? stage =
      some (v.holds (.restart starter stage), next)) :
    (w.holds (.restart starter stage)).step? p .proceed =
      some (v.holds (.restart starter next)) := by
  rw [step?, holds_lock, Option.bind_some, proceed?, progress]
  rfl

theorem step?_proceed_stop {stage next : StopStage}
    (progress : (w.holds (.stop stage)).stopStep? stage = some (v.holds (.stop stage), next)) :
    (w.holds (.stop stage)).step? p .proceed = some (v.holds (.stop next)) := by
  rw [step?, holds_lock, Option.bind_some, proceed?, progress]
  rfl

section Restart

variable (unread : w.Unread) (outcome : Except String Unit) (conditions : LaunchConditions)
  (config : RelayConfig)

include unread

theorem taken?_eq : w.taken? = some (w.sets w.supervisor.vacate, w.supervisor.current) := by
  rw [taken?, unread.unguarded]
  rfl

include outcome in
theorem alone_retire :
    Alone p (w.holds (.restart starter (.taking config)))
      ((w.sets w.supervisor.retire).holds (.restart starter (.entering config))) := by
  have taken := taken?_eq (w := w.holds (.restart starter (.taking config))) unread
  cases inCharge : w.supervisor.current with
  | none =>
      have skipped : (w.holds (.restart starter (.taking config))).step? p .proceed =
          some ((w.sets w.supervisor.vacate).holds (.restart starter (.entering config))) :=
        step?_proceed_restart (by rw [restartStep?, taken, holds_supervisor, inCharge]; rfl)
      rw [Supervisor.retire_of_vacant inCharge]
      rw [Supervisor.vacate_of_vacant inCharge] at skipped
      exact .step rfl skipped (.refl _)
  | some old =>
      have taken : (w.holds (.restart starter (.taking config))).step? p .proceed =
          some ((w.sets w.supervisor.vacate).holds
            (.restart starter (.callingOff config old))) :=
        step?_proceed_restart (by rw [restartStep?, taken, holds_supervisor, inCharge]; rfl)
      rw [Supervisor.retire_eq inCharge]
      -- The monitor is told to end, the process is stopped, and its last output is kept.
      exact .step rfl taken <| .step (a := .proceed) rfl rfl <|
        .step (a := .stopped outcome) rfl rfl <| .step (a := .proceed) rfl rfl (.refl _)

omit unread in
theorem alone_announce (s : Supervisor) :
    Alone p ((w.sets s).holds (.restart starter (.entering config)))
      ((w.sets s.announce).holds (.restart starter (.launching config s.announce.generation))) :=
  .step (a := .proceed) rfl rfl <| .step (a := .proceed) rfl rfl (.refl _)

theorem restarts_arrive (s : Supervisor) (id : Nat) :
    Restarts p ((w.sets s).holds (.restart starter (.launching config id))) starter
      (s.arrive (RelayProcess.launch p conditions id config)) := by
  cases launched : (RelayProcess.launch p conditions id config).result with
  | ok process =>
      obtain ⟨rfl, -, -⟩ := RelayProcess.launch_id launched
      rw [Supervisor.arrive_eq_of_ok launched]
      have began : ((w.sets s).holds (.restart starter (.launching config process.id))).step? p
          (.launched conditions) = some ((w.sets ((s.rewrite
            (RelayProcess.launch p conditions process.id config)).enrol process)).holds
              (.restart starter (.installing process.id))) := by
        simp only [step?, holds_lock, launched]
        rfl
      have installed (s : Supervisor) :
          ((w.sets s).holds (.restart starter (.installing process.id))).step? p .proceed =
            some ((w.sets (s.install process.id)).holds
              (.restart starter (.announcing process.id))) := by
        have unguarded :
            ((w.sets s).holds (.restart starter (.installing process.id))).guarded = false :=
          Unread.unguarded unread
        exact step?_proceed_restart (by rw [restartStep?, unguarded]; rfl)
      exact ⟨_, .started, .step rfl began <| .step rfl (installed _) <|
        .step (a := .proceed) rfl rfl <| .step (a := .proceed) rfl rfl (.refl _), rfl, rfl, rfl⟩
  | error f =>
      rw [Supervisor.arrive_eq_of_error launched]
      have failed : ((w.sets s).holds (.restart starter (.launching config id))).step? p
          (.launched conditions) = some ((w.sets (s.rewrite
            (RelayProcess.launch p conditions id config))).holds
              (.restart starter (.blaming f))) := by
        simp only [step?, holds_lock, launched]
        rfl
      exact ⟨_, .failed f, .step rfl failed <| .step (a := .proceed) rfl rfl <|
        .step (a := .proceed) rfl rfl (.refl _), rfl, rfl, rfl⟩

include outcome in
theorem restarts_replace :
    Restarts p (w.holds (.restart starter (.taking config))) starter
      (w.supervisor.replace config fun id config => RelayProcess.launch p conditions id config) :=
  (restarts_arrive unread conditions config _ _).after
    ((alone_retire unread outcome config).trans (alone_announce config _)) rfl

include outcome in
/-- Alone, the steps of a restart make up the restart of the supervisor. -/
theorem restarts (synthesized : Except Fault RelayConfig) :
    Restarts p (w.holds (.restart starter .synthesizing)) starter
      (w.supervisor.restart synthesized starter.force fun id config =>
        RelayProcess.launch p conditions id config) := by
  cases synthesized with
  | error f =>
      exact ⟨_, .refused f, .step (a := .synthesized (.error f)) rfl rfl (.refl _), rfl, rfl, rfl⟩
  | ok config =>
      have replaced : Restarts p (w.holds (.restart starter (.taking config))) starter _ :=
        restarts_replace unread outcome conditions config
      have synthesized : (w.holds (.restart starter .synthesizing)).step? p
          (.synthesized (.ok config)) = some (w.holds (.restart starter
            (if starter.force then .taking config else .comparing config))) := rfl
      change Restarts p _ _ (if !starter.force && w.supervisor.runs config then _ else _)
      cases force : starter.force with
      | true =>
          rw [force] at synthesized
          exact replaced.after (.step rfl synthesized (.refl _)) rfl
      | false =>
          rw [force] at synthesized
          cases same : w.supervisor.runs config with
          | true =>
              have unchanged : (w.holds (.restart starter (.comparing config))).step? p .proceed =
                  some (w.holds (.restart starter (.returning .unchanged))) :=
                step?_proceed_restart (by rw [restartStep?, holds_supervisor, same]; rfl)
              exact ⟨_, .unchanged, .step rfl synthesized (.step rfl unchanged (.refl _)), rfl, rfl,
                rfl⟩
          | false =>
              have differs : (w.holds (.restart starter (.comparing config))).step? p .proceed =
                  some (w.holds (.restart starter (.taking config))) :=
                step?_proceed_restart (by rw [restartStep?, holds_supervisor, same]; rfl)
              exact replaced.after (.step rfl synthesized (.step rfl differs (.refl _))) rfl

end Restart

theorem stops (unread : w.Unread) (outcome : Except String Unit) :
    ∃ v result, Alone p (w.holds (.stop .taking)) v ∧ v.lock = some (.stop (.returning result)) ∧
      v.recoveries = w.recoveries ∧ (result, v.supervisor) = w.supervisor.stop outcome := by
  have taken := taken?_eq (w := w.holds (.stop .taking)) unread
  unfold Supervisor.stop Supervisor.isRunning Supervisor.currentInstance?
  cases inCharge : w.supervisor.current with
  | none =>
      have skipped : (w.holds (.stop .taking)).step? p .proceed =
          some ((w.sets w.supervisor.vacate).holds (.stop (.halting (.error .notRunning)))) :=
        step?_proceed_stop (by rw [stopStep?, taken, holds_supervisor, inCharge]; rfl)
      rw [Supervisor.retire_of_vacant inCharge]
      rw [Supervisor.vacate_of_vacant inCharge] at skipped
      exact ⟨_, _, .step rfl skipped <| .step (a := .proceed) rfl rfl (.refl _), rfl, rfl, rfl⟩
  | some old =>
      have taken : (w.holds (.stop .taking)).step? p .proceed =
          some ((w.sets w.supervisor.vacate).holds (.stop (.looking old))) :=
        step?_proceed_stop (by rw [stopStep?, taken, holds_supervisor, inCharge]; rfl)
      rw [Supervisor.retire_eq inCharge]
      refine ⟨_, _, .step rfl taken <| .step (a := .proceed) rfl rfl <|
        .step (a := .proceed) rfl rfl <| .step (a := .stopped outcome) rfl rfl <|
        .step (a := .proceed) rfl rfl <| .step (a := .proceed) rfl rfl (.refl _), rfl, rfl, ?_⟩
      change (Supervision.stopResult ((w.supervisor.instance? old).any Instance.alive) outcome, _) =
        if (w.supervisor.instance? old).any Instance.alive then _ else _
      cases (w.supervisor.instance? old).any Instance.alive <;> rfl

def stageAfter : Option (Except Fault Unit) → RecoveryStage
  | some (.error _) => .rereading
  | _ => .finished

theorem release_of_attempt {task : Nat} {ending : Ending} {before : RecoveryStage}
    (held : w.lock = some (.restart (.recovery task) (.returning ending)))
    (found : w.stageOf? task = some before) :
    ∃ v, w.step? p .release = some v ∧ v.lock = none ∧ v.supervisor = w.supervisor ∧
      v.stageOf? task = some (stageAfter (some ending.result)) := by
  cases ended : ending.result with
  | ok answer =>
      exact ⟨(w.move task .finished).frees, by simp [step?, held, release?, ended], rfl, rfl,
        stageOf?_move_self found _⟩
  | error f =>
      exact ⟨(w.move task .rereading).frees, by simp [step?, held, release?, ended], rfl, rfl,
        stageOf?_move_self found _⟩

/-- Alone, the steps of a recovery make up one attempt of the supervisor to recover. -/
theorem recovers {task expected : Nat} (unread : w.Unread) (outcome : Except String Unit)
    (conditions : LaunchConditions) (free : w.lock = none)
    (waiting : w.stageOf? task = some (.waiting expected))
    (synthesized : Except Fault RelayConfig) :
    ∃ u v attempt, w.step? p (.callRecovery task) = some u ∧ Alone p u v ∧ v.lock = none ∧
      v.stageOf? task = some (stageAfter attempt) ∧
      (attempt, v.supervisor) = w.supervisor.recover expected synthesized fun id config =>
        RelayProcess.launch p conditions id config := by
  have called : w.step? p (.callRecovery task) =
      some ((w.move task (.holding expected)).holds (.checkingPhase task)) := by
    simp only [step?, free, waiting]
  have holding : (w.move task (.holding expected)).stageOf? task = some (.holding expected) :=
    stageOf?_move_self waiting _
  generalize moved : w.move task (.holding expected) = v at called holding
  have same : v.supervisor = w.supervisor := by rw [← moved]; rfl
  have quiet : v.Unread := by rw [← moved]; exact unread
  have left : (v.holds (.leaving task)).step? p .release = some (v.move task .finished).frees := rfl
  have finished : (v.move task .finished).stageOf? task = some .finished :=
    stageOf?_move_self holding _
  unfold Supervisor.recover
  rw [← same]
  by_cases crashed : v.supervisor.phase = .crashed
  · have looked : (v.holds (.checkingPhase task)).step? p .proceed =
        some (v.holds (.checkingGeneration task)) := if_pos crashed
    by_cases current : v.supervisor.generation = expected
    · have found : (v.holds (.checkingGeneration task)).step? p .proceed =
          some (v.holds (.restart (.recovery task) .synthesizing)) := by
        have known : (v.holds (.checkingGeneration task)).stageOf? task =
            some (.holding v.supervisor.generation) := holding.trans (by rw [current])
        exact if_pos known
      rw [if_pos ⟨crashed, current⟩]
      have restarted : Restarts p (v.holds (.restart (.recovery task) .synthesizing))
        (.recovery task) _ := restarts quiet outcome conditions synthesized
      obtain ⟨u, ending, alone, held, recoveries, answered⟩ := restarted
      have holding' : u.stageOf? task = some (.holding expected) := by
        rw [stageOf?, recoveries]
        exact holding
      obtain ⟨u', released, free, supervisor, stage⟩ := release_of_attempt held holding'
      refine ⟨_, u', some ending.result, called, .step rfl looked <| .step rfl found <|
        alone.trans <| .step rfl released (.refl _), free, stage, ?_⟩
      rw [supervisor]
      exact congrArg (fun answer : Except Fault Unit × Supervisor => (some answer.1, answer.2))
        answered
    · have found : (v.holds (.checkingGeneration task)).step? p .proceed =
          some (v.holds (.leaving task)) := by
        have newer : (v.holds (.checkingGeneration task)).stageOf? task ≠
            some (.holding v.supervisor.generation) := by
          intro known
          cases holding.symm.trans known
          exact current rfl
        exact if_neg newer
      rw [if_neg (by simp [current])]
      exact ⟨_, _, none, called, .step rfl looked <| .step rfl found <| .step rfl left (.refl _),
        rfl, finished, rfl⟩
  · have looked : (v.holds (.checkingPhase task)).step? p .proceed =
        some (v.holds (.leaving task)) := if_neg crashed
    rw [if_neg (by simp [crashed])]
    exact ⟨_, _, none, called, .step rfl looked <| .step rfl left (.refl _), rfl, finished, rfl⟩

/-- Alone, the steps of a monitor make up the record of a crash. -/
theorem records {id : Nat} {i : Instance} (found : w.supervisor.instance? id = some i)
    (reporting : w.monitor id = .reporting) :
    ∃ actions v recorded, (∀ a ∈ actions, a = .advance id) ∧ run? p w actions = some v ∧
      v.lock = w.lock ∧ v.monitor id = .ended ∧
      v.recoveries = w.recoveries ++ (if recorded then [⟨id, .waiting id⟩] else []) ∧
      (recorded, v.supervisor) = w.supervisor.recordCrash id := by
  by_cases inCharge : w.supervisor.current = some id
  · rw [Supervisor.recordCrash_eq inCharge found]
    have claims : w.step? p (.advance id) = some (w.watch id .blaming) := by
      simp [step?, advance?, found, reporting, inCharge]
    have blames {v : Interplay} (found : v.supervisor.instance? id = some i)
        (blaming : v.monitor id = .blaming) : v.step? p (.advance id) =
          some ((v.sets (v.supervisor.blame (Supervisor.failureOf i))).watch id .keeping) := by
      simp [step?, advance?, found, blaming]
    have keeps {v : Interplay} (found : v.supervisor.instance? id = some i)
        (keeping : v.monitor id = .keeping) : v.step? p (.advance id) =
          some ((v.sets (v.supervisor.keepResult id)).watch id .marking) := by
      simp [step?, advance?, found, keeping]
    have marks {v : Interplay} (found : v.supervisor.instance? id = some i)
        (marking : v.monitor id = .marking) : v.step? p (.advance id) =
          some (((v.sets (v.supervisor.enter .crashed)).watch id .ended).begin id) := by
      simp [step?, advance?, found, marking]
    have kept : ((w.supervisor.blame (Supervisor.failureOf i)).keepResult id).instance? id =
        some i := (Supervisor.instance?_keepResult _ _ _).trans found
    have ran := run?_cons_eq_some.mpr ⟨_, claims, run?_cons_eq_some.mpr
      ⟨_, blames found (watch_monitor_self _ _ _), run?_cons_eq_some.mpr
        ⟨_, keeps found (watch_monitor_self _ _ _), run?_cons_eq_some.mpr
          ⟨_, marks kept (watch_monitor_self _ _ _), run?_nil _ _⟩⟩⟩⟩
    exact ⟨_, _, true, by simp, ran, rfl, by simp, rfl, rfl⟩
  · have unrecorded : w.supervisor.recordCrash id = (false, w.supervisor) := by
      rw [Supervisor.recordCrash, if_neg inCharge]
    have ended : w.step? p (.advance id) = some (w.watch id .ended) := by
      simp [step?, advance?, found, reporting, inCharge]
    rw [unrecorded]
    exact ⟨[.advance id], w.watch id .ended, false, by simp, by simp [run?, ended], rfl, by simp,
      by simp, rfl⟩

end Interplay

end RelayControl
