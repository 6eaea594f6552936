import RelayControl.Proofs.PidFile.Steps

/-!
What becomes of one process while others come and go: the file that it opened stays its own, and what
it has begun to write it goes on with.
-/

namespace RelayControl

namespace PidStage

def used? : PidStage → Option Nat
  | opened file | locked file | numbered file | claimed file => some file
  | cleaned _ | refused => none

def written? : PidStage → Option Nat
  | numbered file | claimed file => some file
  | opened _ | locked _ | cleaned _ | refused => none

variable {stage : PidStage} {file : Nat}

theorem file?_of_used? (used : stage.used? = some file) : stage.file? = some file := by
  cases stage with
  | opened | locked | numbered | claimed => exact used
  | cleaned | refused => cases used

theorem held?_of_written? (written : stage.written? = some file) : stage.held? = some file := by
  cases stage with
  | numbered | claimed => exact written
  | opened | locked | cleaned | refused => cases written

end PidStage

namespace PidDirectory

variable {d d' : PidDirectory} {pid other file : Nat} {stage : PidStage} {a : PidAction}
  {actions : List PidAction}

def Uses (d : PidDirectory) (pid file : Nat) : Prop :=
  ∃ stage, d.stage? pid = some stage ∧ stage.used? = some file

def Writes (d : PidDirectory) (pid file : Nat) : Prop :=
  ∃ stage, d.stage? pid = some stage ∧ stage.written? = some file

namespace Uses

theorem of_stage (uses : Uses d pid file) (begun : d.stage? pid = some stage) :
    stage.used? = some file := by
  obtain ⟨own, begun', used⟩ := uses
  cases begun.symm.trans begun'
  exact used

theorem ne_of_dropStage (uses : Uses (d.dropStage other) pid file) : other ≠ pid := by
  rintro rfl
  obtain ⟨_, gone, -⟩ := uses
  simp at gone

theorem lt_length (uses : Uses d pid file) (sound : Sound d) : file < d.files.length := by
  obtain ⟨stage, begun, used⟩ := uses
  exact sound.known pid stage file begun (PidStage.file?_of_used? used)

theorem of_step (uses : Uses d' pid file) (step : Step d a d') (old : a ≠ .opening pid) :
    Uses d pid file := by
  obtain ⟨after, begun, used⟩ := uses
  cases step with
  | @emptied q | @made q =>
      have differs : pid ≠ q := by
        rintro rfl
        exact old rfl
      rw [stage?_setStage, if_neg differs] at begun
      exact ⟨after, begun, used⟩
  | @locked q _ before | @numbered q _ before | @completed q _ before =>
      rw [stage?_setStage] at begun
      split at begun
      · rename_i same
        subst same
        cases begun
        exact ⟨_, before, used⟩
      · exact ⟨after, begun, used⟩
  | refused | cleaned =>
      rw [stage?_setStage] at begun
      split at begun
      · cases begun
        cases used
      · exact ⟨after, begun, used⟩
  | @ended q =>
      rw [stage?_dropStage] at begun
      split at begun
      · cases begun
      · exact ⟨after, begun, used⟩

theorem of_run (uses : Uses d' pid file) (ran : d.run? actions = some d')
    (old : .opening pid ∉ actions) : Uses d pid file :=
  run?_reflects (motive := (Uses · pid file))
    (fun member step uses => uses.of_step step (ne_of_mem_of_not_mem member old)) ran uses

end Uses

namespace Writes

theorem congr (writes : Writes d pid file) (same : d'.stage? pid = d.stage? pid) :
    Writes d' pid file := by
  rwa [Writes, same]

theorem ne_of_fresh (writes : Writes d pid file) (fresh : d.stage? other = none) : other ≠ pid := by
  rintro rfl
  obtain ⟨stage, begun, -⟩ := writes
  cases fresh.symm.trans begun

theorem ne_of_stage (writes : Writes d pid file) (begun : d.stage? other = some stage)
    (unwritten : stage.written? ≠ some file) : other ≠ pid := by
  rintro rfl
  obtain ⟨own, begun', written⟩ := writes
  cases begun.symm.trans begun'
  exact unwritten written

theorem holder (writes : Writes d pid file) (sound : Sound d) : d.holder? file = some pid := by
  obtain ⟨stage, begun, written⟩ := writes
  exact sound.held pid stage file begun (PidStage.held?_of_written? written)

theorem lt_length (writes : Writes d pid file) (sound : Sound d) : file < d.files.length := by
  have holder := writes.holder sound
  by_contra beyond
  rw [holder?, List.getElem?_eq_none (Nat.le_of_not_lt beyond)] at holder
  cases holder

theorem ne_of_held (writes : Writes d pid file) (sound : Sound d) {elsewhere : Nat}
    (begun : d.stage? other = some stage) (held : stage.held? = some elsewhere)
    (differs : other ≠ pid) : file ≠ elsewhere := by
  rintro rfl
  have same := (sound.held other stage file begun held).symm.trans (writes.holder sound)
  exact differs (Option.some.inj same)

theorem step (writes : Writes d pid file) (step : Step d a d') (uses : Uses d' pid file) :
    Writes d' pid file := by
  cases step with
  | emptied fresh | made fresh =>
      have differs := writes.ne_of_fresh fresh
      exact writes.congr (by simp [differs.symm])
  | locked before | refused before | numbered before =>
      have differs := writes.ne_of_stage before (by simp [PidStage.written?])
      exact writes.congr (by simp [differs.symm])
  | @completed q elsewhere before =>
      by_cases own : q = pid
      · subst own
        obtain ⟨stage, begun, written⟩ := writes
        cases before.symm.trans begun
        exact ⟨.claimed elsewhere, by simp, written⟩
      · exact writes.congr (by simp [Ne.symm own])
  | @cleaned q elsewhere =>
      have differs : q ≠ pid := by
        rintro rfl
        cases uses.of_stage (stage?_setStage.trans (if_pos rfl))
      exact writes.congr (by simp [differs.symm])
  | ended =>
      have differs := uses.ne_of_dropStage
      exact writes.congr (by simp [differs.symm])

theorem of_step (writes : Writes d' pid file) (step : Step d a d') (other : a ≠ .numbering pid) :
    Writes d pid file := by
  obtain ⟨after, begun, written⟩ := writes
  cases step with
  | emptied | made | locked | refused | cleaned =>
      rw [stage?_setStage] at begun
      split at begun
      · cases begun
        cases written
      · exact ⟨after, begun, written⟩
  | @numbered q =>
      have differs : pid ≠ q := by
        rintro rfl
        exact other rfl
      rw [stage?_setStage, if_neg differs] at begun
      exact ⟨after, begun, written⟩
  | @completed q _ before =>
      rw [stage?_setStage] at begun
      split at begun
      · rename_i same
        subst same
        cases begun
        exact ⟨_, before, written⟩
      · exact ⟨after, begun, written⟩
  | ended =>
      rw [stage?_dropStage] at begun
      split at begun
      · cases begun
      · exact ⟨after, begun, written⟩

theorem of_run (writes : Writes d' pid file) (ran : d.run? actions = some d')
    (other : .numbering pid ∉ actions) : Writes d pid file :=
  run?_reflects (motive := (Writes · pid file))
    (fun member step writes => writes.of_step step (ne_of_mem_of_not_mem member other)) ran writes

end Writes

end PidDirectory

end RelayControl
