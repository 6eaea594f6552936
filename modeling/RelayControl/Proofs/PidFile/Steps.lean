import RelayControl.PidFile
import RelayControl.Proofs.Basic

/-!
What an action does to the files and the processes of a path, and what holds of every directory that
actions lead to: the files and locks are where the stages say.
-/

namespace RelayControl

namespace PidDirectory

variable {d d' : PidDirectory} {pid other file : Nat} {stage : PidStage} {a : PidAction}
  {change : LockedFile → LockedFile}

/-! What is seen of a directory after each of its changes. -/

def holder? (d : PidDirectory) (file : Nat) : Option Nat := (d.files[file]?).bind (·.holder)

@[simp] theorem stage?_setStage :
    (d.setStage pid stage).stage? other = if other = pid then some stage else d.stage? other := by
  rw [stage?, setStage, lookup_cons_eq_ite]
  split
  · rfl
  · rename_i differs
    exact lookup_filter_of_kept (· != pid) (by simpa using differs)

@[simp] theorem stage?_dropStage :
    (d.dropStage pid).stage? other = if other = pid then none else d.stage? other := by
  rw [stage?, dropStage]
  split
  · rename_i same
    rw [lookup_eq_none_iff_notMem, same]
    simp
  · rename_i differs
    exact lookup_filter_of_kept (· != pid) (by simpa using differs)

@[simp] theorem stage?_updateFile : (d.updateFile file change).stage? pid = d.stage? pid := rfl

@[simp] theorem stage?_withNewFile : d.withNewFile.stage? pid = d.stage? pid := rfl

@[simp] theorem stage?_withoutFile : d.withoutFile.stage? pid = d.stage? pid := rfl

@[simp] theorem stage?_unlocked : (d.unlocked other).stage? pid = d.stage? pid := rfl

@[simp] theorem present_setStage : (d.setStage pid stage).present = d.present := rfl

@[simp] theorem present_dropStage : (d.dropStage pid).present = d.present := rfl

@[simp] theorem present_updateFile : (d.updateFile file change).present = d.present := rfl

@[simp] theorem present_withNewFile : d.withNewFile.present = some d.files.length := rfl

@[simp] theorem present_withoutFile : d.withoutFile.present = none := rfl

@[simp] theorem present_unlocked : (d.unlocked pid).present = d.present := rfl

@[simp] theorem files_dropStage : (d.dropStage pid).files = d.files := rfl

@[simp] theorem files_withoutFile : d.withoutFile.files = d.files := rfl

@[simp] theorem length_files_updateFile :
    (d.updateFile file change).files.length = d.files.length := by
  simp [updateFile]

@[simp] theorem length_files_withNewFile :
    d.withNewFile.files.length = d.files.length + 1 := by
  simp [withNewFile]

@[simp] theorem length_files_unlocked : (d.unlocked pid).files.length = d.files.length := by
  simp [unlocked]

@[simp] theorem text?_setStage : (d.setStage pid stage).text? file = d.text? file := rfl

@[simp] theorem text?_dropStage : (d.dropStage pid).text? file = d.text? file := rfl

theorem text?_eq_some (known : file < d.files.length) : ∃ text, d.text? file = some text :=
  ⟨_, congrArg (Option.map _) (List.getElem?_eq_getElem known)⟩

theorem text?_updateFile (edit : List Char → List Char)
    (edits : ∀ f, (change f).content = edit f.content) :
    (d.updateFile file change).text? other =
      if other = file then (d.text? other).map edit else d.text? other := by
  by_cases same : other = file
  · subst same
    simp [text?, updateFile, Function.comp_def, edits]
  · simp [text?, updateFile, same, Ne.symm same]

theorem text?_emptied :
    (d.updateFile file (·.emptied)).text? other =
      if other = file then (d.text? other).map fun _ => [] else d.text? other :=
  text?_updateFile (fun _ => []) fun _ => rfl

theorem text?_write {place : Nat} {text : List Char} :
    (d.updateFile file (·.write place text)).text? other =
      if other = file then (d.text? other).map (overwrite · place text) else d.text? other :=
  text?_updateFile (overwrite · place text) fun _ => rfl

@[simp] theorem text?_lockedBy :
    (d.updateFile file (·.lockedBy pid)).text? other = d.text? other := by
  refine Eq.trans (text?_updateFile id ?_) (by simp)
  exact fun _ => rfl

@[simp] theorem text?_unlocked : (d.unlocked pid).text? file = d.text? file := by
  have kept : ∀ f : LockedFile, (f.released pid).content = f.content := by
    intro f
    unfold LockedFile.released
    split <;> rfl
  simp [text?, unlocked, Function.comp_def, kept]

@[simp] theorem text?_withNewFile : d.withNewFile.text? d.files.length = some [] := by
  rw [text?, withNewFile, List.getElem?_concat_length]
  rfl

@[simp] theorem holder?_dropStage : (d.dropStage pid).holder? file = d.holder? file := rfl

@[simp] theorem holder?_withoutFile : d.withoutFile.holder? file = d.holder? file := rfl

theorem holder?_updateFile (keeps : ∀ f, (change f).holder = f.holder) :
    (d.updateFile file change).holder? other = d.holder? other := by
  by_cases same : other = file
  · subst same
    cases found : d.files[other]? <;> simp [holder?, updateFile, found, keeps]
  · simp [holder?, updateFile, Ne.symm same]

theorem holder?_lockedBy (known : file < d.files.length) :
    (d.updateFile file (·.lockedBy pid)).holder? other =
      if other = file then some pid else d.holder? other := by
  by_cases same : other = file
  · subst same
    simp [holder?, updateFile, known, LockedFile.lockedBy]
  · simp [holder?, updateFile, same, Ne.symm same]

@[simp] theorem holder?_withNewFile : d.withNewFile.holder? file = d.holder? file := by
  rw [holder?, holder?, withNewFile, List.getElem?_append]
  split
  · rfl
  · rename_i beyond
    rw [List.getElem?_eq_none (Nat.le_of_not_lt beyond)]
    cases file - d.files.length <;> rfl

@[simp] theorem holder?_unlocked :
    (d.unlocked pid).holder? file =
      if d.holder? file = some pid then none else d.holder? file := by
  cases found : d.files[file]? with
  | none => simp [holder?, unlocked, found]
  | some f =>
      by_cases held : f.holder = some pid
      · simp [holder?, unlocked, found, LockedFile.released, held]
      · simp [holder?, unlocked, found, LockedFile.released, held]

/-! What an action does, said once. -/

inductive Step (d : PidDirectory) : PidAction → PidDirectory → Prop where
  | emptied {pid file : Nat} (fresh : d.stage? pid = none) (standing : d.present = some file) :
      Step d (.opening pid) ((d.updateFile file (·.emptied)).setStage pid (.opened file))
  | made {pid : Nat} (fresh : d.stage? pid = none) (absent : d.present = none) :
      Step d (.opening pid) (d.withNewFile.setStage pid (.opened d.files.length))
  | locked {pid file : Nat} (opened : d.stage? pid = some (.opened file))
      (known : file < d.files.length) (free : d.holder? file = none) :
      Step d (.locking pid) ((d.updateFile file (·.lockedBy pid)).setStage pid (.locked file))
  | refused {pid file : Nat} (opened : d.stage? pid = some (.opened file))
      (held : d.holder? file ≠ none) : Step d (.locking pid) (d.setStage pid .refused)
  | numbered {pid file : Nat} (locked : d.stage? pid = some (.locked file)) :
      Step d (.numbering pid)
        ((d.updateFile file (·.write 0 (numeral pid))).setStage pid (.numbered file))
  | completed {pid file : Nat} (numbered : d.stage? pid = some (.numbered file)) :
      Step d (.completing pid)
        ((d.updateFile file (·.write (numeral pid).length ['\n'])).setStage pid (.claimed file))
  | cleaned {pid file : Nat} (claimed : d.stage? pid = some (.claimed file)) :
      Step d (.cleaning pid) (d.withoutFile.setStage pid (.cleaned file))
  | ended {pid : Nat} {stage : PidStage} (begun : d.stage? pid = some stage) :
      Step d (.ending pid) ((d.unlocked pid).dropStage pid)

theorem step_of_step? (stepped : d.step? a = some d') : Step d a d' := by
  cases a with
  | opening pid =>
      simp only [step?] at stepped
      split at stepped
      next file fresh standing => cases stepped; exact .emptied fresh standing
      next fresh absent => cases stepped; exact .made fresh absent
      next => cases stepped
  | locking pid =>
      simp only [step?] at stepped
      split at stepped
      next file opened =>
        split at stepped
        next f found =>
          have known : file < d.files.length := (List.getElem?_eq_some_iff.mp found).1
          have holder : d.holder? file = f.holder := by rw [holder?, found]; rfl
          split at stepped
          next free => cases stepped; exact .locked opened known (holder.trans free)
          next held => cases stepped; exact .refused opened (holder ▸ held)
        next => cases stepped
      next => cases stepped
  | numbering pid =>
      simp only [step?] at stepped
      split at stepped
      next file locked => cases stepped; exact .numbered locked
      next => cases stepped
  | completing pid =>
      simp only [step?] at stepped
      split at stepped
      next file numbered => cases stepped; exact .completed numbered
      next => cases stepped
  | cleaning pid =>
      simp only [step?] at stepped
      split at stepped
      next file claimed => cases stepped; exact .cleaned claimed
      next => cases stepped
  | ending pid =>
      simp only [step?] at stepped
      split at stepped
      next stage begun => cases stepped; exact .ended begun
      next => cases stepped

theorem run?_append (d : PidDirectory) (first second : List PidAction) :
    d.run? (first ++ second) = (d.run? first).bind (·.run? second) := by
  induction first generalizing d with
  | nil => rfl
  | cons a rest ih =>
      rw [List.cons_append, run?, run?, Option.bind_assoc]
      exact Option.bind_congr fun middle _ => ih middle

theorem run?_cons_eq_some {actions : List PidAction} :
    d.run? (a :: actions) = some d' ↔ ∃ middle, d.step? a = some middle ∧
      middle.run? actions = some d' :=
  Option.bind_eq_some_iff

theorem run?_reflects {motive : PidDirectory → Prop} {actions : List PidAction}
    (reflects : ∀ {d a d'}, a ∈ actions → Step d a d' → motive d' → motive d)
    (ran : d.run? actions = some d') (final : motive d') : motive d := by
  induction actions generalizing d with
  | nil =>
      cases ran
      exact final
  | cons a rest ih =>
      obtain ⟨middle, stepped, ran⟩ := run?_cons_eq_some.mp ran
      have within : ∀ {d b d'}, b ∈ rest → Step d b d' → motive d' → motive d :=
        fun member => reflects (List.mem_cons_of_mem a member)
      exact reflects List.mem_cons_self (step_of_step? stepped) (ih within ran)

structure Sound (d : PidDirectory) : Prop where
  standing : ∀ file, d.present = some file → file < d.files.length
  known : ∀ pid stage file, d.stage? pid = some stage → stage.file? = some file →
    file < d.files.length
  held : ∀ pid stage file, d.stage? pid = some stage → stage.held? = some file →
    d.holder? file = some pid

namespace Sound

theorem start (initial : Option String) : Sound (ofContent initial) where
  standing := by
    cases initial with
    | none => simp [ofContent]
    | some content => simp [ofContent]
  known := by cases initial <;> simp [ofContent, stage?]
  held := by cases initial <;> simp [ofContent, stage?]

theorem setStage (sound : Sound d) (works : ∀ file, stage.file? = some file → file < d.files.length)
    (holds : ∀ file, stage.held? = some file → d.holder? file = some pid) :
    Sound (d.setStage pid stage) where
  standing := sound.standing
  known q own file begun within := by
    rw [stage?_setStage] at begun
    split at begun
    · cases begun
      exact works file within
    · exact sound.known q own file begun within
  held q own file begun keeps := by
    rw [stage?_setStage] at begun
    split at begun
    · rename_i same
      cases begun
      exact same ▸ holds file keeps
    · exact sound.held q own file begun keeps

theorem updateFile (sound : Sound d) (keeps : ∀ f, (change f).holder = f.holder) :
    Sound (d.updateFile file change) where
  standing := by simpa using sound.standing
  known := by simpa using sound.known
  held q own other begun holds := by
    rw [holder?_updateFile keeps]
    exact sound.held q own other begun holds

theorem emptied (sound : Sound d) : Sound (d.updateFile file (·.emptied)) :=
  sound.updateFile fun _ => rfl

theorem written {place : Nat} {text : List Char} (sound : Sound d) :
    Sound (d.updateFile file (·.write place text)) :=
  sound.updateFile fun _ => rfl

theorem lockedBy (sound : Sound d) (known : file < d.files.length) (free : d.holder? file = none) :
    Sound (d.updateFile file (·.lockedBy pid)) where
  standing := by simpa using sound.standing
  known := by simpa using sound.known
  held q own other begun holds := by
    have before := sound.held q own other begun holds
    have differs : other ≠ file := by
      rintro rfl
      cases free.symm.trans before
    rwa [holder?_lockedBy known, if_neg differs]

theorem withNewFile (sound : Sound d) : Sound d.withNewFile where
  standing := by simp
  known q own file begun works := by
    have before := sound.known q own file begun works
    rw [length_files_withNewFile]
    omega
  held := by simpa using sound.held

theorem withoutFile (sound : Sound d) : Sound d.withoutFile where
  standing := by simp
  known := by simpa using sound.known
  held := by simpa using sound.held

theorem ended (sound : Sound d) : Sound ((d.unlocked pid).dropStage pid) where
  standing := by simpa using sound.standing
  known q own file begun works := by
    rw [stage?_dropStage] at begun
    split at begun
    · cases begun
    · simpa using sound.known q own file begun works
  held q own file begun holds := by
    rw [stage?_dropStage] at begun
    split at begun
    · cases begun
    · rename_i differs
      have before := sound.held q own file begun holds
      simp [before, differs]

theorem step (sound : Sound d) (step : Step d a d') : Sound d' := by
  cases step with
  | emptied fresh standing =>
      refine sound.emptied.setStage ?_ ?_
      · rintro _ ⟨⟩
        simpa using sound.standing _ standing
      · rintro _ ⟨⟩
  | made fresh absent =>
      refine sound.withNewFile.setStage ?_ ?_
      · rintro _ ⟨⟩
        simp
      · rintro _ ⟨⟩
  | locked opened known free =>
      refine (sound.lockedBy known free).setStage ?_ ?_
      · rintro _ ⟨⟩
        simpa using known
      · rintro _ ⟨⟩
        rw [holder?_lockedBy known, if_pos rfl]
  | refused opened held => exact sound.setStage (by simp [PidStage.file?]) (by simp [PidStage.held?])
  | numbered writer | completed writer =>
      refine sound.written.setStage ?_ ?_
      · rintro _ ⟨⟩
        exact sound.written.known _ _ _ writer rfl
      · rintro _ ⟨⟩
        exact sound.written.held _ _ _ writer rfl
  | cleaned claimed =>
      refine sound.withoutFile.setStage ?_ ?_
      · rintro _ ⟨⟩
        exact sound.known _ _ _ claimed rfl
      · rintro _ ⟨⟩
        exact sound.held _ _ _ claimed rfl
  | ended begun => exact sound.ended

theorem run {actions : List PidAction} (sound : Sound d) (ran : d.run? actions = some d') :
    Sound d' := by
  induction actions generalizing d with
  | nil =>
      cases ran
      exact sound
  | cons a rest ih =>
      obtain ⟨middle, stepped, ran⟩ := run?_cons_eq_some.mp ran
      exact ih (sound.step (step_of_step? stepped)) ran

end Sound

end PidDirectory

end RelayControl
