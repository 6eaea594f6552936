import RelayControl.Proofs.PidFile.Writers

/-!
Which process the PID file names. A process that has claimed the file is named by it as long as the
file stays under the path and nobody opens it again: to open it is to empty it, before the lock is
tried. What a process writes over is what others have written since it opened the file itself.
-/

namespace RelayControl

namespace PidDirectory

variable {d d' : PidDirectory} {pid other file : Nat} {stage : PidStage} {a : PidAction}
  {actions : List PidAction}

/-! The line of a process over what stood in the file before. -/

theorem nul_notMem_numeral (pid : Nat) : '\x00' ∉ numeral pid := by
  intro member
  have digit := Nat.isDigit_of_mem_toDigits (by decide) (by decide) member
  cases digit

theorem numeral_ne_nil (pid : Nat) : numeral pid ≠ [] := Nat.toDigits_ne_nil

theorem length_line (pid : Nat) : (line pid).length = (numeral pid).length + 1 := by
  simp [line]

/-- The number is written, with nothing behind it but at most the place of the line's end. -/
def Begins (pid : Nat) (text : List Char) : Prop :=
  ∃ rest, text = numeral pid ++ rest ∧ rest.length ≤ 1

theorem not_begins_nil (pid : Nat) : ¬Begins pid [] := by
  rintro ⟨rest, nothing, -⟩
  exact numeral_ne_nil pid (List.append_eq_nil_iff.mp nothing.symm).1

theorem begins_overwrite_iff {text : List Char} :
    Begins pid (overwrite text 0 (numeral pid)) ↔ text.length ≤ (line pid).length := by
  have written : overwrite text 0 (numeral pid) = numeral pid ++ text.drop (numeral pid).length := by
    simp [overwrite]
  rw [written, length_line]
  constructor
  · rintro ⟨rest, equal, short⟩
    rw [← List.append_cancel_left equal, List.length_drop] at short
    omega
  · intro short
    refine ⟨_, rfl, ?_⟩
    rw [List.length_drop]
    omega

theorem overwrite_eq_line_iff {text : List Char} :
    overwrite text (numeral pid).length ['\n'] = line pid ↔ Begins pid text := by
  constructor
  · intro equal
    have sized : (text.take (numeral pid).length ++
        List.replicate ((numeral pid).length - text.length) '\x00').length =
          (numeral pid).length := by
      simp only [List.length_append, List.length_take, List.length_replicate]
      omega
    rw [overwrite, List.append_assoc] at equal
    obtain ⟨front, back⟩ := List.append_inj equal sized
    -- A number that is cut off would show as NUL before the end of the line.
    have whole : (numeral pid).length - text.length = 0 := by
      by_contra cut
      obtain ⟨missing, count⟩ := Nat.exists_eq_succ_of_ne_zero cut
      apply nul_notMem_numeral pid
      rw [← front, count]
      simp
    rw [whole, List.replicate_zero, List.append_nil] at front
    have short := congrArg List.length back
    simp only [List.length_append, List.length_drop, List.length_singleton] at short
    refine ⟨text.drop (numeral pid).length, ?_, ?_⟩
    · rw [← front, List.length_take, Nat.min_eq_left (Nat.sub_eq_zero_iff_le.mp whole),
        List.take_append_drop]
    · rw [List.length_drop]
      omega
  · rintro ⟨rest, rfl, short⟩
    simp [overwrite, line, List.drop_eq_nil_of_le short]

-- The rest of a longer line stays behind a shorter one.
example : overwrite (overwrite (line 4711) 0 (numeral 12)) 2 ['\n'] = "12\n1\n".toList := by decide

/-! The time in which a process writes its line and has it in the file. -/

def Expects (pid : Nat) : PidStage → List Char → Prop
  | .numbered _, text => Begins pid text
  | .claimed _, text => text = line pid
  | _, _ => False

theorem not_expects_nil (pid : Nat) (stage : PidStage) : ¬Expects pid stage [] := by
  cases stage with
  | numbered => exact not_begins_nil pid
  | claimed => simp [Expects, line]
  | opened | locked | cleaned | refused => exact id

def Intact (d : PidDirectory) (pid file : Nat) : Prop :=
  ∃ stage text, d.stage? pid = some stage ∧ d.present = some file ∧ d.text? file = some text ∧
    Expects pid stage text

theorem intact_congr (stages : d'.stage? pid = d.stage? pid) (present : d'.present = d.present)
    (texts : d'.text? file = d.text? file) : Intact d' pid file ↔ Intact d pid file := by
  rw [Intact, Intact, stages, present, texts]

theorem not_intact_of_absent (absent : d.present ≠ some file) : ¬Intact d pid file := by
  rintro ⟨-, -, -, standing, -⟩
  exact absent standing

theorem intact_iff_of_stage {text : List Char} (begun : d.stage? pid = some stage)
    (standing : d.present = some file) (holds : d.text? file = some text) :
    Intact d pid file ↔ Expects pid stage text := by
  constructor
  · rintro ⟨stage', text', begun', -, holds', expected⟩
    cases begun.symm.trans begun'
    cases holds.symm.trans holds'
    exact expected
  · exact fun expected => ⟨stage, text, begun, standing, holds, expected⟩

theorem intact_numbering_iff (sound : Sound d) (locked : d.stage? pid = some (.locked file)) :
    Intact ((d.updateFile file (·.write 0 (numeral pid))).setStage pid (.numbered file)) pid file ↔
      d.present = some file ∧
        ∀ text, d.text? file = some text → text.length ≤ (line pid).length := by
  obtain ⟨text, holds⟩ := text?_eq_some (sound.known pid _ file locked rfl)
  have begun : ((d.updateFile file (·.write 0 (numeral pid))).setStage pid
      (.numbered file)).stage? pid = some (.numbered file) := by simp
  have written : ((d.updateFile file (·.write 0 (numeral pid))).setStage pid
      (.numbered file)).text? file = some (overwrite text 0 (numeral pid)) := by
    simp [text?_write, holds]
  by_cases standing : d.present = some file
  · rw [intact_iff_of_stage begun standing written, Expects, begins_overwrite_iff,
      and_iff_right standing]
    constructor
    · rintro short _ same
      cases holds.symm.trans same
      exact short
    · exact fun short => short text holds
  · exact iff_of_false (not_intact_of_absent standing) (mt And.left standing)

theorem intact_completing_iff (numbered : d.stage? pid = some (.numbered file)) :
    Intact ((d.updateFile file (·.write (numeral pid).length ['\n'])).setStage pid (.claimed file))
      pid file ↔ Intact d pid file := by
  constructor
  · rintro ⟨stage, text, begun, standing, holds, expected⟩
    rw [stage?_setStage, if_pos rfl] at begun
    cases begun
    rw [text?_setStage, text?_write, if_pos rfl] at holds
    obtain ⟨text, held, rfl⟩ := Option.map_eq_some_iff.mp holds
    exact ⟨_, text, numbered, standing, held, overwrite_eq_line_iff.mp expected⟩
  · rintro ⟨stage, text, begun, standing, holds, expected⟩
    cases numbered.symm.trans begun
    exact ⟨.claimed file, _, by simp, standing, by simp [text?_write, holds],
      overwrite_eq_line_iff.mpr expected⟩

/-- While a process has its line in the file, or writes it, the file stays what it should be with
every step but the start and the clean-up of a process; and once it is not, it is not again. -/
theorem Sound.intact_step_iff (sound : Sound d) (step : Step d a d') (before : Writes d pid file)
    (after : Uses d' pid file) :
    Intact d' pid file ↔ Intact d pid file ∧ (∀ q, a ≠ .opening q) ∧ ∀ q, a ≠ .cleaning q := by
  cases step with
  | @emptied q _ _ standing =>
      refine iff_of_false ?_ fun kept => kept.2.1 q rfl
      rintro ⟨stage, text, -, same, holds, expected⟩
      cases standing.symm.trans same
      rw [text?_setStage, text?_emptied, if_pos rfl] at holds
      obtain ⟨-, -, rfl⟩ := Option.map_eq_some_iff.mp holds
      exact not_expects_nil pid stage expected
  | @made q =>
      refine iff_of_false ?_ fun kept => kept.2.1 q rfl
      apply not_intact_of_absent
      have known := before.lt_length sound
      simp only [present_setStage, present_withNewFile, ne_eq, Option.some.injEq]
      omega
  | @cleaned q =>
      refine iff_of_false ?_ fun kept => kept.2.2 q rfl
      exact not_intact_of_absent (by simp)
  | @locked q _ opened =>
      have differs := before.ne_of_stage opened (by simp [PidStage.written?])
      rw [and_iff_left (by simp)]
      exact intact_congr (by simp [Ne.symm differs]) rfl (by simp)
  | @refused q _ opened =>
      have differs := before.ne_of_stage opened (by simp [PidStage.written?])
      rw [and_iff_left (by simp)]
      exact intact_congr (by simp [Ne.symm differs]) rfl rfl
  | @numbered q _ locked =>
      have differs := before.ne_of_stage locked (by simp [PidStage.written?])
      have elsewhere_ne := before.ne_of_held sound locked rfl differs
      rw [and_iff_left (by simp)]
      exact intact_congr (by simp [Ne.symm differs]) rfl (by simp [text?_write, elsewhere_ne])
  | @completed q _ numbered =>
      rw [and_iff_left (by simp)]
      by_cases own : q = pid
      · subst own
        obtain ⟨stage, begun, written⟩ := before
        cases numbered.symm.trans begun
        cases written
        exact intact_completing_iff numbered
      · have elsewhere_ne := before.ne_of_held sound numbered rfl own
        exact intact_congr (by simp [Ne.symm own]) rfl (by simp [text?_write, elsewhere_ne])
  | ended =>
      have differs := after.ne_of_dropStage
      rw [and_iff_left (by simp)]
      exact intact_congr (by simp [Ne.symm differs]) rfl (by simp)

theorem Sound.intact_run_iff (sound : Sound d) (ran : d.run? actions = some d')
    (old : .opening pid ∉ actions) (before : Writes d pid file) (after : Uses d' pid file) :
    Intact d' pid file ↔
      Intact d pid file ∧ (∀ q, .opening q ∉ actions) ∧ ∀ q, .cleaning q ∉ actions := by
  induction actions generalizing d with
  | nil =>
      cases ran
      simp
  | cons a rest ih =>
      obtain ⟨middle, stepped, ran⟩ := run?_cons_eq_some.mp ran
      have step := step_of_step? stepped
      rw [List.mem_cons, not_or] at old
      have uses := after.of_run ran old.2
      rw [ih (sound.step step) ran old.2 (before.step step uses),
        sound.intact_step_iff step before uses]
      simp only [List.mem_cons, not_or, forall_and, ne_comm]
      tauto

theorem standing_step_iff (step : Step d a d') (known : file < d.files.length) :
    d'.present = some file ↔ d.present = some file ∧ ∀ q, a ≠ .cleaning q := by
  cases step with
  | @made q fresh absent =>
      refine iff_of_false ?_ ?_
      · simp only [present_setStage, present_withNewFile, Option.some.injEq]
        omega
      · rintro ⟨standing, -⟩
        cases absent.symm.trans standing
  | @cleaned q => exact iff_of_false (by simp) fun kept => kept.2 q rfl
  | emptied | locked | refused | numbered | completed | ended => simp

theorem Sound.standing_run_iff (sound : Sound d) (ran : d.run? actions = some d')
    (old : .opening pid ∉ actions) (after : Uses d' pid file) :
    d'.present = some file ↔ d.present = some file ∧ ∀ q, .cleaning q ∉ actions := by
  induction actions generalizing d with
  | nil =>
      cases ran
      simp
  | cons a rest ih =>
      have uses := after.of_run ran old
      obtain ⟨middle, stepped, ran⟩ := run?_cons_eq_some.mp ran
      have step := step_of_step? stepped
      rw [List.mem_cons, not_or] at old
      rw [ih (sound.step step) ran old.2, standing_step_iff step (uses.lt_length sound)]
      simp only [List.mem_cons, not_or, forall_and, ne_comm]
      tauto

/-! From a start to the claim. -/

theorem Sound.opened (sound : Sound d) (step : Step d (.opening pid) d') :
    ∃ file, d'.stage? pid = some (.opened file) ∧ d'.present = some file ∧
      d'.text? file = some [] := by
  cases step with
  | emptied fresh standing =>
      obtain ⟨text, holds⟩ := text?_eq_some (sound.standing _ standing)
      exact ⟨_, by simp, standing, by simp [text?_emptied, holds]⟩
  | made fresh absent => exact ⟨_, by simp, rfl, by simp⟩

theorem locked_of_step (step : Step d (.numbering pid) d') (uses : Uses d' pid file) :
    d.stage? pid = some (.locked file) ∧
      d' = (d.updateFile file (·.write 0 (numeral pid))).setStage pid (.numbered file) := by
  cases step with
  | @numbered _ elsewhere locked =>
      cases uses.of_stage (stage?_setStage.trans (if_pos rfl))
      exact ⟨locked, rfl⟩

theorem begins_of_claimed {initial : Option String}
    (ran : (ofContent initial).run? actions = some d) (claimed : d.stage? pid = some (.claimed file)) :
    ∃ before middle later,
      actions = before ++ .opening pid :: middle ++ .numbering pid :: later ∧
        .opening pid ∉ middle ++ .numbering pid :: later := by
  have opens : .opening pid ∈ actions := by
    by_contra never
    obtain ⟨stage, begun, -⟩ := Uses.of_run ⟨_, claimed, rfl⟩ ran never
    cases initial <;> simp [ofContent, stage?] at begun
  obtain ⟨before, rest, rfl, old⟩ := exists_last_of_mem opens
  rw [run?_append] at ran
  obtain ⟨first, reached, ran⟩ := Option.bind_eq_some_iff.mp ran
  obtain ⟨opening, stepped, ran⟩ := run?_cons_eq_some.mp ran
  have sound := (Sound.start initial).run reached
  obtain ⟨own, opened, -⟩ := sound.opened (step_of_step? stepped)
  have numbers : .numbering pid ∈ rest := by
    by_contra never
    obtain ⟨stage, begun, written⟩ := Writes.of_run ⟨_, claimed, rfl⟩ ran never
    cases opened.symm.trans begun
    cases written
  obtain ⟨middle, later, rfl⟩ := List.append_of_mem numbers
  exact ⟨before, middle, later, by simp, old⟩

/-- The file that the process has claimed is under the path and holds the line of the process. -/
def Names (d : PidDirectory) (pid : Nat) : Prop :=
  ∃ file, d.stage? pid = some (.claimed file) ∧ d.present = some file ∧
    d.text? file = some (line pid)

theorem names_iff_intact (claimed : d.stage? pid = some (.claimed file)) :
    d.Names pid ↔ Intact d pid file := by
  constructor
  · rintro ⟨own, claimed', standing, holds⟩
    cases claimed.symm.trans claimed'
    exact ⟨_, _, claimed, standing, holds, rfl⟩
  · rintro ⟨stage, text, claimed', standing, holds, expected⟩
    cases claimed.symm.trans claimed'
    cases expected
    exact ⟨file, claimed, standing, holds⟩

theorem Names.content?_eq (names : d.Names pid) : d.content? = some (toString pid ++ "\n") := by
  obtain ⟨file, -, standing, holds⟩ := names
  rw [content?, standing, Option.bind_some, holds, Option.map_some]
  simp [line, numeral, toString, Nat.repr]

/-- A start empties the file even where it is then refused. -/
theorem Sound.content?_of_refused {q : Nat} (sound : Sound d)
    (ran : d.run? [.opening q, .locking q] = some d') (refused : d'.stage? q = some .refused) :
    d'.content? = some "" := by
  obtain ⟨opening, opened, ran⟩ := run?_cons_eq_some.mp ran
  obtain ⟨locking, locked, ran⟩ := run?_cons_eq_some.mp ran
  cases ran
  obtain ⟨file, -, standing, holds⟩ := sound.opened (step_of_step? opened)
  cases step_of_step? locked with
  | locked => simp at refused
  | refused =>
      have empty : opening.content? = some "" := by
        rw [content?, standing, Option.bind_some, holds]
        rfl
      exact empty

theorem Sound.names_iff {first opened writing written : PidDirectory}
    {middle later : List PidAction} (sound : Sound first)
    (opens : Step first (.opening pid) opened) (waits : opened.run? middle = some writing)
    (writes : Step writing (.numbering pid) written) (goesOn : written.run? later = some d)
    (old : .opening pid ∉ middle ++ later) (claimed : d.stage? pid = some (.claimed file)) :
    d.Names pid ↔ (∀ text, writing.text? file = some text → text.length ≤ (line pid).length) ∧
      (∀ q, .opening q ∉ later) ∧ ∀ q, .cleaning q ∉ middle ++ later := by
  have uses : Uses d pid file := ⟨_, claimed, rfl⟩
  rw [List.mem_append, not_or] at old
  obtain ⟨locked, rfl⟩ := locked_of_step writes (uses.of_run goesOn old.2)
  have waiting : Uses writing pid file := ⟨_, locked, rfl⟩
  -- The file that the process has claimed is the one that was under the path when it opened it.
  obtain ⟨own, begun, standing, -⟩ := sound.opened opens
  cases (waiting.of_run waits old.1).of_stage begun
  have soundOpened := sound.step opens
  have soundWriting := soundOpened.run waits
  rw [names_iff_intact claimed,
    (soundWriting.step writes).intact_run_iff goesOn old.2 ⟨.numbered file, by simp, rfl⟩ uses,
    intact_numbering_iff soundWriting locked,
    soundOpened.standing_run_iff waits old.1 waiting]
  simp only [standing, true_and, List.mem_append, not_or, forall_and]
  tauto

/-- A process that holds the lock and has written its line is named by the file exactly while nobody
has opened the path since its number was written, nobody has cleaned up since it opened the path
itself, and nothing longer than its line was left in the file when it wrote. What a start that is
refused leaves is an empty file. -/
theorem names_iff_undisturbed {initial : Option String}
    (ran : (ofContent initial).run? actions = some d) (claimed : d.stage? pid = some (.claimed file)) :
    ∃ before middle later writing,
      actions = before ++ .opening pid :: middle ++ .numbering pid :: later ∧
        .opening pid ∉ middle ++ later ∧
        (ofContent initial).run? (before ++ .opening pid :: middle) = some writing ∧
        (d.Names pid ↔
          (∀ text, writing.text? file = some text → text.length ≤ (line pid).length) ∧
            (∀ q, .opening q ∉ later) ∧ ∀ q, .cleaning q ∉ middle ++ later) ∧
        (d.Names pid → d.content? = some (toString pid ++ "\n")) ∧
        ∀ q refusal, d.run? [.opening q, .locking q] = some refusal →
          refusal.stage? q = some .refused → refusal.content? = some "" := by
  have start := Sound.start initial
  have sound := start.run ran
  obtain ⟨before, middle, later, rfl, old⟩ := begins_of_claimed ran claimed
  rw [run?_append] at ran
  obtain ⟨writing, reached, ran⟩ := Option.bind_eq_some_iff.mp ran
  refine ⟨before, middle, later, writing, rfl, by simpa using old, reached, ?_,
    Names.content?_eq, fun q refusal => sound.content?_of_refused⟩
  rw [run?_append] at reached
  obtain ⟨first, led, reached⟩ := Option.bind_eq_some_iff.mp reached
  obtain ⟨opened, opens, waits⟩ := run?_cons_eq_some.mp reached
  obtain ⟨written, writes, goesOn⟩ := run?_cons_eq_some.mp ran
  exact (start.run led).names_iff (step_of_step? opens) waits (step_of_step? writes) goesOn
    (by simpa using old) claimed

/-- Between the opening and the lock of a start another process claims the file, and ends. -/
def takenOver : List PidAction :=
  [.opening 12, .opening 7, .locking 7, .numbering 7, .completing 7, .ending 7, .locking 12,
    .numbering 12, .completing 12]

theorem names_iff_undisturbed_takenOver :
    ∃ d, (ofContent (some "4711\n")).run? takenOver = some d ∧
      d.stage? 12 = some (.claimed 0) ∧ d.Names 12 ∧ d.content? = some "12\n" := by
  obtain ⟨d, ran, claimed, names⟩ :
      ∃ d, (ofContent (some "4711\n")).run? takenOver = some d ∧
        d.stage? 12 = some (.claimed 0) ∧ d.Names 12 :=
    ⟨_, rfl, rfl, 0, rfl, rfl, by decide⟩
  obtain ⟨_, _, _, _, -, -, -, -, shown, -⟩ := names_iff_undisturbed ran claimed
  exact ⟨d, ran, claimed, names, shown names⟩

/-- The claimed file of a running process is emptied by a start that is refused because of it. -/
theorem refused_start_empties_file :
    ∃ d d', (ofContent none).run? [.opening 1, .locking 1, .numbering 1, .completing 1] = some d ∧
      d.content? = some "1\n" ∧ d.run? [.opening 2, .locking 2] = some d' ∧
      d'.stage? 2 = some .refused ∧ d'.stage? 1 = some (.claimed 0) ∧ d'.content? = some "" ∧
      ¬∀ actions d pid file, (ofContent none).run? actions = some d →
        d.stage? pid = some (.claimed file) → d.content? = some (toString pid ++ "\n") := by
  refine ⟨_, _, rfl, by decide, rfl, rfl, rfl, by decide, ?_⟩
  intro named
  have shown := named
    [.opening 1, .locking 1, .numbering 1, .completing 1, .opening 2, .locking 2] _ 1 0 rfl rfl
  exact absurd shown (by decide)

end PidDirectory

end RelayControl
