import RelayControl.Proofs.Supervisor.Interplay.Notes

/-!
Whose failure can be asked for after it was taken out of charge. A process that died by itself and
is replaced or stopped before its monitor has recorded the crash is never noted; its failure is lost
with it. Once the crash is recorded its failure stands as the last error until that of a later start
takes its place.
-/

namespace RelayControl

namespace Interplay

variable {p : ProcessSettings} {w w' v : Interplay} {a : Action} {e : Option Event} {id : Nat}

/-! A start that is over. -/

structure Departed (w : Interplay) (id : Nat) : Prop where
  dismissed : Dismissed w id
  passed : ∀ starter stage, w.lock = some (.restart starter stage) → stage.owes = true →
    id < w.supervisor.generation

namespace Departed

theorem step (departed : Departed w id) (sound : Sound w) (step : Step p w a e w') :
    Departed w' id where
  dismissed := departed.dismissed.step sound step
  passed starter stage held' owes := by
    rcases step.owes held' owes with ⟨before, held, owed⟩ | grown
    · exact Nat.lt_of_lt_of_le (departed.passed starter before held owed) step.generation_le
    · exact Nat.lt_of_le_of_lt (sound.bounded id departed.dismissed.known) grown

theorem note_ne (departed : Departed w id) (sound : Sound w) (step : Step p w a e w')
    {n : Nat × ProcessFailure} (note : w.note? a = some n) : n.1 ≠ id := by
  rcases step.note_cases with
    ⟨none, -⟩ | ⟨starter, f, held, noted, -⟩ | ⟨other, i, -, blaming, noted, -⟩
  · cases none.symm.trans note
  · cases noted.symm.trans note
    exact Nat.ne_of_gt (departed.passed starter _ held rfl)
  · cases noted.symm.trans note
    rintro rfl
    exact departed.dismissed.replaced (sound.monitored.reading _ (by rw [blaming]; rfl))

theorem notes_ne {actions : List Action} (departed : Departed w id) (sound : Sound w) :
    ∀ n ∈ notes p w actions, n.1 ≠ id := by
  induction actions generalizing w with
  | nil => simp [notes]
  | cons a rest ih =>
      intro n member
      rw [notes] at member
      split at member
      next next stepped =>
        have step := step_of_step? stepped
        rcases List.mem_append.mp member with now | later
        · exact departed.note_ne sound step (Option.mem_toList.mp now)
        · exact ih (departed.step sound step) (sound.step step) n later
      next => cases member

end Departed

/-! Taking what is in charge out of charge. -/

section Taking

variable (sound : Sound w) (step : Step p w a e w') (inCharge : w.supervisor.current = some id)
  (taken : w'.supervisor.current ≠ some id)

include sound step inCharge taken

theorem Sound.departed_of_taken : Departed w' id where
  dismissed := (sound.inCharge_or_dismissed step inCharge).resolve_left taken
  passed starter stage held' owes := by
    rcases step.owes held' owes with ⟨before, held, owed⟩ | grown
    · cases (sound.vacant_of_owes held owed).symm.trans inCharge
    · exact Nat.lt_of_le_of_lt (sound.bounded id (sound.known id inCharge)) grown

theorem Sound.note_of_taken : w.note? a = none := by
  rcases step.note_cases with ⟨none, -⟩ | ⟨starter, f, held, -, -⟩ | ⟨other, i, -, -, -, rfl⟩
  · exact none
  · cases (sound.vacant_of_owes held rfl).symm.trans inCharge
  · exact absurd inCharge taken

theorem Sound.settled_of_taken : w.settled = true ∧ w.guarded = false := by
  cases step with
  | takeOver _ held unread | skipOver _ held unread | stopTake held unread
  | stopSkip held unread => exact ⟨by rw [Interplay.settled, held]; rfl, unread⟩
  | installed _ held => cases (sound.vacant_of_owes held rfl).symm.trans inCharge
  | kept | stopKept | keeps =>
      exact absurd ((Supervisor.keepResult_current _ _).trans inCharge) taken
  | _ => exact absurd inCharge taken

theorem Tracked.crashed_of_taken (tracked : Tracked w) {task : Nat} {stage : RestartStage}
    (held : w.lock = some (.restart (.recovery task) stage)) : w.supervisor.phase = .crashed := by
  cases step with
  | takeOver _ taking =>
      cases held.symm.trans taking
      exact tracked.crashed _ held rfl
  | skipOver _ _ _ vacant => cases vacant.symm.trans inCharge
  | installed _ installing => cases (sound.vacant_of_owes installing rfl).symm.trans inCharge
  | stopTake stopping | stopSkip stopping => cases held.symm.trans stopping
  | kept | stopKept | keeps =>
      exact absurd ((Supervisor.keepResult_current _ _).trans inCharge) taken
  | _ => exact absurd inCharge taken

end Taking

theorem Answered.ended_iff_crashed (answered : Answered w) (concluded : Concluded w)
    (inCharge : w.supervisor.current = some id) :
    w.monitor id = .ended ↔ w.supervisor.phase = .crashed := by
  constructor
  · intro ended
    rcases answered.ended id ended with dismissed | handled
    · exact absurd inCharge dismissed.replaced
    · exact handled.crashed
  · exact concluded id inCharge

theorem Noted.lastError_of_crashed {noted : List (Nat × ProcessFailure)} (known : Noted w noted)
    (sound : Sound w) (concluded : Concluded w) (inCharge : w.supervisor.current = some id)
    (crashed : w.supervisor.phase = .crashed) :
    ∃ f, w.supervisor.Died id f ∧ (id, f) ∈ noted ∧ w.supervisor.lastError = some f := by
  obtain ⟨f, died⟩ := sound.died_of_recorded concluded inCharge (.inl crashed)
  have member := known.recorded id f inCharge (.inl crashed) died
  refine ⟨f, died, member, ?_⟩
  have watched : w.monitor id ≠ .absent := by simp [concluded id inCharge crashed]
  obtain ⟨rfl, -⟩ := (sound.settled (sound.settled_of_watched inCharge watched)).current id inCharge
  -- Nothing is noted of a start that has yet to be made, so this note is the last one.
  obtain ⟨before, last, rfl⟩ :=
    List.eq_nil_or_concat' noted |>.resolve_left (List.ne_nil_of_mem member)
  rcases List.mem_append.mp member with early | latest
  · have later := (List.pairwise_append.mp known.increasing).2.2 _ early last (by simp)
    exact absurd later (Nat.not_lt_of_le (known.within last (by simp)))
  · rw [known.last, ← List.mem_singleton.mp latest]
    simp

/--
The last error is the failure that was noted last, and what is noted later is of a later start. If
the crash of what is taken out of charge was recorded, then its failure stands as the last error; if
it was not, then it is never noted. A recovery takes out only what was recorded.
-/
theorem failure_kept_iff_recorded {before later : List Action}
    (ran : run? p {} before = some v) (inCharge : v.supervisor.current = some id)
    (stepped : v.step? p a = some w) (taken : w.supervisor.current ≠ some id)
    (went : run? p w later = some w') :
    w'.supervisor.lastError = (notes p {} (before ++ a :: later)).getLast?.map (·.2) ∧
    (notes p {} (before ++ a :: later)).Pairwise (·.1 < ·.1) ∧
    ((∃ f, (id, f) ∈ notes p {} (before ++ a :: later)) ↔ v.supervisor.phase = .crashed) ∧
    (v.supervisor.phase = .crashed ↔ v.monitor id = .ended) ∧
    (v.supervisor.phase = .crashed → ∃ f, v.supervisor.Died id f ∧
      (id, f) ∈ notes p {} before ∧ w.supervisor.lastError = some f) ∧
    ∀ task stage, v.lock = some (.restart (.recovery task) stage) →
      v.supervisor.phase = .crashed := by
  have reachable : Reachable p v := ⟨before, ran⟩
  have sound := reachable.sound
  have concluded := reachable.concluded
  have known := noted_of_run ran
  have step := step_of_step? stepped
  have departed := sound.departed_of_taken step inCharge taken
  have silent := sound.note_of_taken step inCharge taken
  have whole : run? p {} (before ++ a :: later) = some w' := by
    rw [run?_append, ran]
    exact run?_cons_eq_some.mpr ⟨w, stepped, went⟩
  have parts : notes p {} (before ++ a :: later) = notes p {} before ++ notes p w later := by
    rw [notes_append ran, notes_cons stepped, silent]
    rfl
  have recorded : v.supervisor.phase = .crashed → ∃ f, v.supervisor.Died id f ∧
      (id, f) ∈ notes p {} before ∧ w.supervisor.lastError = some f := by
    intro crashed
    obtain ⟨f, died, member, last⟩ := known.lastError_of_crashed sound concluded inCharge crashed
    have same : w.supervisor.lastError = v.supervisor.lastError := by
      rcases step.note_cases with ⟨-, same⟩ | ⟨_, _, -, note, -⟩ | ⟨_, _, -, -, note, -⟩
      · exact same
      · cases silent.symm.trans note
      · cases silent.symm.trans note
    exact ⟨f, died, member, same.trans last⟩
  refine ⟨(noted_of_run whole).last, (noted_of_run whole).increasing, ⟨?_, ?_⟩,
    (reachable.answered.ended_iff_crashed concluded inCharge).symm, recorded, ?_⟩
  · rintro ⟨f, member⟩
    rw [parts] at member
    rcases List.mem_append.mp member with early | late
    · by_contra calm
      obtain ⟨settled, unread⟩ := sound.settled_of_taken step inCharge taken
      have unrecorded : ¬ v.Recorded id := by
        rintro (crashed | wrote)
        · exact calm crashed
        · have reads := Vigil.reads_of_wrote wrote
          rw [sound.monitored.unread unread id] at reads
          cases reads
      -- What is in charge has the latest number, and nothing is noted of that.
      have below := known.owing (.inr ⟨id, inCharge, unrecorded⟩) (id, f) early
      obtain ⟨rfl, -⟩ := (sound.settled settled).current id inCharge
      exact Nat.lt_irrefl _ below
    · exact absurd rfl (departed.notes_ne (sound.step step) (id, f) late)
  · intro crashed
    obtain ⟨f, -, member, -⟩ := recorded crashed
    exact ⟨f, by rw [parts]; exact List.mem_append_left _ member⟩
  · intro task stage held
    exact Tracked.crashed_of_taken sound step inCharge taken reachable.tracked held

def dying (id : Nat) : List Action := [.exited id (.exited (some 1) none)]

theorem failure_kept_iff_recorded_recovering :
    ∃ v w w', run? {} {} (restarting ++ crashing 1 ++
        [.callRecovery 0, .proceed, .proceed, .synthesized (.ok {})]) = some v ∧
      v.supervisor.current = some 1 ∧ v.step? {} .proceed = some w ∧
      w.supervisor.current ≠ some 1 ∧
      run? {} w [.proceed, .stopped (.ok ()), .proceed, .proceed, .proceed,
        .launched { spawn := .ok 8 }, .proceed, .proceed, .proceed, .release] = some w' ∧
      v.supervisor.phase = .crashed ∧
      w.supervisor.lastError = some (.exited (some 1) none) ∧
      w'.supervisor.lastError = some (.exited (some 1) none) := by
  have reached : ∃ v, run? {} {} (restarting ++ crashing 1 ++
        [.callRecovery 0, .proceed, .proceed, .synthesized (.ok {})]) = some v ∧
      v.supervisor.current = some 1 ∧
      v.lock = some (.restart (.recovery 0) (.taking {})) ∧
      v.supervisor.Died 1 (.exited (some 1) none) ∧
      ∃ w, v.step? {} .proceed = some w ∧ w.supervisor.current = none ∧
      ∃ w', run? {} w [.proceed, .stopped (.ok ()), .proceed, .proceed, .proceed,
        .launched { spawn := .ok 8 }, .proceed, .proceed, .proceed, .release] = some w' :=
    ⟨_, rfl, rfl, rfl, ⟨_, rfl, rfl, rfl⟩, _, rfl, rfl, _, rfl⟩
  obtain ⟨v, ran, inCharge, held, died, w, stepped, vacant, w', went⟩ := reached
  have taken : w.supervisor.current ≠ some 1 := by simp [vacant]
  obtain ⟨last, -, -, -, kept, recovering⟩ :=
    failure_kept_iff_recorded ran inCharge stepped taken went
  have crashed := recovering 0 _ held
  obtain ⟨f, died', -, now⟩ := kept crashed
  cases died.unique died'
  exact ⟨v, w, w', ran, inCharge, stepped, taken, went, crashed, now, last.trans rfl⟩

/-- At some time of the run the failure was the last error. -/
def StoodAsLastError (p : ProcessSettings) (actions : List Action) (f : ProcessFailure) : Prop :=
  ∃ early late v, actions = early ++ late ∧ run? p {} early = some v ∧
    v.supervisor.lastError = some f

/-- A process that died before its monitor looked, and is stopped then, leaves no error behind. -/
theorem failure_lost_in_stop : ¬ ∀ p actions w id i f, run? p {} actions = some w →
    Dismissed w id → w.supervisor.instance? id = some i → i.process.failure = some f →
    StoodAsLastError p actions f := by
  intro kept
  have reached : ∃ w, run? {} {} (restarting ++ dying 1 ++ stopping) = some w ∧
      w.supervisor.current = none ∧ w.lock = none ∧ ∃ i, w.supervisor.instance? 1 = some i ∧
        i.process.failure = some (.exited (some 1) none) :=
    ⟨_, rfl, rfl, rfl, _, rfl, rfl⟩
  obtain ⟨w, ran, vacant, free, i, found, failure⟩ := reached
  have dismissed : Dismissed w 1 :=
    .of_vacant (Supervisor.mem_ids_of_instance? found) vacant (by simp [free])
  obtain ⟨early, late, v, whole, went, stood⟩ :=
    kept {} _ w 1 i _ ran dismissed found failure
  have none : notes {} {} (restarting ++ dying 1 ++ stopping) = [] := rfl
  rw [whole, notes_append went] at none
  have last := (noted_of_run went).last
  rw [(List.append_eq_nil_iff.mp none).1, stood] at last
  cases last

end Interplay

end RelayControl
