import RelayControl.Proofs.Stats.Timeline

/-!
A timeline and the collections it stands for. Once the snapshots behind the stamps are known, the
baseline, the growth handed on and the calls under way can be read off the timeline, and both take
the same steps.
-/

namespace RelayControl

def TimelineStage.image (taken : Stamp → Snapshot) : TimelineStage → CollectStage
  | .located process => .located process
  | .received process stamp => .received process (taken stamp)

namespace Timeline

def held (taken : Stamp → Snapshot) : List BaselineEvent → Baseline
  | [] => ⟨0, []⟩
  | .begun process :: _ => ⟨process, []⟩
  | .persisted s :: earlier => (held taken earlier).extend (taken s)

def handed (taken : Stamp → Snapshot) : List BaselineEvent → List Growth
  | [] => []
  | .begun _ :: earlier => handed taken earlier
  | .persisted s :: earlier => (held taken earlier).growth (taken s) :: handed taken earlier

def image (t : Timeline) (taken : Stamp → Snapshot) (counted : List (Nat × Snapshot)) :
    Collecting where
  process := t.process
  counted := counted
  calls := t.calls.map fun (call, stage) => (call, stage.image taken)
  baseline := (owner t.history).map fun _ => held taken t.history
  persisted := handed taken t.history

variable {taken : Stamp → Snapshot} {counted : List (Nat × Snapshot)} {t t' : Timeline}

theorem held_process (taken : Stamp → Snapshot) {history : List BaselineEvent} {process : Nat}
    (owned : owner history = some process) : (held taken history).process = process := by
  induction history with
  | nil => cases owned
  | cons event earlier ih =>
      cases event with
      | begun => exact Option.some.inj owned
      | persisted s => exact ih owned

@[simp] theorem owner_begin (process : Nat) (history : List BaselineEvent) :
    owner (begin process history) = some process := by
  unfold begin
  split
  next owned => exact owned
  next => rfl

@[simp] theorem stamps_begin (process : Nat) (history : List BaselineEvent) :
    stamps (begin process history) = stamps history := by
  unfold begin
  split <;> rfl

@[simp] theorem handed_begin (process : Nat) (history : List BaselineEvent) :
    handed taken (begin process history) = handed taken history := by
  unfold begin
  split <;> rfl

theorem held_begin (process : Nat) (history : List BaselineEvent) :
    held taken (begin process history) =
      Baseline.ofProcess process ((owner history).map fun _ => held taken history) := by
  unfold begin
  cases owned : owner history with
  | none => rfl
  | some q =>
      have heldBy := held_process taken owned
      simp only [Option.some.injEq, Option.map_some, Baseline.ofProcess, heldBy]
      split <;> rfl

/-! What the snapshots say of one counter in one direction. -/

def said (taken : Stamp → Snapshot) (key : CounterKey) (d : Direction) (s : Stamp) : Option Int :=
  ((taken s).reading? key).map (·.along d)

theorem before_said (key : CounterKey) (d : Direction) (history : List BaselineEvent) :
    before (said taken key d) history =
      ((held taken history).readings.lookup key).map (·.along d) := by
  induction history with
  | nil => rfl
  | cons event earlier ih =>
      cases event with
      | begun => rfl
      | persisted s =>
          rw [before, ih, held, Baseline.lookup_extend, said]
          cases (taken s).reading? key <;> rfl

theorem tally_said (key : CounterKey) (d : Direction) {history : List BaselineEvent}
    (wellFormed : ∀ s ∈ stamps history, (taken s).sound = true) :
    ((handed taken history).map fun g => (g.of key).along d).sum =
      tally (said taken key d) history := by
  induction history with
  | nil => rfl
  | cons event earlier ih =>
      cases event with
      | begun => exact ih wellFormed
      | persisted s =>
          have earlierSound : ∀ s' ∈ stamps earlier, (taken s').sound = true := fun s' member =>
            wellFormed s' (List.mem_cons_of_mem s member)
          have added : (((held taken earlier).growth (taken s)).of key).along d =
              gain (said taken key d) s earlier := by
            rw [Growth.of_growth _ (wellFormed s List.mem_cons_self), gain, before_said, said]
            cases (taken s).reading? key with
            | none => exact Reading.along_default d
            | some now => exact Reading.along_since now _ d
          rw [handed, List.map_cons, List.sum_cons, added, ih earlierSound, tally, Int.add_comm]

/-! Steps. -/

theorem lookup_image_calls (call : Nat) :
    (t.image taken counted).calls.lookup call =
      (t.calls.lookup call).map (TimelineStage.image taken) :=
  lookup_map_values _ t.calls call

theorem image_setCall (call : Nat) (stage : TimelineStage) :
    (t.setCall call stage).image taken counted =
      (t.image taken counted).setCall call (stage.image taken) := by
  simp only [image, setCall, Collecting.setCall, List.map_cons, List.filter_map]
  rfl

theorem image_dropCall (call : Nat) :
    (t.dropCall call).image taken counted = (t.image taken counted).dropCall call := by
  simp only [image, dropCall, Collecting.dropCall, List.filter_map]
  rfl

def recounted (t : Timeline) (counted : List (Nat × Snapshot)) :
    CollectAction → List (Nat × Snapshot)
  | .restart => (t.process + 1, {}) :: counted
  | _ => counted

theorem image_persist (call : Nat) (fails : Bool) :
    (t.image taken counted).step? (.persist call fails) =
      (t.step? (.persist call fails)).map (·.image taken counted) := by
  simp only [Collecting.step?, step?, lookup_image_calls]
  cases t.calls.lookup call with
  | none => rfl
  | some stage =>
      cases stage with
      | located process => rfl
      | received process stamp =>
          simp only [Option.map_some, TimelineStage.image, Baseline.advance]
          have resumed : Baseline.ofProcess process (t.image taken counted).baseline =
              held taken (begin process t.history) := (held_begin process t.history).symm
          rw [resumed, ← image_dropCall]
          cases fails with
          | true => simp [image, dropCall]
          | false => simp [image, dropCall, handed, held, owner]

/-- An action that counts nothing takes a timeline and its image to a timeline and its image. -/
theorem image_step? {a : CollectAction} (quiet : ∀ snapshot, a ≠ .count snapshot)
    (answers : ∀ call, a = .receive call → counted.lookup t.process = some (taken t.now)) :
    (t.image taken counted).step? a =
      (t.step? a).map (·.image taken (t.recounted counted a)) := by
  cases a with
  | locate call =>
      simp only [Collecting.step?, step?, lookup_image_calls]
      cases t.calls.lookup call with
      | none => exact congrArg some (image_setCall call (.located t.process)).symm
      | some stage => rfl
  | receive call =>
      have answer : (t.image taken counted).counted.lookup (t.image taken counted).process =
          some (taken t.now) := answers call rfl
      simp only [Collecting.step?, step?, lookup_image_calls, answer]
      cases t.calls.lookup call with
      | none => rfl
      | some stage =>
          cases stage with
          | located process =>
              exact congrArg some (image_setCall call (.received process t.now)).symm
          | received process stamp => rfl
  | persist call fails => exact image_persist call fails
  | count snapshot => exact absurd rfl (quiet snapshot)
  | restart => rfl

end Timeline

end RelayControl
