import RelayControl.Proofs.Basic
import RelayControl.Supervisor

/-!
What the steps of the supervisor do to its processes and its cells. Of the processes only the
number and whether each is alive is kept track of.
-/

namespace RelayControl

namespace Supervisor

/-- The processes that were started, the latest first, and whether each is alive. -/
def census (s : Supervisor) : List (Nat × Bool) :=
  s.instances.map fun i => (i.id, i.alive)

def bury (id : Nat) (entry : Nat × Bool) : Nat × Bool :=
  (entry.1, entry.2 && entry.1 != id)

@[simp] theorem bury_fst (id : Nat) (entry : Nat × Bool) : (bury id entry).1 = entry.1 := rfl

theorem mem_map_bury {id other : Nat} {entries : List (Nat × Bool)} :
    (other, true) ∈ entries.map (bury id) ↔ (other, true) ∈ entries ∧ other ≠ id := by
  constructor
  · intro member
    obtain ⟨⟨number, alive⟩, inside, equal⟩ := List.mem_map.mp member
    simp only [bury, Prod.mk.injEq, Bool.and_eq_true, bne_iff_ne] at equal
    obtain ⟨rfl, rfl, differs⟩ := equal
    exact ⟨inside, differs⟩
  · rintro ⟨inside, differs⟩
    exact List.mem_map.mpr ⟨_, inside, by simp [bury, differs]⟩

variable (s : Supervisor) (id : Nat)

theorem map_update_of_keeps {α : Type} {f : Instance → α} {change : Instance → Instance}
    (keeps : ∀ i, f (change i) = f i) :
    (s.update id change).instances.map f = s.instances.map f := by
  simp only [update, List.map_map]
  apply List.map_congr_left
  intro i _
  simp only [Function.comp]
  split
  · exact keeps i
  · rfl

theorem census_update_of_keeps {change : Instance → Instance}
    (keeps : ∀ i, (change i).id = i.id ∧ (change i).alive = i.alive) :
    (s.update id change).census = s.census :=
  map_update_of_keeps s id fun i => Prod.ext (keeps i).1 (keeps i).2

theorem census_update_of_kills {change : Instance → Instance}
    (kills : ∀ i, (change i).id = i.id ∧ (change i).alive = false) :
    (s.update id change).census = s.census.map (bury id) := by
  simp only [census, update, List.map_map]
  apply List.map_congr_left
  intro i _
  simp only [Function.comp, bury]
  split
  next same =>
    rw [(kills i).1, (kills i).2]
    simp [eq_of_beq same]
  next differs => simp [bne, Bool.eq_false_iff.mpr differs]

@[simp] theorem census_discard : s.discard.census = s.census := by
  unfold discard
  split
  · rfl
  · exact census_update_of_keeps s _ fun _ => ⟨rfl, rfl⟩

@[simp] theorem census_stopProcess : (s.stopProcess id).census = s.census.map (bury id) :=
  census_update_of_kills s id fun _ => ⟨rfl, rfl⟩

@[simp] theorem census_exitProcess (failure : ProcessFailure) :
    (s.exitProcess id failure).census = s.census.map (bury id) :=
  census_update_of_kills s id fun i =>
    ⟨i.process.exited_id failure, i.process.exited_running failure⟩

@[simp] theorem census_print (lines : List String) : (s.print id lines).census = s.census :=
  census_update_of_keeps s id fun _ => ⟨rfl, rfl⟩

@[simp] theorem census_keepResult : (s.keepResult id).census = s.census := by
  unfold keepResult
  split <;> rfl

@[simp] theorem census_announce : s.announce.census = s.census := rfl

@[simp] theorem census_halt : s.halt.census = s.census := rfl

@[simp] theorem generation_discard : s.discard.generation = s.generation := by
  unfold discard
  split <;> rfl

@[simp] theorem generation_keepResult : (s.keepResult id).generation = s.generation := by
  unfold keepResult
  split <;> rfl

@[simp] theorem generation_stopProcess : (s.stopProcess id).generation = s.generation := rfl

@[simp] theorem generation_halt : s.halt.generation = s.generation := rfl

@[simp] theorem phase_keepResult : (s.keepResult id).phase = s.phase := by
  unfold keepResult
  split <;> rfl

variable {s id}

theorem mem_census_of_alive {i : Instance} (member : i ∈ s.instances) (alive : i.alive = true) :
    (i.id, true) ∈ s.census :=
  List.mem_map.mpr ⟨i, member, by rw [alive]⟩

theorem length_alive_le_one (distinct : (s.census.map (·.1)).Nodup)
    (unique : ∀ id other, (id, true) ∈ s.census → (other, true) ∈ s.census → id = other) :
    (s.instances.filter (·.alive)).length ≤ 1 := by
  rw [census, List.map_map] at distinct
  apply length_le_one_of_map_eq (f := (·.id))
  · exact ((List.filter_sublist).map _).nodup distinct
  · intro i first j second
    rw [List.mem_filter] at first second
    exact unique i.id j.id (mem_census_of_alive first.1 first.2)
      (mem_census_of_alive second.1 second.2)

theorem currentInstance?_of_mem {i : Instance} (distinct : (s.census.map (·.1)).Nodup)
    (member : i ∈ s.instances) (inCharge : s.current = some i.id) :
    s.currentInstance? = some i := by
  rw [census, List.map_map] at distinct
  rw [currentInstance?, inCharge]
  exact find?_eq_some_of_nodup distinct member

theorem recordCrash_cases {recorded : Bool} {s' : Supervisor}
    (crash : s.recordCrash id = (recorded, s')) :
    s'.census = s.census ∧ s'.current = s.current ∧ s'.generation = s.generation ∧
      (recorded = true ∧ s.current = some id ∧ s'.phase = .crashed ∨
        recorded = false ∧ s' = s) := by
  unfold recordCrash at crash
  split at crash
  next inCharge =>
    split at crash
    next => cases crash; exact ⟨rfl, rfl, rfl, .inl ⟨rfl, inCharge, rfl⟩⟩
    next => cases crash; exact ⟨rfl, rfl, rfl, .inr ⟨rfl, rfl⟩⟩
  next => cases crash; exact ⟨rfl, rfl, rfl, .inr ⟨rfl, rfl⟩⟩

theorem arrive_launch_cases {p : ProcessSettings} {conditions : LaunchConditions}
    {config : RelayConfig} {result : Except Fault Unit} {s' : Supervisor}
    (arrived : s.arrive (RelayProcess.launch p conditions id config) = (result, s')) :
    s'.generation = s.generation ∧
      (result = .ok () ∧ s'.phase = .running ∧ s'.census = (id, true) :: s.census ∧
          s'.current = some id ∨
        ∃ f, result = .error f ∧ s'.phase = .crashed ∧ s'.census = s.census ∧
          s'.current = s.current) := by
  unfold arrive at arrived
  split at arrived
  next process launched =>
    obtain ⟨rfl, -, alive⟩ := RelayProcess.launch_id launched
    cases arrived
    refine ⟨rfl, .inl ⟨rfl, rfl, ?_, rfl⟩⟩
    rw [← alive]
    rfl
  next f failed =>
    cases arrived
    exact ⟨rfl, .inr ⟨f, rfl, rfl, rfl, rfl⟩⟩

end Supervisor

end RelayControl
