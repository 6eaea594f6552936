import RelayControl.Proofs.Stats.Growth

/-!
The order of collections without their counters. A timeline keeps of each snapshot which process
gave it and when, and of the baseline which snapshots went into it. What is counted twice, and when,
is decided by this order alone.
-/

namespace RelayControl

/-- Of a snapshot, the process that gave it and how many snapshots were given before. -/
structure Stamp where
  process : Nat
  moment : Nat
  deriving DecidableEq, Repr

inductive TimelineStage where
  | located (process : Nat)
  | received (process : Nat) (stamp : Stamp)
  deriving DecidableEq, Repr

inductive BaselineEvent where
  | begun (process : Nat)
  | persisted (stamp : Stamp)
  deriving DecidableEq, Repr

structure Timeline where
  process : Nat := 1
  heard : List Stamp := []
  calls : List (Nat × TimelineStage) := []
  history : List BaselineEvent := []
  deriving DecidableEq, Repr, Inhabited

namespace Timeline

def owner : List BaselineEvent → Option Nat
  | [] => none
  | .begun process :: _ => some process
  | .persisted _ :: earlier => owner earlier

def begin (process : Nat) (history : List BaselineEvent) : List BaselineEvent :=
  if owner history = some process then history else .begun process :: history

def setCall (t : Timeline) (call : Nat) (stage : TimelineStage) : Timeline :=
  { t with calls := (call, stage) :: t.calls.filter (·.1 != call) }

def dropCall (t : Timeline) (call : Nat) : Timeline :=
  { t with calls := t.calls.filter (·.1 != call) }

def now (t : Timeline) : Stamp := ⟨t.process, t.heard.length⟩

def step? (t : Timeline) : CollectAction → Option Timeline
  | .locate call =>
      match t.calls.lookup call with
      | none => some (t.setCall call (.located t.process))
      | some _ => none
  | .receive call =>
      match t.calls.lookup call with
      | some (.located process) =>
          some { t.setCall call (.received process t.now) with heard := t.now :: t.heard }
      | _ => none
  | .persist call fails =>
      match t.calls.lookup call with
      | some (.received process stamp) =>
          let begun := begin process t.history
          some { t.dropCall call with
            history := if fails then begun else .persisted stamp :: begun }
      | _ => none
  | .count _ => some t
  | .restart => some { t with process := t.process + 1 }

inductive Step (t : Timeline) : CollectAction → Timeline → Prop where
  | locate (call : Nat) : Step t (.locate call) (t.setCall call (.located t.process))
  | receive (call process : Nat) :
      Step t (.receive call) { t.setCall call (.received process t.now) with
        heard := t.now :: t.heard }
  | persist {call process : Nat} {stamp : Stamp}
      (waits : (call, .received process stamp) ∈ t.calls) (fails : Bool) :
      Step t (.persist call fails) { t.dropCall call with
        history := if fails then begin process t.history
          else .persisted stamp :: begin process t.history }
  | count (snapshot : Snapshot) : Step t (.count snapshot) t
  | restart : Step t .restart { t with process := t.process + 1 }

theorem step_of_step? {t t' : Timeline} {a : CollectAction} (stepped : t.step? a = some t') :
    t.Step a t' := by
  cases a with
  | locate call =>
      simp only [step?] at stepped
      split at stepped
      next => cases stepped; exact .locate call
      next => cases stepped
  | receive call =>
      simp only [step?] at stepped
      split at stepped
      next process _ => cases stepped; exact .receive call process
      next => cases stepped
  | persist call fails =>
      simp only [step?] at stepped
      split at stepped
      next found => cases stepped; exact .persist (mem_of_lookup_eq_some found) fails
      next => cases stepped
  | count snapshot => cases stepped; exact .count snapshot
  | restart => cases stepped; exact .restart

def run? (t : Timeline) : List CollectAction → Option Timeline
  | [] => some t
  | a :: rest => (t.step? a).bind (run? · rest)

def stamps : List BaselineEvent → List Stamp
  | [] => []
  | .begun _ :: earlier => stamps earlier
  | .persisted s :: earlier => s :: stamps earlier

def Known (s : Stamp) (earlier : List BaselineEvent) : Prop :=
  ∃ s' ∈ stamps earlier, s'.process = s.process

def Continues (s : Stamp) : List BaselineEvent → Prop
  | .persisted s' :: _ => s'.process = s.process ∧ s'.moment ≤ s.moment
  | _ => False

/-- Once a snapshot of a process was persisted, each further one of it continues the baseline. -/
def Ordered : List BaselineEvent → Prop
  | [] => True
  | .begun _ :: earlier => Ordered earlier
  | .persisted s :: earlier => Ordered earlier ∧ (Known s earlier → Continues s earlier)

instance (s : Stamp) (earlier : List BaselineEvent) : Decidable (Known s earlier) :=
  inferInstanceAs (Decidable (∃ s' ∈ stamps earlier, s'.process = s.process))

instance (s : Stamp) : (earlier : List BaselineEvent) → Decidable (Continues s earlier)
  | [] => .isFalse id
  | .begun _ :: _ => .isFalse id
  | .persisted s' :: _ =>
      inferInstanceAs (Decidable (s'.process = s.process ∧ s'.moment ≤ s.moment))

instance decidableOrdered : (history : List BaselineEvent) → Decidable (Ordered history)
  | [] => .isTrue trivial
  | .begun _ :: earlier => decidableOrdered earlier
  | .persisted s :: earlier =>
      have := decidableOrdered earlier
      inferInstanceAs (Decidable (Ordered earlier ∧ (Known s earlier → Continues s earlier)))

end Timeline

def InOrder (schedule : List CollectAction) : Prop :=
  ∀ t ∈ Timeline.run? {} schedule, Timeline.Ordered t.history

instance (schedule : List CollectAction) : Decidable (InOrder schedule) :=
  inferInstanceAs (Decidable (∀ t ∈ Timeline.run? {} schedule, Timeline.Ordered t.history))

namespace Timeline

/-! What is handed on along a history, for one counter in one direction. -/

def before (value : Stamp → Option Int) : List BaselineEvent → Option Int
  | .persisted s :: earlier => (value s).or (before value earlier)
  | _ => none

def gain (value : Stamp → Option Int) (s : Stamp) (earlier : List BaselineEvent) : Int :=
  ((value s).map (grown · (before value earlier))).getD 0

def tally (value : Stamp → Option Int) : List BaselineEvent → Int
  | [] => 0
  | .begun _ :: earlier => tally value earlier
  | .persisted s :: earlier => tally value earlier + gain value s earlier

def mark (value : Stamp → Option Int) (process : Nat) : List BaselineEvent → Int
  | [] => 0
  | .begun _ :: earlier => mark value process earlier
  | .persisted s :: earlier =>
      if s.process = process then (value s).getD 0 else mark value process earlier

def Rising (value : Stamp → Option Int) (history : List BaselineEvent) : Prop :=
  ∀ s ∈ stamps history, ∀ s' ∈ stamps history, s'.process = s.process → s'.moment ≤ s.moment →
    ∀ m, value s' = some m → ∃ n, value s = some n ∧ m ≤ n

def Nonneg (value : Stamp → Option Int) (history : List BaselineEvent) : Prop :=
  ∀ s ∈ stamps history, ∀ n, value s = some n → 0 ≤ n

variable {value : Stamp → Option Int} {s s' : Stamp} {history earlier : List BaselineEvent}

theorem Rising.tail (rising : Rising value (.persisted s :: earlier)) : Rising value earlier :=
  fun a ha b hb => rising a (List.mem_cons_of_mem s ha) b (List.mem_cons_of_mem s hb)

theorem Nonneg.tail (nonneg : Nonneg value (.persisted s :: earlier)) : Nonneg value earlier :=
  fun s' member => nonneg s' (List.mem_cons_of_mem s member)

theorem before_nonneg (nonneg : Nonneg value history) {n : Int}
    (found : before value history = some n) : 0 ≤ n := by
  induction history with
  | nil => cases found
  | cons event earlier ih =>
      cases event with
      | begun => cases found
      | persisted s =>
          rcases Option.or_eq_some_iff.mp found with own | ⟨-, older⟩
          · exact nonneg s List.mem_cons_self n own
          · exact ih nonneg.tail older

theorem gain_nonneg (nonneg : Nonneg value (.persisted s :: earlier)) :
    0 ≤ gain value s earlier := by
  unfold gain
  cases now : value s with
  | none => exact Int.le_refl 0
  | some n =>
      have nowNonneg := nonneg s List.mem_cons_self n now
      cases before value earlier with
      | none => exact nowNonneg
      | some m =>
          simp only [Option.map_some, Option.getD_some, grown]
          split <;> omega

theorem gain_le (nonneg : Nonneg value earlier) (s : Stamp) :
    gain value s earlier ≤ (value s).getD 0 := by
  unfold gain
  cases value s with
  | none => exact Int.le_refl 0
  | some n =>
      cases older : before value earlier with
      | none => exact Int.le_refl n
      | some m =>
          have olderNonneg := before_nonneg nonneg older
          simp only [Option.map_some, Option.getD_some, grown]
          split <;> omega

theorem gain_continued_le (nonneg : Nonneg value (.persisted s' :: earlier))
    (rises : ∀ m, value s' = some m → ∃ n, value s = some n ∧ m ≤ n) :
    gain value s (.persisted s' :: earlier) ≤ (value s).getD 0 - (value s').getD 0 := by
  cases older : value s' with
  | none => simpa using gain_le nonneg s
  | some m =>
      obtain ⟨n, now, le⟩ := rises m older
      simp [gain, before, now, older, grown, le]

theorem tally_le_persisted (nonneg : Nonneg value (.persisted s :: earlier)) :
    tally value earlier ≤ tally value (.persisted s :: earlier) := by
  have added := gain_nonneg nonneg
  simp only [tally]
  omega

theorem tally_nonneg (nonneg : Nonneg value history) : 0 ≤ tally value history := by
  induction history with
  | nil => exact Int.le_refl 0
  | cons event earlier ih =>
      cases event with
      | begun => exact ih nonneg
      | persisted s => exact Int.le_trans (ih nonneg.tail) (tally_le_persisted nonneg)

theorem before_le_tally (nonneg : Nonneg value history) {n : Int}
    (found : before value history = some n) : n ≤ tally value history := by
  induction history generalizing n with
  | nil => cases found
  | cons event earlier ih =>
      cases event with
      | begun => cases found
      | persisted s =>
          simp only [before, Option.or_eq_some_iff] at found
          simp only [tally, gain]
          rcases found with own | ⟨absent, older⟩
          · cases beneath : before value earlier with
            | none =>
                have tallyNonneg := tally_nonneg nonneg.tail
                simp only [own, Option.map_some, Option.getD_some, grown]
                omega
            | some m =>
                have covered := ih nonneg.tail beneath
                have beneathNonneg := before_nonneg nonneg.tail beneath
                simp only [own, Option.map_some, Option.getD_some, grown]
                split <;> omega
          · simpa [absent] using ih nonneg.tail older

theorem value_le_tally (nonneg : Nonneg value history) {n : Int}
    (member : s ∈ stamps history) (found : value s = some n) : n ≤ tally value history := by
  induction history with
  | nil => cases member
  | cons event earlier ih =>
      cases event with
      | begun => exact ih nonneg member
      | persisted last =>
          rcases List.mem_cons.mp member with rfl | member
          · apply before_le_tally nonneg
            simp [before, found]
          · exact Int.le_trans (ih nonneg.tail member) (tally_le_persisted nonneg)

/-! In order, the marks of the processes cover what was handed on. -/

theorem mark_of_unknown (unknown : ¬ Known s earlier) : mark value s.process earlier = 0 := by
  induction earlier with
  | nil => rfl
  | cons event earlier ih =>
      cases event with
      | begun => exact ih unknown
      | persisted s' =>
          have differs : s'.process ≠ s.process := fun same =>
            unknown ⟨s', List.mem_cons_self, same⟩
          have beneath : ¬ Known s earlier := fun ⟨other, member, same⟩ =>
            unknown ⟨other, List.mem_cons_of_mem s' member, same⟩
          simp [mark, differs, ih beneath]

theorem gain_le_of_continues (nonneg : Nonneg value earlier)
    (rising : Rising value (.persisted s :: earlier))
    (continued : Known s earlier → Continues s earlier) :
    gain value s earlier ≤ (value s).getD 0 - mark value s.process earlier := by
  by_cases known : Known s earlier
  · match earlier, continued known with
    | .persisted s' :: rest, ⟨sameProcess, older⟩ =>
        have rises := rising s (by simp [stamps]) s' (by simp [stamps]) sameProcess older
        have markIs : mark value s.process (.persisted s' :: rest) = (value s').getD 0 := by
          simp [mark, sameProcess]
        rw [markIs]
        exact gain_continued_le nonneg rises
  · rw [mark_of_unknown known, Int.sub_zero]
    exact gain_le nonneg s

theorem tally_le_sum_marks {processes : List Nat} (distinct : processes.Nodup)
    (listed : ∀ s ∈ stamps history, s.process ∈ processes) (nonneg : Nonneg value history)
    (rising : Rising value history) (ordered : Ordered history) :
    tally value history ≤ (processes.map (mark value · history)).sum := by
  induction history with
  | nil => simp [tally, mark]
  | cons event earlier ih =>
      cases event with
      | begun => exact ih listed nonneg rising ordered
      | persisted s =>
          have covered := ih (fun s' member => listed s' (List.mem_cons_of_mem s member))
            nonneg.tail rising.tail ordered.1
          have added := gain_le_of_continues nonneg.tail rising ordered.2
          -- Only the mark of the process that gave the snapshot moves.
          have moved := sum_map_eq_add_sub (f := (mark value · (.persisted s :: earlier)))
            (g := (mark value · earlier)) distinct (listed s List.mem_cons_self)
            fun process _ other => by simp [mark, Ne.symm other]
          have own : mark value s.process (.persisted s :: earlier) = (value s).getD 0 := by
            simp [mark]
          rw [moved, own]
          simp only [tally]
          omega

end Timeline

/-! Out of order, some course of the counters has more handed on than was counted. -/

/-- A counter that only one process has, with its level at each moment. -/
structure Course where
  process : Nat
  level : Nat → Int
  top : Int
  nonneg : ∀ moment, 0 ≤ level moment
  rising : ∀ {moment later}, moment ≤ later → level moment ≤ level later
  bounded : ∀ moment, level moment ≤ top

namespace Course

def value (course : Course) (s : Stamp) : Int :=
  if s.process = course.process then course.level s.moment else 0

theorem value_nonneg (course : Course) (s : Stamp) : 0 ≤ course.value s := by
  unfold value
  split
  · exact course.nonneg s.moment
  · exact Int.le_refl 0

def steady (process : Nat) : Course where
  process := process
  level _ := 1
  top := 1
  nonneg _ := by omega
  rising _ := Int.le_refl 1
  bounded _ := Int.le_refl 1

/-- One byte up to a moment, and a second one after it. -/
def stepping (process moment : Nat) : Course where
  process := process
  level m := if m ≤ moment then 1 else 2
  top := 2
  nonneg m := by split <;> omega
  rising le := by split <;> split <;> omega
  bounded m := by split <;> omega

end Course

namespace Timeline

def courseTally (course : Course) (history : List BaselineEvent) : Int :=
  tally (fun s => some (course.value s)) history

theorem nonneg_course (course : Course) (history : List BaselineEvent) :
    Nonneg (fun s => some (course.value s)) history :=
  fun s _ _ said => Option.some.inj said ▸ course.value_nonneg s

theorem courseTally_le_persisted (course : Course) (s : Stamp) (earlier : List BaselineEvent) :
    courseTally course earlier ≤ courseTally course (.persisted s :: earlier) :=
  tally_le_persisted (nonneg_course course _)

theorem value_le_courseTally (course : Course) {s : Stamp} {history : List BaselineEvent}
    (member : s ∈ stamps history) : course.value s ≤ courseTally course history :=
  value_le_tally (nonneg_course course history) member rfl

theorem courseTally_persisted (course : Course) (s : Stamp) (earlier : List BaselineEvent) :
    courseTally course (.persisted s :: earlier) = courseTally course earlier +
      grown (course.value s) (before (fun s => some (course.value s)) earlier) := rfl

theorem lt_courseTally_steady {s : Stamp} {earlier : List BaselineEvent} (known : Known s earlier)
    (lost : ∀ n ∈ before (fun s' => some ((Course.steady s.process).value s')) earlier, n = 0) :
    (Course.steady s.process).top < courseTally (.steady s.process) (.persisted s :: earlier) := by
  obtain ⟨s', member, sameProcess⟩ := known
  have covered := value_le_courseTally (.steady s.process) member
  have valueThen : (Course.steady s.process).value s' = 1 := by
    simp [Course.value, Course.steady, sameProcess]
  have valueNow : (Course.steady s.process).value s = 1 := by
    simp [Course.value, Course.steady]
  have again : grown 1 (before (fun s' => some ((Course.steady s.process).value s')) earlier) = 1 := by
    cases held : before (fun s' => some ((Course.steady s.process).value s')) earlier with
    | none => rfl
    | some n =>
        rw [lost n held]
        rfl
  rw [courseTally_persisted, valueNow, again]
  rw [valueThen] at covered
  change 1 < _
  omega

theorem lt_courseTally_of_not_continues {s : Stamp} {earlier : List BaselineEvent}
    (known : Known s earlier) (broken : ¬ Continues s earlier) :
    ∃ course : Course, course.top < courseTally course (.persisted s :: earlier) := by
  match earlier with
  | [] => exact ⟨.steady s.process, lt_courseTally_steady known (by simp [before])⟩
  | .begun _ :: _ => exact ⟨.steady s.process, lt_courseTally_steady known (by simp [before])⟩
  | .persisted last :: rest =>
      by_cases same : last.process = s.process
      · -- An older snapshot: the counter seems to have started anew.
        have newer : ¬ last.moment ≤ s.moment := fun older => broken ⟨same, older⟩
        refine ⟨.stepping s.process s.moment, ?_⟩
        have valueThen : (Course.stepping s.process s.moment).value last = 2 := by
          simp [Course.value, Course.stepping, same, newer]
        have valueNow : (Course.stepping s.process s.moment).value s = 1 := by
          simp [Course.value, Course.stepping]
        have member : last ∈ stamps (.persisted last :: rest) := List.mem_cons_self
        have covered := value_le_courseTally (.stepping s.process s.moment) member
        have again : grown 1 (before
            (fun s' => some ((Course.stepping s.process s.moment).value s'))
            (.persisted last :: rest)) = 1 := by
          simp [before, valueThen, grown]
        rw [courseTally_persisted, valueNow, again]
        rw [valueThen] at covered
        change 2 < _
        omega
      · exact ⟨.steady s.process, lt_courseTally_steady known
          (by simp [before, Course.value, Course.steady, same])⟩

theorem exists_course_lt_tally {history : List BaselineEvent} (disordered : ¬ Ordered history) :
    ∃ course : Course, course.top < courseTally course history := by
  induction history with
  | nil => exact absurd trivial disordered
  | cons event earlier ih =>
      cases event with
      | begun => exact ih disordered
      | persisted s =>
          by_cases ordered : Ordered earlier
          · have broken : ¬ (Known s earlier → Continues s earlier) := fun continued =>
              disordered ⟨ordered, continued⟩
            rw [Classical.not_imp] at broken
            exact lt_courseTally_of_not_continues broken.1 broken.2
          · obtain ⟨course, exceeded⟩ := ih ordered
            exact ⟨course, Int.lt_of_lt_of_le exceeded (courseTally_le_persisted course s earlier)⟩

end Timeline

end RelayControl
