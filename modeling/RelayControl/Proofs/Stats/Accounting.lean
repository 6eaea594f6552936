import Mathlib.Algebra.Order.BigOperators.Group.List
import RelayControl.Proofs.Stats.Realization

/-!
What is persisted against what was counted. Collections that overlap can persist a snapshot after a
newer one, or after one of another process; the counters then seem to have started anew, and what
they had is handed on again. Where that cannot happen nothing is handed on twice.
-/

namespace RelayControl

open Timeline

theorem along_foldl (f : α → Reading) (items : List α) (sum : Reading) (d : Direction) :
    (items.foldl (fun sum a => ⟨sum.up + (f a).up, sum.down + (f a).down⟩) sum).along d =
      sum.along d + (items.map fun a => (f a).along d).sum := by
  induction items generalizing sum with
  | nil => simp
  | cons a rest ih =>
      rw [List.foldl_cons, ih, List.map_cons, List.sum_cons, ← Int.add_assoc]
      cases d <;> rfl

namespace Collecting

theorem along_total (c : Collecting) (key : CounterKey) (d : Direction) :
    (c.total key).along d = (c.persisted.map fun g => (g.of key).along d).sum := by
  rw [total, along_foldl (fun g : Growth => g.of key), Reading.along_default, Int.zero_add]

theorem along_counts (c : Collecting) (key : CounterKey) (d : Direction) :
    (c.counts key).along d = (c.counted.map fun entry => (entry.2.reading key).along d).sum := by
  rw [counts, along_foldl (fun entry : Nat × Snapshot => entry.2.reading key),
    Reading.along_default, Int.zero_add]

/-- No more was persisted for a counter than the processes counted. -/
def Covered (c : Collecting) : Prop :=
  ∀ key d, (c.total key).along d ≤ (c.counts key).along d

end Collecting

namespace Accounted

variable {taken : Stamp → Snapshot} {counted : List (Nat × Snapshot)} {t : Timeline}

theorem nonneg (accounted : Accounted taken counted t) (key : CounterKey) (d : Direction) :
    Nonneg (said taken key d) t.history := by
  intro s member n found
  obtain ⟨wellFormed, -⟩ := accounted.counted s (accounted.persisted s member)
  obtain ⟨r, mentioned, rfl⟩ := Option.map_eq_some_iff.mp found
  exact Snapshot.nonneg_of_reading? wellFormed mentioned d

theorem rising_said (accounted : Accounted taken counted t) (key : CounterKey) (d : Direction) :
    Rising (said taken key d) t.history := by
  intro s member s' member' sameProcess older m found
  have below := accounted.rising s (accounted.persisted s member) s'
    (accounted.persisted s' member') sameProcess older
  obtain ⟨r, mentioned, rfl⟩ := Option.map_eq_some_iff.mp found
  obtain ⟨r', mentionedNow, le⟩ := below key r mentioned
  exact ⟨r'.along d, by simp [said, mentionedNow], le d⟩

theorem mark_le (accounted : Accounted taken counted t) (key : CounterKey) (d : Direction)
    {entry : Nat × Snapshot} (member : entry ∈ counted) :
    mark (said taken key d) entry.1 t.history ≤ (entry.2.reading key).along d := by
  have wellFormed := accounted.sound entry member
  have persisted := accounted.persisted
  generalize t.history = history at persisted ⊢
  induction history with
  | nil => exact Snapshot.nonneg_of_sound wellFormed key d
  | cons event earlier ih =>
      cases event with
      | begun => exact ih persisted
      | persisted s =>
          rw [mark]
          split
          next sameProcess =>
            obtain ⟨-, latest, inside, below⟩ :=
              accounted.counted s (persisted s List.mem_cons_self)
            rw [sameProcess] at inside
            have same : latest = entry.2 := accounted.numbered.latest_unique inside member
            rw [same] at below
            exact below.getD_le wellFormed key d
          next => exact ih fun s' inside => persisted s' (List.mem_cons_of_mem s inside)

theorem covered (accounted : Accounted taken counted t) (ordered : Ordered t.history) :
    (t.image taken counted).Covered := by
  intro key d
  have listed : ∀ s ∈ stamps t.history, s.process ∈ counted.map (·.1) := by
    intro s member
    obtain ⟨-, latest, inside, -⟩ := accounted.counted s (accounted.persisted s member)
    exact List.mem_map.mpr ⟨_, inside, rfl⟩
  have wellFormed : ∀ s ∈ stamps t.history, (taken s).sound = true := fun s member =>
    (accounted.counted s (accounted.persisted s member)).1
  calc ((t.image taken counted).total key).along d
      = tally (said taken key d) t.history := by
        rw [Collecting.along_total]
        exact tally_said key d wellFormed
    _ ≤ ((counted.map (·.1)).map (mark (said taken key d) · t.history)).sum :=
        tally_le_sum_marks accounted.numbered.distinct listed (accounted.nonneg key d)
          (accounted.rising_said key d) ordered
    _ = (counted.map fun entry => mark (said taken key d) entry.1 t.history).sum := by
        rw [List.map_map]
        rfl
    _ ≤ (counted.map fun entry => (entry.2.reading key).along d).sum :=
        List.sum_le_sum fun entry member => accounted.mark_le key d member
    _ = ((t.image taken counted).counts key).along d := (Collecting.along_counts (t.image taken counted) key d).symm

end Accounted

namespace Realizes

variable {course : Course} {counted : List (Nat × Snapshot)} {t : Timeline}

theorem counts_le_top (realizes : Realizes course counted t) :
    ((t.image course.snapshot counted).counts Course.key).along .up ≤ course.top := by
  have topNonneg : 0 ≤ course.top := Int.le_trans (course.nonneg 0) (course.bounded 0)
  calc ((t.image course.snapshot counted).counts Course.key).along .up
      = (counted.map fun entry => (entry.2.reading Course.key).up).sum :=
        Collecting.along_counts (t.image course.snapshot counted) Course.key .up
    _ ≤ (counted.map fun entry => if entry.1 = course.process then course.top else 0).sum :=
        List.sum_le_sum realizes.bounded
    _ = ((counted.map (·.1)).map fun process =>
          if process = course.process then course.top else 0).sum := by
        rw [List.map_map]
        rfl
    _ ≤ course.top := sum_map_ite_le realizes.numbered.distinct topNonneg

theorem total_eq_courseTally :
    ((t.image course.snapshot counted).total Course.key).along .up =
      courseTally course t.history := by
  rw [Collecting.along_total, courseTally, ← course.said_snapshot]
  exact tally_said Course.key .up fun s _ => course.sound_snapshot s

end Realizes

theorem exists_run_not_covered {schedule : List CollectAction} {t : Timeline}
    (ran : Timeline.run? {} schedule = some t) (disordered : ¬ Ordered t.history) :
    ∃ actions c, moves actions = moves schedule ∧ Collecting.run? {} actions = some c ∧
      ¬ c.Covered := by
  obtain ⟨course, exceeded⟩ := exists_course_lt_tally disordered
  obtain ⟨actions, counted, sameMoves, actionsRan, realizes⟩ := (Realizes.start course).run ran
  refine ⟨actions, t.image course.snapshot counted, sameMoves, actionsRan, ?_⟩
  intro covered
  have bound := covered Course.key .up
  rw [Realizes.total_eq_courseTally] at bound
  exact absurd (Int.le_trans bound realizes.counts_le_top) (Int.not_le.mpr exceeded)

/--
A schedule of collections and restarts never hands traffic on twice, whatever the processes count in
between, exactly if every snapshot it persists continues the baseline of its process.
-/
theorem covered_iff_inOrder {schedule : List CollectAction}
    (possible : (Collecting.run? {} schedule).isSome) :
    (∀ actions c, moves actions = moves schedule → Collecting.run? {} actions = some c →
      c.Covered) ↔ InOrder schedule := by
  obtain ⟨c, ran⟩ := Option.isSome_iff_exists.mp possible
  obtain ⟨-, -, t, timelineRan, -, -⟩ := exists_accounted_of_run? ran
  have inOrder_iff : InOrder schedule ↔ Ordered t.history := by
    simp [InOrder, timelineRan]
  rw [inOrder_iff]
  constructor
  · intro covered
    by_contra disordered
    obtain ⟨actions, c', sameMoves, actionsRan, notCovered⟩ :=
      exists_run_not_covered timelineRan disordered
    exact notCovered (covered actions c' sameMoves actionsRan)
  · intro ordered actions c' sameMoves actionsRan
    obtain ⟨taken, counted, t', timelineRan', rfl, accounted⟩ := exists_accounted_of_run? actionsRan
    rw [← Timeline.run?_moves, sameMoves, Timeline.run?_moves, timelineRan] at timelineRan'
    cases timelineRan'
    exact accounted.covered ordered

def inTurn : List CollectAction :=
  [.locate 1, .receive 1, .persist 1 false, .locate 2, .receive 2, .persist 2 false]

theorem covered_iff_inOrder_inTurn :
    (Collecting.run? {} inTurn).isSome ∧
      ∀ actions c, moves actions = moves inTurn → Collecting.run? {} actions = some c →
        c.Covered :=
  ⟨by decide, (covered_iff_inOrder (by decide)).mpr (by decide)⟩

def overtaken : List CollectAction :=
  [.locate 1, .locate 2, .count { outbounds := [("direct", ⟨10, 0⟩)] }, .receive 1,
    .count { outbounds := [("direct", ⟨20, 0⟩)] }, .receive 2, .persist 2 false, .persist 1 false]

theorem overtaken_not_covered :
    ∃ c, Collecting.run? {} overtaken = some c ∧
      c.total (.outbound, "direct") = ⟨30, 0⟩ ∧ c.counts (.outbound, "direct") = ⟨20, 0⟩ ∧
      ¬ c.Covered := by
  refine ⟨_, rfl, rfl, rfl, ?_⟩
  intro covered
  exact absurd (covered (.outbound, "direct") .up) (by decide)

end RelayControl
