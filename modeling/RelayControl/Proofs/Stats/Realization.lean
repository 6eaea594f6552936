import RelayControl.Proofs.Stats.Counting

/-!
Counters that take a given course. Whatever the order of the collections, the processes can count so
that every snapshot shows what the course says for its moment.
-/

namespace RelayControl

def CollectAction.isMove : CollectAction → Bool
  | .count _ => false
  | _ => true

def moves (actions : List CollectAction) : List CollectAction :=
  actions.filter (·.isMove)

theorem Collecting.run?_append (c : Collecting) (first second : List CollectAction) :
    c.run? (first ++ second) = (c.run? first).bind (·.run? second) := by
  induction first generalizing c with
  | nil => rfl
  | cons a rest ih =>
      rw [List.cons_append, run?, run?]
      cases c.step? a with
      | none => rfl
      | some next => exact ih next

theorem Timeline.run?_moves (t : Timeline) (actions : List CollectAction) :
    t.run? (moves actions) = t.run? actions := by
  induction actions generalizing t with
  | nil => rfl
  | cons a rest ih =>
      cases a with
      | count snapshot => exact ih t
      | locate call | receive call | persist call fails | restart =>
          exact congrArg ((t.step? _).bind ·) (funext ih)

namespace Course

def key : CounterKey := (.inbound, "relay")

def snapshot (course : Course) (s : Stamp) : Snapshot :=
  { inbounds := [("relay", ⟨course.value s, 0⟩)] }

variable (course : Course)

theorem reading?_snapshot (s : Stamp) :
    (course.snapshot s).reading? key = some ⟨course.value s, 0⟩ := by
  simp [Snapshot.reading?, Snapshot.readings, snapshot, key]

theorem said_snapshot : Timeline.said course.snapshot key .up = fun s => some (course.value s) := by
  funext s
  rw [Timeline.said, reading?_snapshot]
  rfl

theorem sound_snapshot (s : Stamp) : (course.snapshot s).sound = true := by
  simp [Snapshot.sound, Baseline.keyed, snapshot, course.value_nonneg]

theorem default_grownTo (s : Snapshot) : Snapshot.grownTo {} s = true := rfl

theorem value_le {process moment later : Nat} (le : moment ≤ later) :
    course.value ⟨process, moment⟩ ≤ course.value ⟨process, later⟩ := by
  unfold value
  split
  · exact course.rising le
  · exact Int.le_refl 0

theorem value_le_top (s : Stamp) :
    course.value s ≤ if s.process = course.process then course.top else 0 := by
  unfold value
  split
  · exact course.bounded s.moment
  · exact Int.le_refl 0

theorem snapshot_grownTo {process moment later : Nat} (le : moment ≤ later) :
    (course.snapshot ⟨process, moment⟩).grownTo (course.snapshot ⟨process, later⟩) = true := by
  simp [Snapshot.grownTo, Baseline.keyed, Snapshot.reading, snapshot, course.value_le le]

end Course

structure Realizes (course : Course) (counted : List (Nat × Snapshot)) (t : Timeline) : Prop where
  numbered : Numbered t.process counted
  ready : ∃ latest older, counted = (t.process, latest) :: older ∧
    (latest = {} ∨ ∃ moment ≤ t.heard.length, latest = course.snapshot ⟨t.process, moment⟩)
  bounded : ∀ entry ∈ counted, (entry.2.reading Course.key).up ≤
    if entry.1 = course.process then course.top else 0

namespace Realizes

variable {course : Course} {counted : List (Nat × Snapshot)} {t t' : Timeline}

theorem start (course : Course) : Realizes course [(1, {})] {} where
  numbered := (Accounted.start course.snapshot).numbered
  ready := ⟨{}, [], rfl, .inl rfl⟩
  bounded := by
    intro entry member
    obtain rfl := List.mem_singleton.mp member
    split
    · exact Int.le_trans (course.nonneg 0) (course.bounded 0)
    · exact Int.le_refl 0

theorem restart (realizes : Realizes course counted t) :
    Realizes course ((t.process + 1, {}) :: counted) { t with process := t.process + 1 } where
  numbered := realizes.numbered.restart
  ready := ⟨{}, counted, rfl, .inl rfl⟩
  bounded := by
    intro entry member
    rcases List.mem_cons.mp member with rfl | member
    · split
      · exact Int.le_trans (course.nonneg 0) (course.bounded 0)
      · exact Int.le_refl 0
    · exact realizes.bounded entry member

theorem count (realizes : Realizes course counted t) :
    ∃ counted', (t.image course.snapshot counted).step? (.count (course.snapshot t.now)) =
        some (t.image course.snapshot counted') ∧
      counted'.lookup t.process = some (course.snapshot t.now) ∧
      Realizes course counted' t := by
  obtain ⟨latest, older, rfl, progress⟩ := realizes.ready
  have grows : latest.grownTo (course.snapshot t.now) = true := by
    rcases progress with rfl | ⟨moment, le, rfl⟩
    · exact Course.default_grownTo _
    · exact course.snapshot_grownTo le
  refine ⟨(t.process, course.snapshot t.now) :: older, ?_, List.lookup_cons_self, ?_⟩
  · simp [Collecting.step?, Timeline.image, grows, course.sound_snapshot]
  · exact {
      numbered := realizes.numbered.count
      ready := ⟨_, older, rfl, .inr ⟨t.heard.length, Nat.le_refl _, rfl⟩⟩
      bounded := by
        intro entry member
        rcases List.mem_cons.mp member with rfl | member
        · rw [Snapshot.reading_eq_getD, Course.reading?_snapshot, Option.getD_some]
          exact course.value_le_top t.now
        · exact realizes.bounded entry (List.mem_cons_of_mem _ member) }

theorem later (realizes : Realizes course counted t) (sameProcess : t'.process = t.process)
    (heard : t.heard.length ≤ t'.heard.length) : Realizes course counted t' where
  numbered := sameProcess ▸ realizes.numbered
  ready := by
    obtain ⟨latest, older, equal, progress⟩ := realizes.ready
    refine ⟨latest, older, by rw [sameProcess]; exact equal, ?_⟩
    rcases progress with fresh | ⟨moment, le, shown⟩
    · exact .inl fresh
    · exact .inr ⟨moment, Nat.le_trans le heard, by rw [sameProcess]; exact shown⟩
  bounded := realizes.bounded

theorem step {a : CollectAction} (realizes : Realizes course counted t)
    (stepped : t.step? a = some t') :
    ∃ actions counted', moves actions = moves [a] ∧
      (t.image course.snapshot counted).run? actions =
        some (t'.image course.snapshot counted') ∧ Realizes course counted' t' := by
  have alone : (∀ call, a ≠ .receive call) → (∀ snapshot, a ≠ .count snapshot) →
      (t.image course.snapshot counted).run? [a] =
        some (t'.image course.snapshot (t.recounted counted a)) := by
    intro unasked quiet
    have answers : ∀ call, a = .receive call →
        counted.lookup t.process = some (course.snapshot t.now) := fun call equal =>
      absurd equal (unasked call)
    rw [Collecting.run?, Timeline.image_step? quiet answers, stepped]
    rfl
  cases Timeline.step_of_step? stepped with
  | locate call =>
      exact ⟨[.locate call], counted, rfl, alone (by simp) (by simp),
        realizes.later rfl (Nat.le_refl _)⟩
  | receive call process =>
      -- Just before it is asked, the process counts on to where the course has it.
      obtain ⟨counted', counting, answer, realizes'⟩ := realizes.count
      refine ⟨[.count (course.snapshot t.now), .receive call], counted', rfl, ?_,
        realizes'.later rfl (Nat.le_succ _)⟩
      rw [Collecting.run?, counting, Option.bind_some, Collecting.run?,
        Timeline.image_step? (by simp) (fun _ _ => answer), stepped]
      rfl
  | persist waits fails =>
      exact ⟨[.persist _ fails], counted, rfl, alone (by simp) (by simp),
        realizes.later rfl (Nat.le_refl _)⟩
  | count snapshot => exact ⟨[], counted, rfl, rfl, realizes⟩
  | restart => exact ⟨[.restart], _, rfl, alone (by simp) (by simp), realizes.restart⟩

theorem run {schedule : List CollectAction} (realizes : Realizes course counted t)
    (ran : t.run? schedule = some t') :
    ∃ actions counted', moves actions = moves schedule ∧
      (t.image course.snapshot counted).run? actions =
        some (t'.image course.snapshot counted') ∧ Realizes course counted' t' := by
  induction schedule generalizing t counted with
  | nil =>
      cases ran
      exact ⟨[], counted, rfl, rfl, realizes⟩
  | cons a rest ih =>
      obtain ⟨next, stepped, ran⟩ := Option.bind_eq_some_iff.mp ran
      obtain ⟨first, middle, firstMoves, firstRan, realizesNext⟩ := realizes.step stepped
      obtain ⟨second, final, secondMoves, secondRan, realizesFinal⟩ := ih realizesNext ran
      refine ⟨first ++ second, final, ?_, ?_, realizesFinal⟩
      · rw [moves, List.filter_append, ← moves, ← moves, firstMoves, secondMoves]
        exact (List.filter_append [a] rest).symm
      · rw [Collecting.run?_append, firstRan]
        exact secondRan

end Realizes

end RelayControl
