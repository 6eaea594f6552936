import RelayControl.Proofs.Stats.Simulation

/-!
What holds between the snapshots that were given and the counters of the processes, at every point of
a run: a snapshot is never ahead of its process, and the snapshots of one process grow with time.
-/

namespace RelayControl

namespace Snapshot

def Below (s t : Snapshot) : Prop :=
  ∀ key r, s.reading? key = some r → ∃ r', t.reading? key = some r' ∧ ∀ d, r.along d ≤ r'.along d

theorem Below.refl (s : Snapshot) : s.Below s :=
  fun _ r said => ⟨r, said, fun _ => Int.le_refl _⟩

theorem Below.trans {s t u : Snapshot} (first : s.Below t) (second : t.Below u) : s.Below u := by
  intro key r said
  obtain ⟨r', saidThen, le⟩ := first key r said
  obtain ⟨r'', saidNow, le'⟩ := second key r' saidThen
  exact ⟨r'', saidNow, fun d => Int.le_trans (le d) (le' d)⟩

theorem below_of_grownTo {s t : Snapshot} (grows : s.grownTo t = true) : s.Below t := by
  intro key r said
  rw [← Baseline.lookup_keyed] at said
  have entry := List.all_eq_true.mp grows (key, r) (mem_of_lookup_eq_some said)
  simp only [Bool.and_eq_true, Baseline.any_keyed, decide_eq_true_eq] at entry
  obtain ⟨r', saidNow⟩ := Option.isSome_iff_exists.mp entry.1.1
  rw [reading_eq_getD, saidNow, Option.getD_some] at entry
  refine ⟨r', saidNow, fun d => ?_⟩
  cases d with
  | up => exact entry.1.2
  | down => exact entry.2

theorem Below.getD_le {s t : Snapshot} (below : s.Below t) (wellFormed : t.sound = true)
    (key : CounterKey) (d : Direction) :
    ((s.reading? key).map (·.along d)).getD 0 ≤ (t.reading key).along d := by
  cases said : s.reading? key with
  | none => exact nonneg_of_sound wellFormed key d
  | some r =>
      obtain ⟨r', saidNow, le⟩ := below key r said
      rw [reading_eq_getD, saidNow]
      exact le d

end Snapshot

structure Numbered (process : Nat) (counted : List (Nat × Snapshot)) : Prop where
  distinct : (counted.map (·.1)).Nodup
  running : ∃ latest older, counted = (process, latest) :: older
  bounded : ∀ entry ∈ counted, entry.1 ≤ process

namespace Numbered

theorem restart {process : Nat} {counted : List (Nat × Snapshot)}
    (numbered : Numbered process counted) :
    Numbered (process + 1) ((process + 1, {}) :: counted) where
  distinct := by
    rw [List.map_cons, List.nodup_cons]
    refine ⟨?_, numbered.distinct⟩
    intro member
    obtain ⟨entry, inside, same⟩ := List.mem_map.mp member
    have bound := numbered.bounded entry inside
    omega
  running := ⟨{}, counted, rfl⟩
  bounded := by
    intro entry member
    rcases List.mem_cons.mp member with rfl | member
    · exact Nat.le_refl _
    · exact Nat.le_succ_of_le (numbered.bounded entry member)

theorem count {process : Nat} {before snapshot : Snapshot} {older : List (Nat × Snapshot)}
    (numbered : Numbered process ((process, before) :: older)) :
    Numbered process ((process, snapshot) :: older) where
  distinct := by simpa using numbered.distinct
  running := ⟨snapshot, older, rfl⟩
  bounded := by simpa using numbered.bounded

theorem latest_unique {process p : Nat} {counted : List (Nat × Snapshot)} {s t : Snapshot}
    (numbered : Numbered process counted) (first : (p, s) ∈ counted) (second : (p, t) ∈ counted) :
    s = t := by
  rw [← lookup_eq_some_iff_mem numbered.distinct] at first second
  exact Option.some.inj (first.symm.trans second)

end Numbered

structure Accounted (taken : Stamp → Snapshot) (counted : List (Nat × Snapshot)) (t : Timeline) :
    Prop where
  numbered : Numbered t.process counted
  sound : ∀ entry ∈ counted, entry.2.sound = true
  waiting : ∀ call process s, (call, .received process s) ∈ t.calls → s ∈ t.heard
  persisted : ∀ s ∈ Timeline.stamps t.history, s ∈ t.heard
  past : ∀ s ∈ t.heard, s.moment < t.heard.length
  counted : ∀ s ∈ t.heard, (taken s).sound = true ∧
    ∃ latest, (s.process, latest) ∈ counted ∧ (taken s).Below latest
  rising : ∀ s ∈ t.heard, ∀ s' ∈ t.heard, s'.process = s.process → s'.moment ≤ s.moment →
    (taken s').Below (taken s)

namespace Accounted

variable {taken : Stamp → Snapshot} {counted : List (Nat × Snapshot)} {t t' : Timeline}

theorem start (taken : Stamp → Snapshot) : Accounted taken [(1, {})] {} where
  numbered := ⟨by simp, ⟨{}, [], rfl⟩, by simp⟩
  sound := by simp; rfl
  waiting := by simp
  persisted := by simp [Timeline.stamps]
  past := by simp
  counted := by simp
  rising := by simp

theorem persist (accounted : Accounted taken counted t) {call process : Nat} {stamp : Stamp}
    (waits : (call, .received process stamp) ∈ t.calls) (fails : Bool) :
    Accounted taken counted { t.dropCall call with
      history := if fails then Timeline.begin process t.history
        else .persisted stamp :: Timeline.begin process t.history } where
  numbered := accounted.numbered
  sound := accounted.sound
  waiting other process' s member :=
    accounted.waiting other process' s (List.mem_filter.mp member).1
  persisted := by
    intro s member
    cases fails with
    | true => exact accounted.persisted s (by simpa using member)
    | false =>
        rcases List.mem_cons.mp member with rfl | member
        · exact accounted.waiting call process s waits
        · exact accounted.persisted s (by simpa using member)
  past := accounted.past
  counted := accounted.counted
  rising := accounted.rising

theorem locate (accounted : Accounted taken counted t) (call process : Nat) :
    Accounted taken counted (t.setCall call (.located process)) where
  numbered := accounted.numbered
  sound := accounted.sound
  waiting other process' s member := by
    rcases List.mem_cons.mp member with equal | member
    · cases equal
    · exact accounted.waiting other process' s (List.mem_filter.mp member).1
  persisted := accounted.persisted
  past := accounted.past
  counted := accounted.counted
  rising := accounted.rising

theorem restart (accounted : Accounted taken counted t) :
    Accounted taken ((t.process + 1, {}) :: counted) { t with process := t.process + 1 } where
  numbered := accounted.numbered.restart
  sound := by
    intro entry member
    rcases List.mem_cons.mp member with rfl | member
    · rfl
    · exact accounted.sound entry member
  waiting := accounted.waiting
  persisted := accounted.persisted
  past := accounted.past
  counted := by
    intro s heard
    obtain ⟨wellFormed, latest, member, below⟩ := accounted.counted s heard
    exact ⟨wellFormed, latest, List.mem_cons_of_mem _ member, below⟩
  rising := accounted.rising

theorem count {before snapshot : Snapshot} {older : List (Nat × Snapshot)}
    (accounted : Accounted taken ((t.process, before) :: older) t)
    (grows : before.Below snapshot) (wellFormed : snapshot.sound = true) :
    Accounted taken ((t.process, snapshot) :: older) t where
  numbered := accounted.numbered.count
  sound := by
    intro entry member
    rcases List.mem_cons.mp member with rfl | member
    · exact wellFormed
    · exact accounted.sound entry (List.mem_cons_of_mem _ member)
  waiting := accounted.waiting
  persisted := accounted.persisted
  past := accounted.past
  counted := by
    intro s heard
    obtain ⟨takenSound, latest, member, below⟩ := accounted.counted s heard
    refine ⟨takenSound, ?_⟩
    rcases List.mem_cons.mp member with equal | member
    · obtain ⟨sameProcess, rfl⟩ := Prod.mk.inj equal
      exact ⟨snapshot, by simp [sameProcess], below.trans grows⟩
    · exact ⟨latest, List.mem_cons_of_mem _ member, below⟩
  rising := accounted.rising

theorem receive (accounted : Accounted taken counted t) (call process : Nat)
    (answer : counted.lookup t.process = some (taken t.now)) :
    Accounted taken counted { t.setCall call (.received process t.now) with
      heard := t.now :: t.heard } := by
  have member : (t.process, taken t.now) ∈ counted := mem_of_lookup_eq_some answer
  have earlierBelow : ∀ s ∈ t.heard, s.process = t.process →
      (taken s).Below (taken t.now) := by
    intro s heard sameProcess
    obtain ⟨-, latest, inside, below⟩ := accounted.counted s heard
    rw [sameProcess] at inside
    exact accounted.numbered.latest_unique inside member ▸ below
  exact {
    numbered := accounted.numbered
    sound := accounted.sound
    waiting := by
      intro other process' s inside
      rcases List.mem_cons.mp inside with equal | inside
      · cases equal
        exact List.mem_cons_self
      · exact List.mem_cons_of_mem _
          (accounted.waiting other process' s (List.mem_filter.mp inside).1)
    persisted := fun s inside => List.mem_cons_of_mem _ (accounted.persisted s inside)
    past := by
      intro s heard
      rw [List.length_cons]
      rcases List.mem_cons.mp heard with rfl | heard
      · exact Nat.lt_succ_self _
      · exact Nat.lt_succ_of_lt (accounted.past s heard)
    counted := by
      intro s heard
      rcases List.mem_cons.mp heard with rfl | heard
      · exact ⟨accounted.sound _ member, taken t.now, member, .refl _⟩
      · exact accounted.counted s heard
    rising := by
      intro s heard s' heard' sameProcess older
      rcases List.mem_cons.mp heard with rfl | heard
      · rcases List.mem_cons.mp heard' with rfl | heard'
        · exact .refl _
        · exact earlierBelow s' heard' sameProcess
      · rcases List.mem_cons.mp heard' with rfl | heard'
        · -- What is given now is not older than what was given before.
          have before := accounted.past s heard
          simp only [Timeline.now] at older
          omega
        · exact accounted.rising s heard s' heard' sameProcess older }

theorem step {a : CollectAction} (accounted : Accounted taken counted t)
    (answers : ∀ call, a = .receive call → counted.lookup t.process = some (taken t.now))
    (stepped : t.step? a = some t') : Accounted taken (t.recounted counted a) t' := by
  cases Timeline.step_of_step? stepped with
  | locate call => exact accounted.locate call t.process
  | receive call process => exact accounted.receive call process (answers call rfl)
  | persist waits fails => exact accounted.persist waits fails
  | count => exact accounted
  | restart => exact accounted.restart

end Accounted

/-! The snapshots of a whole run are known once it is over; they are what the stamps stand for. -/

namespace Collecting

def given (c : Collecting) : CollectAction → List Snapshot
  | .receive _ => [(c.counted.lookup c.process).getD {}]
  | _ => []

def receipts (c : Collecting) : List CollectAction → List Snapshot
  | [] => []
  | a :: rest => c.given a ++ ((c.step? a).map (·.receipts rest)).getD []

end Collecting

def Timeline.Foresees (t : Timeline) (taken : Stamp → Snapshot) (receipts : List Snapshot) : Prop :=
  ∀ i process, taken ⟨process, t.heard.length + i⟩ = (receipts[i]?).getD {}

namespace Timeline

variable {taken : Stamp → Snapshot} {counted : List (Nat × Snapshot)} {t t' : Timeline}

theorem length_heard_step? (taken : Stamp → Snapshot) (counted : List (Nat × Snapshot))
    {a : CollectAction} (stepped : t.step? a = some t') :
    t'.heard.length = t.heard.length + ((t.image taken counted).given a).length := by
  cases step_of_step? stepped <;> rfl

theorem Foresees.step {a : CollectAction} {later : List Snapshot}
    (foresees : t.Foresees taken ((t.image taken counted).given a ++ later))
    (stepped : t.step? a = some t') : t'.Foresees taken later := by
  intro i process
  rw [length_heard_step? taken counted stepped, Nat.add_assoc, foresees,
    List.getElem?_append_right (Nat.le_add_right _ _), Nat.add_sub_cancel_left]

theorem Foresees.answer {call : Nat} {later : List Snapshot} (numbered : Numbered t.process counted)
    (foresees : t.Foresees taken ((t.image taken counted).given (.receive call) ++ later)) :
    counted.lookup t.process = some (taken t.now) := by
  obtain ⟨latest, older, rfl⟩ := numbered.running
  have first : taken t.now = ((((t.process, latest) :: older).lookup t.process).getD {}) :=
    foresees 0 t.process
  rw [first, List.lookup_cons_self, Option.getD_some]

theorem counted_of_step? {snapshot : Snapshot} {c : Collecting}
    (stepped : (t.image taken counted).step? (.count snapshot) = some c) :
    ∃ process before older, counted = (process, before) :: older ∧ before.Below snapshot ∧
      snapshot.sound = true ∧ c = t.image taken ((process, snapshot) :: older) := by
  cases counted with
  | nil => cases stepped
  | cons entry older =>
      obtain ⟨process, before⟩ := entry
      simp only [Collecting.step?, image] at stepped
      split at stepped
      next allowed =>
        rw [Bool.and_eq_true] at allowed
        cases stepped
        exact ⟨process, before, older, rfl, Snapshot.below_of_grownTo allowed.1, allowed.2, rfl⟩
      next => cases stepped

/-- A step of the collections is a step of the timeline, and they stay what it stands for. -/
theorem step?_follows {a : CollectAction} {later : List Snapshot} {c : Collecting}
    (accounted : Accounted taken counted t)
    (foresees : t.Foresees taken ((t.image taken counted).given a ++ later))
    (stepped : (t.image taken counted).step? a = some c) :
    ∃ t' counted', t.step? a = some t' ∧ c = t'.image taken counted' ∧
      Accounted taken counted' t' := by
  by_cases counts : ∃ snapshot, a = .count snapshot
  · -- Counting is no step of the timeline.
    obtain ⟨snapshot, rfl⟩ := counts
    obtain ⟨process, before, older, rfl, grows, wellFormed, rfl⟩ := counted_of_step? stepped
    obtain ⟨latest, others, equal⟩ := accounted.numbered.running
    obtain ⟨⟨rfl, rfl⟩, rfl⟩ := List.cons.inj equal |>.imp_left Prod.mk.inj
    exact ⟨t, _, rfl, rfl, accounted.count grows wellFormed⟩
  · have quiet : ∀ snapshot, a ≠ .count snapshot := fun snapshot equal =>
      counts ⟨snapshot, equal⟩
    have answers : ∀ call, a = .receive call →
        counted.lookup t.process = some (taken t.now) := by
      rintro call rfl
      exact foresees.answer accounted.numbered
    rw [image_step? quiet answers] at stepped
    obtain ⟨next, timelineStepped, rfl⟩ := Option.map_eq_some_iff.mp stepped
    exact ⟨next, _, timelineStepped, rfl, accounted.step answers timelineStepped⟩

theorem run?_follows {actions : List CollectAction} {c : Collecting}
    (accounted : Accounted taken counted t)
    (foresees : t.Foresees taken ((t.image taken counted).receipts actions))
    (ran : (t.image taken counted).run? actions = some c) :
    ∃ t' counted', t.run? actions = some t' ∧ c = t'.image taken counted' ∧
      Accounted taken counted' t' := by
  induction actions generalizing t counted with
  | nil =>
      cases ran
      exact ⟨t, counted, rfl, rfl, accounted⟩
  | cons a rest ih =>
      obtain ⟨middle, stepped, ran⟩ := Option.bind_eq_some_iff.mp ran
      rw [Collecting.receipts, stepped, Option.map_some, Option.getD_some] at foresees
      obtain ⟨next, counted', timelineStepped, rfl, accountedNext⟩ :=
        step?_follows accounted foresees stepped
      obtain ⟨t', final, timelineRan, follows⟩ :=
        ih accountedNext (foresees.step timelineStepped) ran
      exact ⟨t', final, by rw [run?, timelineStepped]; exact timelineRan, follows⟩

end Timeline

/-- Every run of collections is that of a timeline, with snapshots that its processes gave. -/
theorem exists_accounted_of_run? {actions : List CollectAction} {c : Collecting}
    (ran : Collecting.run? {} actions = some c) :
    ∃ taken counted t, Timeline.run? {} actions = some t ∧ c = t.image taken counted ∧
      Accounted taken counted t := by
  let taken : Stamp → Snapshot := fun s =>
    ((Collecting.receipts {} actions)[s.moment]?).getD {}
  have foresees : Timeline.Foresees {} taken (Collecting.receipts {} actions) := by
    intro i process
    simp [taken]
  obtain ⟨t, counted, timelineRan, follows⟩ :=
    Timeline.run?_follows (Accounted.start taken) foresees ran
  exact ⟨taken, counted, t, timelineRan, follows⟩

end RelayControl
