import RelayControl.Proofs.Basic
import RelayControl.Stats.Interleaving

/-!
The growth against a baseline, counter by counter: what a snapshot says of a counter, what the
baseline holds of it, and what of it is handed on.
-/

namespace RelayControl

inductive Direction where
  | up
  | down
  deriving DecidableEq, Repr

namespace Reading

def along (r : Reading) : Direction → Int
  | .up => r.up
  | .down => r.down

@[simp] theorem along_default (d : Direction) : ({} : Reading).along d = 0 := by
  cases d <;> rfl

theorem along_since (now : Reading) (before : Option Reading) (d : Direction) :
    (now.since before).along d = grown (now.along d) (before.map (·.along d)) := by
  cases d <;> rfl

theorem eq_default_of_isZero {r : Reading} (zero : r.isZero = true) : r = {} := by
  obtain ⟨up, down⟩ := r
  simpa [isZero] using zero

end Reading

namespace Snapshot

def readings (s : Snapshot) : CounterKind → List (String × Reading)
  | .inbound => s.inbounds
  | .outbound => s.outbounds
  | .user => s.users

def reading? (s : Snapshot) (key : CounterKey) : Option Reading :=
  (s.readings key.1).lookup key.2

theorem reading_eq_getD (s : Snapshot) (key : CounterKey) :
    s.reading key = (s.reading? key).getD {} := by
  obtain ⟨kind, name⟩ := key
  cases kind <;> rfl

end Snapshot

/-! The readings of a snapshot under their keys. -/

theorem lookup_map_kind (kind : CounterKind) (readings : List (String × Reading))
    (key : CounterKey) :
    (readings.map fun (n, r) => ((kind, n), r)).lookup key =
      if key.1 = kind then readings.lookup key.2 else none := by
  obtain ⟨kind', name⟩ := key
  induction readings with
  | nil => simp
  | cons entry rest ih =>
      obtain ⟨n, r⟩ := entry
      rw [List.map_cons, lookup_cons_eq_ite, ih, lookup_cons_eq_ite]
      by_cases sameKind : kind' = kind
      · simp [sameKind]
      · simp [sameKind]

namespace Baseline

@[simp] theorem lookup_keyed (s : Snapshot) (key : CounterKey) :
    (keyed s).lookup key = s.reading? key := by
  unfold keyed Snapshot.reading?
  rw [List.lookup_append, List.lookup_append]
  simp only [lookup_map_kind]
  obtain ⟨kind, name⟩ := key
  cases kind <;> simp [Snapshot.readings]

theorem any_keyed (s : Snapshot) (key : CounterKey) :
    ((keyed s).any (·.1 == key)) = (s.reading? key).isSome := by
  rw [← lookup_keyed, Bool.eq_iff_iff, List.any_eq_true, List.lookup_isSome_iff]
  simp only [BEq.comm]

theorem lookup_extend (b : Baseline) (s : Snapshot) (key : CounterKey) :
    (b.extend s).readings.lookup key = (s.reading? key).or (b.readings.lookup key) := by
  simp only [extend, List.lookup_append, lookup_keyed, any_keyed]
  cases mentioned : s.reading? key with
  | some now => rfl
  | none =>
      rw [Option.none_or, Option.none_or]
      exact lookup_filter_of_kept (fun k => !(s.reading? k).isSome) (by simp [mentioned])

end Baseline

namespace Snapshot

def Distinct (s : Snapshot) : Prop := ((Baseline.keyed s).map (·.1)).Nodup

instance (s : Snapshot) : Decidable s.Distinct :=
  inferInstanceAs (Decidable (List.Nodup ((Baseline.keyed s).map (·.1))))

theorem Distinct.readings {s : Snapshot} (distinct : s.Distinct) (kind : CounterKind) :
    ((s.readings kind).map (·.1)).Nodup := by
  have part : ((s.readings kind).map fun (n, r) => ((kind, n), r)).Sublist (Baseline.keyed s) := by
    unfold Baseline.keyed
    cases kind with
    | inbound =>
        exact (List.sublist_append_left _ _).trans (List.sublist_append_left _ _)
    | outbound =>
        exact (List.sublist_append_right _ _).trans (List.sublist_append_left _ _)
    | user => exact List.sublist_append_right _ _
  have keys : ((Baseline.keyed s).map (·.1)).Nodup := distinct
  have tagged := (part.map (·.1)).nodup keys
  rw [List.map_map] at tagged
  refine List.Nodup.of_map (fun name => (kind, name)) ?_
  rwa [List.map_map]

theorem distinct_of_sound {s : Snapshot} (wellFormed : s.sound = true) (kind : CounterKind) :
    ((s.readings kind).map (·.1)).Nodup := by
  have distinct : s.Distinct := by
    simp only [sound, Bool.and_eq_true, decide_eq_true_eq] at wellFormed
    exact wellFormed.2
  exact distinct.readings kind

theorem nonneg_of_reading? {s : Snapshot} (wellFormed : s.sound = true) {key : CounterKey}
    {r : Reading} (mentioned : s.reading? key = some r) (d : Direction) : 0 ≤ r.along d := by
  rw [← Baseline.lookup_keyed] at mentioned
  simp only [sound, Bool.and_eq_true, List.all_eq_true, decide_eq_true_eq] at wellFormed
  have nonneg := wellFormed.1 _ (mem_of_lookup_eq_some mentioned)
  cases d with
  | up => exact nonneg.1
  | down => exact nonneg.2

theorem nonneg_of_sound {s : Snapshot} (wellFormed : s.sound = true) (key : CounterKey)
    (d : Direction) : 0 ≤ (s.reading key).along d := by
  rw [reading_eq_getD]
  cases mentioned : s.reading? key with
  | none => simp
  | some r => exact nonneg_of_reading? wellFormed mentioned d

end Snapshot

/-! What is handed on for a counter. -/

theorem map_filter_map_pairs {pairs : List (String × Reading)} {f : String × Reading → α}
    {p : α → Bool} {g : α → Reading} (name : String) (picks : ∀ pair, p (f pair) = (pair.1 == name))
    (reads : ∀ pair, g (f pair) = pair.2) :
    ((pairs.map f).filter p).map g = (pairs.filter (·.1 == name)).map (·.2) := by
  have picked : p ∘ f = fun pair => pair.1 == name := funext picks
  have read : g ∘ f = (·.2) := funext reads
  rw [List.filter_map, List.map_map, picked, read]

theorem filter_map_eq_nil {items : List α} {f : α → β} {p : β → Bool}
    (passes : ∀ a, p (f a) = false) : (items.map f).filter p = [] := by
  simp [List.filter_eq_nil_iff, passes]

namespace Growth

theorem of_inbound (g : Growth) (name : String) : g.of (.inbound, name) =
    ((g.tags.filter fun t => t.inbound && t.tag == name).map
      fun t => (⟨t.up, t.down⟩ : Reading)).head?.getD {} := by
  rw [List.head?_map, List.head?_filter, of]
  cases g.tags.find? fun t => t.inbound && t.tag == name <;> rfl

theorem of_outbound (g : Growth) (name : String) : g.of (.outbound, name) =
    ((g.tags.filter fun t => !t.inbound && t.tag == name).map
      fun t => (⟨t.up, t.down⟩ : Reading)).head?.getD {} := by
  rw [List.head?_map, List.head?_filter, of]
  cases g.tags.find? fun t => !t.inbound && t.tag == name <;> rfl

theorem of_user (g : Growth) (name : String) : g.of (.user, name) =
    ((g.clients.filter (·.email == name)).map
      fun c => (⟨c.up, c.down⟩ : Reading)).head?.getD {} := by
  rw [List.head?_map, List.head?_filter, of]
  cases g.clients.find? (·.email == name) <;> rfl

end Growth

namespace Baseline

theorem filter_growthOf (b : Baseline) (kind : CounterKind) {readings : List (String × Reading)}
    (distinct : (readings.map (·.1)).Nodup) (name : String) :
    ((b.growthOf kind readings).filter (·.1 == name)).map (·.2) =
      (((readings.lookup name).map (·.since (b.readings.lookup (kind, name)))).filter
        (!·.isZero)).toList := by
  unfold growthOf
  rw [List.filter_comm, List.filter_map]
  have named : readings.filter ((fun p : String × Reading => p.1 == name) ∘ fun p =>
      (p.1, p.2.since (b.readings.lookup (kind, p.1)))) =
      (readings.lookup name).toList.map fun value => (name, value) :=
    filter_fst_beq distinct name
  rw [named]
  cases readings.lookup name with
  | none => rfl
  | some now =>
      simp only [Option.toList_some, List.map_cons, List.map_nil, Option.map_some, List.filter_cons,
        List.filter_nil, Option.filter_some]
      split <;> rfl

end Baseline

theorem Growth.of_growth (b : Baseline) {s : Snapshot} (wellFormed : s.sound = true)
    (key : CounterKey) :
    (b.growth s).of key =
      ((s.reading? key).map (·.since (b.readings.lookup key))).getD {} := by
  obtain ⟨kind, name⟩ := key
  have handed := b.filter_growthOf kind (Snapshot.distinct_of_sound wellFormed kind) name
  have first : (b.growth s).of (kind, name) =
      (((b.growthOf kind (s.readings kind)).filter (·.1 == name)).map (·.2)).head?.getD {} := by
    unfold Baseline.growth
    cases kind with
    | inbound =>
        rw [Growth.of_inbound]
        dsimp only
        rw [List.filter_append, List.map_append, map_filter_map_pairs name (by simp) (by simp),
          filter_map_eq_nil (by simp), List.map_nil, List.append_nil]
        rfl
    | outbound =>
        rw [Growth.of_outbound]
        dsimp only
        rw [List.filter_append, filter_map_eq_nil (by simp), List.nil_append,
          map_filter_map_pairs name (by simp) (by simp)]
        rfl
    | user =>
        rw [Growth.of_user]
        dsimp only
        rw [map_filter_map_pairs name (by simp) (by simp)]
        rfl
  rw [first, handed, show s.reading? (kind, name) = (s.readings kind).lookup name from rfl]
  cases (s.readings kind).lookup name with
  | none => rfl
  | some now =>
      rw [Option.map_some, Option.filter_some, Option.getD_some]
      split
      next => rfl
      next zero => exact (Reading.eq_default_of_isZero (by simpa using zero)).symm

end RelayControl
