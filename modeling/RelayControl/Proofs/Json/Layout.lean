import RelayControl.Proofs.Json.Records
import RelayControl.Proofs.Json.Slots

/-!
The layout of a record: its slots, and the place where members go that it does not know. What a
record holds after reading is told by the members of the tree, whatever their order, and tells in
turn what reading will find; so a record that is written and read again is put together from its own
members.
-/

namespace RelayControl.Json

variable {σ : Type}

structure Layout (σ : Type) where
  slots : List (Slot σ)
  blank : σ
  /-- The members that belong to no slot, in the order of their keys. -/
  rest : σ → Members
  keep : String → Json → σ → σ

namespace Layout

variable {L : Layout σ} {depth : Nat} {r r' : σ}

def opened (L : Layout σ) : Decoder σ := Record.opened (L.slots.map Slot.field) L.keep L.blank

def closed (L : Layout σ) : Decoder σ := Record.closed (L.slots.map Slot.field) L.blank

def write (L : Layout σ) (r : σ) : Members :=
  Slot.written L.slots r ++ L.rest r

def Foreign (L : Layout σ) (k : String) : Prop := ∀ s ∈ L.slots, s.name ≠ k

structure Lawful (L : Layout σ) : Prop where
  apart : Slot.Apart L.slots
  rest_put : ∀ s ∈ L.slots, ∀ x r, L.rest (s.put x r) = L.rest r
  rest_blank : L.rest L.blank = []
  ext : ∀ r r', (∀ s ∈ L.slots, s.get r = s.get r') → L.rest r = L.rest r' → r = r'

/-- What is kept goes to the other members and nowhere else. -/
structure Keeps (L : Layout σ) : Prop extends Lawful L where
  get_keep : ∀ s ∈ L.slots, ∀ k v r, s.get (L.keep k v r) = s.get r
  rest_keep : ∀ k v r, L.rest (L.keep k v r) = Members.insert k v (L.rest r)

/-- What a record holds, told by the members found under their keys. -/
structure Holds (L : Layout σ) (depth : Nat) (found : String → Option Doc) (r : σ) : Prop extends
    Slot.Held L.slots L.blank depth found r where
  kept : ∀ k, L.Foreign k → ∀ d, found k = some d →
    ∃ v, d.toJson depth = .ok v ∧ (L.rest r).lookup k = some v
  absent : ∀ k, L.Foreign k → found k = none → (L.rest r).lookup k = none
  sorted : Members.Sorted (L.rest r)
  foreign : ∀ m ∈ L.rest r, L.Foreign m.1

namespace Holds

variable {found : String → Option Doc}

theorem unique (lawful : L.Lawful) (holds : L.Holds depth found r)
    (holds' : L.Holds depth found r') : r = r' := by
  apply lawful.ext
  · exact fun s member => holds.toHeld.get_eq holds'.toHeld member
  · apply holds.sorted.ext holds'.sorted
    intro k
    by_cases foreign : L.Foreign k
    · cases present : found k with
      | some d =>
          obtain ⟨v, read, kept⟩ := holds.kept k foreign d present
          obtain ⟨v', read', kept'⟩ := holds'.kept k foreign d present
          rw [kept, kept', Except.ok.inj (read.symm.trans read')]
      | none => rw [holds.absent k foreign present, holds'.absent k foreign present]
    · have unkept : ∀ {r}, L.Holds depth found r → (L.rest r).lookup k = none := fun holds =>
        lookup_eq_none_iff_notMem.mpr fun member => by
          obtain ⟨m, inside, rfl⟩ := List.mem_map.mp member
          exact foreign (holds.foreign m inside)
      rw [unkept holds, unkept holds']

theorem exists_of_mem_rest (holds : L.Holds depth found r) {m : String × Json}
    (member : m ∈ L.rest r) : ∃ d : Doc, d.toJson depth = .ok m.2 := by
  have inside := (lookup_eq_some_iff_mem holds.sorted.nodup).mpr member
  have foreign := holds.foreign m member
  cases present : found m.1 with
  | none =>
      rw [holds.absent m.1 foreign present] at inside
      cases inside
  | some d =>
      obtain ⟨v, read, kept⟩ := holds.kept m.1 foreign d present
      obtain rfl := Option.some.inj (kept.symm.trans inside)
      exact ⟨d, read⟩

end Holds

/-! Reading. -/

abbrev keepOther (L : Layout σ) (depth : Nat) (key : String) (d : Doc) (r : σ) : Except Flaw σ :=
  (d.toJson depth).map (L.keep key · r)

theorem get_of_keepOther (keeps : L.Keeps) {key : String} {d : Doc}
    (passed : L.keepOther depth key d r = .ok r') : ∀ s ∈ L.slots, s.get r' = s.get r := by
  intro s member
  obtain ⟨v, -, rfl⟩ := map_eq_ok_iff.mp passed
  exact keeps.get_keep s member key v r

theorem rest_of_takeMembers (keeps : L.Keeps) {draft done : Record.Draft σ}
    {ms : List (Option String × Doc)}
    (taken : Record.takeMembers (L.slots.map Slot.field) L.keepOther depth draft ms = .ok done)
    {k : String} (foreign : L.Foreign k) :
    (∀ d, ms.reverse.lookup (some k) = some d →
      ∃ v, d.toJson depth = .ok v ∧ (L.rest done.record).lookup k = some v) ∧
    (ms.reverse.lookup (some k) = none →
      (L.rest done.record).lookup k = (L.rest draft.record).lookup k) := by
  induction ms generalizing draft with
  | nil =>
      rw [Record.takeMembers] at taken
      cases taken
      simp
  | cons m ms ih =>
      obtain ⟨key, next, keyed, took, rest⟩ :=
        (Record.takeMembers_cons_eq_ok_iff keeps.apart).mp taken
      obtain ⟨key?, d⟩ := m
      obtain rfl : key? = some key := keyed
      have later := ih rest
      rw [List.reverse_cons, List.lookup_append, lookup_cons_eq_ite, List.lookup_nil]
      cases found : ms.reverse.lookup (some k) with
      | some d' =>
          rw [Option.some_or]
          exact ⟨fun _ same => Option.some.inj same ▸ later.1 d' found,
            fun absent => absurd absent (Option.some_ne_none d')⟩
      | none =>
          rw [Option.none_or, later.2 found]
          cases took with
          | @slot s member named fresh x read =>
              have differs : ¬k = key := fun same => foreign s member (named.trans same.symm)
              simp [keeps.rest_put s member, differs]
          | @other unknown r passed =>
              obtain ⟨v, read, rfl⟩ := map_eq_ok_iff.mp passed
              rw [keeps.rest_keep, Members.lookup_insert]
              by_cases own : k = key
              · subst own
                simpa using read
              · simp [own]

theorem orderly_of_takeMembers (keeps : L.Keeps) {draft done : Record.Draft σ}
    {ms : List (Option String × Doc)}
    (taken : Record.takeMembers (L.slots.map Slot.field) L.keepOther depth draft ms = .ok done)
    (sorted : Members.Sorted (L.rest draft.record))
    (foreign : ∀ m ∈ L.rest draft.record, L.Foreign m.1) :
    Members.Sorted (L.rest done.record) ∧ ∀ m ∈ L.rest done.record, L.Foreign m.1 := by
  induction ms generalizing draft with
  | nil =>
      rw [Record.takeMembers] at taken
      cases taken
      exact ⟨sorted, foreign⟩
  | cons m ms ih =>
      obtain ⟨key, next, -, took, rest⟩ :=
        (Record.takeMembers_cons_eq_ok_iff keeps.apart).mp taken
      cases took with
      | @slot s member named fresh x read =>
          apply ih rest <;> rwa [keeps.rest_put s member]
      | @other unknown r passed =>
          obtain ⟨v, read, rfl⟩ := map_eq_ok_iff.mp passed
          apply ih rest <;> rw [keeps.rest_keep]
          · exact Members.sorted_insert key v sorted
          · intro n inside
            rcases Members.mem_insert inside with rfl | inside
            · exact unknown
            · exact foreign n inside

theorem opened_members_eq_ok_iff {ms : List (Option String × Doc)} {ending : Option Flaw} :
    L.opened depth (.members ms ending) = .ok r ↔ depth < depthLimit ∧
      Record.ofMembers (L.slots.map Slot.field) L.keepOther L.blank (depth + 1) ms ending =
        .ok r := by
  rw [opened, Record.opened]
  split
  · rename_i shallow
    simp only [shallow, true_and]
  · rename_i deep
    simp [deep]

theorem holds_of_opened (keeps : L.Keeps) {d : Doc} (read : L.opened depth d = .ok r) :
    depth < depthLimit ∧ ∃ ms, d = .members ms none ∧
      L.Holds (depth + 1) (fun k => ms.reverse.lookup (some k)) r := by
  cases d with
  | members ms ending =>
      obtain ⟨shallow, read⟩ := opened_members_eq_ok_iff.mp read
      obtain ⟨rfl, done, taken, -, rfl⟩ := Record.ofMembers_eq_ok_iff.mp read
      have held := Record.held_of_ofMembers keeps.apart (get_of_keepOther keeps) read
      obtain ⟨sorted, foreign⟩ := orderly_of_takeMembers keeps taken
        (by simp [keeps.rest_blank]) (by simp [keeps.rest_blank])
      refine ⟨shallow, ms, rfl, held, ?_, ?_, sorted, foreign⟩
      · exact fun k foreign => (rest_of_takeMembers keeps taken foreign).1
      · intro k foreign absent
        rw [(rest_of_takeMembers keeps taken foreign).2 absent, keeps.rest_blank, List.lookup_nil]
  | _ => cases read

theorem opened_of_holds (keeps : L.Keeps) {ms : List (Option String × Doc)}
    (shallow : depth < depthLimit) (keyed : ∀ m ∈ ms, m.1 ≠ none)
    (distinct : (ms.map (·.1)).Nodup)
    (holds : L.Holds (depth + 1) (fun k => ms.lookup (some k)) r) :
    L.opened depth (.members ms none) = .ok r := by
  -- some record is read; the same members tell what it holds, so it is `r`
  obtain ⟨r', read⟩ : ∃ r', Record.ofMembers (L.slots.map Slot.field) L.keepOther L.blank
      (depth + 1) ms none = .ok r' := by
    apply Record.exists_ofMembers keeps.apart (get_of_keepOther keeps) keyed distinct
    · exact fun s member d found => ⟨_, holds.given s member d found⟩
    · exact fun s member absent => (holds.missing s member absent).1
    · intro k foreign d found r
      obtain ⟨v, read, -⟩ := holds.kept k foreign d found
      exact ⟨_, map_eq_ok_iff.mpr ⟨v, read, rfl⟩⟩
  replace read := opened_members_eq_ok_iff.mpr ⟨shallow, read⟩
  obtain ⟨-, _, ⟨⟩, holds'⟩ := holds_of_opened keeps read
  simp only [lookup_reverse distinct] at holds'
  rw [read, holds.unique keeps.toLawful holds']

/-! Records without other members. -/

theorem Holds.of_held {found : String → Option Doc} (bare : ∀ r, L.rest r = [])
    (held : Slot.Held L.slots L.blank depth found r)
    (own : ∀ k, L.Foreign k → found k = none) : L.Holds depth found r where
  toHeld := held
  kept k foreign d present := by
    rw [own k foreign] at present
    cases present
  absent k _ _ := by rw [bare, List.lookup_nil]
  sorted := by simp [bare]
  foreign := by simp [bare]

theorem closed_members_eq_ok_iff {ms : List (Option String × Doc)} {ending : Option Flaw} :
    L.closed depth (.members ms ending) = .ok r ↔ depth < depthLimit ∧
      Record.ofMembers (L.slots.map Slot.field) Record.passOver L.blank (depth + 1) ms ending =
        .ok r := by
  rw [closed, Record.closed]
  split
  · rename_i shallow
    simp only [shallow, true_and]
  · rename_i deep
    simp [deep]

theorem get_of_passOver {key : String} {d : Doc} (passed : Record.passOver depth key d r = .ok r') :
    ∀ s ∈ L.slots, s.get r' = s.get r := by
  obtain ⟨_, -, rfl⟩ := map_eq_ok_iff.mp passed
  exact fun _ _ => rfl

theorem held_of_closed_members (lawful : L.Lawful) {ms : List (Option String × Doc)}
    {ending : Option Flaw} (read : L.closed depth (.members ms ending) = .ok r) :
    depth < depthLimit ∧ Slot.Held L.slots L.blank (depth + 1)
      (fun k => ms.reverse.lookup (some k)) r := by
  obtain ⟨shallow, read⟩ := closed_members_eq_ok_iff.mp read
  exact ⟨shallow, Record.held_of_ofMembers lawful.apart get_of_passOver read⟩

/-- The value of an object is read as the record that it tells; its other members are passed over. -/
theorem closed_ofMembers_eq_ok_iff (lawful : L.Lawful) (bare : ∀ r, L.rest r = [])
    {ms : List (String × Json)} (distinct : (ms.map (·.1)).Nodup) :
    L.closed depth (.members (Doc.ofMembers ms) none) = .ok r ↔ depth < depthLimit ∧
      Slot.Held L.slots L.blank (depth + 1) (fun k => (ms.lookup k).map Doc.ofJson) r := by
  have keys := Doc.nodup_ofMembers distinct
  have told : ∀ {r}, L.closed depth (.members (Doc.ofMembers ms) none) = .ok r →
      depth < depthLimit ∧
        Slot.Held L.slots L.blank (depth + 1) (fun k => (ms.lookup k).map Doc.ofJson) r := by
    intro r read
    have held := held_of_closed_members lawful read
    simpa only [lookup_reverse keys, Doc.lookup_ofMembers] using held
  refine ⟨told, ?_⟩
  rintro ⟨shallow, held⟩
  obtain ⟨r', read⟩ : ∃ r', Record.ofMembers (L.slots.map Slot.field) Record.passOver L.blank
      (depth + 1) (Doc.ofMembers ms) none = .ok r' := by
    apply Record.exists_ofMembers lawful.apart get_of_passOver Doc.keyed_ofMembers keys
    · intro s member d found
      exact ⟨_, held.given s member d (Doc.lookup_ofMembers ms s.name ▸ found)⟩
    · intro s member absent
      exact (held.missing s member (Doc.lookup_ofMembers ms s.name ▸ absent)).1
    · intro k _ d found r
      rw [Doc.lookup_ofMembers] at found
      obtain ⟨v, -, rfl⟩ := Option.map_eq_some_iff.mp found
      exact ⟨r, map_eq_ok_iff.mpr ⟨(), Doc.skip_ofJson v, rfl⟩⟩
  replace read := closed_members_eq_ok_iff.mpr ⟨shallow, read⟩
  have same : r' = r := by
    apply lawful.ext
    · exact fun s member => (told read).2.get_eq held member
    · rw [bare, bare]
  rw [read, same]

theorem held_of_closed_items (lawful : L.Lawful) {ds : List Doc} {ending : Option Flaw}
    (read : L.closed depth (.items ds ending) = .ok r) :
    depth < depthLimit ∧ Slot.Held L.slots L.blank (depth + 1)
      (fun k => ((L.slots.map (·.name)).zip ds).lookup k) r := by
  rw [closed, Record.closed] at read
  split at read
  · rename_i shallow
    exact ⟨shallow, (Record.held_of_takeItems lawful.apart read).2⟩
  · cases read

/-! Writing, and reading what is written. -/

theorem lookup_write_of_slot (lawful : L.Lawful) (foreign : ∀ m ∈ L.rest r, L.Foreign m.1)
    {s : Slot σ} (member : s ∈ L.slots) : (L.write r).lookup s.name = s.member? r := by
  have absent : (L.rest r).lookup s.name = none := lookup_eq_none_iff_notMem.mpr fun inside => by
    obtain ⟨m, kept, same⟩ := List.mem_map.mp inside
    exact foreign m kept s member same.symm
  rw [write, List.lookup_append, Slot.lookup_written lawful.apart.names member, absent,
    Option.or_none]

theorem lookup_write_of_foreign {k : String} (foreign : L.Foreign k) :
    (L.write r).lookup k = (L.rest r).lookup k := by
  rw [write, List.lookup_append, Slot.lookup_written_of_foreign foreign, Option.none_or]

theorem Holds.nodup_write (lawful : L.Lawful) {found : String → Option Doc}
    (holds : L.Holds depth found r) : ((L.write r).map (·.1)).Nodup := by
  rw [write, List.map_append, List.nodup_append]
  refine ⟨Slot.nodup_written lawful.apart.names r, holds.sorted.nodup, ?_⟩
  rintro k first _ second rfl
  obtain ⟨m, kept, rfl⟩ := List.mem_map.mp second
  have absent := Slot.lookup_written_of_foreign (holds.foreign m kept) r
  exact lookup_eq_none_iff_notMem.mp absent first

theorem Holds.written (lawful : L.Lawful) {found : String → Option Doc}
    (holds : L.Holds depth found r) (others : L.rest r' = L.rest r)
    (returns : ∀ s ∈ L.slots, s.Returns L.blank depth r r') :
    L.Holds depth (fun k => (Doc.ofMembers (L.write r)).lookup (some k)) r' where
  given s member d present := by
    rw [Doc.lookup_ofMembers, lookup_write_of_slot lawful holds.foreign member] at present
    obtain ⟨v, own, rfl⟩ := Option.map_eq_some_iff.mp present
    exact (returns s member).again v own
  missing s member absent := by
    rw [Doc.lookup_ofMembers, lookup_write_of_slot lawful holds.foreign member] at absent
    exact (returns s member).omitted (Option.map_eq_none_iff.mp absent)
  kept k foreign d present := by
    rw [Doc.lookup_ofMembers, lookup_write_of_foreign foreign] at present
    obtain ⟨v, own, rfl⟩ := Option.map_eq_some_iff.mp present
    obtain ⟨d, read⟩ := holds.exists_of_mem_rest (mem_of_lookup_eq_some own)
    exact ⟨v, Doc.toJson_ofJson_of_toJson read, by rw [others, own]⟩
  absent k foreign absent := by
    rw [Doc.lookup_ofMembers, lookup_write_of_foreign foreign] at absent
    rw [others, Option.map_eq_none_iff.mp absent]
  sorted := others ▸ holds.sorted
  foreign := others ▸ holds.foreign

theorem Holds.readable_write {found : String → Option Doc} (shallow : depth < depthLimit)
    (holds : L.Holds (depth + 1) found r)
    (returns : ∀ s ∈ L.slots, s.Returns L.blank (depth + 1) r r') :
    (object (L.write r)).Readable depth := by
  apply readable_object shallow
  intro m member
  rcases List.mem_append.mp member with own | kept
  · obtain ⟨s, among, own⟩ := List.mem_flatMap.mp own
    obtain ⟨v, present, rfl⟩ := List.mem_map.mp own
    exact (returns s among).readable v (Option.mem_toList.mp present)
  · obtain ⟨d, read⟩ := holds.exists_of_mem_rest kept
    exact readable_of_toJson read

/-- A record that has been read is read again from what is written of it. -/
theorem opened_write (keeps : L.Keeps) {d : Doc} (read : L.opened depth d = .ok r)
    (others : L.rest r' = L.rest r)
    (returns : ∀ s ∈ L.slots, s.Obtained L.blank (depth + 1) r →
      s.Returns L.blank (depth + 1) r r') :
    L.opened depth (.ofJson (.object (L.write r))) = .ok r' ∧
      (object (L.write r)).Readable depth := by
  obtain ⟨shallow, ms, -, holds⟩ := holds_of_opened keeps read
  have lawful := keeps.toLawful
  replace returns := fun s member => returns s member (holds.obtained member)
  refine ⟨?_, holds.readable_write shallow returns⟩
  rw [Doc.ofJson]
  exact opened_of_holds keeps shallow Doc.keyed_ofMembers
    (Doc.nodup_ofMembers (holds.nodup_write lawful)) (holds.written lawful others returns)

theorem holds_of_closed (lawful : L.Lawful) (bare : ∀ r, L.rest r = []) {d : Doc}
    (read : L.closed depth d = .ok r) :
    depth < depthLimit ∧ ∃ found, L.Holds (depth + 1) found r := by
  obtain ⟨shallow, found, held⟩ :
      depth < depthLimit ∧ ∃ found, Slot.Held L.slots L.blank (depth + 1) found r := by
    cases d with
    | members ms ending =>
        obtain ⟨shallow, held⟩ := held_of_closed_members lawful read
        exact ⟨shallow, _, held⟩
    | items ds ending =>
        obtain ⟨shallow, held⟩ := held_of_closed_items lawful read
        exact ⟨shallow, _, held⟩
    | _ => cases read
  -- what stands under other names has been passed over, so it is left out of what is found
  refine ⟨shallow, fun k => if k ∈ L.slots.map (·.name) then found k else none, .of_held bare ?_ ?_⟩
  · have own : ∀ s ∈ L.slots, s.name ∈ L.slots.map (·.name) := fun s member =>
      List.mem_map_of_mem member
    constructor
    · intro s member d present
      exact held.given s member d (by simpa [own s member] using present)
    · intro s member absent
      exact held.missing s member (by simpa [own s member] using absent)
  · intro k foreign
    rw [if_neg]
    rintro member
    obtain ⟨s, among, rfl⟩ := List.mem_map.mp member
    exact foreign s among rfl

theorem closed_write (lawful : L.Lawful) (bare : ∀ r, L.rest r = []) {d : Doc}
    (read : L.closed depth d = .ok r)
    (returns : ∀ s ∈ L.slots, s.Obtained L.blank (depth + 1) r →
      s.Returns L.blank (depth + 1) r r') :
    L.closed depth (.ofJson (.object (L.write r))) = .ok r' ∧
      (object (L.write r)).Readable depth := by
  obtain ⟨shallow, found, holds⟩ := holds_of_closed lawful bare read
  replace returns := fun s member => returns s member (holds.obtained member)
  have others : L.rest r' = L.rest r := by rw [bare, bare]
  refine ⟨?_, holds.readable_write shallow returns⟩
  have held := (holds.written lawful others returns).toHeld
  simp only [Doc.lookup_ofMembers] at held
  rw [Doc.ofJson]
  exact (closed_ofMembers_eq_ok_iff lawful bare (holds.nodup_write lawful)).mpr ⟨shallow, held⟩

end Layout

end RelayControl.Json
