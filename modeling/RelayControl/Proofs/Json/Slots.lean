import Mathlib.Data.List.Pairwise
import RelayControl.Proofs.Json.Ordered

/-!
The slots of a record: what it keeps of which member, and how the member is read and written. What
the slots hold after reading is told by the last member of each name.
-/

namespace RelayControl.Json

variable {σ α : Type}

/-- A member that a record knows: how it is read and written, and its place in the record. -/
structure Slot (σ : Type) where
  {Value : Type}
  name : String
  required : Bool
  item : Decoder Value
  member : Value → Option Json
  get : σ → Value
  put : Value → σ → σ

namespace Slot

@[simp]
def optional (name : String) (item : Decoder α) (toJson : α → Json) (get : σ → Option α)
    (put : Option α → σ → σ) : Slot σ :=
  ⟨name, false, .optional item, Option.map toJson, get, put⟩

@[simp]
def defaulted (name : String) (item : Decoder α) (toJson : α → Json) (get : σ → α)
    (put : α → σ → σ) : Slot σ :=
  ⟨name, false, item, fun v => some (toJson v), get, put⟩

@[simp]
def mandatory (name : String) (item : Decoder α) (toJson : α → Json) (get : σ → α)
    (put : α → σ → σ) : Slot σ :=
  ⟨name, true, item, fun v => some (toJson v), get, put⟩

@[simp]
def rewritten (name : String) (item : Decoder α) (member : Option α → Option Json)
    (get : σ → Option α) (put : Option α → σ → σ) : Slot σ :=
  ⟨name, false, .optional item, member, get, put⟩

def field (s : Slot σ) : RecordField σ :=
  ⟨s.name, s.required, fun depth d => (s.item depth d).map s.put⟩

def member? (s : Slot σ) (r : σ) : Option Json := s.member (s.get r)

structure Apart (slots : List (Slot σ)) : Prop where
  names : (slots.map (·.name)).Nodup
  get_put : ∀ s ∈ slots, ∀ x r, s.get (s.put x r) = x
  get_put_of_ne : slots.Pairwise fun s t =>
    (∀ x r, t.get (s.put x r) = t.get r) ∧ ∀ x r, s.get (t.put x r) = s.get r

theorem Apart.eq_of_name {slots : List (Slot σ)} (apart : Apart slots) {s t : Slot σ}
    (member : s ∈ slots) (member' : t ∈ slots) (same : s.name = t.name) : s = t :=
  List.inj_on_of_nodup_map apart.names member member' same

theorem Apart.get_put_other {slots : List (Slot σ)} (apart : Apart slots) {s t : Slot σ}
    (member : s ∈ slots) (member' : t ∈ slots) (differ : t.name ≠ s.name) (x : s.Value) (r : σ) :
    t.get (s.put x r) = t.get r := by
  have symmetric : Std.Symm fun s t : Slot σ =>
      (∀ x r, t.get (s.put x r) = t.get r) ∧ ∀ x r, s.get (t.put x r) = s.get r :=
    ⟨fun _ _ both => ⟨both.2, both.1⟩⟩
  have others : s ≠ t := fun same => differ (same ▸ rfl)
  exact (apart.get_put_of_ne.forall member member' others).1 x r

theorem find?_field {slots : List (Slot σ)} (apart : Apart slots) {s : Slot σ}
    (member : s ∈ slots) : (slots.map field).find? (·.name == s.name) = some s.field := by
  have found := find?_eq_some_of_nodup apart.names member
  simpa [List.find?_map, Function.comp_def, field] using congrArg (Option.map field) found

end Slot

namespace Record

variable {slots : List (Slot σ)} {other : Nat → String → Doc → σ → Except Flaw σ} {depth : Nat}

inductive Took (slots : List (Slot σ)) (other : Nat → String → Doc → σ → Except Flaw σ)
    (depth : Nat) (draft : Draft σ) (key : String) (d : Doc) : Draft σ → Prop
  | slot {s : Slot σ} (member : s ∈ slots) (named : s.name = key) (fresh : key ∉ draft.given)
      {x : s.Value} (read : s.item depth d = .ok x) :
      Took slots other depth draft key d ⟨s.put x draft.record, key :: draft.given⟩
  | other (unknown : ∀ s ∈ slots, s.name ≠ key) {r : σ}
      (passed : other depth key d draft.record = .ok r) :
      Took slots other depth draft key d ⟨r, draft.given⟩

theorem takeMembers_cons_eq_ok_iff (apart : Slot.Apart slots) {draft done : Draft σ}
    {m : Option String × Doc} {ms : List (Option String × Doc)} :
    takeMembers (slots.map Slot.field) other depth draft (m :: ms) = .ok done ↔
      ∃ key next, m.1 = some key ∧ Took slots other depth draft key m.2 next ∧
        takeMembers (slots.map Slot.field) other depth next ms = .ok done := by
  obtain ⟨_ | key, d⟩ := m
  · simp [takeMembers]
  rw [takeMembers]
  constructor
  · intro taken
    split at taken
    · rename_i field found
      obtain ⟨s, member, rfl⟩ := List.mem_map.mp (List.mem_of_find?_eq_some found)
      have named : s.field.name = key := by simpa using List.find?_some found
      split at taken
      · cases taken
      · rename_i fresh
        obtain ⟨change, made, taken⟩ := bind_eq_ok_iff.mp taken
        obtain ⟨x, read, rfl⟩ : ∃ x, s.item depth d = .ok x ∧ s.put x = change :=
          map_eq_ok_iff.mp made
        exact ⟨key, _, rfl, .slot member named (by simpa using fresh) read, taken⟩
    · rename_i found
      obtain ⟨r, passed, taken⟩ := bind_eq_ok_iff.mp taken
      refine ⟨key, _, rfl, .other ?_ passed, taken⟩
      intro s member same
      rw [← same, Slot.find?_field apart member] at found
      cases found
  · rintro ⟨_, next, ⟨⟩, took, taken⟩
    cases took with
    | @slot s member named fresh x read =>
        subst named
        rw [Slot.find?_field apart member]
        dsimp only
        rw [if_neg (by simpa using fresh), bind_eq_ok_iff]
        exact ⟨s.put x, map_eq_ok_iff.mpr ⟨x, read, rfl⟩, taken⟩
    | @other unknown r passed =>
        have absent : (slots.map Slot.field).find? (·.name == key) = none := by
          simpa [Slot.field] using unknown
        rw [absent]
        exact bind_eq_ok_iff.mpr ⟨r, passed, taken⟩

theorem slot_of_takeMembers (apart : Slot.Apart slots)
    (keeps : ∀ {key d r r'}, other depth key d r = .ok r' → ∀ s ∈ slots, s.get r' = s.get r)
    {draft done : Draft σ} {ms : List (Option String × Doc)}
    (taken : takeMembers (slots.map Slot.field) other depth draft ms = .ok done)
    {s : Slot σ} (member : s ∈ slots) :
    (∀ d, ms.reverse.lookup (some s.name) = some d →
      s.item depth d = .ok (s.get done.record) ∧ s.name ∈ done.given) ∧
    (ms.reverse.lookup (some s.name) = none →
      s.get done.record = s.get draft.record ∧ (s.name ∈ done.given ↔ s.name ∈ draft.given)) := by
  induction ms generalizing draft with
  | nil =>
      rw [takeMembers] at taken
      cases taken
      simp
  | cons m ms ih =>
      obtain ⟨key, next, keyed, took, rest⟩ := (takeMembers_cons_eq_ok_iff apart).mp taken
      obtain ⟨key?, d⟩ := m
      obtain rfl : key? = some key := keyed
      have later := ih rest
      -- the last member of a name decides: this one only where none follows
      rw [List.reverse_cons, List.lookup_append, lookup_cons_eq_ite, List.lookup_nil]
      cases found : ms.reverse.lookup (some s.name) with
      | some d' =>
          rw [Option.some_or]
          exact ⟨fun _ same => Option.some.inj same ▸ later.1 d' found, nofun⟩
      | none =>
          obtain ⟨kept, given⟩ := later.2 found
          rw [Option.none_or, kept, given]
          cases took with
          | @slot t member' named fresh x read =>
              subst named
              by_cases own : s.name = t.name
              · obtain rfl := apart.eq_of_name member member' own
                simpa [apart.get_put s member] using read
              · simp [apart.get_put_other member' member own, own]
          | @other unknown r passed =>
              simp [keeps passed s member, unknown s member]

theorem exists_takeMembers (apart : Slot.Apart slots) {draft : Draft σ}
    {ms : List (Option String × Doc)} (keyed : ∀ m ∈ ms, m.1 ≠ none)
    (distinct : (ms.map (·.1)).Nodup) (fresh : ∀ k ∈ draft.given, some k ∉ ms.map (·.1))
    (known : ∀ s ∈ slots, ∀ d, (some s.name, d) ∈ ms → ∃ x, s.item depth d = .ok x)
    (unknown : ∀ k, (∀ s ∈ slots, s.name ≠ k) → ∀ d, (some k, d) ∈ ms →
      ∀ r, ∃ r', other depth k d r = .ok r') :
    ∃ done, takeMembers (slots.map Slot.field) other depth draft ms = .ok done := by
  -- no name that has been given comes again, so no slot is refused as given twice
  induction ms generalizing draft with
  | nil => exact ⟨draft, rfl⟩
  | cons m ms ih =>
      obtain ⟨key?, d⟩ := m
      obtain ⟨key, rfl⟩ := Option.ne_none_iff_exists'.mp (keyed (key?, d) (by simp))
      rw [List.map_cons, List.nodup_cons] at distinct
      have took : ∃ next, Took slots other depth draft key d next ∧
          ∀ k ∈ next.given, some k ∉ ms.map (·.1) := by
        by_cases own : ∃ s ∈ slots, s.name = key
        · obtain ⟨s, member, rfl⟩ := own
          obtain ⟨x, read⟩ := known s member d (by simp)
          refine ⟨_, .slot member rfl (fun given => fresh _ given (by simp)) read, ?_⟩
          intro k given
          rcases List.mem_cons.mp given with rfl | given
          · exact distinct.1
          · exact fun later => fresh k given (List.mem_cons_of_mem _ later)
        · push Not at own
          obtain ⟨r, passed⟩ := unknown key own d (by simp) draft.record
          exact ⟨_, .other own passed,
            fun k given later => fresh k given (List.mem_cons_of_mem _ later)⟩
      obtain ⟨next, took, fresh⟩ := took
      obtain ⟨done, taken⟩ := ih (fun m member => keyed m (List.mem_cons_of_mem _ member))
        distinct.2 fresh (fun s member d inside => known s member d (List.mem_cons_of_mem _ inside))
        (fun k foreign d inside => unknown k foreign d (List.mem_cons_of_mem _ inside))
      exact ⟨done, (takeMembers_cons_eq_ok_iff apart).mpr ⟨key, next, rfl, took, taken⟩⟩

theorem complete_eq_ok_iff {draft : Draft σ} {r : σ} :
    complete (slots.map Slot.field) draft = .ok r ↔
      (∀ s ∈ slots, s.required = true → s.name ∈ draft.given) ∧ draft.record = r := by
  have all :
      ((slots.map Slot.field).all fun f => !f.required || draft.given.contains f.name) = true ↔
      ∀ s ∈ slots, s.required = true → s.name ∈ draft.given := by
    rw [List.all_map, List.all_eq_true]
    refine forall₂_congr fun s _ => ?_
    cases needed : s.required <;> simp [Slot.field, needed]
  unfold complete
  split
  · rename_i holds
    exact ⟨fun same => ⟨all.mp holds, Except.ok.inj same⟩, fun both => congrArg _ both.2⟩
  · rename_i fails
    exact ⟨nofun, fun both => absurd (all.mpr both.1) fails⟩

end Record

namespace Slot

def written (slots : List (Slot σ)) (r : σ) : Members :=
  slots.flatMap fun s => (s.member? r).toList.map (s.name, ·)

theorem lookup_written_of_foreign {slots : List (Slot σ)} {k : String}
    (foreign : ∀ s ∈ slots, s.name ≠ k) (r : σ) : (written slots r).lookup k = none := by
  rw [lookup_eq_none_iff_notMem]
  intro member
  obtain ⟨m, inside, rfl⟩ := List.mem_map.mp member
  obtain ⟨s, among, own⟩ := List.mem_flatMap.mp inside
  obtain ⟨v, -, rfl⟩ := List.mem_map.mp own
  exact foreign s among rfl

theorem lookup_written {slots : List (Slot σ)} (names : (slots.map (·.name)).Nodup) {s : Slot σ}
    (member : s ∈ slots) (r : σ) : (written slots r).lookup s.name = s.member? r := by
  induction slots with
  | nil => cases member
  | cons t slots ih =>
      rw [List.map_cons, List.nodup_cons] at names
      rw [written, List.flatMap_cons, List.lookup_append]
      rcases List.mem_cons.mp member with rfl | member
      · have foreign : ∀ u ∈ slots, u.name ≠ s.name := fun u inside same =>
          names.1 (List.mem_map.mpr ⟨u, inside, same⟩)
        rw [← written, lookup_written_of_foreign foreign]
        cases s.member? r <;> simp
      · have differs : s.name ≠ t.name := fun same =>
          names.1 (List.mem_map.mpr ⟨s, member, same⟩)
        rw [← written, ih names.2 member]
        cases t.member? r <;> simp [lookup_cons_eq_ite, differs]

theorem nodup_written {slots : List (Slot σ)} (names : (slots.map (·.name)).Nodup) (r : σ) :
    ((written slots r).map (·.1)).Nodup := by
  have keys : ((written slots r).map (·.1)).Sublist (slots.map (·.name)) := by
    clear names
    induction slots with
    | nil => exact .slnil
    | cons s slots ih =>
        rw [written, List.flatMap_cons, List.map_append, ← written, List.map_cons]
        cases s.member? r with
        | none => exact ih.cons _
        | some v => exact ih.cons_cons _
  exact names.sublist keys

/-- What a record holds in its slots, told by the members found under their names. -/
structure Held (slots : List (Slot σ)) (blank : σ) (depth : Nat) (found : String → Option Doc)
    (r : σ) : Prop where
  given : ∀ s ∈ slots, ∀ d, found s.name = some d → s.item depth d = .ok (s.get r)
  missing : ∀ s ∈ slots, found s.name = none → s.required = false ∧ s.get r = s.get blank

theorem Held.get_eq {slots : List (Slot σ)} {blank : σ} {depth : Nat} {found : String → Option Doc}
    {r r' : σ} (held : Held slots blank depth found r) (held' : Held slots blank depth found r')
    {s : Slot σ} (member : s ∈ slots) : s.get r = s.get r' := by
  cases present : found s.name with
  | some d =>
      have same := (held.given s member d present).symm.trans (held'.given s member d present)
      exact Except.ok.inj same
  | none => rw [(held.missing s member present).2, (held'.missing s member present).2]

def Obtained (s : Slot σ) (blank : σ) (depth : Nat) (r : σ) : Prop :=
  (∃ d, s.item depth d = .ok (s.get r)) ∨ s.required = false ∧ s.get r = s.get blank

theorem Held.obtained {slots : List (Slot σ)} {blank : σ} {depth : Nat}
    {found : String → Option Doc} {r : σ} (held : Held slots blank depth found r) {s : Slot σ}
    (member : s ∈ slots) : s.Obtained blank depth r := by
  cases present : found s.name with
  | some d => exact .inl ⟨d, held.given s member d present⟩
  | none => exact .inr (held.missing s member present)

structure Returns (s : Slot σ) (blank : σ) (depth : Nat) (r r' : σ) : Prop where
  again : ∀ v, s.member? r = some v → s.item depth (.ofJson v) = .ok (s.get r')
  omitted : s.member? r = none → s.required = false ∧ s.get r' = s.get blank
  readable : ∀ v, s.member? r = some v → v.Readable depth

theorem Returns.congr {s : Slot σ} {blank : σ} {depth : Nat} {r r' r'' : σ}
    (returns : s.Returns blank depth r r') (same : s.get r'' = s.get r') :
    s.Returns blank depth r r'' where
  again v own := same ▸ returns.again v own
  omitted left := same ▸ returns.omitted left
  readable := returns.readable

end Slot

namespace Record

variable {slots : List (Slot σ)} {other : Nat → String → Doc → σ → Except Flaw σ} {depth : Nat}
  {blank : σ} {ms : List (Option String × Doc)} {ending : Option Flaw} {r : σ}

theorem ofMembers_eq_ok_iff : ofMembers (slots.map Slot.field) other blank depth ms ending = .ok r ↔
    ending = none ∧ ∃ done,
      takeMembers (slots.map Slot.field) other depth ⟨blank, []⟩ ms = .ok done ∧
      (∀ s ∈ slots, s.required = true → s.name ∈ done.given) ∧ done.record = r := by
  unfold ofMembers
  rw [bind_eq_ok_iff]
  constructor
  · rintro ⟨done, taken, later⟩
    obtain ⟨_, ended, completed⟩ := bind_eq_ok_iff.mp later
    exact ⟨proceed_eq_ok_iff.mp ended, done, taken, complete_eq_ok_iff.mp completed⟩
  · rintro ⟨rfl, done, taken, completed⟩
    exact ⟨done, taken, complete_eq_ok_iff.mpr completed⟩

theorem held_of_ofMembers (apart : Slot.Apart slots)
    (keeps : ∀ {key d r r'}, other depth key d r = .ok r' → ∀ s ∈ slots, s.get r' = s.get r)
    (read : ofMembers (slots.map Slot.field) other blank depth ms ending = .ok r) :
    Slot.Held slots blank depth (fun k => ms.reverse.lookup (some k)) r := by
  obtain ⟨-, done, taken, completed, rfl⟩ := ofMembers_eq_ok_iff.mp read
  constructor
  · intro s member d found
    exact ((slot_of_takeMembers apart keeps taken member).1 d found).1
  · intro s member absent
    obtain ⟨kept, given⟩ := (slot_of_takeMembers apart keeps taken member).2 absent
    refine ⟨?_, kept⟩
    cases required : s.required with
    | false => rfl
    | true => simpa using given.mp (completed s member required)

theorem exists_ofMembers (apart : Slot.Apart slots)
    (keeps : ∀ {key d r r'}, other depth key d r = .ok r' → ∀ s ∈ slots, s.get r' = s.get r)
    (keyed : ∀ m ∈ ms, m.1 ≠ none) (distinct : (ms.map (·.1)).Nodup)
    (known : ∀ s ∈ slots, ∀ d, ms.lookup (some s.name) = some d → ∃ x, s.item depth d = .ok x)
    (required : ∀ s ∈ slots, ms.lookup (some s.name) = none → s.required = false)
    (unknown : ∀ k, (∀ s ∈ slots, s.name ≠ k) → ∀ d, ms.lookup (some k) = some d →
      ∀ r, ∃ r', other depth k d r = .ok r') :
    ∃ r, ofMembers (slots.map Slot.field) other blank depth ms none = .ok r := by
  obtain ⟨done, taken⟩ :
      ∃ done, takeMembers (slots.map Slot.field) other depth ⟨blank, []⟩ ms = .ok done :=
    exists_takeMembers apart keyed distinct (by simp)
      (fun s member d inside => known s member d ((lookup_eq_some_iff_mem distinct).mpr inside))
      (fun k foreign d inside => unknown k foreign d ((lookup_eq_some_iff_mem distinct).mpr inside))
  refine ⟨done.record, ofMembers_eq_ok_iff.mpr ⟨rfl, done, taken, ?_, rfl⟩⟩
  intro s member needed
  cases found : ms.lookup (some s.name) with
  | none => simp [required s member found] at needed
  | some d =>
      rw [← lookup_reverse distinct] at found
      exact ((slot_of_takeMembers apart keeps taken member).1 d found).2

/-! A record that is written as the row of its values. -/

theorem takeItems_nil_eq_ok_iff {s : Slot σ} {start : σ} :
    takeItems depth ending ((s :: slots).map Slot.field) start [] = .ok r ↔
      ending = none ∧ s.required = false ∧
        takeItems depth ending (slots.map Slot.field) start [] = .ok r := by
  rw [List.map_cons, takeItems, bind_eq_ok_iff]
  cases needed : s.required <;> simp [Slot.field, needed]

theorem takeItems_cons_eq_ok_iff {s : Slot σ} {start : σ} {d : Doc} {ds : List Doc} :
    takeItems depth ending ((s :: slots).map Slot.field) start (d :: ds) = .ok r ↔
      ∃ x, s.item depth d = .ok x ∧
        takeItems depth ending (slots.map Slot.field) (s.put x start) ds = .ok r := by
  rw [List.map_cons, takeItems, bind_eq_ok_iff]
  simp [Slot.field]

theorem get_of_takeItems {t : Slot σ}
    (frame : ∀ s ∈ slots, ∀ x r, t.get (s.put x r) = t.get r) {start : σ} {ds : List Doc}
    (taken : takeItems depth ending (slots.map Slot.field) start ds = .ok r) :
    t.get r = t.get start := by
  induction slots generalizing start ds with
  | nil =>
      cases ds with
      | nil =>
          obtain ⟨_, -, same⟩ := bind_eq_ok_iff.mp taken
          rw [pure_eq_ok_iff.mp same]
      | cons d ds => cases taken
  | cons s slots ih =>
      have later := fun s member => frame s (List.mem_cons_of_mem _ member)
      cases ds with
      | nil => exact ih later (takeItems_nil_eq_ok_iff.mp taken).2.2
      | cons d ds =>
          obtain ⟨x, -, taken⟩ := takeItems_cons_eq_ok_iff.mp taken
          rw [ih later taken, frame s (by simp)]

theorem held_of_takeItems (apart : Slot.Apart slots) {start : σ} {ds : List Doc}
    (taken : takeItems depth ending (slots.map Slot.field) start ds = .ok r) :
    ending = none ∧
      Slot.Held slots start depth (fun k => ((slots.map (·.name)).zip ds).lookup k) r := by
  induction slots generalizing start ds with
  | nil =>
      cases ds with
      | nil =>
          obtain ⟨_, ended, -⟩ := bind_eq_ok_iff.mp taken
          exact ⟨proceed_eq_ok_iff.mp ended, by simp, by simp⟩
      | cons d ds => cases taken
  | cons s slots ih =>
      obtain ⟨fresh, names⟩ := List.nodup_cons.mp apart.names
      obtain ⟨frame, pairs⟩ := List.pairwise_cons.mp apart.get_put_of_ne
      have apart' : Slot.Apart slots :=
        ⟨names, fun t member => apart.get_put t (List.mem_cons_of_mem _ member), pairs⟩
      -- a value goes to the first slot; the values behind it leave that slot alone
      have unmoved := fun t member => (frame t member).2
      cases ds with
      | nil =>
          obtain ⟨ended, optional, rest⟩ := takeItems_nil_eq_ok_iff.mp taken
          refine ⟨ended, by simp, ?_⟩
          intro t member _
          rcases List.mem_cons.mp member with rfl | member
          · exact ⟨optional, get_of_takeItems unmoved rest⟩
          · exact (ih apart' rest).2.missing t member (by simp)
      | cons d ds =>
          obtain ⟨x, read, rest⟩ := takeItems_cons_eq_ok_iff.mp taken
          obtain ⟨ended, held⟩ := ih apart' rest
          have others : ∀ t ∈ slots, ((s :: slots).map (·.name) |>.zip (d :: ds)).lookup t.name =
              ((slots.map (·.name)).zip ds).lookup t.name := by
            intro t member
            have differs : t.name ≠ s.name := fun same =>
              fresh (List.mem_map.mpr ⟨t, member, same⟩)
            rw [List.map_cons, List.zip_cons_cons, lookup_cons_eq_ite, if_neg differs]
          refine ⟨ended, ?_, ?_⟩
          · intro t member d' found
            rcases List.mem_cons.mp member with rfl | member
            · obtain rfl : d = d' := by simpa using found
              rw [get_of_takeItems unmoved rest, apart.get_put t (by simp), read]
            · exact held.given t member d' (others t member ▸ found)
          · intro t member absent
            rcases List.mem_cons.mp member with rfl | member
            · simp at absent
            · obtain ⟨optional, kept⟩ := held.missing t member (others t member ▸ absent)
              exact ⟨optional, kept.trans ((frame t member).1 x start)⟩

end Record

end RelayControl.Json
