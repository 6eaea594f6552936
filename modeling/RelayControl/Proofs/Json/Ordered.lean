import Mathlib.Data.List.Forall2
import RelayControl.Proofs.Json.Members

/-!
Values up to the order of their members. A tree that is read as a value keeps the last member of
each key and puts the members in order; the tree of that value is read as the same value again.
-/

namespace RelayControl.Json

mutual

def ordered : Json → Json
  | .array xs => .array (orderedItems xs)
  | .object ms => .object (Members.ofList (orderedMembers ms))
  | v => v

def orderedItems : List Json → List Json
  | [] => []
  | x :: xs => ordered x :: orderedItems xs

def orderedMembers : List (String × Json) → List (String × Json)
  | [] => []
  | (k, v) :: ms => (k, ordered v) :: orderedMembers ms

end

mutual

/-- No object in a value has two members of one key. -/
def Distinct : Json → Prop
  | .array xs => DistinctItems xs
  | .object ms => (ms.map (·.1)).Nodup ∧ DistinctMembers ms
  | _ => True

def DistinctItems : List Json → Prop
  | [] => True
  | x :: xs => Distinct x ∧ DistinctItems xs

def DistinctMembers : List (String × Json) → Prop
  | [] => True
  | (_, v) :: ms => Distinct v ∧ DistinctMembers ms

end

theorem orderedItems_eq_map (xs : List Json) : orderedItems xs = xs.map ordered := by
  induction xs with
  | nil => rfl
  | cons x xs ih => rw [orderedItems, ih, List.map_cons]

theorem orderedMembers_eq_map (ms : List (String × Json)) :
    orderedMembers ms = ms.map fun m => (m.1, m.2.ordered) := by
  induction ms with
  | nil => rfl
  | cons m ms ih => rw [orderedMembers, ih, List.map_cons]

theorem ordered_array (xs : List Json) : (array xs).ordered = .array (xs.map ordered) := by
  rw [ordered, orderedItems_eq_map]

theorem ordered_object (ms : List (String × Json)) :
    (object ms).ordered = .object (Members.ofList (ms.map fun m => (m.1, m.2.ordered))) := by
  rw [ordered, orderedMembers_eq_map]

theorem distinctItems_iff {xs : List Json} : DistinctItems xs ↔ ∀ x ∈ xs, x.Distinct := by
  induction xs with
  | nil => simp [DistinctItems]
  | cons x xs ih => simp [DistinctItems, ih]

theorem distinctMembers_iff {ms : List (String × Json)} :
    DistinctMembers ms ↔ ∀ m ∈ ms, m.2.Distinct := by
  induction ms with
  | nil => simp [DistinctMembers]
  | cons m ms ih => simp [DistinctMembers, ih]

theorem distinct_array {xs : List Json} : (array xs).Distinct ↔ ∀ x ∈ xs, x.Distinct := by
  rw [Distinct, distinctItems_iff]

theorem distinct_object {ms : List (String × Json)} :
    (object ms).Distinct ↔ (ms.map (·.1)).Nodup ∧ ∀ m ∈ ms, m.2.Distinct := by
  rw [Distinct, distinctMembers_iff]

theorem nodup_map_values {f : Json → Json} {ms : List (String × Json)}
    (distinct : (ms.map (·.1)).Nodup) : ((ms.map fun m => (m.1, f m.2)).map (·.1)).Nodup := by
  rwa [List.map_map]

theorem ordered_object_congr {ms ns : List (String × Json)} (distinct : (ms.map (·.1)).Nodup)
    (distinct' : (ns.map (·.1)).Nodup)
    (same : ∀ k, (ms.lookup k).map ordered = (ns.lookup k).map ordered) :
    (object ms).ordered = (object ns).ordered := by
  rw [ordered_object, ordered_object]
  congr 1
  apply (Members.sorted_ofList _).ext (Members.sorted_ofList _)
  intro k
  rw [Members.lookup_ofList (nodup_map_values distinct),
    Members.lookup_ofList (nodup_map_values distinct'), lookup_map_values, lookup_map_values, same]

mutual

@[simp] theorem ordered_ordered : ∀ v : Json, v.ordered.ordered = v.ordered
  | .null => rfl
  | .bool _ => rfl
  | .number _ => rfl
  | .text _ => rfl
  | .array xs => by
      rw [ordered, ordered, orderedItems_orderedItems xs]
  | .object ms => by
      rw [ordered, ordered_object, Members.ofList_map, ← orderedMembers_eq_map,
        orderedMembers_orderedMembers ms, Members.ofList_ofList]

theorem orderedItems_orderedItems : ∀ xs, orderedItems (orderedItems xs) = orderedItems xs
  | [] => rfl
  | x :: xs => by
      rw [orderedItems, orderedItems, ordered_ordered x, orderedItems_orderedItems xs]

theorem orderedMembers_orderedMembers :
    ∀ ms, orderedMembers (orderedMembers ms) = orderedMembers ms
  | [] => rfl
  | (k, v) :: ms => by
      rw [orderedMembers, orderedMembers, ordered_ordered v, orderedMembers_orderedMembers ms]

end

@[simp] theorem proceed_eq_ok_iff {ending : Option Flaw} {u : Unit} :
    proceed ending = .ok u ↔ ending = none := by
  cases ending <;> simp [proceed]

namespace Doc

def ReadsAs (depth : Nat) (m : Option String × Doc) (n : String × Json) : Prop :=
  m.1 = some n.1 ∧ m.2.toJson depth = .ok n.2

theorem toItems_eq_ok_iff {depth : Nat} {ds : List Doc} {vs : List Json} :
    toItems depth ds = .ok vs ↔ List.Forall₂ (fun d v => d.toJson depth = .ok v) ds vs := by
  induction ds generalizing vs with
  | nil => cases vs <;> simp [toItems]
  | cons d ds ih =>
      rw [toItems, bind_eq_ok_iff]
      constructor
      · rintro ⟨v, first, later⟩
        obtain ⟨vs', rest, same⟩ := bind_eq_ok_iff.mp later
        obtain rfl := pure_eq_ok_iff.mp same
        exact .cons first (ih.mp rest)
      · intro read
        cases read with
        | cons first rest => exact ⟨_, first, bind_eq_ok_iff.mpr ⟨_, ih.mpr rest, rfl⟩⟩

theorem toMembers_eq_ok_iff {depth : Nat} {ms : List (Option String × Doc)}
    {vs : List (String × Json)} :
    toMembers depth ms = .ok vs ↔ List.Forall₂ (ReadsAs depth) ms vs := by
  induction ms generalizing vs with
  | nil => cases vs <;> simp [toMembers]
  | cons m ms ih =>
      obtain ⟨_ | k, d⟩ := m
      · rw [toMembers]
        constructor
        · rintro ⟨⟩
        · rintro (_ | ⟨⟨⟨⟩, -⟩, -⟩)
      · rw [toMembers, bind_eq_ok_iff]
        constructor
        · rintro ⟨v, first, later⟩
          obtain ⟨vs', rest, same⟩ := bind_eq_ok_iff.mp later
          obtain rfl := pure_eq_ok_iff.mp same
          exact .cons ⟨rfl, first⟩ (ih.mp rest)
        · intro read
          cases read with
          | @cons _ n _ _ first rest =>
              obtain ⟨l, v⟩ := n
              obtain ⟨⟨⟩, first⟩ := first
              exact ⟨v, first, bind_eq_ok_iff.mpr ⟨_, ih.mpr rest, rfl⟩⟩

theorem toJson_items_eq_ok_iff {depth : Nat} {ds : List Doc} {ending : Option Flaw} {v : Json} :
    (items ds ending).toJson depth = .ok v ↔ depth < depthLimit ∧ ending = none ∧
      ∃ vs, List.Forall₂ (fun d v => d.toJson (depth + 1) = .ok v) ds vs ∧ v = .array vs := by
  rw [toJson]
  split
  · rename_i shallow
    rw [bind_eq_ok_iff]
    constructor
    · rintro ⟨vs, read, later⟩
      obtain ⟨_, ended, same⟩ := bind_eq_ok_iff.mp later
      exact ⟨shallow, proceed_eq_ok_iff.mp ended, vs, toItems_eq_ok_iff.mp read,
        (pure_eq_ok_iff.mp same).symm⟩
    · rintro ⟨-, rfl, vs, read, rfl⟩
      exact ⟨vs, toItems_eq_ok_iff.mpr read, rfl⟩
  · rename_i deep
    simp [deep]

theorem toJson_members_eq_ok_iff {depth : Nat} {ms : List (Option String × Doc)}
    {ending : Option Flaw} {v : Json} :
    (members ms ending).toJson depth = .ok v ↔ depth < depthLimit ∧ ending = none ∧
      ∃ vs, List.Forall₂ (ReadsAs (depth + 1)) ms vs ∧ v = .object (Members.ofList vs) := by
  rw [toJson]
  split
  · rename_i shallow
    rw [bind_eq_ok_iff]
    constructor
    · rintro ⟨vs, read, later⟩
      obtain ⟨_, ended, same⟩ := bind_eq_ok_iff.mp later
      exact ⟨shallow, proceed_eq_ok_iff.mp ended, vs, toMembers_eq_ok_iff.mp read,
        (pure_eq_ok_iff.mp same).symm⟩
    · rintro ⟨-, rfl, vs, read, rfl⟩
      exact ⟨vs, toMembers_eq_ok_iff.mpr read, rfl⟩
  · rename_i deep
    simp [deep]

theorem eq_null_of_toJson {d : Doc} {depth : Nat} (read : d.toJson depth = .ok .null) :
    d = .null := by
  cases d with
  | null => rfl
  | items ds ending =>
      obtain ⟨-, -, vs, -, ⟨⟩⟩ := toJson_items_eq_ok_iff.mp read
  | members ms ending =>
      obtain ⟨-, -, vs, -, ⟨⟩⟩ := toJson_members_eq_ok_iff.mp read
  | _ => cases read

mutual

theorem ofJson_injective : ∀ {v w : Json}, ofJson v = ofJson w → v = w
  | .null, w, same => by cases w <;> cases same; rfl
  | .bool _, w, same => by cases w <;> cases same; rfl
  | .number _, w, same => by cases w <;> cases same; rfl
  | .text _, w, same => by cases w <;> cases same; rfl
  | .array xs, w, same => by
      cases w with
      | array ys => rw [ofItems_injective (Doc.items.inj same).1]
      | _ => cases same
  | .object ms, w, same => by
      cases w with
      | object ns => rw [ofMembers_injective (Doc.members.inj same).1]
      | _ => cases same

theorem ofItems_injective : ∀ {xs ys : List Json}, ofItems xs = ofItems ys → xs = ys
  | [], ys, same => by cases ys <;> cases same; rfl
  | x :: xs, ys, same => by
      cases ys with
      | nil => cases same
      | cons y ys =>
          obtain ⟨first, rest⟩ := List.cons.inj same
          rw [ofJson_injective first, ofItems_injective rest]

theorem ofMembers_injective : ∀ {ms ns : List (String × Json)},
    ofMembers ms = ofMembers ns → ms = ns
  | [], ns, same => by cases ns <;> cases same; rfl
  | (k, v) :: ms, ns, same => by
      cases ns with
      | nil => cases same
      | cons n ns =>
          obtain ⟨l, w⟩ := n
          obtain ⟨first, rest⟩ := List.cons.inj same
          obtain ⟨⟨⟩, value⟩ := Prod.mk.inj first
          rw [ofJson_injective value, ofMembers_injective rest]

end

theorem ofItems_eq_map (xs : List Json) : ofItems xs = xs.map ofJson := by
  induction xs with
  | nil => rfl
  | cons x xs ih => rw [ofItems, ih, List.map_cons]

theorem ofMembers_eq_map (ms : List (String × Json)) :
    ofMembers ms = ms.map fun m => (some m.1, ofJson m.2) := by
  induction ms with
  | nil => rfl
  | cons m ms ih => rw [ofMembers, ih, List.map_cons]

theorem lookup_ofMembers (ms : List (String × Json)) (k : String) :
    (ofMembers ms).lookup (some k) = (ms.lookup k).map ofJson := by
  induction ms with
  | nil => rfl
  | cons m ms ih =>
      obtain ⟨l, v⟩ := m
      rw [ofMembers, lookup_cons_eq_ite, lookup_cons_eq_ite, ih]
      by_cases own : k = l <;> simp [own]

theorem keyed_ofMembers {ms : List (String × Json)} : ∀ m ∈ ofMembers ms, m.1 ≠ none := by
  rw [ofMembers_eq_map, List.forall_mem_map]
  exact fun _ _ => Option.some_ne_none _

theorem nodup_ofMembers {ms : List (String × Json)} (distinct : (ms.map (·.1)).Nodup) :
    ((ofMembers ms).map (·.1)).Nodup := by
  have keys : (ofMembers ms).map (·.1) = (ms.map (·.1)).map some := by
    simp [ofMembers_eq_map]
  rw [keys]
  exact distinct.map fun _ _ => Option.some.inj

mutual

theorem toJson_ofJson : ∀ {v : Json} {depth : Nat} {w : Json},
    (ofJson v).toJson depth = .ok w → w = v.ordered
  | .null, _, _, read => by cases read; rfl
  | .bool _, _, _, read => by cases read; rfl
  | .number _, _, _, read => by cases read; rfl
  | .text _, _, _, read => by cases read; rfl
  | .array xs, _, _, read => by
      rw [ofJson, toJson_items_eq_ok_iff] at read
      obtain ⟨-, -, vs, read, rfl⟩ := read
      rw [ordered, toItems_ofItems (toItems_eq_ok_iff.mpr read)]
  | .object ms, _, _, read => by
      rw [ofJson, toJson_members_eq_ok_iff] at read
      obtain ⟨-, -, vs, read, rfl⟩ := read
      rw [ordered, toMembers_ofMembers (toMembers_eq_ok_iff.mpr read)]

theorem toItems_ofItems : ∀ {xs : List Json} {depth : Nat} {vs : List Json},
    toItems depth (ofItems xs) = .ok vs → vs = orderedItems xs
  | [], _, _, read => by cases read; rfl
  | x :: xs, _, _, read => by
      rw [ofItems, toItems_eq_ok_iff] at read
      cases read with
      | cons first rest =>
          rw [orderedItems, toJson_ofJson first, toItems_ofItems (toItems_eq_ok_iff.mpr rest)]

theorem toMembers_ofMembers : ∀ {ms : List (String × Json)} {depth : Nat}
    {vs : List (String × Json)}, toMembers depth (ofMembers ms) = .ok vs → vs = orderedMembers ms
  | [], _, _, read => by cases read; rfl
  | (k, v) :: ms, _, _, read => by
      rw [ofMembers, toMembers_eq_ok_iff] at read
      cases read with
      | @cons _ n _ _ first rest =>
          obtain ⟨l, w⟩ := n
          obtain ⟨⟨⟩, first⟩ := first
          obtain rfl : w = v.ordered := toJson_ofJson first
          rw [orderedMembers, toMembers_ofMembers (toMembers_eq_ok_iff.mpr rest)]

end

mutual

theorem toJson_ofJson_of_toJson : ∀ {d : Doc} {depth : Nat} {v : Json},
    d.toJson depth = .ok v → (ofJson v).toJson depth = .ok v
  | .flawed _ _, _, _, read => by cases read
  | .null, _, _, read => by cases read; rfl
  | .bool _, _, _, read => by cases read; rfl
  | .number _, _, _, read => by cases read; rfl
  | .text _, _, _, read => by cases read; rfl
  | .items ds _, depth, _, read => by
      obtain ⟨shallow, -, vs, items, rfl⟩ := toJson_items_eq_ok_iff.mp read
      rw [ofJson, toJson_items_eq_ok_iff]
      exact ⟨shallow, rfl, vs, toItems_eq_ok_iff.mp (toItems_ofItems_of_toItems
        (toItems_eq_ok_iff.mpr items)), rfl⟩
  | .members ms _, depth, _, read => by
      obtain ⟨shallow, -, vs, members, rfl⟩ := toJson_members_eq_ok_iff.mp read
      have again := toMembers_ofMembers_of_toMembers (toMembers_eq_ok_iff.mpr members)
      rw [ofJson, toJson_members_eq_ok_iff]
      refine ⟨shallow, rfl, Members.ofList vs, ?_, by rw [Members.ofList_ofList]⟩
      rw [ofMembers_eq_map, List.forall₂_map_left_iff, List.forall₂_same]
      intro n inside
      exact ⟨rfl, again n (Members.mem_of_mem_ofList inside)⟩

theorem toItems_ofItems_of_toItems : ∀ {ds : List Doc} {depth : Nat} {vs : List Json},
    toItems depth ds = .ok vs → toItems depth (ofItems vs) = .ok vs
  | [], _, _, read => by cases read; rfl
  | d :: ds, depth, _, read => by
      rw [toItems_eq_ok_iff] at read
      cases read with
      | cons first rest =>
          rw [ofItems, toItems_eq_ok_iff]
          exact .cons (toJson_ofJson_of_toJson first) (toItems_eq_ok_iff.mp
            (toItems_ofItems_of_toItems (toItems_eq_ok_iff.mpr rest)))

theorem toMembers_ofMembers_of_toMembers : ∀ {ms : List (Option String × Doc)} {depth : Nat}
    {vs : List (String × Json)}, toMembers depth ms = .ok vs →
    ∀ n ∈ vs, (ofJson n.2).toJson depth = .ok n.2
  | [], _, _, read => by cases read; simp
  | m :: ms, depth, _, read => by
      rw [toMembers_eq_ok_iff] at read
      cases read with
      | cons first rest =>
          intro n inside
          rcases List.mem_cons.mp inside with rfl | inside
          · exact toJson_ofJson_of_toJson first.2
          · exact toMembers_ofMembers_of_toMembers (toMembers_eq_ok_iff.mpr rest) n inside

end

mutual

theorem skip_ofJson : ∀ v : Json, (ofJson v).skip = .ok ()
  | .null => rfl
  | .bool _ => rfl
  | .number _ => rfl
  | .text _ => rfl
  | .array xs => by
      rw [ofJson, skip, skipItems_ofItems xs]
      rfl
  | .object ms => by
      rw [ofJson, skip, skipMembers_ofMembers ms]
      rfl

theorem skipItems_ofItems : ∀ xs : List Json, skipItems (ofItems xs) = .ok ()
  | [] => rfl
  | x :: xs => by
      rw [ofItems, skipItems, skip_ofJson x, skipItems_ofItems xs]
      rfl

theorem skipMembers_ofMembers : ∀ ms : List (String × Json), skipMembers (ofMembers ms) = .ok ()
  | [] => rfl
  | (_, v) :: ms => by
      rw [ofMembers, skipMembers, skip_ofJson v, skipMembers_ofMembers ms]
      rfl

end

end Doc

/-- The tree of a value can be read at a depth. -/
def Readable (depth : Nat) (v : Json) : Prop := (Doc.ofJson v).toJson depth = .ok v.ordered

theorem readable_of_toJson {d : Doc} {depth : Nat} {v : Json} (read : d.toJson depth = .ok v) :
    v.Readable depth := by
  have again := Doc.toJson_ofJson_of_toJson read
  rwa [Readable, ← Doc.toJson_ofJson again]

theorem readable_array {depth : Nat} {xs : List Json} (shallow : depth < depthLimit)
    (each : ∀ x ∈ xs, x.Readable (depth + 1)) : (array xs).Readable depth := by
  rw [Readable, Doc.ofJson, Doc.ofItems_eq_map, Doc.toJson_items_eq_ok_iff]
  refine ⟨shallow, rfl, xs.map ordered, ?_, ordered_array xs⟩
  rwa [List.forall₂_map_left_iff, List.forall₂_map_right_iff, List.forall₂_same]

theorem readable_object {depth : Nat} {ms : List (String × Json)} (shallow : depth < depthLimit)
    (each : ∀ m ∈ ms, m.2.Readable (depth + 1)) : (object ms).Readable depth := by
  rw [Readable, Doc.ofJson, Doc.ofMembers_eq_map, Doc.toJson_members_eq_ok_iff]
  refine ⟨shallow, rfl, ms.map fun m => (m.1, m.2.ordered), ?_, ordered_object ms⟩
  rw [List.forall₂_map_left_iff, List.forall₂_map_right_iff, List.forall₂_same]
  exact fun m member => ⟨rfl, each m member⟩

end RelayControl.Json
