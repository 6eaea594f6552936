import RelayControl.Proofs.Json.Ordered

/-!
What the decoders of values, lists and objects accept, and what they make of it; and how such values
are written.
-/

namespace RelayControl.Json

def word (n : UInt32) : Json := .nat n.toNat

def byte (n : UInt8) : Json := .nat n.toNat

def items {α : Type} (toJson : α → Json) (xs : List α) : Json := .array (xs.map toJson)

def entries {α : Type} (toJson : α → Json) (xs : List (String × α)) : Json :=
  .object (xs.map fun (k, x) => (k, toJson x))

namespace Decoder

variable {α : Type} {item : Decoder α} {depth : Nat} {d : Doc}

theorem text_eq_ok_iff {s : String} : text depth d = .ok s ↔ d = .text s := by
  cases d <;> simp [text]

theorem bool_eq_ok_iff {b : Bool} : bool depth d = .ok b ↔ d = .bool b := by
  cases d <;> simp [bool]

theorem whole_eq_ok {low high i : Int} (read : whole low high depth d = .ok i) :
    low ≤ i ∧ i ≤ high ∧ ∃ fits, d = .number (.whole i fits) := by
  cases d with
  | number n =>
      cases n with
      | whole j fits =>
          rw [whole, Number.toInt?_whole] at read
          dsimp only at read
          split at read
          · cases read
            rename_i bounds
            exact ⟨bounds.1, bounds.2, fits, rfl⟩
          · cases read
      | float x => cases read
  | _ => cases read

theorem natural_eq_ok {bits n : Nat} (read : natural bits depth d = .ok n) :
    n < 2 ^ bits ∧ ∃ fits, d = .number (.whole n fits) := by
  obtain ⟨i, found, rfl⟩ := RelayControl.map_eq_ok_iff.mp read
  obtain ⟨nonneg, bounded, fits, rfl⟩ := whole_eq_ok found
  lift i to Nat using nonneg
  rw [Int.toNat_natCast]
  refine ⟨?_, fits, rfl⟩
  have positive : 0 < 2 ^ bits := Nat.two_pow_pos bits
  rw [Nat.pow_eq] at bounded
  omega

theorem nat_eq (n : Nat) (fits : fitsWord n = true) : nat n = .number (.whole n fits) := by
  rw [nat, int, Number.ofInt?, dif_pos fits]

theorem word32_eq_ok {w : UInt32} (read : word32 depth d = .ok w) : d = .ofJson (word w) := by
  obtain ⟨n, found, rfl⟩ := RelayControl.map_eq_ok_iff.mp read
  obtain ⟨bounded, fits, rfl⟩ := natural_eq_ok found
  rw [word, UInt32.toNat_ofNat_of_lt' bounded, nat_eq n fits]
  rfl

theorem byte_eq_ok {b : UInt8} (read : byte depth d = .ok b) : d = .ofJson (Json.byte b) := by
  obtain ⟨n, found, rfl⟩ := RelayControl.map_eq_ok_iff.mp read
  obtain ⟨bounded, fits, rfl⟩ := natural_eq_ok found
  rw [Json.byte, UInt8.toNat_ofNat_of_lt' bounded, nat_eq n fits]
  rfl

theorem optional_eq_ok_iff {v? : Option α} : optional item depth d = .ok v? ↔
    (d = .null ∧ v? = none) ∨ d ≠ .null ∧ ∃ x, item depth d = .ok x ∧ some x = v? := by
  cases d with
  | null => simp [optional, eq_comm]
  | _ => simp [optional]

theorem members_eq_ok_iff {ms : Members} :
    members depth d = .ok ms ↔ json depth d = .ok (.object ms) := by
  cases d with
  | members ns ending =>
      rw [members, bind_eq_ok_iff]
      constructor
      · rintro ⟨v, read, same⟩
        cases v <;> cases same
        exact read
      · exact fun read => ⟨_, read, rfl⟩
  | items ds ending =>
      constructor
      · rintro ⟨⟩
      · intro read
        obtain ⟨-, -, vs, -, ⟨⟩⟩ := Doc.toJson_items_eq_ok_iff.mp read
  | _ => simp [members, json, Doc.toJson]

theorem listItems_eq_ok_iff {ds : List Doc} {xs : List α} :
    listItems item depth ds = .ok xs ↔ List.Forall₂ (fun d x => item depth d = .ok x) ds xs := by
  induction ds generalizing xs with
  | nil => cases xs <;> simp [listItems]
  | cons d ds ih =>
      rw [listItems, bind_eq_ok_iff]
      constructor
      · rintro ⟨x, first, later⟩
        obtain ⟨xs', rest, same⟩ := bind_eq_ok_iff.mp later
        obtain rfl := pure_eq_ok_iff.mp same
        exact .cons first (ih.mp rest)
      · intro read
        cases read with
        | cons first rest => exact ⟨_, first, bind_eq_ok_iff.mpr ⟨_, ih.mpr rest, rfl⟩⟩

theorem list_eq_ok_iff {xs : List α} : list item depth d = .ok xs ↔ depth < depthLimit ∧
    ∃ ds, d = .items ds none ∧ List.Forall₂ (fun d x => item (depth + 1) d = .ok x) ds xs := by
  cases d with
  | items ds ending =>
      rw [list]
      split
      · rename_i shallow
        rw [bind_eq_ok_iff]
        constructor
        · rintro ⟨ys, read, later⟩
          obtain ⟨_, ended, same⟩ := bind_eq_ok_iff.mp later
          obtain rfl := pure_eq_ok_iff.mp same
          obtain rfl := proceed_eq_ok_iff.mp ended
          exact ⟨shallow, ds, rfl, listItems_eq_ok_iff.mp read⟩
        · rintro ⟨-, _, ⟨⟩, read⟩
          exact ⟨xs, listItems_eq_ok_iff.mpr read, rfl⟩
      · rename_i deep
        simp [deep]
  | _ => simp [list]

/-- A member of a tree and a value that a decoder makes of it. -/
def MakesOf (item : Decoder α) (depth : Nat) (m : Option String × Doc) (x : String × α) : Prop :=
  m.1 = some x.1 ∧ item depth m.2 = .ok x.2

theorem lookup_makesOf {ms : List (Option String × Doc)} {xs : List (String × α)}
    (each : List.Forall₂ (MakesOf item depth) ms xs) (k : String) :
    Option.Rel (fun d x => item depth d = .ok x) (ms.lookup (some k)) (xs.lookup k) := by
  induction each with
  | nil => exact .none
  | @cons m n ms xs first _ ih =>
      obtain ⟨key?, d⟩ := m
      obtain ⟨l, x⟩ := n
      obtain ⟨rfl, first⟩ : key? = some l ∧ item depth d = .ok x := first
      rw [lookup_cons_eq_ite, lookup_cons_eq_ite]
      by_cases own : k = l
      · rw [if_pos (congrArg some own), if_pos own]
        exact .some first
      · rw [if_neg (mt Option.some.inj own), if_neg own]
        exact ih

theorem mapMembers_eq_ok_iff {acc xs : List (String × α)} {ms : List (Option String × Doc)} :
    mapMembers item depth acc ms = .ok xs ↔
      ∃ entries, List.Forall₂ (MakesOf item depth) ms entries ∧
      xs = entries.foldl (fun acc m => Members.insert m.1 m.2 acc) acc := by
  induction ms generalizing acc with
  | nil => simp [mapMembers, eq_comm]
  | cons m ms ih =>
      obtain ⟨_ | k, d⟩ := m
      · rw [mapMembers]
        constructor
        · rintro ⟨⟩
        · rintro ⟨_, _ | ⟨⟨⟨⟩, -⟩, -⟩, -⟩
      · rw [mapMembers, bind_eq_ok_iff]
        constructor
        · rintro ⟨x, first, later⟩
          obtain ⟨entries, rest, rfl⟩ := ih.mp later
          exact ⟨(k, x) :: entries, .cons ⟨rfl, first⟩ rest, rfl⟩
        · rintro ⟨_, read, rfl⟩
          cases read with
          | @cons _ entry _ entries first rest =>
              obtain ⟨l, x⟩ := entry
              obtain ⟨⟨⟩, first⟩ := first
              exact ⟨x, first, ih.mpr ⟨entries, rest, rfl⟩⟩

theorem map_eq_ok_iff {xs : List (String × α)} : map item depth d = .ok xs ↔ depth < depthLimit ∧
    ∃ ms entries, d = .members ms none ∧ List.Forall₂ (MakesOf item (depth + 1)) ms entries ∧
      xs = Members.ofList entries := by
  cases d with
  | members ms ending =>
      rw [map]
      split
      · rename_i shallow
        rw [bind_eq_ok_iff]
        constructor
        · rintro ⟨ys, read, later⟩
          obtain ⟨_, ended, same⟩ := bind_eq_ok_iff.mp later
          obtain rfl := pure_eq_ok_iff.mp same
          obtain rfl := proceed_eq_ok_iff.mp ended
          obtain ⟨entries, made, rfl⟩ := mapMembers_eq_ok_iff.mp read
          exact ⟨shallow, ms, entries, rfl, made, rfl⟩
        · rintro ⟨-, _, entries, ⟨⟩, read, rfl⟩
          exact ⟨_, mapMembers_eq_ok_iff.mpr ⟨entries, read, rfl⟩, rfl⟩
      · rename_i deep
        simp [deep]
  | _ => simp [map]

theorem oneOf_eq_ok {first second : Decoder α} {x : α} (read : oneOf first second depth d = .ok x) :
    (∃ v, json depth d = .ok v) ∧ (first depth d = .ok x ∨
      (∃ e, first depth d = .error e) ∧ second depth d = .ok x) := by
  obtain ⟨v, sound, tried⟩ := bind_eq_ok_iff.mp read
  refine ⟨⟨v, sound⟩, ?_⟩
  split at tried
  · rename_i y found
    exact .inl (by rw [found, pure_eq_ok_iff.mp tried])
  · rename_i e failed
    split at tried
    · rename_i y found
      exact .inr ⟨⟨e, failed⟩, by rw [found, pure_eq_ok_iff.mp tried]⟩
    · cases tried

theorem oneOf_of_first {first second : Decoder α} {v : Json} {x : α}
    (sound : json depth d = .ok v) (found : first depth d = .ok x) :
    oneOf first second depth d = .ok x := by
  unfold oneOf
  rw [sound, found]
  rfl

theorem oneOf_of_second {first second : Decoder α} {v : Json} {x : α} {e : Flaw}
    (sound : json depth d = .ok v) (failed : first depth d = .error e)
    (found : second depth d = .ok x) : oneOf first second depth d = .ok x := by
  unfold oneOf
  rw [sound, failed, found]
  rfl

end Decoder

end RelayControl.Json
