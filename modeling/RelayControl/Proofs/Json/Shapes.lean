import RelayControl.Proofs.Json.Decoders
import RelayControl.Proofs.Json.Layout

/-!
The shape that a decoder asks for, told from the value alone: of the values that can be read and
repeat no key, a decoder takes those of its shape and refuses the others.
-/

namespace RelayControl.Json

abbrev Shape := Json → Bool

namespace Shape

def text : Shape
  | .text _ => true
  | _ => false

def whole (low high : Int) : Shape
  | .number (.whole i _) => low ≤ i ∧ i ≤ high
  | _ => false

def natural (bits : Nat) : Shape := whole 0 (Nat.pow 2 bits - 1)

def orNull (shape : Shape) : Shape
  | .null => true
  | v => shape v

def listOf (shape : Shape) : Shape
  | .array vs => vs.all shape
  | _ => false

structure Member where
  name : String
  required : Bool
  shape : Shape

def Member.mandatory (name : String) (shape : Shape) : Member := ⟨name, true, shape⟩

def Member.optional (name : String) (shape : Shape) : Member := ⟨name, false, orNull shape⟩

def withMembers (members : List Member) : Shape
  | .object ms =>
      members.all fun m =>
        match ms.lookup m.name with
        | some v => m.shape v
        | none => !m.required
  | _ => false

theorem withMembers_object {members : List Member} {ms : List (String × Json)} :
    withMembers members (.object ms) = true ↔ ∀ m ∈ members,
      (∀ v, ms.lookup m.name = some v → m.shape v = true) ∧
        (ms.lookup m.name = none → m.required = false) := by
  rw [withMembers, List.all_eq_true]
  refine forall₂_congr fun m _ => ?_
  cases ms.lookup m.name <;> simp

end Shape

section

variable {α : Type u} {β : Type v} {R : α → β → Prop} {as : List α} {bs : List β}

theorem exists_related (each : List.Forall₂ R as bs) {a : α} (member : a ∈ as) :
    ∃ b ∈ bs, R a b := by
  induction each with
  | nil => cases member
  | @cons a' b _ bs first _ ih =>
      rcases List.mem_cons.mp member with rfl | later
      · exact ⟨b, List.mem_cons_self, first⟩
      · obtain ⟨c, inside, related⟩ := ih later
        exact ⟨c, List.mem_cons_of_mem b inside, related⟩

theorem exists_forall₂_iff : (∃ bs, List.Forall₂ R as bs) ↔ ∀ a ∈ as, ∃ b, R a b := by
  induction as with
  | nil => simp
  | cons a as ih => simp [List.forall₂_cons_left_iff, ← ih]

end

section

variable {α β σ : Type} {item : Decoder α} {shape : Shape}

def Accepts (item : Decoder α) (shape : Shape) : Prop :=
  ∀ ⦃depth v⦄, v.Distinct → v.Readable depth →
    ((∃ x, item depth (.ofJson v) = .ok x) ↔ shape v = true)

theorem Accepts.map (accepts : Accepts item shape) (f : α → β) :
    Accepts (fun depth d => (item depth d).map f) shape := by
  intro depth v distinct readable
  rw [← accepts distinct readable]
  simp

theorem accepts_text : Accepts .text .text := by
  intro depth v _ _
  cases v <;> simp [Decoder.text, Doc.ofJson, Shape.text]

theorem accepts_whole (low high : Int) : Accepts (.whole low high) (.whole low high) := by
  intro depth v _ _
  cases v with
  | number n =>
      cases n with
      | whole i fits =>
          rw [Doc.ofJson, Decoder.whole, Number.toInt?_whole, Shape.whole]
          dsimp only
          split
          next inside => simp [inside]
          next outside => simp [outside]
      | float x => simp [Decoder.whole, Doc.ofJson, Shape.whole, Number.toInt?]
  | _ => simp [Decoder.whole, Doc.ofJson, Shape.whole]

theorem accepts_natural (bits : Nat) : Accepts (.natural bits) (.natural bits) :=
  (accepts_whole 0 (Nat.pow 2 bits - 1)).map Int.toNat

theorem accepts_word32 : Accepts .word32 (.natural 32) := (accepts_natural 32).map UInt32.ofNat

theorem accepts_byte : Accepts .byte (.natural 8) := (accepts_natural 8).map UInt8.ofNat

theorem accepts_optional (accepts : Accepts item shape) :
    Accepts (.optional item) (.orNull shape) := by
  intro depth v distinct readable
  have solid := accepts distinct readable
  cases v with
  | null => simp [Decoder.optional, Doc.ofJson, Shape.orNull]
  | _ => simpa [Decoder.optional, Doc.ofJson, Shape.orNull] using solid

theorem items_of_readable {depth : Nat} {vs : List Json} (readable : (array vs).Readable depth) :
    depth < depthLimit ∧ ∀ v ∈ vs, v.Readable (depth + 1) := by
  rw [Readable, Doc.ofJson, Doc.ofItems_eq_map, Doc.toJson_items_eq_ok_iff] at readable
  obtain ⟨shallow, -, ws, each, -⟩ := readable
  rw [List.forall₂_map_left_iff] at each
  refine ⟨shallow, fun v member => ?_⟩
  obtain ⟨w, -, read⟩ := exists_related each member
  rwa [Readable, ← Doc.toJson_ofJson read]

theorem members_of_readable {depth : Nat} {ms : List (String × Json)}
    (readable : (object ms).Readable depth) :
    depth < depthLimit ∧ ∀ m ∈ ms, m.2.Readable (depth + 1) := by
  rw [Readable, Doc.ofJson, Doc.ofMembers_eq_map, Doc.toJson_members_eq_ok_iff] at readable
  obtain ⟨shallow, -, ws, each, -⟩ := readable
  rw [List.forall₂_map_left_iff] at each
  refine ⟨shallow, fun m member => ?_⟩
  obtain ⟨w, -, -, read⟩ := exists_related each member
  rwa [Readable, ← Doc.toJson_ofJson read]

theorem accepts_list (accepts : Accepts item shape) : Accepts (.list item) (.listOf shape) := by
  intro depth v distinct readable
  cases v with
  | array vs =>
      obtain ⟨shallow, readable⟩ := items_of_readable readable
      rw [distinct_array] at distinct
      have each : ∀ v ∈ vs, (∃ x, item (depth + 1) (.ofJson v) = .ok x) ↔ shape v = true :=
        fun v member => accepts (distinct v member) (readable v member)
      rw [Shape.listOf, List.all_eq_true, ← forall₂_congr each, ← exists_forall₂_iff]
      simp [Decoder.list_eq_ok_iff, Doc.ofJson, Doc.ofItems_eq_map, shallow]
  | _ => simp [Decoder.list, Doc.ofJson, Shape.listOf]

structure Slot.Suits (s : Slot σ) (m : Shape.Member) : Prop where
  name : s.name = m.name
  required : s.required = m.required
  accepts : Accepts s.item m.shape

theorem Layout.accepts_opened {L : Layout σ} (keeps : L.Keeps) {members : List Shape.Member}
    (suits : List.Forall₂ Slot.Suits L.slots members) :
    Accepts L.opened (.withMembers members) := by
  intro depth v distinct readable
  cases v with
  | object ms =>
      obtain ⟨shallow, readable⟩ := members_of_readable readable
      rw [distinct_object] at distinct
      have keys := Doc.nodup_ofMembers distinct.1
      have accepted {s : Slot σ} {m : Shape.Member} (fits : s.Suits m) {v : Json}
          (present : ms.lookup m.name = some v) :=
        have inside := mem_of_lookup_eq_some present
        fits.accepts (distinct.2 _ inside) (readable _ inside)
      rw [Shape.withMembers_object]
      constructor
      · rintro ⟨r, read⟩ m member
        obtain ⟨-, _, ⟨⟩, holds⟩ := holds_of_opened keeps read
        simp only [lookup_reverse keys, Doc.lookup_ofMembers] at holds
        obtain ⟨s, among, fits⟩ := exists_related suits.flip member
        constructor
        · intro v present
          refine (accepted fits present).mp ⟨_, holds.given s among (.ofJson v) ?_⟩
          rw [fits.name, present]
          rfl
        · intro absent
          rw [← fits.required]
          refine (holds.missing s among ?_).1
          rw [fits.name, absent]
          rfl
      · intro shaped
        obtain ⟨r, read⟩ : ∃ r, Record.ofMembers (L.slots.map Slot.field) L.keepOther L.blank
            (depth + 1) (Doc.ofMembers ms) none = .ok r := by
          apply Record.exists_ofMembers keeps.apart (get_of_keepOther keeps) Doc.keyed_ofMembers keys
          · intro s among d found
            obtain ⟨m, member, fits⟩ := exists_related suits among
            rw [Doc.lookup_ofMembers, fits.name] at found
            obtain ⟨v, present, rfl⟩ := Option.map_eq_some_iff.mp found
            exact (accepted fits present).mpr ((shaped m member).1 v present)
          · intro s among absent
            obtain ⟨m, member, fits⟩ := exists_related suits among
            rw [Doc.lookup_ofMembers, fits.name, Option.map_eq_none_iff] at absent
            rw [fits.required, (shaped m member).2 absent]
          · intro k _ d found r
            rw [Doc.lookup_ofMembers] at found
            obtain ⟨v, present, rfl⟩ := Option.map_eq_some_iff.mp found
            exact ⟨_, map_eq_ok_iff.mpr ⟨v.ordered, readable _ (mem_of_lookup_eq_some present), rfl⟩⟩
        exact ⟨r, opened_members_eq_ok_iff.mpr ⟨shallow, read⟩⟩
  | _ => simp [opened, Record.opened, Doc.ofJson, Shape.withMembers]

end

end RelayControl.Json
