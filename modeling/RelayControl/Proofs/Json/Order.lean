import RelayControl.Proofs.Json.Decoders
import RelayControl.Proofs.Json.Layout

/-!
Decoders that take no notice of the order of members. Where no object repeats a key, such a decoder
makes of a tree whatever it makes of the value of the tree.
-/

namespace RelayControl.Json

namespace Doc

mutual

/-- No object in a tree has two members of one key. -/
def Distinct : Doc → Prop
  | .items ds _ => DistinctItems ds
  | .members ms _ => (ms.map (·.1)).Nodup ∧ DistinctMembers ms
  | _ => True

def DistinctItems : List Doc → Prop
  | [] => True
  | d :: ds => Distinct d ∧ DistinctItems ds

def DistinctMembers : List (Option String × Doc) → Prop
  | [] => True
  | (_, d) :: ms => Distinct d ∧ DistinctMembers ms

end

def under (key : String) : Doc → List Doc
  | .members ms _ => ms.filterMap fun (k, d) => if k = some key then some d else none
  | _ => []

theorem mem_under {key : String} {d : Doc} {ms : List (Option String × Doc)}
    {ending : Option Flaw} :
    d ∈ (members ms ending).under key ↔ (some key, d) ∈ ms := by
  simp [under, List.mem_filterMap, eq_comm]

theorem distinct_items {ds : List Doc} {ending : Option Flaw} :
    (items ds ending).Distinct ↔ ∀ d ∈ ds, d.Distinct := by
  rw [Distinct]
  induction ds with
  | nil => simp [DistinctItems]
  | cons d ds ih => simp [DistinctItems, ih]

theorem distinct_members {ms : List (Option String × Doc)} {ending : Option Flaw} :
    (members ms ending).Distinct ↔ (ms.map (·.1)).Nodup ∧ ∀ m ∈ ms, m.2.Distinct := by
  have each : DistinctMembers ms ↔ ∀ m ∈ ms, m.2.Distinct := by
    induction ms with
    | nil => simp [DistinctMembers]
    | cons m ms ih => simp [DistinctMembers, ih]
  rw [Distinct, each]

/-- The tree of a plain value is that of its value; arrays and objects are read part by part. -/
theorem toJson_cases {d : Doc} {depth : Nat} {v : Json} (read : d.toJson depth = .ok v) :
    d = ofJson v ∨
    (∃ ds vs, d = .items ds none ∧ v = .array vs ∧ depth < depthLimit ∧
      List.Forall₂ (fun d v => d.toJson (depth + 1) = .ok v) ds vs) ∨
    ∃ ms vs, d = .members ms none ∧ v = .object (Members.ofList vs) ∧ depth < depthLimit ∧
      List.Forall₂ (ReadsAs (depth + 1)) ms vs := by
  cases d with
  | flawed strict skipped => cases read
  | items ds ending =>
      obtain ⟨shallow, rfl, vs, each, rfl⟩ := toJson_items_eq_ok_iff.mp read
      exact .inr (.inl ⟨ds, vs, rfl, rfl, shallow, each⟩)
  | members ms ending =>
      obtain ⟨shallow, rfl, vs, each, rfl⟩ := toJson_members_eq_ok_iff.mp read
      exact .inr (.inr ⟨ms, vs, rfl, rfl, shallow, each⟩)
  | _ =>
      cases read
      exact .inl rfl

def Denotes (depth : Nat) (d : Doc) (v : Json) : Prop := d.Distinct ∧ d.toJson depth = .ok v

theorem lookup_readsAs {depth : Nat} {ms : List (Option String × Doc)} {vs : List (String × Json)}
    (each : List.Forall₂ (ReadsAs depth) ms vs) (k : String) :
    Option.Rel (fun d v => d.toJson depth = .ok v) (ms.lookup (some k)) (vs.lookup k) :=
  @Decoder.lookup_makesOf _ .json depth ms vs each k

theorem lookup_denotes {depth : Nat} {ms : List (Option String × Doc)} {vs : List (String × Json)}
    (each : List.Forall₂ (ReadsAs depth) ms vs) (distinct : ∀ m ∈ ms, m.2.Distinct) (k : String) :
    Option.Rel (Denotes depth) (ms.lookup (some k)) (vs.lookup k) := by
  have related := lookup_readsAs each k
  have own : ∀ d, ms.lookup (some k) = some d → d.Distinct := fun d found =>
    distinct _ (mem_of_lookup_eq_some found)
  generalize ms.lookup (some k) = d? at related own ⊢
  generalize vs.lookup k = v? at related ⊢
  cases related with
  | none => exact .none
  | some read => exact .some ⟨own _ rfl, read⟩

theorem keys_of_readsAs {depth : Nat} {ms : List (Option String × Doc)}
    {vs : List (String × Json)} (each : List.Forall₂ (ReadsAs depth) ms vs) :
    ms.map (·.1) = (vs.map (·.1)).map some := by
  induction each with
  | nil => rfl
  | cons first _ ih => rw [List.map_cons, first.1, ih, List.map_cons, List.map_cons]

theorem keyed_of_readsAs {depth : Nat} {ms : List (Option String × Doc)}
    {vs : List (String × Json)} (each : List.Forall₂ (ReadsAs depth) ms vs) :
    ∀ m ∈ ms, m.1 ≠ none := by
  intro m member null
  have inside : m.1 ∈ (vs.map (·.1)).map some :=
    keys_of_readsAs each ▸ List.mem_map_of_mem member
  rw [null] at inside
  simp at inside

end Doc

section

variable {α : Type} {item : Decoder α}

def IgnoresOrder (item : Decoder α) : Prop :=
  ∀ ⦃depth d v x⦄, Doc.Denotes depth d v → item depth (.ofJson v) = .ok x → item depth d = .ok x

theorem ignoresOrder_plain
    (noArray : ∀ depth vs x, item depth (.ofJson (.array vs)) ≠ .ok x)
    (noObject : ∀ depth ms x, item depth (.ofJson (.object ms)) ≠ .ok x) : IgnoresOrder item := by
  intro depth d v x denotes read
  rcases Doc.toJson_cases denotes.2 with rfl | ⟨_, _, -, rfl, -⟩ | ⟨_, _, -, rfl, -⟩
  · exact read
  · exact absurd read (noArray _ _ _)
  · exact absurd read (noObject _ _ _)

theorem ignoresOrder_text : IgnoresOrder .text := ignoresOrder_plain nofun nofun

theorem ignoresOrder_word32 : IgnoresOrder .word32 := ignoresOrder_plain nofun nofun

theorem ignoresOrder_byte : IgnoresOrder .byte := ignoresOrder_plain nofun nofun

theorem ignoresOrder_optional (ignores : IgnoresOrder item) : IgnoresOrder (.optional item) := by
  intro depth d v x? denotes read
  rw [Decoder.optional_eq_ok_iff] at read ⊢
  rcases read with ⟨null, absent⟩ | ⟨solid, x, read, present⟩
  · obtain rfl : v = .null := Doc.ofJson_injective null
    exact .inl ⟨Doc.eq_null_of_toJson denotes.2, absent⟩
  · refine .inr ⟨?_, x, ignores denotes read, present⟩
    rintro rfl
    cases denotes.2
    exact solid rfl

theorem ignoresOrder_list (ignores : IgnoresOrder item) : IgnoresOrder (.list item) := by
  intro depth d v xs denotes read
  rcases Doc.toJson_cases denotes.2 with rfl | ⟨ds, vs, rfl, rfl, shallow, each⟩ | ⟨_, _, -, rfl, -⟩
  · exact read
  · obtain ⟨-, ds', tree, made⟩ := Decoder.list_eq_ok_iff.mp read
    rw [Doc.ofJson, Doc.ofItems_eq_map] at tree
    cases tree
    rw [List.forall₂_map_left_iff] at made
    refine Decoder.list_eq_ok_iff.mpr ⟨shallow, ds, rfl, ?_⟩
    have distinct := Doc.distinct_items.mp denotes.1
    clear denotes read
    induction each generalizing xs with
    | nil =>
        cases made
        exact .nil
    | cons first _ ih =>
        cases made with
        | cons made rest =>
            rw [List.forall_mem_cons] at distinct
            exact .cons (ignores ⟨distinct.1, first⟩ made) (ih rest distinct.2)
  · cases read

end

namespace Layout

variable {σ : Type} {L : Layout σ} {depth : Nat} {r : σ}

theorem Holds.of_denotes {found : String → Option Doc} {values : String → Option Json}
    (denotes : ∀ k, Option.Rel (Doc.Denotes depth) (found k) (values k))
    (made : ∀ s ∈ L.slots, ∀ d v, found s.name = some d → Doc.Denotes depth d v →
      s.item depth (.ofJson v) = .ok (s.get r) → s.item depth d = .ok (s.get r))
    (holds : L.Holds depth (fun k => (values k).map Doc.ofJson) r) : L.Holds depth found r := by
  have known : ∀ {k d}, found k = some d → ∃ v, values k = some v ∧ Doc.Denotes depth d v := by
    intro k d present
    have related := denotes k
    rw [present] at related
    cases value : values k with
    | none => rw [value] at related; cases related
    | some v =>
        rw [value] at related
        cases related with
        | some denotes => exact ⟨v, rfl, denotes⟩
  have unknown : ∀ {k}, found k = none → values k = none := by
    intro k absent
    have related := denotes k
    rw [absent] at related
    cases value : values k with
    | none => rfl
    | some v => rw [value] at related; cases related
  refine ⟨⟨?_, ?_⟩, ?_, ?_, holds.sorted, holds.foreign⟩
  · intro s member d present
    obtain ⟨v, value, denotes⟩ := known present
    exact made s member d v present denotes (holds.given s member _ (by rw [value]; rfl))
  · intro s member absent
    exact holds.missing s member (by rw [unknown absent]; rfl)
  · intro k foreign d present
    obtain ⟨v, value, denotes⟩ := known present
    obtain ⟨w, read, kept⟩ := holds.kept k foreign _ (by rw [value]; rfl)
    obtain rfl : v = w := Except.ok.inj ((Doc.toJson_ofJson_of_toJson denotes.2).symm.trans read)
    exact ⟨v, denotes.2, kept⟩
  · intro k foreign absent
    exact holds.absent k foreign (by rw [unknown absent]; rfl)

theorem Holds.denotes_write (lawful : L.Lawful) {found : String → Option Doc}
    (holds : L.Holds depth found r) (distinct : ∀ k d, found k = some d → d.Distinct)
    (verbatim : ∀ s ∈ L.slots,
      Option.Rel (fun d v => d.toJson depth = .ok v) (found s.name) (s.member? r)) (k : String) :
    Option.Rel (Doc.Denotes depth) (found k) ((L.write r).lookup k) := by
  by_cases foreign : L.Foreign k
  · rw [lookup_write_of_foreign foreign]
    cases present : found k with
    | none =>
        rw [holds.absent k foreign present]
        exact .none
    | some d =>
        obtain ⟨v, read, kept⟩ := holds.kept k foreign d present
        rw [kept]
        exact .some ⟨distinct k d present, read⟩
  · obtain ⟨s, member, rfl⟩ : ∃ s ∈ L.slots, s.name = k := by simpa [Foreign] using foreign
    rw [lookup_write_of_slot lawful holds.foreign member]
    have same := verbatim s member
    cases present : found s.name with
    | none =>
        rw [present] at same
        cases written : s.member? r with
        | none => exact .none
        | some v => rw [written] at same; cases same
    | some d =>
        rw [present] at same
        cases written : s.member? r with
        | none => rw [written] at same; cases same
        | some v =>
            rw [written] at same
            cases same with
            | some read => exact .some ⟨distinct _ d present, read⟩

theorem ignoresOrder_opened {item : Decoder σ} (keeps : L.Keeps) (reads : item = L.opened)
    (ignores : ∀ s ∈ L.slots, IgnoresOrder s.item) : IgnoresOrder item := by
  subst reads
  intro depth d v r denotes read
  rcases Doc.toJson_cases denotes.2 with rfl | ⟨_, _, -, rfl, -⟩ | ⟨ms, vs, rfl, rfl, shallow, each⟩
  · exact read
  · cases read
  · -- an object and its value have the same keys, and reading looks up what stands under them
    obtain ⟨keys, distinct⟩ := Doc.distinct_members.mp denotes.1
    have keys' : (vs.map (·.1)).Nodup := .of_map some (Doc.keys_of_readsAs each ▸ keys)
    obtain ⟨-, _, tree, holds⟩ := holds_of_opened keeps read
    cases tree
    have sorted := (Members.sorted_ofList vs).nodup
    simp only [lookup_reverse (Doc.nodup_ofMembers sorted), Doc.lookup_ofMembers,
      Members.lookup_ofList keys'] at holds
    apply opened_of_holds keeps shallow (Doc.keyed_of_readsAs each) keys
    exact holds.of_denotes (Doc.lookup_denotes each distinct)
      fun s member d v _ denotes found => ignores s member denotes found

end Layout

end RelayControl.Json
