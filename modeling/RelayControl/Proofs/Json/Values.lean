import RelayControl.Proofs.Json.Order
import RelayControl.Proofs.Json.Reading

/-!
Records that are read from the value of a tree. A decoder that takes up all of its tree makes of the
value what it makes of the tree, though the tree repeat a key. What is read repeats none, and
neither does what is written of it.
-/

namespace RelayControl.Json

mutual

theorem distinct_ordered : ∀ v : Json, v.ordered.Distinct
  | .null => trivial
  | .bool _ => trivial
  | .number _ => trivial
  | .text _ => trivial
  | .array xs => by
      rw [ordered, distinct_array]
      exact distinct_orderedItems xs
  | .object ms => by
      rw [ordered, distinct_object]
      refine ⟨(Members.sorted_ofList _).nodup, ?_⟩
      intro m member
      exact distinct_orderedMembers ms m (Members.mem_of_mem_ofList member)

theorem distinct_orderedItems : ∀ xs, ∀ x ∈ orderedItems xs, x.Distinct
  | [] => List.forall_mem_nil _
  | x :: xs => List.forall_mem_cons.mpr ⟨distinct_ordered x, distinct_orderedItems xs⟩

theorem distinct_orderedMembers : ∀ ms, ∀ m ∈ orderedMembers ms, m.2.Distinct
  | [] => List.forall_mem_nil _
  | (_, v) :: ms => List.forall_mem_cons.mpr ⟨distinct_ordered v, distinct_orderedMembers ms⟩

end

theorem Doc.ordered_of_toJson {d : Doc} {depth : Nat} {v : Json} (read : d.toJson depth = .ok v) :
    v.ordered = v :=
  (Doc.toJson_ofJson (Doc.toJson_ofJson_of_toJson read)).symm

theorem Doc.distinct_of_toJson {d : Doc} {depth : Nat} {v : Json}
    (read : d.toJson depth = .ok v) : v.Distinct :=
  Doc.ordered_of_toJson read ▸ distinct_ordered v

theorem distinct_bool (b : Bool) (v : Json) (written : Json.bool b = v) : v.Distinct :=
  written ▸ trivial

theorem distinct_word (w : UInt32) (v : Json) (written : word w = v) : v.Distinct := by
  rw [word, nat, int] at written
  cases number : Number.ofInt? w.toNat <;> rw [number] at written <;> subst written <;> trivial

theorem distinct_optional {α : Type} {toJson : α → Json}
    (each : ∀ x v, toJson x = v → v.Distinct) {x? : Option α} (v : Json)
    (written : x?.map toJson = some v) : v.Distinct := by
  obtain ⟨x, -, written⟩ := Option.map_eq_some_iff.mp written
  exact each x v written

section

variable {α : Type} {item : Decoder α}

/-- What is made of a tree is made of the value of the tree. -/
def ReadsValue (item : Decoder α) : Prop :=
  ∀ ⦃depth d x⦄, item depth d = .ok x →
    ∃ v, d.toJson depth = .ok v ∧ item depth (.ofJson v) = .ok x

theorem readsValue_bool : ReadsValue .bool := by
  intro depth d b read
  obtain rfl := Decoder.bool_eq_ok_iff.mp read
  exact ⟨.bool b, rfl, rfl⟩

theorem readsValue_word32 : ReadsValue .word32 := by
  intro depth d w read
  cases d with
  | number n => exact ⟨.number n, rfl, read⟩
  | _ => cases read

theorem readsValue_json : ReadsValue .json :=
  fun _ _ v read => ⟨v, read, Doc.toJson_ofJson_of_toJson read⟩

theorem readsValue_members : ReadsValue .members := by
  intro depth d ms read
  rw [Decoder.members_eq_ok_iff] at read
  exact ⟨_, read, Decoder.members_eq_ok_iff.mpr (Doc.toJson_ofJson_of_toJson read)⟩

theorem readsValue_optional (reads : ReadsValue item) : ReadsValue (.optional item) := by
  intro depth d x? read
  rcases Decoder.optional_eq_ok_iff.mp read with ⟨rfl, absent⟩ | ⟨solid, x, read, present⟩
  · exact ⟨.null, rfl, read⟩
  · obtain ⟨v, value, again⟩ := reads read
    refine ⟨v, value, Decoder.optional_eq_ok_iff.mpr (.inr ⟨?_, x, again, present⟩)⟩
    intro null
    obtain rfl : v = .null := Doc.ofJson_injective null
    exact solid (Doc.eq_null_of_toJson value)

theorem parse_of_decode (reads : ReadsValue item) {text : String} {x : α}
    (decoded : decode item text = .ok x) :
    ∃ v, parse text = .ok v ∧ fromJson item v = .ok x := by
  obtain ⟨read, whole⟩ := decode_eq_ok_iff.mp decoded
  obtain ⟨v, value, again⟩ := reads read
  exact ⟨v, decode_eq_ok_iff.mpr ⟨value, whole⟩, again⟩

theorem ordered_of_parse {text : String} {v : Json} (parsed : parse text = .ok v) :
    v.ordered = v :=
  Doc.ordered_of_toJson (tree_of_decode parsed)

end

theorem Slot.distinct_rewritten {σ α : Type} {name : String} {item : Decoder α}
    {member : Option α → Option Json} {get : σ → Option α} {put : Option α → σ → σ} {blank r : σ}
    {depth : Nat} (start : get blank = none) (absent : ∀ v, member none = some v → v.Distinct)
    (present : ∀ ⦃d x⦄, item depth d = .ok x → ∀ v, member (some x) = some v → v.Distinct)
    (obtained : (Slot.rewritten name item member get put).Obtained blank depth r) :
    ∀ v, (Slot.rewritten name item member get put).member? r = some v → v.Distinct := by
  intro v written
  change member (get r) = some v at written
  rcases obtained with ⟨d, read⟩ | ⟨-, same⟩
  · rcases Decoder.optional_eq_ok_iff.mp read with ⟨-, empty⟩ | ⟨-, x, read, held⟩
    · change get r = none at empty
      exact absent v (empty ▸ written)
    · change some x = get r at held
      exact present read v (held ▸ written)
  · change get r = get blank at same
    rw [same, start] at written
    exact absent v written

namespace Layout

variable {σ : Type} {L : Layout σ} {depth : Nat} {r : σ}

theorem Holds.values {found : String → Option Doc} {values : String → Option Json}
    (same : ∀ k, Option.Rel (fun d v => d.toJson depth = .ok v) (found k) (values k))
    (reads : ∀ s ∈ L.slots, ReadsValue s.item) (holds : L.Holds depth found r) :
    L.Holds depth (fun k => (values k).map Doc.ofJson) r := by
  have known : ∀ {k d}, (values k).map Doc.ofJson = some d →
      ∃ d' v, found k = some d' ∧ d'.toJson depth = .ok v ∧ d = .ofJson v := by
    intro k d present
    obtain ⟨v, value, rfl⟩ := Option.map_eq_some_iff.mp present
    have related := same k
    rw [value] at related
    generalize found k = d? at related ⊢
    cases related with
    | some read => exact ⟨_, v, rfl, read, rfl⟩
  have unknown : ∀ {k}, (values k).map Doc.ofJson = none → found k = none := by
    intro k absent
    have related := same k
    rw [Option.map_eq_none_iff.mp absent] at related
    generalize found k = d? at related ⊢
    cases related with
    | none => rfl
  refine ⟨⟨?_, fun s member absent => holds.missing s member (unknown absent)⟩, ?_,
    fun k foreign absent => holds.absent k foreign (unknown absent), holds.sorted, holds.foreign⟩
  · intro s member d present
    obtain ⟨d', v, present', read, rfl⟩ := known present
    obtain ⟨w, read', again⟩ := reads s member (holds.given s member d' present')
    obtain rfl : v = w := Except.ok.inj (read.symm.trans read')
    exact again
  · intro k foreign d present
    obtain ⟨d', v, present', read, rfl⟩ := known present
    obtain ⟨w, read', kept⟩ := holds.kept k foreign d' present'
    obtain rfl : v = w := Except.ok.inj (read.symm.trans read')
    exact ⟨v, Doc.toJson_ofJson_of_toJson read, kept⟩

theorem readsAs_of_takeMembers (keeps : L.Keeps) (reads : ∀ s ∈ L.slots, ReadsValue s.item)
    {draft done : Record.Draft σ} {ms : List (Option String × Doc)}
    (taken : Record.takeMembers (L.slots.map Slot.field) L.keepOther depth draft ms = .ok done) :
    ∃ vs, List.Forall₂ (Doc.ReadsAs depth) ms vs := by
  induction ms generalizing draft with
  | nil => exact ⟨[], .nil⟩
  | cons m ms ih =>
      obtain ⟨key, next, keyed, took, rest⟩ :=
        (Record.takeMembers_cons_eq_ok_iff keeps.apart).mp taken
      obtain ⟨vs, each⟩ := ih rest
      obtain ⟨v, value⟩ : ∃ v, m.2.toJson depth = .ok v := by
        cases took with
        | @slot s member named fresh x read =>
            obtain ⟨v, value, -⟩ := reads s member read
            exact ⟨v, value⟩
        | @other unknown r passed =>
            obtain ⟨v, value, -⟩ := map_eq_ok_iff.mp passed
            exact ⟨v, value⟩
      exact ⟨(key, v) :: vs, .cons ⟨keyed, value⟩ each⟩

theorem readsValue_opened {item : Decoder σ} (keeps : L.Keeps) (opens : item = L.opened)
    (reads : ∀ s ∈ L.slots, ReadsValue s.item) : ReadsValue item := by
  subst opens
  intro depth d r read
  obtain ⟨shallow, ms, rfl, holds⟩ := holds_of_opened keeps read
  obtain ⟨-, members⟩ := opened_members_eq_ok_iff.mp read
  obtain ⟨-, done, taken, -, -⟩ := Record.ofMembers_eq_ok_iff.mp members
  obtain ⟨vs, each⟩ := readsAs_of_takeMembers keeps reads taken
  refine ⟨_, Doc.toJson_members_eq_ok_iff.mpr ⟨shallow, rfl, vs, each, rfl⟩, ?_⟩
  rw [Doc.ofJson]
  -- of a repeated key both take the last member: the tree as it is read, the value when it is made
  apply opened_of_holds keeps shallow Doc.keyed_ofMembers
    (Doc.nodup_ofMembers (Members.sorted_ofList vs).nodup)
  simp only [Doc.lookup_ofMembers, Members.lookup_ofList_eq_reverse]
  exact holds.values (Doc.lookup_readsAs (List.forall₂_reverse_iff.mpr each)) reads

theorem distinct_write (keeps : L.Keeps) {d : Doc} (read : L.opened depth d = .ok r)
    (slots : ∀ s ∈ L.slots, s.Obtained L.blank (depth + 1) r →
      ∀ v, s.member? r = some v → v.Distinct) : (object (L.write r)).Distinct := by
  obtain ⟨-, ms, -, holds⟩ := holds_of_opened keeps read
  refine distinct_object.mpr ⟨holds.nodup_write keeps.toLawful, ?_⟩
  intro m member
  rcases List.mem_append.mp member with own | kept
  · obtain ⟨s, among, own⟩ := List.mem_flatMap.mp own
    obtain ⟨v, present, rfl⟩ := List.mem_map.mp own
    exact slots s among (holds.obtained among) v (Option.mem_toList.mp present)
  · obtain ⟨d, read⟩ := holds.exists_of_mem_rest kept
    exact Doc.distinct_of_toJson read

end Layout

end RelayControl.Json
