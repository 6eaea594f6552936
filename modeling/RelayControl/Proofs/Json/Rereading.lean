import RelayControl.Proofs.Json.Decoders
import RelayControl.Proofs.Json.Layout

/-!
Reading what is written. A value that a decoder has made of any tree, however the tree was written,
is made again of the tree of its writing.
-/

namespace RelayControl.Json

variable {α σ : Type} {item : Decoder α} {toJson : α → Json} {depth : Nat}

/-- What has been read at a depth is read again, there, from what is written of it. -/
structure Rereads (item : Decoder α) (toJson : α → Json) (depth : Nat) : Prop where
  again : ∀ ⦃d x⦄, item depth d = .ok x → item depth (.ofJson (toJson x)) = .ok x
  readable : ∀ ⦃d x⦄, item depth d = .ok x → (toJson x).Readable depth
  /-- Only from `null` comes a value that is written as `null`. -/
  solid : ∀ ⦃d x⦄, item depth d = .ok x → d ≠ .null → toJson x ≠ .null

theorem Rereads.written (rereads : Rereads item toJson depth) {x : α} (d : Doc)
    (read : item depth d = .ok x) :
    item depth (.ofJson (toJson x)) = .ok x ∧ (toJson x).Readable depth :=
  ⟨rereads.again read, rereads.readable read⟩

theorem readable_nat (depth n : Nat) : (nat n).Readable depth := by
  rw [nat, int]
  cases Number.ofInt? n <;> rfl

theorem rereads_text : Rereads .text .text depth where
  again _ _ _ := rfl
  readable _ _ _ := rfl
  solid _ _ _ _ := nofun

theorem rereads_bool : Rereads .bool .bool depth where
  again _ _ _ := rfl
  readable _ _ _ := rfl
  solid _ _ _ _ := nofun

theorem rereads_word32 : Rereads .word32 word depth where
  again d w read := Decoder.word32_eq_ok read ▸ read
  readable d w read := readable_nat depth w.toNat
  solid d w read solid null := solid (by rw [Decoder.word32_eq_ok read, null]; rfl)

theorem rereads_byte : Rereads .byte byte depth where
  again d b read := Decoder.byte_eq_ok read ▸ read
  readable d b read := readable_nat depth b.toNat
  solid d b read solid null := solid (by rw [Decoder.byte_eq_ok read, null]; rfl)

theorem rereads_json : Rereads .json id depth where
  again d v read := Doc.toJson_ofJson_of_toJson read
  readable d v read := readable_of_toJson read
  solid d v read solid null := by
    rw [id] at null
    exact solid (Doc.eq_null_of_toJson (null ▸ read))

theorem rereads_members : Rereads .members .object depth where
  again d ms read := by
    rw [Decoder.members_eq_ok_iff] at read ⊢
    exact Doc.toJson_ofJson_of_toJson read
  readable d ms read := readable_of_toJson (Decoder.members_eq_ok_iff.mp read)
  solid d ms read _ := nofun

theorem exists_of_mem_list {xs : List α} {d : Doc} (read : Decoder.list item depth d = .ok xs)
    {x : α} (member : x ∈ xs) : ∃ d, item (depth + 1) d = .ok x := by
  obtain ⟨-, ds, -, each⟩ := Decoder.list_eq_ok_iff.mp read
  clear read
  induction each with
  | nil => cases member
  | @cons d y _ _ first _ ih =>
      rcases List.mem_cons.mp member with rfl | later
      · exact ⟨d, first⟩
      · exact ih later

theorem list_written {xs xs' : List α} (shallow : depth < depthLimit)
    (each : List.Forall₂ (fun x x' => item (depth + 1) (.ofJson (toJson x)) = .ok x' ∧
      (toJson x).Readable (depth + 1)) xs xs') :
    Decoder.list item depth (.ofJson (items toJson xs)) = .ok xs' ∧
      (items toJson xs).Readable depth := by
  constructor
  · refine Decoder.list_eq_ok_iff.mpr ⟨shallow, (xs.map toJson).map Doc.ofJson, ?_, ?_⟩
    · rw [items, Doc.ofJson, Doc.ofItems_eq_map]
    · rw [List.map_map, List.forall₂_map_left_iff]
      exact each.imp fun _ _ both => both.1
  · apply readable_array shallow
    induction each with
    | nil => simp
    | cons first _ ih =>
        rw [List.map_cons, List.forall_mem_cons]
        exact ⟨first.2, ih⟩

theorem rereads_list (rereads : Rereads item toJson (depth + 1)) :
    Rereads (.list item) (items toJson) depth := by
  have written : ∀ {d xs}, Decoder.list item depth d = .ok xs →
      Decoder.list item depth (.ofJson (items toJson xs)) = .ok xs ∧
        (items toJson xs).Readable depth := by
    intro d xs read
    apply list_written (Decoder.list_eq_ok_iff.mp read).1
    rw [List.forall₂_same]
    intro x member
    obtain ⟨d', found⟩ := exists_of_mem_list read member
    exact rereads.written d' found
  exact ⟨fun _ _ read => (written read).1, fun _ _ read => (written read).2, fun _ _ _ _ => nofun⟩

theorem exists_of_mem_map {xs : List (String × α)} {d : Doc}
    (read : Decoder.map item depth d = .ok xs) {m : String × α} (member : m ∈ xs) :
    ∃ d, item (depth + 1) d = .ok m.2 := by
  obtain ⟨-, ms, made, -, each, rfl⟩ := Decoder.map_eq_ok_iff.mp read
  have inside := Members.mem_of_mem_ofList member
  clear read member
  induction each with
  | nil => cases inside
  | @cons n x _ _ first _ ih =>
      rcases List.mem_cons.mp inside with rfl | inside
      · exact ⟨n.2, first.2⟩
      · exact ih inside

theorem rereads_map (rereads : Rereads item toJson (depth + 1)) :
    Rereads (.map item) (entries toJson) depth where
  again d xs read := by
    obtain ⟨shallow, ms, made, -, -, rfl⟩ := Decoder.map_eq_ok_iff.mp read
    rw [Decoder.map_eq_ok_iff]
    refine ⟨shallow, _, Members.ofList made, by rw [entries, Doc.ofJson, Doc.ofMembers_eq_map], ?_,
      (Members.ofList_ofList made).symm⟩
    rw [List.forall₂_map_left_iff, List.forall₂_map_left_iff, List.forall₂_same]
    intro m member
    obtain ⟨d', found⟩ := exists_of_mem_map read member
    exact ⟨rfl, rereads.again found⟩
  readable d xs read := by
    obtain ⟨shallow, -⟩ := Decoder.map_eq_ok_iff.mp read
    apply readable_object shallow
    rw [List.forall_mem_map]
    intro m member
    obtain ⟨d', found⟩ := exists_of_mem_map read member
    exact rereads.readable found
  solid d xs read _ := nofun

section

variable {name : String} {blank r : σ}

theorem Slot.returns_optional {get : σ → Option α} {put : Option α → σ → σ}
    (start : get blank = none) (rereads : Rereads item toJson depth)
    (obtained : (Slot.optional name item toJson get put).Obtained blank depth r) :
    (Slot.optional name item toJson get put).Returns blank depth r r := by
  have source : get r = none ∨ ∃ d x, d ≠ .null ∧ item depth d = .ok x ∧ get r = some x := by
    rcases obtained with ⟨d, read⟩ | ⟨-, same⟩
    · rcases Decoder.optional_eq_ok_iff.mp read with ⟨-, absent⟩ | ⟨solid, x, found, present⟩
      · exact .inl absent
      · exact .inr ⟨d, x, solid, found, present.symm⟩
    · exact .inl (same.trans start)
  rcases source with absent | ⟨d, x, solid, found, present⟩
  · have omitted : (Slot.optional name item toJson get put).member? r = none := by
      change (get r).map toJson = none
      rw [absent]
      rfl
    have unwritten : ∀ v, (Slot.optional name item toJson get put).member? r ≠ some v :=
      fun v own => nomatch omitted.symm.trans own
    exact ⟨fun v own => absurd own (unwritten v), fun _ => ⟨rfl, absent.trans start.symm⟩,
      fun v own => absurd own (unwritten v)⟩
  · have own : (Slot.optional name item toJson get put).member? r = some (toJson x) := by
      change (get r).map toJson = some (toJson x)
      rw [present]
      rfl
    have written := own.trans_ne (Option.some_ne_none (toJson x))
    refine ⟨fun v same => ?_, fun omitted => absurd omitted written, fun v same => ?_⟩
    · obtain rfl := Option.some.inj (own.symm.trans same)
      refine Decoder.optional_eq_ok_iff.mpr (.inr ⟨?_, x, rereads.again found, present.symm⟩)
      exact fun null => rereads.solid found solid (Doc.ofJson_injective null)
    · obtain rfl := Option.some.inj (own.symm.trans same)
      exact rereads.readable found

theorem Slot.returns_mandatory {get : σ → α} {put : α → σ → σ} (rereads : Rereads item toJson depth)
    (obtained : (Slot.mandatory name item toJson get put).Obtained blank depth r) :
    (Slot.mandatory name item toJson get put).Returns blank depth r r := by
  rcases obtained with ⟨d, read⟩ | ⟨⟨⟩, -⟩
  refine ⟨fun v own => ?_, nofun, fun v own => ?_⟩
  · obtain rfl : toJson (get r) = v := Option.some.inj own
    exact rereads.again read
  · obtain rfl : toJson (get r) = v := Option.some.inj own
    exact rereads.readable read

theorem Slot.returns_defaulted {get : σ → α} {put : α → σ → σ} {r' : σ}
    (start : item depth (.ofJson (toJson (get blank))) = .ok (get blank))
    (written : ∀ d, item depth d = .ok (get r) →
      item depth (.ofJson (toJson (get r))) = .ok (get r') ∧ (toJson (get r)).Readable depth)
    (obtained : (Slot.defaulted name item toJson get put).Obtained blank depth r) :
    (Slot.defaulted name item toJson get put).Returns blank depth r r' := by
  obtain ⟨d, read⟩ : ∃ d, item depth d = .ok (get r) := by
    rcases obtained with ⟨d, read⟩ | ⟨-, same⟩
    · exact ⟨d, read⟩
    · change get r = get blank at same
      exact ⟨_, same ▸ start⟩
  refine ⟨fun v own => ?_, nofun, fun v own => ?_⟩
  · obtain rfl : toJson (get r) = v := Option.some.inj own
    exact (written d read).1
  · obtain rfl : toJson (get r) = v := Option.some.inj own
    exact (written d read).2

variable {L : Layout σ} {item : Decoder σ} {toJson : σ → Json}

theorem Layout.rereads_opened (keeps : L.Keeps) (reads : item = L.opened)
    (writes : ∀ r, toJson r = .object (L.write r))
    (returns : ∀ r, ∀ s ∈ L.slots, s.Obtained L.blank (depth + 1) r →
      s.Returns L.blank (depth + 1) r r) : Rereads item toJson depth where
  again d r read := by
    rw [reads] at read ⊢
    exact writes r ▸ (opened_write keeps read rfl (returns r)).1
  readable d r read := by
    rw [reads] at read
    exact writes r ▸ (opened_write keeps read rfl (returns r)).2
  solid d r read _ null := by
    rw [writes] at null
    cases null

theorem Layout.rereads_closed (lawful : L.Lawful) (bare : ∀ r, L.rest r = [])
    (reads : item = L.closed) (writes : ∀ r, toJson r = .object (L.write r))
    (returns : ∀ r, ∀ s ∈ L.slots, s.Obtained L.blank (depth + 1) r →
      s.Returns L.blank (depth + 1) r r) : Rereads item toJson depth where
  again d r read := by
    rw [reads] at read ⊢
    exact writes r ▸ (closed_write lawful bare read (returns r)).1
  readable d r read := by
    rw [reads] at read
    exact writes r ▸ (closed_write lawful bare read (returns r)).2
  solid d r read _ null := by
    rw [writes] at null
    cases null

end

end RelayControl.Json
