import RelayControl.Proofs.Json.Decoders
import RelayControl.Proofs.Json.Layout

/-!
What comes back of a value after it has been read and written: the same value, but for the members
that rules speak of. A decoder is faithful to a change when its writing is the changed value, up to
the order of members.
-/

namespace RelayControl.Json

/-- What comes back of a member, and what stands in its place where it is missing. -/
structure MemberRule where
  back : Json → Option Json
  missing : Option Json

namespace MemberRule

def optional (change : Json → Json) : MemberRule where
  back
    | .null => none
    | v => some (change v)
  missing := none

abbrev nullable : MemberRule := .optional id

def defaulted (default : Json) (change : Json → Json) : MemberRule :=
  ⟨fun v => some (change v), some default⟩

def changed (change : Json → Json) : MemberRule :=
  ⟨fun v => some (change v), none⟩

def dropped : MemberRule := ⟨fun _ => none, none⟩

def filled (default : Option Json) (change : Json → Json) : MemberRule where
  back
    | .null => default
    | v => some (change v)
  missing := default

theorem filled_back {default : Option Json} {change : Json → Json} {v : Json} (solid : v ≠ .null) :
    (filled default change).back v = some (change v) := by
  cases v <;> first | rfl | exact absurd rfl solid

end MemberRule

def backOf (rules : List (String × MemberRule)) (k : String) (v : Json) : Option Json :=
  match rules.lookup k with
  | some rule => rule.back v
  | none => some v

def rewriteMembers (rules : List (String × MemberRule)) (ms : List (String × Json)) :
    List (String × Json) :=
  ms.filterMap (fun (k, v) => (backOf rules k v).map (k, ·)) ++
    rules.filterMap fun (k, rule) =>
      (if (ms.lookup k).isNone then rule.missing else none).map (k, ·)

def rewrite (rules : List (String × MemberRule)) : Json → Json
  | .object ms => .object (rewriteMembers rules ms)
  | v => v

def each (change : Json → Json) : Json → Json
  | .array vs => .array (vs.map change)
  | v => v

def eachMember (change : Json → Json) : Json → Json
  | .object ms => .object (ms.map fun (k, v) => (k, change v))
  | v => v

section

variable {α β : Type}

theorem lookup_filterMap_values (f : String → α → Option β) {ms : List (String × α)}
    (distinct : (ms.map (·.1)).Nodup) (k : String) :
    (ms.filterMap fun (k, v) => (f k v).map (k, ·)).lookup k = (ms.lookup k).bind (f k) := by
  induction ms with
  | nil => rfl
  | cons m ms ih =>
      obtain ⟨l, v⟩ := m
      rw [List.map_cons, List.nodup_cons] at distinct
      have later := ih distinct.2
      rw [lookup_cons_eq_ite]
      by_cases own : k = l
      · subst own
        rw [lookup_eq_none_iff_notMem.mpr distinct.1] at later
        cases back : f k v <;> simp [back, later]
      · cases back : f l v <;> simp [back, own, lookup_cons_eq_ite, later]

theorem keys_filterMap_sublist (f : String → α → Option β) (ms : List (String × α)) :
    ((ms.filterMap fun (k, v) => (f k v).map (k, ·)).map (·.1)).Sublist (ms.map (·.1)) := by
  induction ms with
  | nil => exact .slnil
  | cons m ms ih =>
      obtain ⟨k, v⟩ := m
      cases back : f k v with
      | none => simpa [back] using ih.cons k
      | some w => simpa [back] using ih.cons_cons k

end

variable {rules : List (String × MemberRule)} {ms : List (String × Json)}

theorem lookup_rewriteMembers (names : (rules.map (·.1)).Nodup)
    (distinct : (ms.map (·.1)).Nodup) (k : String) :
    (rewriteMembers rules ms).lookup k =
      match ms.lookup k with
      | some v => backOf rules k v
      | none => (rules.lookup k).bind (·.missing) := by
  rw [rewriteMembers, List.lookup_append, lookup_filterMap_values (backOf rules) distinct,
    lookup_filterMap_values (fun k rule => if (ms.lookup k).isNone then rule.missing else none)
      names]
  cases present : ms.lookup k with
  | none => simp
  | some v => cases back : backOf rules k v <;> simp [back]

theorem nodup_rewriteMembers (names : (rules.map (·.1)).Nodup)
    (distinct : (ms.map (·.1)).Nodup) : ((rewriteMembers rules ms).map (·.1)).Nodup := by
  rw [rewriteMembers, List.map_append, List.nodup_append]
  refine ⟨distinct.sublist (keys_filterMap_sublist (backOf rules) ms), names.sublist
    (keys_filterMap_sublist
      (fun k rule => if (ms.lookup k).isNone then rule.missing else none) rules), ?_⟩
  rintro k first _ second rfl
  obtain ⟨m, inside, rfl⟩ := List.mem_map.mp second
  obtain ⟨⟨l, rule⟩, -, made⟩ := List.mem_filterMap.mp inside
  obtain ⟨v, added, rfl⟩ := Option.map_eq_some_iff.mp made
  -- what is added was missing
  have absent : (ms.lookup l).isNone := by
    by_contra present
    rw [if_neg present] at added
    cases added
  exact lookup_eq_none_iff_notMem.mp (Option.isNone_iff_eq_none.mp absent)
    ((keys_filterMap_sublist (backOf rules) ms).subset first)

theorem lookup_rewriteMembers_singleton (key : String) (rule : MemberRule)
    (distinct : (ms.map (·.1)).Nodup) (k : String) :
    (rewriteMembers [(key, rule)] ms).lookup k =
      if k = key then (match ms.lookup k with | some v => rule.back v | none => rule.missing)
      else ms.lookup k := by
  have name : ([(key, rule)].map (·.1)).Nodup := List.nodup_singleton key
  rw [lookup_rewriteMembers name distinct]
  by_cases own : k = key
  · subst own
    cases ms.lookup k <;> simp [backOf]
  · cases ms.lookup k <;> simp [backOf, lookup_cons_eq_ite, own]

theorem nodup_rewriteMembers_singleton (key : String) (rule : MemberRule)
    (distinct : (ms.map (·.1)).Nodup) : ((rewriteMembers [(key, rule)] ms).map (·.1)).Nodup := by
  have name : ([(key, rule)].map (·.1)).Nodup := List.nodup_singleton key
  exact nodup_rewriteMembers name distinct

@[simp] theorem rewrite_nil (v : Json) : rewrite [] v = v := by
  cases v <;> simp [rewrite, rewriteMembers, backOf]

section

variable {α : Type} {item : Decoder α} {toJson : α → Json} {change : Json → Json}

/-- Wherever a value without repeated keys is read as `x`, writing `x` gives the changed value. -/
def FaithfulAt (item : Decoder α) (toJson : α → Json) (change : Json → Json) (x : α) : Prop :=
  ∀ ⦃depth v⦄, v.Distinct → item depth (.ofJson v) = .ok x → (toJson x).ordered = (change v).ordered

def Faithful (item : Decoder α) (toJson : α → Json) (change : Json → Json) : Prop :=
  ∀ x, FaithfulAt item toJson change x

theorem faithful_text : Faithful .text .text id := by
  intro s depth v _ read
  cases v <;> cases Decoder.text_eq_ok_iff.mp read
  rfl

theorem faithful_bool : Faithful .bool .bool id := by
  intro b depth v _ read
  cases v <;> cases Decoder.bool_eq_ok_iff.mp read
  rfl

theorem faithful_word32 : Faithful .word32 word id := by
  intro w depth v _ read
  rw [Doc.ofJson_injective (Decoder.word32_eq_ok read), id]

theorem faithful_byte : Faithful .byte byte id := by
  intro b depth v _ read
  rw [Doc.ofJson_injective (Decoder.byte_eq_ok read), id]

theorem faithful_json : Faithful .json id id := by
  intro w depth v _ read
  rw [Doc.toJson_ofJson read]
  exact ordered_ordered v

theorem faithful_members : Faithful .members .object id := by
  intro ms depth v _ read
  rw [Doc.toJson_ofJson (Decoder.members_eq_ok_iff.mp read)]
  exact ordered_ordered v

theorem faithful_erase (key : String) :
    Faithful .members (fun ms => .object (Members.erase key ms)) (rewrite [(key, .dropped)]) := by
  intro ms depth v distinct read
  have same := Doc.toJson_ofJson (Decoder.members_eq_ok_iff.mp read)
  cases v with
  | object ns =>
      rw [distinct_object] at distinct
      rw [ordered_object] at same
      obtain rfl := Json.object.inj same
      apply ordered_object_congr (Members.nodup_erase key (Members.sorted_ofList _).nodup)
        (nodup_rewriteMembers_singleton key _ distinct.1)
      intro k
      rw [Members.lookup_erase_eq_ite, Members.lookup_ofList (nodup_map_values distinct.1),
        lookup_map_values, lookup_rewriteMembers_singleton key _ distinct.1]
      split
      · cases ns.lookup k <;> rfl
      · cases ns.lookup k <;> simp
  | _ => simp [ordered] at same

theorem ordered_items {xs : List α} {vs : List Json}
    (same : List.Forall₂ (fun v x => (toJson x).ordered = v.ordered) vs xs) :
    (items toJson xs).ordered = (array vs).ordered := by
  rw [items, ordered_array, ordered_array, List.map_map]
  congr 1
  induction same with
  | nil => rfl
  | cons first _ ih => rw [List.map_cons, List.map_cons, Function.comp_apply, first, ih]

theorem list_ofJson {depth : Nat} {v : Json} {xs : List α}
    (read : Decoder.list item depth (.ofJson v) = .ok xs) :
    ∃ vs, v = .array vs ∧ List.Forall₂ (fun v x => item (depth + 1) (.ofJson v) = .ok x) vs xs := by
  obtain ⟨-, ds, tree, read⟩ := Decoder.list_eq_ok_iff.mp read
  cases v with
  | array vs =>
      rw [Doc.ofJson, Doc.ofItems_eq_map] at tree
      cases tree
      exact ⟨vs, rfl, List.forall₂_map_left_iff.mp read⟩
  | _ => cases tree

theorem faithful_list (faithful : Faithful item toJson change) :
    Faithful (.list item) (items toJson) (each change) := by
  intro xs depth v distinct read
  obtain ⟨vs, rfl, each⟩ := list_ofJson read
  apply ordered_items
  rw [List.forall₂_map_left_iff]
  exact ((List.forall₂_and_left _ _).mpr ⟨distinct_array.mp distinct, each⟩).imp
    fun v x both => faithful x both.1 both.2

theorem faithful_list_id (faithful : Faithful item toJson id) :
    Faithful (.list item) (items toJson) id := by
  intro xs depth v distinct read
  rw [faithful_list faithful xs distinct read]
  cases v <;> simp [each]

theorem faithful_map (faithful : Faithful item toJson change) :
    Faithful (.map item) (entries toJson) (eachMember change) := by
  intro xs depth v distinct read
  obtain ⟨-, ms, made, tree, each, rfl⟩ := Decoder.map_eq_ok_iff.mp read
  clear read
  cases v with
  | object ns =>
      rw [Doc.ofJson, Doc.ofMembers_eq_map] at tree
      cases tree
      -- a list of members with a sorted map: what is done to the values may be done before sorting
      have written : ((Members.ofList made).map fun (k, x) => (k, toJson x)).map
          (fun m => (m.1, m.2.ordered)) =
          Members.ofList (ns.map fun m => (m.1, (change m.2).ordered)) := by
        rw [List.map_map]
        refine (Members.ofList_map (fun x => (toJson x).ordered) made).trans (congrArg _ ?_)
        rw [List.forall₂_map_left_iff] at each
        rw [distinct_object] at distinct
        replace distinct := distinct.2
        induction each with
        | nil => rfl
        | @cons m x ns made first _ ih =>
            rw [List.forall_mem_cons] at distinct
            obtain ⟨named, first⟩ := first
            rw [List.map_cons, List.map_cons, ih distinct.2, faithful x.2 distinct.1 first,
              Option.some.inj named]
      rw [entries, ordered_object, written, Members.ofList_ofList, eachMember, ordered_object,
        List.map_map]
      rfl
  | _ => cases tree

end

structure Slot.Follows {σ : Type} (s : Slot σ) (rules : List (String × MemberRule)) (blank : σ)
    (depth : Nat) (r : σ) : Prop where
  back : ∀ v, v.Distinct → s.item depth (.ofJson v) = .ok (s.get r) →
    (s.member? r).map ordered = (backOf rules s.name v).map ordered
  missing : s.required = false → s.get r = s.get blank →
    (s.member? r).map ordered = ((rules.lookup s.name).bind (·.missing)).map ordered

section

variable {σ α : Type} {item : Decoder α} {toJson : α → Json} {change : Json → Json}
  {name : String} {blank r : σ} {depth : Nat}

theorem Slot.follows_rewritten {member : Option α → Option Json} {get : σ → Option α}
    {put : Option α → σ → σ} {rule : MemberRule} (ruled : rules.lookup name = some rule)
    (start : get blank = none) (null : rule.back .null = rule.missing)
    (absent : (member none).map ordered = rule.missing.map ordered)
    (present : ∀ x ⦃depth v⦄, v ≠ .null → v.Distinct → item depth (.ofJson v) = .ok x →
      (member (some x)).map ordered = (rule.back v).map ordered) :
    (Slot.rewritten name item member get put).Follows rules blank depth r where
  back v distinct read := by
    change (member (get r)).map ordered = (backOf rules name v).map ordered
    rw [backOf, ruled]
    rcases Decoder.optional_eq_ok_iff.mp read with ⟨tree, empty⟩ | ⟨solid, x, read, held⟩
    · change get r = none at empty
      obtain rfl : v = .null := Doc.ofJson_injective tree
      rw [empty, absent]
      exact congrArg _ null.symm
    · change some x = get r at held
      rw [← held]
      refine present x ?_ distinct read
      rintro rfl
      exact solid rfl
  missing _ same := by
    change get r = get blank at same
    change (member (get r)).map ordered = ((rules.lookup name).bind _).map ordered
    rw [same, start, ruled, absent]
    rfl

theorem Slot.follows_optional {get : σ → Option α} {put : Option α → σ → σ}
    (rule : rules.lookup name = some (.optional change)) (start : get blank = none)
    (faithful : Faithful item toJson change) :
    (Slot.optional name item toJson get put).Follows rules blank depth r := by
  refine follows_rewritten rule start rfl rfl fun x depth v solid distinct read => ?_
  have same : MemberRule.optional change = .filled none change := rfl
  rw [same, MemberRule.filled_back solid]
  exact congrArg some (faithful x distinct read)

theorem Slot.follows_filled {default : Option α} {default' : Option Json} {get : σ → Option α}
    {put : Option α → σ → σ} (ruled : rules.lookup name = some (.filled default' change))
    (start : get blank = none) (same : (default.map toJson).map ordered = default'.map ordered)
    (faithful : Faithful item toJson change) :
    (Slot.rewritten name item (fun v => (v <|> default).map toJson) get put).Follows rules blank
      depth r := by
  refine follows_rewritten ruled start rfl ?_ ?_
  · exact same
  · intro x depth v solid distinct read
    rw [MemberRule.filled_back solid]
    exact congrArg some (faithful x distinct read)

theorem Slot.follows_mandatory {get : σ → α} {put : α → σ → σ}
    (rule : ∀ v, backOf rules name v = some (change v)) (faithful : Faithful item toJson change) :
    (Slot.mandatory name item toJson get put).Follows rules blank depth r where
  back v distinct read := by
    rw [show (Slot.mandatory name item toJson get put).name = name from rfl, rule v]
    exact congrArg some (faithful _ distinct read)
  missing optional := by cases optional

theorem Slot.follows_defaulted {get : σ → α} {put : α → σ → σ} {default : Json}
    (rule : rules.lookup name = some (.defaulted default change))
    (start : (toJson (get blank)).ordered = default.ordered)
    (faithful : FaithfulAt item toJson change (get r)) :
    (Slot.defaulted name item toJson get put).Follows rules blank depth r where
  back v distinct read := by
    change (some (toJson (get r))).map ordered = (backOf rules name v).map ordered
    rw [backOf, rule]
    exact congrArg some (faithful distinct read)
  missing _ same := by
    change get r = get blank at same
    change (some (toJson (get r))).map ordered = ((rules.lookup name).bind _).map ordered
    rw [same, rule]
    exact congrArg some start

namespace Layout

variable {L : Layout σ}

structure Governs (rules : List (String × MemberRule)) (L : Layout σ) : Prop where
  names : (rules.map (·.1)).Nodup
  own : ∀ k ∈ rules.map (·.1), k ∈ L.slots.map (·.name)

theorem Governs.lookup_foreign (governs : Governs rules L) {k : String} (foreign : L.Foreign k) :
    rules.lookup k = none := by
  rw [lookup_eq_none_iff_notMem]
  intro ruled
  obtain ⟨s, member, named⟩ := List.mem_map.mp (governs.own k ruled)
  exact foreign s member named

theorem Holds.ordered_write (lawful : L.Lawful) (governs : Governs rules L)
    (distinct : (object ms).Distinct)
    (holds : L.Holds depth (fun k => (ms.lookup k).map Doc.ofJson) r)
    (follows : ∀ s ∈ L.slots, s.Follows rules L.blank depth r) :
    (object (L.write r)).ordered = (rewrite rules (object ms)).ordered := by
  rw [distinct_object] at distinct
  apply ordered_object_congr (holds.nodup_write lawful)
    (nodup_rewriteMembers governs.names distinct.1)
  intro k
  -- key by key: either the record has kept the member as it was, or its slot speaks for it
  rw [lookup_rewriteMembers governs.names distinct.1]
  by_cases foreign : L.Foreign k
  · rw [lookup_write_of_foreign foreign, governs.lookup_foreign foreign]
    cases present : ms.lookup k with
    | some v =>
        obtain ⟨w, read, kept⟩ := holds.kept k foreign (.ofJson v) (by rw [present]; rfl)
        obtain rfl := Doc.toJson_ofJson read
        simp [kept, backOf, governs.lookup_foreign foreign]
    | none =>
        rw [holds.absent k foreign (by rw [present]; rfl)]
        rfl
  · obtain ⟨s, member, rfl⟩ : ∃ s ∈ L.slots, s.name = k := by
      simpa [Foreign] using foreign
    rw [lookup_write_of_slot lawful holds.foreign member]
    cases present : ms.lookup s.name with
    | some v =>
        exact (follows s member).back v (distinct.2 _ (mem_of_lookup_eq_some present))
          (holds.given s member (.ofJson v) (by rw [present]; rfl))
    | none =>
        obtain ⟨optional, same⟩ := holds.missing s member (by rw [present]; rfl)
        exact (follows s member).missing optional same

theorem faithfulAt_opened (keeps : L.Keeps) (governs : Governs rules L) {item : Decoder σ}
    {toJson : σ → Json} (reads : item = L.opened) (writes : toJson r = .object (L.write r))
    (follows : ∀ depth, ∀ s ∈ L.slots, s.Follows rules L.blank depth r) :
    FaithfulAt item toJson (rewrite rules) r := by
  intro depth v distinct read
  rw [reads] at read
  obtain ⟨-, ns, tree, holds⟩ := holds_of_opened keeps read
  cases v with
  | object ms =>
      cases tree
      have found : (fun k => (Doc.ofMembers ms).reverse.lookup (some k)) =
          fun k => (ms.lookup k).map Doc.ofJson := by
        funext k
        rw [lookup_reverse (Doc.nodup_ofMembers (distinct_object.mp distinct).1),
          Doc.lookup_ofMembers]
      rw [found] at holds
      rw [writes, holds.ordered_write keeps.toLawful governs distinct (follows _)]
  | _ => cases tree

end Layout

end

end RelayControl.Json
