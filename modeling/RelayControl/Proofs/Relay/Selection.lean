import Mathlib.Data.List.Induction
import RelayControl.Proofs.Json.Values
import RelayControl.Proofs.Relay.Config.Rereading
import RelayControl.Proofs.Relay.Entitlement

/-!
Which entries of a client list reach the relay. An entry is admissible by itself, by what it says
and what is recorded of its email; of the admissible ones those stay whose email comes there for the
first time. A list that was chosen so is chosen again as it is.
-/

namespace RelayControl

open Json

/-- What an object says under a key where it holds nothing, `null` or a text. -/
inductive TextUnder (ms : Members) (key : String) : Option String → Prop
  | absent (missing : ms.lookup key = none) : TextUnder ms key none
  | null (empty : ms.lookup key = some .null) : TextUnder ms key none
  | text {s : String} (present : ms.lookup key = some (.text s)) : TextUnder ms key (some s)

theorem textUnder_iff {ms : Members} {key : String} {v? : Option String} {depth : Nat} :
    TextUnder ms key v? ↔
      (∀ d, (ms.lookup key).map Doc.ofJson = some d →
        Decoder.optional .text depth d = .ok v?) ∧
      ((ms.lookup key).map Doc.ofJson = none → v? = none) := by
  constructor
  · intro told
    cases told with
    | absent missing => simp [missing]
    | null empty => simp [empty, Doc.ofJson, Decoder.optional]
    | text present => simp [present, Doc.ofJson, Decoder.optional, Decoder.text, Except.map]
  · rintro ⟨given, missing⟩
    cases found : ms.lookup key with
    | none =>
        obtain rfl := missing (by rw [found]; rfl)
        exact .absent found
    | some v =>
        have read := given (.ofJson v) (by rw [found]; rfl)
        rcases Decoder.optional_eq_ok_iff.mp read with ⟨null, rfl⟩ | ⟨-, s, text, rfl⟩
        · obtain rfl : v = .null := Doc.ofJson_injective null
          exact .null found
        · obtain rfl : v = .text s := Doc.ofJson_injective (Decoder.text_eq_ok_iff.mp text)
          exact .text found

namespace Client

structure SpelledBy (ms : Members) (c : Client) : Prop where
  id : TextUnder ms "id" c.id
  password : TextUnder ms "password" c.password
  email : TextUnder ms "email" c.email
  flow : TextUnder ms "flow" c.flow
  method : TextUnder ms "method" c.method

theorem spelledBy_iff_held {ms : Members} {c : Client} {depth : Nat} : SpelledBy ms c ↔
    Slot.Held layout.slots layout.blank depth (fun k => (ms.lookup k).map Doc.ofJson) c := by
  have each : Slot.Held layout.slots layout.blank depth (fun k => (ms.lookup k).map Doc.ofJson) c ↔
      ∀ s ∈ layout.slots,
        (∀ d, (ms.lookup s.name).map Doc.ofJson = some d → s.item depth d = .ok (s.get c)) ∧
        ((ms.lookup s.name).map Doc.ofJson = none →
          s.required = false ∧ s.get c = s.get layout.blank) :=
    ⟨fun held s member => ⟨held.given s member, held.missing s member⟩,
      fun both => ⟨fun s member => (both s member).1, fun s member => (both s member).2⟩⟩
  rw [each]
  simp only [layout, List.forall_mem_cons, Slot.optional, true_and, ← textUnder_iff]
  constructor
  · rintro ⟨id, password, email, flow, method⟩
    exact ⟨id, password, email, flow, method, List.forall_mem_nil _⟩
  · rintro ⟨id, password, email, flow, method, -⟩
    exact ⟨id, password, email, flow, method⟩

theorem fromJson_object_eq_ok_iff {ms : Members} {c : Client} (distinct : (ms.map (·.1)).Nodup) :
    fromJson decoder (.object ms) = .ok c ↔ SpelledBy ms c := by
  rw [fromJson, decoder_eq, Doc.ofJson, Layout.closed_ofMembers_eq_ok_iff lawful bare distinct,
    spelledBy_iff_held]
  exact and_iff_right (by decide)

end Client

/-- The entries of a rule's client list are read from a text, so none of them repeats a key. -/
theorem RuleBody.nodup_of_clientEntries? {rule : RuleBody} {entries : List Json}
    (listed : rule.clientEntries? = some entries) :
    ∀ ms, .object ms ∈ entries → (ms.map (·.1)).Nodup := by
  intro ms member
  rw [clientEntries?] at listed
  split at listed
  case h_1 settings read =>
    split at listed
    case h_1 held =>
      obtain rfl := Option.some.inj listed
      rw [unlessBlank?] at read
      split at read
      · cases read
      · obtain ⟨_, decoded, same⟩ := map_eq_ok_iff.mp read
        obtain rfl := Option.some.inj same
        have whole := Doc.distinct_of_toJson (Decoder.members_eq_ok_iff.mp (tree_of_decode decoded))
        have list := (distinct_object.mp whole).2 _ (mem_of_lookup_eq_some held)
        exact (distinct_object.mp (distinct_array.mp list _ member)).1
    all_goals cases listed
  all_goals cases listed

structure MayUse (records : List ClientRecord) (policy : MissingRecordPolicy)
    (email : Option String) : Prop where
  notDisabled : ∀ r ∈ records, email = some r.email → r.enabled = true
  recordedIfAsked : policy = .drop → ∃ r ∈ records, email = some r.email

variable {records : List ClientRecord} {policy : MissingRecordPolicy}

theorem mayUse_iff {email : Option String} :
    MayUse records policy email ↔ entitles records policy email = true := by
  rw [entitles_iff]
  exact ⟨fun may => ⟨may.notDisabled, may.recordedIfAsked⟩, fun both => ⟨both.1, both.2⟩⟩

instance (email : Option String) : Decidable (MayUse records policy email) :=
  decidable_of_iff _ mayUse_iff.symm

/-- The entry is an object that is not switched off and tells a client that may use the rule. -/
inductive Admissible (records : List ClientRecord) (policy : MissingRecordPolicy) :
    Json → Client → Prop
  | intro {ms : Members} {c : Client} (switchedOn : ms.lookup "enable" ≠ some (.bool false))
      (spelled : Client.SpelledBy ms c) (entitled : MayUse records policy c.email) :
      Admissible records policy (.object ms) c

def admit? (records : List ClientRecord) (policy : MissingRecordPolicy) (entry : Json) :
    Option Client :=
  (Client.ofRaw? entry).filter (entitles records policy ·.email)

theorem admittedClients_eq (entries : List Json) : admittedClients records policy entries =
    (Client.distinct [] (entries.filterMap (admit? records policy))).map Client.withPlainFlow := by
  rw [admittedClients, List.filter_filterMap]
  rfl

theorem admit?_eq_some_iff {entry : Json} {c : Client}
    (distinct : ∀ ms, entry = .object ms → (ms.map (·.1)).Nodup) :
    admit? records policy entry = some c ↔ Admissible records policy entry c := by
  rw [admit?, Option.filter_eq_some_iff, Client.ofRaw?_eq_some_iff, ← mayUse_iff]
  constructor
  · rintro ⟨⟨ms, rfl, switchedOn, read⟩, entitled⟩
    exact .intro switchedOn ((Client.fromJson_object_eq_ok_iff (distinct ms rfl)).mp read) entitled
  · rintro ⟨switchedOn, spelled, entitled⟩
    have read := (Client.fromJson_object_eq_ok_iff (distinct _ rfl)).mpr spelled
    exact ⟨⟨_, rfl, switchedOn, read⟩, entitled⟩

namespace Client

variable {α : Type} {stands : α → Client → Prop} {items : List α} {i : Nat} {c : Client}

def FreshAfter (stands : α → Client → Prop) (items : List α) (c : Client) : Prop :=
  ∀ a ∈ items, ∀ d, stands a d → ∀ email, c.email = some email → d.email ≠ some email

structure FirstAt (stands : α → Client → Prop) (items : List α) (i : Nat) (c : Client) : Prop where
  here : ∃ a, items[i]? = some a ∧ stands a c
  first : FreshAfter stands (items.take i) c

theorem FirstAt.lt_length (first : FirstAt stands items i c) : i < items.length := by
  obtain ⟨a, present, -⟩ := first.here
  exact (List.getElem?_eq_some_iff.mp present).1

theorem firstAt_append {a : α} : FirstAt stands (items ++ [a]) i c ↔
    FirstAt stands items i c ∨
      i = items.length ∧ stands a c ∧ FreshAfter stands items c := by
  rcases lt_trichotomy i items.length with below | rfl | above
  · have before : (items ++ [a]).take i = items.take i := List.take_append_of_le_length below.le
    have here : (items ++ [a])[i]? = items[i]? := List.getElem?_append_left below
    constructor
    · rintro ⟨present, first⟩
      exact .inl ⟨here ▸ present, before ▸ first⟩
    · rintro (⟨present, first⟩ | ⟨rfl, -⟩)
      · exact ⟨here ▸ present, before ▸ first⟩
      · exact absurd below (lt_irrefl _)
  · have before : (items ++ [a]).take items.length = items := List.take_left
    have here : (items ++ [a])[items.length]? = some a := List.getElem?_concat_length
    constructor
    · rintro ⟨⟨b, present, standing⟩, first⟩
      obtain rfl : a = b := Option.some.inj (here.symm.trans present)
      exact .inr ⟨rfl, standing, before ▸ first⟩
    · rintro (first | ⟨-, standing, fresh⟩)
      · exact absurd first.lt_length (lt_irrefl _)
      · exact ⟨⟨a, here, standing⟩, before.symm ▸ fresh⟩
  · constructor
    · intro first
      have below := first.lt_length
      rw [List.length_append, List.length_singleton] at below
      omega
    · rintro (first | ⟨rfl, -⟩)
      · exact absurd (above.trans first.lt_length) (lt_irrefl _)
      · exact absurd above (lt_irrefl _)

variable {f : α → Option Client}

theorem freshAfter_iff : FreshAfter (fun a d => f a = some d) items c ↔
    ¬∃ email, c.email = some email ∧ some email ∈ (items.filterMap f).map (·.email) := by
  constructor
  · rintro fresh ⟨email, named, again⟩
    obtain ⟨d, member, same⟩ := List.mem_map.mp again
    obtain ⟨a, inside, read⟩ := List.mem_filterMap.mp member
    exact fresh a inside d read email named same
  · intro fresh a inside d read email named same
    exact fresh ⟨email, named, List.mem_map.mpr ⟨d, List.mem_filterMap.mpr ⟨a, inside, read⟩, same⟩⟩

theorem exists_positions (f : α → Option Client) (items : List α) :
    ∃ positions : List Nat, positions.Pairwise (· < ·) ∧
      (∀ i, i ∈ positions ↔ ∃ c, FirstAt (fun a d => f a = some d) items i c) ∧
      List.Forall₂ (FirstAt (fun a d => f a = some d) items) positions
        (distinct [] (items.filterMap f)) := by
  -- from the end of the list, since what is first at a position hangs on what stands before it
  induction items using List.reverseRecOn with
  | nil =>
      refine ⟨[], .nil, ?_, .nil⟩
      intro i
      constructor
      · rintro ⟨⟩
      · rintro ⟨c, first⟩
        exact absurd first.lt_length (Nat.not_lt_zero i)
  | append_singleton items a ih =>
      obtain ⟨positions, increasing, complete, each⟩ := ih
      have carried := each.imp fun i c first => firstAt_append (a := a).mpr (.inl first)
      simp only [firstAt_append, exists_or, ← complete]
      by_cases joins : ∃ c, f a = some c ∧ FreshAfter (fun a d => f a = some d) items c
      · obtain ⟨c, read, fresh⟩ := joins
        have kept : distinct [] ((items ++ [a]).filterMap f) =
            distinct [] (items.filterMap f) ++ [c] := by
          have last : [a].filterMap f = [c] := by simp [read]
          rw [List.filterMap_append, last, distinct_concat, if_neg]
          simpa using freshAfter_iff.mp fresh
        refine ⟨positions ++ [items.length], ?_, ?_, ?_⟩
        · rw [List.pairwise_append]
          refine ⟨increasing, List.pairwise_singleton .., ?_⟩
          intro i member j last
          obtain ⟨d, first⟩ := (complete i).mp member
          rw [List.mem_singleton.mp last]
          exact first.lt_length
        · intro i
          rw [List.mem_append, List.mem_singleton]
          exact or_congr_right ⟨fun last => ⟨c, last, read, fresh⟩, fun ⟨_, last, _⟩ => last⟩
        · rw [kept]
          exact List.rel_append carried (.cons (firstAt_append.mpr (.inr ⟨rfl, read, fresh⟩)) .nil)
      · have kept : distinct [] ((items ++ [a]).filterMap f) = distinct [] (items.filterMap f) := by
          rw [List.filterMap_append]
          cases read : f a with
          | none => simp [read]
          | some c =>
              have last : [a].filterMap f = [c] := by simp [read]
              have repeated : ¬FreshAfter (fun a d => f a = some d) items c := fun fresh =>
                joins ⟨c, read, fresh⟩
              rw [last, distinct_concat, if_pos, List.append_nil]
              simpa using not_not.mp (mt freshAfter_iff.mpr repeated)
        refine ⟨positions, increasing, ?_, by rw [kept]; exact carried⟩
        intro i
        exact (or_iff_left fun ⟨c, _, found⟩ => joins ⟨c, found⟩).symm

theorem FirstAt.congr {stands' : α → Client → Prop}
    (same : ∀ a ∈ items, ∀ d, stands a d ↔ stands' a d) :
    FirstAt stands items i c ↔ FirstAt stands' items i c := by
  have one : ∀ {s s' : α → Client → Prop}, (∀ a ∈ items, ∀ d, s a d ↔ s' a d) →
      FirstAt s items i c → FirstAt s' items i c := by
    rintro s s' same ⟨⟨a, present, standing⟩, first⟩
    refine ⟨⟨a, present, (same a (List.mem_of_getElem? present) c).mp standing⟩, ?_⟩
    intro b before d standing
    exact first b before d ((same b (List.mem_of_mem_take before) d).mpr standing)
  exact ⟨one same, one fun a member d => (same a member d).symm⟩

structure PassedOn (raw c : Client) : Prop where
  id : c.id = raw.id
  password : c.password = raw.password
  email : c.email = raw.email
  flow : c.flow = raw.flow.map fun flow =>
    if flow = "xtls-rprx-vision-udp443" then "xtls-rprx-vision" else flow
  method : c.method = raw.method

theorem passedOn_withPlainFlow (raw : Client) : PassedOn raw raw.withPlainFlow := by
  unfold withPlainFlow
  cases named : raw.flow with
  | none => exact ⟨rfl, rfl, rfl, by simp [named], rfl⟩
  | some flow =>
      by_cases other : flow = "xtls-rprx-vision-udp443"
      · subst other
        exact ⟨rfl, rfl, rfl, by simp [named, visionFlow], rfl⟩
      · have kept : ¬some flow = some "xtls-rprx-vision-udp443" := mt Option.some.inj other
        rw [if_neg kept]
        exact ⟨rfl, rfl, rfl, by simp [named, other], rfl⟩

end Client

/--
The clients that reach the relay stand, in this order, for the entries that are admissible and come
before all admissible ones of the same email.
-/
theorem admittedClients_positions (records : List ClientRecord) (policy : MissingRecordPolicy)
    {entries : List Json} (distinct : ∀ ms, .object ms ∈ entries → (ms.map (·.1)).Nodup) :
    ∃ positions : List Nat, positions.Pairwise (· < ·) ∧
      (∀ i, i ∈ positions ↔ ∃ raw, Client.FirstAt (Admissible records policy) entries i raw) ∧
      List.Forall₂
        (fun i c => ∃ raw, Client.FirstAt (Admissible records policy) entries i raw ∧
          Client.PassedOn raw c)
        positions (admittedClients records policy entries) := by
  have same : ∀ i c,
      Client.FirstAt (fun entry d => admit? records policy entry = some d) entries i c ↔
        Client.FirstAt (Admissible records policy) entries i c := by
    intro i c
    apply Client.FirstAt.congr
    intro entry member d
    exact admit?_eq_some_iff fun ms own => distinct ms (own ▸ member)
  obtain ⟨positions, increasing, complete, each⟩ :=
    Client.exists_positions (admit? records policy) entries
  refine ⟨positions, increasing, ?_, ?_⟩
  · intro i
    simp only [complete, same]
  · rw [admittedClients_eq, List.forall₂_map_right_iff]
    apply each.imp
    intro i raw first
    exact ⟨raw, (same i raw).mp first, raw.passedOn_withPlainFlow⟩

/-- The clients of a rule: no object, switched off, malformed, the first of its email with a flow to
be renamed, the second of it, disabled by one of two records, and twice without an email. -/
theorem admittedClients_positions_mixed :
    let rule : RuleBody :=
      { tag := "R1", port := 443, protocol := "vless"
        settings := "\x7b\"clients\":[7,\x7b\"email\":\"a\",\"enable\":false\x7d," ++
          "\x7b\"email\":\"a\",\"id\":4\x7d,\x7b\"email\":\"a\",\"enable\":0," ++
          "\"flow\":\"xtls-rprx-vision-udp443\",\"id\":null\x7d,\x7b\"email\":\"a\"\x7d," ++
          "\x7b\"email\":\"b\"\x7d,\x7b\"id\":\"3\"\x7d,\x7b\"id\":\"3\"\x7d]\x7d" }
    let records : List ClientRecord := [⟨"b", true⟩, ⟨"b", false⟩]
    let clients : List Client :=
      [{ email := some "a", flow := some "xtls-rprx-vision" }, { id := some "3" },
        { id := some "3" }]
    ∃ entries, rule.clientEntries? = some entries ∧ entries.length = 8 ∧
      (∀ ms, .object ms ∈ entries → (ms.map (·.1)).Nodup) ∧
      admittedClients records .keep entries = clients ∧
      ∃ positions : List Nat, positions.Pairwise (· < ·) ∧
        (∀ i, i ∈ positions ↔ ∃ raw, Client.FirstAt (Admissible records .keep) entries i raw) ∧
        List.Forall₂
          (fun i c => ∃ raw, Client.FirstAt (Admissible records .keep) entries i raw ∧
            Client.PassedOn raw c)
          positions clients := by
  intro rule records clients
  have chosen : rule.clientEntries?.map (fun entries =>
      (entries.length, admittedClients records .keep entries)) = some (8, clients) := by
    decide +kernel
  obtain ⟨entries, listed, same⟩ := Option.map_eq_some_iff.mp chosen
  obtain ⟨length, chosen⟩ := Prod.mk.inj same
  have distinct := RuleBody.nodup_of_clientEntries? listed
  obtain ⟨positions, increasing, complete, each⟩ :=
    admittedClients_positions records .keep distinct
  exact ⟨entries, listed, length, distinct, chosen, positions, increasing, complete, chosen ▸ each⟩

/-! Choosing again. -/

namespace Client

theorem spelledBy_of_lookup {ms : Members} {c : Client}
    (same : ∀ k, ms.lookup k = (layout.write c).lookup k) : SpelledBy ms c := by
  have each : ∀ s ∈ layout.slots, ms.lookup s.name = s.member? c := by
    intro s member
    rw [same, Layout.lookup_write_of_slot lawful (by simp [bare]) member]
  have spelled : ∀ {key : String} {v? : Option String}, ms.lookup key = v?.map Json.text →
      TextUnder ms key v? := by
    intro key v? found
    cases v? with
    | none => exact .absent found
    | some t => exact .text found
  simp only [layout, List.forall_mem_cons] at each
  obtain ⟨id, password, email, flow, method, -⟩ := each
  exact ⟨spelled id, spelled password, spelled email, spelled flow, spelled method⟩

theorem enable_not_written (c : Client) : (layout.write c).lookup "enable" = none := by
  have foreign : layout.Foreign "enable" := by
    simp only [Layout.Foreign, layout, List.forall_mem_cons, Slot.optional]
    decide
  rw [Layout.lookup_write_of_foreign foreign, bare]
  rfl

theorem ofRaw?_of_lookup {ms : Members} {c : Client} (distinct : (ms.map (·.1)).Nodup)
    (same : ∀ k, ms.lookup k = (layout.write c).lookup k) : ofRaw? (.object ms) = some c := by
  have read := (fromJson_object_eq_ok_iff distinct).mpr (spelledBy_of_lookup same)
  refine ofRaw?_eq_some_iff.mpr ⟨ms, rfl, ?_, read⟩
  rw [same, enable_not_written]
  nofun

theorem ofRaw?_toJson (c : Client) : ofRaw? c.toJson = some c := by
  rw [toJson_eq]
  exact ofRaw?_of_lookup c.nodup_write fun _ => rfl

theorem ofRaw?_ordered_toJson (c : Client) : ofRaw? c.toJson.ordered = some c := by
  rw [toJson_eq, ordered_object]
  apply ofRaw?_of_lookup (Members.sorted_ofList _).nodup
  intro k
  rw [Members.lookup_ofList (nodup_map_values c.nodup_write), lookup_map_values]
  cases found : (layout.write c).lookup k with
  | none => rfl
  | some v =>
      obtain ⟨t, rfl⟩ := text_of_mem_write (mem_of_lookup_eq_some found)
      rfl

theorem parse_items (cs : List Client) :
    parse (items toJson cs).pretty = .ok (.array (cs.map fun c => c.toJson.ordered)) := by
  have texts : ∀ c : Client, ∀ m ∈ layout.write c, m.2.Legible ∧ m.2.Readable 2 := by
    intro c m member
    obtain ⟨t, text⟩ := text_of_mem_write member
    rw [text]
    exact ⟨trivial, rfl⟩
  have legible : (items toJson cs).Legible := by
    rw [items, legible_array, List.forall_mem_map]
    intro c _
    rw [toJson_eq, legible_object]
    exact fun m member => (texts c m member).1
  have readable : (items toJson cs).Readable 0 := by
    apply readable_array (by decide)
    rw [List.forall_mem_map]
    intro c _
    rw [toJson_eq]
    exact readable_object (by decide) fun m member => (texts c m member).2
  rw [parse, decode_pretty legible]
  refine readable.trans ?_
  rw [items, ordered_array, List.map_map]
  rfl

end Client

theorem admittedClients_of_chosen {entries again : List Json}
    (read : again.filterMap Client.ofRaw? = admittedClients records policy entries) :
    admittedClients records policy again = admittedClients records policy entries := by
  have entitled : (admittedClients records policy entries).filter
      (entitles records policy ·.email) = admittedClients records policy entries := by
    rw [List.filter_eq_self]
    intro c member
    obtain ⟨_, -, raw, -, may, rfl⟩ := mem_admittedClients member
    rwa [Client.withPlainFlow_email]
  have plain : (admittedClients records policy entries).map Client.withPlainFlow =
      admittedClients records policy entries := by
    rw [← List.map_id (admittedClients records policy entries), List.map_map]
    apply List.map_congr_left
    intro c member
    obtain ⟨_, -, raw, -, -, rfl⟩ := mem_admittedClients member
    exact raw.withPlainFlow_idem
  have single : Client.distinct [] (admittedClients records policy entries) =
      admittedClients records policy entries :=
    Client.distinct_of_nodup (admittedClients_nodup records policy entries)
      fun _ _ => List.not_mem_nil
  conv_lhs => unfold admittedClients
  dsimp only
  rw [read, entitled, single, plain]

/--
Clients that have been chosen are chosen again from what is written of them: from the values as they
are built, and from the entries that are read in their printed text.
-/
theorem admittedClients_idempotent (records : List ClientRecord) (policy : MissingRecordPolicy)
    (entries : List Json) :
    let chosen := admittedClients records policy entries
    admittedClients records policy (chosen.map Client.toJson) = chosen ∧
      ∃ again, parse (items Client.toJson chosen).pretty = .ok (.array again) ∧
        admittedClients records policy again = chosen := by
  intro chosen
  refine ⟨?_, _, Client.parse_items chosen, ?_⟩
  · apply admittedClients_of_chosen
    have each : Client.ofRaw? ∘ Client.toJson = some := funext Client.ofRaw?_toJson
    rw [List.filterMap_map, each, List.filterMap_some]
  · apply admittedClients_of_chosen
    have each : (Client.ofRaw? ∘ fun c => c.toJson.ordered) = some :=
      funext Client.ofRaw?_ordered_toJson
    rw [List.filterMap_map, each, List.filterMap_some]

end RelayControl
