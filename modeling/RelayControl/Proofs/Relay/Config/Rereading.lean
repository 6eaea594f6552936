import RelayControl.Proofs.Json.Order
import RelayControl.Proofs.Json.Reading
import RelayControl.Proofs.Json.Rereading
import RelayControl.Proofs.Relay.Config.Layouts

/-!
Reading the printed text of a configuration. Every section is read again as it is. An outbound that
was taken as a plain one, because a key of it is repeated, may be read again as a tunnel: its printed
text repeats no key.
-/

namespace RelayControl

open Json
open Layout (rereads_opened rereads_closed)
open Slot (returns_optional returns_mandatory returns_defaulted)

namespace LevelPolicy

theorem rereads {depth : Nat} : Rereads decoder toJson depth := by
  apply rereads_opened keeps decoder_eq toJson_eq
  intro p
  simp only [layout, List.forall_mem_cons]
  exact ⟨returns_optional rfl rereads_word32, returns_optional rfl rereads_word32,
    returns_optional rfl rereads_word32, returns_optional rfl rereads_word32,
    returns_optional rfl rereads_word32, returns_optional rfl rereads_bool,
    returns_optional rfl rereads_bool, List.forall_mem_nil _⟩

end LevelPolicy

namespace Policy

theorem rereads {depth : Nat} (shallow : depth + 1 < depthLimit) :
    Rereads decoder toJson depth := by
  have start : Decoder.map LevelPolicy.decoder (depth + 1)
      (.ofJson (entries LevelPolicy.toJson [])) = .ok [] :=
    Decoder.map_eq_ok_iff.mpr ⟨shallow, [], [], rfl, .nil, rfl⟩
  apply rereads_opened keeps decoder_eq toJson_eq
  intro p
  simp only [layout, List.forall_mem_cons]
  exact ⟨returns_defaulted start (rereads_map LevelPolicy.rereads).written,
    returns_optional rfl rereads_json, List.forall_mem_nil _⟩

end Policy

namespace Client

theorem rereads {depth : Nat} : Rereads decoder toJson depth := by
  apply rereads_closed lawful bare decoder_eq toJson_eq
  intro c
  simp only [layout, List.forall_mem_cons]
  exact ⟨returns_optional rfl rereads_text, returns_optional rfl rereads_text,
    returns_optional rfl rereads_text, returns_optional rfl rereads_text,
    returns_optional rfl rereads_text, List.forall_mem_nil _⟩

end Client

namespace InboundSettings

theorem rereads {depth : Nat} : Rereads decoder toJson depth := by
  apply rereads_opened keeps decoder_eq toJson_eq
  intro s
  simp only [layout, List.forall_mem_cons]
  exact ⟨returns_optional rfl (rereads_list Client.rereads), List.forall_mem_nil _⟩

end InboundSettings

namespace SocketOptions

theorem rereads {depth : Nat} : Rereads decoder toJson depth := by
  apply rereads_opened keeps decoder_eq toJson_eq
  intro o
  simp only [layout, List.forall_mem_cons]
  exact ⟨returns_optional rfl rereads_bool, returns_optional rfl rereads_word32,
    returns_optional rfl rereads_bool, List.forall_mem_nil _⟩

end SocketOptions

namespace StreamSettings

theorem rereads {depth : Nat} : Rereads decoder toJson depth := by
  apply rereads_opened keeps decoder_eq toJson_eq
  intro s
  simp only [layout, List.forall_mem_cons]
  exact ⟨returns_optional rfl rereads_members, returns_optional rfl rereads_members,
    returns_optional rfl rereads_json, returns_optional rfl SocketOptions.rereads,
    List.forall_mem_nil _⟩

end StreamSettings

namespace Inbound

theorem rereads {depth : Nat} (shallow : depth + 1 < depthLimit) :
    Rereads decoder toJson depth := by
  have start : InboundSettings.decoder (depth + 1) (.ofJson (InboundSettings.toJson {})) =
      .ok {} := by
    rw [InboundSettings.decoder_eq]
    exact Layout.opened_members_eq_ok_iff.mpr ⟨shallow, rfl⟩
  apply rereads_opened keeps decoder_eq toJson_eq
  intro i
  simp only [layout, List.forall_mem_cons]
  exact ⟨returns_optional rfl rereads_text, returns_mandatory rereads_json,
    returns_mandatory rereads_text, returns_defaulted start InboundSettings.rereads.written,
    returns_optional rfl StreamSettings.rereads, returns_mandatory rereads_text,
    returns_optional rfl rereads_json, List.forall_mem_nil _⟩

end Inbound

namespace Peer

theorem rereads {depth : Nat} : Rereads decoder toJson depth := by
  apply rereads_opened keeps decoder_eq toJson_eq
  intro p
  simp only [layout, List.forall_mem_cons]
  exact ⟨returns_mandatory rereads_text, returns_mandatory (rereads_list rereads_text),
    returns_mandatory rereads_text, List.forall_mem_nil _⟩

theorem ignoresOrder : IgnoresOrder decoder := by
  apply Layout.ignoresOrder_opened keeps decoder_eq
  simp only [layout, List.forall_mem_cons]
  exact ⟨ignoresOrder_text, ignoresOrder_list ignoresOrder_text, ignoresOrder_text,
    List.forall_mem_nil _⟩

end Peer

namespace TunnelSettings

theorem rereads {depth : Nat} : Rereads decoder toJson depth := by
  apply rereads_opened keeps decoder_eq toJson_eq
  intro s
  simp only [layout, List.forall_mem_cons]
  exact ⟨returns_mandatory rereads_text, returns_mandatory (rereads_list rereads_text),
    returns_mandatory (rereads_list Peer.rereads), returns_mandatory rereads_word32,
    returns_mandatory rereads_word32, returns_optional rfl rereads_text,
    returns_optional rfl (rereads_list rereads_byte), List.forall_mem_nil _⟩

theorem ignoresOrder : IgnoresOrder decoder := by
  apply Layout.ignoresOrder_opened keeps decoder_eq
  simp only [layout, List.forall_mem_cons]
  exact ⟨ignoresOrder_text, ignoresOrder_list ignoresOrder_text,
    ignoresOrder_list Peer.ignoresOrder, ignoresOrder_word32, ignoresOrder_word32,
    ignoresOrder_optional ignoresOrder_text,
    ignoresOrder_optional (ignoresOrder_list ignoresOrder_byte), List.forall_mem_nil _⟩

end TunnelSettings

namespace Outbound

variable {depth : Nat} {d : Doc}

theorem rereads_tunnel : Rereads Tunnel.decoder (fun t => toJson (.tunnel t)) depth := by
  have rereads_name : Rereads Tunnel.protocolName (fun _ => .text "wireguard") (depth + 1) :=
    ⟨fun _ _ _ => rfl, fun _ _ _ => rfl, fun _ _ _ _ => nofun⟩
  apply rereads_opened Tunnel.keeps Tunnel.decoder_eq Tunnel.toJson_eq
  intro t
  simp only [Tunnel.layout, List.forall_mem_cons]
  exact ⟨returns_mandatory rereads_name, returns_mandatory rereads_text,
    returns_mandatory TunnelSettings.rereads, List.forall_mem_nil _⟩

theorem rereads_plain : Rereads PlainOutbound.decoder (fun o => toJson (.plain o)) depth := by
  apply rereads_opened PlainOutbound.keeps PlainOutbound.decoder_eq PlainOutbound.toJson_eq
  intro o
  simp only [PlainOutbound.layout, List.forall_mem_cons]
  exact ⟨returns_mandatory rereads_text, returns_optional rfl rereads_text, List.forall_mem_nil _⟩

theorem decoder_eq_ok {o : Outbound} (read : decoder depth d = .ok o) :
    (∃ v, d.toJson depth = .ok v) ∧
      ((∃ t, o = .tunnel t ∧ Tunnel.decoder depth d = .ok t) ∨
        ∃ p e, o = .plain p ∧ Tunnel.decoder depth d = .error e ∧
          PlainOutbound.decoder depth d = .ok p) := by
  obtain ⟨sound, taken⟩ := Decoder.oneOf_eq_ok read
  refine ⟨sound, ?_⟩
  rcases taken with tunnel | ⟨⟨e, failed⟩, plain⟩
  · obtain ⟨t, found, rfl⟩ := map_eq_ok_iff.mp tunnel
    exact .inl ⟨t, rfl, found⟩
  · obtain ⟨p, found, rfl⟩ := map_eq_ok_iff.mp plain
    cases tried : Tunnel.decoder depth d with
    | ok t => simp [Decoder.andThen, tried, Except.map] at failed
    | error e' => exact .inr ⟨p, e', rfl, rfl, found⟩

/-- What a printed outbound is read as: a plain one that has all that a tunnel needs is taken for a
tunnel. An outbound stands inside the list of them inside the configuration. -/
def reread : Outbound → Outbound
  | .tunnel t => .tunnel t
  | .plain p =>
      match Tunnel.decoder 2 (.ofJson (toJson (.plain p))) with
      | .ok t => .tunnel t
      | .error _ => .plain p

theorem decoder_written {o : Outbound} (read : decoder 2 d = .ok o) :
    decoder 2 (.ofJson o.toJson) = .ok o.reread ∧ o.toJson.Readable 2 := by
  obtain ⟨-, ⟨t, rfl, found⟩ | ⟨p, e, rfl, -, found⟩⟩ := decoder_eq_ok read
  · have readable := rereads_tunnel.readable found
    refine ⟨Decoder.oneOf_of_first readable ?_, readable⟩
    rw [Decoder.andThen, rereads_tunnel.again found]
    rfl
  · have readable := rereads_plain.readable found
    refine ⟨?_, readable⟩
    rw [reread]
    cases tried : Tunnel.decoder 2 (.ofJson (toJson (.plain p))) with
    | ok t =>
        apply Decoder.oneOf_of_first readable
        rw [Decoder.andThen, tried]
        rfl
    | error e =>
        apply Decoder.oneOf_of_second readable (e := e)
        · rw [Decoder.andThen, tried]
          rfl
        · rw [Decoder.andThen, rereads_plain.again found]
          rfl

theorem tunnel_of_written {v : Json} {p : PlainOutbound} {t : Tunnel}
    (denotes : Doc.Denotes depth d v) (read : PlainOutbound.decoder depth d = .ok p)
    (written : Tunnel.decoder depth (.ofJson (toJson (.plain p))) = .ok t) :
    Tunnel.decoder depth d = .ok t := by
  rw [PlainOutbound.decoder_eq] at read
  rw [Tunnel.decoder_eq] at written ⊢
  obtain ⟨shallow, ms, rfl, plain⟩ := Layout.holds_of_opened PlainOutbound.keeps read
  obtain ⟨-, -, vs, each, rfl⟩ := Doc.toJson_members_eq_ok_iff.mp denotes.2
  obtain ⟨keys, distinct⟩ := Doc.distinct_members.mp denotes.1
  simp only [lookup_reverse keys] at plain
  rw [PlainOutbound.toJson_eq] at written
  obtain ⟨-, _, tree, tunnel⟩ := Layout.holds_of_opened Tunnel.keeps written
  cases tree
  have keys' := Doc.nodup_ofMembers (plain.nodup_write PlainOutbound.keeps.toLawful)
  simp only [lookup_reverse keys', Doc.lookup_ofMembers] at tunnel
  -- a tunnel has a tag, so the plain outbound has written one
  have tagged : p.tag ≠ none := by
    intro absent
    have omitted : (PlainOutbound.layout.write p).lookup "tag" = none := by
      refine (Layout.lookup_write_of_slot PlainOutbound.keeps.toLawful plain.foreign
        (List.mem_cons_of_mem _ (List.mem_cons_self ..))).trans ?_
      exact congrArg (Option.map Json.text) absent
    have needed := tunnel.missing
    simp only [Tunnel.layout, List.forall_mem_cons] at needed
    cases (needed.2.1 (congrArg (Option.map Doc.ofJson) omitted)).1
  have given := plain.given
  have missing := plain.missing
  simp only [PlainOutbound.layout, List.forall_mem_cons] at given missing
  have named : ∀ d', ms.lookup (some "protocol") = some d' → d' = .text p.protocol :=
    fun d' present => Decoder.text_eq_ok_iff.mp (given.1 d' present)
  have verbatim : ∀ s ∈ PlainOutbound.layout.slots,
      Option.Rel (fun d v => d.toJson (depth + 1) = .ok v) (ms.lookup (some s.name))
        (s.member? p) := by
    simp only [PlainOutbound.layout, List.forall_mem_cons]
    refine ⟨?_, ?_, List.forall_mem_nil _⟩
    · change Option.Rel _ (ms.lookup (some "protocol")) (some (Json.text p.protocol))
      cases present : ms.lookup (some "protocol") with
      | none => cases (missing.1 present).1
      | some d' =>
          rw [named d' present]
          exact .some rfl
    · change Option.Rel _ (ms.lookup (some "tag")) (p.tag.map Json.text)
      cases present : ms.lookup (some "tag") with
      | none => exact absurd (missing.2.1 present).2 tagged
      | some d' =>
          rcases Decoder.optional_eq_ok_iff.mp (given.2.1 d' present) with
            ⟨-, absent⟩ | ⟨-, tag, read, same⟩
          · exact absurd absent tagged
          · obtain rfl := Decoder.text_eq_ok_iff.mp read
            obtain same : some tag = p.tag := same
            rw [← same]
            exact .some rfl
  have written := plain.denotes_write PlainOutbound.keeps.toLawful
    (fun k d present => distinct _ (mem_of_lookup_eq_some present)) verbatim
  apply Layout.opened_of_holds Tunnel.keeps shallow (Doc.keyed_of_readsAs each) keys
  apply tunnel.of_denotes written
  simp only [Tunnel.layout, List.forall_mem_cons]
  refine ⟨?_, ?_, ?_, List.forall_mem_nil _⟩
  · intro d' v present denotes taken
    obtain rfl := named d' present
    cases denotes.2
    exact taken
  · exact fun d' v _ denotes taken => ignoresOrder_text denotes taken
  · exact fun d' v _ denotes taken => TunnelSettings.ignoresOrder denotes taken

theorem list_rereads {os : List Outbound} (read : Decoder.list decoder 1 d = .ok os) :
    Decoder.list decoder 1 (.ofJson (items toJson os)) = .ok (os.map reread) ∧
      (items toJson os).Readable 1 := by
  apply list_written (by decide)
  rw [List.forall₂_map_right_iff, List.forall₂_same]
  intro o member
  obtain ⟨d', found⟩ := exists_of_mem_list read member
  exact decoder_written found

theorem reread_of_distinct {o : Outbound} (distinct : d.Distinct) (read : decoder 2 d = .ok o) :
    o.reread = o := by
  obtain ⟨⟨v, sound⟩, ⟨t, rfl, -⟩ | ⟨p, e, rfl, failed, found⟩⟩ := decoder_eq_ok read
  · rfl
  · rw [reread]
    cases tried : Tunnel.decoder 2 (.ofJson (toJson (.plain p))) with
    | ok t =>
        rw [tunnel_of_written ⟨distinct, sound⟩ found tried] at failed
        cases failed
    | error e => rfl

end Outbound

namespace RelayConfig

def reread (c : RelayConfig) : RelayConfig :=
  { c with outbounds := c.outbounds.map Outbound.reread }

theorem fromJson_written {d : Doc} {c : RelayConfig} (read : decoder 0 d = .ok c) :
    fromJson decoder c.toJson = .ok c.reread := by
  have noInbounds : Decoder.list Inbound.decoder 1 (.ofJson (items Inbound.toJson [])) = .ok [] :=
    Decoder.list_eq_ok_iff.mpr ⟨by decide, [], rfl, .nil⟩
  have noOutbounds : Decoder.list Outbound.decoder 1 (.ofJson (items Outbound.toJson [])) =
      .ok [] :=
    Decoder.list_eq_ok_iff.mpr ⟨by decide, [], rfl, .nil⟩
  have others : layout.rest c.reread = layout.rest c := rfl
  rw [decoder_eq] at read
  rw [decoder_eq, toJson_eq]
  refine (Layout.opened_write keeps read others ?_).1
  simp only [layout, List.forall_mem_cons]
  exact ⟨fun obtained => (returns_optional rfl rereads_json obtained).congr rfl,
    fun obtained => (returns_optional rfl rereads_json obtained).congr rfl,
    fun obtained => (returns_optional rfl rereads_json obtained).congr rfl,
    fun obtained => (returns_optional rfl rereads_json obtained).congr rfl,
    fun obtained => (returns_optional rfl (Policy.rereads (by decide)) obtained).congr rfl,
    returns_defaulted noInbounds (rereads_list (Inbound.rereads (by decide))).written,
    returns_defaulted noOutbounds fun _ => Outbound.list_rereads,
    fun obtained => (returns_optional rfl rereads_json obtained).congr rfl,
    fun obtained => (returns_optional rfl rereads_json obtained).congr rfl, List.forall_mem_nil _⟩

theorem reread_of_distinct {d : Doc} {c : RelayConfig} (read : decoder 0 d = .ok c)
    (distinct : ∀ outbounds ∈ d.under "outbounds", outbounds.Distinct) :
    ∀ o ∈ c.outbounds, o.reread = o := by
  rw [decoder_eq] at read
  obtain ⟨-, ms, rfl, holds⟩ := Layout.holds_of_opened keeps read
  have given := holds.given
  have missing := holds.missing
  simp only [layout, List.forall_mem_cons] at given missing
  obtain ⟨-, -, -, -, -, -, given, -⟩ := given
  obtain ⟨-, -, -, -, -, -, missing, -⟩ := missing
  cases present : ms.reverse.lookup (some "outbounds") with
  | none =>
      have none : c.outbounds = [] := (missing present).2
      simp [none]
  | some d =>
      obtain ⟨-, ds, rfl, each⟩ : 1 < depthLimit ∧ ∃ ds, d = .items ds none ∧
          List.Forall₂ (fun d o => Outbound.decoder 2 d = .ok o) ds c.outbounds :=
        Decoder.list_eq_ok_iff.mp (given d present)
      have inside := List.mem_reverse.mp (mem_of_lookup_eq_some present)
      have apart := Doc.distinct_items.mp (distinct _ (Doc.mem_under.mpr inside))
      intro o member
      obtain ⟨i, bound, rfl⟩ := List.getElem_of_mem member
      have bound' : i < ds.length := each.length_eq ▸ bound
      exact Outbound.reread_of_distinct (apart _ (List.getElem_mem bound'))
        (List.forall₂_iff_get.mp each |>.2 i bound' bound)

theorem reread_eq_iff {c : RelayConfig} : c.reread = c ↔ ∀ o ∈ c.outbounds, o.reread = o := by
  have same : c.outbounds.map Outbound.reread = c.outbounds.map id ↔
      ∀ o ∈ c.outbounds, o.reread = id o := List.map_inj_left
  rw [List.map_id] at same
  constructor
  · exact fun equal => same.mp (congrArg outbounds equal)
  · intro each
    rw [reread, same.mpr each]

/-- A configuration that has been read from a text is read again from its printed text, but for the
plain outbounds that have all that a tunnel needs; where the outbounds of the text repeat no key,
there are none of these. -/
theorem printed_rereads {s : String} {c : RelayConfig} (read : decode decoder s = .ok c)
    (legible : c.toJson.Legible) :
    decode decoder c.toJson.pretty = .ok c.reread ∧
      (decode decoder c.toJson.pretty = .ok c ↔ ∀ o ∈ c.outbounds, o.reread = o) ∧
      ((∀ outbounds ∈ (Doc.read s).1.under "outbounds", outbounds.Distinct) →
        decode decoder c.toJson.pretty = .ok c) := by
  have found := tree_of_decode read
  have again : decode decoder c.toJson.pretty = .ok c.reread := by
    rw [decode_pretty legible, fromJson_written found]
  have same : decode decoder c.toJson.pretty = .ok c ↔ ∀ o ∈ c.outbounds, o.reread = o := by
    rw [again, Except.ok.injEq, reread_eq_iff]
  exact ⟨again, same, fun distinct => same.mpr (reread_of_distinct found distinct)⟩

/-- The routing section repeats a key, and the template has a tunnel and a plain outbound. -/
theorem printed_rereads_repeatedStrategy :
    let one : Json := .number (.whole 1 (by decide))
    let v : Json := .object
      [("routing", .object [("strategy", .text "a"), ("strategy", .text "b")]),
        ("outbounds", .array [
          .object
            [("settings", .object
              [("workers", one), ("mtu", one), ("peers", .array []), ("address", .array []),
                ("secretKey", .text "k")]),
              ("tag", .text "w"), ("protocol", .object [("wireguard", .null)])],
          .object [("protocol", .text "wireguard"), ("tag", .null)]])]
    let c : RelayConfig :=
      { outbounds :=
          [.tunnel
            { tag := "w"
              settings := { secretKey := "k", address := [], peers := [], mtu := 1, workers := 1 } },
          .plain { protocol := "wireguard" }]
        routing := some (.object [("strategy", .text "b")]) }
    decode decoder v.pretty = .ok c ∧ c.toJson.Legible ∧
      (∀ outbounds ∈ (Doc.read v.pretty).1.under "outbounds", outbounds.Distinct) ∧
      decode decoder c.toJson.pretty = .ok c := by
  intro one v c
  have legible : v.Legible := by
    simp [v, one, Legible, LegibleMembers, LegibleItems, Number.legible_whole]
  have read : decode decoder v.pretty = .ok c := by
    rw [decode_pretty legible]
    rfl
  have written : c.toJson = .object
      [("inbounds", .array []),
        ("outbounds", .array [
          .object
            [("protocol", .text "wireguard"), ("tag", .text "w"),
              ("settings", .object
                [("secretKey", .text "k"), ("address", .array []), ("peers", .array []),
                  ("mtu", .nat 1), ("workers", .nat 1)])],
          .object [("protocol", .text "wireguard")]]),
        ("routing", .object [("strategy", .text "b")])] := rfl
  have legible' : c.toJson.Legible := by
    simp [written, Legible, LegibleMembers, LegibleItems, Decoder.nat_eq 1 (by decide),
      Number.legible_whole]
  have distinct :
      ∀ outbounds ∈ (Doc.read v.pretty).1.under "outbounds", outbounds.Distinct := by
    rw [Doc.read_pretty legible]
    simp [v, one, Doc.ofJson, Doc.ofMembers, Doc.ofItems, Doc.under, Doc.Distinct,
      Doc.DistinctItems, Doc.DistinctMembers]
  obtain ⟨-, -, same⟩ := printed_rereads read legible'
  exact ⟨read, legible', distinct, same distinct⟩

/-- A tunnel that repeats a key in its settings is taken as a plain outbound. It is printed with the
key once, and so it is read again as a tunnel. -/
theorem repeated_key_reread_as_tunnel :
    let one : Json := .number (.whole 1 (by decide))
    let v : Json := .object
      [("outbounds", .array [.object
        [("protocol", .text "wireguard"), ("tag", .text "w"), ("settings", .object
          [("secretKey", .text "a"), ("secretKey", .text "k"), ("address", .array []),
            ("peers", .array []), ("mtu", one), ("workers", one)])]])]
    let plain : PlainOutbound :=
      { protocol := "wireguard", tag := some "w", rest := [("settings", .object
          [("address", .array []), ("mtu", one), ("peers", .array []),
            ("secretKey", .text "k"), ("workers", one)])] }
    let tunnel : Tunnel :=
      { tag := "w",
        settings := { secretKey := "k", address := [], peers := [], mtu := 1, workers := 1 } }
    let c : RelayConfig := { outbounds := [.plain plain] }
    decode decoder v.pretty = .ok c ∧ c.toJson.Legible ∧
      decode decoder c.toJson.pretty = .ok { outbounds := [.tunnel tunnel] } ∧
      decode decoder c.toJson.pretty ≠ .ok c := by
  intro one v plain tunnel c
  have legible : v.Legible := by
    simp [v, one, Legible, LegibleMembers, LegibleItems, Number.legible_whole]
  have read : decode decoder v.pretty = .ok c := by
    rw [decode_pretty legible]
    rfl
  have written : c.toJson = .object
      [("inbounds", .array []), ("outbounds", .array [.object
        [("protocol", .text "wireguard"), ("tag", .text "w"), ("settings", .object
          [("address", .array []), ("mtu", one), ("peers", .array []),
            ("secretKey", .text "k"), ("workers", one)])]])] := rfl
  have legible' : c.toJson.Legible := by
    simp [written, one, Legible, LegibleMembers, LegibleItems, Number.legible_whole]
  have again : decode decoder c.toJson.pretty = .ok { outbounds := [.tunnel tunnel] } := by
    rw [decode_pretty legible']
    rfl
  refine ⟨read, legible', again, fun equal => ?_⟩
  have same : [Outbound.tunnel tunnel] = [.plain plain] :=
    congrArg RelayConfig.outbounds (Except.ok.inj (again.symm.trans equal))
  cases same

end RelayConfig

end RelayControl
