import Mathlib.Data.List.Dedup
import Mathlib.Data.List.Induction
import RelayControl.Proofs.Relay.Outbounds

/-!
Upserts one after the other. They treat the outbounds as an ordered map over their tags: a tag that
is there is renewed where it stands, a new one arrives behind all others, and so does, each time, an
outbound without a tag.
-/

namespace RelayControl

namespace Upserts

def latest? (upserted : List Outbound) (tag : String) : Option Outbound :=
  upserted.reverse.find? (·.tag? == some tag)

def renewal (upserted : List Outbound) (o : Outbound) : Outbound :=
  (o.tag?.bind (latest? upserted)).getD o

/-- The upserted outbounds that come behind all others: those without a tag, and of each tag that
has not been seen the first one. -/
def arrivals (seen : List (Option String)) : List Outbound → List Outbound
  | [] => []
  | o :: rest =>
      if o.tag?.isSome ∧ o.tag? ∈ seen then arrivals seen rest
      else o :: arrivals (seen ++ [o.tag?]) rest

def tags (outbounds : List Outbound) : List String :=
  outbounds.filterMap Outbound.tag?

def untagged (outbounds : List Outbound) : List Outbound :=
  outbounds.filter (·.tag?.isNone)

end Upserts

open Upserts in
structure Upserted (c : RelayConfig) (upserted : List Outbound) (d : RelayConfig) : Prop where
  found : ∀ tag, d.outbound? tag = (latest? upserted tag).or (c.outbound? tag)
  /-- The first outbound of each tag is renewed in its place, and the arrivals follow. -/
  order : d.outbounds =
    (c.outbounds.mapIdx fun i o =>
      if o.tag? ∈ (c.outbounds.take i).map Outbound.tag? then o else renewal upserted o) ++
    (arrivals (c.outbounds.map Outbound.tag?) upserted).map (renewal upserted)
  untagged : untagged d.outbounds = untagged c.outbounds ++ untagged upserted
  distinct : (tags d.outbounds).Nodup ↔ (tags c.outbounds).Nodup
  length : d.outbounds.length = c.outbounds.length + (Upserts.untagged upserted).length +
    ((tags upserted).filter (· ∉ tags c.outbounds)).dedup.length
  rest : d = { c with outbounds := d.outbounds }

namespace Upserts

def renewed (upserted : List Outbound) (seen : List (Option String)) :
    List Outbound → List Outbound
  | [] => []
  | o :: rest =>
      (if o.tag? ∈ seen then o else renewal upserted o) ::
        renewed upserted (seen ++ [o.tag?]) rest

variable {upserted outbounds : List Outbound} {seen : List (Option String)} {new o : Outbound}
  {tag : String}

theorem latest?_concat :
    latest? (upserted ++ [new]) tag =
      if new.tag? = some tag then some new else latest? upserted tag := by
  by_cases own : new.tag? = some tag <;> simp [latest?, own]

theorem renewal_of_untagged (bare : o.tag? = none) : renewal upserted o = o := by
  simp [renewal, bare]

theorem renewal_concat_of_ne (differs : ¬(new.tag?.isSome ∧ o.tag? = new.tag?)) :
    renewal (upserted ++ [new]) o = renewal upserted o := by
  cases tagged : o.tag? with
  | none => rw [renewal_of_untagged tagged, renewal_of_untagged tagged]
  | some tag =>
      have other : new.tag? ≠ some tag := by
        intro own
        exact differs ⟨by simp [own], tagged.trans own.symm⟩
      simp [renewal, tagged, latest?_concat, other]

theorem renewal_concat_of_eq (tagged : new.tag?.isSome) (same : o.tag? = new.tag?) :
    renewal (upserted ++ [new]) o = new := by
  obtain ⟨tag, own⟩ := Option.isSome_iff_exists.mp tagged
  simp [renewal, same, own, latest?_concat]

theorem renewal_concat_self : renewal (upserted ++ [new]) new = new := by
  cases tagged : new.tag? with
  | none => exact renewal_of_untagged tagged
  | some tag => exact renewal_concat_of_eq (by simp [tagged]) rfl

theorem tag?_of_latest? (found : latest? upserted tag = some o) : o.tag? = some tag := by
  simpa using List.find?_some found

@[simp] theorem tag?_renewal : (renewal upserted o).tag? = o.tag? := by
  cases tagged : o.tag? with
  | none => rw [renewal_of_untagged tagged, tagged]
  | some tag =>
      cases found : latest? upserted tag with
      | none => simp [renewal, tagged, found]
      | some last => simp [renewal, tagged, found, tag?_of_latest? found]

theorem tag?_of_renewed : (if o.tag? ∈ seen then o else renewal upserted o).tag? = o.tag? := by
  split
  · rfl
  · exact tag?_renewal

theorem renewal_nil : renewal [] o = o := by
  cases tagged : o.tag? <;> simp [renewal, tagged, latest?]

theorem renewed_nil : renewed [] seen outbounds = outbounds := by
  induction outbounds generalizing seen with
  | nil => rfl
  | cons o rest ih => rw [renewed, ih, renewal_nil, ite_self]

@[simp] theorem map_tag?_renewed :
    (renewed upserted seen outbounds).map Outbound.tag? = outbounds.map Outbound.tag? := by
  induction outbounds generalizing seen with
  | nil => rfl
  | cons o rest ih => rw [renewed, List.map_cons, List.map_cons, ih, tag?_of_renewed]

@[simp] theorem length_renewed :
    (renewed upserted seen outbounds).length = outbounds.length := by
  induction outbounds generalizing seen with
  | nil => rfl
  | cons o rest ih => rw [renewed, List.length_cons, List.length_cons, ih]

theorem renewed_append (front back : List Outbound) :
    renewed upserted seen (front ++ back) =
      renewed upserted seen front ++
        renewed upserted (seen ++ front.map Outbound.tag?) back := by
  induction front generalizing seen with
  | nil => simp [renewed]
  | cons o rest ih => simp [renewed, ih]

theorem renewed_eq_mapIdx :
    renewed upserted seen outbounds =
      outbounds.mapIdx fun i o =>
        if o.tag? ∈ seen ++ (outbounds.take i).map Outbound.tag? then o
        else renewal upserted o := by
  induction outbounds generalizing seen with
  | nil => rfl
  | cons o rest ih => simp [renewed, ih, List.mapIdx_cons]

theorem renewed_concat_of_seen (before : new.tag? ∈ seen) :
    renewed (upserted ++ [new]) seen outbounds = renewed upserted seen outbounds := by
  induction outbounds generalizing seen with
  | nil => rfl
  | cons o rest ih =>
      rw [renewed, renewed, ih (List.mem_append_left _ before)]
      split
      · rfl
      · rename_i unseen
        rw [renewal_concat_of_ne]
        rintro ⟨-, same⟩
        exact unseen (same ▸ before)

theorem upsert_of_absent (absent : ¬(new.tag?.isSome ∧ new.tag? ∈ outbounds.map Outbound.tag?)) :
    upsert new outbounds = outbounds ++ [new] := by
  induction outbounds with
  | nil => rfl
  | cons o rest ih =>
      rw [List.map_cons, List.mem_cons, and_or_left, not_or] at absent
      rw [upsert, if_neg fun same => absent.1 ⟨same.1, same.2.symm⟩, ih absent.2,
        List.cons_append]

theorem renewed_concat_of_absent
    (absent : ¬(new.tag?.isSome ∧ new.tag? ∈ outbounds.map Outbound.tag?)) :
    renewed (upserted ++ [new]) seen outbounds = renewed upserted seen outbounds := by
  induction outbounds generalizing seen with
  | nil => rfl
  | cons o rest ih =>
      rw [List.map_cons, List.mem_cons, and_or_left, not_or] at absent
      rw [renewed, renewed, ih absent.2,
        renewal_concat_of_ne fun same => absent.1 ⟨same.1, same.2.symm⟩]

theorem upsert_renewed_of_absent
    (absent : ¬(new.tag?.isSome ∧ new.tag? ∈ outbounds.map Outbound.tag?)) :
    upsert new (renewed upserted seen outbounds) =
      renewed (upserted ++ [new]) seen (outbounds ++ [new]) := by
  rw [upsert_of_absent (by rwa [map_tag?_renewed]), renewed_append,
    renewed_concat_of_absent absent]
  simp [renewed, renewal_concat_self]

theorem upsert_renewed_of_standing (tagged : new.tag?.isSome) (unseen : new.tag? ∉ seen)
    (standing : new.tag? ∈ outbounds.map Outbound.tag?) :
    upsert new (renewed upserted seen outbounds) = renewed (upserted ++ [new]) seen outbounds := by
  induction outbounds generalizing seen with
  | nil => cases standing
  | cons o rest ih =>
      rw [renewed, renewed, upsert, tag?_of_renewed]
      by_cases same : o.tag? = new.tag?
      · rw [if_pos ⟨tagged, same⟩, if_neg (same ▸ unseen), renewal_concat_of_eq tagged same,
          renewed_concat_of_seen (by simp [same])]
      · have later : new.tag? ∉ seen ++ [o.tag?] := by
          simp [unseen, Ne.symm same]
        have behind : new.tag? ∈ rest.map Outbound.tag? := by
          simpa [Ne.symm same] using standing
        have differs : ¬(new.tag?.isSome ∧ o.tag? = new.tag?) := fun both => same both.2
        rw [if_neg differs, ih later behind, renewal_concat_of_ne differs]

theorem arrivals_concat :
    arrivals seen (upserted ++ [new]) =
      if new.tag?.isSome ∧ new.tag? ∈ seen ++ (arrivals seen upserted).map Outbound.tag?
      then arrivals seen upserted else arrivals seen upserted ++ [new] := by
  fun_induction arrivals seen upserted with
  | case1 seen => simp [arrivals]
  | case2 seen o rest known ih => rw [List.cons_append, arrivals, if_pos known, ih]
  | case3 seen o rest fresh ih =>
      rw [List.cons_append, arrivals, if_neg fresh, ih, List.map_cons, List.append_assoc,
        List.singleton_append]
      split <;> rfl

theorem renewed_arrivals :
    renewed upserted seen (arrivals seen outbounds) =
      (arrivals seen outbounds).map (renewal upserted) := by
  fun_induction arrivals seen outbounds with
  | case1 seen => rfl
  | case2 seen o rest known ih => exact ih
  | case3 seen o rest fresh ih =>
      rw [renewed, ih, List.map_cons]
      split
      · rename_i known
        have bare : o.tag? = none := by
          simpa [known] using fresh
        rw [renewal_of_untagged bare]
      · rfl

theorem foldl_upsert (upserted initial : List Outbound) :
    upserted.foldl (fun l new => upsert new l) initial =
      renewed upserted [] (initial ++ arrivals (initial.map Outbound.tag?) upserted) := by
  -- The last upsert either renews one of the outbounds that stand or is one more arrival.
  induction upserted using List.reverseRecOn with
  | nil => simp [arrivals, renewed_nil]
  | append_singleton upserted new ih =>
      rw [List.foldl_append, List.foldl_cons, List.foldl_nil, ih, arrivals_concat,
        ← List.map_append]
      split
      · rename_i standing
        exact upsert_renewed_of_standing standing.1 List.not_mem_nil standing.2
      · rename_i absent
        rw [upsert_renewed_of_absent absent, List.append_assoc]

theorem tags_cons_of_tagged (tagged : o.tag? = some tag) :
    tags (o :: outbounds) = tag :: tags outbounds :=
  List.filterMap_cons_some tagged

theorem tags_cons_of_untagged (bare : o.tag? = none) : tags (o :: outbounds) = tags outbounds :=
  List.filterMap_cons_none bare

theorem untagged_cons_of_tagged (tagged : o.tag?.isSome) :
    untagged (o :: outbounds) = untagged outbounds :=
  List.filter_cons_of_neg (by simpa [Option.isSome_iff_ne_none] using tagged)

theorem untagged_cons_of_untagged (bare : o.tag? = none) :
    untagged (o :: outbounds) = o :: untagged outbounds :=
  List.filter_cons_of_pos (by simp [bare])

theorem mem_tags_cons : tag ∈ tags (o :: outbounds) ↔ o.tag? = some tag ∨ tag ∈ tags outbounds := by
  cases tagged : o.tag? with
  | none => simp [tags_cons_of_untagged tagged]
  | some own => simp [tags_cons_of_tagged tagged, eq_comm]

theorem some_mem_map_tag?_iff : some tag ∈ outbounds.map Outbound.tag? ↔ tag ∈ tags outbounds := by
  simp [tags]

theorem tags_append (front back : List Outbound) : tags (front ++ back) = tags front ++ tags back :=
  List.filterMap_append

theorem untagged_append (front back : List Outbound) :
    untagged (front ++ back) = untagged front ++ untagged back :=
  List.filter_append ..

theorem length_eq_untagged_add_tags (outbounds : List Outbound) :
    outbounds.length = (untagged outbounds).length + (tags outbounds).length := by
  induction outbounds with
  | nil => rfl
  | cons o rest ih =>
      cases tagged : o.tag? with
      | none =>
          rw [untagged_cons_of_untagged tagged, tags_cons_of_untagged tagged, List.length_cons,
            List.length_cons]
          omega
      | some tag =>
          rw [untagged_cons_of_tagged (by simp [tagged]), tags_cons_of_tagged tagged,
            List.length_cons, List.length_cons]
          omega

@[simp] theorem tags_renewed : tags (renewed upserted seen outbounds) = tags outbounds := by
  have ofTags : ∀ l : List Outbound, tags l = (l.map Outbound.tag?).filterMap id :=
    fun l => by simp [tags, List.filterMap_map]
  rw [ofTags, ofTags, map_tag?_renewed]

@[simp] theorem untagged_renewed :
    untagged (renewed upserted seen outbounds) = untagged outbounds := by
  induction outbounds generalizing seen with
  | nil => rfl
  | cons o rest ih =>
      rw [renewed]
      cases tagged : o.tag? with
      | none =>
          rw [renewal_of_untagged tagged, ite_self, untagged_cons_of_untagged tagged,
            untagged_cons_of_untagged tagged, ih]
      | some tag =>
          have own : o.tag?.isSome := by simp [tagged]
          rw [← tagged, untagged_cons_of_tagged (by rwa [tag?_of_renewed]),
            untagged_cons_of_tagged own, ih]

@[simp] theorem untagged_arrivals : untagged (arrivals seen outbounds) = untagged outbounds := by
  fun_induction arrivals seen outbounds with
  | case1 seen => rfl
  | case2 seen o rest known ih => rw [ih, untagged_cons_of_tagged known.1]
  | case3 seen o rest fresh ih =>
      cases tagged : o.tag? with
      | none => rw [untagged_cons_of_untagged tagged, untagged_cons_of_untagged tagged, ← tagged, ih]
      | some tag =>
          have own : o.tag?.isSome := by simp [tagged]
          rw [untagged_cons_of_tagged own, untagged_cons_of_tagged own, ← tagged, ih]

theorem mem_tags_arrivals :
    tag ∈ tags (arrivals seen outbounds) ↔ tag ∈ tags outbounds ∧ some tag ∉ seen := by
  fun_induction arrivals seen outbounds with
  | case1 seen => simp [tags]
  | case2 seen o rest known ih =>
      rw [ih, mem_tags_cons]
      constructor
      · rintro ⟨member, unseen⟩
        exact ⟨.inr member, unseen⟩
      · rintro ⟨own | member, unseen⟩
        · exact absurd (own ▸ known.2) unseen
        · exact ⟨member, unseen⟩
  | case3 seen o rest fresh ih =>
      rw [mem_tags_cons, ih, mem_tags_cons]
      by_cases own : o.tag? = some tag
      · have unseen : some tag ∉ seen := by
          simpa [own] using fresh
        simp [own, unseen]
      · simp [own, Ne.symm own]

theorem nodup_tags_arrivals : (tags (arrivals seen outbounds)).Nodup := by
  fun_induction arrivals seen outbounds with
  | case1 seen => exact List.nodup_nil
  | case2 seen o rest known ih => exact ih
  | case3 seen o rest fresh ih =>
      cases tagged : o.tag? with
      | none => rwa [tags_cons_of_untagged tagged, ← tagged]
      | some own =>
          have fresh : own ∉ tags (arrivals (seen ++ [some own]) rest) := by
            simp [mem_tags_arrivals]
          rw [tags_cons_of_tagged tagged]
          exact List.nodup_cons.mpr ⟨fresh, tagged ▸ ih⟩

theorem find?_upsert :
    (upsert new outbounds).find? (·.tag? == some tag) =
      if new.tag? = some tag then some new else outbounds.find? (·.tag? == some tag) := by
  by_cases own : new.tag? = some tag
  · rw [if_pos own]
    exact (Placed.upsert own outbounds).find? own
  · rw [if_neg own]
    induction outbounds with
    | nil => simp [upsert, own]
    | cons o rest ih =>
        rw [upsert]
        split
        · rename_i same
          have other : o.tag? ≠ some tag := same.2 ▸ own
          simp [own, other]
        · rw [List.find?_cons, List.find?_cons, ih]

theorem find?_foldl_upsert (initial : List Outbound) :
    (upserted.foldl (fun l new => upsert new l) initial).find? (·.tag? == some tag) =
      (latest? upserted tag).or (initial.find? (·.tag? == some tag)) := by
  induction upserted using List.reverseRecOn with
  | nil => rfl
  | append_singleton upserted new ih =>
      rw [List.foldl_append, List.foldl_cons, List.foldl_nil, find?_upsert, latest?_concat, ih]
      split <;> rfl

theorem outbounds_foldl_upsertOutbound (c : RelayConfig) (upserted : List Outbound) :
    upserted.foldl RelayConfig.upsertOutbound c =
      { c with outbounds := upserted.foldl (fun l new => upsert new l) c.outbounds } := by
  induction upserted generalizing c with
  | nil => rfl
  | cons new rest ih => rw [List.foldl_cons, ih, List.foldl_cons]; rfl

theorem tags_arrivals_perm (initial : List Outbound) :
    (tags (arrivals (initial.map Outbound.tag?) upserted)).Perm
      ((tags upserted).filter (· ∉ tags initial)).dedup := by
  rw [List.perm_ext_iff_of_nodup nodup_tags_arrivals (List.nodup_dedup _)]
  intro tag
  rw [mem_tags_arrivals, some_mem_map_tag?_iff, List.mem_dedup, List.mem_filter,
    decide_eq_true_iff]

theorem nodup_tags_append_arrivals (initial : List Outbound) :
    (tags (initial ++ arrivals (initial.map Outbound.tag?) upserted)).Nodup ↔
      (tags initial).Nodup := by
  rw [tags_append, List.nodup_append]
  constructor
  · exact fun both => both.1
  · intro distinct
    refine ⟨distinct, nodup_tags_arrivals, ?_⟩
    rintro tag standing _ arrived rfl
    exact (mem_tags_arrivals.mp arrived).2 (some_mem_map_tag?_iff.mpr standing)

theorem length_arrivals (initial : List Outbound) :
    (arrivals (initial.map Outbound.tag?) upserted).length =
      (untagged upserted).length + ((tags upserted).filter (· ∉ tags initial)).dedup.length := by
  rw [length_eq_untagged_add_tags, untagged_arrivals, (tags_arrivals_perm initial).length_eq]

end Upserts

/-- Upserts treat the outbounds as an ordered map over their tags. -/
theorem upserted_foldl_upsertOutbound (c : RelayConfig) (upserted : List Outbound) :
    Upserted c upserted (upserted.foldl RelayConfig.upsertOutbound c) := by
  rw [Upserts.outbounds_foldl_upsertOutbound]
  have closed := Upserts.foldl_upsert upserted c.outbounds
  constructor
  case found => exact fun tag => Upserts.find?_foldl_upsert c.outbounds
  case order =>
    dsimp only
    rw [closed, Upserts.renewed_append, Upserts.renewed_eq_mapIdx, List.nil_append,
      Upserts.renewed_arrivals]
    simp only [List.nil_append]
  case untagged =>
    rw [closed, Upserts.untagged_renewed, Upserts.untagged_append, Upserts.untagged_arrivals]
  case distinct => rw [closed, Upserts.tags_renewed, Upserts.nodup_tags_append_arrivals]
  case length =>
    rw [closed, Upserts.length_renewed, List.length_append, Upserts.length_arrivals, Nat.add_assoc]
  case rest => rfl

-- Of two outbounds that share a tag only the first one is renewed.
example :
    let outbound protocol tag := Outbound.plain { protocol, tag }
    let standing := [outbound "freedom" "a", outbound "blackhole" none, outbound "dns" "a"]
    let upserted := [outbound "http" "b", outbound "socks" "a", outbound "loopback" none,
      outbound "vmess" "b"]
    upserted.foldl (fun l new => upsert new l) standing =
      [outbound "socks" "a", outbound "blackhole" none, outbound "dns" "a", outbound "vmess" "b",
        outbound "loopback" none] := rfl

end RelayControl
