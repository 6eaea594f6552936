import RelayControl.Proofs.Store.Writes
import RelayControl.Proofs.Text.ByteOrder
import Mathlib.Algebra.GroupWithZero.Nat
import Mathlib.Algebra.Order.BigOperators.Group.List
import Mathlib.Data.List.DropRight
import Mathlib.Data.List.Induction

/-!
The accounts of the outbounds. Counting and setting to zero are the only movements of a row: after
any history a row holds what was counted for its tag since the last reset that covered it. A counter
that leaves the range of 64 bits is no longer a number of bytes, so the sums have to stay within it.
-/

namespace RelayControl

inductive Movement where
  | count (t : TagTraffic)
  | reset (tag : String)

/-- The entry is counted for an outbound; what is an inbound's too is counted there. -/
def TagTraffic.isOutbounds (t : TagTraffic) : Bool := !t.inbound && t.outbound

namespace Movement

def resets (tag : String) : Movement → Bool
  | .count _ => false
  | .reset named => named == Store.allTags || tag == named

def counts? (tag : String) : Movement → Option TagTraffic
  | .count t => if t.tag = tag then some t else none
  | .reset _ => none

def sinceReset (tag : String) (ms : List Movement) : List TagTraffic :=
  (ms.rtakeWhile (!·.resets tag)).filterMap (·.counts? tag)

def up (tag : String) (ms : List Movement) : Int := ((sinceReset tag ms).map (·.up)).sum

def down (tag : String) (ms : List Movement) : Int := ((sinceReset tag ms).map (·.down)).sum

/-- All sums that are formed on the way fit a counter: what an entry adds to the total, and what has
been counted for each tag at any time. -/
structure InRange (ms : List Movement) : Prop where
  entry : ∀ t, .count t ∈ ms → fitsCounter (t.up + t.down) = true
  up : ∀ past, past <+: ms → ∀ tag, fitsCounter (up tag past) = true
  down : ∀ past, past <+: ms → ∀ tag, fitsCounter (down tag past) = true
  total : ∀ past, past <+: ms → ∀ tag,
    fitsCounter (Movement.up tag past + Movement.down tag past) = true

theorem InRange.of_append {ms more : List Movement} (within : InRange (ms ++ more)) :
    InRange ms where
  entry t member := within.entry t (List.mem_append_left _ member)
  up past early := within.up past (early.trans (List.prefix_append ..))
  down past early := within.down past (early.trans (List.prefix_append ..))
  total past early := within.total past (early.trans (List.prefix_append ..))

/-! All sums fit where all that is ever counted does. -/

def counted (ms : List Movement) : List TagTraffic :=
  ms.filterMap fun
    | .count t => some t
    | .reset _ => none

theorem sinceReset_sublist (tag : String) (ms : List Movement) :
    (sinceReset tag ms).Sublist (counted ms) := by
  have kept : ∀ ms : List Movement, (ms.filterMap (·.counts? tag)).Sublist (counted ms) := by
    intro ms
    induction ms with
    | nil => exact .slnil
    | cons m rest ih =>
        cases m with
        | reset named => exact ih
        | count t =>
            by_cases own : t.tag = tag
            · simpa [counts?, counted, own] using ih
            · simpa [counts?, counted, own] using ih.cons t
  exact (kept _).trans ((List.rtakeWhile_suffix ..).sublist.filterMap _)

end Movement

def TagTraffic.volume (t : TagTraffic) : Nat := t.up.natAbs + t.down.natAbs

namespace Movement

theorem natAbs_sums_le (ts : List TagTraffic) :
    (ts.map TagTraffic.up).sum.natAbs + (ts.map TagTraffic.down).sum.natAbs ≤
      (ts.map TagTraffic.volume).sum := by
  induction ts with
  | nil => simp
  | cons t rest ih =>
      simp only [List.map_cons, List.sum_cons, TagTraffic.volume] at ih ⊢
      omega

theorem InRange.of_volume {ms : List Movement}
    (small : ((counted ms).map TagTraffic.volume).sum < 0x8000000000000000) : InRange ms := by
  have sums : ∀ past, past <+: ms → ∀ tag, (Movement.up tag past).natAbs +
      (Movement.down tag past).natAbs < 0x8000000000000000 := by
    intro past early tag
    have part : (sinceReset tag past).Sublist (counted ms) :=
      (sinceReset_sublist tag past).trans (early.sublist.filterMap _)
    have le := natAbs_sums_le (sinceReset tag past)
    have all := (part.map TagTraffic.volume).sum_le_sum fun _ _ => Nat.zero_le _
    exact Nat.lt_of_le_of_lt (le.trans all) small
  refine ⟨?_, ?_, ?_, ?_⟩
  · intro t member
    have one : t.volume ≤ ((counted ms).map TagTraffic.volume).sum :=
      List.single_le_sum (fun _ _ => Nat.zero_le _) _
        (List.mem_map_of_mem (List.mem_filterMap.mpr ⟨_, member, rfl⟩))
    simp only [TagTraffic.volume, fitsCounter, Bool.and_eq_true, decide_eq_true_eq] at one ⊢
    omega
  all_goals
    intro past early tag
    have bounded := sums past early tag
    simp only [fitsCounter, Bool.and_eq_true, decide_eq_true_eq]
    omega

/-! One more movement. -/

theorem sinceReset_count (tag : String) (ms : List Movement) (t : TagTraffic) :
    sinceReset tag (ms ++ [.count t]) =
      sinceReset tag ms ++ (if t.tag = tag then [t] else []) := by
  rw [sinceReset, List.rtakeWhile_concat_pos _ _ _ rfl, List.filterMap_append, ← sinceReset]
  by_cases own : t.tag = tag <;> simp [counts?, own]

theorem sinceReset_reset (tag : String) (ms : List Movement) (named : String) :
    sinceReset tag (ms ++ [.reset named]) =
      if (reset named).resets tag then [] else sinceReset tag ms := by
  rw [sinceReset, List.rtakeWhile_concat]
  cases covered : (reset named).resets tag <;> simp [sinceReset, counts?]

theorem sinceReset_of_uncounted {tag : String} {ms : List Movement}
    (uncounted : ∀ t, .count t ∈ ms → t.tag ≠ tag) : sinceReset tag ms = [] := by
  rw [sinceReset, List.filterMap_eq_nil_iff]
  intro m member
  cases m with
  | reset named => rfl
  | count t =>
      have counted : Movement.count t ∈ ms := (List.rtakeWhile_suffix ..).subset member
      simp [counts?, uncounted t counted]

def row (ms : List Movement) (tag : String) : OutboundRow :=
  ⟨tag, .whole (up tag ms), .whole (down tag ms), .whole (up tag ms + down tag ms)⟩

theorem row_count_of_ne {t : TagTraffic} {tag : String} (differs : t.tag ≠ tag)
    (ms : List Movement) : row (ms ++ [.count t]) tag = row ms tag := by
  simp [row, up, down, sinceReset_count, differs]

theorem up_count (ms : List Movement) (t : TagTraffic) :
    up t.tag (ms ++ [.count t]) = up t.tag ms + t.up := by
  simp [up, sinceReset_count]

theorem down_count (ms : List Movement) (t : TagTraffic) :
    down t.tag (ms ++ [.count t]) = down t.tag ms + t.down := by
  simp [down, sinceReset_count]

theorem row_count {ms : List Movement} {t : TagTraffic} (within : InRange (ms ++ [.count t])) :
    row (ms ++ [.count t]) t.tag =
      { row ms t.tag with
        up := (row ms t.tag).up.plus (.whole t.up)
        down := (row ms t.tag).down.plus (.whole t.down)
        total := (row ms t.tag).total.plus ((Tally.whole t.up).plus (.whole t.down)) } := by
  have entry := within.entry t (by simp)
  have upFits := within.up _ (List.prefix_refl _) t.tag
  have downFits := within.down _ (List.prefix_refl _) t.tag
  have totalFits := within.total _ (List.prefix_refl _) t.tag
  have total : up t.tag ms + t.up + (down t.tag ms + t.down) =
      up t.tag ms + down t.tag ms + (t.up + t.down) := by omega
  rw [up_count] at upFits
  rw [down_count] at downFits
  rw [up_count, down_count, total] at totalFits
  simp only [row, up_count, down_count, Tally.plus_whole entry, Tally.plus_whole upFits,
    Tally.plus_whole downFits, Tally.plus_whole totalFits, total]

theorem row_count_of_uncounted {ms : List Movement} {t : TagTraffic}
    (within : InRange (ms ++ [.count t])) (uncounted : ∀ u, .count u ∈ ms → u.tag ≠ t.tag) :
    row (ms ++ [.count t]) t.tag =
      ⟨t.tag, .whole t.up, .whole t.down, (Tally.whole t.up).plus (.whole t.down)⟩ := by
  have nothing : sinceReset t.tag ms = [] := sinceReset_of_uncounted uncounted
  rw [Tally.plus_whole (within.entry t (by simp))]
  simp [row, up, down, sinceReset_count, nothing]

theorem row_reset (ms : List Movement) (named tag : String) :
    row (ms ++ [.reset named]) tag =
      if Store.covers named (row ms tag) then ⟨tag, .zero, .zero, .zero⟩ else row ms tag := by
  have same : Store.covers named (row ms tag) = (reset named).resets tag := rfl
  rw [same]
  cases covered : (reset named).resets tag <;>
    simp [row, up, down, sinceReset_reset, covered, Tally.zero]

/-! Whole lists of movements. -/

def onRows (rows : List OutboundRow) : Movement → List OutboundRow
  | .count t => Store.countOutbound t rows
  | .reset named => rows.map fun r =>
      if Store.covers named r then { r with up := .zero, down := .zero, total := .zero } else r

def insertTag (tag : String) : List String → List String
  | [] => [tag]
  | first :: rest =>
      if tag < first then tag :: first :: rest
      else if tag = first then first :: rest
      else first :: insertTag tag rest

theorem mem_insertTag {tag other : String} {tags : List String} :
    other ∈ insertTag tag tags ↔ other = tag ∨ other ∈ tags := by
  induction tags with
  | nil => simp [insertTag]
  | cons first rest ih =>
      rw [insertTag]
      split
      · simp
      · split
        · rename_i same
          simp [same]
        · simp [ih, or_left_comm]

theorem insertTag_ordered {tag : String} {tags : List String} (ordered : tags.Pairwise (· < ·)) :
    (insertTag tag tags).Pairwise (· < ·) := by
  induction tags with
  | nil => simp [insertTag]
  | cons first rest ih =>
      obtain ⟨least, later⟩ := List.pairwise_cons.mp ordered
      rw [insertTag]
      split
      · rename_i below
        refine List.pairwise_cons.mpr ⟨?_, ordered⟩
        intro other member
        rcases List.mem_cons.mp member with rfl | member
        · exact below
        · exact below.trans (least other member)
      · rename_i notBelow
        split
        · exact ordered
        · rename_i differs
          refine List.pairwise_cons.mpr ⟨?_, ih later⟩
          intro other member
          rcases mem_insertTag.mp member with rfl | member
          · exact lt_of_le_of_ne (not_lt.mp notBelow) (Ne.symm differs)
          · exact least other member

theorem map_row_count_of_lt {t : TagTraffic} {tags : List String}
    (above : ∀ tag ∈ tags, t.tag < tag) (ms : List Movement) :
    tags.map (row (ms ++ [.count t])) = tags.map (row ms) :=
  List.map_congr_left fun tag member => row_count_of_ne (ne_of_lt (above tag member)) ms

theorem countOutbound_map_row {ms : List Movement} {t : TagTraffic} {tags : List String}
    (within : InRange (ms ++ [.count t])) (ordered : tags.Pairwise (· < ·))
    (known : ∀ u, .count u ∈ ms → u.tag = t.tag → t.tag ∈ tags) :
    Store.countOutbound t (tags.map (row ms)) =
      (insertTag t.tag tags).map (row (ms ++ [.count t])) := by
  have fresh : t.tag ∉ tags → row (ms ++ [.count t]) t.tag =
      ⟨t.tag, .whole t.up, .whole t.down, (Tally.whole t.up).plus (.whole t.down)⟩ :=
    fun absent => row_count_of_uncounted within fun u member same => absent (known u member same)
  clear known
  -- the rows are passed in order until the place of the tag; what is left of `fresh` is the case
  -- that the tag does not come later either
  induction tags with
  | nil => exact congrArg (fun r => [r]) (fresh List.not_mem_nil).symm
  | cons first rest ih =>
      obtain ⟨least, later⟩ := List.pairwise_cons.mp ordered
      have named : (row ms first).tag = first := rfl
      rw [List.map_cons, Store.countOutbound, insertTag, named]
      by_cases below : t.tag < first
      · have above : ∀ tag ∈ first :: rest, t.tag < tag := by
          intro tag member
          rcases List.mem_cons.mp member with rfl | member
          · exact below
          · exact below.trans (least tag member)
        have absent : t.tag ∉ first :: rest := fun member => lt_irrefl _ (above _ member)
        rw [if_pos below, if_pos below, List.map_cons, fresh absent, map_row_count_of_lt above ms,
          List.map_cons]
      · rw [if_neg below, if_neg below]
        by_cases own : t.tag = first
        · subst own
          rw [if_pos rfl, if_pos rfl, List.map_cons, row_count within, map_row_count_of_lt least ms]
          rfl
        · rw [if_neg own, if_neg own, List.map_cons, row_count_of_ne own]
          rw [ih later fun absent => fresh (by simp [own, absent])]

theorem onRows_reset_map_row (ms : List Movement) (named : String) (tags : List String) :
    onRows (tags.map (row ms)) (.reset named) = tags.map (row (ms ++ [.reset named])) := by
  rw [onRows, List.map_map]
  apply List.map_congr_left
  intro tag _
  rw [row_reset]
  rfl

theorem foldl_onRows {ms : List Movement} (within : InRange ms) :
    ∃ tags : List String, tags.Pairwise (· < ·) ∧
      (∀ tag, tag ∈ tags ↔ ∃ t, .count t ∈ ms ∧ t.tag = tag) ∧
      ms.foldl onRows [] = tags.map (row ms) := by
  induction ms using List.reverseRecOn with
  | nil => exact ⟨[], .nil, by simp, rfl⟩
  | append_singleton ms m ih =>
      obtain ⟨tags, ordered, known, rows⟩ := ih within.of_append
      rw [List.foldl_append, List.foldl_cons, List.foldl_nil, rows]
      cases m with
      | count t =>
          refine ⟨insertTag t.tag tags, insertTag_ordered ordered, ?_, ?_⟩
          · intro tag
            rw [mem_insertTag, known]
            simp only [List.mem_append, List.mem_singleton, Movement.count.injEq]
            constructor
            · rintro (rfl | ⟨u, member, same⟩)
              · exact ⟨t, .inr rfl, rfl⟩
              · exact ⟨u, .inl member, same⟩
            · rintro ⟨u, member | rfl, same⟩
              · exact .inr ⟨u, member, same⟩
              · exact .inl same.symm
          · exact countOutbound_map_row within ordered fun u member same =>
              (known _).mpr ⟨u, member, same⟩
      | reset named =>
          refine ⟨tags, ordered, ?_, onRows_reset_map_row ms named tags⟩
          intro tag
          simp [known]

end Movement

namespace StoreAction

def movements : StoreAction → List Movement
  | .addTraffic tags _ => (tags.filter TagTraffic.isOutbounds).map .count
  | .resetOutbounds tag => [.reset tag]
  | _ => []

end StoreAction

namespace Store

variable {s s' : Store}

theorem countTag_outbounds {t : TagTraffic} (counted : s.countTag t = .ok s') :
    s'.outbounds = if t.isOutbounds then countOutbound t s.outbounds else s.outbounds := by
  unfold countTag at counted
  unfold TagTraffic.isOutbounds
  cases inbound : t.inbound with
  | true =>
      rw [inbound] at counted
      obtain ⟨_, _, counted⟩ := bind_eq_ok_iff.mp counted
      cases counted
      rfl
  | false =>
      cases outbound : t.outbound with
      | true =>
          rw [inbound, outbound] at counted
          obtain ⟨_, _, counted⟩ := bind_eq_ok_iff.mp counted
          cases counted
          rfl
      | false =>
          rw [inbound, outbound] at counted
          cases counted
          rfl

theorem foldlM_countTag_outbounds {tags : List TagTraffic}
    (counted : tags.foldlM countTag s = .ok s') :
    s'.outbounds = ((tags.filter TagTraffic.isOutbounds).map .count).foldl Movement.onRows
      s.outbounds := by
  induction tags generalizing s with
  | nil =>
      cases counted
      rfl
  | cons t rest ih =>
      rw [List.foldlM_cons] at counted
      obtain ⟨middle, first, counted⟩ := bind_eq_ok_iff.mp counted
      rw [ih counted, countTag_outbounds first]
      cases own : t.isOutbounds with
      | true => rw [List.filter_cons_of_pos own, List.map_cons, List.foldl_cons, if_pos rfl]; rfl
      | false => rw [List.filter_cons_of_neg (by simp [own]), if_neg (by simp)]

theorem foldlM_countEmail_outbounds {clients : List ClientTraffic}
    (counted : clients.foldlM countEmail s = .ok s') : s'.outbounds = s.outbounds := by
  refine foldlM_keeps (motive := fun t => t.outbounds = s.outbounds) ?_ rfl counted
  intro before t after same step
  obtain ⟨_, _, step⟩ := bind_eq_ok_iff.mp step
  cases step
  exact same

theorem addTraffic_outbounds {tags : List TagTraffic} {clients : List ClientTraffic}
    (counted : s.addTraffic tags clients = .ok s') :
    s'.outbounds = (StoreAction.addTraffic tags clients).movements.foldl Movement.onRows
      s.outbounds := by
  obtain ⟨middle, tagged, counted⟩ := bind_eq_ok_iff.mp counted
  rw [foldlM_countEmail_outbounds counted, foldlM_countTag_outbounds tagged]
  rfl

theorem attempt_outbounds {action : StoreAction} (attempted : s.attempt action = .ok s') :
    s'.outbounds = action.movements.foldl Movement.onRows s.outbounds := by
  cases action with
  | addTraffic tags clients => exact addTraffic_outbounds attempted
  | resetOutbounds tag =>
      obtain ⟨⟨rows, _⟩, reset, rfl⟩ := map_eq_ok_iff.mp attempted
      obtain ⟨_, _, reset⟩ := bind_eq_ok_iff.mp reset
      cases reset
      rfl
  | addInbound rule =>
      obtain ⟨⟨id, _⟩, added, rfl⟩ := map_eq_ok_iff.mp attempted
      obtain ⟨-, -, rfl⟩ := addInbound_eq_ok added
      rfl
  | setEnabled id enabled =>
      obtain ⟨⟨known, _⟩, changed, rfl⟩ := map_eq_ok_iff.mp attempted
      rw [setEnabled_eq_ok changed]
      rfl
  | addClient inbound email enabled =>
      rw [addClient_eq_ok attempted]
      rfl
  | setText key value =>
      obtain ⟨_, _, written⟩ := bind_eq_ok_iff.mp (during_eq_ok_iff.mp attempted)
      cases written
      rfl
  | outage tables =>
      cases attempted
      rfl

def movementsOf (history : List StoreAction) : List Movement :=
  (succeeded {} history).flatMap StoreAction.movements

theorem after_outbounds (history : List StoreAction) :
    (after history).outbounds = (movementsOf history).foldl Movement.onRows [] := by
  rw [movementsOf, List.foldl_flatMap]
  exact performAll_eq_foldl outbounds attempt_outbounds {} history

/--
The rows listed for the outbounds are the accounts of their movements: one for each tag that was
ever counted for, in the order of their bytes, with what was counted for it since its last reset.
-/
structure Accounts (rows : List OutboundUsage) (ms : List Movement) : Prop where
  ordered : rows.Pairwise fun r r' => Text.bytes r.tag < Text.bytes r'.tag
  known : ∀ tag, (∃ r ∈ rows, r.tag = tag) ↔ ∃ t, .count t ∈ ms ∧ t.tag = tag
  up : ∀ r ∈ rows, r.up = Movement.up r.tag ms
  down : ∀ r ∈ rows, r.down = Movement.down r.tag ms
  total : ∀ r ∈ rows, r.total = r.up + r.down

def usage (ms : List Movement) (tag : String) : OutboundUsage :=
  ⟨tag, Movement.up tag ms, Movement.down tag ms, Movement.up tag ms + Movement.down tag ms⟩

theorem accounts_map_usage {ms : List Movement} {tags : List String}
    (ordered : tags.Pairwise (· < ·))
    (known : ∀ tag, tag ∈ tags ↔ ∃ t, .count t ∈ ms ∧ t.tag = tag) :
    Accounts (tags.map (usage ms)) ms where
  ordered := by
    rw [List.pairwise_map]
    exact ordered.imp fun below => (Text.bytes_lt_bytes_iff _ _).mpr below
  known tag := by
    rw [← known]
    simp [usage]
  up := by simp [usage]
  down := by simp [usage]
  total := by simp [usage]

theorem outboundUsage_of_rows {ms : List Movement} {tags : List String}
    (rows : s.outbounds = tags.map (Movement.row ms)) :
    s.outboundUsage = (do
      s.reach .outbounds
      pure (tags.map (usage ms))) := by
  have listed : (tags.map (Movement.row ms)).mapM (m := Except StoreFault) (fun r => do
      let up ← counted r.up
      let down ← counted r.down
      let total ← counted r.total
      pure (⟨r.tag, up, down, total⟩ : OutboundUsage)) = .ok (tags.map (usage ms)) := by
    clear rows
    induction tags with
    | nil => rfl
    | cons tag rest ih =>
        rw [List.map_cons, List.mapM_cons, ih]
        rfl
  rw [outboundUsage, rows, listed]
  rfl

/-! A reset of the rows that are listed. -/

def OutboundUsage.coveredBy (named : String) (r : OutboundUsage) : Bool :=
  named == allTags || r.tag == named

def OutboundUsage.resetBy (named : String) (r : OutboundUsage) : OutboundUsage :=
  if r.coveredBy named then ⟨r.tag, 0, 0, 0⟩ else r

theorem usage_reset (ms : List Movement) (named tag : String) :
    usage (ms ++ [.reset named]) tag = (usage ms tag).resetBy named := by
  have same : (usage ms tag).coveredBy named = (Movement.reset named).resets tag := rfl
  rw [OutboundUsage.resetBy, same]
  cases covered : (Movement.reset named).resets tag <;>
    simp [usage, Movement.up, Movement.down, Movement.sinceReset_reset, covered]

theorem resetOutbounds_of_rows {ms : List Movement} {tags : List String}
    (rows : s.outbounds = tags.map (Movement.row ms)) (named : String) :
    ∃ s', s.resetOutbounds named = (do
        s.reach .outbounds
        pure (((tags.map (usage ms)).filter (·.coveredBy named)).length, s')) ∧
      s'.outboundUsage = (do
        s.reach .outbounds
        pure ((tags.map (usage ms)).map (·.resetBy named))) := by
  have zeroed := Movement.onRows_reset_map_row ms named tags
  have covered : (s.outbounds.filter (covers named)).length =
      ((tags.map (usage ms)).filter (·.coveredBy named)).length := by
    rw [rows, List.filter_map, List.filter_map, List.length_map, List.length_map]
    rfl
  refine ⟨{ s with outbounds := Movement.onRows s.outbounds (.reset named) }, ?_, ?_⟩
  · rw [← covered]
    rfl
  · rw [← rows] at zeroed
    rw [outboundUsage_of_rows zeroed, List.map_map]
    have listed : tags.map (usage (ms ++ [.reset named])) =
        tags.map ((·.resetBy named) ∘ usage ms) :=
      List.map_congr_left fun tag _ => usage_reset ms named tag
    rw [listed]
    rfl

theorem addTraffic_outbounds_of_others {tags : List TagTraffic} {clients : List ClientTraffic}
    (others : ∀ t ∈ tags, t.isOutbounds = false)
    (counted : s.addTraffic tags clients = .ok s') : s'.outbounds = s.outbounds := by
  have nothing : tags.filter TagTraffic.isOutbounds = [] := by simpa using others
  rw [addTraffic_outbounds counted, StoreAction.movements, nothing]
  rfl

/--
After any history whose sums stay within 64 bits the outbounds are listed by their accounts. A reset
answers how many of these rows it covers, sets them to zero and leaves the others; and entries that
are no outbound's leave all rows as they are.
-/
theorem outbounds_accounted (history : List StoreAction)
    (within : Movement.InRange (movementsOf history)) :
    let s := after history
    ∃ rows, Accounts rows (movementsOf history) ∧
      s.outboundUsage = (do
        s.reach .outbounds
        pure rows) ∧
      (∀ named, ∃ s',
        s.resetOutbounds named = (do
          s.reach .outbounds
          pure ((rows.filter (·.coveredBy named)).length, s')) ∧
        s'.outboundUsage = (do
          s.reach .outbounds
          pure (rows.map (·.resetBy named)))) ∧
      ∀ tags clients s', (∀ t ∈ tags, t.isOutbounds = false) →
        s.addTraffic tags clients = .ok s' → s'.outbounds = s.outbounds := by
  intro s
  obtain ⟨tags, ordered, known, rows⟩ := Movement.foldl_onRows within
  rw [← after_outbounds] at rows
  exact ⟨_, accounts_map_usage ordered known, outboundUsage_of_rows rows,
    resetOutbounds_of_rows rows, fun _ _ _ => addTraffic_outbounds_of_others⟩

/-- Two tags are counted for, with entries of other kinds in between; one is reset before it is
counted for once more. Capital letters come first: the order is that of the bytes. -/
theorem outbounds_accounted_resetBetween :
    let entry (tag : String) (up down : Int) : TagTraffic := ⟨false, true, tag, up, down⟩
    let history : List StoreAction :=
      [.addTraffic [entry "direct" 5 7, entry "Z" 1 1, ⟨true, true, "both", 3, 3⟩] [],
        .addTraffic [⟨false, false, "none", 3, 3⟩] [⟨"a@x", 1, 1⟩],
        .resetOutbounds "direct",
        .addTraffic [entry "direct" 2 3, entry "direct" 10 0] []]
    let s := after history
    Movement.InRange (movementsOf history) ∧
      s.outboundUsage = .ok [⟨"Z", 1, 1, 2⟩, ⟨"direct", 12, 3, 15⟩] ∧
      Accounts [⟨"Z", 1, 1, 2⟩, ⟨"direct", 12, 3, 15⟩] (movementsOf history) ∧
      ∃ s', s.resetOutbounds "Z" = .ok (1, s') ∧
        s'.outboundUsage = .ok [⟨"Z", 0, 0, 0⟩, ⟨"direct", 12, 3, 15⟩] := by
  intro entry history s
  have within : Movement.InRange (movementsOf history) := .of_volume (by decide +kernel)
  have reached : s.reach .outbounds = .ok () := by decide +kernel
  have listed : s.outboundUsage = .ok [⟨"Z", 1, 1, 2⟩, ⟨"direct", 12, 3, 15⟩] := by decide +kernel
  obtain ⟨rows, accounts, usage, resets, -⟩ := outbounds_accounted history within
  obtain ⟨s', reset, left⟩ := resets "Z"
  obtain rfl : rows = [⟨"Z", 1, 1, 2⟩, ⟨"direct", 12, 3, 15⟩] := by
    have same := listed.symm.trans usage
    rw [reached] at same
    exact (Except.ok.inj same).symm
  refine ⟨within, listed, accounts, s', ?_, ?_⟩
  · rw [reset, reached]
    rfl
  · rw [left, reached]
    rfl

end Store

end RelayControl
