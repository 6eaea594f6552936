import RelayControl.Proofs.Basic
import RelayControl.Store

/-!
What in a store does not depend on the counters. Counting traffic and setting counters to zero
change the counters and the rows of the outbounds; what synthesis reads is left alone.
-/

namespace RelayControl

def InboundRow.uncounted (r : InboundRow) : InboundRow := { r with up := .zero, down := .zero }

def ClientRow.uncounted (c : ClientRow) : ClientRow := { c with up := .zero, down := .zero }

namespace Store

def uncounted (s : Store) : Store :=
  { s with
    inbounds := s.inbounds.map InboundRow.uncounted
    clients := s.clients.map ClientRow.uncounted
    outbounds := [] }

theorem uncounted_reach (s : Store) (t : Table) : s.uncounted.reach t = s.reach t := rfl

theorem recordsOf_uncounted (s : Store) (inbound : Int) :
    s.uncounted.recordsOf inbound = s.recordsOf inbound := by
  rw [recordsOf, recordsOf, uncounted, List.filter_map, List.map_map]
  rfl

theorem enabledRules_uncounted (s : Store) : s.uncounted.enabledRules = s.enabledRules := by
  have rows : s.uncounted.inbounds.filter (·.enabled) =
      (s.inbounds.filter (·.enabled)).map InboundRow.uncounted := by
    rw [uncounted, List.filter_map]
    rfl
  simp only [enabledRules, uncounted_reach, rows, List.map_map, recordsOf_uncounted]
  rfl

theorem source_uncounted (s : Store) : s.uncounted.source = s.source := by
  rw [source, source, enabledRules_uncounted]
  rfl

/-! Counting and setting to zero. -/

variable {s s' : Store}

theorem uncounted_countInbound (t : TagTraffic) (rows : List InboundRow) :
    (countInbound t rows).map InboundRow.uncounted = rows.map InboundRow.uncounted := by
  rw [countInbound, List.map_map]
  apply List.map_congr_left
  intro r _
  dsimp only [Function.comp]
  split <;> rfl

theorem uncounted_countClient (t : ClientTraffic) (rows : List ClientRow) :
    (countClient t rows).map ClientRow.uncounted = rows.map ClientRow.uncounted := by
  rw [countClient, List.map_map]
  apply List.map_congr_left
  intro c _
  dsimp only [Function.comp]
  split <;> rfl

theorem countTag_uncounted {t : TagTraffic} (counted : s.countTag t = .ok s') :
    s'.uncounted = s.uncounted := by
  unfold countTag at counted
  split at counted
  · obtain ⟨_, _, counted⟩ := bind_eq_ok_iff.mp counted
    obtain rfl := pure_eq_ok_iff.mp counted
    simp only [uncounted, uncounted_countInbound]
  · split at counted
    · obtain ⟨_, _, counted⟩ := bind_eq_ok_iff.mp counted
      obtain rfl := pure_eq_ok_iff.mp counted
      rfl
    · obtain rfl := pure_eq_ok_iff.mp counted
      rfl

theorem countEmail_uncounted {t : ClientTraffic} (counted : s.countEmail t = .ok s') :
    s'.uncounted = s.uncounted := by
  obtain ⟨_, _, counted⟩ := bind_eq_ok_iff.mp counted
  obtain rfl := pure_eq_ok_iff.mp counted
  simp only [uncounted, uncounted_countClient]

theorem addTraffic_uncounted {tags : List TagTraffic} {clients : List ClientTraffic}
    (counted : s.addTraffic tags clients = .ok s') : s'.uncounted = s.uncounted := by
  obtain ⟨middle, tagged, counted⟩ := bind_eq_ok_iff.mp counted
  have taggedSame : middle.uncounted = s.uncounted :=
    foldlM_keeps (motive := fun t => t.uncounted = s.uncounted)
      (fun same step => (countTag_uncounted step).trans same) rfl tagged
  exact foldlM_keeps (motive := fun t => t.uncounted = s.uncounted)
    (fun same step => (countEmail_uncounted step).trans same) taggedSame counted

theorem resetOutbounds_uncounted {tag : String} {rows : Nat}
    (reset : s.resetOutbounds tag = .ok (rows, s')) : s'.uncounted = s.uncounted := by
  obtain ⟨_, _, reset⟩ := bind_eq_ok_iff.mp reset
  cases reset
  rfl

theorem source_eq_of_uncounted (same : s'.uncounted = s.uncounted) : s'.source = s.source := by
  rw [← source_uncounted, same, source_uncounted]

end Store

end RelayControl
