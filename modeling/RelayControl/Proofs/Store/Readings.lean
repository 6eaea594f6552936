import RelayControl.Proofs.Store.Listing
import RelayControl.Proofs.Store.Overflow
import RelayControl.Proofs.Store.Rows

/-!
What can be read of the counters. A counter reads as the sum of what was counted exactly where this
sum fits 64 bits, as long as no entry takes anything back or all sums on the way fit. One row that
does not read makes the whole listing of the outbounds fail, until a reset sets it to zero.
-/

namespace RelayControl

/-- The counter is read as a number where this number fits, else not at all. -/
def Tally.Reads (t : Tally) (n : Int) : Prop :=
  t.bytes? = if fitsCounter n = true then some n else none

namespace Tally

theorem Reads.counted {t : Tally} {n : Int} (reads : t.Reads n) :
    Store.counted t = if fitsCounter n = true then .ok n else .error { cause := .overflown } := by
  rw [Store.counted, reads]
  by_cases fits : fitsCounter n = true
  · rw [if_pos fits, if_pos fits]
  · rw [if_neg fits, if_neg fits]

theorem reads_whole {n : Int} (fits : fitsCounter n = true) : (whole n).Reads n := by
  rw [Reads, if_pos fits, bytes?_whole]

theorem Bears.reads_raised {ns : List Int} (bears : zero.Bears ns) :
    (zero.raised ns.sum).Reads ns.sum := by
  have fits : fitsCounter ns.sum = true := by
    rcases bears with rfl | ⟨m, start, fits⟩
    · rfl
    · cases start
      simpa using fits ns (List.prefix_refl ns)
  rw [zero, raised, Int.zero_add]
  exact reads_whole fits

/-- The counter keeps to the sum of these numbers: none is negative, or all sums on the way fit. -/
def Steady (ns : List Int) : Prop :=
  (∀ n ∈ ns, 0 ≤ n ∧ fitsCounter n = true) ∨ zero.Bears ns

instance (ns : List Int) : Decidable (Steady ns) := inferInstanceAs (Decidable (_ ∨ _))

theorem standsAt_zero : zero.StandsAt 120 0 := .whole (Int.le_refl 0) (by decide)

theorem StandsAt.plusAll {t : Tally} {m : Int} {ns : List Int} (stands : t.StandsAt 120 m)
    (rising : ∀ n ∈ ns, 0 ≤ n ∧ fitsCounter n = true) :
    (t.plusAll ns).StandsAt 120 (m + ns.sum) := by
  induction ns generalizing t m with
  | nil => simpa [Tally.plusAll] using stands
  | cons n rest ih =>
      obtain ⟨first, later⟩ := List.forall_mem_cons.mp rising
      rw [List.sum_cons, ← Int.add_assoc]
      exact ih (stands.plus (.of_fits first.1 first.2)) later

theorem Steady.reads {ns : List Int} (steady : Steady ns) : (zero.plusAll ns).Reads ns.sum := by
  rcases steady with rising | bears
  · have stands := standsAt_zero.plusAll rising
    rw [Int.zero_add] at stands
    exact stands.bytes?_eq
  · rw [bears.plusAll_eq]
    exact bears.reads_raised

end Tally

structure TagTraffic.Rising (t : TagTraffic) : Prop where
  up : 0 ≤ t.up ∧ fitsCounter t.up = true
  down : 0 ≤ t.down ∧ fitsCounter t.down = true

instance (t : TagTraffic) : Decidable t.Rising :=
  decidable_of_iff ((0 ≤ t.up ∧ fitsCounter t.up = true) ∧ 0 ≤ t.down ∧ fitsCounter t.down = true)
    ⟨fun ⟨up, down⟩ => ⟨up, down⟩, fun ⟨up, down⟩ => ⟨up, down⟩⟩

theorem TagTraffic.Rising.entry {t : TagTraffic} (rising : t.Rising) :
    ((Tally.whole t.up).plus (.whole t.down)).StandsAt 64 (t.up + t.down) :=
  .entry (.of_fits rising.up.1 rising.up.2) (.of_fits rising.down.1 rising.down.2)

/-! The row of an outbound. -/

namespace OutboundRow

variable {r : OutboundRow} {start : Option OutboundRow} {tag : String} {t : TagTraffic}
  {own : List TagTraffic} {m n : Int}

structure Reads (r : OutboundRow) (m n : Int) : Prop where
  up : r.up.Reads m
  down : r.down.Reads n
  total : r.total.Reads (m + n)

structure StandsAt (r : OutboundRow) (m n : Int) : Prop where
  up : r.up.StandsAt 120 m
  down : r.down.StandsAt 120 n
  total : r.total.StandsAt 120 (m + n)

theorem StandsAt.reads (stands : r.StandsAt m n) : r.Reads m n :=
  ⟨stands.up.bytes?_eq, stands.down.bytes?_eq, stands.total.bytes?_eq⟩

theorem standsAt_blank (tag : String) : (blank tag).StandsAt 0 0 :=
  ⟨Tally.standsAt_zero, Tally.standsAt_zero, Tally.standsAt_zero⟩

theorem standsAt_first (rising : t.Rising) : (first t).StandsAt t.up t.down where
  up := .of_fits rising.up.1 rising.up.2
  down := .of_fits rising.down.1 rising.down.2
  total := rising.entry.mono (by decide)

theorem StandsAt.count (stands : r.StandsAt m n) (rising : t.Rising) :
    (r.count t).StandsAt (m + t.up) (n + t.down) where
  up := stands.up.plus (.of_fits rising.up.1 rising.up.2)
  down := stands.down.plus (.of_fits rising.down.1 rising.down.2)
  total := by
    rw [add_add_add_comm]
    exact stands.total.plus rising.entry

/-- A row is begun by its first entry, or goes on from a reset. -/
def Begins (tag : String) (start : Option OutboundRow) : Prop :=
  start = none ∨ start = some (blank tag)

theorem standsAt_foldl_countInto (begins : Begins tag start) (rising : ∀ t ∈ own, t.Rising)
    (found : own.foldl countInto start = some r) :
    r.StandsAt (own.map (·.up)).sum (own.map (·.down)).sum := by
  induction own using List.reverseRecOn generalizing r with
  | nil =>
      rcases begins with rfl | rfl
      · cases found
      · cases found
        exact standsAt_blank tag
  | append_singleton own t ih =>
      have last := rising t (by simp)
      have earlier : ∀ u ∈ own, u.Rising := fun u member => rising u (by simp [member])
      rw [List.foldl_append, List.foldl_cons, List.foldl_nil] at found
      cases before : own.foldl countInto start with
      | some r' =>
          rw [before] at found
          cases found
          simpa using (ih earlier before).count last
      | none =>
          have alone : own = [] := by
            rcases List.eq_nil_or_concat own with rfl | ⟨past, u, rfl⟩
            · rfl
            · rw [List.concat_eq_append, List.foldl_append] at before
              cases before
          rw [before] at found
          cases found
          subst alone
          simpa using standsAt_first last

theorem reads_foldl_countInto (begins : Begins tag start) (named : ∀ t ∈ own, t.tag = tag)
    (bears : (blank tag).Bears own) (found : own.foldl countInto start = some r) :
    r.Reads (own.map (·.up)).sum (own.map (·.down)).sum := by
  have blank : start.getD (blank tag) = .blank tag := by
    rcases begins with rfl | rfl <;> rfl
  have raised : r = (OutboundRow.blank tag).raised own := by
    rw [← blank] at bears
    have counted := bears.foldl_countInto named
    rw [found, blank] at counted
    split at counted
    · rename_i nothing
      subst nothing
      rcases begins with rfl | rfl
      · cases counted
      · cases counted
        rfl
    · exact Option.some.inj counted
  have total : (own.map fun t => t.up + t.down).sum =
      (own.map (·.up)).sum + (own.map (·.down)).sum := List.sum_map_add
  rw [raised]
  refine ⟨bears.up.reads_raised, bears.down.reads_raised, ?_⟩
  rw [← total]
  exact bears.total.reads_raised

def Steady (tag : String) (own : List TagTraffic) : Prop :=
  (∀ t ∈ own, t.Rising) ∨ (blank tag).Bears own

instance (tag : String) (own : List TagTraffic) : Decidable (Steady tag own) :=
  inferInstanceAs (Decidable (_ ∨ _))

theorem Steady.reads (steady : Steady tag own) (begins : Begins tag start)
    (named : ∀ t ∈ own, t.tag = tag) (found : own.foldl countInto start = some r) :
    r.Reads (own.map (·.up)).sum (own.map (·.down)).sum := by
  rcases steady with rising | bears
  · exact (standsAt_foldl_countInto begins rising found).reads
  · exact reads_foldl_countInto begins named bears found

end OutboundRow

namespace Movement

theorem named_sinceReset {ms : List Movement} {tag : String} :
    ∀ t ∈ sinceReset tag ms, t.tag = tag := by
  intro t member
  obtain ⟨m, -, counted⟩ := List.mem_filterMap.mp member
  cases m with
  | reset named => cases counted
  | count u =>
      rw [counts?] at counted
      split at counted
      · rename_i own
        cases counted
        exact own
      · cases counted

theorem rowOf?_reset (rows : List OutboundRow) (named tag : String) :
    Store.rowOf? (onRows rows (.reset named)) tag = (Store.rowOf? rows tag).map fun r =>
      if (reset named).resets tag then .blank tag else r := by
  have kept : ∀ r : OutboundRow, (if Store.covers named r then
      { r with up := .zero, down := .zero, total := .zero } else r).tag = r.tag := by
    intro r
    split <;> rfl
  unfold Store.rowOf? onRows
  rw [List.find?_map]
  simp only [Function.comp_def, kept]
  apply Option.map_congr
  intro r found
  have own : r.tag = tag := by simpa using List.find?_some found
  subst own
  rfl

theorem rowOf?_foldl_onRows (ms : List Movement) (tag : String) :
    ∃ start, OutboundRow.Begins tag start ∧
      Store.rowOf? (ms.foldl onRows []) tag =
        (sinceReset tag ms).foldl OutboundRow.countInto start := by
  induction ms using List.reverseRecOn with
  | nil => exact ⟨none, .inl rfl, rfl⟩
  | append_singleton ms m ih =>
      obtain ⟨start, begins, row⟩ := ih
      rw [List.foldl_append, List.foldl_cons, List.foldl_nil]
      cases m with
      | count t =>
          refine ⟨start, begins, ?_⟩
          have none : Store.Ordered [] := List.Pairwise.nil
          refine (Store.rowOf?_countOutbound (none.foldl_onRows ms) t tag).trans ?_
          rw [row, sinceReset_count]
          by_cases own : t.tag = tag
          · simp [own]
          · simp [own]
      | reset named =>
          rw [rowOf?_reset, sinceReset_reset]
          by_cases covered : (reset named).resets tag = true
          · simp only [covered, if_true]
            refine ⟨_, ?_, rfl⟩
            cases Store.rowOf? (ms.foldl onRows []) tag with
            | none => exact .inl rfl
            | some r => exact .inr rfl
          · simp only [covered, Bool.false_eq_true, if_false, Option.map_id_fun', id_eq]
            exact ⟨start, begins, row⟩

theorem mem_tags_foldl_onRows {ms : List Movement} {tag : String} :
    tag ∈ (ms.foldl onRows []).map (·.tag) ↔ ∃ t, .count t ∈ ms ∧ t.tag = tag := by
  induction ms using List.reverseRecOn with
  | nil => simp
  | append_singleton ms m ih =>
      rw [List.foldl_append, List.foldl_cons, List.foldl_nil]
      simp only [List.mem_append, List.mem_singleton, or_and_right, exists_or, ← ih]
      cases m with
      | count t =>
          rw [onRows, Store.tags_countOutbound, mem_insertTag, or_comm]
          simp [eq_comm]
      | reset named =>
          rw [Store.tags_reset]
          simp

end Movement

namespace Store

def OutboundUsage.fits (r : OutboundUsage) : Bool :=
  fitsCounter r.up && fitsCounter r.down && fitsCounter r.total

theorem read_row {r : OutboundRow} {m n : Int} (reads : r.Reads m n) :
    (do
      let up ← counted r.up
      let down ← counted r.down
      let total ← counted r.total
      pure (⟨r.tag, up, down, total⟩ : OutboundUsage)) =
    if (⟨r.tag, m, n, m + n⟩ : OutboundUsage).fits then .ok ⟨r.tag, m, n, m + n⟩
    else .error { cause := .overflown } := by
  rw [reads.up.counted, reads.down.counted, reads.total.counted, OutboundUsage.fits]
  cases fitsCounter m <;> cases fitsCounter n <;> cases fitsCounter (m + n) <;> rfl

theorem read_rows {ms : List Movement} {rows : List OutboundRow}
    (reads : ∀ r ∈ rows, r.Reads (Movement.up r.tag ms) (Movement.down r.tag ms)) :
    rows.mapM (fun r => do
      let up ← counted r.up
      let down ← counted r.down
      let total ← counted r.total
      pure (⟨r.tag, up, down, total⟩ : OutboundUsage)) =
    if ((rows.map (·.tag)).map (usage ms)).all (·.fits) then
      .ok ((rows.map (·.tag)).map (usage ms))
    else .error { cause := .overflown } := by
  induction rows with
  | nil => rfl
  | cons r rest ih =>
      obtain ⟨first, later⟩ := List.forall_mem_cons.mp reads
      have named : (⟨r.tag, Movement.up r.tag ms, Movement.down r.tag ms,
        Movement.up r.tag ms + Movement.down r.tag ms⟩ : OutboundUsage) = usage ms r.tag := rfl
      rw [List.mapM_cons, ih later, read_row first, named, List.map_cons, List.map_cons,
        List.all_cons]
      cases (usage ms r.tag).fits with
      | false => rfl
      | true =>
          cases ((rest.map (·.tag)).map (usage ms)).all (·.fits) <;> rfl

variable (history : List StoreAction)

theorem after_outboundUsage
    (steady : ∀ t ∈ Movement.counted (movementsOf history),
      OutboundRow.Steady t.tag (Movement.sinceReset t.tag (movementsOf history))) :
    ∃ rows, Accounts rows (movementsOf history) ∧
      (after history).outboundUsage = (do
        (after history).reach .outbounds
        if rows.all (·.fits) then pure rows else .error { cause := .overflown }) := by
  have ordered := after_ordered history
  have known : ∀ tag, tag ∈ (after history).outbounds.map (·.tag) ↔
      ∃ t, .count t ∈ movementsOf history ∧ t.tag = tag := by
    intro tag
    rw [after_outbounds, Movement.mem_tags_foldl_onRows]
  refine ⟨_, accounts_map_usage ordered known, ?_⟩
  have reads : ∀ r ∈ (after history).outbounds,
      r.Reads (Movement.up r.tag (movementsOf history))
        (Movement.down r.tag (movementsOf history)) := by
    intro r member
    have found : rowOf? (after history).outbounds r.tag = some r :=
      find?_eq_some_of_nodup ordered.nodup member
    obtain ⟨start, begins, row⟩ := Movement.rowOf?_foldl_onRows (movementsOf history) r.tag
    rw [← after_outbounds, found] at row
    obtain ⟨t, counted, same⟩ := (known _).mp (List.mem_map_of_mem member)
    have own := steady t (List.mem_filterMap.mpr ⟨_, counted, rfl⟩)
    rw [same] at own
    exact own.reads begins Movement.named_sinceReset row.symm
  rw [outboundUsage, read_rows reads]
  rfl

end Store

/-! The record of a client. -/

namespace StoreAction

def entriesFor (email : String) : StoreAction → List ClientTraffic
  | .addTraffic _ clients => ClientTraffic.ofEmail email clients
  | _ => []

theorem foldl_counting (email : String) (counters : Tally × Tally)
    (clients : List ClientTraffic) :
    clients.foldl (counting email) counters =
      (counters.1.plusAll ((ClientTraffic.ofEmail email clients).map (·.up)),
        counters.2.plusAll ((ClientTraffic.ofEmail email clients).map (·.down))) := by
  induction clients generalizing counters with
  | nil => rfl
  | cons t rest ih =>
      rw [List.foldl_cons, ih]
      by_cases own : t.email = email <;>
        simp [ClientTraffic.ofEmail, counting, own, Tally.plusAll]

theorem onCounters_none (email : String) (action : StoreAction) :
    action.onCounters email none =
      if (action.saying? email).isSome then some (.zero, .zero) else none := by
  cases action with
  | addClient inbound recorded enabled =>
      rw [onCounters, saying?]
      by_cases own : recorded = email <;> simp [own]
  | _ => rfl

theorem onCounters_some (email : String) (counters : Tally × Tally) (action : StoreAction) :
    action.onCounters email (some counters) =
      some (counters.1.plusAll ((action.entriesFor email).map (·.up)),
        counters.2.plusAll ((action.entriesFor email).map (·.down))) := by
  cases action with
  | addTraffic tags clients => exact congrArg some (foldl_counting email counters clients)
  | addClient inbound recorded enabled => simp [onCounters, entriesFor, Tally.plusAll]
  | _ => rfl

theorem foldl_onCounters_some (email : String) (counters : Tally × Tally)
    (done : List StoreAction) :
    done.foldl (onCounters email) (some counters) =
      some (counters.1.plusAll ((done.flatMap (entriesFor email)).map (·.up)),
        counters.2.plusAll ((done.flatMap (entriesFor email)).map (·.down))) := by
  induction done generalizing counters with
  | nil => rfl
  | cons action rest ih =>
      rw [List.foldl_cons, onCounters_some, ih]
      simp only [Tally.plusAll, List.flatMap_cons, List.map_append, List.foldl_append]

end StoreAction

open StoreAction

def countedFor (email : String) : List StoreAction → List ClientTraffic
  | [] => []
  | action :: later =>
      if (action.saying? email).isSome then later.flatMap (entriesFor email)
      else countedFor email later

theorem countersIn?_eq (email : String) (done : List StoreAction) :
    countersIn? email done = (lastRecorded? email done).map fun _ =>
      (Tally.zero.plusAll ((countedFor email done).map (·.up)),
        Tally.zero.plusAll ((countedFor email done).map (·.down))) := by
  induction done with
  | nil => rfl
  | cons action later ih =>
      rw [countersIn?, List.foldl_cons, onCounters_none, lastRecorded?, countedFor]
      cases said : action.saying? email with
      | none =>
          rw [List.filterMap_cons_none said]
          exact ih
      | some record =>
          rw [List.filterMap_cons_some said, List.getLast?_cons]
          exact foldl_onCounters_some email _ later

namespace Store

def ClientUsage.fits (u : ClientUsage) : Bool := fitsCounter u.up && fitsCounter u.down

theorem read_client {s t : Tally} {m n : Int} (up : s.Reads m) (down : t.Reads n) (inbound : Int)
    (email : String) (enabled : Bool) :
    (do
      let up ← counted s
      let down ← counted t
      pure (some (⟨inbound, email, enabled, up, down⟩ : ClientUsage))) =
    if (⟨inbound, email, enabled, m, n⟩ : ClientUsage).fits then
      pure (some ⟨inbound, email, enabled, m, n⟩)
    else .error { cause := .overflown } := by
  rw [up.counted, down.counted, ClientUsage.fits]
  cases fitsCounter m <;> cases fitsCounter n <;> rfl

def readingOf (email : String) (done : List StoreAction) :
    Except StoreFault (Option ClientUsage) :=
  match lastRecorded? email done with
  | some (inbound, enabled) =>
      let own := countedFor email done
      let usage : ClientUsage :=
        ⟨inbound, email, enabled, (own.map (·.up)).sum, (own.map (·.down)).sum⟩
      if usage.fits then pure (some usage) else .error { cause := .overflown }
  | none => pure none

theorem usageIn_eq {email : String} {done : List StoreAction}
    (up : Tally.Steady ((countedFor email done).map (·.up)))
    (down : Tally.Steady ((countedFor email done).map (·.down))) :
    usageIn email done = readingOf email done := by
  rw [usageIn, readingOf, countersIn?_eq]
  cases lastRecorded? email done with
  | none => rfl
  | some record => exact read_client up.reads down.reads record.1 email record.2

/--
Where no entry takes anything back, or all sums on the way fit, the counters are read exactly as
long as their sums fit 64 bits. One row of an outbound whose sums do not fit fails the listing of
all, until it is reset.
-/
theorem counters_read_while_sums_fit (history : List StoreAction) (email : String)
    (outbounds : ∀ t ∈ Movement.counted (movementsOf history),
      OutboundRow.Steady t.tag (Movement.sinceReset t.tag (movementsOf history)))
    (up : Tally.Steady ((countedFor email (succeeded {} history)).map (·.up)))
    (down : Tally.Steady ((countedFor email (succeeded {} history)).map (·.down))) :
    let s := after history
    (∃ rows, Accounts rows (movementsOf history) ∧
      s.outboundUsage = (do
        s.reach .outbounds
        if rows.all (·.fits) then pure rows else .error { cause := .overflown })) ∧
    s.clientUsage? email = during "Failed to get client traffic" (do
      s.reach .clients
      readingOf email (succeeded {} history)) := by
  refine ⟨after_outboundUsage history outbounds, ?_⟩
  rw [after_clientUsage?, usageIn_eq up down]

/-- An outbound and a client pass the end of the range by one byte. The other outbound is not listed
either, and another client still is. -/
theorem counters_read_while_sums_fit_passed :
    let entry (tag : String) (up : Int) : TagTraffic := ⟨false, true, tag, up, 7⟩
    let history : List StoreAction :=
      [.addInbound { tag := "R1", port := 443, protocol := "vless" },
        .addClient 1 "a@x" true, .addClient 1 "b@x" true,
        .addTraffic [entry "direct" 0x7fffffffffffffff, entry "Z" (-5)]
          [⟨"a@x", 0x7fffffffffffffff, 7⟩, ⟨"b@x", 3, 7⟩],
        .addTraffic [entry "direct" 1] [⟨"a@x", 1, 7⟩]]
    let s := after history
    s.outboundUsage = .error { cause := .overflown } ∧
      (∃ rows, Accounts rows (movementsOf history) ∧ rows.all (·.fits) = false) ∧
      s.clientUsage? "a@x" =
        during "Failed to get client traffic" (.error { cause := .overflown }) ∧
      s.clientUsage? "b@x" = .ok (some ⟨1, "b@x", true, 3, 7⟩) := by
  intro entry history s
  have outbounds : ∀ t ∈ Movement.counted (movementsOf history),
      OutboundRow.Steady t.tag (Movement.sinceReset t.tag (movementsOf history)) := by
    decide +kernel
  have failed : s.outboundUsage = .error { cause := .overflown } := by decide +kernel
  have reached : s.reach .clients = .ok () := by decide +kernel
  obtain ⟨⟨rows, accounts, listed⟩, past⟩ :=
    counters_read_while_sums_fit history "a@x" outbounds (by decide +kernel) (by decide +kernel)
  obtain ⟨-, within⟩ :=
    counters_read_while_sums_fit history "b@x" outbounds (by decide +kernel) (by decide +kernel)
  refine ⟨failed, ⟨rows, accounts, ?_⟩, ?_, ?_⟩
  · by_contra fit
    rw [Bool.not_eq_false] at fit
    rw [failed, fit] at listed
    cases listed
  · rw [past, reached]
    decide +kernel
  · rw [within, reached]
    decide +kernel

/-- Counting succeeds, and what was counted cannot be read. -/
theorem counters_unreadable_past_range :
    ¬ ∀ (calls : List (List TagTraffic × List ClientTraffic)) (s : Store),
      (∀ call ∈ calls,
        (∀ t ∈ call.1, fitsCounter t.up = true ∧ fitsCounter t.down = true) ∧
          ∀ t ∈ call.2, fitsCounter t.up = true ∧ fitsCounter t.down = true) →
      calls.foldlM (fun (s : Store) call => s.addTraffic call.1 call.2) {} = .ok s →
      (∃ rows, s.outboundUsage = .ok rows) ∧
        ∀ email, ∃ usage, s.clientUsage? email = .ok usage := by
  intro readable
  let entry (up : Int) : TagTraffic := ⟨false, true, "direct", up, 0⟩
  let s := after [.addTraffic [entry 0x7fffffffffffffff] [], .addTraffic [entry 1] []]
  obtain ⟨⟨rows, listed⟩, -⟩ := readable [([entry 0x7fffffffffffffff], []), ([entry 1], [])] s
    (by decide +kernel) (by decide +kernel)
  have failed : s.outboundUsage = .error { cause := .overflown } := by decide +kernel
  rw [failed] at listed
  cases listed

end Store

end RelayControl
