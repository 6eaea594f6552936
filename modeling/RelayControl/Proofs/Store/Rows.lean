import Mathlib.Data.List.Infix
import Mathlib.Data.List.Sort
import RelayControl.Proofs.Store.Outbounds

/-!
Rows and the entries that are counted for them. A counter to which numbers are added is raised by
their sum as long as all sums on the way fit it; a row is raised by the sums of its own entries,
those of its tag or its email, wherever they stand among the others.
-/

namespace RelayControl

namespace Tally

def plusAll (t : Tally) (ns : List Int) : Tally := ns.foldl (fun t n => t.plus (.whole n)) t

/-- Nothing is to be added, or the sums on the way, the first and the last included, all fit. -/
def Bears (t : Tally) (ns : List Int) : Prop :=
  ns = [] ∨ ∃ m, t = .whole m ∧ ∀ past, past <+: ns → fitsCounter (m + past.sum) = true

def raised (t : Tally) (n : Int) : Tally :=
  match t with
  | .whole m => .whole (m + n)
  | .float x => .float x

@[simp] theorem raised_zero (t : Tally) : t.raised 0 = t := by
  cases t with
  | whole m => rw [raised, Int.add_zero]
  | float x => rfl

theorem bears_nil (t : Tally) : t.Bears [] := .inl rfl

theorem bears_whole_cons {m n : Int} {ns : List Int} :
    (whole m).Bears (n :: ns) ↔ ∀ past, past <+: n :: ns → fitsCounter (m + past.sum) = true := by
  constructor
  · rintro (⟨⟨⟩⟩ | ⟨_, ⟨⟩, fits⟩)
    exact fits
  · exact fun fits => .inr ⟨m, rfl, fits⟩

instance (t : Tally) (ns : List Int) : Decidable (t.Bears ns) :=
  match t, ns with
  | _, [] => isTrue (bears_nil _)
  | .float _, _ :: _ => isFalse (by rintro (⟨⟨⟩⟩ | ⟨_, ⟨⟩, -⟩))
  | .whole m, n :: ns =>
      decidable_of_iff (∀ past ∈ (n :: ns).inits, fitsCounter (m + past.sum) = true) (by
        rw [bears_whole_cons]
        simp only [List.mem_inits])

theorem Bears.head {m n : Int} {ns : List Int} (bears : (whole m).Bears (n :: ns)) :
    fitsCounter (m + n) = true := by
  simpa using bears_whole_cons.mp bears [n] (by simp)

theorem Bears.tail {m n : Int} {ns : List Int} (bears : (whole m).Bears (n :: ns)) :
    (whole (m + n)).Bears ns := by
  refine .inr ⟨m + n, rfl, ?_⟩
  intro past early
  have later := bears_whole_cons.mp bears (n :: past) (List.cons_prefix_cons.mpr ⟨rfl, early⟩)
  rwa [List.sum_cons, ← Int.add_assoc] at later

theorem Bears.plusAll_eq {t : Tally} {ns : List Int} (bears : t.Bears ns) :
    t.plusAll ns = t.raised ns.sum := by
  induction ns generalizing t with
  | nil => exact (raised_zero t).symm
  | cons n ns ih =>
      rcases bears with ⟨⟨⟩⟩ | ⟨m, rfl, fits⟩
      have bears := bears_whole_cons.mpr fits
      calc (whole m).plusAll (n :: ns) = (whole (m + n)).plusAll ns := by
            rw [plusAll, List.foldl_cons, plus_whole bears.head, plusAll]
        _ = whole (m + n + ns.sum) := ih bears.tail
        _ = (whole m).raised (n :: ns).sum := by rw [raised, List.sum_cons, Int.add_assoc]

theorem Bears.perm {t : Tally} {ns ns' : List Int} (bears : t.Bears ns) (perm : ns.Perm ns')
    (nonneg : ∀ n ∈ ns, 0 ≤ n) : t.Bears ns' := by
  rcases bears with rfl | ⟨m, rfl, fits⟩
  · exact .inl (List.nil_perm.mp perm)
  · refine .inr ⟨m, rfl, ?_⟩
    intro past early
    obtain ⟨future, rfl⟩ := early
    have each : ∀ n ∈ past ++ future, 0 ≤ n := fun n member => nonneg n (perm.mem_iff.mpr member)
    have spent : 0 ≤ past.sum :=
      List.sum_nonneg fun n member => each n (List.mem_append_left _ member)
    have left : 0 ≤ future.sum :=
      List.sum_nonneg fun n member => each n (List.mem_append_right _ member)
    have total : ns.sum = past.sum + future.sum := by rw [perm.sum_eq, List.sum_append]
    have least : fitsCounter m = true := by simpa using fits [] List.nil_prefix
    have most := fits ns (List.prefix_refl ns)
    simp only [fitsCounter, Bool.and_eq_true, decide_eq_true_eq] at least most ⊢
    omega

end Tally

/-! The entries of a row. -/

namespace TagTraffic

def ofInbound (tag : String) (tags : List TagTraffic) : List TagTraffic :=
  tags.filter fun t => t.inbound && t.tag == tag

def ofOutbound (tag : String) (tags : List TagTraffic) : List TagTraffic :=
  tags.filter fun t => t.isOutbounds && t.tag == tag

end TagTraffic

def ClientTraffic.ofEmail (email : String) (clients : List ClientTraffic) : List ClientTraffic :=
  clients.filter (·.email == email)

namespace InboundRow

def count (r : InboundRow) (t : TagTraffic) : InboundRow :=
  { r with up := r.up.plus (.whole t.up), down := r.down.plus (.whole t.down) }

def Bears (r : InboundRow) (own : List TagTraffic) : Prop :=
  r.up.Bears (own.map (·.up)) ∧ r.down.Bears (own.map (·.down))

instance (r : InboundRow) (own : List TagTraffic) : Decidable (r.Bears own) :=
  inferInstanceAs (Decidable (_ ∧ _))

def raised (r : InboundRow) (own : List TagTraffic) : InboundRow :=
  { r with up := r.up.raised (own.map (·.up)).sum, down := r.down.raised (own.map (·.down)).sum }

theorem foldl_count (r : InboundRow) (own : List TagTraffic) :
    own.foldl count r =
      { r with
        up := r.up.plusAll (own.map (·.up)), down := r.down.plusAll (own.map (·.down)) } := by
  induction own generalizing r with
  | nil => rfl
  | cons t rest ih =>
      rw [List.foldl_cons, ih]
      rfl

theorem Bears.foldl_count {r : InboundRow} {own : List TagTraffic} (bears : r.Bears own) :
    own.foldl count r = r.raised own := by
  rw [InboundRow.foldl_count, bears.1.plusAll_eq, bears.2.plusAll_eq]
  rfl

theorem raised_perm (r : InboundRow) {own own' : List TagTraffic} (perm : own.Perm own') :
    r.raised own = r.raised own' := by
  rw [raised, (perm.map _).sum_eq, (perm.map _).sum_eq]
  rfl

theorem Bears.perm {r : InboundRow} {own own' : List TagTraffic} (bears : r.Bears own)
    (perm : own.Perm own') (rising : ∀ t ∈ own, 0 ≤ t.up ∧ 0 ≤ t.down) : r.Bears own' :=
  ⟨bears.1.perm (perm.map _) (List.forall_mem_map.mpr fun t member => (rising t member).1),
    bears.2.perm (perm.map _) (List.forall_mem_map.mpr fun t member => (rising t member).2)⟩

end InboundRow

namespace ClientRow

def count (c : ClientRow) (t : ClientTraffic) : ClientRow :=
  { c with up := c.up.plus (.whole t.up), down := c.down.plus (.whole t.down) }

def Bears (c : ClientRow) (own : List ClientTraffic) : Prop :=
  c.up.Bears (own.map (·.up)) ∧ c.down.Bears (own.map (·.down))

instance (c : ClientRow) (own : List ClientTraffic) : Decidable (c.Bears own) :=
  inferInstanceAs (Decidable (_ ∧ _))

def raised (c : ClientRow) (own : List ClientTraffic) : ClientRow :=
  { c with up := c.up.raised (own.map (·.up)).sum, down := c.down.raised (own.map (·.down)).sum }

theorem foldl_count (c : ClientRow) (own : List ClientTraffic) :
    own.foldl count c =
      { c with
        up := c.up.plusAll (own.map (·.up)), down := c.down.plusAll (own.map (·.down)) } := by
  induction own generalizing c with
  | nil => rfl
  | cons t rest ih =>
      rw [List.foldl_cons, ih]
      rfl

theorem Bears.foldl_count {c : ClientRow} {own : List ClientTraffic} (bears : c.Bears own) :
    own.foldl count c = c.raised own := by
  rw [ClientRow.foldl_count, bears.1.plusAll_eq, bears.2.plusAll_eq]
  rfl

theorem raised_perm (c : ClientRow) {own own' : List ClientTraffic} (perm : own.Perm own') :
    c.raised own = c.raised own' := by
  rw [raised, (perm.map _).sum_eq, (perm.map _).sum_eq]
  rfl

theorem Bears.perm {c : ClientRow} {own own' : List ClientTraffic} (bears : c.Bears own)
    (perm : own.Perm own') (rising : ∀ t ∈ own, 0 ≤ t.up ∧ 0 ≤ t.down) : c.Bears own' :=
  ⟨bears.1.perm (perm.map _) (List.forall_mem_map.mpr fun t member => (rising t member).1),
    bears.2.perm (perm.map _) (List.forall_mem_map.mpr fun t member => (rising t member).2)⟩

end ClientRow

namespace OutboundRow

def blank (tag : String) : OutboundRow := ⟨tag, .zero, .zero, .zero⟩

def first (t : TagTraffic) : OutboundRow :=
  ⟨t.tag, .whole t.up, .whole t.down, (Tally.whole t.up).plus (.whole t.down)⟩

def count (r : OutboundRow) (t : TagTraffic) : OutboundRow :=
  { r with
    up := r.up.plus (.whole t.up), down := r.down.plus (.whole t.down)
    total := r.total.plus ((Tally.whole t.up).plus (.whole t.down)) }

structure Bears (r : OutboundRow) (own : List TagTraffic) : Prop where
  up : r.up.Bears (own.map (·.up))
  down : r.down.Bears (own.map (·.down))
  entry : ∀ t ∈ own, fitsCounter (t.up + t.down) = true
  total : r.total.Bears (own.map fun t => t.up + t.down)

theorem bears_nil (r : OutboundRow) : r.Bears [] :=
  ⟨r.up.bears_nil, r.down.bears_nil, List.forall_mem_nil _, r.total.bears_nil⟩

instance (r : OutboundRow) (own : List TagTraffic) : Decidable (r.Bears own) :=
  decidable_of_iff (r.up.Bears (own.map (·.up)) ∧ r.down.Bears (own.map (·.down)) ∧
      (∀ t ∈ own, fitsCounter (t.up + t.down) = true) ∧
      r.total.Bears (own.map fun t => t.up + t.down))
    ⟨fun ⟨up, down, entry, total⟩ => ⟨up, down, entry, total⟩,
      fun ⟨up, down, entry, total⟩ => ⟨up, down, entry, total⟩⟩

def raised (r : OutboundRow) (own : List TagTraffic) : OutboundRow :=
  { r with
    up := r.up.raised (own.map (·.up)).sum, down := r.down.raised (own.map (·.down)).sum
    total := r.total.raised (own.map fun t => t.up + t.down).sum }

theorem foldl_count (r : OutboundRow) {own : List TagTraffic}
    (entry : ∀ t ∈ own, fitsCounter (t.up + t.down) = true) :
    own.foldl count r =
      { r with
        up := r.up.plusAll (own.map (·.up)), down := r.down.plusAll (own.map (·.down))
        total := r.total.plusAll (own.map fun t => t.up + t.down) } := by
  induction own generalizing r with
  | nil => rfl
  | cons t rest ih =>
      obtain ⟨fits, later⟩ := List.forall_mem_cons.mp entry
      rw [List.foldl_cons, ih _ later, count, Tally.plus_whole fits]
      rfl

theorem Bears.foldl_count {r : OutboundRow} {own : List TagTraffic} (bears : r.Bears own) :
    own.foldl count r = r.raised own := by
  rw [OutboundRow.foldl_count r bears.entry, bears.up.plusAll_eq, bears.down.plusAll_eq,
    bears.total.plusAll_eq]
  rfl

theorem raised_perm (r : OutboundRow) {own own' : List TagTraffic} (perm : own.Perm own') :
    r.raised own = r.raised own' := by
  rw [raised, (perm.map _).sum_eq, (perm.map _).sum_eq, (perm.map _).sum_eq]
  rfl

theorem Bears.perm {r : OutboundRow} {own own' : List TagTraffic} (bears : r.Bears own)
    (perm : own.Perm own') (rising : ∀ t ∈ own, 0 ≤ t.up ∧ 0 ≤ t.down) : r.Bears own' where
  up := bears.up.perm (perm.map _) (List.forall_mem_map.mpr fun t member => (rising t member).1)
  down := bears.down.perm (perm.map _) (List.forall_mem_map.mpr fun t member => (rising t member).2)
  entry t member := bears.entry t (perm.mem_iff.mpr member)
  total := bears.total.perm (perm.map _) (List.forall_mem_map.mpr fun t member =>
    Int.add_nonneg (rising t member).1 (rising t member).2)

theorem Bears.first_eq {t : TagTraffic} {rest : List TagTraffic}
    (bears : (blank t.tag).Bears (t :: rest)) : first t = (blank t.tag).count t := by
  have up := Tally.plus_whole (Tally.Bears.head bears.up)
  have down := Tally.plus_whole (Tally.Bears.head bears.down)
  have total := Tally.plus_whole (Tally.Bears.head bears.total)
  have entry := Tally.plus_whole (bears.entry t List.mem_cons_self)
  rw [Int.zero_add] at up down total
  rw [first, count, entry]
  simp only [blank, Tally.zero, up, down, total]

def countInto (r? : Option OutboundRow) (t : TagTraffic) : Option OutboundRow :=
  some ((r?.map (·.count t)).getD (first t))

theorem foldl_countInto_some (r : OutboundRow) (own : List TagTraffic) :
    own.foldl countInto (some r) = some (own.foldl count r) := by
  induction own generalizing r with
  | nil => rfl
  | cons t rest ih => exact ih (r.count t)

theorem Bears.foldl_countInto {r? : Option OutboundRow} {tag : String} {own : List TagTraffic}
    (bears : (r?.getD (blank tag)).Bears own) (named : ∀ t ∈ own, t.tag = tag) :
    own.foldl countInto r? =
      if own = [] then r? else some ((r?.getD (blank tag)).raised own) := by
  cases own with
  | nil => rfl
  | cons t rest =>
      -- the first entry is put as it stands, which is what a blank row makes of it within range
      have start : countInto r? t = some ((r?.getD (blank tag)).count t) := by
        cases r? with
        | some r => rfl
        | none =>
            obtain rfl := named t List.mem_cons_self
            exact congrArg some bears.first_eq
      rw [if_neg (List.cons_ne_nil t rest), ← bears.foldl_count, List.foldl_cons, start,
        foldl_countInto_some, List.foldl_cons]

end OutboundRow

/-! The rows of a table. -/

/-- To count entries for all rows is to count for each row its own. -/
theorem foldl_map_count {ρ τ : Type} (key : ρ → String) (name : τ → String) (count : ρ → τ → ρ)
    (keeps : ∀ r t, key (count r t) = key r) (ts : List τ) (rows : List ρ) :
    ts.foldl (fun rows t => rows.map fun r => if key r == name t then count r t else r) rows =
      rows.map fun r => (ts.filter (name · == key r)).foldl count r := by
  induction ts generalizing rows with
  | nil => simp
  | cons t rest ih =>
      rw [List.foldl_cons, ih, List.map_map]
      apply List.map_congr_left
      intro r _
      by_cases own : key r = name t
      · simp [own, keeps]
      · have other : name t ≠ key r := Ne.symm own
        simp [own, other]

namespace Store

theorem foldl_countInbound (tags : List TagTraffic) (rows : List InboundRow) :
    (tags.filter (·.inbound)).foldl (fun rows t => countInbound t rows) rows =
      rows.map fun r => (TagTraffic.ofInbound r.tag tags).foldl InboundRow.count r := by
  refine (foldl_map_count (fun r : InboundRow => r.tag) (fun t : TagTraffic => t.tag)
    InboundRow.count (fun _ _ => rfl) _ rows).trans ?_
  simp only [List.filter_filter, Bool.and_comm, TagTraffic.ofInbound]

theorem foldl_countClient (clients : List ClientTraffic) (rows : List ClientRow) :
    clients.foldl (fun rows t => countClient t rows) rows =
      rows.map fun c => (ClientTraffic.ofEmail c.email clients).foldl ClientRow.count c :=
  foldl_map_count (fun c : ClientRow => c.email) (fun t : ClientTraffic => t.email)
    ClientRow.count (fun _ _ => rfl) clients rows

def rowOf? (rows : List OutboundRow) (tag : String) : Option OutboundRow :=
  rows.find? (·.tag == tag)

def Ordered (rows : List OutboundRow) : Prop := (rows.map (·.tag)).Pairwise (· < ·)

theorem rowOf?_eq_none_of_lt {rows : List OutboundRow} {tag : String}
    (above : ∀ other ∈ rows.map (·.tag), tag < other) : rowOf? rows tag = none := by
  rw [rowOf?, List.find?_eq_none]
  intro r member same
  have below := above r.tag (List.mem_map_of_mem member)
  rw [eq_of_beq same] at below
  exact lt_irrefl _ below

theorem rowOf?_cons (r : OutboundRow) (rows : List OutboundRow) (tag : String) :
    rowOf? (r :: rows) tag = if r.tag = tag then some r else rowOf? rows tag := by
  by_cases own : r.tag = tag <;> simp [rowOf?, own]

theorem tags_countOutbound (t : TagTraffic) (rows : List OutboundRow) :
    (countOutbound t rows).map (·.tag) = Movement.insertTag t.tag (rows.map (·.tag)) := by
  induction rows with
  | nil => rfl
  | cons r rest ih =>
      rw [countOutbound, List.map_cons, Movement.insertTag]
      split
      · rfl
      · split
        · rfl
        · rw [List.map_cons, ih]

theorem Ordered.countOutbound {rows : List OutboundRow} (ordered : Ordered rows) (t : TagTraffic) :
    Ordered (Store.countOutbound t rows) := by
  rw [Ordered, tags_countOutbound]
  exact Movement.insertTag_ordered ordered

theorem rowOf?_countOutbound {rows : List OutboundRow} (ordered : Ordered rows) (t : TagTraffic)
    (tag : String) :
    rowOf? (countOutbound t rows) tag =
      if t.tag = tag then OutboundRow.countInto (rowOf? rows tag) t else rowOf? rows tag := by
  -- up to the place of the tag the rows are passed over; there the order says whether it has one
  induction rows with
  | nil => exact rowOf?_cons (.first t) [] tag
  | cons r rest ih =>
      obtain ⟨least, later⟩ := List.pairwise_cons.mp ordered
      rw [countOutbound]
      by_cases below : t.tag < r.tag
      · rw [if_pos below]
        refine (rowOf?_cons (.first t) (r :: rest) tag).trans ?_
        by_cases own : t.tag = tag
        · have above : ∀ other ∈ (r :: rest).map (·.tag), tag < other := by
            rw [List.map_cons, List.forall_mem_cons, ← own]
            exact ⟨below, fun other member => below.trans (least other member)⟩
          rw [rowOf?_eq_none_of_lt above]
          rfl
        · rw [if_neg own]
          exact if_neg own
      · rw [if_neg below]
        by_cases same : t.tag = r.tag
        · rw [if_pos same, rowOf?_cons, rowOf?_cons, same]
          by_cases own : r.tag = tag <;> simp [own, OutboundRow.countInto, OutboundRow.count]
        · rw [if_neg same, rowOf?_cons, rowOf?_cons, ih later]
          by_cases own : r.tag = tag
          · have other : t.tag ≠ tag := fun equal => same (equal.trans own.symm)
            rw [if_pos own, if_neg other, if_pos own]
          · rw [if_neg own, if_neg own]

theorem Ordered.foldl_countOutbound {rows : List OutboundRow} (ordered : Ordered rows)
    (ts : List TagTraffic) :
    Ordered (ts.foldl (fun rows t => Store.countOutbound t rows) rows) := by
  induction ts generalizing rows with
  | nil => exact ordered
  | cons t rest ih => exact ih (ordered.countOutbound t)

theorem tags_reset (rows : List OutboundRow) (named : String) :
    (Movement.onRows rows (.reset named)).map (·.tag) = rows.map (·.tag) := by
  rw [Movement.onRows, List.map_map]
  apply List.map_congr_left
  intro r _
  dsimp only [Function.comp]
  split <;> rfl

theorem Ordered.onRows {rows : List OutboundRow} (ordered : Ordered rows) (m : Movement) :
    Ordered (Movement.onRows rows m) := by
  cases m with
  | count t => exact ordered.countOutbound t
  | reset named =>
      rw [Ordered, tags_reset]
      exact ordered

theorem rowOf?_foldl_countOutbound {rows : List OutboundRow} (ordered : Ordered rows)
    (ts : List TagTraffic) (tag : String) :
    rowOf? (ts.foldl (fun rows t => countOutbound t rows) rows) tag =
      (ts.filter (·.tag == tag)).foldl OutboundRow.countInto (rowOf? rows tag) := by
  induction ts generalizing rows with
  | nil => rfl
  | cons t rest ih =>
      rw [List.foldl_cons, ih (ordered.countOutbound t), rowOf?_countOutbound ordered]
      by_cases own : t.tag = tag <;> simp [own]

theorem Ordered.ext {rows rows' : List OutboundRow} (ordered : Ordered rows)
    (ordered' : Ordered rows') (same : ∀ tag, rowOf? rows tag = rowOf? rows' tag) :
    rows = rows' := by
  have found : ∀ {rows : List OutboundRow}, Ordered rows → ∀ r,
      r ∈ rows ↔ rowOf? rows r.tag = some r := by
    intro rows ordered r
    constructor
    · exact find?_eq_some_of_nodup ordered.nodup
    · exact List.mem_of_find?_eq_some
  apply (List.pairwise_map.mp ordered).eq_of_mem_iff (List.pairwise_map.mp ordered')
  intro r
  rw [found ordered, found ordered', same]

theorem Ordered.foldl_onRows {rows : List OutboundRow} (ordered : Ordered rows)
    (ms : List Movement) : Ordered (ms.foldl Movement.onRows rows) := by
  induction ms generalizing rows with
  | nil => exact ordered
  | cons m rest ih => exact ih (ordered.onRows m)

theorem after_ordered (history : List StoreAction) : Ordered (after history).outbounds := by
  have none : Ordered [] := List.Pairwise.nil
  rw [after_outbounds]
  exact none.foldl_onRows _

end Store

end RelayControl
