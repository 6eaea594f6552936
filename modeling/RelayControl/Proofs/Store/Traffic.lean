import RelayControl.Proofs.Store.Rows
import RelayControl.Store.Transaction

/-!
What counted traffic makes of the store. Either every statement reaches its table and all entries
are counted, or nothing is; which it is, and by how much each row is raised, does not depend on how
the entries are grouped or ordered.
-/

namespace RelayControl

namespace Store

def withTraffic (s : Store) (tags : List TagTraffic) (clients : List ClientTraffic) : Store :=
  { s with
    inbounds := (tags.filter (·.inbound)).foldl (fun rows t => countInbound t rows) s.inbounds
    clients := clients.foldl (fun rows t => countClient t rows) s.clients
    outbounds :=
      (tags.filter TagTraffic.isOutbounds).foldl (fun rows t => countOutbound t rows) s.outbounds }

theorem withTraffic_append (s : Store) (tags more : List TagTraffic)
    (clients others : List ClientTraffic) :
    (s.withTraffic tags clients).withTraffic more others =
      s.withTraffic (tags ++ more) (clients ++ others) := by
  simp only [withTraffic, List.filter_append, List.foldl_append]

end Store

/-! The statements. -/

namespace Statement

@[simp] theorem unavailable_effect (s : Store) (statement : Statement) :
    (statement.effect s).unavailable = s.unavailable := by
  cases statement <;> rfl

theorem run_eq (s : Store) (statement : Statement) :
    statement.run s =
      if statement.table ∈ s.unavailable then .error { cause := .unavailable }
      else .ok (statement.effect s) := by
  by_cases away : statement.table ∈ s.unavailable <;> simp [run, Store.reach, away]

theorem foldlM_run (s : Store) (statements : List Statement) :
    statements.foldlM run s =
      if ∀ statement ∈ statements, statement.table ∉ s.unavailable then
        .ok (statements.foldl effect s)
      else .error { cause := .unavailable } := by
  induction statements generalizing s with
  | nil => simp [pure, Except.pure]
  | cons statement rest ih =>
      rw [List.foldlM_cons, run_eq]
      by_cases away : statement.table ∈ s.unavailable
      · rw [if_pos away, if_neg (by simp [away])]
        rfl
      · rw [if_neg away]
        refine (ih (statement.effect s)).trans ?_
        simp only [unavailable_effect, List.forall_mem_cons, away, not_false_eq_true, true_and,
          List.foldl_cons]

theorem foldl_effect_clients (s : Store) (clients : List ClientTraffic) :
    (clients.map .client).foldl effect s = s.withTraffic [] clients := by
  induction clients generalizing s with
  | nil => rfl
  | cons t rest ih =>
      rw [List.map_cons, List.foldl_cons, ih]
      rfl

theorem withTraffic_cons (s : Store) (t : TagTraffic) (rest : List TagTraffic) :
    s.withTraffic (t :: rest) [] = ((ofTag? t).elim s (effect s)).withTraffic rest [] := by
  unfold ofTag? Store.withTraffic
  cases inbound : t.inbound with
  | true => simp [inbound, TagTraffic.isOutbounds, effect]
  | false =>
      cases outbound : t.outbound with
      | true => simp [inbound, outbound, TagTraffic.isOutbounds, effect]
      | false => simp [inbound, outbound, TagTraffic.isOutbounds]

theorem foldl_effect_ofTag? (s : Store) (tags : List TagTraffic) :
    (tags.filterMap ofTag?).foldl effect s = s.withTraffic tags [] := by
  induction tags generalizing s with
  | nil => rfl
  | cons t rest ih =>
      rw [List.filterMap_cons, withTraffic_cons]
      cases ofTag? t with
      | none => exact ih s
      | some statement => exact ih (statement.effect s)

theorem foldl_effect_ofTraffic (s : Store) (tags : List TagTraffic)
    (clients : List ClientTraffic) :
    (ofTraffic tags clients).foldl effect s = s.withTraffic tags clients := by
  rw [ofTraffic, List.foldl_append, foldl_effect_ofTag?, foldl_effect_clients,
    Store.withTraffic_append, List.append_nil, List.nil_append]

theorem countTag_eq (s : Store) (t : TagTraffic) :
    s.countTag t = ((ofTag? t).map (run s)).getD (.ok s) := by
  unfold Store.countTag ofTag?
  cases t.inbound with
  | true => rfl
  | false => cases t.outbound <;> rfl

theorem foldlM_countTag (s : Store) (tags : List TagTraffic) :
    tags.foldlM Store.countTag s = (tags.filterMap ofTag?).foldlM run s := by
  induction tags generalizing s with
  | nil => rfl
  | cons t rest ih =>
      rw [List.foldlM_cons, List.filterMap_cons, countTag_eq]
      cases ofTag? t with
      | none => exact ih s
      | some statement =>
          rw [List.foldlM_cons]
          exact bind_congr ih

end Statement

open Statement

namespace Store

theorem addTraffic_eq_foldlM (s : Store) (tags : List TagTraffic) (clients : List ClientTraffic) :
    s.addTraffic tags clients = (ofTraffic tags clients).foldlM run s := by
  rw [addTraffic, foldlM_countTag, ofTraffic, List.foldlM_append]
  apply bind_congr
  intro tagged
  rw [List.foldlM_map]
  rfl

def Reaches (s : Store) (tags : List TagTraffic) (clients : List ClientTraffic) : Prop :=
  ∀ statement ∈ ofTraffic tags clients, statement.table ∉ s.unavailable

instance (s : Store) (tags : List TagTraffic) (clients : List ClientTraffic) :
    Decidable (s.Reaches tags clients) :=
  inferInstanceAs (Decidable (∀ _ ∈ _, _))

theorem reaches_append {s : Store} {tags more : List TagTraffic}
    {clients others : List ClientTraffic} :
    s.Reaches (tags ++ more) (clients ++ others) ↔
      s.Reaches tags clients ∧ s.Reaches more others := by
  simp only [Reaches, ofTraffic, List.filterMap_append, List.map_append, List.forall_mem_append]
  tauto

theorem addTraffic_eq (s : Store) (tags : List TagTraffic) (clients : List ClientTraffic) :
    s.addTraffic tags clients =
      if s.Reaches tags clients then .ok (s.withTraffic tags clients)
      else .error { cause := .unavailable } := by
  rw [addTraffic_eq_foldlM, foldlM_run, foldl_effect_ofTraffic]
  rfl

/-- Two calls that follow each other count what one call with all their entries does. -/
theorem addTraffic_append (s : Store) (tags more : List TagTraffic)
    (clients others : List ClientTraffic) :
    (do
      let counted ← s.addTraffic tags clients
      counted.addTraffic more others) = s.addTraffic (tags ++ more) (clients ++ others) := by
  rw [addTraffic_eq, addTraffic_eq, ← withTraffic_append]
  by_cases first : s.Reaches tags clients
  · have both : s.Reaches (tags ++ more) (clients ++ others) ↔ s.Reaches more others := by
      rw [reaches_append]
      exact and_iff_right first
    rw [if_pos first]
    refine (addTraffic_eq _ more others).trans ?_
    exact if_congr both.symm rfl rfl
  · rw [if_neg first, if_neg fun both => first (reaches_append.mp both).1]
    rfl

/-! Growth. -/

def outbound (s : Store) (tag : String) : OutboundRow :=
  (rowOf? s.outbounds tag).getD (.blank tag)

/-- All sums that are formed on the way fit a counter. -/
structure Bears (s : Store) (tags : List TagTraffic) (clients : List ClientTraffic) : Prop where
  inbounds : ∀ r ∈ s.inbounds, r.Bears (TagTraffic.ofInbound r.tag tags)
  clients : ∀ c ∈ s.clients, c.Bears (ClientTraffic.ofEmail c.email clients)
  outbounds : ∀ tag, (s.outbound tag).Bears (TagTraffic.ofOutbound tag tags)

theorem bears_iff {s : Store} {tags : List TagTraffic} {clients : List ClientTraffic} :
    s.Bears tags clients ↔
      (∀ r ∈ s.inbounds, r.Bears (TagTraffic.ofInbound r.tag tags)) ∧
        (∀ c ∈ s.clients, c.Bears (ClientTraffic.ofEmail c.email clients)) ∧
        ∀ t ∈ tags, (s.outbound t.tag).Bears (TagTraffic.ofOutbound t.tag tags) := by
  constructor
  · exact fun bears => ⟨bears.inbounds, bears.clients, fun t _ => bears.outbounds t.tag⟩
  · rintro ⟨inbounds, clients, outbounds⟩
    refine ⟨inbounds, clients, ?_⟩
    intro tag
    cases own : TagTraffic.ofOutbound tag tags with
    | nil => exact OutboundRow.bears_nil _
    | cons t rest =>
        have member : t ∈ TagTraffic.ofOutbound tag tags := by
          rw [own]
          exact List.mem_cons_self
        obtain ⟨among, named⟩ := List.mem_filter.mp member
        obtain rfl : t.tag = tag := eq_of_beq (Bool.and_eq_true_iff.mp named).2
        rw [← own]
        exact outbounds t among

instance (s : Store) (tags : List TagTraffic) (clients : List ClientTraffic) :
    Decidable (s.Bears tags clients) :=
  decidable_of_iff _ bears_iff.symm

/--
Each row is raised by the sums of its own entries. A tag of an outbound that has none gets a row
with its first entry; no other row is made.
-/
structure Grown (s : Store) (tags : List TagTraffic) (clients : List ClientTraffic) (s' : Store) :
    Prop where
  inbounds : s'.inbounds = s.inbounds.map fun r => r.raised (TagTraffic.ofInbound r.tag tags)
  clients : s'.clients = s.clients.map fun c => c.raised (ClientTraffic.ofEmail c.email clients)
  outbounds : ∀ tag, rowOf? s'.outbounds tag =
    if TagTraffic.ofOutbound tag tags = [] then rowOf? s.outbounds tag
    else some ((s.outbound tag).raised (TagTraffic.ofOutbound tag tags))
  ordered : Ordered s'.outbounds
  rest : s' = { s with
    inbounds := s'.inbounds, clients := s'.clients, outbounds := s'.outbounds }

variable {s s' s'' : Store} {tags tags' : List TagTraffic} {clients clients' : List ClientTraffic}

theorem Bears.grown (ordered : Ordered s.outbounds) (bears : s.Bears tags clients) :
    s.Grown tags clients (s.withTraffic tags clients) where
  inbounds := by
    refine (foldl_countInbound tags s.inbounds).trans ?_
    apply List.map_congr_left
    intro r member
    exact (bears.inbounds r member).foldl_count
  clients := by
    refine (foldl_countClient clients s.clients).trans ?_
    apply List.map_congr_left
    intro c member
    exact (bears.clients c member).foldl_count
  outbounds tag := by
    have named : ∀ t ∈ TagTraffic.ofOutbound tag tags, t.tag = tag := by
      intro t member
      have own := (List.mem_filter.mp member).2
      exact eq_of_beq (Bool.and_eq_true_iff.mp own).2
    have entries : (tags.filter TagTraffic.isOutbounds).filter (·.tag == tag) =
        TagTraffic.ofOutbound tag tags := by
      simp only [List.filter_filter, Bool.and_comm, TagTraffic.ofOutbound]
    refine (rowOf?_foldl_countOutbound ordered _ tag).trans ?_
    rw [entries]
    exact (bears.outbounds tag).foldl_countInto named
  ordered := ordered.foldl_countOutbound _
  rest := rfl

theorem Grown.unique (grown : s.Grown tags clients s') (grown' : s.Grown tags clients s'') :
    s' = s'' := by
  have inbounds := grown.inbounds.trans grown'.inbounds.symm
  have clients := grown.clients.trans grown'.clients.symm
  have outbounds := grown.ordered.ext grown'.ordered fun tag =>
    (grown.outbounds tag).trans (grown'.outbounds tag).symm
  rw [grown.rest, grown'.rest, inbounds, clients, outbounds]

/-! The order of the entries. -/

theorem Grown.perm (grown : s.Grown tags clients s') (sameTags : tags.Perm tags')
    (sameClients : clients.Perm clients') : s.Grown tags' clients' s' where
  inbounds := by
    rw [grown.inbounds]
    apply List.map_congr_left
    intro r _
    exact r.raised_perm (sameTags.filter _)
  clients := by
    rw [grown.clients]
    apply List.map_congr_left
    intro c _
    exact c.raised_perm (sameClients.filter _)
  outbounds tag := by
    have own : (TagTraffic.ofOutbound tag tags).Perm (TagTraffic.ofOutbound tag tags') :=
      sameTags.filter _
    have none : TagTraffic.ofOutbound tag tags = [] ↔ TagTraffic.ofOutbound tag tags' = [] := by
      rw [← List.length_eq_zero_iff, ← List.length_eq_zero_iff, own.length_eq]
    rw [grown.outbounds, OutboundRow.raised_perm _ own]
    exact if_congr none rfl rfl
  ordered := grown.ordered
  rest := grown.rest

theorem Reaches.perm (reaches : s.Reaches tags clients) (sameTags : tags.Perm tags')
    (sameClients : clients.Perm clients') : s.Reaches tags' clients' := by
  have same : (ofTraffic tags clients).Perm (ofTraffic tags' clients') :=
    (sameTags.filterMap _).append (sameClients.map _)
  intro statement member
  exact reaches statement (same.mem_iff.mpr member)

theorem addTraffic_perm (ordered : Ordered s.outbounds) (bears : s.Bears tags clients)
    (bears' : s.Bears tags' clients') (sameTags : tags.Perm tags')
    (sameClients : clients.Perm clients') :
    s.addTraffic tags clients = s.addTraffic tags' clients' := by
  have same : s.withTraffic tags clients = s.withTraffic tags' clients' :=
    ((bears.grown ordered).perm sameTags sameClients).unique (bears'.grown ordered)
  have reached : s.Reaches tags clients ↔ s.Reaches tags' clients' :=
    ⟨fun reaches => reaches.perm sameTags sameClients,
      fun reaches => reaches.perm sameTags.symm sameClients.symm⟩
  rw [addTraffic_eq, addTraffic_eq, same]
  exact if_congr reached rfl rfl

structure Rising (tags : List TagTraffic) (clients : List ClientTraffic) : Prop where
  tags : ∀ t ∈ tags, 0 ≤ t.up ∧ 0 ≤ t.down
  clients : ∀ t ∈ clients, 0 ≤ t.up ∧ 0 ≤ t.down

theorem Bears.perm (bears : s.Bears tags clients) (rising : Rising tags clients)
    (sameTags : tags.Perm tags') (sameClients : clients.Perm clients') :
    s.Bears tags' clients' where
  inbounds r member := (bears.inbounds r member).perm (sameTags.filter _) fun t own =>
    rising.tags t (List.mem_filter.mp own).1
  clients c member := (bears.clients c member).perm (sameClients.filter _) fun t own =>
    rising.clients t (List.mem_filter.mp own).1
  outbounds tag := (bears.outbounds tag).perm (sameTags.filter _) fun t own =>
    rising.tags t (List.mem_filter.mp own).1

/-! Entries that no row is there for. -/

def concerns (s : Store) (t : TagTraffic) : Bool :=
  if t.inbound then s.inbounds.any (·.tag == t.tag) else t.outbound

def knows (s : Store) (t : ClientTraffic) : Bool := s.clients.any (·.email == t.email)

theorem ofInbound_filter_concerns {r : InboundRow} (member : r ∈ s.inbounds)
    (tags : List TagTraffic) :
    TagTraffic.ofInbound r.tag (tags.filter s.concerns) = TagTraffic.ofInbound r.tag tags := by
  apply filter_filter_of_imp
  intro t _ own
  obtain ⟨inbound, same⟩ := Bool.and_eq_true_iff.mp own
  rw [concerns, if_pos inbound, List.any_eq_true]
  exact ⟨r, member, beq_iff_eq.mpr (eq_of_beq same).symm⟩

theorem ofEmail_filter_knows {c : ClientRow} (member : c ∈ s.clients)
    (clients : List ClientTraffic) :
    ClientTraffic.ofEmail c.email (clients.filter s.knows) =
      ClientTraffic.ofEmail c.email clients := by
  apply filter_filter_of_imp
  intro t _ same
  rw [knows, List.any_eq_true]
  exact ⟨c, member, beq_iff_eq.mpr (eq_of_beq same).symm⟩

theorem filter_isOutbounds_filter_concerns (s : Store) (tags : List TagTraffic) :
    (tags.filter s.concerns).filter TagTraffic.isOutbounds =
      tags.filter TagTraffic.isOutbounds := by
  apply filter_filter_of_imp
  intro t _ own
  obtain ⟨notInbound, outbound⟩ := Bool.and_eq_true_iff.mp own
  have inbound : t.inbound = false := by simpa using notInbound
  rw [concerns, inbound]
  exact outbound

theorem withTraffic_known (s : Store) (tags : List TagTraffic) (clients : List ClientTraffic) :
    s.withTraffic (tags.filter s.concerns) (clients.filter s.knows) =
      s.withTraffic tags clients := by
  have inbounds : (s.withTraffic (tags.filter s.concerns) (clients.filter s.knows)).inbounds =
      (s.withTraffic tags clients).inbounds := by
    refine (foldl_countInbound _ _).trans (.trans ?_ (foldl_countInbound _ _).symm)
    apply List.map_congr_left
    intro r member
    rw [ofInbound_filter_concerns member]
  have rows : (s.withTraffic (tags.filter s.concerns) (clients.filter s.knows)).clients =
      (s.withTraffic tags clients).clients := by
    refine (foldl_countClient _ _).trans (.trans ?_ (foldl_countClient _ _).symm)
    apply List.map_congr_left
    intro c member
    rw [ofEmail_filter_knows member]
  have outbounds : (s.withTraffic (tags.filter s.concerns) (clients.filter s.knows)).outbounds =
      (s.withTraffic tags clients).outbounds := by
    simp only [withTraffic, filter_isOutbounds_filter_concerns]
  unfold withTraffic at inbounds rows outbounds ⊢
  dsimp only at inbounds rows outbounds
  rw [inbounds, rows, outbounds]

theorem Reaches.known (reaches : s.Reaches tags clients) :
    s.Reaches (tags.filter s.concerns) (clients.filter s.knows) := by
  intro statement member
  apply reaches statement
  rcases List.mem_append.mp member with tagged | named
  · exact List.mem_append_left _ ((List.filter_sublist.filterMap _).subset tagged)
  · exact List.mem_append_right _ ((List.filter_sublist.map _).subset named)

theorem addTraffic_known (counted : s.addTraffic tags clients = .ok s') :
    s.addTraffic (tags.filter s.concerns) (clients.filter s.knows) = .ok s' := by
  rw [addTraffic_eq] at counted ⊢
  split at counted
  · rename_i reaches
    rw [if_pos reaches.known, withTraffic_known]
    exact counted
  · cases counted

end Store

end RelayControl
