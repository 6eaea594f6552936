import RelayControl.Proofs.Json.Places
import RelayControl.Proofs.Relay.Config.Layouts
import RelayControl.Proofs.Relay.Isolation
import RelayControl.Proofs.Relay.Obstacles

/-!
What the tuning decides. It fills the knobs that the template leaves open in the default level, and
the socket options that a rule leaves open; under two tunings a synthesis comes out the same but for
these, and fails the same.
-/

namespace RelayControl

open Json

structure Filled {α : Type} (opens : Prop) (own fill value : Option α) : Prop where
  filled : opens → value = fill
  kept : ¬opens → value = own ∧ own ≠ none

theorem filled_orElse {α : Type} {opens : Prop} {own : Option α} (fill : Option α)
    (absent : own = none ↔ opens) : Filled opens own fill (own <|> fill) where
  filled unset := by
    rw [absent.mpr unset]
    rfl
  kept set := by
    have present : own ≠ none := mt absent.mp set
    cases own with
    | none => exact absurd rfl present
    | some x => exact ⟨rfl, present⟩

/-- A level policy with the knobs that a tree leaves open at a place taken from a tuning. -/
structure LevelPolicy.TunedAt (tree : Doc) (path : List String) (t : Tuning)
    (own level : LevelPolicy) : Prop where
  handshake : Filled (tree.LeavesOpen (path ++ ["handshake"])) own.handshake
    (some t.handshakeSecs) level.handshake
  connIdle : Filled (tree.LeavesOpen (path ++ ["connIdle"])) own.connIdle
    (some t.connIdleSecs) level.connIdle
  uplinkOnly : Filled (tree.LeavesOpen (path ++ ["uplinkOnly"])) own.uplinkOnly
    (some t.uplinkOnlySecs) level.uplinkOnly
  downlinkOnly : Filled (tree.LeavesOpen (path ++ ["downlinkOnly"])) own.downlinkOnly
    (some t.downlinkOnlySecs) level.downlinkOnly
  bufferSize : Filled (tree.LeavesOpen (path ++ ["bufferSize"])) own.bufferSize
    (some t.bufferSizeKb) level.bufferSize
  statsUserUplink : level.statsUserUplink = own.statsUserUplink
  statsUserDownlink : level.statsUserDownlink = own.statsUserDownlink
  rest : level.rest = own.rest

theorem LevelPolicy.tunedAt_tuned {tree : Doc} {path : List String} {own : LevelPolicy}
    (yields : tree.Yields decoder {} path own) (t : Tuning) :
    TunedAt tree path t own (own.tuned t) := by
  have slots : ∀ s ∈ layout.slots, tree.Yields s.item (s.get {}) (path ++ [s.name]) (s.get own) :=
    fun s member => yields.slot keeps member
  simp only [layout, List.forall_mem_cons] at slots
  obtain ⟨handshake, connIdle, uplinkOnly, downlinkOnly, bufferSize, -⟩ := slots
  exact
    { handshake := filled_orElse _ handshake.eq_none_iff
      connIdle := filled_orElse _ connIdle.eq_none_iff
      uplinkOnly := filled_orElse _ uplinkOnly.eq_none_iff
      downlinkOnly := filled_orElse _ downlinkOnly.eq_none_iff
      bufferSize := filled_orElse _ bufferSize.eq_none_iff
      statsUserUplink := rfl, statsUserDownlink := rfl, rest := rfl }

structure SocketOptions.TunedAt (tree : Doc) (path : List String) (t : Tuning)
    (own options : SocketOptions) : Prop where
  tcpFastOpen : Filled (tree.LeavesOpen (path ++ ["tcpFastOpen"])) own.tcpFastOpen
    (some t.tcpFastOpen) options.tcpFastOpen
  tcpKeepAliveInterval : Filled (tree.LeavesOpen (path ++ ["tcpKeepAliveInterval"]))
    own.tcpKeepAliveInterval
    (if t.tcpKeepAliveIntervalSecs = 0 then none else some t.tcpKeepAliveIntervalSecs)
    options.tcpKeepAliveInterval
  tcpNoDelay : Filled (tree.LeavesOpen (path ++ ["tcpNoDelay"])) own.tcpNoDelay
    (some t.tcpNoDelay) options.tcpNoDelay
  rest : options.rest = own.rest

theorem SocketOptions.tunedAt_filledFrom {tree : Doc} {path : List String} {own : SocketOptions}
    (yields : tree.Yields decoder {} path own) (t : Tuning) :
    TunedAt tree path t own (own.filledFrom (.ofTuning t)) := by
  have slots : ∀ s ∈ layout.slots, tree.Yields s.item (s.get {}) (path ++ [s.name]) (s.get own) :=
    fun s member => yields.slot keeps member
  simp only [layout, List.forall_mem_cons] at slots
  obtain ⟨tcpFastOpen, tcpKeepAliveInterval, tcpNoDelay, -⟩ := slots
  exact
    { tcpFastOpen := filled_orElse _ tcpFastOpen.eq_none_iff
      tcpKeepAliveInterval := filled_orElse _ tcpKeepAliveInterval.eq_none_iff
      tcpNoDelay := filled_orElse _ tcpNoDelay.eq_none_iff
      rest := rfl }

def treeOr (blank : Doc) (text : String) : Doc :=
  if Text.allBlank text then blank else (Doc.read text).1

theorem yields_treeOr {item : Decoder α} {default : α} {blank : Doc}
    (start : item 0 blank = .ok default) {text : String} {x? : Option α}
    (read : unlessBlank? item text = .ok x?) :
    (treeOr blank text).Yields item default [] (x?.getD default) := by
  unfold unlessBlank? at read
  unfold treeOr
  split at read
  · rename_i empty
    cases read
    rw [if_pos empty]
    exact .read rfl start
  · rename_i solid
    obtain ⟨x, decoded, rfl⟩ := map_eq_ok_iff.mp read
    rw [if_neg solid]
    exact .read rfl (tree_of_decode decoded)

namespace Policy

abbrev defaultPath : List String := ["policy", "levels", "0"]

/-- Policies that are one but for the default level, which each has from a tuning of its own. -/
structure TunedApart (tree : Doc) (t t' : Tuning) (p p' : Policy) : Prop where
  levels : ∃ before after own level level',
    p.levels = before ++ ("0", level) :: after ∧ p'.levels = before ++ ("0", level') :: after ∧
    (∀ l ∈ before ++ after, l.1 ≠ "0") ∧ tree.Yields LevelPolicy.decoder {} defaultPath own ∧
    own.TunedAt tree defaultPath t level ∧ own.TunedAt tree defaultPath t' level'
  system : p.system = p'.system
  rest : p.rest = p'.rest

theorem tunedApart {tree : Doc} {template : RelayConfig}
    (yields : tree.Yields RelayConfig.decoder {} [] template) (t t' : Tuning) :
    TunedApart tree t t' ((template.policy.getD {}).tuned t)
      ((template.policy.getD {}).tuned t') := by
  have sections := fun s member => yields.slot RelayConfig.keeps (s := s) member
  simp only [RelayConfig.layout, List.forall_mem_cons] at sections
  obtain ⟨-, -, -, -, policy, -⟩ := sections
  have slots := fun s member => (policy.present {}).slot keeps (s := s) member
  simp only [layout, List.forall_mem_cons] at slots
  obtain ⟨levels, -⟩ := slots
  have own := levels.entry "0" {}
  obtain ⟨before, after, others, inserted⟩ := Members.exists_insert_eq "0" levels.sorted
  exact
    { levels := ⟨before, after, _, _, _, inserted _, inserted _, others, own,
        LevelPolicy.tunedAt_tuned own t, LevelPolicy.tunedAt_tuned own t'⟩
      system := rfl, rest := rfl }

end Policy

def RoutingRule.streamTree (rule : RoutingRule) : Doc :=
  treeOr (.members [] none) rule.streamSettings

namespace Inbound

/-- Inbounds of a rule that are one but for the socket options left open. -/
structure TunedApart (rule : RoutingRule) (t t' : Tuning) (i i' : Inbound) : Prop where
  stream : ∃ stream stream' own options options',
    i.streamSettings = some stream ∧ i'.streamSettings = some stream' ∧
    { stream with sockopt := none } = { stream' with sockopt := none } ∧
    stream.sockopt = some options ∧ stream'.sockopt = some options' ∧
    rule.streamTree.Yields SocketOptions.decoder {} ["sockopt"] own ∧
    own.TunedAt rule.streamTree ["sockopt"] t options ∧
    own.TunedAt rule.streamTree ["sockopt"] t' options'
  others : { i with streamSettings := none } = { i' with streamSettings := none }

theorem tunedApart {s : Settings} {t t' : Tuning} {rule : RoutingRule} {i i' : Inbound}
    (built : ofRule { s with tuning := t } rule = .ok i)
    (built' : ofRule { s with tuning := t' } rule = .ok i') : TunedApart rule t t' i i' := by
  obtain ⟨settings?, settings, built⟩ := bind_eq_ok_iff.mp built
  obtain ⟨stream?, stream, built⟩ := bind_eq_ok_iff.mp built
  obtain ⟨sniffing?, sniffing, built⟩ := bind_eq_ok_iff.mp built
  unfold ofRule at built'
  rw [settings, stream, sniffing] at built'
  cases built
  cases built'
  have yields : rule.streamTree.Yields StreamSettings.decoder {} [] (stream?.getD {}) :=
    yields_treeOr rfl stream
  have slots := fun s member => yields.slot StreamSettings.keeps (s := s) member
  simp only [StreamSettings.layout, List.forall_mem_cons] at slots
  obtain ⟨-, -, -, sockopt, -⟩ := slots
  have own := sockopt.present {}
  exact
    { stream := ⟨_, _, _, _, _, rfl, rfl, rfl, rfl, rfl, own,
        SocketOptions.tunedAt_filledFrom own t, SocketOptions.tunedAt_filledFrom own t'⟩
      others := rfl }

theorem filterMap_ofRule?_tunedApart (s : Settings) (t t' : Tuning) (rules : List RoutingRule) :
    ∃ built : List (Inbound × Inbound),
      rules.filterMap (ofRule? { s with tuning := t }) = built.map Prod.fst ∧
      rules.filterMap (ofRule? { s with tuning := t' }) = built.map Prod.snd ∧
      List.Forall₂ (fun rule i => TunedApart rule t t' i.1 i.2)
        (rules.filter RoutingRule.sound) built := by
  induction rules with
  | nil => exact ⟨[], rfl, rfl, .nil⟩
  | cons rule rest ih =>
      obtain ⟨built, first, second, apart⟩ := ih
      by_cases sound : rule.sound = true
      · obtain ⟨i, added, made⟩ := ofRule?_of_sound (s := { s with tuning := t }) sound
        obtain ⟨i', added', made'⟩ := ofRule?_of_sound (s := { s with tuning := t' }) sound
        refine ⟨(i, i') :: built, ?_, ?_, ?_⟩
        · rw [List.filterMap_cons_some added, first, List.map_cons]
        · rw [List.filterMap_cons_some added', second, List.map_cons]
        · rw [List.filter_cons_of_pos sound]
          exact .cons (tunedApart made made') apart
      · refine ⟨built, ?_, ?_, ?_⟩
        · rw [List.filterMap_cons_none (ofRule?_of_not_sound sound), first]
        · rw [List.filterMap_cons_none (ofRule?_of_not_sound sound), second]
        · rwa [List.filter_cons_of_neg sound]

end Inbound

namespace Source

def templateTree? (source : Source) : Option Doc :=
  match source.setting? StoreKey.template with
  | .error _ => none
  | .ok none => some (.ofJson RelayConfig.builtin.toJson)
  | .ok (some stored) => some (treeOr (.ofJson RelayConfig.builtin.toJson) stored)

theorem exists_templateTree? {source : Source} {template : RelayConfig}
    (stands : source.template? = some template) :
    ∃ tree, source.templateTree? = some tree ∧
      tree.Yields RelayConfig.decoder {} [] template := by
  have start : RelayConfig.decoder 0 (.ofJson RelayConfig.builtin.toJson) =
      .ok RelayConfig.builtin := rfl
  unfold template? at stands
  unfold templateTree? treeOr
  cases stored : source.setting? StoreKey.template with
  | error f =>
      rw [stored] at stands
      cases stands
  | ok text? =>
      rw [stored] at stands
      cases text? with
      | none =>
          cases stands
          exact ⟨_, rfl, .read rfl start⟩
      | some stored =>
          refine ⟨_, rfl, ?_⟩
          dsimp only at stands
          split at stands
          · rename_i empty
            cases stands
            rw [if_pos empty]
            exact .read rfl start
          · rename_i solid
            rw [if_neg solid]
            exact .read rfl (tree_of_decode (toOption_eq_some_iff.mp stands))

end Source

/-- Configurations of a source that are one but for what two tunings have filled in. -/
structure RelayConfig.TunedApart (source : Source) (t t' : Tuning) (c c' : RelayConfig) : Prop where
  policy : ∃ tree p p', source.templateTree? = some tree ∧ c.policy = some p ∧
    c'.policy = some p' ∧ Policy.TunedApart tree t t' p p'
  inbounds : ∃ template rules built, source.template? = some template ∧
    source.rules = .ok rules ∧ c.inbounds = template.inbounds ++ built.map Prod.fst ∧
    c'.inbounds = template.inbounds ++ built.map Prod.snd ∧
    List.Forall₂ (fun rule i => Inbound.TunedApart rule t t' i.1 i.2)
      (rules.filter RoutingRule.sound) built
  others : { c with policy := none, inbounds := [] } = { c' with policy := none, inbounds := [] }

/--
Under two tunings a synthesis fails alike, or gives configurations that are one but for the knobs
that the template leaves open in the default level, and the socket options that a rule leaves open
in its inbound; these are as each of the tunings has them.
-/
theorem synthesize_tunedApart (s : Settings) (source : Source) (t t' : Tuning) :
    SameUpTo (RelayConfig.TunedApart source t t') (synthesize { s with tuning := t } source)
      (synthesize { s with tuning := t' } source) := by
  cases synthesized : synthesize { s with tuning := t } source with
  | error f =>
      rw [Obstacle.synthesize_eq_error_iff] at synthesized
      rw [Obstacle.synthesize_eq_error_iff.mpr synthesized]
      exact .fault f
  | ok c =>
      obtain ⟨template, held, based, rules, stands, known, placed, listed, rfl⟩ :=
        stages_of_synthesize synthesized
      rw [withTunnel_tuned s t source template held] at placed
      obtain ⟨untuned, put, rfl⟩ := map_eq_ok_iff.mp placed
      have placed' : withTunnel { s with tuning := t' } source (template.tuned t') held =
          .ok (untuned.tuned t') := by
        rw [withTunnel_tuned, put]
        rfl
      rw [synthesize_of_stages stands known placed' listed]
      obtain ⟨tree, grown, yields⟩ := Source.exists_templateTree? stands
      obtain ⟨built, first, second, apart⟩ :=
        Inbound.filterMap_ofRule?_tunedApart s t t' rules
      obtain ⟨outbounds, rfl⟩ := withTunnel_frame put
      exact .value
        { policy := ⟨tree, _, _, grown, rfl, rfl, Policy.tunedApart yields t t'⟩
          inbounds := ⟨template, rules, built, stands, listed, by rw [first]; rfl,
            by rw [second]; rfl, apart⟩
          others := rfl }

end RelayControl
