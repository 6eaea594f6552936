import Mathlib.Order.Defs.LinearOrder
import RelayControl.Proofs.Relay.Stages

/-!
What keeps a configuration from being synthesized: reads of the store that fail, and a template or a
credential that is no such thing. The first obstacle in the way decides the fault. Nothing else is an
obstacle, whatever stands in the rules and in the remote configuration.
-/

namespace RelayControl

/-- What may be in the way of a synthesis, in the order in which it is met. -/
inductive Obstacle where
  | unreadTemplate
  | brokenTemplate
  | unreadCredential
  | brokenCredential
  | unreadRemote
  | unreadRules

namespace Obstacle

def rank : Obstacle → Nat
  | .unreadTemplate => 0
  | .brokenTemplate => 1
  | .unreadCredential => 2
  | .brokenCredential => 3
  | .unreadRemote => 4
  | .unreadRules => 5

theorem rank_injective {o o' : Obstacle} (same : o.rank = o'.rank) : o = o' := by
  cases o <;> cases o' <;> simp_all [rank]

/--
An obstacle is in the way of a source, and the fault that reports it. A text is broken if it is not
blank and cannot be decoded; the remote configuration is read only for a credential of use.
-/
inductive Met (source : Source) : Obstacle → Fault → Prop
  | unreadTemplate {f : StoreFault} (unread : source.setting? StoreKey.template = .error f) :
      Met source .unreadTemplate (.store f)
  | brokenTemplate {text : String} {flaw : Json.Flaw}
      (stored : source.setting? StoreKey.template = .ok (some text))
      (solid : Text.allBlank text = false)
      (refused : Json.decode RelayConfig.decoder text = .error flaw) :
      Met source .brokenTemplate (.template flaw)
  | unreadCredential {f : StoreFault} (unread : source.setting? StoreKey.credential = .error f) :
      Met source .unreadCredential (.store f)
  | brokenCredential {text : String} {flaw : Json.Flaw}
      (stored : source.setting? StoreKey.credential = .ok (some text))
      (solid : Text.allBlank text = false)
      (refused : Json.decode Credential.decoder text = .error flaw) :
      Met source .brokenCredential
        (.store ⟨["Stored registration credential is not valid JSON"], .flawed flaw⟩)
  | unreadRemote {text : String} {c : Credential} {f : StoreFault}
      (stored : source.setting? StoreKey.credential = .ok (some text))
      (solid : Text.allBlank text = false)
      (decoded : Json.decode Credential.decoder text = .ok c)
      (ofUse : c.deviceId ≠ "" ∧ c.privateKey ≠ "")
      (unread : source.setting? StoreKey.remoteConfig = .error f) :
      Met source .unreadRemote (.store f)
  | unreadRules {f : StoreFault} (unread : source.rules = .error f) :
      Met source .unreadRules (.store f)

def Clear (source : Source) (rank : Nat) : Prop :=
  ∀ o : Obstacle, o.rank < rank → ∀ f, ¬o.Met source f

structure First (source : Source) (o : Obstacle) (f : Fault) : Prop where
  met : o.Met source f
  clear : Clear source o.rank

variable {source : Source} {o o' : Obstacle} {f g : Fault}

theorem Met.unique (met : o.Met source f) (met' : o.Met source g) : f = g := by
  cases met <;> cases met' <;> simp_all

theorem First.unique (first : First source o f) (first' : First source o' g) : f = g := by
  rcases lt_trichotomy o.rank o'.rank with before | same | behind
  · exact absurd first.met (first'.clear o before f)
  · obtain rfl := rank_injective same
    exact first.met.unique first'.met
  · exact absurd first'.met (first.clear o' behind g)

theorem clear_zero (source : Source) : Clear source 0 :=
  fun _ below => absurd below (Nat.not_lt_zero _)

theorem Clear.next (clear : Clear source o.rank) (unmet : ∀ f, ¬o.Met source f) :
    Clear source (o.rank + 1) := by
  intro o' below
  rcases Nat.lt_succ_iff_lt_or_eq.mp below with before | same
  · exact clear o' before
  · obtain rfl := rank_injective same
    exact unmet

/-! What is out of the way once a stage has passed. -/

theorem unmet_unreadTemplate {text? : Option String}
    (stored : source.setting? StoreKey.template = .ok text?) (f : Fault) :
    ¬Met source .unreadTemplate f := by
  intro met
  cases met with
  | unreadTemplate unread => cases stored.symm.trans unread

theorem unmet_brokenTemplate {text? : Option String} {t : Tuning} {base : RelayConfig}
    (stored : source.setting? StoreKey.template = .ok text?)
    (read : RelayConfig.ofTemplate (text?.filter (!Text.allBlank ·)) t = .ok base) (f : Fault) :
    ¬Met source .brokenTemplate f := by
  intro met
  cases met with
  | @brokenTemplate text flaw stored' solid refused =>
      obtain rfl : text? = some text := Except.ok.inj (stored.symm.trans stored')
      cases read.symm.trans (RelayConfig.ofTemplate_eq_error_iff.mpr
        ⟨text, flaw, rfl, solid, refused, rfl⟩)

theorem unmet_unreadCredential {text? : Option String}
    (stored : source.setting? StoreKey.credential = .ok text?) (f : Fault) :
    ¬Met source .unreadCredential f := by
  intro met
  cases met with
  | unreadCredential unread => cases stored.symm.trans unread

theorem unmet_brokenCredential {text? : Option String} {held : Option Credential}
    (stored : source.setting? StoreKey.credential = .ok text?)
    (known : Credential.ofStored? text? = .ok held) (f : Fault) :
    ¬Met source .brokenCredential f := by
  intro met
  cases met with
  | @brokenCredential text flaw stored' solid refused =>
      obtain rfl : text? = some text := Except.ok.inj (stored.symm.trans stored')
      cases known.symm.trans (Credential.ofStored?_eq_error_iff.mpr
        ⟨text, flaw, rfl, solid, refused, rfl⟩)

theorem unmet_unreadRemote {text? : Option String} {held : Option Credential} {s : Settings}
    {base based : RelayConfig} (stored : source.setting? StoreKey.credential = .ok text?)
    (known : Credential.ofStored? text? = .ok held)
    (placed : withTunnel s source base held = .ok based) (f : Fault) :
    ¬Met source .unreadRemote f := by
  intro met
  cases met with
  | @unreadRemote text c g stored' solid decoded ofUse unread =>
      obtain rfl : text? = some text := Except.ok.inj (stored.symm.trans stored')
      have decoded' := Credential.ofStored?_eq_some_iff.mpr ⟨text, rfl, solid, decoded⟩
      obtain rfl : held = some c := Except.ok.inj (known.symm.trans decoded')
      cases placed.symm.trans (withTunnel_eq_error_iff.mpr
        ⟨c, g, rfl, Credential.isEmpty_eq_false_iff.mpr ofUse, unread, rfl⟩)

theorem unmet_unreadRules {rules : List RoutingRule} (listed : source.rules = .ok rules)
    (f : Fault) : ¬Met source .unreadRules f := by
  intro met
  cases met with
  | unreadRules unread => cases listed.symm.trans unread

/-! Either some obstacle is the first and decides the fault, or none is met and all goes well. -/

theorem first_of_synthesize_eq_error {s : Settings} (failed : synthesize s source = .error f) :
    ∃ o, First source o f := by
  rw [synthesize_eq] at failed
  have clear := clear_zero source
  rcases bind_eq_error_iff.mp failed with missed | ⟨text?, stored, failed⟩
  · obtain ⟨g, unread, rfl⟩ := ofStore_eq_error_iff.mp missed
    exact ⟨_, .unreadTemplate unread, clear⟩
  rw [ofStore_eq_ok_iff] at stored
  replace clear := clear.next (o := .unreadTemplate) (unmet_unreadTemplate stored)
  rcases bind_eq_error_iff.mp failed with broken | ⟨base, read, failed⟩
  · obtain ⟨text, flaw, rfl, solid, refused, rfl⟩ := RelayConfig.ofTemplate_eq_error_iff.mp broken
    exact ⟨_, .brokenTemplate stored solid refused, clear⟩
  replace clear := clear.next (o := .brokenTemplate) (unmet_brokenTemplate stored read)
  rcases bind_eq_error_iff.mp failed with missed | ⟨held, known, failed⟩
  · obtain ⟨g, unknown, rfl⟩ := ofStore_eq_error_iff.mp missed
    rcases bind_eq_error_iff.mp unknown with unread | ⟨credential?, stored, broken⟩
    · exact ⟨_, .unreadCredential unread, clear⟩
    · obtain ⟨text, flaw, rfl, solid, refused, rfl⟩ := Credential.ofStored?_eq_error_iff.mp broken
      exact ⟨_, .brokenCredential stored solid refused,
        clear.next (o := .unreadCredential) (unmet_unreadCredential stored)⟩
  obtain ⟨credential?, stored, known⟩ := bind_eq_ok_iff.mp (ofStore_eq_ok_iff.mp known)
  replace clear := (clear.next (o := .unreadCredential) (unmet_unreadCredential stored)).next
    (o := .brokenCredential) (unmet_brokenCredential stored known)
  rcases bind_eq_error_iff.mp failed with unplaced | ⟨based, placed, failed⟩
  · obtain ⟨c, g, rfl, ofUse, unread, rfl⟩ := withTunnel_eq_error_iff.mp unplaced
    obtain ⟨text, rfl, solid, decoded⟩ := Credential.ofStored?_eq_some_iff.mp known
    exact ⟨_, .unreadRemote stored solid decoded (Credential.isEmpty_eq_false_iff.mp ofUse) unread,
      clear⟩
  replace clear := clear.next (o := .unreadRemote) (unmet_unreadRemote stored known placed)
  rcases bind_eq_error_iff.mp failed with missed | ⟨rules, listed, failed⟩
  · obtain ⟨g, unlisted, rfl⟩ := ofStore_eq_error_iff.mp missed
    exact ⟨_, .unreadRules unlisted, clear⟩
  · cases failed

theorem unmet_of_synthesize_eq_ok {s : Settings} {config : RelayConfig}
    (synthesized : synthesize s source = .ok config) (o : Obstacle) (f : Fault) :
    ¬o.Met source f := by
  rw [synthesize_eq] at synthesized
  obtain ⟨text?, stored, synthesized⟩ := bind_eq_ok_iff.mp synthesized
  obtain ⟨base, read, synthesized⟩ := bind_eq_ok_iff.mp synthesized
  obtain ⟨held, known, synthesized⟩ := bind_eq_ok_iff.mp synthesized
  obtain ⟨based, placed, synthesized⟩ := bind_eq_ok_iff.mp synthesized
  obtain ⟨rules, listed, -⟩ := bind_eq_ok_iff.mp synthesized
  rw [ofStore_eq_ok_iff] at stored listed
  obtain ⟨credential?, stored', known⟩ := bind_eq_ok_iff.mp (ofStore_eq_ok_iff.mp known)
  cases o with
  | unreadTemplate => exact unmet_unreadTemplate stored f
  | brokenTemplate => exact unmet_brokenTemplate stored read f
  | unreadCredential => exact unmet_unreadCredential stored' f
  | brokenCredential => exact unmet_brokenCredential stored' known f
  | unreadRemote => exact unmet_unreadRemote stored' known placed f
  | unreadRules => exact unmet_unreadRules listed f

theorem exists_fault_of_met (s : Settings) (met : o.Met source f) :
    ∃ f, synthesize s source = .error f := by
  cases synthesized : synthesize s source with
  | error f => exact ⟨f, rfl⟩
  | ok config => exact absurd met (unmet_of_synthesize_eq_ok synthesized o f)

theorem synthesize_eq_error_iff {s : Settings} :
    synthesize s source = .error f ↔ ∃ o, First source o f := by
  refine ⟨first_of_synthesize_eq_error, ?_⟩
  rintro ⟨o, first⟩
  obtain ⟨g, failed⟩ := exists_fault_of_met s first.met
  obtain ⟨o', first'⟩ := first_of_synthesize_eq_error failed
  rw [failed, first.unique first']

end Obstacle

namespace Source

def withContents (source : Source) (remote : Option String) (rules : List RoutingRule) :
    Source where
  setting? key := if key = StoreKey.remoteConfig then .ok remote else source.setting? key
  rules := .ok rules

end Source

namespace Obstacle

theorem Met.withContents {source : Source} {o : Obstacle} {f : Fault}
    {remote : Option String} {rules : List RoutingRule}
    (met : o.Met (source.withContents remote rules) f) (remote' : Option String)
    (rules' : List RoutingRule) : o.Met (source.withContents remote' rules') f := by
  cases met with
  | unreadTemplate unread => exact .unreadTemplate unread
  | brokenTemplate stored solid refused => exact .brokenTemplate stored solid refused
  | unreadCredential unread => exact .unreadCredential unread
  | brokenCredential stored solid refused => exact .brokenCredential stored solid refused
  | unreadRemote _ _ _ _ unread => cases unread
  | unreadRules unread => cases unread

theorem First.withContents {source : Source} {o : Obstacle} {f : Fault}
    {remote : Option String} {rules : List RoutingRule}
    (first : First (source.withContents remote rules) o f) (remote' : Option String)
    (rules' : List RoutingRule) : First (source.withContents remote' rules') o f where
  met := first.met.withContents remote' rules'
  clear o' before g met := first.clear o' before g (met.withContents remote rules)

end Obstacle

/--
A synthesis fails if and only if an obstacle is met, and the fault is that of the first one. Among
rules and remote configurations that can be read, and among settings, it makes no difference which
they are.
-/
theorem synthesize_fails_at_first_obstacle :
    (∀ (s : Settings) (source : Source),
      ((∃ f, synthesize s source = .error f) ↔ ∃ (o : Obstacle) (f : Fault), o.Met source f) ∧
      ∀ f, synthesize s source = .error f ↔ ∃ o, Obstacle.First source o f) ∧
    ∀ (s s' : Settings) (source : Source) (remote remote' : Option String)
      (rules rules' : List RoutingRule) (f : Fault),
      synthesize s (source.withContents remote rules) = .error f ↔
        synthesize s' (source.withContents remote' rules') = .error f := by
  refine ⟨fun s source => ⟨⟨?_, ?_⟩, fun f => Obstacle.synthesize_eq_error_iff⟩, ?_⟩
  · rintro ⟨f, failed⟩
    obtain ⟨o, first⟩ := Obstacle.synthesize_eq_error_iff.mp failed
    exact ⟨o, f, first.met⟩
  · rintro ⟨o, f, met⟩
    exact Obstacle.exists_fault_of_met s met
  · intro s s' source remote remote' rules rules' f
    rw [Obstacle.synthesize_eq_error_iff, Obstacle.synthesize_eq_error_iff]
    constructor
    · rintro ⟨o, first⟩
      exact ⟨o, first.withContents remote' rules'⟩
    · rintro ⟨o, first⟩
      exact ⟨o, first.withContents remote rules⟩

end RelayControl
