import RelayControl.Fault
import RelayControl.Relay.Rule
import RelayControl.Relay.Source
import RelayControl.Store.Tally

/-!
The store: settings, routing rules with the records of their clients, and the traffic counted for
rules, clients and outbounds. An operation that fails leaves everything as it was.
-/

namespace RelayControl

structure InboundRow extends RuleBody where
  id : Int
  up : Tally := .zero
  down : Tally := .zero
  deriving DecidableEq, Inhabited

/-- The record of a client; an email has one record. -/
structure ClientRow where
  inbound : Int
  email : String
  enabled : Bool
  up : Tally := .zero
  down : Tally := .zero
  deriving DecidableEq, Inhabited

structure OutboundRow where
  tag : String
  up : Tally
  down : Tally
  total : Tally
  deriving DecidableEq, Inhabited

/-- Traffic of an inbound or an outbound since it was last counted. -/
structure TagTraffic where
  inbound : Bool
  outbound : Bool
  tag : String
  up : Int
  down : Int
  deriving DecidableEq, Repr, Inhabited

structure ClientTraffic where
  email : String
  up : Int
  down : Int
  deriving DecidableEq, Repr, Inhabited

inductive Table where
  | settings
  | inbounds
  | clients
  | outbounds
  deriving DecidableEq, Repr

structure Store where
  texts : List (String × String) := []
  /-- In the order of their numbers. -/
  inbounds : List InboundRow := []
  /-- In the order in which their emails were first recorded. -/
  clients : List ClientRow := []
  /-- In the order of their tags. -/
  outbounds : List OutboundRow := []
  /-- Tables on which every statement fails. -/
  unavailable : List Table := []
  deriving DecidableEq, Inhabited

namespace Store

def reach (s : Store) (t : Table) : Except StoreFault Unit :=
  if s.unavailable.contains t then .error { cause := .unavailable } else .ok ()

theorem reach_eq_ok_iff {s : Store} {t : Table} : s.reach t = .ok () ↔ t ∉ s.unavailable := by
  by_cases away : t ∈ s.unavailable <;> simp [reach, away]

def during (activity : String) : Except StoreFault α → Except StoreFault α
  | .ok x => .ok x
  | .error f => .error (f.during activity)

@[simp] theorem during_ok (activity : String) (x : α) : during activity (.ok x) = .ok x := rfl

/-! Settings. -/

def text? (s : Store) (key : String) : Except StoreFault (Option String) :=
  during ("Failed to read setting '" ++ key ++ "'") do
    s.reach .settings
    pure (s.texts.lookup key)

def putText (key value : String) : List (String × String) → List (String × String)
  | [] => [(key, value)]
  | (k, v) :: rest => if k = key then (key, value) :: rest else (k, v) :: putText key value rest

@[simp] theorem lookup_putText_self (key value : String) (texts : List (String × String)) :
    (putText key value texts).lookup key = some value := by
  induction texts with
  | nil => simp [putText]
  | cons t rest ih =>
      obtain ⟨k, v⟩ := t
      rw [putText]
      split
      · simp
      · rename_i h
        have : (key == k) = false := by simpa using fun e => h e.symm
        simp [List.lookup_cons, this, ih]

theorem lookup_putText_of_ne {key other : String} (differs : other ≠ key) (value : String)
    (texts : List (String × String)) :
    (putText key value texts).lookup other = texts.lookup other := by
  have absent : (other == key) = false := by simpa using differs
  induction texts with
  | nil => simp [putText, absent]
  | cons t rest ih =>
      obtain ⟨k, v⟩ := t
      rw [putText]
      split
      · rename_i same
        subst k
        simp [List.lookup_cons, absent]
      · simp [List.lookup_cons, ih]

def setText (s : Store) (key value : String) : Except StoreFault Store :=
  during ("Failed to write setting '" ++ key ++ "'") do
    s.reach .settings
    pure { s with texts := putText key value s.texts }

/-! Rules and records. -/

def nextId (s : Store) : Int := s.inbounds.length + 1

def addInbound (s : Store) (rule : RuleBody) : Except StoreFault (Int × Store) :=
  during ("Failed to add inbound '" ++ rule.tag ++ "'") do
    s.reach .inbounds
    if s.inbounds.any (·.tag == rule.tag) then .error { cause := .takenTag }
    else
      let id := s.nextId
      pure (id, { s with inbounds := s.inbounds ++ [{ rule with id }] })

def setEnabled (s : Store) (id : Int) (enabled : Bool) : Except StoreFault (Bool × Store) := do
  s.reach .inbounds
  pure (s.inbounds.any (·.id == id),
    { s with inbounds := s.inbounds.map fun r => if r.id == id then { r with enabled } else r })

/-- The records with that of an email set; its counters stay. -/
def putClient (inbound : Int) (email : String) (enabled : Bool) :
    List ClientRow → List ClientRow
  | [] => [{ inbound, email, enabled }]
  | c :: rest =>
      if c.email = email then { c with inbound, enabled } :: rest
      else c :: putClient inbound email enabled rest

def addClient (s : Store) (inbound : Int) (email : String) (enabled : Bool) :
    Except StoreFault Store := do
  s.reach .clients
  if s.inbounds.any (·.id == inbound) then
    pure { s with clients := putClient inbound email enabled s.clients }
  else .error { cause := .unknownInbound }

def recordsOf (s : Store) (inbound : Int) : List ClientRecord :=
  (s.clients.filter (·.inbound == inbound)).map fun c => ⟨c.email, c.enabled⟩

def enabledRules (s : Store) : Except StoreFault (List RoutingRule) := do
  s.reach .inbounds
  s.reach .clients
  pure ((s.inbounds.filter (·.enabled)).map fun r =>
    { r.toRuleBody with id := r.id, records := s.recordsOf r.id })

def source (s : Store) : Source where
  setting? := s.text?
  rules := s.enabledRules

/-! Traffic. -/

def counted (t : Tally) : Except StoreFault Int :=
  match t.bytes? with
  | some n => .ok n
  | none => .error { cause := .overflown }

structure ClientUsage where
  inbound : Int
  email : String
  enabled : Bool
  up : Int
  down : Int
  deriving DecidableEq, Repr

def clientUsage? (s : Store) (email : String) : Except StoreFault (Option ClientUsage) :=
  during "Failed to get client traffic" do
    s.reach .clients
    match s.clients.find? (·.email == email) with
    | none => pure none
    | some c => do
        let up ← counted c.up
        let down ← counted c.down
        pure (some ⟨c.inbound, c.email, c.enabled, up, down⟩)

def countInbound (t : TagTraffic) (rows : List InboundRow) : List InboundRow :=
  rows.map fun r =>
    if r.tag == t.tag then
      { r with up := r.up.plus (.whole t.up), down := r.down.plus (.whole t.down) }
    else r

def countOutbound (t : TagTraffic) : List OutboundRow → List OutboundRow
  | [] => [⟨t.tag, .whole t.up, .whole t.down, (Tally.whole t.up).plus (.whole t.down)⟩]
  | r :: rest =>
      let sum := (Tally.whole t.up).plus (.whole t.down)
      if t.tag < r.tag then ⟨t.tag, .whole t.up, .whole t.down, sum⟩ :: r :: rest
      else if t.tag = r.tag then
        { r with
          up := r.up.plus (.whole t.up), down := r.down.plus (.whole t.down)
          total := r.total.plus sum } :: rest
      else r :: countOutbound t rest

def countClient (t : ClientTraffic) (rows : List ClientRow) : List ClientRow :=
  rows.map fun c =>
    if c.email == t.email then
      { c with up := c.up.plus (.whole t.up), down := c.down.plus (.whole t.down) }
    else c

def countTag (s : Store) (t : TagTraffic) : Except StoreFault Store :=
  if t.inbound then do
    s.reach .inbounds
    pure { s with inbounds := countInbound t s.inbounds }
  else if t.outbound then do
    s.reach .outbounds
    pure { s with outbounds := countOutbound t s.outbounds }
  else pure s

def countEmail (s : Store) (t : ClientTraffic) : Except StoreFault Store := do
  s.reach .clients
  pure { s with clients := countClient t s.clients }

/-- Counts all entries or, when one of them fails, none. -/
def addTraffic (s : Store) (tags : List TagTraffic) (clients : List ClientTraffic) :
    Except StoreFault Store := do
  let s ← tags.foldlM countTag s
  clients.foldlM countEmail s

structure OutboundUsage where
  tag : String
  up : Int
  down : Int
  total : Int
  deriving DecidableEq, Repr

/-- The outbounds in the order of their tags; one counter out of range fails the whole list. -/
def outboundUsage (s : Store) : Except StoreFault (List OutboundUsage) := do
  s.reach .outbounds
  s.outbounds.mapM fun r => do
    let up ← counted r.up
    let down ← counted r.down
    let total ← counted r.total
    pure ⟨r.tag, up, down, total⟩

def allTags : String := "-alltags-"

def covers (tag : String) (r : OutboundRow) : Bool := tag == allTags || r.tag == tag

def resetOutbounds (s : Store) (tag : String) : Except StoreFault (Nat × Store) := do
  s.reach .outbounds
  pure ((s.outbounds.filter (covers tag)).length,
    { s with outbounds := s.outbounds.map fun r =>
        if covers tag r then { r with up := .zero, down := .zero, total := .zero } else r })

end Store

end RelayControl
