import RelayControl.Stats.Collection

/-!
Collections side by side, while the relay counts and is restarted. A collection has three steps: it
looks up the running process, it receives a snapshot from whichever process answers on the port by
then, and it moves the baseline and persists the growth in one step.
-/

namespace RelayControl

inductive CollectStage where
  | located (process : Nat)
  | received (process : Nat) (snapshot : Snapshot)
  deriving DecidableEq, Repr

structure Collecting where
  process : Nat := 1
  /-- The latest counters of every process, the running one first. -/
  counted : List (Nat × Snapshot) := [(1, {})]
  calls : List (Nat × CollectStage) := []
  baseline : Option Baseline := none
  persisted : List Growth := []
  deriving DecidableEq, Repr, Inhabited

inductive CollectAction where
  | locate (call : Nat)
  | receive (call : Nat)
  /-- Moves the baseline; `fails` says that the growth could not be persisted. -/
  | persist (call : Nat) (fails : Bool)
  /-- The relay counts on: its counters are these now. -/
  | count (snapshot : Snapshot)
  /-- Another process takes the place of the running one and counts from zero. -/
  | restart
  deriving DecidableEq, Repr

namespace Snapshot

/-- The reading of a counter; one that is not mentioned has counted nothing. -/
def reading (s : Snapshot) : CounterKey → Reading
  | (.inbound, name) => (s.inbounds.lookup name).getD {}
  | (.outbound, name) => (s.outbounds.lookup name).getD {}
  | (.user, name) => (s.users.lookup name).getD {}

def grownTo (s t : Snapshot) : Bool :=
  (Baseline.keyed s).all fun (key, r) =>
    (Baseline.keyed t).any (·.1 == key) && r.up ≤ (t.reading key).up &&
      r.down ≤ (t.reading key).down

def sound (s : Snapshot) : Bool :=
  let keys := (Baseline.keyed s).map (·.1)
  ((Baseline.keyed s).all fun (_, r) => 0 ≤ r.up && 0 ≤ r.down) && decide keys.Nodup

end Snapshot

namespace Growth

def of (g : Growth) : CounterKey → Reading
  | (.inbound, name) =>
      match g.tags.find? fun t => t.inbound && t.tag == name with
      | some t => ⟨t.up, t.down⟩
      | none => {}
  | (.outbound, name) =>
      match g.tags.find? fun t => !t.inbound && t.tag == name with
      | some t => ⟨t.up, t.down⟩
      | none => {}
  | (.user, name) =>
      match g.clients.find? (·.email == name) with
      | some c => ⟨c.up, c.down⟩
      | none => {}

end Growth

namespace Collecting

def setCall (c : Collecting) (call : Nat) (stage : CollectStage) : Collecting :=
  { c with calls := (call, stage) :: c.calls.filter (·.1 != call) }

def dropCall (c : Collecting) (call : Nat) : Collecting :=
  { c with calls := c.calls.filter (·.1 != call) }

def step? (c : Collecting) : CollectAction → Option Collecting
  | .locate call =>
      match c.calls.lookup call with
      | none => some (c.setCall call (.located c.process))
      | some _ => none
  | .receive call =>
      match c.calls.lookup call, c.counted.lookup c.process with
      | some (.located process), some snapshot =>
          some (c.setCall call (.received process snapshot))
      | _, _ => none
  | .persist call fails =>
      match c.calls.lookup call with
      | some (.received process snapshot) =>
          let persist (g : Growth) : Except Unit Growth := if fails then .error () else .ok g
          match Baseline.advance c.baseline process snapshot persist with
          | (.ok (growth, _), baseline) =>
              some { c.dropCall call with baseline, persisted := growth :: c.persisted }
          | (.error _, baseline) => some { c.dropCall call with baseline }
      | _ => none
  | .count snapshot =>
      match c.counted with
      | (process, before) :: rest =>
          if before.grownTo snapshot && snapshot.sound then
            some { c with counted := (process, snapshot) :: rest }
          else none
      | [] => none
  | .restart =>
      some { c with process := c.process + 1, counted := (c.process + 1, {}) :: c.counted }

def run? (c : Collecting) : List CollectAction → Option Collecting
  | [] => some c
  | a :: rest => (c.step? a).bind (run? · rest)

def total (c : Collecting) (key : CounterKey) : Reading :=
  c.persisted.foldl (fun sum g => ⟨sum.up + (g.of key).up, sum.down + (g.of key).down⟩) {}

def counts (c : Collecting) (key : CounterKey) : Reading :=
  c.counted.foldl (fun sum (_, s) =>
    ⟨sum.up + (s.reading key).up, sum.down + (s.reading key).down⟩) {}

end Collecting

end RelayControl
