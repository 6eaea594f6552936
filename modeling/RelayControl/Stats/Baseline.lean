import RelayControl.Fault
import RelayControl.Stats.Snapshot
import RelayControl.Store

/-!
Growth of the counters against a baseline. The baseline belongs to one relay process and moves only
once the growth has been persisted.
-/

namespace RelayControl

inductive CounterKind where
  | inbound
  | outbound
  | user
  deriving DecidableEq, Repr

abbrev CounterKey := CounterKind × String

/-- Growth of one count; one that went back has started anew. -/
def grown (now : Int) : Option Int → Int
  | some before => if before ≤ now then now - before else now
  | none => now

namespace Reading

def since (now : Reading) (before : Option Reading) : Reading :=
  ⟨grown now.up (before.map (·.up)), grown now.down (before.map (·.down))⟩

@[simp] theorem since_none (now : Reading) : now.since none = now := rfl

end Reading

structure Baseline where
  process : Nat
  readings : List (CounterKey × Reading) := []
  deriving DecidableEq, Repr, Inhabited

structure Growth where
  tags : List TagTraffic := []
  clients : List ClientTraffic := []
  deriving DecidableEq, Repr, Inhabited

namespace Baseline

def ofProcess (process : Nat) : Option Baseline → Baseline
  | some b => if b.process = process then b else ⟨process, []⟩
  | none => ⟨process, []⟩

def keyed (s : Snapshot) : List (CounterKey × Reading) :=
  s.inbounds.map (fun (n, r) => ((.inbound, n), r)) ++
    s.outbounds.map (fun (n, r) => ((.outbound, n), r)) ++
    s.users.map (fun (n, r) => ((.user, n), r))

def growthOf (b : Baseline) (kind : CounterKind) (readings : List (String × Reading)) :
    List (String × Reading) :=
  (readings.map fun (name, now) => (name, now.since (b.readings.lookup (kind, name)))).filter
    fun (_, grown) => !grown.isZero

def growth (b : Baseline) (s : Snapshot) : Growth where
  tags :=
    (b.growthOf .inbound s.inbounds).map (fun (tag, r) => ⟨true, false, tag, r.up, r.down⟩) ++
      (b.growthOf .outbound s.outbounds).map fun (tag, r) => ⟨false, true, tag, r.up, r.down⟩
  clients := (b.growthOf .user s.users).map fun (email, r) => ⟨email, r.up, r.down⟩

/-- The baseline with the readings of a snapshot; those it does not mention stay. -/
def extend (b : Baseline) (s : Snapshot) : Baseline :=
  let fresh := keyed s
  { b with readings :=
      fresh ++ b.readings.filter fun (key, _) => !fresh.any (·.1 == key) }

/--
Hands the growth since the baseline on. The baseline moves when that succeeds; when it fails, the
next call hands the same growth on again.
-/
def advance (baseline : Option Baseline) (process : Nat) (s : Snapshot)
    (persist : Growth → Except ε α) : Except ε (Growth × α) × Option Baseline :=
  let b := ofProcess process baseline
  let growth := b.growth s
  match persist growth with
  | .ok x => (.ok (growth, x), some (b.extend s))
  | .error f => (.error f, some b)

end Baseline

end RelayControl
