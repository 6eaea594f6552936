import RelayControl.Json.Decode

/-!
The counters that a relay publishes on its control port: for each inbound, outbound and user the
bytes counted since its start.
-/

namespace RelayControl

open Json

structure Reading where
  up : Int := 0
  down : Int := 0
  deriving DecidableEq, Repr, Inhabited

namespace Reading

def fields : List (RecordField Reading) :=
  [ .defaulted "uplink" .signed64 fun v r => { r with up := v },
    .defaulted "downlink" .signed64 fun v r => { r with down := v } ]

def decoder : Decoder Reading := Record.closed fields {}

def isZero (r : Reading) : Bool := r.up == 0 && r.down == 0

end Reading

structure Snapshot where
  inbounds : List (String × Reading) := []
  outbounds : List (String × Reading) := []
  users : List (String × Reading) := []
  deriving DecidableEq, Repr, Inhabited

namespace Snapshot

def fields : List (RecordField Snapshot) :=
  [ .defaulted "inbound" (.map Reading.decoder) fun v s => { s with inbounds := v },
    .defaulted "outbound" (.map Reading.decoder) fun v s => { s with outbounds := v },
    .defaulted "user" (.map Reading.decoder) fun v s => { s with users := v } ]

def decoder : Decoder Snapshot := Record.closed fields {}

/-- A snapshot among the other variables that a relay publishes. -/
def published : Decoder Snapshot :=
  Record.closed [.defaulted "stats" decoder fun v _ => v] {}

end Snapshot

end RelayControl
