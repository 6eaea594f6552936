import RelayControl.Relay.Config
import RelayControl.Text.Blank

/-!
Finding inbounds and outbounds by tag, and putting an outbound in the place of the one that has its
tag.
-/

namespace RelayControl

/-- A port number: decimal digits, perhaps after a plus sign, below 65536. -/
def portOfText? (s : String) : Option UInt16 :=
  let digits := match s.toList with
    | '+' :: rest => rest
    | cs => cs
  if digits.isEmpty || !digits.all Char.isDigit then none
  else
    let n := digits.foldl (fun n c => n * 10 + (c.toNat - '0'.toNat)) 0
    if n < 0x10000 then some (UInt16.ofNat n) else none

namespace Inbound

def portNumber? (i : Inbound) : Option UInt16 :=
  match i.port with
  | .number n =>
      match n.toInt? with
      | some p => if 0 ≤ p ∧ p < 0x10000 then some (UInt16.ofNat p.toNat) else none
      | none => none
  | .text s => portOfText? (Text.trim s)
  | _ => none

end Inbound

namespace RelayConfig

def inbound? (c : RelayConfig) (tag : String) : Option Inbound :=
  c.inbounds.find? (·.tag == tag)

def outbound? (c : RelayConfig) (tag : String) : Option Outbound :=
  c.outbounds.find? (·.tag? == some tag)

def inboundPort? (c : RelayConfig) (tag : String) : Option UInt16 :=
  (c.inbound? tag).bind Inbound.portNumber?

end RelayConfig

/-- Puts an outbound over the first one with its tag, else at the end. -/
def upsert (new : Outbound) : List Outbound → List Outbound
  | [] => [new]
  | o :: rest =>
      if new.tag?.isSome ∧ o.tag? = new.tag? then new :: rest
      else o :: upsert new rest

namespace RelayConfig

def upsertOutbound (c : RelayConfig) (new : Outbound) : RelayConfig :=
  { c with outbounds := upsert new c.outbounds }

@[simp] theorem upsertOutbound_outbounds (c : RelayConfig) (new : Outbound) :
    (c.upsertOutbound new).outbounds = upsert new c.outbounds := rfl

@[simp] theorem upsertOutbound_inbounds (c : RelayConfig) (new : Outbound) :
    (c.upsertOutbound new).inbounds = c.inbounds := rfl

end RelayConfig

end RelayControl
