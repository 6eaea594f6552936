/-!
Routing rules as the store keeps them: the parts of an inbound as text, with the records of the
clients that belong to it.
-/

namespace RelayControl

structure ClientRecord where
  email : String
  /-- False once the client expired or used up its share. -/
  enabled : Bool
  deriving DecidableEq, Repr, Inhabited

structure RuleBody where
  tag : String
  enabled : Bool := true
  listen : String := ""
  port : UInt16
  protocol : String
  settings : String := ""
  streamSettings : String := ""
  sniffing : String := ""
  deriving DecidableEq, Repr, Inhabited

structure RoutingRule extends RuleBody where
  id : Int
  records : List ClientRecord := []
  deriving DecidableEq, Repr, Inhabited

end RelayControl
