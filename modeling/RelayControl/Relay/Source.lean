import RelayControl.Fault
import RelayControl.Relay.Rule

/-!
What a relay configuration is made from: stored settings and the routing rules, either of which may
be unavailable.
-/

namespace RelayControl

namespace StoreKey

def template : String := "relayTemplate"

def credential : String := "registration"

def remoteConfig : String := "registrationConfig"

end StoreKey

structure Source where
  setting? : String → Except StoreFault (Option String)
  /-- In the order of their creation. -/
  rules : Except StoreFault (List RoutingRule)

end RelayControl
