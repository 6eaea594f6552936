import RelayControl.Relay.Config
import RelayControl.Settings

/-!
Stream settings of a rule on their way to the relay: what is meant for share links only is removed,
and socket options that the rule leaves open are filled in.
-/

namespace RelayControl

namespace SocketOptions

def ofTuning (t : Tuning) : SocketOptions where
  tcpFastOpen := some t.tcpFastOpen
  tcpKeepAliveInterval :=
    if t.tcpKeepAliveIntervalSecs = 0 then none else some t.tcpKeepAliveIntervalSecs
  tcpNoDelay := some t.tcpNoDelay

def filledFrom (o defaults : SocketOptions) : SocketOptions :=
  { o with
    tcpFastOpen := o.tcpFastOpen <|> defaults.tcpFastOpen
    tcpKeepAliveInterval := o.tcpKeepAliveInterval <|> defaults.tcpKeepAliveInterval
    tcpNoDelay := o.tcpNoDelay <|> defaults.tcpNoDelay }

@[simp] theorem filledFrom_rest (o defaults : SocketOptions) :
    (o.filledFrom defaults).rest = o.rest := rfl

@[simp] theorem filledFrom_filledFrom (o defaults : SocketOptions) :
    (o.filledFrom defaults).filledFrom defaults = o.filledFrom defaults := by
  cases o with
  | mk a b c rest => cases a <;> cases b <;> cases c <;> simp [filledFrom]

end SocketOptions

namespace StreamSettings

def stripped (s : StreamSettings) : StreamSettings :=
  { s with
    tlsSettings := s.tlsSettings.map (Members.erase "settings")
    realitySettings := s.realitySettings.map (Members.erase "settings")
    externalProxy := none }

def tuned (s : StreamSettings) (defaults : SocketOptions) : StreamSettings :=
  { s with sockopt := some ((s.sockopt.getD {}).filledFrom defaults) }

@[simp] theorem stripped_sockopt (s : StreamSettings) : s.stripped.sockopt = s.sockopt := rfl

@[simp] theorem stripped_stripped (s : StreamSettings) : s.stripped.stripped = s.stripped := by
  cases s with
  | mk tls reality proxy sockopt rest =>
      cases tls <;> cases reality <;> simp [stripped, Members.erase, List.filter_filter]

@[simp] theorem tuned_tuned (s : StreamSettings) (defaults : SocketOptions) :
    (s.tuned defaults).tuned defaults = s.tuned defaults := by
  simp [tuned]

end StreamSettings

end RelayControl
