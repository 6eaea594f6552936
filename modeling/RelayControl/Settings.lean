import RelayControl.Binary64

/-!
The settings of the control plane, section by section, each with its defaults.
-/

namespace RelayControl

structure ServerSettings where
  bind : String := "127.0.0.1"
  adminPort : UInt16 := 2053
  pidFile : Option String := none
  deriving DecidableEq, Inhabited

structure DatabaseSettings where
  path : String := "relayctl.db"
  deriving DecidableEq, Inhabited

structure ProcessSettings where
  binary : String := "/usr/local/bin/xray"
  /-- Where the configuration is written before every start. -/
  configPath : String := "relay-config.json"
  runArgs : List String := ["run", "-c", "\x7bconfig\x7d"]
  versionArgs : List String := ["version"]
  monitorIntervalMs : UInt64 := 5000
  shutdownGracePeriodSecs : UInt64 := 5
  outputLines : UInt64 := 100
  /-- The tag of the inbound whose port serves the counters. -/
  controlTag : String := "api"
  deriving DecidableEq, Inhabited

structure Tuning where
  bufferSizeKb : UInt32 := 512
  handshakeSecs : UInt32 := 8
  connIdleSecs : UInt32 := 300
  uplinkOnlySecs : UInt32 := 1
  downlinkOnlySecs : UInt32 := 1
  tcpFastOpen : Bool := true
  /-- Zero leaves the interval to the system. -/
  tcpKeepAliveIntervalSecs : UInt32 := 30
  tcpNoDelay : Bool := true
  deriving DecidableEq, Inhabited

structure RetrySettings where
  baseDelayMs : UInt64 := 500
  /-- Attempts after the first one. -/
  maxRetries : UInt32 := 5
  maxBackoffMs : UInt64 := 10000
  jitterFraction : Binary64.Extended := .finite .half
  attemptTimeoutMs : UInt64 := 10000
  deriving DecidableEq, Inhabited

structure RegistrationSettings where
  baseUrl : String := "https://api.cloudflareclient.com/v0a2158"
  clientVersion : String := "a-7.21-0721"
  deviceModel : String := "relayctl"
  deviceName : Option String := none
  outboundTag : String := "registration"
  mtu : UInt32 := 1420
  workers : UInt32 := 2
  peerPublicKey : String := "bmXOC+F1FxEMF9dyiK2H5/1SUtzH0JuVo51h2wPfgyo="
  peerEndpoint : String := "engage.cloudflareclient.com:2408"
  retry : RetrySettings := {}
  poolMaxIdlePerHost : UInt64 := 10
  poolIdleTimeoutSecs : UInt64 := 30
  deriving DecidableEq, Inhabited

/-- What becomes of a client without a usage record. -/
inductive MissingRecordPolicy where
  | keep
  | drop
  deriving DecidableEq, Inhabited

structure FilterSettings where
  missingRecord : MissingRecordPolicy := .keep
  deriving DecidableEq, Inhabited

structure TrafficSettings where
  pollIntervalSecs : UInt64 := 10
  deriving DecidableEq, Inhabited

structure Settings where
  server : ServerSettings := {}
  database : DatabaseSettings := {}
  process : ProcessSettings := {}
  tuning : Tuning := {}
  registration : RegistrationSettings := {}
  filter : FilterSettings := {}
  traffic : TrafficSettings := {}
  deriving DecidableEq, Inhabited

namespace MissingRecordPolicy

def name : MissingRecordPolicy → String
  | .keep => "keep"
  | .drop => "drop"

end MissingRecordPolicy

def configMark : List Char := ['\x7b', 'c', 'o', 'n', 'f', 'i', 'g', '\x7d']

private def dropStart? : List Char → List Char → Option (List Char)
  | [], rest => some rest
  | _ :: _, [] => none
  | c :: cs, d :: ds => if c = d then dropStart? cs ds else none

/-- Replaces every occurrence of a mark, from left to right; `fuel` bounds the steps. -/
private def replaceWithin (mark new : List Char) : Nat → List Char → List Char
  | 0, cs => cs
  | _, [] => []
  | fuel + 1, c :: rest =>
      match dropStart? mark (c :: rest) with
      | some later => new ++ replaceWithin mark new fuel later
      | none => c :: replaceWithin mark new fuel rest

def mentionsConfig (arg : String) : Bool :=
  go arg.toList
where
  go : List Char → Bool
    | [] => false
    | c :: rest => (dropStart? configMark (c :: rest)).isSome || go rest

namespace ProcessSettings

def resolvedRunArgs (p : ProcessSettings) : List String :=
  p.runArgs.map fun arg =>
    String.ofList (replaceWithin configMark p.configPath.toList arg.toList.length arg.toList)

end ProcessSettings

namespace RegistrationSettings

/-- The name announced for this node: as set, else that of the host. -/
def announcedName (r : RegistrationSettings) (hostName : Option String) : String :=
  (r.deviceName <|> hostName).getD "relayctl"

end RegistrationSettings

inductive SettingsProblem where
  | monitorInterval
  | runArgs
  | jitterFraction
  | attemptTimeout
  | maxBackoff
  | pollInterval
  deriving DecidableEq, Repr

def SettingsProblem.message : SettingsProblem → String
  | .monitorInterval => "process.monitor_interval_ms must be greater than zero"
  | .runArgs => "process.run_args must reference the config file via '\x7bconfig\x7d'"
  | .jitterFraction => "registration.retry.jitter_fraction must be between 0.0 and 1.0"
  | .attemptTimeout => "registration.retry.attempt_timeout_ms must be greater than zero"
  | .maxBackoff => "registration.retry.max_backoff_ms must not be below base_delay_ms"
  | .pollInterval => "traffic.poll_interval_secs must be greater than zero"

namespace Settings

def problem? (s : Settings) : Option SettingsProblem :=
  if s.process.monitorIntervalMs = 0 then some .monitorInterval
  else if !s.process.runArgs.any mentionsConfig then some .runArgs
  else if !s.registration.retry.jitterFraction.inUnitInterval then some .jitterFraction
  else if s.registration.retry.attemptTimeoutMs = 0 then some .attemptTimeout
  else if s.registration.retry.maxBackoffMs < s.registration.retry.baseDelayMs then
    some .maxBackoff
  else if s.traffic.pollIntervalSecs = 0 then some .pollInterval
  else none

def Valid (s : Settings) : Prop := s.problem? = none

instance (s : Settings) : Decidable s.Valid := inferInstanceAs (Decidable (_ = _))

theorem Valid.baseDelay_le (h : Valid s) :
    s.registration.retry.baseDelayMs ≤ s.registration.retry.maxBackoffMs := by
  unfold Valid problem? at h
  repeat' split at h
  all_goals first
    | contradiction
    | (rename_i hlt _; exact UInt64.not_lt.mp hlt)

end Settings

end RelayControl
