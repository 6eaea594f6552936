import RelayControl.Settings
import RelayControl.Toml.Value

/-!
Reading settings from a table. Members that are no settings are passed over. A section may be
written as the array of its settings, of which those with a default may be missing at the end and
those beyond the last are passed over. Whatever has the wrong type refuses the whole.
-/

namespace RelayControl

open Toml

/-- A setting in a section: its name, the change it makes, and whether an array must hold it. -/
structure Setting (σ : Type) where
  name : String
  read : Value → Option (σ → σ)
  heldByArray : Bool := false

namespace Setting

private def within (low high : Int) : Value → Option Int
  | .integer n => if low ≤ n ∧ n ≤ high then some n else none
  | _ => none

private def word (bits : Nat) (v : Value) : Option Nat :=
  (within 0 (Nat.pow 2 bits - 1) v).map Int.toNat

private def text? : Value → Option String
  | .text s => some s
  | _ => none

private def bool? : Value → Option Bool
  | .bool b => some b
  | _ => none

private def texts? : Value → Option (List String)
  | .array vs => vs.mapM text?
  | _ => none

private def float? : Value → Option Binary64.Extended
  | .float x => some x
  | .integer n => some (.ofInt n)
  | _ => none

private def isEmpty : Value → Bool
  | .table [] => true
  | .array [] => true
  | _ => false

private def missingRecord? : Value → Option MissingRecordPolicy
  | .text s => named s
  | .table [(s, v)] => if isEmpty v then named s else none
  | _ => none
where
  named : String → Option MissingRecordPolicy
    | "keep" => some .keep
    | "drop" => some .drop
    | _ => none

def of (name : String) (item : Value → Option α) (put : α → σ → σ) : Setting σ :=
  { name, read := fun v => (item v).map put }

private def text (name : String) (put : String → σ → σ) : Setting σ := of name text? put

private def bool (name : String) (put : Bool → σ → σ) : Setting σ := of name bool? put

private def word16 (name : String) (put : UInt16 → σ → σ) : Setting σ :=
  of name (word 16) fun n => put (.ofNat n)

private def word32 (name : String) (put : UInt32 → σ → σ) : Setting σ :=
  of name (word 32) fun n => put (.ofNat n)

private def word64 (name : String) (put : UInt64 → σ → σ) : Setting σ :=
  of name (word 64) fun n => put (.ofNat n)

private def fromTable (settings : List (Setting σ)) (section_ : σ) :
    List (String × Value) → Option σ
  | [] => some section_
  | (key, v) :: rest =>
      match settings.find? (·.name == key) with
      | some setting => do
          let change ← setting.read v
          fromTable settings (change section_) rest
      | none => fromTable settings section_ rest

private def fromArray : List (Setting σ) → σ → List Value → Option σ
  | [], section_, _ => some section_
  | setting :: rest, section_, [] =>
      if setting.heldByArray then none else fromArray rest section_ []
  | setting :: rest, section_, v :: vs => do
      let change ← setting.read v
      fromArray rest (change section_) vs

/-- A section as a table or an array; a moment is a table without any settings. -/
def readAll (settings : List (Setting σ)) (default : σ) : Value → Option σ
  | .table ms => fromTable settings default ms
  | .array vs => fromArray settings default vs
  | .moment => some default
  | _ => none

def server : List (Setting ServerSettings) :=
  [ text "bind" fun v s => { s with bind := v },
    word16 "admin_port" fun v s => { s with adminPort := v },
    { text "pid_file" (fun v (s : ServerSettings) => { s with pidFile := some v }) with
      heldByArray := true } ]

def database : List (Setting DatabaseSettings) :=
  [ text "path" fun v s => { s with path := v } ]

def process : List (Setting ProcessSettings) :=
  [ text "binary" fun v s => { s with binary := v },
    text "config_path" fun v s => { s with configPath := v },
    of "run_args" texts? fun v s => { s with runArgs := v },
    of "version_args" texts? fun v s => { s with versionArgs := v },
    word64 "monitor_interval_ms" fun v s => { s with monitorIntervalMs := v },
    word64 "shutdown_grace_period_secs" fun v s => { s with shutdownGracePeriodSecs := v },
    word64 "output_lines" fun v s => { s with outputLines := v },
    text "control_tag" fun v s => { s with controlTag := v } ]

def tuning : List (Setting Tuning) :=
  [ word32 "buffer_size_kb" fun v s => { s with bufferSizeKb := v },
    word32 "handshake_secs" fun v s => { s with handshakeSecs := v },
    word32 "conn_idle_secs" fun v s => { s with connIdleSecs := v },
    word32 "uplink_only_secs" fun v s => { s with uplinkOnlySecs := v },
    word32 "downlink_only_secs" fun v s => { s with downlinkOnlySecs := v },
    bool "tcp_fast_open" fun v s => { s with tcpFastOpen := v },
    word32 "tcp_keep_alive_interval_secs" fun v s => { s with tcpKeepAliveIntervalSecs := v },
    bool "tcp_no_delay" fun v s => { s with tcpNoDelay := v } ]

def retry : List (Setting RetrySettings) :=
  [ word64 "base_delay_ms" fun v s => { s with baseDelayMs := v },
    word32 "max_retries" fun v s => { s with maxRetries := v },
    word64 "max_backoff_ms" fun v s => { s with maxBackoffMs := v },
    of "jitter_fraction" float? fun v s => { s with jitterFraction := v },
    word64 "attempt_timeout_ms" fun v s => { s with attemptTimeoutMs := v } ]

def registration : List (Setting RegistrationSettings) :=
  [ text "base_url" fun v s => { s with baseUrl := v },
    text "client_version" fun v s => { s with clientVersion := v },
    text "device_model" fun v s => { s with deviceModel := v },
    { text "device_name" (fun v (s : RegistrationSettings) => { s with deviceName := some v }) with
      heldByArray := true },
    text "outbound_tag" fun v s => { s with outboundTag := v },
    word32 "mtu" fun v s => { s with mtu := v },
    word32 "workers" fun v s => { s with workers := v },
    text "peer_public_key" fun v s => { s with peerPublicKey := v },
    text "peer_endpoint" fun v s => { s with peerEndpoint := v },
    of "retry" (readAll retry {}) fun v s => { s with retry := v },
    word64 "pool_max_idle_per_host" fun v s => { s with poolMaxIdlePerHost := v },
    word64 "pool_idle_timeout_secs" fun v s => { s with poolIdleTimeoutSecs := v } ]

def filter : List (Setting FilterSettings) :=
  [ of "missing_record" missingRecord? fun v s => { s with missingRecord := v } ]

def traffic : List (Setting TrafficSettings) :=
  [ word64 "poll_interval_secs" fun v s => { s with pollIntervalSecs := v } ]

def sections : List (Setting Settings) :=
  [ of "server" (readAll server {}) fun v s => { s with server := v },
    of "database" (readAll database {}) fun v s => { s with database := v },
    of "process" (readAll process {}) fun v s => { s with process := v },
    of "tuning" (readAll tuning {}) fun v s => { s with tuning := v },
    of "registration" (readAll registration {}) fun v s => { s with registration := v },
    of "filter" (readAll filter {}) fun v s => { s with filter := v },
    of "traffic" (readAll traffic {}) fun v s => { s with traffic := v } ]

end Setting

namespace Settings

def ofTable? (v : Value) : Option Settings :=
  Setting.readAll Setting.sections {} v

end Settings

end RelayControl
