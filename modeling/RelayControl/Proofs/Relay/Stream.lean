import RelayControl.Proofs.Json.Values
import RelayControl.Proofs.Json.Rewrite
import RelayControl.Proofs.Relay.Config.Layouts
import RelayControl.Relay.Stream

/-!
The stream settings of a rule as the relay is given them. They are written as the rule has them, but
for the members that are stripped, and the socket options that are put where the rule leaves them
open.
-/

namespace RelayControl

open Json
open Slot (distinct_rewritten follows_optional follows_filled follows_rewritten)

namespace SocketOptions

/-- What the tuning does to socket options: each of its own three is put where it is open. -/
def filling (t : Tuning) : Json → Json :=
  rewrite
    [ ("tcpFastOpen", .filled (some (.bool t.tcpFastOpen)) id),
      ("tcpKeepAliveInterval", .filled (if t.tcpKeepAliveIntervalSecs = 0 then none
        else some (.nat t.tcpKeepAliveIntervalSecs.toNat)) id),
      ("tcpNoDelay", .filled (some (.bool t.tcpNoDelay)) id) ]

def filledLayout (defaults : SocketOptions) : Layout SocketOptions where
  slots :=
    [ .rewritten "tcpFastOpen" .bool (fun v => (v <|> defaults.tcpFastOpen).map .bool)
        (·.tcpFastOpen) fun v r => { r with tcpFastOpen := v },
      .rewritten "tcpKeepAliveInterval" .word32
        (fun v => (v <|> defaults.tcpKeepAliveInterval).map Json.word) (·.tcpKeepAliveInterval)
        fun v r => { r with tcpKeepAliveInterval := v },
      .rewritten "tcpNoDelay" .bool (fun v => (v <|> defaults.tcpNoDelay).map .bool)
        (·.tcpNoDelay) fun v r => { r with tcpNoDelay := v } ]
  blank := {}
  rest := (·.rest)
  keep k v r := { r with rest := Members.insert k v r.rest }

theorem decoder_eq_filled (defaults : SocketOptions) : decoder = (filledLayout defaults).opened :=
  rfl

theorem filledFrom_toJson_eq (defaults o : SocketOptions) :
    (o.filledFrom defaults).toJson = .object ((filledLayout defaults).write o) :=
  toJson_eq (o.filledFrom defaults)

theorem filledLayout_keeps (defaults : SocketOptions) : (filledLayout defaults).Keeps where
  apart := ⟨by simp [filledLayout], by simp [filledLayout], by simp [filledLayout]⟩
  rest_put := by simp [filledLayout]
  rest_blank := rfl
  ext r r' := by
    cases r
    cases r'
    simp +contextual [filledLayout]
  get_keep := by simp [filledLayout]
  rest_keep _ _ _ := rfl

theorem readsValue : ReadsValue decoder := by
  apply Layout.readsValue_opened keeps decoder_eq
  simp only [layout, List.forall_mem_cons]
  exact ⟨readsValue_optional readsValue_bool, readsValue_optional readsValue_word32,
    readsValue_optional readsValue_bool, List.forall_mem_nil _⟩

theorem ofTuning_keepAlive (t : Tuning) : (ofTuning t).tcpKeepAliveInterval.map Json.word =
    if t.tcpKeepAliveIntervalSecs = 0 then none
    else some (.nat t.tcpKeepAliveIntervalSecs.toNat) := by
  unfold ofTuning
  split <;> rfl

theorem faithful_filled (t : Tuning) :
    Faithful decoder (fun o => (o.filledFrom (.ofTuning t)).toJson) (filling t) := by
  intro o
  apply Layout.faithfulAt_opened (filledLayout_keeps (.ofTuning t))
    ⟨by simp, by simp [filledLayout]⟩ (decoder_eq_filled (.ofTuning t))
    (filledFrom_toJson_eq (.ofTuning t) o)
  intro depth
  simp only [filledLayout, List.forall_mem_cons]
  exact ⟨follows_filled rfl rfl rfl faithful_bool,
    follows_filled rfl rfl (by rw [ofTuning_keepAlive]) faithful_word32,
    follows_filled rfl rfl rfl faithful_bool, List.forall_mem_nil _⟩

theorem distinct_filled {depth : Nat} {d : Doc} {o : SocketOptions} (defaults : SocketOptions)
    (read : decoder depth d = .ok o) : (o.filledFrom defaults).toJson.Distinct := by
  rw [filledFrom_toJson_eq]
  apply Layout.distinct_write (filledLayout_keeps defaults) read
  simp only [filledLayout, List.forall_mem_cons]
  exact ⟨fun _ => distinct_optional distinct_bool, fun _ => distinct_optional distinct_word,
    fun _ => distinct_optional distinct_bool, List.forall_mem_nil _⟩

end SocketOptions

namespace StreamSettings

theorem stripped_tuned_idem (s : StreamSettings) (defaults : SocketOptions) :
    (s.stripped.tuned defaults).stripped.tuned defaults = s.stripped.tuned defaults := by
  have apart : (s.stripped.tuned defaults).stripped = s.stripped.stripped.tuned defaults := rfl
  rw [apart, stripped_stripped, tuned_tuned]

def forwarding (t : Tuning) : Json → Json :=
  rewrite
    [ ("tlsSettings", .optional (rewrite [("settings", .dropped)])),
      ("realitySettings", .optional (rewrite [("settings", .dropped)])),
      ("externalProxy", .dropped),
      ("sockopt", .filled (some (SocketOptions.filling t (.object [])))
        (SocketOptions.filling t)) ]

def forwardedLayout (defaults : SocketOptions) : Layout StreamSettings where
  slots :=
    [ .optional "tlsSettings" .members (fun ms => .object (Members.erase "settings" ms))
        (·.tlsSettings) fun v r => { r with tlsSettings := v },
      .optional "realitySettings" .members (fun ms => .object (Members.erase "settings" ms))
        (·.realitySettings) fun v r => { r with realitySettings := v },
      .rewritten "externalProxy" .json (fun _ => none) (·.externalProxy)
        fun v r => { r with externalProxy := v },
      .rewritten "sockopt" SocketOptions.decoder
        (fun v => (v <|> some ({} : SocketOptions)).map fun (o : SocketOptions) =>
          (o.filledFrom defaults).toJson)
        (·.sockopt) fun v r => { r with sockopt := v } ]
  blank := {}
  rest := (·.rest)
  keep k v r := { r with rest := Members.insert k v r.rest }

theorem decoder_eq_forwarded (defaults : SocketOptions) :
    decoder = (forwardedLayout defaults).opened := rfl

theorem forwarded_toJson_eq (defaults : SocketOptions) (s : StreamSettings) :
    (s.stripped.tuned defaults).toJson = .object ((forwardedLayout defaults).write s) := by
  rw [toJson_eq]
  cases s with
  | mk tls reality proxy sockopt rest => cases tls <;> cases reality <;> cases sockopt <;> rfl

theorem forwardedLayout_keeps (defaults : SocketOptions) : (forwardedLayout defaults).Keeps where
  apart := ⟨by simp [forwardedLayout], by simp [forwardedLayout], by simp [forwardedLayout]⟩
  rest_put := by simp [forwardedLayout]
  rest_blank := rfl
  ext r r' := by
    cases r
    cases r'
    simp +contextual [forwardedLayout]
  get_keep := by simp [forwardedLayout]
  rest_keep _ _ _ := rfl

theorem readsValue : ReadsValue decoder := by
  apply Layout.readsValue_opened keeps decoder_eq
  simp only [layout, List.forall_mem_cons]
  exact ⟨readsValue_optional readsValue_members, readsValue_optional readsValue_members,
    readsValue_optional readsValue_json, readsValue_optional SocketOptions.readsValue,
    List.forall_mem_nil _⟩

theorem faithful_forwarded (t : Tuning) :
    Faithful decoder (fun s => (s.stripped.tuned (.ofTuning t)).toJson) (forwarding t) := by
  intro s
  apply Layout.faithfulAt_opened (forwardedLayout_keeps (.ofTuning t))
    ⟨by simp, by simp [forwardedLayout]⟩ (decoder_eq_forwarded (.ofTuning t))
    (forwarded_toJson_eq (.ofTuning t) s)
  intro depth
  have blank : SocketOptions.decoder 0 (.ofJson (.object [])) = .ok {} := rfl
  have added : ((({} : SocketOptions).filledFrom (.ofTuning t)).toJson).ordered =
      (SocketOptions.filling t (.object [])).ordered :=
    SocketOptions.faithful_filled t {} (by simp [distinct_object]) blank
  simp only [forwardedLayout, List.forall_mem_cons]
  exact ⟨follows_optional rfl rfl (faithful_erase "settings"),
    follows_optional rfl rfl (faithful_erase "settings"),
    follows_rewritten rfl rfl rfl rfl fun _ _ _ _ _ _ => rfl,
    follows_filled rfl rfl (congrArg some added) (SocketOptions.faithful_filled t),
    List.forall_mem_nil _⟩

theorem distinct_forwarded {depth : Nat} {d : Doc} {s : StreamSettings} (defaults : SocketOptions)
    (read : decoder depth d = .ok s) : (s.stripped.tuned defaults).toJson.Distinct := by
  rw [forwarded_toJson_eq]
  apply Layout.distinct_write (forwardedLayout_keeps defaults) read
  have security : ∀ ⦃depth d ms⦄, Decoder.members depth d = .ok ms →
      ∀ v, some (object (Members.erase "settings" ms)) = some v → v.Distinct := by
    rintro depth d ms read _ ⟨⟩
    have whole := Doc.distinct_of_toJson (Decoder.members_eq_ok_iff.mp read)
    rw [distinct_object] at whole ⊢
    exact ⟨Members.nodup_erase _ whole.1, fun m member => whole.2 m (List.mem_of_mem_filter member)⟩
  have filled : ∀ ⦃depth d o⦄, SocketOptions.decoder depth d = .ok o →
      ∀ v, some (o.filledFrom defaults).toJson = some v → v.Distinct := by
    rintro depth d o read _ ⟨⟩
    exact SocketOptions.distinct_filled defaults read
  have blank : SocketOptions.decoder 0 (.ofJson (.object [])) = .ok {} := rfl
  simp only [forwardedLayout, List.forall_mem_cons]
  exact ⟨distinct_rewritten rfl nofun fun _ _ read => security read,
    distinct_rewritten rfl nofun fun _ _ read => security read, fun _ => nofun,
    distinct_rewritten rfl (filled blank) fun _ _ read => filled read, List.forall_mem_nil _⟩

end StreamSettings

end RelayControl
