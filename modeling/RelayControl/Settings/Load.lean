import RelayControl.Settings.Decode
import RelayControl.Toml.Document

/-!
Settings from the text of a file: it has to be TOML, the table has to give settings, and the
settings have to pass their checks.
-/

namespace RelayControl

inductive LoadProblem where
  | unreadable
  | malformed
  | invalid (p : SettingsProblem)
  deriving DecidableEq, Repr

namespace Settings

def ofFile (text : Option String) : Except LoadProblem Settings :=
  match text with
  | none => .error .unreadable
  | some text =>
      match (Toml.read? text).bind ofTable? with
      | none => .error .malformed
      | some s =>
          match s.problem? with
          | some p => .error (.invalid p)
          | none => .ok s

theorem valid_of_ofFile {text : Option String} {s : Settings} (h : ofFile text = .ok s) :
    s.Valid := by
  unfold ofFile at h
  repeat' split at h
  all_goals first
    | contradiction
    | (cases h; assumption)

end Settings

end RelayControl
