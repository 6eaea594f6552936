import RelayControl.Startup

/-!
The command line: the program starts from the settings file that is named as its argument, and writes
the configuration of the relay to the place that the settings name.
-/

namespace RelayControl

def defaultSettingsFile : String := "config.toml"

def settingsText (path : String) : IO (Option String) := do
  try
    let text ← IO.FS.readFile path
    pure (some text)
  catch _ => pure none

def runFrom (path : String) : IO UInt32 := do
  let text ← settingsText path
  match (start text {}).result with
  | .error p => do
      (← IO.getStderr).putStrLn ("Error: " ++ p.message)
      pure 1
  | .ok plane => do
      match plane.supervisor.written with
      | some written => IO.FS.writeFile plane.settings.process.configPath written
      | none => pure ()
      pure 0

end RelayControl

def main (args : List String) : IO UInt32 :=
  RelayControl.runFrom (args.headD RelayControl.defaultSettingsFile)
