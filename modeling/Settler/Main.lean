import Settler.Daemon.Launch
import Settler.Json.Writer
import Settler.Settings.Load
import Settler.Settings.Names

/-!
The command: reads the settings from the environment and says how the HTTP surface is served, or
why the settings are refused.
-/

namespace Settler

/-- The environment variables that are settings. -/
def readEnvironment : IO (List (String × String)) :=
  Settings.names.filterMapM fun name => do
    return (← IO.getEnv name).map fun value => (name, value)

/-- Says how the surface is served under the settings of the environment. -/
def announce : IO UInt32 := do
  match Settings.load ⟨[], ← readEnvironment⟩ with
  | .ok settings =>
    IO.println (Json.object (Launch.plan settings).entries).write
    return 0
  | .error fault =>
    IO.eprintln (Text.legible fault.describe)
    return 1

end Settler

/-- The command's entry. -/
def main : IO UInt32 := Settler.announce
