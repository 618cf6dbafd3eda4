import Std.Time.DateTime.Timestamp
import Verdict.CommandLine.Run
import Verdict.Value.Moment

/-!
# Main — the program

Looks up the time, the environment and the files that arguments name, and prints what comes of the
command line.
-/

namespace Verdict.Main

/-- The present moment, in universal time. -/
def present : IO DateTime := do
  let t ← Std.Time.Timestamp.now
  let micros := t.toNanosecondsSinceUnixEpoch.val / 1000
  return (DateTime.ofMicros? (DateTime.epoch.instant + micros)).getD DateTime.epoch

/-- The variables that settings are read from. -/
def settingNames : List String := [
  "RULE_ENGINE_TRUST_RULES", "RULE_ENGINE_MUTATION_CACHE", "LOG_LEVEL", "LOG_DIR", "LOG_TO_FILE"]

/-- The variables that are set. -/
def environment : IO Environment :=
  settingNames.filterMapM fun name => do
    let value ← IO.getEnv name
    return value.map fun v => (name, v)

/-- The text of a file; none when it cannot be read. -/
def readFile? (name : String) : IO (Option String) := do
  try
    return some (← IO.FS.readFile name)
  catch _ => return none

/-- The files among some names. -/
def filesAmong (names : List String) : IO CommandLine.Files :=
  names.filterMapM fun name => do
    let content ← readFile? name
    return content.map fun content => (name, content)

/-- Print what is printed. -/
def print : CommandLine.Printed → IO Unit
  | .lines ls => ls.forM IO.println
  | .json v =>
    match v.indented 0 with
    | .ok text => IO.println text
    | .error f => IO.eprintln f.message

/-- Run the program with its arguments. -/
def run (args : List String) : IO UInt32 := do
  let env := Environment.withFiles (← environment) (← filesAmong [".env"]) ".env"
  match Settings.ofEnvironment env with
  | .error e =>
    IO.eprintln e.message
    return 1
  | .ok settings =>
    match CommandLine.run (← filesAmong args) settings (.builtIn (← present)) args with
    | .ok o =>
      print o.printed
      return o.exit.toUInt32
    | .error f =>
      IO.eprintln f.message
      return 1

end Verdict.Main

/-- The program. -/
def main (args : List String) : IO UInt32 := Verdict.Main.run args
