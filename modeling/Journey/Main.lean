import Journey.CommandLine.Execution
import Journey.Node.Json
import Journey.Node.Yaml
import Journey.Rehearsal.Server

/-!
The program: the command line over the files of the machine. No browser server can be started from
here, so that workflows are validated and linted but a run ends before its first step.
-/

namespace Journey.Main

def fileError : IO.Error → FileError
  | .noFileOrDirectory _ _ _ => .notFound
  | e => .other (toString e)

def attempt {α : Type} (x : IO α) : IO (Except FileError α) := do
  try return .ok (← x) catch e => return .error (fileError e)

def place (location : String) : IO.FS.DirEntry := ⟨".", location⟩

def kind (location : String) : IO (Option EntryKind) := do
  match ← attempt (place location).path.metadata with
  | .ok found => return some (if found.type == .dir then .folder else .file)
  | .error _ => return none

def read (location : String) : IO (Except FileError String) := do
  match ← kind location with
  | none => return .error .notFound
  | some .folder => return .error .isFolder
  | some .file =>
      match ← attempt (IO.FS.readBinFile location) with
      | .error e => return .error e
      | .ok bytes => return (String.fromUTF8? bytes).elim (.error .notText) .ok

def names (location : String) : IO (Except FileError (List String)) := do
  match ← kind location with
  | none => return .error .notFound
  | some .file => return .error .notFolder
  | some .folder =>
      match ← attempt (place location).path.readDir with
      | .error e => return .error e
      | .ok entries => return .ok (entries.toList.map (·.fileName))

def files : Storage IO where
  read := read
  names := names
  kind := kind
  write location text := attempt (IO.FS.writeFile location text)

/-- There is no server to launch. -/
def launcher : Launcher ServerScript where
  launch _ := .error (.startupFailed "node not found on PATH: cannot find binary path")
  server := ServerScript.server

def environment : IO (Dict String) := do
  match ← read "/proc/self/environ" with
  | .error _ => return []
  | .ok text =>
      let entries := (Text.splitOn (Char.ofNat 0) text.toList).map fun entry =>
        let name := entry.takeWhile (· != '=')
        (String.ofList name, String.ofList (entry.drop (name.length + 1)))
      return Dict.ofList (entries.filter fun entry => entry.1 != "")

end Journey.Main

def main (words : List String) : IO UInt32 := do
  let surroundings : Journey.Surroundings IO Journey.ServerScript :=
    { files := Journey.Main.files
      yaml := Journey.Node.Yaml.parse?
      json := Journey.Node.Json.parse?
      launcher := Journey.Main.launcher
      environment := ← Journey.Main.environment
      runName := "-" }
  let outcome ← Journey.Command.executeLine surroundings words
  outcome.out.forM IO.println
  outcome.err.forM IO.eprintln
  return outcome.code.toUInt32
