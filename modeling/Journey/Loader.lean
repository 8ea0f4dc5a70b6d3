import Journey.Adapter.Record
import Journey.Compile
import Journey.Location
import Journey.Policy.Record
import Journey.Storage

/-!
Loading: workflows from single files or all workflow files of a folder, and settings, adapters and
locator packs from documents. The first error ends the loading.
-/

namespace Journey

inductive LoadError where
  | io (error : FileError)
  | yaml (file : String)
  | compile (error : CompileError)
  deriving DecidableEq

namespace LoadError

def message : LoadError → String
  | io error => s!"IO error: {error.message}"
  | yaml file => s!"YAML parse error in {file}"
  | compile error => s!"Compile error: {error.text}"

def chain : LoadError → List String
  | io error => [(io error).message, error.message]
  | yaml file => [(yaml file).message]
  | compile error => [(compile error).message, error.text]

end LoadError

/-- Settings from a document; a blank one leaves everything at its default. -/
def Settings.parse? (yaml : Node.Reader) (text : String) : Option Settings :=
  if (Text.trim text.toList).isEmpty then some .default
  else (yaml text).bind Settings.ofNode?

def DeclaredAdapter.parse? (yaml : Node.Reader) (text : String) : Option DeclaredAdapter :=
  (yaml text).bind DeclaredAdapter.ofNode?

def LocatorPack.parse? (yaml : Node.Reader) (text : String) : Option LocatorPack :=
  (yaml text).bind LocatorPack.ofNode?

/-- Takes relative locations of packs and adapters to be relative to a folder. -/
def Settings.rebase (s : Settings) (folder : String) : Settings :=
  { s with
    locatorPacks := s.locatorPacks.map (Location.join folder)
    adapters := s.adapters.map (Location.join folder) }

namespace Loader

variable {m : Type → Type} [Monad m] {α : Type}

def extension : String := "journey"

def isWorkflowName (name : String) : Bool := Location.hasExtension extension name

def inOrder (a b : String) : Bool := !(b < a)

def readText (fs : Storage m) (file : String) : ExceptT LoadError m String := do
  match ← (fs.read file : m _) with
  | .ok text => return text
  | .error e => throw (.io e)

def workflowFiles (fs : Storage m) (folder : String) : ExceptT LoadError m (List String) := do
  match ← (fs.names folder : m _) with
  | .error e => throw (.io e)
  | .ok names =>
      let files ← (names.filter isWorkflowName).filterM fun name => do
        return (← (fs.kind (Location.join folder name) : m _)) == some .file
      return (files.mergeSort inOrder).map (Location.join folder)

def filesFor (fs : Storage m) (location : String) : ExceptT LoadError m (List String) := do
  match ← (fs.kind location : m _) with
  | some .folder => workflowFiles fs location
  | _ => return [location]

def loadFile (fs : Storage m) (c : Compiler) (file : String) :
    ExceptT LoadError m (List Workflow) := do
  match c.compileAll (← readText fs file) file with
  | .ok workflows => return workflows
  | .error e => throw (.compile e)

def loadFiles (fs : Storage m) (c : Compiler) (files : List String) :
    ExceptT LoadError m (List Workflow) :=
  return (← files.mapM (loadFile fs c)).flatten

def loadFolder (fs : Storage m) (c : Compiler) (folder : String) :
    ExceptT LoadError m (List Workflow) := do
  loadFiles fs c (← workflowFiles fs folder)

def load (fs : Storage m) (c : Compiler) (location : String) :
    ExceptT LoadError m (List Workflow) := do
  loadFiles fs c (← filesFor fs location)

def lint (fs : Storage m) (location : String) : ExceptT LoadError m (List LintViolation) := do
  let found ← (← filesFor fs location).mapM fun file => do
    return Lint.check (← readText fs file) file
  return found.flatten

def loadRecord (fs : Storage m) (parse? : String → Option α) (file : String) :
    ExceptT LoadError m α := do
  match parse? (← readText fs file) with
  | some a => return a
  | none => throw (.yaml file)

def loadSettings (fs : Storage m) (yaml : Node.Reader) (file : String) :
    ExceptT LoadError m Settings :=
  loadRecord fs (Settings.parse? yaml) file

def loadAdapter (fs : Storage m) (yaml : Node.Reader) (file : String) :
    ExceptT LoadError m DeclaredAdapter :=
  loadRecord fs (DeclaredAdapter.parse? yaml) file

def loadPack (fs : Storage m) (yaml : Node.Reader) (file : String) :
    ExceptT LoadError m LocatorPack :=
  loadRecord fs (LocatorPack.parse? yaml) file

end Loader
end Journey
