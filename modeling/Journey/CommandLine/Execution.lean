import Journey.Bridge
import Journey.CommandLine
import Journey.Engine.Run
import Journey.Loader
import Journey.Result.Printer
import Journey.Result.Record
import Journey.Validation

/-!
Execution of commands: load what the settings name, compile, and then list, validate, lint or run.
A command prints lines and ends in a code: zero when all is well, one when something was found
wrong, two when it could not be carried out.
-/

namespace Journey

inductive CommandError where
  | load (error : LoadError)
  | adapter (error : AdapterError)
  | noSuchPlace (location : String)
  | browser (error : BrowserError)
  | run (error : RunError)
  | file (error : FileError)
  deriving DecidableEq

namespace CommandError

def chain : CommandError → List String
  | load error => error.chain
  | adapter error => error.chain
  | noSuchPlace location => [s!"Path not found: {location}"]
  | browser error => [error.message]
  | run error => error.chain
  | file error => [error.message]

def text (e : CommandError) : String := "Error: " ++ ": ".intercalate e.chain

end CommandError

structure Launcher (ς : Type) where
  launch : BridgeSettings → Except BrowserError ς
  server : Rpc.Server ς

structure Outcome where
  code : Nat
  out : List String
  err : List String
  requests : List Rpc.Request

/-- What a command is carried out in: the files, how configurations and the lines of the browser
server are read, the server itself, and the environment. -/
structure Surroundings (m : Type → Type) (ς : Type) where
  files : Storage m
  yaml : Node.Reader
  json : Node.Reader
  launcher : Launcher ς
  environment : Dict String
  runName : String

/-- What running workflows has come to: the lines so far, whether all succeeded, the results with
the latest first, and why it ended early. -/
structure RunProgress where
  lines : List String
  success : Bool
  results : List WorkflowResult
  error : Option RunError

namespace Command

variable {m : Type → Type} [Monad m] {ς : Type}

def verdict (good : Bool) (lines : List String) : Outcome :=
  ⟨if good then 0 else 1, lines, [], []⟩

def failure (e : CommandError) : Outcome := ⟨2, [], [e.text], []⟩

def loading {α : Type} (x : ExceptT LoadError m α) : ExceptT CommandError m α :=
  ExceptT.adapt .load x

/-- The settings of a configuration file, whose locations are relative to its folder. -/
def readSettings (fs : Storage m) (yaml : Node.Reader) :
    Option String → ExceptT CommandError m Settings
  | none => return .default
  | some config =>
      return (← loading (Loader.loadSettings fs yaml config)).rebase (Location.parent config)

def prepare (fs : Storage m) (yaml : Node.Reader) (config : Option String) :
    ExceptT CommandError m (Settings × Installed) := do
  let settings ← readSettings fs yaml config
  let adapters ← loading (settings.adapters.mapM (Loader.loadAdapter fs yaml))
  match install .builtin (adapters.map DeclaredAdapter.adapter) with
  | .error e => throw (.adapter e)
  | .ok installed =>
      let packs ← loading (settings.locatorPacks.mapM (Loader.loadPack fs yaml))
      return (settings, { installed with packs := installed.packs ++ packs })

def expectPlace (fs : Storage m) (location : String) : ExceptT CommandError m Unit := do
  match ← (fs.kind location : m _) with
  | some _ => return ()
  | none => throw (.noSuchPlace location)

def compilerFor (settings : Settings) (registry : Registry) : Compiler :=
  ⟨registry, some (Dict.keys settings.timeouts.profiles), true⟩

def compile (fs : Storage m) (location : String) (settings : Settings) (registry : Registry) :
    ExceptT CommandError m (List Workflow) := do
  expectPlace fs location
  loading (Loader.load fs (compilerFor settings registry) location)

def nothingFound (location : String) : Outcome :=
  verdict true [s!"No workflows found in: {location}"]

def padded (keyword : String) : String :=
  String.ofList (keyword.toList ++ List.replicate (24 - keyword.length) ' ')

def actionLine (spec : ActionSpec) : String :=
  let params := ", ".intercalate spec.requiredParams
  s!"  {padded spec.keyword} [{params}] {spec.description}"

def actionLines (installed : Installed) : List String :=
  let semantic := installed.expander.keywords
  "Actions:" :: installed.registry.specs.map actionLine ++
    if semantic.isEmpty then []
    else ["", "Semantic actions:"] ++ semantic.map ("  " ++ ·)

def runActions (s : Surroundings m ς) (config : Option String) : ExceptT CommandError m Outcome := do
  let (_, installed) ← prepare s.files s.yaml config
  return verdict true (actionLines installed)

def validated (findings : List Finding) : Outcome :=
  verdict (!findings.any Finding.isProblem) (findings.map Finding.text)

def runValidate (s : Surroundings m ς) (location : String) (config : Option String) :
    ExceptT CommandError m Outcome := do
  let (settings, installed) ← prepare s.files s.yaml config
  let workflows ← compile s.files location settings installed.registry
  if workflows.isEmpty then return nothingFound location
  return validated (Finding.all installed workflows)

def linted (location : String) (violations : List LintViolation) : Outcome :=
  verdict violations.isEmpty <|
    if violations.isEmpty then [s!"✓ {location} is clean"]
    else
      (violations.flatMap fun v => [v.text, s!"    {v.line}"]) ++
        ["", s!"{violations.length} violation(s)"]

def runLint (fs : Storage m) (location : String) : ExceptT CommandError m Outcome := do
  expectPlace fs location
  return linted location (← loading (Loader.lint fs location))

def engineFor (s : Surroundings m ς) (settings : Settings) (installed : Installed)
    (evidence : Bool) : Engine (Bridge ς) Unit :=
  let browser := Bridge.browser s.json s.launcher.server
  { (Engine.ofInstalled installed Engine.noPlugin browser ⟨[], s.environment⟩).withSettings settings
    with collector := if evidence then some screenshotCollector else none }

def runAll (e : Engine (Bridge ς) Unit) (runName : String) :
    List Workflow → World (Bridge ς) → RunProgress → RunProgress × World (Bridge ς)
  | [], world, p => (p, world)
  | w :: rest, world, p =>
      match e.run w world () with
      | (.error error, world, _) => ({ p with error := some error }, world)
      | (.ok r, world, _) =>
          runAll e runName rest world
            ⟨p.lines ++ r.lines runName, p.success && r.success, r :: p.results, none⟩

/-- The report on results: one stands for itself, any other number is a list. -/
def report : List WorkflowResult → Value
  | [r] => r.toValue
  | results => .arr (results.map WorkflowResult.toValue)

def writeReport (fs : Storage m) (path : Option String) (p : RunProgress) : m Outcome :=
  match path with
  | none => return verdict p.success p.lines
  | some path => do
      match ← fs.write path (report p.results.reverse).wideText with
      | .ok () => return verdict p.success (p.lines ++ [s!"Report written to {path}"])
      | .error e => return { failure (.file e) with out := p.lines }

def runWorkflows (s : Surroundings m ς) (settings : Settings) (installed : Installed)
    (workflows : List Workflow) (path : Option String) (evidence : Bool) : m Outcome :=
  match s.launcher.launch settings.bridge with
  | .error e => return failure (.browser e)
  | .ok server =>
      match Bridge.start s.json s.launcher.server server settings.bridge with
      | (.error e, session) =>
          return { failure (.browser e) with requests := session.requests }
      | (.ok bridge, _) => do
          let e := engineFor s settings installed evidence
          let (p, world) := runAll e s.runName workflows (.start bridge) ⟨[], true, [], none⟩
          let (_, world) := e.shutdown world
          let outcome ← match p.error with
            | some error => pure { failure (.run error) with out := p.lines }
            | none => writeReport s.files path p
          return { outcome with requests := world.browser.session.requests }

def runRun (s : Surroundings m ς) (file : String) (config path : Option String)
    (evidence : Bool) : ExceptT CommandError m Outcome := do
  let (settings, installed) ← prepare s.files s.yaml config
  let workflows ← compile s.files file settings installed.registry
  if workflows.isEmpty then return nothingFound file
  ExceptT.lift (runWorkflows s settings installed workflows path evidence)

def execute (s : Surroundings m ς) (command : Command) : m Outcome := do
  let outcome ← (match command with
    | .run file config path evidence => runRun s file config path evidence
    | .validate location config => runValidate s location config
    | .lint location => runLint s.files location
    | .actions config => runActions s config
    | .version => return verdict true ["journey-actions 0.1.0"]
    | .help => return verdict true ["Compile and run user-journey workflows"]).run
  match outcome with
  | .ok outcome => return outcome
  | .error e => return failure e

def executeLine (s : Surroundings m ς) (words : List String) : m Outcome :=
  match Command.parse words with
  | .ok command => execute s command
  | .error e => return ⟨2, [], [s!"error: {e.message}"], []⟩

end Command
end Journey
