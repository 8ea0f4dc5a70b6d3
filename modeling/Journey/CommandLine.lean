import Journey.Text.Blank

/-!
Command lines: the four commands with their options. Options may stand before or after the place
they go with, a value follows its option or an equals sign, and everything after two hyphens is a
place. Nothing may be given twice, save what may stand both before and after the command.
-/

namespace Journey

inductive Command where
  | run (file : String) (config report : Option String) (evidence : Bool)
  | validate (location : String) (config : Option String)
  | lint (location : String)
  | actions (config : Option String)
  | version
  | help
  deriving DecidableEq

inductive UsageError where
  | noCommand
  | unknownCommand (word : String)
  | unexpected (word : String)
  | noValue (option : String)
  | repeated (option : String)
  | noPlace
  deriving DecidableEq

def UsageError.message : UsageError → String
  | .noCommand => "a command is required: run, validate, lint or actions"
  | .unknownCommand word => s!"unrecognized subcommand '{word}'"
  | .unexpected word => s!"unexpected argument '{word}' found"
  | .noValue option => s!"a value is required for '{option}' but none was supplied"
  | .repeated option => s!"the argument '{option}' cannot be used multiple times"
  | .noPlace => "a path is required"

namespace CommandLine

inductive CommandName where
  | run
  | validate
  | lint
  | actions
  deriving DecidableEq

def CommandName.ofWord? : String → Option CommandName
  | "run" => some .run
  | "validate" => some .validate
  | "lint" => some .lint
  | "actions" => some .actions
  | _ => none

inductive OptionName where
  | verbose
  | config
  | report
  | noEvidence
  | version
  | help
  deriving DecidableEq

namespace OptionName

def takesValue : OptionName → Bool
  | config | report => true
  | verbose | noEvidence | version | help => false

def long : OptionName → String
  | verbose => "--verbose"
  | config => "--config"
  | report => "--report"
  | noEvidence => "--no-evidence"
  | version => "--version"
  | help => "--help"

def all : List OptionName := [verbose, config, report, noEvidence, version, help]

def ofLong? (word : String) : Option OptionName := all.find? fun o => o.long = word

def ofShort? : Char → Option OptionName
  | 'v' => some verbose
  | 'c' => some config
  | 'r' => some report
  | 'V' => some version
  | 'h' => some help
  | _ => none

def fits : Option CommandName → OptionName → Bool
  | _, verbose | _, help | none, version => true
  | some .run, config | some .validate, config | some .actions, config => true
  | some .run, report | some .run, noEvidence => true
  | _, _ => false

end OptionName

/-- What has been read so far; of the options, `config` and `report` come with their values. -/
structure Draft where
  command : Option CommandName
  place : Option String
  options : List (OptionName × String)
  deriving DecidableEq

namespace Draft

def empty : Draft := ⟨none, none, []⟩

def given (d : Draft) (o : OptionName) : Bool := (d.options.lookup o).isSome

def value? (d : Draft) (o : OptionName) : Option String := d.options.lookup o

def addOption (d : Draft) (o : OptionName) (value : String) : Except UsageError Draft :=
  if !o.fits d.command then .error (.unexpected o.long)
  else if d.given o then .error (.repeated o.long)
  else if o.takesValue && value.isEmpty then .error (.noValue o.long)
  else .ok { d with options := (o, value) :: d.options }

/-- Takes a word that is no option: the command, and then the place it is about. What has been given
before the command counts no more after it. -/
def addWord (d : Draft) (word : String) : Except UsageError Draft :=
  match d.command with
  | none =>
      match CommandName.ofWord? word with
      | some name => .ok { d with command := some name, options := [] }
      | none => .error (.unknownCommand word)
  | some name =>
      if name = .actions || d.place.isSome then .error (.unexpected word)
      else if word.isEmpty then .error .noPlace
      else .ok { d with place := some word }

end Draft

inductive Piece where
  | plain (word : String)
  | rest
  | long (word : String) (value : Option String)
  | short (letters : List Char)
  deriving DecidableEq

def splitValue (cs : List Char) : String × Option String :=
  let name := cs.takeWhile (· != '=')
  (String.ofList name,
    match cs.drop name.length with
    | [] => none
    | _ :: value => some (String.ofList value))

def Piece.ofWord (word : String) : Piece :=
  match word.toList with
  | ['-', '-'] => .rest
  | '-' :: '-' :: _ =>
      let (name, value) := splitValue word.toList
      .long name value
  | '-' :: c :: letters => .short (c :: letters)
  | _ => .plain word

def isValueWord (word : String) : Bool :=
  match Piece.ofWord word with
  | .plain _ => true
  | .rest | .long _ _ | .short _ => false

/-- The value of an option: what is joined to it, or the next word; and the words left. -/
def takeValue (o : OptionName) (joined : Option String) (words : List String) :
    Except UsageError (String × List String) :=
  match joined, words with
  | some value, words => .ok (value, words)
  | none, word :: words => if isValueWord word then .ok (word, words) else .error (.noValue o.long)
  | none, [] => .error (.noValue o.long)

def joinedValue : List Char → Option String
  | [] => none
  | '=' :: value => some (String.ofList value)
  | value => some (String.ofList value)

/-- Takes the short options of one word; the first that needs a value takes the letters left. -/
def addShort (d : Draft) (words : List String) :
    List Char → Except UsageError (Draft × List String)
  | [] => .ok (d, words)
  | c :: letters =>
      match OptionName.ofShort? c with
      | none => .error (.unexpected (String.ofList ['-', c]))
      | some o =>
          if !o.fits d.command then .error (.unexpected o.long)
          else if o.takesValue then
            match takeValue o (joinedValue letters) words with
            | .error e => .error e
            | .ok (value, words) => (d.addOption o value).map fun d => (d, words)
          else
            match d.addOption o "" with
            | .error e => .error e
            | .ok d => addShort d words letters

def addLong (d : Draft) (words : List String) (word : String) (value : Option String) :
    Except UsageError (Draft × List String) :=
  match OptionName.ofLong? word with
  | none => .error (.unexpected word)
  | some o =>
      if !o.fits d.command then .error (.unexpected word)
      else if o.takesValue then
        match takeValue o value words with
        | .error e => .error e
        | .ok (value, words) => (d.addOption o value).map fun d => (d, words)
      else if value.isSome then .error (.unexpected word)
      else (d.addOption o "").map fun d => (d, words)

/-- Reads the words one after another; each piece takes at least one, so `fuel` above their number
is enough. Help and version end the reading. -/
def readFrom : (fuel : Nat) → Draft → List String → Except UsageError Draft
  | 0, d, _ => .ok d
  | _, d, [] => .ok d
  | fuel + 1, d, word :: words =>
      let next : Except UsageError (Draft × List String) :=
        match Piece.ofWord word with
        | .plain word => (d.addWord word).map fun d => (d, words)
        | .rest => (words.foldlM Draft.addWord d).map fun d => (d, [])
        | .long name value => addLong d words name value
        | .short letters => addShort d words letters
      match next with
      | .error e => .error e
      | .ok (d, words) =>
          if d.given .help || d.given .version then .ok d else readFrom fuel d words

def finish (d : Draft) : Except UsageError Command :=
  if d.given .help then .ok .help
  else if d.given .version then .ok .version
  else
    match d.command, d.place with
    | none, _ => .error .noCommand
    | some .actions, _ => .ok (.actions (d.value? .config))
    | some _, none => .error .noPlace
    | some .run, some file =>
        .ok (.run file (d.value? .config) (d.value? .report) (!d.given .noEvidence))
    | some .validate, some location => .ok (.validate location (d.value? .config))
    | some .lint, some location => .ok (.lint location)

end CommandLine

def Command.parse (words : List String) : Except UsageError Command :=
  match CommandLine.readFrom (words.length + 1) .empty words with
  | .error e => .error e
  | .ok d => CommandLine.finish d

end Journey
