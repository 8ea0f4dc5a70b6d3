import Journey.Resolve
import Journey.Value
import Journey.Workflow

/-!
The context of a run: values by name, written by variables and steps and looked up by dotted paths,
the position in the workflow, the counts of resolutions, and the root cause of failure, which stays
once it is recorded.
-/

namespace Journey

inductive ErrorKind where
  | resolution
  | actionExecution
  | assertion
  | expansion
  | expression
  | timeout
  | config
  | cancelled
  deriving DecidableEq, Inhabited

def ErrorKind.name : ErrorKind → String
  | .resolution => "resolution"
  | .actionExecution => "action_execution"
  | .assertion => "assertion"
  | .expansion => "expansion"
  | .expression => "expression"
  | .timeout => "timeout"
  | .config => "config"
  | .cancelled => "cancelled"

def ErrorKind.all : List ErrorKind :=
  [.resolution, .actionExecution, .assertion, .expansion, .expression, .timeout, .config,
    .cancelled]

structure RecordedError where
  kind : ErrorKind
  message : String
  keyword : String
  source : Option SourceRef
  deriving DecidableEq

/-- Look-up by path: a value under the whole path as its key comes first, then the walk into
objects along the words between the points. -/
def Value.walk : Value → List String → Option Value
  | v, [] => some v
  | v, key :: rest => (v.field? key).bind fun w => w.walk rest

namespace Path

def words (path : String) : List String := (Text.splitOn '.' path.toList).map String.ofList

def walk? (data : List (String × Value)) (path : String) : Option Value :=
  match words path with
  | [] => none
  | first :: rest => (Dict.find? data first).bind fun v => v.walk rest

def lookup (data : List (String × Value)) (path : String) : Option Value :=
  match Dict.find? data path with
  | some v => some v
  | none => walk? data path

end Path

structure Context where
  phase : Option String
  step : Option Nat
  data : Dict Value
  lastError : Option RecordedError
  metrics : LocatorMetrics
  deriving DecidableEq

namespace Context

def empty : Context := ⟨none, none, [], none, .zero⟩

def set (c : Context) (key : String) (value : Value) : Context :=
  { c with data := Dict.insert key value c.data }

def get? (c : Context) (key : String) : Option Value := Dict.find? c.data key

def lookup (c : Context) (path : String) : Option Value := Path.lookup c.data path

def fieldsAt (c : Context) (key : String) : List (String × Value) :=
  match c.get? key with
  | some (.obj fields) => fields
  | _ => []

def setOutputs (c : Context) (id : String) (outputs : List (String × Value)) : Context :=
  c.set id (.obj (Dict.insertAll (c.fieldsAt id) outputs))

def recordRootCause (c : Context) (error : RecordedError) : Context :=
  match c.lastError with
  | some _ => c
  | none => { c with lastError := some error }

/-- Whether a value is anything but absent, null, false, zero, empty, or text for one of these. -/
def isTruthy (c : Context) (path : String) : Bool :=
  match c.lookup path with
  | none | some .null => false
  | some (.bool b) => b
  | some (.int i) => i != 0
  | some (.float x) => !x.isZero
  | some (.str s) =>
      s != "" && s != "false" && s != "0" &&
        String.ofList (s.toList.map Char.toLower) != "null"
  | some (.arr items) => !items.isEmpty
  | some (.obj fields) => !fields.isEmpty

end Context
end Journey
