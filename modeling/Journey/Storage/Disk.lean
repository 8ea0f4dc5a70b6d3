import Journey.Location
import Journey.Storage

/-!
A file system in memory: folders and files by their place, which is the row of names that leads to
them from the top. Locations are relative to the top, and nothing lies above it.
-/

namespace Journey

/-- A folder, or a file, whose content need not be text. -/
inductive DiskEntry where
  | folder
  | file (text : Option String)
  deriving DecidableEq, Inhabited

structure Disk where
  entries : List (List String × DiskEntry)

namespace Disk

def empty : Disk := ⟨[]⟩

/-- What lies at a place; the top is a folder. -/
def entry? (d : Disk) (place : List String) : Option DiskEntry :=
  match place with
  | [] => some .folder
  | place => d.entries.lookup place

def set (d : Disk) (place : List String) (entry : DiskEntry) : Disk :=
  ⟨(place, entry) :: d.entries.filter fun e => e.1 != place⟩

def addFolders (d : Disk) (done : List String) : List String → Disk
  | [] => d
  | name :: rest =>
      let place := done ++ [name]
      let d := if (d.entry? place).isSome then d else d.set place .folder
      addFolders d place rest

def addFolder (d : Disk) (place : List String) : Disk := d.addFolders [] place

def addFile (d : Disk) (place : List String) (text : Option String) : Disk :=
  (d.addFolder place.dropLast).set place (.file text)

/-- Follows the words of a location from a place, which has to be a folder for every next word. -/
def follow (d : Disk) (place : List String) : List String → Except FileError (List String)
  | [] => .ok place
  | word :: rest =>
      match d.entry? place with
      | none => .error .notFound
      | some (.file _) => .error .notFolder
      | some .folder =>
          if word.isEmpty || word = "." then d.follow place rest
          else if word = ".." then
            if place.isEmpty then .error .notFound else d.follow place.dropLast rest
          else d.follow (place ++ [word]) rest

def place (d : Disk) (location : String) : Except FileError (List String) :=
  if location.isEmpty || Location.isAbsolute location then .error .notFound
  else d.follow [] (Location.segments location)

def find (d : Disk) (location : String) : Except FileError (List String × DiskEntry) :=
  match d.place location with
  | .error e => .error e
  | .ok place =>
      match d.entry? place with
      | some entry => .ok (place, entry)
      | none => .error .notFound

def read (d : Disk) (location : String) : Except FileError String :=
  match d.find location with
  | .error e => .error e
  | .ok (_, .folder) => .error .isFolder
  | .ok (_, .file none) => .error .notText
  | .ok (_, .file (some text)) => .ok text

def namesAt (d : Disk) (place : List String) : List String :=
  d.entries.filterMap fun (other, _) =>
    if other.dropLast = place then other.getLast? else none

def names (d : Disk) (location : String) : Except FileError (List String) :=
  match d.find location with
  | .error e => .error e
  | .ok (place, .folder) => .ok (d.namesAt place)
  | .ok (_, .file _) => .error .notFolder

def kind (d : Disk) (location : String) : Option EntryKind :=
  match d.find location with
  | .ok (_, .folder) => some .folder
  | .ok (_, .file _) => some .file
  | .error _ => none

def write (d : Disk) (location text : String) : Except FileError Disk :=
  match d.place location with
  | .error e => .error e
  | .ok place =>
      if d.entry? place = some .folder then .error .isFolder
      else .ok (d.set place (.file (some text)))

def storage : Storage (StateM Disk) where
  read location := return (← get).read location
  names location := return (← get).names location
  kind location := return (← get).kind location
  write location text := do
    match (← get).write location text with
    | .ok d =>
        modify fun _ => d
        return .ok ()
    | .error e => return .error e

end Disk
end Journey
