/-!
Storage: what the program asks of a file system. A file system is given by four operations, which
may have effects in a monad of its own.
-/

namespace Journey

inductive FileError where
  | notFound
  | notFolder
  | isFolder
  | notText
  | other (detail : String)
  deriving DecidableEq, Inhabited

def FileError.message : FileError → String
  | .notFound => "No such file or directory (os error 2)"
  | .notFolder => "Not a directory (os error 20)"
  | .isFolder => "Is a directory (os error 21)"
  | .notText => "stream did not contain valid UTF-8"
  | .other detail => detail

inductive EntryKind where
  | file
  | folder
  deriving DecidableEq, Inhabited

/-- A file system: the text of a file, the names in a folder, what a location is, and writing. -/
structure Storage (m : Type → Type) where
  read : String → m (Except FileError String)
  names : String → m (Except FileError (List String))
  kind : String → m (Option EntryKind)
  write : String → String → m (Except FileError Unit)

end Journey
