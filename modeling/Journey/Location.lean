import Journey.Text.Blank

/-!
Locations: the names of files and folders, made of words between slashes. One that begins with a
slash is absolute, any other is relative to some folder.
-/

namespace Journey.Location

def isAbsolute (location : String) : Bool := Text.startsWith ['/'] location.toList

def segments (location : String) : List String :=
  (Text.splitOn '/' location.toList).map String.ofList

/-- A location as seen from a folder; an absolute one stays as it is. -/
def join (folder location : String) : String :=
  if isAbsolute location || folder.isEmpty then location
  else if folder.toList.getLast? = some '/' then folder ++ location
  else folder ++ "/" ++ location

/-- Drops what stands for no word of its own at the end: nothing between two slashes, or one point
that is not the first word. -/
def dropIdle : (reversed : List String) → List String
  | [] => []
  | [first] => [first]
  | last :: before :: rest =>
      if last.isEmpty || last = "." then dropIdle (before :: rest) else last :: before :: rest

def parent (location : String) : String :=
  match dropIdle (segments location).reverse with
  | [] | [_] => ""
  | _ :: before =>
      match dropIdle before with
      | [""] => "/"
      | before => "/".intercalate before.reverse

/-- Whether a file name ends in a point and `extension`, after something else. -/
def hasExtension (extension name : String) : Bool :=
  match Text.after? (extension.toList.reverse ++ ['.']) name.toList.reverse with
  | some stem => !stem.isEmpty
  | none => false

end Journey.Location
