/-!
# The folder of a run

A run reads files by a path that starts in its own folder. Empty components and single dots in a
path change nothing. A path with a slash or a dot at its end asks for a folder, and a folder cannot
be read; neither can anything below a file.
-/

namespace DataFilter.CommandLine

/-- Why a file cannot be read. -/
inductive FileFault where
  | missing
  | isFolder
  | notFolder
  deriving DecidableEq, Repr

/-- The reason, as it is written. -/
def FileFault.message : FileFault → String
  | missing => "No such file or directory (os error 2)"
  | isFolder => "Is a directory (os error 21)"
  | notFolder => "Not a directory (os error 20)"

/-- The files below a folder, by their paths. -/
abbrev Folder := List (String × String)

/-- The names on a path. -/
def pathNames (path : String) : List String :=
  (path.splitOn "/").filter fun name => name ≠ "" ∧ name ≠ "."

/-- Whether a path can only lead to a folder. -/
def asksForFolder (path : String) : Bool :=
  let last := (path.splitOn "/").getLast?
  last = some "" || last = some "." || last = some ".."

/-- What the names lead to. The files below a folder make the folders between. -/
def Folder.find (folder : Folder) (names : List String) : Except FileFault String :=
  match folder.find? (pathNames ·.1 = names) with
  | some (_, text) => .ok text
  | none =>
    if folder.any fun file => (pathNames file.1).isPrefixOf names then .error .notFolder
    else if folder.any fun file => names.isPrefixOf (pathNames file.1) then .error .isFolder
    else .error .missing

/-- The text of the file at a path. Outside of the folder only the folders above it are known. -/
def Folder.read (folder : Folder) (path : String) : Except FileFault String :=
  let names := pathNames path
  if path = "" then .error .missing
  else if names.all (· = "..") then .error .isFolder
  else if path.toList.head? = some '/' || names.contains ".." then .error .missing
  else
    match folder.find names with
    | .ok text => if asksForFolder path then .error .notFolder else .ok text
    | .error fault => .error fault

end DataFilter.CommandLine
