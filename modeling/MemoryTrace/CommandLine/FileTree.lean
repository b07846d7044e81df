import MemoryTrace.Text.Basic

namespace MemoryTrace.CommandLine

/-- What a path leads to. -/
inductive Found
  | file (content : String)
  | directory
  deriving DecidableEq, Repr

/-- Files and directories by the names that lead to them from the root. What a file lies in is a directory
too, and so is the root. -/
structure FileTree where
  files : List (List String × String) := []
  directories : List (List String) := []
  deriving DecidableEq, Repr

namespace FileTree

/-- What stands at the end of these names. -/
def at? (tree : FileTree) (names : List String) : Option Found :=
  match tree.files.lookup names with
  | some content => some (.file content)
  | none =>
    if names.isEmpty || tree.directories.any names.isPrefixOf || tree.files.any (names.isPrefixOf ·.1) then
      some .directory
    else none

/-- Goes on from a directory by one name. The empty name and `.` stay there, and `..` goes up, at the root
nowhere. -/
def walk (place : List String) (name : String) : List String :=
  if name = "" ∨ name = "." then place
  else if name = ".." then place.dropLast
  else place ++ [name]

/-- Where the names of a path lead from `place`, which must be there. Only a directory has anything beyond. -/
def follow? (tree : FileTree) (place : List String) : List String → Option Found
  | [] => tree.at? place
  | name :: rest =>
    match tree.at? place with
    | some .directory => tree.follow? (walk place name) rest
    | _ => none

/-- The bytes a path may take. One more is kept for its end. -/
def longestPath : Nat := 4095

/-- What a path leads to from the directory `here`, or from the root if it begins there. The empty path leads
nowhere, and neither does one that is too long. -/
def find? (tree : FileTree) (here : List String) (path : String) : Option Found :=
  match path.toList with
  | [] => none
  | c :: rest =>
    if longestPath < path.utf8ByteSize then none
    else tree.follow? (if c = '/' then [] else here) (((c :: rest).splitOnP (· = '/')).map Text.toName)

end FileTree

end MemoryTrace.CommandLine
