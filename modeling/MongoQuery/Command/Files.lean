import MongoQuery.Text.Parts

/-!
# Files

A tree of files is given by what stands at the place that a list of names leads to.
`FileTree.lookup` walks from name to name along a path, which may only pass through
directories, and ends at an entry or at a fault.  `OpenFault.message` says what the fault is.
-/

namespace MongoQuery.Command

/-- Why a path cannot be opened. -/
inductive OpenFault where
  /-- The path holds a NUL character. -/
  | nul
  /-- Nothing stands at a place on the path. -/
  | missing
  /-- The path goes on behind an entry that is no directory. -/
  | notDirectory
  /-- The path or a name on it is too long. -/
  | tooLong
  /-- The entry is not open to the program. -/
  | refused
  /-- The system gives another reason in its own words. -/
  | other (reason : String)
deriving DecidableEq, Repr

/-- The message about a path that cannot be opened. -/
def OpenFault.message : OpenFault → String
  | .nul => "file name contained an unexpected NUL byte"
  | .missing => "No such file or directory (os error 2)"
  | .notDirectory => "Not a directory (os error 20)"
  | .tooLong => "File name too long (os error 36)"
  | .refused => "Permission denied (os error 13)"
  | .other reason => reason

/-- What stands at a place. -/
inductive Entry where
  | file (text : String)
  | directory
deriving DecidableEq, Repr

/-- A tree of files. -/
structure FileTree where
  /-- What stands at the place that names lead to from the root. -/
  entry? : List String → Option Entry
  /-- The names that lead to the directory in which relative paths start. -/
  start : List String

namespace FileTree

/-- The greatest length of a path in bytes. -/
def maxPathLength : Nat := 4095

/-- The greatest length of a name in bytes. -/
def maxNameLength : Nat := 255

/-- Walks from a place from name to name.  An empty name and a point stay at a directory,
and two points lead to the one around it. -/
def walk (tree : FileTree) (place : List String) : List String → Except OpenFault Entry
  | [] =>
    match tree.entry? place with
    | none => .error .missing
    | some entry => .ok entry
  | name :: rest =>
    match tree.entry? place with
    | none => .error .missing
    | some (.file _) => .error .notDirectory
    | some .directory =>
      if name = "" ∨ name = "." then tree.walk place rest
      else if name = ".." then tree.walk place.dropLast rest
      else if maxNameLength < name.utf8ByteSize then .error .tooLong
      else tree.walk (place ++ [name]) rest

/-- The entry at a path, whose names are separated by slashes. -/
def lookup (tree : FileTree) (path : String) : Except OpenFault Entry :=
  if path.toList.any fun c => c.toNat = 0 then .error .nul
  else if path = "" then .error .missing
  else if maxPathLength < path.utf8ByteSize then .error .tooLong
  else tree.walk (if path.toList.head? = some '/' then [] else tree.start) (Text.split '/' path)

end FileTree

end MongoQuery.Command
