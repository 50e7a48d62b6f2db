/-
Directories held in memory: what a path leads to in them, and what is
wrong when it leads to no file.

A path is followed part by part. Empty parts and `.` stay where they are
and `..` goes back, also out of the directory; outside there are nothing
but directories, and none of them has a name. The limits are those of the
usual file systems.
-/
import TreeCheck.Failure

namespace TreeCheck

/-- What has a name in a directory. -/
inductive Entry where
  | directory
  | file (bytes : List UInt8)
deriving DecidableEq, Repr

/-- A directory: what is in it and in its subdirectories, by the parts of
the path to it. Of entries at one place the first counts. -/
structure Directory where
  entries : List (List String × Entry) := []
deriving DecidableEq, Repr

namespace Directory

/-- There is nothing of that name. -/
def notFound : FileError := ⟨"No such file or directory", some 2⟩

/-- A directory stands where a file was to be read. -/
def isDirectory : FileError := ⟨"Is a directory", some 21⟩

/-- A file stands where the path goes on. -/
def notDirectory : FileError := ⟨"Not a directory", some 20⟩

/-- A path or a part of it is too long. -/
def tooLong : FileError := ⟨"File name too long", some 36⟩

/-- No path holds a zero character. -/
def zeroInPath : FileError := ⟨"file name contained an unexpected NUL byte", none⟩

/-- The greatest length of a part of a path, in bytes. -/
def longestPart : Nat := 255

/-- The greatest length of a path, in bytes. -/
def longestPath : Nat := 4095

-- ================================================================ places

/-- Where a path has led so far. -/
inductive Place where
  | within (parts : List String)
  | outside
deriving DecidableEq, Repr

/-- The place that `..` leads to. -/
def Place.back : Place → Place
  | .within [] | .outside => .outside
  | .within parts => .within parts.dropLast

/-- The parts of a path that lead somewhere. -/
def parts (path : String) : List String :=
  (path.splitOn "/").filter fun part => part ≠ "" ∧ part ≠ "."

-- =============================================================== writing

/-- The places that the parts of a path lead through to its end. -/
def places (passed : List String) : List String → List (List String)
  | [] => []
  | part :: rest =>
    let next := if part = ".." then passed.dropLast else passed ++ [part]
    next :: places next rest

/-- Puts an entry at the end of a path, which becomes a path of
directories. -/
def put (d : Directory) (path : String) (e : Entry) : Directory :=
  match (places [] (parts path)).reverse with
  | [] => d
  | last :: through => ⟨(last, e) :: through.map (·, .directory) ++ d.entries⟩

/-- The directory that is made by putting entries one after another. -/
def ofList (entries : List (String × Entry)) : Directory :=
  entries.foldl (fun d (path, e) => d.put path e) {}

-- =============================================================== reading

/-- What has a name at a place. -/
def find (d : Directory) (place : Place) (part : String) : Except FileError Entry :=
  if longestPart < part.utf8ByteSize then .error tooLong
  else match place with
    | .outside => .error notFound
    | .within passed => (d.entries.lookup (passed ++ [part])).elim (.error notFound) .ok

/-- The place of a part of some place. -/
def Place.enter (place : Place) (part : String) : Place :=
  match place with
  | .within passed => .within (passed ++ [part])
  | .outside => .outside

/-- Follows the parts of a path that are left. A file must be the last. -/
def follow (d : Directory) (place : Place) : List String → Except FileError (List UInt8)
  | [] => .error isDirectory
  | part :: rest =>
    if part = "" ∨ part = "." then follow d place rest
    else if part = ".." then follow d place.back rest
    else match d.find place part with
      | .error e => .error e
      | .ok (.file bytes) => if rest.isEmpty then .ok bytes else .error notDirectory
      | .ok .directory => follow d (place.enter part) rest

/-- The bytes of the file that a path leads to. The empty path leads
nowhere, and a path that begins with a slash begins outside. -/
def read (d : Directory) (path : String) : Except FileError (List UInt8) :=
  if path.toList.contains '\x00' then .error zeroInPath
  else if path = "" then .error notFound
  else if longestPath < path.utf8ByteSize then .error tooLong
  else if path.toList.head? = some '/' then d.follow .outside (path.splitOn "/")
  else d.follow (.within []) (path.splitOn "/")

end Directory

end TreeCheck
