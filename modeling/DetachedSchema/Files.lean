import DetachedSchema.Fault
import DetachedSchema.Text.Split

/-!
# Files

A tree of files with texts and other contents, seen from the directory in which a program runs.
Paths are followed name by name, and every name but the last has to be that of a directory.  Outside
of the directory there are the directories above it, in which nothing is known to be.
-/

namespace DetachedSchema

/-- The files and directories of a tree, each by the names that lead to it.  What is outside of the
tree has a place that starts with `..` or with `/`. -/
structure Files where
  contents : List (List String × ByteArray) := []
  directories : List (List String) := []

namespace Files

/-- Whether there is a directory at a place.  The top of the tree and all that is above it are
directories. -/
def isDirectory (files : Files) (place : List String) : Bool :=
  place.all (fun name => name = ".." || name = "/") || files.directories.contains place

/-- Refuses a place that is no directory. -/
def enter (files : Files) (place : List String) : Except FileProblem Unit :=
  if files.isDirectory place then .ok ()
  else if (files.contents.lookup place).isSome then .error .notDirectory
  else .error .notFound

/-- The directory above a place. -/
def above (place : List String) : List String :=
  match place.getLast? with
  | none | some ".." => place ++ [".."]
  | some "/" => place
  | some _ => place.dropLast

/-- The place that a name leads to from a directory. -/
def follow (files : Files) (place : List String) (name : String) :
    Except FileProblem (List String) := do
  files.enter place
  if name.utf8ByteSize > 255 then throw .nameTooLong
  return match name with
    | "." => place
    | ".." => above place
    | name => place ++ [name]

/-- The names of a path.  The path has to be one that the system takes. -/
def names (path : String) : Except FileProblem (List String) := do
  if path = "" then throw .notFound
  if path.toList.contains '\x00' then throw .nulInPath
  if path.utf8ByteSize ≥ 4096 then throw .nameTooLong
  return ((Text.split '/' path.toList).filter (!·.isEmpty)).map String.ofList

/-- The place where a path starts. -/
def start (path : String) : List String := if path.startsWith "/" then ["/"] else []

/-- The place that a path leads to. -/
def locate (files : Files) (path : String) : Except FileProblem (List String) := do
  (← names path).foldlM files.follow (start path)

/-- The content of a file. -/
def readBytes (files : Files) (path : String) : Except FileProblem ByteArray := do
  let place ← files.locate path
  if files.isDirectory place then throw .isDirectory
  match files.contents.lookup place with
  | none => throw .notFound
  | some bytes => if path.endsWith "/" then throw .notDirectory else return bytes

/-- The text of a file. -/
def read (files : Files) (path : String) : Except FileProblem String := do
  match String.fromUTF8? (← files.readBytes path) with
  | some text => return text
  | none => throw .notText

/-- The contents with another one at a place. -/
def put (place : List String) (bytes : ByteArray) :
    List (List String × ByteArray) → List (List String × ByteArray)
  | [] => [(place, bytes)]
  | (p, old) :: rest => if p = place then (p, bytes) :: rest else (p, old) :: put place bytes rest

/-- Writes a file, which need not exist before, in a directory that does.  A path that ends with a
slash is that of a directory, whatever its last name is. -/
def writeBytes (files : Files) (path : String) (bytes : ByteArray) : Except FileProblem Files := do
  if path.endsWith "/" then
    files.enter (← (← names path).dropLast.foldlM files.follow (start path))
    throw .isDirectory
  let place ← files.locate path
  if files.isDirectory place then throw .isDirectory
  return { files with contents := put place bytes files.contents }

/-- Writes a text to a file. -/
def write (files : Files) (path text : String) : Except FileProblem Files :=
  files.writeBytes path text.toUTF8

/-- Adds a directory together with those around it. -/
def addDirectory (files : Files) (place : List String) : Files :=
  let around := (List.range place.length).map fun n => place.take (n + 1)
  { files with directories := around ++ files.directories }

/-- Adds a file together with the directories around it. -/
def addFile (files : Files) (place : List String) (bytes : ByteArray) : Files :=
  let files := files.addDirectory place.dropLast
  { files with contents := put place bytes files.contents }

end Files

end DetachedSchema
