import DetachedSchema.Text.Split

/-!
# File paths

The parts of the path of a file.  Slashes separate the names of directories; empty names and single
dots between them have no meaning.
-/

namespace DetachedSchema.FilePath

/-- The names of a path that have a meaning. -/
def names (path : String) : List String :=
  ((Text.split '/' path.toList).map String.ofList).filter fun part => part ≠ "" && part ≠ "."

/-- The last name of a path, unless it leads to the directory above. -/
def fileName? (path : String) : Option String := (names path).getLast?.filter (· ≠ "..")

/-- What is behind the last dot of the last name of a path, unless the name starts with that dot. -/
def extension? (path : String) : Option String := do
  let name := (← fileName? path).toList.reverse
  match name.span (· ≠ '.') with
  | (_, []) | (_, [_]) => none
  | (extension, _) => some (String.ofList extension.reverse)

end DetachedSchema.FilePath
