import MagicLaw.Lib.Text

/-!
# Paths

`std::path::Path` on Unix, as far as a path is read as a text: its components,
its parent, its file name, and a path with a name put to it.  Where two
separators follow each other, or a dot stands alone between two of them, the
texts here have one separator.
-/

namespace Lib.Paths

open Lib.Text (split)

/-- `Path::has_root` -/
def hasRoot (path : String) : Bool := path.toList.head? = some '/'

/-- `Path::components` without the root: a dot counts at the start of a relative
path only. -/
def components (path : String) : List String :=
  match (split '/' path).filter (· ≠ "") with
  | "." :: rest => if hasRoot path then rest.filter (· ≠ ".") else "." :: rest.filter (· ≠ ".")
  | parts => parts.filter (· ≠ ".")

/-- `Path::parent` -/
def parent (path : String) : Option String :=
  match components path with
  | [] => none
  | parts => some ((if hasRoot path then "/" else "") ++ "/".intercalate parts.dropLast)

/-- `Path::file_name` -/
def fileName (path : String) : Option String :=
  (components path).getLast?.filter fun part => part ≠ "." && part ≠ ".."

/-- `Path::join` with a name. -/
def join (dir name : String) : String :=
  if dir.toList.getLast? = some '/' then dir ++ name else dir ++ "/" ++ name

example : parent "data/magiclaw.db" = some "data" ∧ parent "magiclaw.db" = some "" ∧
    parent "/" = none := by
  decide +kernel

end Lib.Paths
