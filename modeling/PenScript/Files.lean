import PenScript.Text

/-!
# Files

Files are named by paths from a working directory. A directory that holds nothing but a list of
files answers every path: `.` and empty parts of a path do not matter, and a path through a file
leads nowhere.
-/

namespace PenScript

/-- Why a file cannot be read. -/
inductive FileProblem where
  | missing
  | isDirectory
  | notDirectory
  | denied
  /-- The bytes of the file are no text. -/
  | notText
deriving DecidableEq

/-- The wording of a file problem. -/
def FileProblem.message : FileProblem → Text
  | .missing => "No such file or directory (os error 2)".toList
  | .isDirectory => "Is a directory (os error 21)".toList
  | .notDirectory => "Not a directory (os error 20)".toList
  | .denied => "Permission denied (os error 13)".toList
  | .notText => "stream did not contain valid UTF-8".toList

/-- The contents of files by path. -/
abbrev Files := Text → Except FileProblem Text

namespace Files

/-- The parts of a path, without those that do not matter. -/
def parts (path : Text) : List Text :=
  (path.splitOn '/').filter fun part ↦ !part.isEmpty && part != ['.']

/-- A path that only a directory can have. -/
def namesDirectory (path : Text) : Bool :=
  path.getLast? == some '/' || "/.".toList.isSuffixOf path

/-- The files of a directory, given by path and contents. An absolute path leads out of the
directory, where nothing is known. -/
def ofList (entries : List (Text × Text)) : Files := fun path ↦
  let wanted := parts path
  if path.isEmpty || path.head? = some '/' then .error .missing
  else match entries.find? fun entry ↦ parts entry.1 == wanted with
    | some entry => if namesDirectory path then .error .notDirectory else .ok entry.2
    | none =>
        if entries.any fun entry ↦ (parts entry.1).isPrefixOf wanted then .error .notDirectory
        else if wanted.isEmpty || entries.any fun entry ↦ wanted.isPrefixOf (parts entry.1) then
          .error .isDirectory
        else .error .missing

end Files

end PenScript
