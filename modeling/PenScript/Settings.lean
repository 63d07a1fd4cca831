import PenScript.Options
import PenScript.Toml.Statement

/-!
# Settings

The settings of a program are read from a file with two sections, one for running programs and one
for sessions. Every section and every key may be missing, none may be given twice, and no other may
be given. A section is a table under its header, a table on one line, or keys with the name of the
section in front; a list gives its values in the order of its keys.
-/

namespace PenScript

/-- The settings: how programs are run, and the history file of a session. -/
structure Settings where
  options : Options := {}
  historyFile : Text := ".boose_history".toList
deriving DecidableEq

namespace Settings

/-- The sections of a settings file. -/
inductive Section where
  | run
  | repl
deriving DecidableEq

/-- The name of a section. -/
def Section.name : Section → Text
  | .run => "run".toList
  | .repl => "repl".toList

/-- The section of a name. -/
def Section.ofName? (name : Text) : Option Section :=
  [Section.run, .repl].find? fun part ↦ part.name == name

/-- The keys of a section, in order. -/
def Section.keys : Section → List Text
  | .run => ["strict".toList, "max_call_depth".toList]
  | .repl => ["history_file".toList]

/-- The settings with the value of a key, when the section has the key and the key takes the
value. -/
def assign? (settings : Settings) (part : Section) (key : Text) (value : Toml.Value) :
    Option Settings :=
  match part, String.ofList key, value with
  | .run, "strict", .boolean strict =>
      some { settings with options := { settings.options with strict := strict } }
  | .run, "max_call_depth", .integer number =>
      (Integer.toNat? number).map fun depth ↦
        { settings with options := { settings.options with maxCallDepth := depth } }
  | .repl, "history_file", .string file => some { settings with historyFile := file }
  | _, _, _ => none

/-- What is known in the middle of a file: the settings so far, the keys that have been given, the
sections that were given as a whole, and the section of the last header. -/
structure Draft where
  settings : Settings
  given : List (Section × Text)
  closed : List Section
  current : Option Section

namespace Draft

/-- Nothing has been given yet. -/
def start : Draft := ⟨{}, [], [], none⟩

/-- The draft with the value of a key that has not been given yet. -/
def assign? (draft : Draft) (part : Section) (key : Text) (value : Toml.Value) : Option Draft :=
  if draft.given.contains (part, key) then none
  else (draft.settings.assign? part key value).map fun settings ↦
    { draft with settings := settings, given := (part, key) :: draft.given }

/-- The draft after a section that is given as a whole, of which nothing has been given yet. -/
def close? (draft : Draft) (part : Section) : Option Draft :=
  if draft.closed.contains part || draft.given.any (·.1 == part) then none
  else some { draft with closed := part :: draft.closed }

/-- The draft with a section that is the value of its name. A list may be longer than the keys. -/
def assignWhole? (draft : Draft) (part : Section) (value : Toml.Value) : Option Draft := do
  let closed ← draft.close? part
  match value with
  | .table entries =>
      entries.foldlM
        (fun draft entry ↦ match entry with
          | ([key], value) => draft.assign? part key value
          | _ => none)
        closed
  | .array items =>
      (part.keys.zip items).foldlM (fun draft entry ↦ draft.assign? part entry.1 entry.2) closed
  | _ => none

/-- The draft after a statement. -/
def add? (draft : Draft) (statement : Toml.Statement) : Option Draft :=
  match statement, draft.current with
  | .header [name], _ => do
      let part ← Section.ofName? name
      let closed ← draft.close? part
      pure { closed with current := some part }
  | .assign [key] value, some part => draft.assign? part key value
  | .assign [name] value, none => do
      let part ← Section.ofName? name
      draft.assignWhole? part value
  | .assign [name, key] value, none => do
      let part ← Section.ofName? name
      if draft.closed.contains part then none
      draft.assign? part key value
  | _, _ => none

end Draft

/-- The settings in the text of a file. -/
def ofText? (text : Text) : Option Settings := do
  let statements ← Toml.ofText? text
  let draft ← statements.foldlM Draft.add? .start
  pure draft.settings

/-- The path of the history file, if there is one. A path that is not absolute starts at the home
directory. -/
def historyPath (settings : Settings) (home : Text) : Option Text :=
  match settings.historyFile with
  | [] => none
  | '/' :: rest => some ('/' :: rest)
  | relative => some (home ++ '/' :: relative)

end Settings

end PenScript
