import Rollout.Json.Decoder
import Rollout.Number.Reading
import Rollout.Settings.Path
import Rollout.Settings.Basic
import Rollout.Toml.Document

/-!
# Sources of settings

Settings come from three sources: the defaults, a file, and environment variables.  Each gives raw
values under the names that stand at its top.

A file is in one of six formats, told by its extension.  Two of them, TOML and JSON, are read here.
How the others are read is left open: a reader of any format is a function from texts to tables
(`Readers`), and results on files hold whatever it is.
-/

namespace Rollout

namespace Settings

/-! ### Defaults -/

/-- The default settings as raw values.  The items of the application are not among them. -/
def defaults : Raw :=
  let s : Settings := {}
  .ofJson <| .object [("server", Server.form.toJson s.server),
    ("workflow", Workflow.form.toJson s.workflow),
    ("observability", Observability.form.toJson s.observability),
    ("steps", StepsConfig.form.toJson s.steps)]

/-! ### Files -/

/-- The formats of files. -/
inductive FileFormat where
  | toml
  | json
  | yaml
  | ini
  | ron
  | json5
  deriving DecidableEq, Repr

namespace FileFormat

def extensions : FileFormat → List String
  | toml => ["toml"]
  | json => ["json"]
  | yaml => ["yaml", "yml"]
  | ini => ["ini"]
  | ron => ["ron"]
  | json5 => ["json5"]

def all : List FileFormat := [toml, json, yaml, ini, ron, json5]

end FileFormat

/-- How a text in a format is read, if it can be. -/
abbrev Readers := FileFormat → String → Option (List (String × Raw))

/-- The readers at hand are those of TOML and JSON. -/
def Readers.atHand : Readers
  | .toml, text => (Toml.parse? text).map Raw.ofTomlMembers
  | .json, text =>
    match Json.parse text with
    | .ok (.object members) => some (Raw.ofJsonMembers members)
    | _ => none
  | .yaml, _ | .ini, _ | .ron, _ | .json5, _ => none

/-- A file name and the text of the file. -/
abbrev NamedText := String × String

/-- The parts of a path.  The current directory needs no mention. -/
def partsOf (path : String) : List String :=
  (if path.toList.head? = some '/' then ["/"] else []) ++
    (Text.split '/' path).filter fun p ↦ p ≠ "" && p ≠ "."

def textAt? (files : List NamedText) (path : String) : Option String :=
  (files.find? fun f ↦ partsOf f.1 == partsOf path).map (·.2)

/-- The extension of a path: what stands after the last dot of its last part, unless that dot
begins it. -/
def extensionOf? (path : String) : Option String :=
  match Text.split '.' ((partsOf path).getLastD "") with
  | [] | [_] | ["", _] => none
  | parts => parts.getLast?

/-- The settings files that a path may stand for, each with its format: the file that it names, or
else those that it names with an extension.  Which of these is found is not promised. -/
def candidates (files : List NamedText) (path : String) : List (FileFormat × String) :=
  match textAt? files path with
  | some text =>
    (FileFormat.all.filter fun f ↦ (extensionOf? path).any f.extensions.contains).map (·, text)
  | none =>
    FileFormat.all.flatMap fun f ↦ f.extensions.filterMap fun extension ↦
      (textAt? files (path ++ "." ++ extension)).map (f, ·)

def withoutMark (text : String) : String :=
  match text.toList with
  | '\ufeff' :: s => String.ofList s
  | _ => text

/-- The raw values of a settings file. -/
def Readers.read? (readers : Readers) (file : FileFormat × String) : Option (List (String × Raw)) :=
  readers file.1 (withoutMark file.2)

/-! ### Environment variables -/

/-- What the names of the variables begin with, in any case. -/
def variableMark : List Char := "cluster_installer_".toList

def dotted : List Char → List Char
  | '_' :: '_' :: rest => '.' :: dotted rest
  | c :: rest => c :: dotted rest
  | [] => []

def settingOf? (name : String) : Option String := do
  let rest ← Text.readWord? variableMark (Raw.folded name).toList
  some (String.ofList (dotted rest))

/-- The setting that is a list of texts with commas between them. -/
def listSetting : String := "steps.infra_components"

/-- The value that a text stands for: a truth value or a number if it reads as one. -/
def ofText (setting text : String) : Raw :=
  if Raw.folded text = "true" then .bool true
  else if Raw.folded text = "false" then .bool false
  else
    match wholeNumber? text.toList, Binary64.ofText? text.toList with
    | some n, _ => .int n
    | none, some x => .double x
    | none, none =>
      if setting = listSetting then .list ((Text.split ',' text).map .text) else .text text

/-- The raw values of the variables that override settings, by setting. -/
def ofEnvironment (environment : List (String × String)) : List (String × Raw) :=
  (Dict.ofList <| environment.filterMap fun (name, text) ↦
    (settingOf? name).map fun setting ↦ (setting, ofText setting text)).entries

end Settings
end Rollout
