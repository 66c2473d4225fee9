import Rollout.Settings.Source
import Rollout.Toml.OfJson
import Rollout.Toml.Printer
import Rollout.Workflow.Plan

/-!
# Loading and saving settings

The sources are laid over each other, the later ones over the earlier: the defaults, the file, the
environment variables.  What comes out is given its types and checked.

`load` reads TOML and JSON and goes through the keys in ascending order.  With a reader for each
format and with keys in whatever order, the settings that may come out are those of `Loads`.
-/

namespace Rollout

namespace Settings

inductive LoadError where
  /-- A source cannot be read. -/
  | unreadable
  /-- A value is not of the type of its setting. -/
  | unfit
  | invalid (p : Problem)
  deriving DecidableEq, Repr

def LoadError.message : LoadError → String
  | unreadable => "Failed to read installer configuration"
  | unfit => "Invalid installer configuration"
  | invalid p => p.message

def defaultFile : String := "cluster-installer.toml"

/-- The raw values of the file: the named one, which has to be there, or the default one. -/
def fileLayer (files : List NamedText) (path : Option String) :
    Except LoadError (List (String × Raw)) :=
  match path, textAt? files defaultFile with
  | none, none => .ok []
  | path, _ =>
    match (candidates files (path.getD defaultFile)).head?.bind Readers.atHand.read? with
    | some layer => .ok layer
    | none => .error .unreadable

/-- The settings that raw values give, if they can be used. -/
def ofRaw (root : Raw) : Except LoadError Settings :=
  match form.ofRaw? root with
  | none => .error .unfit
  | some s =>
    match s.validate with
    | .ok () => .ok s
    | .error p => .error (.invalid p)

/-- The settings that come of a file and of what variables override, laid over the defaults. -/
def ofLayers (file source : List (String × Raw)) : Except LoadError Settings :=
  ofRaw (Raw.layOver source (Raw.layOver file defaults))

/-- Load the settings from the file under `path`, if one is named, and from the environment. -/
def load (files : List NamedText) (path : Option String) (environment : List (String × String)) :
    Except LoadError Settings := do
  let file ← fileLayer files path
  ofLayers file (ofEnvironment environment)

/-! ### Any order -/

/-- What variables override, when they and the settings that they name are gone through in some
order. -/
def Overrides (environment : List (String × String)) (source : List (String × Raw)) : Prop :=
  ∃ given, given.Perm environment ∧ source.Perm (ofEnvironment given)

/-- The result may come of a file and an environment when their keys are gone through in some
order. -/
def ComesOf (file : List (String × Raw)) (environment : List (String × String))
    (result : Except LoadError Settings) : Prop :=
  ∃ layer source, Raw.Reordered file layer ∧ Overrides environment source ∧
    ofLayers layer source = result

/-- The raw values may be those of the file. -/
def FileGives (readers : Readers) (files : List NamedText) (path : Option String)
    (file : List (String × Raw)) : Prop :=
  if path = none ∧ textAt? files defaultFile = none then file = []
  else ∃ c ∈ candidates files (path.getD defaultFile), readers.read? c = some file

/-- The settings may be loaded: from a file in any format, with keys in any order. -/
def Loads (readers : Readers) (files : List NamedText) (path : Option String)
    (environment : List (String × String)) (s : Settings) : Prop :=
  ∃ file, FileGives readers files path file ∧ ComesOf file environment (.ok s)

/-- What a controller takes from the settings of the workflow. -/
def options (s : Settings) : Options where
  target := s.workflow.target
  airgap := s.workflow.airgap
  allowIgnoreHost := s.workflow.allowIgnoreHost
  allowIgnoreApp := s.workflow.allowIgnoreApp

/-! ### Saving -/

/-- A record as a table; absent members are left out. -/
def tableOf? : Json → Option Toml
  | .object members =>
    (Toml.membersOfJson? (members.filter fun m ↦ m.2 != .null)).map .table
  | _ => none

def toToml? (s : Settings) : Option (List (String × Toml)) := do
  let server ← tableOf? (Server.form.toJson s.server)
  let workflow ← tableOf? (Workflow.form.toJson s.workflow)
  let observability ← tableOf? (Observability.form.toJson s.observability)
  let steps ← tableOf? (StepsConfig.form.toJson s.steps)
  let items ← s.appConfig.items.mapM fun i ↦ tableOf? i.toJson
  some [("server", server), ("workflow", workflow), ("observability", observability),
    ("steps", steps), ("app_config", .table [("items", .array items)])]

def toText? (s : Settings) : Option String := s.toToml?.map Toml.print

end Settings
end Rollout
