import Rollout.Dict
import Rollout.Settings.Form
import Rollout.Text.Blank
import Rollout.Validation

/-!
# The configuration of the application

An application declares the items that can be configured.  Clients submit patches of values; the
values of all accepted patches, with the defaults filled in, are what the application is deployed
with.
-/

namespace Rollout

/-- Values under the names of items. -/
abbrev ConfigValues := Dict Json

def ConfigValues.toJson (v : ConfigValues) : Json := .object v.entries

/-- The kind of value that an item takes. -/
inductive ItemKind where
  | text
  | bool
  | number
  deriving DecidableEq, Repr, Inhabited

namespace ItemKind

def name : ItemKind → String
  | text => "text"
  | bool => "bool"
  | number => "number"

def noun : ItemKind → String
  | text => "text"
  | bool => "a boolean"
  | number => "a number"

def names : List (String × ItemKind) := [("text", text), ("bool", bool), ("number", number)]

def accepts : ItemKind → Json → Bool
  | text, .string _ => true
  | bool, .bool _ => true
  | number, .number _ => true
  | _, _ => false

def decoder : Json.Decoder ItemKind := .oneOf names

end ItemKind

/-- An item that can be configured. -/
structure AppConfigItem where
  name : String := ""
  kind : ItemKind := .text
  required : Bool := false
  default : Option Json := none
  deriving Repr, Inhabited, BEq

namespace AppConfigItem

def form : Form AppConfigItem :=
  .record {}
    [.needed "name" .text (·.name) fun v i ↦ { i with name := v },
      .defaulted "kind" (.oneOf ItemKind.name ItemKind.names) (·.kind)
        fun v i ↦ { i with kind := v },
      .defaulted "required" .flag (·.required) fun v i ↦ { i with required := v },
      .defaulted "default" (.optional .value) (·.default) fun v i ↦ { i with default := v }]

def toJson (i : AppConfigItem) : Json := form.toJson i

def decoder : Json.Decoder AppConfigItem := form.decoder

end AppConfigItem

/-- The items of an application. -/
structure AppConfigSchema where
  items : List AppConfigItem := []
  deriving Repr, Inhabited, BEq

namespace AppConfigSchema

def form : Form AppConfigSchema :=
  .record {} [.defaulted "items" (.list AppConfigItem.form) (·.items)
    fun v s ↦ { s with items := v }]

def toJson (s : AppConfigSchema) : Json := form.toJson s

def decoder : Json.Decoder AppConfigSchema := form.decoder

/-- The item with this name, the first of several. -/
def item? (s : AppConfigSchema) (name : String) : Option AppConfigItem :=
  s.items.find? (·.name == name)

/-- Apply one entry of a patch: a null takes the value away. -/
def patchEntry (values : ConfigValues) (e : String × Json) : ConfigValues :=
  match e.2 with
  | .null => values.erase e.1
  | v => values.insert e.1 v

def merge (current patch : ConfigValues) : ConfigValues := patch.entries.foldl patchEntry current

def defaults (s : AppConfigSchema) : ConfigValues :=
  Dict.ofList (s.items.filterMap fun i ↦ i.default.map fun v ↦ (i.name, v))

/-- The values, with the defaults of those that are absent. -/
def resolve (s : AppConfigSchema) (values : ConfigValues) : ConfigValues :=
  s.defaults.insertMany values.entries

/-- What is wrong with a value, if anything. -/
def valueError? (s : AppConfigSchema) (e : String × Json) : Option FieldError :=
  match s.item? e.1 with
  | none => some ⟨e.1, "is not a known config item"⟩
  | some i => if i.kind.accepts e.2 then none else some ⟨e.1, "must be " ++ i.kind.noun⟩

/-- There is no value, or a text of blanks only. -/
def isMissing : Option Json → Bool
  | none => true
  | some (.string s) => Text.allBlank s
  | some _ => false

/-- The item has to have a value and has none. -/
def requiredError? (values : ConfigValues) (i : AppConfigItem) : Option FieldError :=
  if i.required && isMissing ((values.get? i.name).or i.default) then some ⟨i.name, "is required"⟩
  else none

/-- The rejected fields: values that do not fit, by key, then items without a value, in the order
of the items. -/
def errors (s : AppConfigSchema) (values : ConfigValues) : List FieldError :=
  values.entries.filterMap s.valueError? ++ s.items.filterMap (requiredError? values)

def validate (s : AppConfigSchema) (values : ConfigValues) : Except ValidationError Unit :=
  ValidationError.check (s.errors values)

end AppConfigSchema
end Rollout
