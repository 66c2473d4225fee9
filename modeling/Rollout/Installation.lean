import Rollout.Json.Decoder
import Rollout.Net.Cidr
import Rollout.Validation

/-!
# Installation settings

The settings of the hosts that an installation uses, and what makes them acceptable.
-/

namespace Rollout

structure InstallationConfig where
  dataDirectory : String := "/var/lib/cluster-installer"
  adminConsolePort : Nat := 30000
  podCidr : Option String := some "10.244.0.0/16"
  serviceCidr : Option String := some "10.96.0.0/12"
  httpProxy : Option String := none
  httpsProxy : Option String := none
  noProxy : Option String := none
  deriving DecidableEq, Repr, Inhabited

namespace InstallationConfig

def toJson (c : InstallationConfig) : Json :=
  .object [("dataDirectory", .string c.dataDirectory),
    ("adminConsolePort", .int c.adminConsolePort),
    ("podCidr", .ofOption .string c.podCidr), ("serviceCidr", .ofOption .string c.serviceCidr),
    ("httpProxy", .ofOption .string c.httpProxy), ("httpsProxy", .ofOption .string c.httpsProxy),
    ("noProxy", .ofOption .string c.noProxy)]

/-- The fields of a submitted object; the optional ones are absent unless given. -/
def fields : List (Json.Field InstallationConfig) :=
  let optionalText := Json.Decoder.optional Json.Decoder.text
  [.needed "dataDirectory" .text fun v c ↦ { c with dataDirectory := v },
    .needed "adminConsolePort" (.natUpTo 65535) fun v c ↦ { c with adminConsolePort := v },
    .defaulted ["podCidr"] optionalText fun v c ↦ { c with podCidr := v },
    .defaulted ["serviceCidr"] optionalText fun v c ↦ { c with serviceCidr := v },
    .defaulted ["httpProxy"] optionalText fun v c ↦ { c with httpProxy := v },
    .defaulted ["httpsProxy"] optionalText fun v c ↦ { c with httpsProxy := v },
    .defaulted ["noProxy"] optionalText fun v c ↦ { c with noProxy := v }]

def decoder : Json.Decoder InstallationConfig :=
  .record { podCidr := none, serviceCidr := none } fields

def isAbsolute (path : String) : Bool := path.toList.head? == some '/'

/-- What is wrong with a block, if one is given. -/
def blockErrors (field : String) : Option String → List FieldError
  | none => []
  | some s =>
    match Net.Cidr.parse s with
    | .ok _ => []
    | .error e => [⟨field, e.message⟩]

/-- Both blocks are given and well formed, and they share an address. -/
def blocksOverlap (c : InstallationConfig) : Bool :=
  match c.podCidr.map Net.Cidr.parse, c.serviceCidr.map Net.Cidr.parse with
  | some (.ok pod), some (.ok service) => pod.overlaps service
  | _, _ => false

def errors (c : InstallationConfig) : List FieldError :=
  (if isAbsolute c.dataDirectory then [] else [⟨"dataDirectory", "must be an absolute path"⟩]) ++
  (if c.adminConsolePort = 0 then [⟨"adminConsolePort", "must be greater than 0"⟩] else []) ++
  blockErrors "podCidr" c.podCidr ++ blockErrors "serviceCidr" c.serviceCidr ++
  (if c.blocksOverlap then [⟨"serviceCidr", "overlaps with podCidr"⟩] else [])

def validate (c : InstallationConfig) : Except ValidationError Unit :=
  ValidationError.check c.errors

end InstallationConfig
end Rollout
