import Rollout.Json.Decoder
import Rollout.Timestamp

/-!
# Releases

What an installation or an upgrade of the application deployed.
-/

namespace Rollout

structure AppRelease where
  name : String := ""
  version : String := ""
  deployedAt : Timestamp := Timestamp.epoch
  deriving DecidableEq, Repr, Inhabited

namespace AppRelease

def toJson (r : AppRelease) : Json :=
  .object [("name", .string r.name), ("version", .string r.version),
    ("deployedAt", .string r.deployedAt.text)]

def decoder : Json.Decoder AppRelease :=
  .record {}
    [.needed "name" .text fun v r ↦ { r with name := v },
      .needed "version" .text fun v r ↦ { r with version := v },
      .needed "deployedAt" (.text? Timestamp.parse?) fun v r ↦ { r with deployedAt := v }]

end AppRelease
end Rollout
