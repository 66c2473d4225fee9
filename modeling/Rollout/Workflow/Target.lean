import Rollout.Json.Decoder
import Rollout.Text.Quoted

/-!
# Targets and modes

Where an application is installed, and whether it is installed afresh or upgraded.
-/

namespace Rollout

inductive Target where
  /-- Linux hosts, on which a cluster is set up first. -/
  | linux
  /-- A cluster that is there already. -/
  | kubernetes
  deriving DecidableEq, Repr, Inhabited

/-- What a workflow does. -/
inductive Mode where
  | install
  | upgrade
  deriving DecidableEq, Repr, Inhabited

def lowerAscii (s : String) : String := s.map Char.toLower

namespace Target

def name : Target → String
  | linux => "linux"
  | kubernetes => "kubernetes"

instance : ToString Target := ⟨name⟩

def names : List (String × Target) := [("linux", linux), ("kubernetes", kubernetes)]

/-- Read a target, in any case. -/
def parse (s : String) : Except String Target :=
  let t := lowerAscii s
  if t = "linux" then .ok linux
  else if t = "kubernetes" || t = "k8s" then .ok kubernetes
  else .error ("unknown target " ++ Text.quoted t ++ ", expected linux or kubernetes")

def decoder : Json.Decoder Target := .oneOf names

end Target

namespace Mode

def name : Mode → String
  | install => "install"
  | upgrade => "upgrade"

instance : ToString Mode := ⟨name⟩

def names : List (String × Mode) := [("install", install), ("upgrade", upgrade)]

/-- Read a mode, in any case. -/
def parse (s : String) : Except String Mode :=
  let t := lowerAscii s
  if t = "install" then .ok install
  else if t = "upgrade" then .ok upgrade
  else .error ("unknown mode " ++ Text.quoted t ++ ", expected install or upgrade")

def decoder : Json.Decoder Mode := .oneOf names

end Mode
end Rollout
