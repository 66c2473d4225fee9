import Rollout.Api.MediaType
import Rollout.AppConfig
import Rollout.Json.Decoder

/-!
# Requests, responses, and bodies

What the API is sent and what it sends back.  A body that has to be JSON is read only up to the
end of its first value.
-/

namespace Rollout.Api

structure Request where
  method : String
  target : String
  contentType : Option String := none
  body : List UInt8 := []
  deriving Repr

namespace Request

def path (r : Request) : String :=
  String.ofList (r.target.toList.takeWhile fun c ↦ c ≠ '?' && c ≠ '#')

def isJson (r : Request) : Bool := ((r.contentType.bind MediaType.parse?).map (·.isJson)).getD false

end Request

/-- What a response carries. -/
inductive Content where
  | none
  | json (v : Json)
  | text (s : String)
  deriving Repr

/-- A response; `allow` lists the methods of a path that was asked for with another one. -/
structure Response where
  status : Nat
  allow : Option String := none
  content : Content := .none
  deriving Repr

def Response.json (status : Nat) (v : Json) : Response := { status := status, content := .json v }

/-! ### Bodies -/

def maxBodyBytes : Nat := 2097152

def maxOptionalBodyBytes : Nat := 65536

/-- Why a body is not accepted. -/
inductive BodyError where
  /-- The optional body is too long. -/
  | tooLong
  | notJson
  | notBuffered
  | malformed
  | unfitting
  deriving DecidableEq, Repr

namespace BodyError

def status : BodyError → Nat
  | tooLong | notBuffered => 413
  | notJson => 415
  | malformed => 400
  | unfitting => 422

def text : BodyError → String
  | tooLong => "length limit exceeded"
  | notJson => "Expected request with `Content-Type: application/json`"
  | notBuffered => "Failed to buffer the request body: length limit exceeded"
  | malformed => "Failed to parse the request body as JSON"
  | unfitting => "Failed to deserialize the JSON body into the target type"

def response (e : BodyError) : Response := { status := e.status, content := .text e.text }

end BodyError

def Request.readBody {α : Type} (r : Request) (d : Json.Decoder α) : Except BodyError α :=
  if !r.isJson then .error .notJson
  else if maxBodyBytes < r.body.length then .error .notBuffered
  else match d.fromBytes r.body with
    | .ok a => .ok a
    | .error .data => .error .unfitting
    | .error _ => .error .malformed

def Request.readOptionalBody {α : Type} (r : Request) (d : Json.Decoder α) (default : α) :
    Except BodyError α :=
  if maxOptionalBodyBytes < r.body.length then .error .tooLong
  else if r.body.isEmpty then .ok default
  else r.readBody d

def valuesDecoder : Json.Decoder ConfigValues := .record .empty [.needed "values" .dict fun v _ ↦ v]

def valuesBody (v : ConfigValues) : Json := .object [("values", v.toJson)]

/-- The request to pass over failed checks, in any of its spellings. -/
def ignoreDecoder : Json.Decoder Bool :=
  .record false
    [.defaulted ["ignorePreflights", "ignoreHostPreflights", "ignoreAppPreflights"] .flag
      fun v _ ↦ v]

def ignoreBody (ignore : Bool) : Json := .object [("ignorePreflights", .bool ignore)]

end Rollout.Api
