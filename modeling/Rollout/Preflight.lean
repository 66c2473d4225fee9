import Rollout.Json.Decoder

/-!
# Preflight checks

Readiness checks of the hosts or of the application, and their results grouped by outcome.
-/

namespace Rollout

/-- What is checked. -/
inductive PreflightScope where
  | host
  | app
  deriving DecidableEq, Repr, Inhabited

namespace PreflightScope

def name : PreflightScope → String
  | host => "host"
  | app => "app"

instance : ToString PreflightScope := ⟨name⟩

def decoder : Json.Decoder PreflightScope := .oneOf [("host", host), ("app", app)]

end PreflightScope

structure PreflightRecord where
  title : String := ""
  message : String := ""
  deriving DecidableEq, Repr, Inhabited

namespace PreflightRecord

def toJson (r : PreflightRecord) : Json :=
  .object [("title", .string r.title), ("message", .string r.message)]

def decoder : Json.Decoder PreflightRecord :=
  .record {}
    [.needed "title" .text fun v r ↦ { r with title := v },
      .needed "message" .text fun v r ↦ { r with message := v }]

end PreflightRecord

structure PreflightOutput where
  pass : List PreflightRecord := []
  warn : List PreflightRecord := []
  fail : List PreflightRecord := []
  deriving DecidableEq, Repr, Inhabited

namespace PreflightOutput

def hasFailures (o : PreflightOutput) : Bool := !o.fail.isEmpty

def hasWarnings (o : PreflightOutput) : Bool := !o.warn.isEmpty

/-- The titles of all checks, those that passed first and those that failed last. -/
def titles (o : PreflightOutput) : List String := (o.pass ++ o.warn ++ o.fail).map (·.title)

def toJson (o : PreflightOutput) : Json :=
  .object [("pass", .array (o.pass.map PreflightRecord.toJson)),
    ("warn", .array (o.warn.map PreflightRecord.toJson)),
    ("fail", .array (o.fail.map PreflightRecord.toJson))]

def decoder : Json.Decoder PreflightOutput :=
  .record {}
    [.defaulted ["pass"] (.list PreflightRecord.decoder) fun v o ↦ { o with pass := v },
      .defaulted ["warn"] (.list PreflightRecord.decoder) fun v o ↦ { o with warn := v },
      .defaulted ["fail"] (.list PreflightRecord.decoder) fun v o ↦ { o with fail := v }]

end PreflightOutput
end Rollout
