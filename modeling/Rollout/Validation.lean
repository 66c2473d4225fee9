import Rollout.Json.Value

/-!
# Rejected input

A value that a client submits is checked field by field; the rejected fields are reported
together.
-/

namespace Rollout

structure FieldError where
  field : String
  message : String
  deriving DecidableEq, Repr

namespace FieldError

def text (e : FieldError) : String := e.field ++ ": " ++ e.message

def toJson (e : FieldError) : Json :=
  .object [("field", .string e.field), ("message", .string e.message)]

end FieldError

/-- The rejected fields of a value. -/
structure ValidationError where
  errors : List FieldError
  deriving DecidableEq, Repr

namespace ValidationError

def message (e : ValidationError) : String :=
  "validation failed: " ++ "; ".intercalate (e.errors.map FieldError.text)

def check (errors : List FieldError) : Except ValidationError Unit :=
  if errors.isEmpty then .ok () else .error ⟨errors⟩

theorem check_eq_ok_iff {errors : List FieldError} : check errors = .ok () ↔ errors = [] := by
  cases errors with
  | nil => exact ⟨fun _ ↦ rfl, fun _ ↦ rfl⟩
  | cons e more => exact ⟨nofun, nofun⟩

theorem check_of_ne_nil {errors : List FieldError} (some_error : errors ≠ []) :
    check errors = .error ⟨errors⟩ := by
  cases errors with
  | nil => exact absurd rfl some_error
  | cons e more => rfl

end ValidationError
end Rollout
