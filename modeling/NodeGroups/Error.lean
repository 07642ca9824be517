import NodeGroups.Text.Decimal
import NodeGroups.Text.Quoted

/-!
# Errors

An error keeps what it is about apart from its wording, so that a caller can tell a wrong
setting (`validation`) from a malformed key, a refused resize, a refusal by the API server
and a fault of the program or its surroundings. `Error.message` is the one place where the
sentence is put together.
-/
namespace NodeGroups

/-- The body of an error answer of the API server. -/
structure ApiFailure where
  status : String
  message : String
  reason : String
  code : Nat
deriving DecidableEq, Repr

inductive Error where
  | api (failure : ApiFailure)
  /-- The API server could not be asked or its answer could not be read. -/
  | transport (message : String)
  | validation (resource : String) (field : Option String) (message : String)
  | invalidKey (key message : String)
  | scale (group message : String)
  | internal (context message : String)
deriving DecidableEq, Repr

def ApiFailure.text (f : ApiFailure) : String :=
  "ApiError: " ++ f.message ++ ": " ++ f.reason ++
    " (ErrorResponse \x7b status: " ++ Text.quoted f.status ++
    ", message: " ++ Text.quoted f.message ++
    ", reason: " ++ Text.quoted f.reason ++
    ", code: " ++ Text.decimal f.code ++ " \x7d)"

namespace Error

/-- The context or resource of an error that names none. -/
def unknown : String := "unknown"

def message : Error → String
  | api failure => "kubernetes error: " ++ failure.text
  | transport text => "kubernetes error: " ++ text
  | validation resource _ text => "validation error for " ++ resource ++ ": " ++ text
  | invalidKey key text => "invalid key " ++ Text.quoted key ++ ": " ++ text
  | scale group text => "scale error for " ++ group ++ ": " ++ text
  | internal context text => "internal error [" ++ context ++ "]: " ++ text

/-- Asking again may help: not when the API server says that the request is at fault, and
not when a setting, a key or a size is. -/
def isRetryable : Error → Bool
  | api failure => !(400 ≤ failure.code && failure.code < 500)
  | transport _ => true
  | internal _ _ => true
  | validation _ _ _ | invalidKey _ _ | scale _ _ => false

def isMisconfiguration : Error → Bool
  | validation _ _ _ => true
  | _ => false

/-- The object or group that the error is about. -/
def resource? : Error → Option String
  | validation resource _ _ => some resource
  | scale group _ => some group
  | _ => none

def field? : Error → Option String
  | validation _ field _ => field
  | _ => none

def context? : Error → Option String
  | internal context _ => some context
  | _ => none

end Error
end NodeGroups
