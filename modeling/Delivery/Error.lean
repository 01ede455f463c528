import Delivery.Duration
import Delivery.Json.Basic
import Delivery.Text.Position
import Delivery.Text.Quoted

/-!
# What can go wrong

A collaborator fails with a `StoreError`. The two entry operations fail with a `PromotionError`,
whose `ErrorCode` is what a caller's transport maps to a status of its own. The causes are kept
apart as constructors; every wording is in a `message`.
-/

namespace Delivery

/-- The failure of a call to a collaborator. -/
inductive StoreError where
  /-- The collaborator failed or could not be reached. -/
  | backend (message : String)
  /-- A resource with the same identity exists. -/
  | alreadyExists (kind project name : String)
  /-- The shape of an object was rejected. -/
  | invalid (reason : String)
  /-- The caller cancelled the request before the call was over. -/
  | cancelled (reason : String)
  /-- The deadline passed before the call was over; `budget` is the time it had been given. -/
  | deadlineExceeded (budget : Duration)
  /-- An object could not be encoded or decoded. -/
  | serialization (reason : String)
  deriving DecidableEq

namespace StoreError

/-- The failure to encode or decode an object, as a message tells it. -/
def ofMessage (message : String) : StoreError := .serialization (Text.withPosition message)

/-- The name of the kind of failure. -/
def typeName : StoreError → String
  | backend _ => "Backend"
  | alreadyExists .. => "AlreadyExists"
  | invalid _ => "Invalid"
  | cancelled _ => "Cancelled"
  | deadlineExceeded _ => "DeadlineExceeded"
  | serialization _ => "Serialization"

/-- The wording of a failure. -/
def message : StoreError → String
  | backend message => message
  | alreadyExists kind project name =>
    kind ++ " " ++ Text.quote name ++ " already exists in namespace " ++ Text.quote project
  | invalid reason => "invalid object: " ++ reason
  | cancelled reason => "context canceled: " ++ reason
  | deadlineExceeded budget => "context deadline exceeded after " ++ budget.text
  | serialization reason => "serialization error: " ++ reason

/-- The wording of the failure underneath, where there is one. -/
def cause? : StoreError → Option String
  | serialization reason => some reason
  | _ => none

end StoreError

/-- A write of a cascade that failed. -/
structure WriteFailure where
  /-- The subscriber whose promotion was not created. -/
  stage : String
  error : StoreError
  deriving DecidableEq

namespace WriteFailure

/-- The wording of a failed write. -/
def message (f : WriteFailure) : String :=
  "error creating Promotion for Stage " ++ Text.quote f.stage ++ ": " ++ f.error.message

/-- The wording of several failed writes, joined by line feeds. -/
def joined (failures : List WriteFailure) : String :=
  "\n".intercalate (failures.map message)

/-- The names of the stages whose writes failed. -/
def stages (failures : List WriteFailure) : List String := failures.map WriteFailure.stage

end WriteFailure

/-- The classes of errors that a caller tells apart. -/
inductive ErrorCode where
  /-- An identifier is missing. -/
  | invalidArgument
  /-- The stage, a qualified freight or the subscribers were not found. -/
  | notFound
  /-- The caller may not act on the project. -/
  | permissionDenied
  /-- A collaborator failed. -/
  | internal
  deriving DecidableEq

namespace ErrorCode

/-- The name of a code. -/
def text : ErrorCode → String
  | invalidArgument => "invalid_argument"
  | notFound => "not_found"
  | permissionDenied => "permission_denied"
  | internal => "internal"

/-- Every code under its name. -/
def variants : List (String × ErrorCode) :=
  [invalidArgument, notFound, permissionDenied, internal].map fun c => (c.text, c)

end ErrorCode

/-- The error of an entry operation. -/
inductive PromotionError where
  /-- An identifier is empty. -/
  | invalidArgument (message : String)
  /-- Something that the request refers to does not exist. -/
  | notFound (message : String)
  /-- The project validator refused. -/
  | permissionDenied (message : String)
  /-- A single call failed. -/
  | internal (error : StoreError)
  /-- Some writes of a cascade failed. -/
  | partialFailure (failures : List WriteFailure)
  deriving DecidableEq

namespace PromotionError

/-- The class of an error. -/
def code : PromotionError → ErrorCode
  | invalidArgument _ => .invalidArgument
  | notFound _ => .notFound
  | permissionDenied _ => .permissionDenied
  | internal _ | partialFailure _ => .internal

/-- The wording of an error. -/
def message : PromotionError → String
  | invalidArgument m | notFound m | permissionDenied m => m
  | internal e => e.message
  | partialFailure failures => WriteFailure.joined failures

/-- The wording of the failure underneath, where there is one. -/
def cause? : PromotionError → Option String
  | internal e => some e.message
  | partialFailure failures => some (WriteFailure.joined failures)
  | _ => none

/-- What is reported of one failed write. -/
def failureReport (f : WriteFailure) : Json :=
  .record [("stage", .text f.stage), ("error", .text f.error.message),
    ("error_type", .text f.error.typeName)]

/-- The error as an object: its code, its wording and what lies underneath. -/
def report (e : PromotionError) : Json :=
  .record ([("code", .text e.code.text), ("message", .text e.message)] ++
    match e with
    | internal error => [("cause", .text error.typeName)]
    | partialFailure failures => [("failures", .list (failures.map failureReport))]
    | _ => [])

end PromotionError

end Delivery
