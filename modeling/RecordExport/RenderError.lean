import RecordExport.Diagnostic
/-!
# Failures

A collaborator can fail, and so can a step of a render. What fails a step is reported as a
diagnostic and the render goes on; cancellation alone ends it.
-/

namespace RecordExport

/-- Why a collaborator gave no answer. -/
inductive ServiceError where
  | notFound (what id : String)
  | unavailable (reason : String)
  /-- a default template that another engine renders -/
  | unsupportedEngine (tag kind : String)
  | inputOutput (reason : String)
  deriving DecidableEq, Repr

/-- The failure in words. -/
def ServiceError.message : ServiceError → String
  | .notFound what id => what ++ " not found: " ++ id
  | .unavailable reason => "service unavailable: " ++ reason
  | .unsupportedEngine tag kind =>
    "unsupported rendering engine '" ++ tag ++ "' for template kind " ++ kind
  | .inputOutput reason => "I/O error: " ++ reason

/-- Why a step of a render has no result. -/
inductive RenderError where
  | cancelled
  | service (e : ServiceError)
  | depthExceeded (limit : Nat)
  /-- a resolver that cannot render the subject it was given -/
  | wrongSubject (resolver found : String)
  deriving DecidableEq, Repr

namespace RenderError

/-- The failure in words. -/
def message : RenderError → String
  | .cancelled => "render cancelled"
  | .service e => e.message
  | .depthExceeded limit => "nested render depth exceeded " ++ toString limit
  | .wrongSubject resolver found => resolver ++ " cannot render a " ++ found ++ " subject"

/-- The kind of diagnostic a failure is reported as. -/
def diagnosticKind : RenderError → DiagnosticKind
  | .service (.notFound _ _) => .missingReference
  | .service _ => .serviceFailure
  | _ => .malformedTemplate

end RenderError
end RecordExport
