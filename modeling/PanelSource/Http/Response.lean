import PanelSource.Panel.Service

/-! # Responses over HTTP -/
namespace PanelSource

/-- Why a request does not reach the service. -/
inductive Rejection
  | notJson
  | malformedBody
  | illShapedBody
  | brokenPath
  | badQuery
  deriving DecidableEq, Repr

namespace Rejection

def status : Rejection → Nat
  | notJson => 415
  | malformedBody => 400
  | illShapedBody => 422
  | brokenPath => 400
  | badQuery => 400

def message : Rejection → String
  | notJson => "Expected request with `Content-Type: application/json`"
  | malformedBody => "Failed to parse the request body as JSON"
  | illShapedBody => "Failed to deserialize the JSON body into the target type"
  | brokenPath => "Invalid URL: Invalid UTF-8"
  | badQuery => "Failed to deserialize query string"

def ofFault : Fault → Rejection
  | .malformed => malformedBody
  | .shape => illShapedBody

end Rejection

inductive Content
  | json (body : Json)
  | plain (body : String)

namespace Content

def type : Content → String
  | json _ => "application/json"
  | plain _ => "text/plain; charset=utf-8"

end Content

/-- The header alone says of which type the content is; the content may be withheld. -/
structure HttpResponse where
  status : Nat
  allow : Option String := none
  contentType : Option String := none
  content : Option Content := none

namespace HttpResponse

/-- Answers may be read by pages from anywhere. -/
def allowOrigin (_ : HttpResponse) : String := "*"

def withContent (status : Nat) (c : Content) : HttpResponse :=
  { status := status, contentType := some c.type, content := some c }

def ok (body : Json) : HttpResponse := withContent 200 (.json body)

def rejected (r : Rejection) : HttpResponse := withContent r.status (.plain r.message)

def notFound : HttpResponse := { status := 404 }

def methodNotAllowed (allow : String) : HttpResponse := { status := 405, allow := some allow }

def preflight (allow : Option String) : HttpResponse := { status := 200, allow := allow }

def withoutContent (r : HttpResponse) : HttpResponse := { r with content := none }

end HttpResponse

namespace ServiceError

def status : ServiceError → Nat
  | query (.invalidDescription _) => 400
  | query (.missingColumn _) => 502
  | query (.invalidTimestamp _ _) => 502
  | store (.database _) => 400
  | store (.pool _) => 500
  | store (.task _) => 500

def code : ServiceError → String
  | query (.invalidDescription _) => "INVALID_QUERY_DESCRIPTION"
  | query (.missingColumn _) => "MISSING_COLUMN"
  | query (.invalidTimestamp _ _) => "INVALID_TIMESTAMP"
  | store (.database _) => "SQL_ERROR"
  | store (.pool _) => "CONNECTION_ERROR"
  | store (.task _) => "INTERNAL_ERROR"

def toJson (e : ServiceError) : Json :=
  Json.ofFields [("error", Json.ofFields [("code", .text e.code), ("message", .text e.message)])]

def toResponse (e : ServiceError) : HttpResponse := .withContent e.status (.json e.toJson)

end ServiceError
end PanelSource
