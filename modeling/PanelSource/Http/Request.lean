import PanelSource.Text.Encoding

/-! # Requests over HTTP, media types and routes

A path is matched segment by segment as it was sent; only the segments that stand for names are
decoded, after the match. -/
namespace PanelSource

/-- Characters of names and unquoted values. -/
def MediaType.isToken (c : Char) : Bool :=
  c.isAlphanum || "!#$%&'*+-.^_`|~".toList.contains c

/-- A type, a subtype and what follows the last plus sign of it; all in lower case. -/
structure MediaType where
  type : String
  subtype : String
  suffix : Option String
  deriving DecidableEq, Repr

namespace MediaType

def lower (cs : List Char) : String := String.ofList (cs.map Char.toLower)

/-- The text after a quoted value: blanks, then the end or another parameter. -/
def afterQuoted? : List Char → Option (List Char)
  | [] => some []
  | c :: cs => if c = ' ' then afterQuoted? cs else if c = ';' then some cs else none

/-- Up to the quote that closes a value, which has one character at least. -/
def quoted? : List Char → Option (List Char)
  | [] => none
  | _ :: cs =>
    match cs.dropWhile (· != '"') with
    | [] => none
    | _ :: rest => afterQuoted? rest

def unquoted? (cs : List Char) : Option (List Char) :=
  match cs.dropWhile isToken with
  | [] => some []
  | c :: rest => if c = ';' ∧ cs.takeWhile isToken ≠ [] then some rest else none

/-- The text after one parameter: a name, an equals sign and a value, which may be quoted. -/
def parameter? (cs : List Char) : Option (List Char) :=
  match cs.takeWhile isToken, cs.dropWhile isToken with
  | _ :: _, '=' :: '"' :: rest => quoted? rest
  | _ :: _, '=' :: rest => unquoted? rest
  | _, _ => none

/-- Parameters after a semicolon; blanks may stand before each. -/
def parameters : Nat → List Char → Bool
  | 0, _ => false
  | fuel + 1, cs =>
    match cs.dropWhile (· == ' ') with
    | [] => true
    | cs =>
      match parameter? cs with
      | none => false
      | some rest => parameters fuel rest

/-- The subtype and what follows its last plus sign; a plus sign in front is part of the subtype. -/
def splitSuffix (cs : List Char) : List Char × Option (List Char) :=
  match cs.reverse.dropWhile (· != '+') with
  | [] => (cs, none)
  | _ :: before =>
    if before = [] then (cs, none)
    else (before.reverse, some (cs.drop (before.length + 1)))

def parse? (text : String) : Option MediaType :=
  let cs := text.toList
  let type := cs.takeWhile isToken
  match cs.dropWhile isToken with
  | '/' :: rest =>
    let (subtype, suffix) := splitSuffix (rest.takeWhile isToken)
    let result : MediaType := ⟨lower type, lower subtype, suffix.map lower⟩
    if type = [] then none
    else match rest.dropWhile isToken with
      | [] => some result
      | c :: tail =>
        if c = ';' ∧ rest.takeWhile isToken ≠ [] ∧ parameters (tail.length + 1) tail then
          some result
        else none
  | _ => none

def isJson (m : MediaType) : Bool :=
  m.type == "application" && (m.subtype == "json" || m.suffix == some "json")

end MediaType

/-- The path and the query stand as they were sent, with their escapes. -/
structure HttpRequest where
  method : String
  path : List Char
  query : List Char
  headers : List (String × String)
  body : String

namespace HttpRequest

/-- An address without its scheme and host, where it has them. -/
def withoutHost (cs : List Char) : List Char :=
  match cs with
  | '/' :: _ => cs
  | _ =>
    match Text.cutAt ':' cs with
    | (_, some ('/' :: '/' :: rest)) =>
      match rest.dropWhile fun c => c != '/' && c != '?' && c != '#' with
      | '/' :: path => '/' :: path
      | other => '/' :: other
    | _ => cs

/-- The path and the query of an address; a fragment is no part of a request. -/
def splitAddress (address : String) : List Char × List Char :=
  let (before, _) := Text.cutAt '#' (withoutHost address.toList)
  let (path, query) := Text.cutAt '?' before
  (path, query.getD [])

def header? (r : HttpRequest) (name : String) : Option String :=
  (r.headers.find? fun h => Text.lowerAscii h.1 == name).map Prod.snd

/-- Only printable ASCII characters and tabs make a header a text. -/
def printable (s : String) : Bool :=
  s.toList.all fun c => (0x20 ≤ c.toNat && c.toNat ≤ 0x7E) || c == '\t'

def hasJsonBody (r : HttpRequest) : Bool :=
  match r.header? "content-type" with
  | none => false
  | some text => printable text && (MediaType.parse? text).any MediaType.isJson

end HttpRequest

inductive Route
  | query
  | compile
  | tables
  | columns (table : List Char)
  | values (table column : List Char)
  | status
  deriving DecidableEq, Repr

namespace Route

/-- The segments after the leading slash. -/
def segments (path : List Char) : List (List Char) :=
  match path with
  | '/' :: rest => Text.splitOnChar '/' rest
  | _ => []

def named (name : String) (segment : List Char) : Bool := segment == name.toList

/-- The router takes an empty segment for a name, too; such a name is refused as blank where it is
used, and not as a path that leads nowhere. -/
def ofPath? (path : List Char) : Option Route :=
  match segments path with
  | [api, a] =>
    if !named "api" api then none
    else if named "query" a then some query
    else if named "compile" a then some compile
    else if named "tables" a then some tables
    else if named "status" a then some status
    else none
  | [api, a, table, b] =>
    if named "api" api && named "tables" a && named "columns" b then some (columns table) else none
  | [api, a, table, b, column, c] =>
    if named "api" api && named "tables" a && named "columns" b && named "values" c then
      some (values table column)
    else none
  | _ => none

/-- Whether a route is asked with a body or read. -/
def takesBody : Route → Bool
  | query | compile => true
  | _ => false

def methods (r : Route) : List String := if r.takesBody then ["POST"] else ["GET", "HEAD"]

def allow (r : Route) : String := ",".intercalate r.methods

end Route
end PanelSource
