import PanelSource.Journal.Filter
import PanelSource.Launch

/-! # The program

Settings come from files and variables, events go to standard output. Requests are read from
standard input, one JSON object a line, until it ends; each is answered by a line. -/
namespace PanelSource.Main

/-- Variables that the program looks at. -/
def variableNames : List String :=
  ["CRATE_DS__DATABASE__CONNECTION_STRING", "CRATE_DS__DATABASE__POOL_SIZE", "CRATE_DS__WEB__HOST",
    "CRATE_DS__WEB__PORT", "CRATE_DS__DATASOURCE__SCHEMA", "CRATE_DS__DATASOURCE__TIME_COLUMN",
    "CRATE_DS__DATASOURCE__GROUP_INTERVAL", "CRATE_DS__DATASOURCE__TIME_FORMAT",
    "CRATE_DS__DATASOURCE__VALUES_LIMIT", "RUST_LOG", "LOG_FORMAT"]

def readVariables : List String → IO (List (String × String))
  | [] => return []
  | name :: rest => do
    let more ← readVariables rest
    match ← IO.getEnv name with
    | some value => return (name, value) :: more
    | none => return more

/-- The formats that settings are read in here. -/
def formats : List FileFormat := [.toml, .json]

/-- Files that settings may come from. -/
def candidates (words : List String) : List String :=
  let named := match CommandLine.read words with
    | .ok line => line.config
    | .error _ => none
  match named with
  | some path =>
    path :: (FileFormat.extended formats).map fun (_, extension) => path ++ "." ++ extension
  | none => Settings.places

def readFile? (path : String) : IO (Option String) := do
  try
    return some (← IO.FS.readFile path)
  catch _ => return none

def readFiles (tree : FileTree) : List String → IO FileTree
  | [] => return tree
  | path :: rest => do
    let tree ← readFiles tree rest
    match ← readFile? path with
    | some text => return { tree with files := (tree.resolve path, text) :: tree.files }
    | none => return tree

def machine (words : List String) : IO Machine := do
  let environment ← readVariables variableNames
  let here : FileTree := ⟨[], []⟩
  let directory := here.resolve (toString (← IO.currentDir))
  let files ← readFiles ⟨directory, []⟩ (candidates words)
  return ⟨formats, files, [[], ["tmp"], directory], environment, fun _ => none, ⟨[]⟩⟩

def report (m : Machine) (events : List Event) : IO Unit := do
  let filter := LogFilter.ofVariable (m.environment.lookup "RUST_LOG")
  let format := LogFormat.ofVariable (m.environment.lookup "LOG_FORMAT")
  let records := (events.map (Event.record "0")).filter filter.passes
  records.forM fun r => IO.println (format.render r)

def textField (x : Json) (name : String) : String := ((x.field? name).bind Json.asText?).getD ""

def requestOf (x : Json) : HttpRequest :=
  let (path, query) := HttpRequest.splitAddress (textField x "uri")
  let headers := ((x.field? "headers").bind Json.asFields?).getD []
  ⟨((x.field? "method").bind Json.asText?).getD "GET", path, query,
    headers.filterMap fun h => h.2.asText?.map fun v => (h.1, v), textField x "body"⟩

def contentJson : Option Content → Json
  | none => .null
  | some (.json body) => body
  | some (.plain body) => .text body

def responseJson (r : HttpResponse) : Json :=
  Json.ofFields [("status", Json.int r.status), ("content_type", Json.ofOption .text r.contentType),
    ("allow", Json.ofOption .text r.allow), ("allow_origin", .text r.allowOrigin),
    ("body", contentJson r.content)]

partial def serve (m : Machine) (started : Nat) (srv : Server Catalog) (s : Session Catalog) :
    IO Unit := do
  let line ← (← IO.getStdin).getLine
  if line.isEmpty then return
  match Json.parse line with
  | .error _ => serve m started srv s
  | .ok x =>
    let uptime := ((← IO.monoMsNow) - started) / 1000
    let (response, next) := srv.step ⟨requestOf x, uptime⟩ s.store
    report m next.events
    IO.println (responseJson response).render
    serve m started srv next

def run (words : List String) : IO UInt32 := do
  let m ← machine words
  match Launch.start m words with
  | .ended exit events =>
    report m events
    return exit.code.toUInt32
  | .serving srv session =>
    report m session.events
    serve m (← IO.monoMsNow) srv session
    report m Launch.shutdown
    return Exit.success.code.toUInt32

end PanelSource.Main

def main (words : List String) : IO UInt32 := PanelSource.Main.run words
