import PanelSource.Panel.Request
import PanelSource.Settings.CommandLine
import PanelSource.Settings.Files

/-! # Settings of the program and the layers they come from

The built-in values, one file, variables of the environment and the command line, in the order of
their growing weight. All but the last are layers of one tree; the command line overrides what was
read from the tree. The formats that a named file may have are those that the program is given. -/
namespace PanelSource

structure DatabaseSettings where
  connection : String := "crate-datasource.duckdb"
  poolSize : Nat := 5
  deriving DecidableEq, Repr

structure WebSettings where
  host : String := "127.0.0.1"
  port : Nat := 3000
  deriving DecidableEq, Repr

structure Settings where
  database : DatabaseSettings := {}
  web : WebSettings := {}
  datasource : Defaults := {}
  deriving DecidableEq, Repr

inductive SettingsError
  | noFile (path : String)
  | unknownFormat (path : String)
  | malformedFile (path : String)
  | illShaped
  deriving DecidableEq, Repr

namespace SettingsError

def message : SettingsError → String
  | noFile path => "configuration file \"" ++ path ++ "\" not found"
  | unknownFormat path => "configuration file \"" ++ path ++ "\" is not of a registered file format"
  | malformedFile path => "configuration file \"" ++ path ++ "\" could not be read"
  | illShaped => "a setting is missing or of the wrong type"

end SettingsError

namespace Settings

def builtIn : List (String × Setting) :=
  let s : Settings := {}
  [("database.connection_string", .text s.database.connection),
    ("database.pool_size", .int s.database.poolSize),
    ("web.host", .text s.web.host),
    ("web.port", .int s.web.port),
    ("datasource.time_column", .text s.datasource.timeColumn),
    ("datasource.values_limit", .int s.datasource.valuesLimit)]

def variablePrefix : String := "crate_ds__"

/-- Two underscores stand for the point between the names of a path. -/
def pointed : List Char → List Char
  | '_' :: '_' :: rest => '.' :: pointed rest
  | c :: rest => c :: pointed rest
  | [] => []

/-- The setting that a variable of the environment gives; the case of its name does not count. -/
def ofVariable? (name value : String) : Option (String × Setting) :=
  (Text.dropWord? variablePrefix.toList (Text.lowerAscii name).toList).map fun key =>
    (String.ofList (pointed key), .text value)

def ofEnvironment (env : List (String × String)) : List (String × Setting) :=
  env.filterMap fun v => ofVariable? v.1 v.2

def readText (format : FileFormat) (path text : String) :
    Except SettingsError (List (String × Setting)) :=
  (format.read? text).elim (.error (.malformedFile path)) .ok

/-- The first file that there is with an extension added. -/
def readExtended (formats : List FileFormat) (files : FileTree) (path : String) :
    Except SettingsError (List (String × Setting)) :=
  let found := (FileFormat.extended formats).findSome? fun (format, extension) =>
    (files.readExtended? path extension).map (format, ·)
  match found with
  | some (format, text) => readText format path text
  | none => .error (.noFile path)

/-- A file named on the command line: as it is named, or else with an extension added. -/
def readNamed (formats : List FileFormat) (files : FileTree) (path : String) :
    Except SettingsError (List (String × Setting)) :=
  match files.read? path with
  | some text =>
    let extension := (FileTree.extension? path).getD ""
    match formats.find? fun format => format.extensions.contains extension with
    | some format => readText format path text
    | none => .error (.unknownFormat path)
  | none => readExtended formats files path

def places : List String :=
  ["config.toml", "config/config.toml", "/etc/crate-datasource/config.toml"]

/-- The file at a known place; a directory there hides nothing but a file with one more
extension. -/
def readPlace (files : FileTree) (path : String) : Except SettingsError (List (String × Setting)) :=
  match files.read? path with
  | some text => readText .toml path text
  | none => readExtended [.toml] files path

def fileLayer (formats : List FileFormat) (files : FileTree) (named : Option String) :
    Except SettingsError (List (String × Setting)) :=
  match named with
  | some path => readNamed formats files path
  | none =>
    match places.find? files.leadsTo with
    | some path => readPlace files path
    | none => .ok []

def database? (s : Setting) : Option DatabaseSettings := do
  return ⟨← (← s.part? 0 "connection_string").text?, ← (← s.part? 1 "pool_size").count?⟩

def web? (s : Setting) : Option WebSettings := do
  return ⟨← (← s.part? 0 "host").text?, ← (← s.part? 1 "port").countBelow? 65536⟩

def datasource? (s : Setting) : Option Defaults := do
  return ⟨← s.optionalPart? Setting.text? 0 "schema",
    ← (← s.part? 1 "time_column").text?,
    ← s.optionalPart? Setting.text? 2 "group_interval",
    ← s.optionalPart? (Setting.word? TimeFormat.ofWord?) 3 "time_format",
    ← (← s.part? 4 "values_limit").count?⟩

def ofTree? (s : Setting) : Option Settings := do
  return ⟨← database? (← s.part? 0 "database"), ← web? (← s.part? 1 "web"),
    ← datasource? (← s.part? 2 "datasource")⟩

def override (line : CommandLine) (s : Settings) : Settings where
  database := { s.database with connection := line.database.getD s.database.connection }
  web := ⟨line.host.getD s.web.host, line.port.getD s.web.port⟩
  datasource := s.datasource

def load (formats : List FileFormat) (files : FileTree) (env : List (String × String))
    (line : CommandLine) : Except SettingsError Settings := do
  let file ← fileLayer formats files line.config
  let tree := Setting.addLayer (Setting.addLayer (Setting.addLayer (.table []) builtIn) file)
    (ofEnvironment env)
  match ofTree? tree with
  | some s => return s.override line
  | none => .error .illShaped

end Settings
end PanelSource
