import PanelSource.Http.Server
import PanelSource.Settings.Load
import PanelSource.Store.Catalog

/-! # From the command line to a listening server -/
namespace PanelSource

/-- Why an address cannot be listened on. -/
inductive BindFailure
  | notLocal
  | inUse
  | notResolved
  deriving DecidableEq, Repr

def BindFailure.message : BindFailure → String
  | notLocal => "Cannot assign requested address (os error 99)"
  | inUse => "Address already in use (os error 98)"
  | notResolved => "failed to lookup address information"

/-- What the program finds where it is started, and the formats of settings that it was built with.
Directories are given by the names that lead to them. -/
structure Machine where
  formats : List FileFormat
  files : FileTree
  directories : List (List String)
  environment : List (String × String)
  bind : WebSettings → Option BindFailure
  catalog : Catalog

namespace Machine

def hasDirectory (m : Machine) (path : List String) : Bool :=
  m.directories.contains path || m.files.files.any fun f => path.isPrefixOf f.1 && path != f.1

def inMemory (database : String) : Bool :=
  database = "" || ":memory:".toList.isPrefixOf database.toList

/-- A database lives in memory or in a file of its own, for which there has to be a directory. -/
def opens (m : Machine) (database : String) : Bool :=
  let path := m.files.resolve database
  inMemory database ||
    (m.hasDirectory path.dropLast && !m.hasDirectory path && (m.files.files.lookup path).isNone)

def settings (m : Machine) (line : CommandLine) : Except SettingsError Settings :=
  Settings.load m.formats m.files m.environment line

end Machine

def WebSettings.address (w : WebSettings) : String := w.host ++ ":" ++ Text.natText w.port

/-- A server between its start and its end by an interrupt. -/
def Machine.listen (m : Machine) (w : WebSettings) : Except BindFailure Event :=
  match m.bind w with
  | some failure => .error failure
  | none => .ok (.listening w.address)

inductive Exit
  | success
  | failure
  | usage
  | crash
  deriving DecidableEq, Repr

def Exit.code : Exit → Nat
  | success => 0
  | failure => 1
  | usage => 2
  | crash => 101

/-- How far the program came, with the events until then. -/
inductive Launch
  | ended (exit : Exit) (events : List Event)
  | serving (server : Server Catalog) (session : Session Catalog)

namespace Launch

/-- The greatest number of connections is a 32-bit number. -/
def poolLimit (s : Settings) : Nat := s.database.poolSize % UInt32.size

def checkEvent : Except ServiceError Health → Event
  | .ok health => .checked health.message
  | .error e => .checkFailed e.message

/-- The database is open and the pool built: the store is asked once, and the server listens
whatever it said. -/
def ofPool (m : Machine) (s : Settings) (before : List Event) : Launch :=
  let server : Server Catalog := { datasource := ⟨Store.ofCatalog, s.datasource⟩ }
  let (health, session) :=
    (server.datasource.health.run { store := m.catalog, events := before }).run
  let events := session.events ++ [checkEvent health, .starting s.web.address]
  match m.listen s.web with
  | .ok listening => serving server { session with events := events ++ [listening] }
  | .error e => ended .failure (events ++ [.serverFailed e.message])

def ofSettings (m : Machine) (s : Settings) : Launch :=
  let opening : Event := .openingPool s.database.connection
  if !m.opens s.database.connection then ended .failure [opening]
  else if poolLimit s = 0 then ended .crash [opening]
  else ofPool m s [opening]

def ofLine (m : Machine) (line : CommandLine) : Launch :=
  match m.settings line with
  | .error e => ended .failure [.configurationFailed e.message]
  | .ok s => ofSettings m s

def start (m : Machine) (words : List String) : Launch :=
  match CommandLine.read words with
  | .ok line => ofLine m line
  | .error .help => ended .success []
  | .error .version => ended .success []
  | .error _ => ended .usage []

/-- What is reported between an interrupt and the end. -/
def shutdown : List Event := [.shutdownReceived, .stopped]

/-- The whole course of a program that is interrupted as soon as it listens. -/
def interrupted : Launch → Exit × List Event
  | ended exit events => (exit, events)
  | serving _ session => (.success, session.events ++ shutdown)

end Launch
end PanelSource
