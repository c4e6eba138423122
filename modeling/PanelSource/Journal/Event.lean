import PanelSource.Text.Basic
import PanelSource.Text.Shown

/-! # Logged events -/
namespace PanelSource

inductive Level
  | error
  | warn
  | info
  | debug
  | trace
  deriving DecidableEq, Repr

namespace Level

def name : Level → String
  | error => "ERROR"
  | warn => "WARN"
  | info => "INFO"
  | debug => "DEBUG"
  | trace => "TRACE"

/-- How much a filter has to let through for the level: more for the finer ones. -/
def rank : Level → Nat
  | error => 1
  | warn => 2
  | info => 3
  | debug => 4
  | trace => 5

end Level

/-- Everything the program reports while it works. -/
inductive Event
  | compiled (table statement : String)
  | transformed (rows series : Nat)
  | answered (targets series : Nat)
  | executing (statement : String)
  | returned (rows : Nat) (cols : List String)
  | executionFailed (message : String)
  | queryAnswered (series : Nat)
  | requestFailed (code message : String)
  | listening (address : String)
  | shutdownReceived
  | configurationFailed (message : String)
  | openingPool (database : String)
  | checked (message : String)
  | checkFailed (message : String)
  | starting (address : String)
  | stopped
  | serverFailed (message : String)
  deriving DecidableEq, Repr

namespace Event

def level : Event → Level
  | compiled .. | transformed .. | returned .. => .debug
  | executionFailed _ | requestFailed .. | configurationFailed _ | checkFailed _
  | serverFailed _ => .error
  | answered .. | executing _ | queryAnswered _ | listening _ | shutdownReceived | openingPool _
  | checked _ | starting _ | stopped => .info

/-- The part of the program that reports. -/
def target : Event → String
  | compiled .. | transformed .. | answered .. => "crate_datasource::datasource"
  | executing _ | returned .. | executionFailed _ => "crate_datasource::db::executor"
  | queryAnswered _ => "crate_datasource::web::handlers::api"
  | requestFailed .. => "crate_datasource::web::error"
  | listening _ | shutdownReceived => "crate_datasource::web"
  | configurationFailed _ | openingPool _ | checked _ | checkFailed _ | starting _ | stopped
  | serverFailed _ => "crate_datasource"

/-- Durations in milliseconds are written by whoever has a clock. -/
def message (elapsed : String) : Event → String
  | compiled table statement => "Compiled target on '" ++ table ++ "': " ++ statement
  | transformed rows series =>
    "Transformed " ++ Text.natText rows ++ " rows into " ++ Text.natText series ++ " series"
  | answered targets series =>
    "Answered query with " ++ Text.natText targets ++ " targets, " ++ Text.natText series ++
      " series"
  | executing statement => "Executing SQL query: " ++ statement
  | returned rows cols =>
    "Query returned " ++ Text.natText rows ++ " rows, columns " ++ Text.shownList cols ++ ", in " ++
      elapsed ++ "ms"
  | executionFailed message => "Failed to execute query: " ++ message
  | queryAnswered series =>
    "Query answered with " ++ Text.natText series ++ " series in " ++ elapsed ++ "ms"
  | requestFailed code message => "Request failed with " ++ code ++ ": " ++ message
  | listening address => "Listening on " ++ address
  | shutdownReceived => "Shutdown signal received"
  | configurationFailed message => "Failed to load configuration: " ++ message
  | openingPool database => "Initializing DuckDB connection pool on " ++ database
  | checked message => message
  | checkFailed message => "Datasource check failed: " ++ message
  | starting address => "Starting datasource server on " ++ address
  | stopped => "Server stopped gracefully"
  | serverFailed message => "Server error: " ++ message

end Event
end PanelSource
