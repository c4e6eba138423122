import PanelSource.Text.Basic

/-! # The command line

Words are taken from the left. The value of an option may be the next word; such an option is
settled when the next known option comes or the line ends, and only then are its faults found. -/
namespace PanelSource

structure CommandLine where
  config : Option String := none
  host : Option String := none
  port : Option Nat := none
  database : Option String := none
  deriving DecidableEq, Repr

/-- Why a line gives no settings. Help and version are asked for, not faults. -/
inductive LineRefusal
  | unknownArgument (word : String)
  | missingValue
  | emptyValue
  | badPort (value : String)
  | repeated
  | unwantedValue
  | help
  | version
  deriving DecidableEq, Repr

namespace CommandLine

inductive Key
  | config
  | host
  | port
  | database
  deriving DecidableEq, Repr

/-- What a word is by itself. -/
inductive Word
  | escape
  | key (key : Key) (value : Option String)
  | help
  | version
  | flagWithValue
  | unknown
  | plain (s : String)
  deriving DecidableEq, Repr

def Word.ofLong (name : String) (value : Option String) : Word :=
  match name, value with
  | "config", value => key .config value
  | "host", value => key .host value
  | "port", value => key .port value
  | "database", value => key .database value
  | "help", none => help
  | "version", none => version
  | "help", some _ => flagWithValue
  | "version", some _ => flagWithValue
  | _, _ => unknown

/-- The value that stands in one word with a letter; an equals sign may come first. -/
def Word.attached : List Char → Option String
  | [] => none
  | '=' :: rest => some (String.ofList rest)
  | rest => some (String.ofList rest)

def Word.ofShort (letter : Char) (rest : List Char) : Word :=
  if letter = 'c' then key .config (attached rest)
  else if letter = 'p' then key .port (attached rest)
  else if letter = 'h' then help
  else if letter = 'V' then version
  else unknown

def Word.ofString (s : String) : Word :=
  match s.toList with
  | ['-', '-'] => escape
  | '-' :: '-' :: rest =>
    let (name, value) := Text.cutAt '=' rest
    ofLong (String.ofList name) (value.map String.ofList)
  | '-' :: letter :: rest => ofShort letter rest
  | _ => plain s

/-- A port by any signed literal of it. -/
def port? (s : String) : Option Nat :=
  ((Text.integer? s.toList).filter fun n => 0 ≤ n && n < 65536).map Int.toNat

def given (line : CommandLine) : Key → Bool
  | .config => line.config.isSome
  | .host => line.host.isSome
  | .port => line.port.isSome
  | .database => line.database.isSome

def assign (line : CommandLine) (key : Key) (value : String) : Except LineRefusal CommandLine :=
  if line.given key then .error .repeated
  else match key with
    | .config => if value = "" then .error .emptyValue else .ok { line with config := some value }
    | .host => .ok { line with host := some value }
    | .database => .ok { line with database := some value }
    | .port =>
      match port? value with
      | some port => .ok { line with port := some port }
      | none => .error (.badPort value)

/-- An option whose value is still open: it may have one already. -/
abbrev Pending := Option (Key × Option String)

def settle (line : CommandLine) : Pending → Except LineRefusal CommandLine
  | none => .ok line
  | some (_, none) => .error .missingValue
  | some (key, some value) => line.assign key value

def step (line : CommandLine) (pending : Pending) (s : String) :
    Except LineRefusal (CommandLine × Pending) :=
  match Word.ofString s with
  | .escape => .ok (line, pending)
  | .unknown => .error (.unknownArgument s)
  | .flagWithValue => .error .unwantedValue
  | .help => (line.settle pending).bind fun _ => .error .help
  | .version => (line.settle pending).bind fun _ => .error .version
  | .key key none => (line.settle pending).map fun line => (line, some (key, none))
  | .key key (some value) =>
    (line.settle pending).bind fun line => (line.assign key value).map fun line => (line, none)
  | .plain s =>
    match pending with
    | some (key, none) => .ok (line, some (key, some s))
    | _ => .error (.unknownArgument s)

/-- Behind two dashes alone no word is an option, and nothing else is known. -/
def readFrom (line : CommandLine) (pending : Pending) : List String → Except LineRefusal CommandLine
  | [] => line.settle pending
  | s :: rest =>
    if Word.ofString s = .escape then
      match rest with
      | [] => line.settle pending
      | word :: _ => .error (.unknownArgument word)
    else match line.step pending s with
      | .error refusal => .error refusal
      | .ok (line, pending) => readFrom line pending rest

def read (words : List String) : Except LineRefusal CommandLine := readFrom {} none words

end CommandLine
end PanelSource
