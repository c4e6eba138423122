import PanelSource.Text.Basic

/-! # Statements that a store of tables understands

Whole columns of one table, with a limit on the rows; the names of tables and columns; the version
of the engine; one integer. -/
namespace PanelSource

/-- The smallest parts of a statement. -/
inductive Lexeme
  | word (s : String)
  | name (s : String)
  | text (s : String)
  | sign (c : Char)
  deriving DecidableEq, Repr

namespace Lexeme

def isWordChar (c : Char) : Bool :=
  c.isAlphanum || c == '_' || 128 ≤ c.toNat

/-- What is being read: nothing, a word, or a quoted part with its quote, where it may just have had
a quote that either closes it or stands for itself. -/
inductive Mode
  | between
  | inWord (read : List Char)
  | inQuotes (quote : Char) (read : List Char)
  | atQuote (quote : Char) (read : List Char)

/-- Characters read come in reverse. -/
def ofQuoted (quote : Char) (read : List Char) : Lexeme :=
  let s := String.ofList read.reverse
  if quote = '"' then name s else text s

def ofWord (read : List Char) : Lexeme := word (String.ofList read.reverse)

def enter (c : Char) : List Lexeme × Mode :=
  if Text.isBlank c then ([], .between)
  else if c = '"' ∨ c = '\'' then ([], .inQuotes c [])
  else if isWordChar c then ([], .inWord [c])
  else ([sign c], .between)

def after (lexeme : Lexeme) (c : Char) : List Lexeme × Mode :=
  let (out, mode) := enter c
  (lexeme :: out, mode)

def step : Mode → Char → List Lexeme × Mode
  | .between, c => enter c
  | .inWord read, c => if isWordChar c then ([], .inWord (c :: read)) else after (ofWord read) c
  | .inQuotes quote read, c =>
    if c = quote then ([], .atQuote quote read) else ([], .inQuotes quote (c :: read))
  | .atQuote quote read, c =>
    if c = quote then ([], .inQuotes quote (c :: read)) else after (ofQuoted quote read) c

def finish : Mode → Option (List Lexeme)
  | .between => some []
  | .inWord read => some [ofWord read]
  | .inQuotes _ _ => none
  | .atQuote quote read => some [ofQuoted quote read]

def scanFrom? : Mode → List Char → Option (List Lexeme)
  | mode, [] => finish mode
  | mode, c :: cs =>
    let (out, next) := step mode c
    (scanFrom? next cs).map (out ++ ·)

def scan? (statement : String) : Option (List Lexeme) := scanFrom? .between statement.toList

def isKeyword (keyword : String) : Lexeme → Bool
  | word s => Text.lowerAscii s == keyword
  | _ => false

/-- Words that cannot name a table or a column without quotes. -/
def reserved : List String :=
  ["all", "analyse", "analyze", "and", "any", "array", "as", "asc", "asymmetric", "both", "case",
    "cast", "check", "collate", "column", "constraint", "create", "default", "deferrable", "desc",
    "describe", "distinct", "do", "else", "end", "except", "false", "fetch", "for", "foreign",
    "from", "group", "having", "in", "initially", "intersect", "into", "lateral", "leading",
    "limit", "not", "null", "offset", "on", "only", "or", "order", "pivot", "placing", "primary",
    "qualify", "references", "returning", "select", "show", "some", "summarize", "symmetric",
    "table", "then", "to", "trailing", "true", "union", "unique", "unpivot", "using", "variadic",
    "when", "where", "window", "with"]

def identifier? : Lexeme → Option String
  | word s =>
    if (s.toList.head?.all Char.isDigit) || reserved.contains (Text.lowerAscii s) then none
    else some s
  | name s => some s
  | _ => none

end Lexeme

/-- A column by its name, or all of them. -/
inductive Projected
  | all
  | column (name : String)
  deriving DecidableEq, Repr

inductive Selection
  | version
  | tableNames
  | columnNames (table : String)
  | integer (n : Int)
  | columns (items : List Projected) (schema : Option String) (table : String) (limit : Option Nat)
  deriving DecidableEq, Repr

namespace Selection

open Lexeme

def projected? : Lexeme → Option Projected
  | sign '*' => some .all
  | other => (identifier? other).map .column

/-- Items with commas between them, up to the word `from`. -/
def items? : List Lexeme → Option (List Projected × List Lexeme)
  | item :: sign ',' :: rest => do
    let p ← projected? item
    let (ps, rest) ← items? rest
    return (p :: ps, rest)
  | item :: next :: rest =>
    if isKeyword "from" next then (projected? item).map fun p => ([p], rest) else none
  | _ => none

/-- A table, which may have a schema in front, and what follows it. -/
def table? : List Lexeme → Option (Option String × String × List Lexeme)
  | schema :: sign '.' :: table :: rest => do
    return (some (← identifier? schema), ← identifier? table, rest)
  | table :: rest => do return (none, ← identifier? table, rest)
  | [] => none

def limit? : List Lexeme → Option (Option Nat)
  | [] => some none
  | [limit, word n] => if isKeyword "limit" limit then (Text.natural? n.toList).map some else none
  | _ => none

/-- The conditions that the catalog of the store itself is asked with. -/
def catalog? (column table : String) : List Lexeme → Option Selection
  | [] =>
    if column = "table_name" ∧ table = "tables" then some tableNames else none
  | [condition, word key, sign '=', text value] =>
    if isKeyword "where" condition ∧ Text.lowerAscii key = "table_name" ∧
        column = "column_name" ∧ table = "columns" then
      some (columnNames value)
    else none
  | _ => none

def ofItems? (items : List Projected) (rest : List Lexeme) : Option Selection := do
  let (schema, table, rest) ← table? rest
  match schema, items with
  | some schema, [.column c] =>
    if Text.lowerAscii schema = "information_schema" then
      catalog? (Text.lowerAscii c) (Text.lowerAscii table) rest
    else return columns items (some schema) table (← limit? rest)
  | _, _ => return columns items schema table (← limit? rest)

def body? : List Lexeme → Option Selection
  | [word f, sign '(', sign ')'] => if Text.lowerAscii f = "version" then some version else none
  | [word n] => (Text.natural? n.toList).map fun n => integer n
  | [sign '-', word n] => (Text.natural? n.toList).map fun n => integer (-n)
  | lexemes => do
    let (items, rest) ← items? lexemes
    ofItems? items rest

/-- A semicolon may end the statement. -/
def ofLexemes? (lexemes : List Lexeme) : Option Selection :=
  let lexemes := match lexemes.reverse with
    | sign ';' :: rest => rest.reverse
    | _ => lexemes
  match lexemes with
  | select :: body => if isKeyword "select" select then body? body else none
  | [] => none

def ofStatement? (statement : String) : Option Selection := (scan? statement).bind ofLexemes?

end Selection
end PanelSource
