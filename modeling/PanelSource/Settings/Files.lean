import PanelSource.Json.Scanner
import PanelSource.Toml.Document

/-! # Files that settings are looked for in

A file is read by a format, which goes by the extension of the file. Two formats are written out
here, TOML and JSON; which ones a program loads is up to the formats that it is given. -/
namespace PanelSource

/-- Files by the names that lead to them from the root, and the directory that work is done in. -/
structure FileTree where
  directory : List String
  files : List (List String × String)

namespace FileTree

/-- One more name: a point leads nowhere, two points lead back. -/
def descend (path : List String) (name : String) : List String :=
  if name = "" ∨ name = "." then path
  else if name = ".." then path.dropLast
  else path ++ [name]

/-- The names of a path, and those of the directory that it starts from. -/
def names (t : FileTree) (path : String) : List String × List String :=
  (if path.toList.head? = some '/' then [] else t.directory,
    (Text.splitOnChar '/' path.toList).map String.ofList)

def resolve (t : FileTree) (path : String) : List String :=
  let (start, names) := t.names path
  names.foldl descend start

/-- The text of a file; a path whose last name is empty or made of points alone names none. -/
def read? (t : FileTree) (path : String) : Option String :=
  match (t.names path).2.getLast? with
  | none | some "" | some "." | some ".." => none
  | _ => t.files.lookup (t.resolve path)

/-- The text of the file whose name is the last name of a path and one more extension. A last name
that leads back is not extended. -/
def readExtended? (t : FileTree) (path extension : String) : Option String :=
  let (start, names) := t.names path
  let all := start ++ names.filter fun name => name ≠ "" ∧ name ≠ "."
  match all.getLast? with
  | none | some ".." => none
  | some name =>
    t.files.lookup ((all.dropLast ++ [name ++ "." ++ extension]).foldl descend [])

/-- Whether a path leads to a file or to a directory with a file below it. -/
def leadsTo (t : FileTree) (path : String) : Bool :=
  let names := t.resolve path
  t.files.any fun f => if path.toList.getLast? = some '/' then names.isPrefixOf f.1 && names != f.1
    else names.isPrefixOf f.1

/-- What stands behind the last point of a file's name, unless the name begins with that point. -/
def extension? (path : String) : Option String :=
  let name := (path.toList.reverse.takeWhile (· != '/'))
  match name.dropWhile (· != '.') with
  | [] => none
  | [_] => none
  | _ => some (String.ofList (name.takeWhile (· != '.')).reverse)

end FileTree

/-- A format goes by the extensions of its files, and reads the names and values that a text gives
at its top. -/
structure FileFormat where
  extensions : List String
  read? : String → Option (List (String × Setting))

namespace FileFormat

def toml : FileFormat := ⟨["toml"], Toml.document?⟩

def json : FileFormat where
  extensions := ["json"]
  read? text :=
    match Json.parse text with
    | .ok (.object fields) => some (Setting.ofFields fields)
    | _ => none

/-- The formats and their extensions, in the order in which they are tried. -/
def extended (formats : List FileFormat) : List (FileFormat × String) :=
  formats.flatMap fun format => format.extensions.map (format, ·)

end FileFormat
end PanelSource
