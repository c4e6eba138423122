import PanelSource.Toml.Scalar

/-! # TOML documents

While a document is read, a table knows how it came to be: it may have been opened by a header, only
passed through by the header of a table below it, or made by a name with points. A header opens
each table once, and names with points do not reach into tables that a header opened. -/
namespace PanelSource.Toml

inductive Origin
  | header
  | passed
  | dotted
  deriving DecidableEq, Repr

/-- Of several tables under one name the last one comes first. -/
inductive Node
  | leaf (value : Setting)
  | table (origin : Origin) (fields : List (String × Node))
  | tables (items : List (List (String × Node)))

abbrev Fields := List (String × Node)

namespace Node

def put (name : String) (node : Node) : Fields → Fields
  | [] => [(name, node)]
  | (n, v) :: rest => if n = name then (n, node) :: rest else (n, v) :: put name node rest

mutual

def toSetting : Node → Setting
  | leaf value => value
  | table _ fields => .table (fieldsToSettings fields)
  | tables items => .array (itemsToSettings items).reverse

def fieldsToSettings : List (String × Node) → List (String × Setting)
  | [] => []
  | (name, node) :: rest => (name, node.toSetting) :: fieldsToSettings rest

def itemsToSettings : List (List (String × Node)) → List Setting
  | [] => []
  | fields :: rest => .table (fieldsToSettings fields) :: itemsToSettings rest

end

/-- A value under a name that has none yet. -/
def define? (value : Setting) : List String → Fields → Option Fields
  | [], _ => none
  | [name], fields =>
    match fields.lookup name with
    | none => some (put name (leaf value) fields)
    | some _ => none
  | name :: path, fields =>
    match fields.lookup name with
    | none => (define? value path []).map fun inner => put name (table .dotted inner) fields
    | some (table origin inner) =>
      if origin = .header then none
      else (define? value path inner).map fun inner => put name (table origin inner) fields
    | some (tables (last :: before)) =>
      (define? value path last).map fun last => put name (tables (last :: before)) fields
    | some _ => none

/-- A table opened by its header. -/
def openTable? : List String → Fields → Option Fields
  | [], _ => none
  | [name], fields =>
    match fields.lookup name with
    | none => some (put name (table .header []) fields)
    | some (table .passed inner) => some (put name (table .header inner) fields)
    | some _ => none
  | name :: path, fields =>
    match fields.lookup name with
    | none => (openTable? path []).map fun inner => put name (table .passed inner) fields
    | some (table origin inner) =>
      (openTable? path inner).map fun inner => put name (table origin inner) fields
    | some (tables (last :: before)) =>
      (openTable? path last).map fun last => put name (tables (last :: before)) fields
    | some _ => none

/-- One more table under a name that stands for several. -/
def openElement? : List String → Fields → Option Fields
  | [], _ => none
  | [name], fields =>
    match fields.lookup name with
    | none => some (put name (tables [[]]) fields)
    | some (tables items) => some (put name (tables ([] :: items)) fields)
    | some _ => none
  | name :: path, fields =>
    match fields.lookup name with
    | none => (openElement? path []).map fun inner => put name (table .passed inner) fields
    | some (table origin inner) =>
      (openElement? path inner).map fun inner => put name (table origin inner) fields
    | some (tables (last :: before)) =>
      (openElement? path last).map fun last => put name (tables (last :: before)) fields
    | some _ => none

/-- A change of the table that a header has opened. -/
def within? (change : Fields → Option Fields) : List String → Fields → Option Fields
  | [], fields => change fields
  | name :: path, fields =>
    match fields.lookup name with
    | some (table origin inner) =>
      (within? change path inner).map fun inner => put name (table origin inner) fields
    | some (tables (last :: before)) =>
      (within? change path last).map fun last => put name (tables (last :: before)) fields
    | _ => none

end Node

/-- The table of an inline list of names and values. -/
def inlineTable? (entries : List (List String × Setting)) : Option Setting := do
  let fields ← entries.foldlM (fun fields e => Node.define? e.2 e.1 fields) ([] : Fields)
  return .table (Node.fieldsToSettings fields)

mutual

def value? : Nat → List Char → Option (Setting × List Char)
  | 0, _ => none
  | fuel + 1, cs =>
    match cs with
    | [] => none
    | c :: rest =>
      if c = '"' ∨ c = '\'' then (text? cs).map fun (s, rest) => (.text s, rest)
      else if c = '[' then do
        let (items, rest) ← items? fuel rest
        return (.array items, rest)
      else if c = '\x7b' then do
        let (entries, rest) ← entries? fuel (skipBlanks rest)
        return (← inlineTable? entries, rest)
      else
        let (scalar, rest) := takeScalar cs
        (scalarValue? scalar).map fun v => (v, rest)

/-- Items of an array up to its closing bracket; a comma may stand behind the last one. -/
def items? : Nat → List Char → Option (List Setting × List Char)
  | 0, _ => none
  | fuel + 1, cs => do
    match ← skipLines? (cs.length + 1) cs with
    | ']' :: rest => return ([], rest)
    | cs =>
      let (item, rest) ← value? fuel cs
      match ← skipLines? (rest.length + 1) rest with
      | ',' :: rest => do
        let (items, rest) ← items? fuel rest
        return (item :: items, rest)
      | ']' :: rest => return ([item], rest)
      | _ => none

/-- Entries of an inline table up to its closing brace; they stand in one line. -/
def entries? : Nat → List Char → Option (List (List String × Setting) × List Char)
  | 0, _ => none
  | fuel + 1, cs =>
    match cs with
    | '\x7d' :: rest => some ([], rest)
    | _ => do
      let (key, rest) ← key? (cs.length + 1) cs
      match rest with
      | '=' :: rest => do
        let (value, rest) ← value? fuel (skipBlanks rest)
        match skipBlanks rest with
        | '\x7d' :: rest => return ([(key, value)], rest)
        | ',' :: rest =>
          match skipBlanks rest with
          | '\x7d' :: _ => none
          | rest => do
            let (entries, rest) ← entries? fuel rest
            return ((key, value) :: entries, rest)
        | _ => none
      | _ => none

end

/-- A header between brackets, as many as opened it, and the end of its line. -/
def header? (closing : List Char) (cs : List Char) : Option (List String × List Char) := do
  let (path, rest) ← key? (cs.length + 1) cs
  return (path, ← lineEnd? (← Text.dropWord? closing rest))

/-- A name, an equals sign, a value and the end of the line. -/
def entry? (cs : List Char) : Option ((List String × Setting) × List Char) := do
  let (key, rest) ← key? (cs.length + 1) cs
  let rest ← Text.dropWord? ['='] rest
  let (value, rest) ← value? (rest.length + 1) (skipBlanks rest)
  return ((key, value), ← lineEnd? rest)

/-- Lines below the header of `path`. -/
def lines? : Nat → List String → Fields → List Char → Option Fields
  | 0, _, _, _ => none
  | fuel + 1, path, fields, cs => do
    match ← skipLines? (cs.length + 1) cs with
    | [] => return fields
    | '[' :: '[' :: rest =>
      let (path, rest) ← header? [']', ']'] rest
      lines? fuel path (← Node.openElement? path fields) rest
    | '[' :: rest =>
      let (path, rest) ← header? [']'] rest
      lines? fuel path (← Node.openTable? path fields) rest
    | rest =>
      let ((key, value), rest) ← entry? rest
      lines? fuel path (← Node.within? (Node.define? value key) path fields) rest

/-- A mark of the byte order may stand in front. -/
def document? (s : String) : Option (List (String × Setting)) :=
  let cs := match s.toList with
    | c :: rest => if c.toNat = 0xFEFF then rest else c :: rest
    | [] => []
  (lines? (cs.length + 1) [] [] cs).map Node.fieldsToSettings

end PanelSource.Toml
