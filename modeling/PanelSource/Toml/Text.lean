import PanelSource.Text.Basic

/-! # Blanks, comments and texts of TOML -/
namespace PanelSource.Toml

def isBlank (c : Char) : Bool := c == ' ' || c == '\t'

def skipBlanks (cs : List Char) : List Char := cs.dropWhile isBlank

def isControl (c : Char) : Bool := (c.toNat < 0x20 && c != '\t') || c.toNat == 0x7F

def newline? : List Char → Option (List Char)
  | '\n' :: rest => some rest
  | '\r' :: '\n' :: rest => some rest
  | _ => none

/-- The text from the end of the line that a comment stands in. -/
def skipComment? (cs : List Char) : Option (List Char) :=
  match cs with
  | '#' :: _ =>
    let line := cs.takeWhile (· != '\n')
    let body := match line.reverse with
      | '\r' :: before => before
      | all => all
    if body.any isControl then none else some (cs.drop body.length)
  | _ => some cs

/-- The end of a line, behind blanks and a comment. -/
def lineEnd? (cs : List Char) : Option (List Char) := do
  match ← skipComment? (skipBlanks cs) with
  | [] => some []
  | rest => newline? rest

/-- Blanks, line ends and comments. -/
def skipLines? : Nat → List Char → Option (List Char)
  | 0, cs => some cs
  | fuel + 1, cs =>
    match skipBlanks cs with
    | [] => some []
    | '#' :: rest => do skipLines? fuel (← skipComment? ('#' :: rest))
    | rest =>
      match newline? rest with
      | some rest => skipLines? fuel rest
      | none => some rest

def scalar? (n : Nat) : Option Char :=
  if n < 0xD800 ∨ (0xE000 ≤ n ∧ n ≤ 0x10FFFF) then some (Char.ofNat n) else none

def hexNumber? : Nat → List Char → Option Nat
  | n, [] => some n
  | n, c :: cs => do hexNumber? (16 * n + (← Text.hexValue? c)) cs

def codePoint? (width : Nat) (cs : List Char) : Option (Char × List Char) :=
  if (cs.take width).length = width then do
    return (← scalar? (← hexNumber? 0 (cs.take width)), cs.drop width)
  else none

/-- The character that an escape stands for, after its backslash. -/
def escape? : List Char → Option (Char × List Char)
  | 'b' :: rest => some (Char.ofNat 8, rest)
  | 't' :: rest => some ('\t', rest)
  | 'n' :: rest => some ('\n', rest)
  | 'f' :: rest => some (Char.ofNat 12, rest)
  | 'r' :: rest => some ('\r', rest)
  | '"' :: rest => some ('"', rest)
  | '\\' :: rest => some ('\\', rest)
  | 'u' :: rest => codePoint? 4 rest
  | 'U' :: rest => codePoint? 8 rest
  | _ => none

/-- A text in double quotes, after the first. -/
def basicText? : Nat → List Char → Option (List Char × List Char)
  | 0, _ => none
  | _ + 1, [] => none
  | fuel + 1, c :: rest =>
    if c = '"' then some ([], rest)
    else if c = '\\' then do
      let (e, rest) ← escape? rest
      let (s, rest) ← basicText? fuel rest
      return (e :: s, rest)
    else if isControl c then none
    else do
      let (s, rest) ← basicText? fuel rest
      return (c :: s, rest)

/-- A text in single quotes, after the first; nothing is escaped in it. -/
def literalText? : List Char → Option (List Char × List Char)
  | [] => none
  | c :: rest =>
    if c = '\'' then some ([], rest)
    else if isControl c then none
    else (literalText? rest).map fun (s, rest) => (c :: s, rest)

/-- Three quotes close a text of many lines; one or two more before them belong to it. -/
def closing? (quote : Char) : List Char → Option (List Char × List Char)
  | a :: b :: c :: d :: e :: rest =>
    if a = quote ∧ b = quote ∧ c = quote then
      if d = quote ∧ e = quote then some ([quote, quote], rest)
      else if d = quote then some ([quote], e :: rest)
      else some ([], d :: e :: rest)
    else none
  | [a, b, c, d] =>
    if a = quote ∧ b = quote ∧ c = quote then
      if d = quote then some ([quote], []) else some ([], [d])
    else none
  | [a, b, c] => if a = quote ∧ b = quote ∧ c = quote then some ([], []) else none
  | _ => none

/-- A backslash at the end of a line takes the line end and the blanks after it away. -/
def lineJoin? (cs : List Char) : Option (List Char) :=
  (newline? (skipBlanks cs)).map fun rest =>
    rest.dropWhile fun c => isBlank c || c == '\n' || c == '\r'

/-- A text of many lines, after its opening quotes. -/
def longText? (quote : Char) : Nat → List Char → Option (List Char × List Char)
  | 0, _ => none
  | _ + 1, [] => none
  | fuel + 1, c :: rest =>
    match closing? quote (c :: rest) with
    | some closed => some closed
    | none =>
      match newline? (c :: rest) with
      | some rest => (longText? quote fuel rest).map fun (s, rest) => ('\n' :: s, rest)
      | none =>
        if c = '\\' ∧ quote = '"' then
          match lineJoin? rest with
          | some rest => longText? quote fuel rest
          | none => do
            let (e, rest) ← escape? rest
            let (s, rest) ← longText? quote fuel rest
            return (e :: s, rest)
        else if isControl c then none
        else (longText? quote fuel rest).map fun (s, rest) => (c :: s, rest)

/-- A text in one of the four forms. The first line end of a text of many lines is no part of it. -/
def text? (cs : List Char) : Option (String × List Char) :=
  let fuel := cs.length + 1
  let long (quote : Char) (rest : List Char) : Option (List Char × List Char) :=
    longText? quote fuel ((newline? rest).getD rest)
  let scanned := match cs with
    | '"' :: '"' :: '"' :: rest => long '"' rest
    | '\'' :: '\'' :: '\'' :: rest => long '\'' rest
    | '"' :: rest => basicText? fuel rest
    | '\'' :: rest => literalText? rest
    | _ => none
  scanned.map fun (s, rest) => (String.ofList s, rest)

def isBareKey (c : Char) : Bool := c.isAlphanum || c == '_' || c == '-'

/-- A name: bare, or a text of one line. -/
def name? (cs : List Char) : Option (String × List Char) :=
  match cs with
  | '"' :: rest => (basicText? (cs.length + 1) rest).map fun (s, rest) => (String.ofList s, rest)
  | '\'' :: rest => (literalText? rest).map fun (s, rest) => (String.ofList s, rest)
  | _ =>
    match cs.takeWhile isBareKey with
    | [] => none
    | s => some (String.ofList s, cs.dropWhile isBareKey)

/-- Names with points between them, and blanks around the points. -/
def key? : Nat → List Char → Option (List String × List Char)
  | 0, _ => none
  | fuel + 1, cs => do
    let (first, rest) ← name? (skipBlanks cs)
    match skipBlanks rest with
    | '.' :: rest => (key? fuel rest).map fun (more, rest) => (first :: more, rest)
    | rest => some ([first], rest)

end PanelSource.Toml
