import TimingDiagram.Toml.Scalar

namespace TimingDiagram.Toml

-- A reader takes what it reads off the front of a text, or gives up.
abbrev Reading := StateT (List Char) Option

def isBlank (c : Char) : Bool := c == ' ' || c == '\t'

-- The control characters, which can stand nowhere but for the tabulator.
def isControl (c : Char) : Bool := (c.toNat < 0x20 && c != '\t') || c.toNat == 0x7f

def dropLineEnd? : List Char → Option (List Char)
  | '\n' :: rest => some rest
  | '\r' :: '\n' :: rest => some rest
  | _ => none

def skipBlanks : Reading Unit := modify (List.dropWhile isBlank)

-- Passes over a comment, if there is one.
def skipComment : Reading Unit := do
  match ← get with
  | '#' :: rest => set (rest.dropWhile (!isControl ·))
  | _ => return ()

-- The next character, if there is one.
def peek : Reading (Option Char) := do return (← get).head?

def expect (c : Char) : Reading Unit := do
  match ← get with
  | d :: rest => if d = c then set rest else failure
  | [] => failure

-- Passes over the rest of a line, on which nothing but a comment may stand.
def endLine : Reading Unit := do
  skipBlanks
  skipComment
  match ← get with
  | [] => return ()
  | cs =>
    match dropLineEnd? cs with
    | some rest => set rest
    | none => failure

-- Passes over blanks, comments and line ends. Each round but the last takes a character.
def skipLinesFrom : Nat → Reading Unit
  | 0 => return ()
  | fuel + 1 => do
    skipBlanks
    skipComment
    match dropLineEnd? (← get) with
    | some rest =>
      set rest
      skipLinesFrom fuel
    | none => return ()

def skipLines : Reading Unit := do skipLinesFrom ((← get).length + 1)

-- A character given by its number, which has exactly `width` digits.
def numbered? (width : Nat) (cs : List Char) : Option (Char × List Char) :=
  let digits := cs.take width
  if digits.length = width && digits.all (isDigitOf 16) then
    let n := valueIn 16 digits
    if n.isValidChar then some (Char.ofNat n, cs.drop width) else none
  else none

-- The character that stands behind a backslash.
def escaped? : List Char → Option (Char × List Char)
  | 'b' :: rest => some ('\x08', rest)
  | 't' :: rest => some ('\t', rest)
  | 'n' :: rest => some ('\n', rest)
  | 'f' :: rest => some ('\x0c', rest)
  | 'r' :: rest => some ('\r', rest)
  | 'e' :: rest => some ('\x1b', rest)
  | '"' :: rest => some ('"', rest)
  | '\\' :: rest => some ('\\', rest)
  | 'x' :: rest => numbered? 2 rest
  | 'u' :: rest => numbered? 4 rest
  | 'U' :: rest => numbered? 8 rest
  | _ => none

-- Drops all blanks and line ends at the front of a text.
def dropGap : List Char → List Char
  | '\r' :: '\n' :: rest => dropGap rest
  | c :: rest => if isBlank c || c == '\n' then dropGap rest else c :: rest
  | [] => []

-- A backslash at the end of a line takes away the line end and all blanks and line ends behind it.
def joined? (cs : List Char) : Option (List Char) :=
  (dropLineEnd? (cs.dropWhile isBlank)).map dropGap

-- The rest of a string that ends with its quote on the same line. Each step takes a character.
def lineString (quote : Char) (seen : List Char) : Nat → List Char → Option (String × List Char)
  | 0, _ => none
  | _, [] => none
  | fuel + 1, c :: rest =>
    if c = quote then some (String.ofList seen.reverse, rest)
    else if c = '\\' && quote = '"' then
      match escaped? rest with
      | some (d, rest) => lineString quote (d :: seen) fuel rest
      | none => none
    else if isControl c then none
    else lineString quote (c :: seen) fuel rest

-- The rest of a string that ends with three quotes, in front of which one or two more belong to
-- the string. Each step takes a character.
def blockString (quote : Char) (seen : List Char) : Nat → List Char → Option (String × List Char)
  | 0, _ => none
  | _, [] => none
  | fuel + 1, c :: rest =>
    if c = quote then
      let count := (c :: rest).takeWhile (· == quote) |>.length
      if 6 ≤ count then none
      else if 3 ≤ count then
        some (String.ofList (seen.reverse ++ List.replicate (count - 3) quote),
          (c :: rest).drop count)
      else blockString quote (c :: seen) fuel rest
    else if c = '\\' && quote = '"' then
      match escaped? rest with
      | some (d, rest) => blockString quote (d :: seen) fuel rest
      | none =>
        match joined? rest with
        | some rest => blockString quote seen fuel rest
        | none => none
    else
      match c, rest with
      | '\n', _ => blockString quote (c :: seen) fuel rest
      | '\r', '\n' :: others => blockString quote ('\n' :: c :: seen) fuel others
      | _, _ => if isControl c then none else blockString quote (c :: seen) fuel rest

-- A string behind its first quote.
def readLineString (quote : Char) : Reading String := do
  let cs ← get
  match lineString quote [] (cs.length + 1) cs with
  | some (s, rest) =>
    set rest
    return s
  | none => failure

-- A string behind its first three quotes. A line end right behind them does not count.
def readBlockString (quote : Char) : Reading String := do
  let cs ← get
  let cs := (dropLineEnd? cs).getD cs
  match blockString quote [] (cs.length + 1) cs with
  | some (s, rest) =>
    set rest
    return s
  | none => failure

def readString (quote : Char) : Reading String := do
  match ← get with
  | a :: b :: c :: rest =>
    if a = quote && b = quote && c = quote then
      set rest
      readBlockString quote
    else
      set (b :: c :: rest)
      readLineString quote
  | _ =>
    expect quote
    readLineString quote

def isKeyChar (c : Char) : Bool := c.isAlphanum || c == '-' || c == '_'

-- One part of a key: a word, or a string on one line.
def readKeyPart : Reading String := do
  match ← peek with
  | some '"' =>
    expect '"'
    readLineString '"'
  | some '\'' =>
    expect '\''
    readLineString '\''
  | _ =>
    let cs ← get
    let word := cs.takeWhile isKeyChar
    if word.isEmpty then failure
    set (cs.dropWhile isKeyChar)
    return String.ofList word

-- The parts of a key with points between them, the last one apart. At most `most` parts may still
-- come.
def readKeyFrom (seen : List String) : Nat → Reading (List String × String)
  | 0 => failure
  | most + 1 => do
    skipBlanks
    let part ← readKeyPart
    skipBlanks
    match ← peek with
    | some '.' =>
      expect '.'
      readKeyFrom (part :: seen) most
    | _ => return (seen.reverse, part)

-- How many parts a key may have, and how many lists and tables may be opened around one another.
def maxDepth : Nat := 80

def readKey : Reading (List String × String) := readKeyFrom [] maxDepth

def isScalarChar (c : Char) : Bool := c.isAlphanum || ['+', '-', '.', ':', '_'].contains c

-- A value that is no string, list or table. A blank may divide a day from a time.
def readScalar : Reading Value := do
  let cs ← get
  let word := cs.takeWhile isScalarChar
  let rest := cs.dropWhile isScalarChar
  let time := (rest.drop 1).takeWhile isScalarChar
  let (word, rest) :=
    if dropDay? word == some [] && rest.head? == some ' ' && time.head?.any Char.isDigit then
      (word ++ ' ' :: time, (rest.drop 1).dropWhile isScalarChar)
    else (word, rest)
  match scalar? word with
  | some value =>
    set rest
    return value
  | none => failure

mutual

-- Reads a value. At most `depth` lists and tables may still be opened around one another. The fuel
-- is the number of characters that are left.
def readValue : Nat → Nat → Reading Value
  | 0, _ => failure
  | fuel + 1, depth => do
    match ← peek with
    | some '"' => return .string (← readString '"')
    | some '\'' => return .string (← readString '\'')
    | some '[' =>
      match depth with
      | 0 => failure
      | depth + 1 =>
        expect '['
        return .array (← readItems fuel depth)
    | some '{' =>
      match depth with
      | 0 => failure
      | depth + 1 =>
        expect '{'
        return .table .inline (← readEntries fuel depth [])
    | _ => readScalar

-- The rest of a list. A comma may stand behind the last item.
def readItems : Nat → Nat → Reading (List Value)
  | 0, _ => failure
  | fuel + 1, depth => do
    skipLines
    if (← peek) == some ']' then
      expect ']'
      return []
    let first ← readValue fuel depth
    skipLines
    if (← peek) == some ',' then
      expect ','
      return first :: (← readItems fuel depth)
    expect ']'
    return [first]

-- The rest of a table in braces, whose first entries are read. Line ends may stand anywhere but
-- inside a key or a value, and a comma behind the last entry.
def readEntries : Nat → Nat → Table → Reading Table
  | 0, _, _ => failure
  | fuel + 1, depth, entries => do
    skipLines
    if (← peek) == some '}' then
      expect '}'
      return entries
    let (path, name) ← readKey
    skipLines
    expect '='
    skipLines
    let value ← readValue fuel depth
    match Table.enter value true path name entries with
    | none => failure
    | some entries =>
      skipLines
      if (← peek) == some ',' then
        expect ','
        readEntries fuel depth entries
      else
        expect '}'
        return entries

end

-- Reads a line with an entry of the table that the last header has opened.
def readEntry (header : List String) (root : Table) : Reading Table := do
  let (path, name) ← readKey
  expect '='
  skipBlanks
  let value ← readValue (2 * (← get).length + 2) maxDepth
  endLine
  match root.change (Table.enter value true path name) header with
  | some root => return root
  | none => failure

-- Reads a line with a header. Two brackets open the next table of a table of tables.
def readHeader (root : Table) : Reading (List String × Table) := do
  expect '['
  let double := (← peek) == some '['
  if double then expect '['
  let (path, name) ← readKey
  expect ']'
  if double then expect ']'
  endLine
  match root.change (if double then Table.openNext name else Table.openTable name) path with
  | some root => return (path ++ [name], root)
  | none => failure

-- Reads lines up to the end. Each round but the last takes a character.
def readLines : Nat → List String → Table → Reading Table
  | 0, _, root => return root
  | fuel + 1, header, root => do
    skipLines
    match ← peek with
    | none => return root
    | some '[' =>
      let (header, root) ← readHeader root
      readLines fuel header root
    | some _ =>
      let root ← readEntry header root
      readLines fuel header root

-- Reads a whole text, possibly behind a byte order mark.
def parse? (text : String) : Option Table :=
  let cs := match text.toList with
    | '\ufeff' :: rest => rest
    | cs => cs
  match (readLines (cs.length + 1) [] []).run cs with
  | some (root, []) => some root
  | _ => none

end TimingDiagram.Toml
