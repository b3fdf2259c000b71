import TimingDiagram.Document.Json.Basic
import TimingDiagram.Number.Read

namespace TimingDiagram.Document.Json

-- What can be wrong with the text of a document.
inductive Fault where
  | endInList | endInObject | endInString | endInValue
  | expectedValue | expectedIdent | expectedColon | expectedListEnd | expectedObjectEnd
  | keyNotString | trailingComma | trailingCharacters | invalidNumber | numberOutOfRange
  | invalidEscape | unpairedSurrogate | unfinishedSurrogate | controlCharacter | tooDeep
deriving DecidableEq, Repr

namespace Fault

def message : Fault → String
  | .endInList => "EOF while parsing a list"
  | .endInObject => "EOF while parsing an object"
  | .endInString => "EOF while parsing a string"
  | .endInValue => "EOF while parsing a value"
  | .expectedValue => "expected value"
  | .expectedIdent => "expected ident"
  | .expectedColon => "expected `:`"
  | .expectedListEnd => "expected `,` or `]`"
  | .expectedObjectEnd => "expected `,` or `\x7d`"
  | .keyNotString => "key must be a string"
  | .trailingComma => "trailing comma"
  | .trailingCharacters => "trailing characters"
  | .invalidNumber => "invalid number"
  | .numberOutOfRange => "number out of range"
  | .invalidEscape => "invalid escape"
  | .unpairedSurrogate => "lone leading surrogate in hex escape"
  | .unfinishedSurrogate => "unexpected end of hex escape"
  | .controlCharacter => "control character (\\u0000-\\u001F) found while parsing a string"
  | .tooDeep => "recursion limit exceeded"

-- Whether the text ended too early, rather than going wrong before its end.
def isEnd : Fault → Bool
  | .endInList | .endInObject | .endInString | .endInValue => true
  | _ => false

end Fault

-- A fault and the number of bytes that were read when it was found.
structure ReadError where
  fault : Fault
  offset : Nat
deriving DecidableEq, Repr

-- The part of a text that is still to be read, and the number of bytes before it.
structure Cursor where
  rest : List Char
  offset : Nat
deriving Repr

namespace Cursor

def advance (c : Cursor) : Cursor :=
  match c.rest with
  | [] => c
  | ch :: rest => ⟨rest, c.offset + ch.utf8Size⟩

-- Passes over as many characters of one byte.
def skip (c : Cursor) (n : Nat) : Cursor := ⟨c.rest.drop n, c.offset + n⟩

def isBlank (ch : Char) : Bool := ch == ' ' || ch == '\n' || ch == '\t' || ch == '\r'

def skipBlanks (c : Cursor) : Cursor := c.skip (c.rest.takeWhile isBlank).length

def fail {α : Type} (c : Cursor) (fault : Fault) : Except ReadError α := .error ⟨fault, c.offset⟩

-- A fault that lies in the next byte counts that byte as read.
def failNext {α : Type} (c : Cursor) (fault : Fault) : Except ReadError α :=
  .error ⟨fault, if c.rest.isEmpty then c.offset else c.offset + 1⟩

end Cursor

-- Reads the rest of a name. A wrong character is found after its first byte.
def readIdent {α : Type} (value : α) : List Char → Cursor → Except ReadError (α × Cursor)
  | [], c => .ok (value, c)
  | expected :: others, c =>
    match c.rest with
    | [] => c.fail .endInValue
    | ch :: _ =>
      if ch = expected then readIdent value others c.advance else c.failNext .expectedIdent

-- The largest significand and the largest exponent that are kept.
def maxSignificand : Nat := Nat.pow 2 64 - 1

def maxExponent : Nat := Nat.pow 2 31 - 1

-- Adds digits to a number as long as it stays within a limit. Also counts the digits taken.
def takeDigits (limit : Nat) (n taken : Nat) : List Char → Nat × Nat
  | [] => (n, taken)
  | ch :: rest =>
    let next := 10 * n + (ch.toNat - '0'.toNat)
    if limit < next then (n, taken) else takeDigits limit next (taken + 1) rest

-- A significand times a power of ten, by one multiplication or division; a power below the range
-- of the format is taken in steps. Nothing is said of a result that is too large.
def scale (x : Float) (exponent : Int) : Option Float :=
  if h : exponent < -308 then
    if x == 0.0 then some x else scale (x / Float.ofScientific 1 false 308) (exponent + 308)
  else if exponent < 0 then some (x / Float.ofScientific 1 false exponent.natAbs)
  else if exponent ≤ 308 then
    let y := x * Float.ofScientific 1 false exponent.natAbs
    if y.isInf then none else some y
  else if x == 0.0 then some x
  else none
termination_by (-exponent).toNat
decreasing_by omega

def floatOf (negative : Bool) (significand : Nat) (exponent : Int) (c : Cursor) :
    Except ReadError (Number × Cursor) :=
  match scale (Float.ofNat significand) exponent with
  | some x => .ok (.float (if negative then -x else x), c)
  | none => c.fail .numberOutOfRange

-- Reads the exponent of a number behind its mark. An exponent that is too large makes the number
-- too large, or zero.
def readExponent (negative : Bool) (significand : Nat) (start : Int) (c : Cursor) :
    Except ReadError (Number × Cursor) :=
  let (below, c) :=
    match c.rest with
    | '+' :: _ => (false, c.advance)
    | '-' :: _ => (true, c.advance)
    | _ => (false, c)
  let digits := c.rest.takeWhile Char.isDigit
  if digits.isEmpty then
    if c.rest.isEmpty then c.fail .endInValue else c.failNext .invalidNumber
  else
    let (e, taken) := takeDigits maxExponent 0 0 digits
    if taken < digits.length then
      if significand ≠ 0 && !below then (c.skip (taken + 1)).fail .numberOutOfRange
      else .ok (.float (if negative then -0.0 else 0.0), c.skip digits.length)
    else
      let exponent := if below then start - e else start + e
      floatOf negative significand exponent (c.skip digits.length)

-- Reads an exponent, if there is one.
def readScale (negative : Bool) (significand : Nat) (exponent : Int) (c : Cursor) :
    Except ReadError (Number × Cursor) :=
  match c.rest with
  | 'e' :: _ => readExponent negative significand exponent c.advance
  | 'E' :: _ => readExponent negative significand exponent c.advance
  | _ => floatOf negative significand exponent c

-- Reads the fraction behind a point; digits that do not fit into the significand are dropped.
def readFraction (negative : Bool) (significand : Nat) (exponent : Int) (c : Cursor) :
    Except ReadError (Number × Cursor) :=
  let digits := c.rest.takeWhile Char.isDigit
  if digits.isEmpty then
    if c.rest.isEmpty then c.fail .endInValue else c.failNext .invalidNumber
  else
    let (significand, taken) := takeDigits maxSignificand significand 0 digits
    readScale negative significand (exponent - taken) (c.skip digits.length)

-- A number without point and exponent.
def wholeNumber (negative : Bool) (significand : Nat) : Number :=
  if !negative then .integer significand
  else if significand = 0 || Nat.pow 2 63 < significand then .float (-Float.ofNat significand)
  else .integer (-(significand : Int))

-- Reads a number behind its sign. A zero at the front must stand alone; digits that do not fit
-- into the significand count as a power of ten.
def readNumber (negative : Bool) (c : Cursor) : Except ReadError (Number × Cursor) :=
  let digits := c.rest.takeWhile Char.isDigit
  match digits with
  | [] => if c.rest.isEmpty then c.fail .endInValue else c.failNext .invalidNumber
  | first :: others =>
    if first = '0' && !others.isEmpty then c.advance.failNext .invalidNumber
    else
      let (significand, taken) := takeDigits maxSignificand 0 0 digits
      let dropped := digits.length - taken
      let c := c.skip digits.length
      match c.rest with
      | '.' :: _ => readFraction negative significand dropped c.advance
      | 'e' :: _ => readExponent negative significand dropped c.advance
      | 'E' :: _ => readExponent negative significand dropped c.advance
      | _ =>
        if dropped = 0 then .ok (wholeNumber negative significand, c)
        else floatOf negative significand dropped c

def hexValue (ch : Char) : Option Nat :=
  if ch.isDigit then some (ch.toNat - '0'.toNat)
  else if 'a' ≤ ch ∧ ch ≤ 'f' then some (ch.toNat - 'a'.toNat + 10)
  else if 'A' ≤ ch ∧ ch ≤ 'F' then some (ch.toNat - 'A'.toNat + 10)
  else none

def hexNumber (cs : List Char) : Option Nat :=
  cs.foldl (fun n ch => do return 16 * (← n) + (← hexValue ch)) (some 0)

def byteLength (cs : List Char) : Nat := (cs.map Char.utf8Size).foldr (· + ·) 0

-- Reads the four bytes of a code unit.
def readUnit (c : Cursor) : Except ReadError (Nat × Cursor) :=
  let bytes := byteLength c.rest
  if bytes < 4 then .error ⟨.endInString, c.offset + bytes⟩
  else
    match hexNumber (c.rest.take 4) with
    | some n => .ok (n, c.skip 4)
    | none => .error ⟨.invalidEscape, c.offset + 4⟩

-- Reads a character given by its number: one unit, or two that form a surrogate pair.
def readCodePoint (c : Cursor) : Except ReadError (Char × Cursor) := do
  let (n, c) ← readUnit c
  if 0xdc00 ≤ n ∧ n ≤ 0xdfff then c.fail .unpairedSurrogate
  else if n < 0xd800 ∨ 0xdbff < n then .ok (Char.ofNat n, c)
  else
    match c.rest with
    | [] => c.fail .endInString
    | '\\' :: rest =>
      let c := c.advance
      match rest with
      | [] => c.fail .endInString
      | 'u' :: _ => do
        let (low, c) ← readUnit c.advance
        if low < 0xdc00 ∨ 0xdfff < low then c.fail .unpairedSurrogate
        else .ok (Char.ofNat (0x10000 + (n - 0xd800) * 0x400 + (low - 0xdc00)), c)
      | _ => c.failNext .unfinishedSurrogate
    | _ => c.failNext .unfinishedSurrogate

-- Reads an escape behind its backslash.
def readEscape (c : Cursor) : Except ReadError (Char × Cursor) :=
  match c.rest with
  | [] => c.fail .endInString
  | ch :: _ =>
    match ch with
    | '"' => .ok ('"', c.advance)
    | '\\' => .ok ('\\', c.advance)
    | '/' => .ok ('/', c.advance)
    | 'b' => .ok ('\x08', c.advance)
    | 'f' => .ok ('\x0c', c.advance)
    | 'n' => .ok ('\n', c.advance)
    | 'r' => .ok ('\r', c.advance)
    | 't' => .ok ('\t', c.advance)
    | 'u' => readCodePoint c.advance
    | _ => c.failNext .invalidEscape

-- Reads a string behind its opening quote; `seen` holds what was read, in reverse. Each step reads
-- at least one character.
def readStringFrom : Nat → List Char → Cursor → Except ReadError (String × Cursor)
  | 0, _, c => c.fail .endInString
  | fuel + 1, seen, c =>
    match c.rest with
    | [] => c.fail .endInString
    | ch :: _ =>
      if ch = '"' then .ok (String.ofList seen.reverse, c.advance)
      else if ch = '\\' then do
        let (escaped, c) ← readEscape c.advance
        readStringFrom fuel (escaped :: seen) c
      else if ch.toNat < 0x20 then c.advance.fail .controlCharacter
      else readStringFrom fuel (ch :: seen) c.advance

def readString (c : Cursor) : Except ReadError (String × Cursor) :=
  readStringFrom (c.rest.length + 1) [] c

-- Reads a colon.
def readColon (c : Cursor) : Except ReadError Cursor :=
  let c := c.skipBlanks
  match c.rest with
  | [] => c.fail .endInObject
  | ':' :: _ => .ok c.advance
  | _ => c.failNext .expectedColon

mutual

-- Reads a value. At most `depth` lists and objects may still be opened around one another.
def readValue : Nat → Nat → Cursor → Except ReadError (Json × Cursor)
  | 0, _, c => c.fail .expectedValue
  | fuel + 1, depth, c =>
    let c := c.skipBlanks
    match c.rest with
    | [] => c.fail .endInValue
    | ch :: _ =>
      if ch = 'n' then readIdent .null "ull".toList c.advance
      else if ch = 't' then readIdent (.bool true) "rue".toList c.advance
      else if ch = 'f' then readIdent (.bool false) "alse".toList c.advance
      else if ch = '-' then do
        let (n, c) ← readNumber true c.advance
        .ok (.number n, c)
      else if ch.isDigit then do
        let (n, c) ← readNumber false c
        .ok (.number n, c)
      else if ch = '"' then do
        let (s, c) ← readString c.advance
        .ok (.string s, c)
      else if ch = '[' then
        match depth with
        | 0 => c.failNext .tooDeep
        | depth + 1 => readItems fuel depth true [] c.advance
      else if ch = '{' then
        match depth with
        | 0 => c.failNext .tooDeep
        | depth + 1 => readMembers fuel depth true [] c.advance
      else c.failNext .expectedValue

-- Reads the rest of a list; `seen` holds the items read, in reverse.
def readItems : Nat → Nat → Bool → List Json → Cursor → Except ReadError (Json × Cursor)
  | 0, _, _, _, c => c.fail .endInList
  | fuel + 1, depth, first, seen, c =>
    let c := c.skipBlanks
    match c.rest with
    | [] => c.fail .endInList
    | ch :: _ =>
      if ch = ']' then .ok (.array seen.reverse, c.advance)
      else if first then do
        let (v, c) ← readValue fuel depth c
        readItems fuel depth false (v :: seen) c
      else if ch = ',' then
        let c := c.advance.skipBlanks
        match c.rest with
        | [] => c.fail .endInValue
        | ']' :: _ => c.failNext .trailingComma
        | _ => do
          let (v, c) ← readValue fuel depth c
          readItems fuel depth false (v :: seen) c
      else c.failNext .expectedListEnd

-- Reads the rest of an object; `seen` holds the members read, in their order.
def readMembers : Nat → Nat → Bool → List (String × Json) → Cursor →
    Except ReadError (Json × Cursor)
  | 0, _, _, _, c => c.fail .endInObject
  | fuel + 1, depth, first, seen, c =>
    let c := c.skipBlanks
    match c.rest with
    | [] => c.fail .endInObject
    | ch :: _ =>
      if ch = '}' then .ok (.object seen, c.advance)
      else if first then
        if ch = '"' then do
          let (name, c) ← readString c.advance
          let c ← readColon c
          let (v, c) ← readValue fuel depth c
          readMembers fuel depth false (insert name v seen) c
        else c.failNext .keyNotString
      else if ch = ',' then
        let c := c.advance.skipBlanks
        match c.rest with
        | [] => c.fail .endInValue
        | '"' :: _ => do
          let (name, c) ← readString c.advance
          let c ← readColon c
          let (v, c) ← readValue fuel depth c
          readMembers fuel depth false (insert name v seen) c
        | '}' :: _ => c.failNext .trailingComma
        | _ => c.failNext .keyNotString
      else c.failNext .expectedObjectEnd

end

-- How many lists and objects may be opened around one another.
def maxDepth : Nat := 127

-- Reads a document: one value with blanks around it. Every value and every item takes at least one
-- character, so the fuel is never used up.
def parse (source : String) : Except ReadError Json := do
  let cs := source.toList
  let (v, c) ← readValue (2 * cs.length + 2) maxDepth ⟨cs, 0⟩
  let c := c.skipBlanks
  if c.rest.isEmpty then .ok v else c.failNext .trailingCharacters

end TimingDiagram.Document.Json
