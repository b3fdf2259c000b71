import TimingDiagram.Document.Json.Basic
import TimingDiagram.Number.Printed

namespace TimingDiagram.Document.Json

-- The decimal powers of the first digit that are written without an exponent.
def isPositional (power : Int) : Bool := -5 ≤ power && power ≤ 15

-- The fewest digits that read back, the even one of two equally near choices, with a fraction even
-- if there is nothing in it.
def floatText (x : Float) : String :=
  let b := Binary.ofFloat x
  let digits :=
    if b.significand = 0 then "0.0"
    else
      let d := b.shortest .even
      if isPositional d.power then
        let text := d.plain
        if text.toList.contains '.' then text else text ++ ".0"
      else d.scientific
  signText b.negative ++ digits

def Number.text : Number → String
  | .integer n => toString n
  | .float x => floatText x

def hexDigit (n : Nat) : Char := ("0123456789abcdef".toList)[n]?.getD '0'

-- The characters that a string cannot hold as they are.
def escapeChar (ch : Char) : List Char :=
  match ch with
  | '"' => ['\\', '"']
  | '\\' => ['\\', '\\']
  | '\x08' => ['\\', 'b']
  | '\x0c' => ['\\', 'f']
  | '\n' => ['\\', 'n']
  | '\r' => ['\\', 'r']
  | '\t' => ['\\', 't']
  | ch =>
    let n := ch.toNat
    if n < 0x20 then ['\\', 'u', '0', '0', hexDigit (n / 16), hexDigit (n % 16)] else [ch]

def quoted (s : String) : String :=
  "\"" ++ String.ofList (s.toList.flatMap escapeChar) ++ "\""

mutual

-- The text of a value without blanks between its parts.
def text : Json → String
  | .null => "null"
  | .bool b => if b then "true" else "false"
  | .number n => n.text
  | .string s => quoted s
  | .array items => "[" ++ itemsText items ++ "]"
  | .object members => "\x7b" ++ membersText members ++ "\x7d"

def itemsText : List Json → String
  | [] => ""
  | [v] => text v
  | v :: rest => text v ++ "," ++ itemsText rest

def membersText : List (String × Json) → String
  | [] => ""
  | [(name, v)] => quoted name ++ ":" ++ text v
  | (name, v) :: rest => quoted name ++ ":" ++ text v ++ "," ++ membersText rest

end

end TimingDiagram.Document.Json
