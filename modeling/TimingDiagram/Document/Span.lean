namespace TimingDiagram

-- A range of bytes of a source text.
structure Span where
  start : Nat
  stop : Nat
  start_le_stop : start ≤ stop
deriving DecidableEq, Repr

namespace Span

-- An end before the start counts as the start.
def between (start stop : Nat) : Span := ⟨start, max start stop, Nat.le_max_left start stop⟩

def length (s : Span) : Nat := s.stop - s.start

def isEmpty (s : Span) : Bool := s.start == s.stop

-- The least range that holds two ranges.
def union (a b : Span) : Span := between (min a.start b.start) (max a.stop b.stop)

-- The number of bytes of the first lines of a text, and the rest of the text.
def afterLines : Nat → List Char → Nat × List Char
  | _, [] => (0, [])
  | 0, cs => (0, cs)
  | lines + 1, c :: rest =>
    let (bytes, others) := afterLines (if c = '\n' then lines else lines + 1) rest
    (c.utf8Size + bytes, others)

-- The number of bytes before the end of the first line.
def lineBytes (cs : List Char) : Nat :=
  ((cs.takeWhile (· ≠ '\n')).map Char.utf8Size).foldr (· + ·) 0

-- Where the character that holds a byte of a text starts and how long it is; past the end there
-- is an empty range.
def charAt : Nat → List Char → Nat × Nat
  | _, [] => (0, 0)
  | byte, c :: rest =>
    if byte < c.utf8Size then (0, c.utf8Size)
    else
      let (start, length) := charAt (byte - c.utf8Size) rest
      (c.utf8Size + start, length)

-- The character at a line and a column of a text, both counted from 1, columns in bytes. A column
-- past the end of its line stands for that end, a line past the last one for the end of the text.
def atLineColumn (source : String) (line column : Nat) : Span :=
  let (before, rest) := afterLines (line - 1) source.toList
  let (start, length) := charAt (min (column - 1) (lineBytes rest)) rest
  between (before + start) (before + start + length)

-- The characters of a text that start inside of a range; `offset` bytes lie before the text.
def sliceFrom (s : Span) (offset : Nat) : List Char → List Char
  | [] => []
  | c :: rest =>
    let others := sliceFrom s (offset + c.utf8Size) rest
    if s.start ≤ offset && offset < s.stop then c :: others else others

def slice (s : Span) (source : String) : String := String.ofList (s.sliceFrom 0 source.toList)

-- The line and the column that are reached after reading some bytes of a text. Lines count from
-- 1; the column is the number of bytes read since the last line break.
def lineColumn (source : String) (offset : Nat) : Nat × Nat :=
  let read := source.toUTF8.toList.take offset
  let newline := '\n'.toUInt8
  (1 + read.count newline, (read.reverse.takeWhile (· ≠ newline)).length)

end Span

end TimingDiagram
