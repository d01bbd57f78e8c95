import VersionGate.Yaml.Char
import VersionGate.Yaml.Fault

/-!
# Cursors

A place in a document: the text from there on, the number of characters before it, its line and its
column. The size of the document goes along with it, so that `left`, the number of characters from
there on, need not be counted. A carriage return with a line feed behind it is one line break, and a
byte order mark takes up no column.

A document mark is three dashes or three points with a separator or the end behind them; at the
start of a line it ends what comes before it.
-/

namespace VersionGate.Yaml

/-- A place in a document. -/
structure Cursor where
  rest : List Char
  /-- The number of characters in the document. -/
  size : Nat
  index : Nat := 0
  line : Nat := 0
  column : Nat := 0
  deriving DecidableEq, Repr

namespace Cursor

/-- The start of a document. -/
def start (cs : List Char) : Cursor := { rest := cs, size := cs.length }

/-- The number of characters from here on. -/
def left (c : Cursor) : Nat := c.size - c.index

/-- Whether the document ends here. -/
def atEnd (c : Cursor) : Bool := c.rest.isEmpty

/-- Whether the next character satisfies `p`. -/
def sees (p : Char → Bool) (c : Cursor) : Bool := c.rest.head?.any p

/-- The place behind the next character. -/
def next (c : Cursor) : Cursor :=
  match c.rest with
  | [] => c
  | ch :: rest =>
    let c := { c with rest, index := c.index + 1 }
    if isBreak ch && !(ch = '\r' && rest.head? = some '\n') then
      { c with line := c.line + 1, column := 0 }
    else if ch = byteOrderMark then c
    else { c with column := c.column + 1 }

/-- The place `n` characters further on. -/
def advance (c : Cursor) : Nat → Cursor
  | 0 => c
  | n + 1 => c.next.advance n

/-- The characters from here on that satisfy `p`. -/
def takeWhile (p : Char → Bool) (c : Cursor) : List Char := c.rest.takeWhile p

/-- The place behind the characters that satisfy `p`. -/
def skipWhile (p : Char → Bool) (c : Cursor) : Cursor := c.advance (c.takeWhile p).length

/-- The place behind the spaces here. -/
def skipSpaces (c : Cursor) : Cursor := c.skipWhile (· = ' ')

/-- The place behind the comment here, if there is one. -/
def skipComment (c : Cursor) : Cursor :=
  if c.sees (· = '#') then c.skipWhile (!isBreak ·) else c

/-- What the line break here stands for, and the place behind it. -/
def lineBreak? (c : Cursor) : Option (Char × Cursor) :=
  match c.rest with
  | '\r' :: '\n' :: _ => some ('\n', c.advance 2)
  | ch :: _ => if isBreak ch then some (breakMeaning ch, c.next) else none
  | [] => none

/-- Whether the text from here on is three of the given character and then a separator. -/
def atMarkOf (m : Char) (c : Cursor) : Bool :=
  match c.rest with
  | x :: y :: z :: rest => x = m && y = m && z = m && endsOr isSeparator rest
  | _ => false

/-- Whether a document mark stands here. -/
def atMark (c : Cursor) : Bool := c.atMarkOf '-' || c.atMarkOf '.'

/-- The place behind spaces, a comment and the end of the line, where nothing else may stand. -/
def skipLine (c : Cursor) : Except Fault Cursor :=
  let c := c.skipSpaces.skipComment
  match c.lineBreak? with
  | some (_, c) => .ok c
  | none => if c.atEnd then .ok c else .error .form

end Cursor

end VersionGate.Yaml
