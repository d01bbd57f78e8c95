import VersionGate.Text.Hex
import VersionGate.Text.Letter
import VersionGate.Yaml.Cursor

/-!
# Quoted scalars

Between single quotes only the single quote itself is special, written twice. Between double quotes
a backslash starts an escape. In both a line break with the blanks around it is folded: one line
break is a space, further ones are line feeds. A document mark may not start a line.

An escape by code can be half of a character, so a scalar between quotes is a row of letters.
-/

namespace VersionGate.Yaml.QuotedScalar

open Text (Letter)

/-- What the short escapes stand for. -/
def shortEscapes : List (Char × Char) :=
  [('0', '\x00'), ('a', '\x07'), ('b', '\x08'), ('t', '\t'), ('\t', '\t'), ('n', '\n'),
   ('v', '\x0b'), ('f', '\x0c'), ('r', '\r'), ('e', '\x1b'), (' ', ' '), ('"', '"'), ('\\', '\\'),
   ('/', '/'), ('N', '\u0085'), ('_', '\u00a0'), ('L', '\u2028'), ('P', '\u2029')]

/-- How many digits the escapes by code have. -/
def codeEscapes : List (Char × Nat) := [('x', 2), ('u', 4), ('U', 8)]

/-- The letter with a code. -/
def letterOfCode (code : Nat) : Except Fault Letter :=
  if greatestCode < code then .error (.noCharacter code) else .ok (.ofCode code)

/-- The empty lines from the start of a line on, and the blanks of the line behind them. -/
def emptyLines : Nat → Cursor → Except Fault (List Char × Cursor)
  | 0, _ => .error .form
  | fuel + 1, c =>
    if c.atMark then .error .form
    else
      let c := c.skipWhile isBlank
      match c.lineBreak? with
      | none => .ok ([], c)
      | some (b, c) => do
        let (more, c) ← emptyLines fuel c
        .ok (b :: more, c)

/-- What a line break and the empty lines behind it fold to. -/
def fold (b : Char) (empty : List Char) : List Char :=
  if b ≠ '\n' then b :: empty
  else if empty.isEmpty then [' ']
  else empty

/-- Reads the blanks at a place where there are some, or a line break. -/
def readGap (c : Cursor) : Except Fault (List Char × Cursor) :=
  let blanks := c.takeWhile isBlank
  let c := c.skipWhile isBlank
  match c.lineBreak? with
  | none => .ok (blanks, c)
  | some (b, c) => do
    let (empty, c) ← emptyLines (c.left + 1) c
    .ok (fold b empty, c)

/-- Reads an escape, from behind its backslash. A line break that is escaped goes without a trace,
but the empty lines behind it do not. -/
def readEscape (c : Cursor) : Except Fault (List Letter × Cursor) :=
  match c.rest with
  | [] => .error .form
  | ch :: rest =>
    match shortEscapes.lookup ch, codeEscapes.lookup ch with
    | some meaning, _ => .ok ([.char meaning], c.next)
    | none, some width =>
      let digits := rest.take width
      if digits.length = width && digits.all Text.isHexDigit then do
        let meaning ← letterOfCode (Text.hexValue digits)
        .ok ([meaning], c.advance (width + 1))
      else .error .form
    | none, none =>
      match c.lineBreak? with
      | none => .error .form
      | some (_, c) => do
        let (empty, c) ← emptyLines (c.left + 1) c
        .ok (empty.map .char, c)

/-- Reads a quoted scalar from behind its opening quote, up to and with the closing one. -/
def readInside (quote : Char) : Nat → Cursor → Except Fault (List Letter × Cursor)
  | 0, _ => .error .form
  | fuel + 1, c =>
    match c.rest with
    | [] => .error .form
    | ch :: rest =>
      if ch = quote then
        if quote = '\'' && rest.head? = some '\'' then do
          let (more, c) ← readInside quote fuel (c.advance 2)
          .ok (.char '\'' :: more, c)
        else .ok ([], c.next)
      else if ch = '\\' && quote = '"' then do
        let (meaning, c) ← readEscape c.next
        let (more, c) ← readInside quote fuel c
        .ok (meaning ++ more, c)
      else if isSeparator ch then do
        let (gap, c) ← readGap c
        let (more, c) ← readInside quote fuel c
        .ok (gap.map .char ++ more, c)
      else do
        let (more, c) ← readInside quote fuel c.next
        .ok (.char ch :: more, c)

/-- Reads a quoted scalar from its opening quote on. -/
def read (quote : Char) (c : Cursor) : Except Fault (List Letter × Cursor) :=
  readInside quote c.left c.next

end VersionGate.Yaml.QuotedScalar
