import VersionGate.Yaml.Cursor

/-!
# Block scalars

A block scalar is written on lines of its own, below a header that says whether lines are kept or
folded, how far they are indented, and what becomes of the line breaks at the end. Folding joins two
lines by a space if neither starts with a blank; empty lines between them then count instead.
-/

namespace VersionGate.Yaml.BlockScalar

/-- What becomes of the line breaks at the end: one is kept, or none, or all of them. -/
inductive Chomping where
  | clip
  | strip
  | keep
  deriving DecidableEq, Repr

/-- The chomping that a sign in the header asks for. -/
def chomping? (c : Char) : Option Chomping :=
  if c = '+' then some .keep else if c = '-' then some .strip else none

/-- The indentation that a digit in the header asks for; zero is none. -/
def increment (c : Char) : Except Fault Nat :=
  if c = '0' then .error .form else .ok (c.toNat - '0'.toNat)

/-- Reads the header: the two signs, in either order, each at most once. -/
def readHeader (c : Cursor) : Except Fault (Chomping × Option Nat × Cursor) := do
  let (chomping, n, c) ← match c.rest with
    | a :: rest =>
      match chomping? a with
      | some chomping =>
        match rest with
        | d :: _ =>
          if d.isDigit then do .ok (chomping, some (← increment d), c.advance 2)
          else .ok (chomping, none, c.next)
        | [] => .ok (chomping, none, c.next)
      | none =>
        if a.isDigit then do
          let n ← increment a
          match rest.head?.bind chomping? with
          | some chomping => .ok (chomping, some n, c.advance 2)
          | none => .ok (.clip, some n, c.next)
        else .ok (.clip, none, c)
    | [] => .ok (.clip, none, c)
  if endsOr (fun d => d = ' ' || isBreak d) c.rest then do .ok (chomping, n, ← c.skipLine)
  else .error .form

/-- The empty lines at the front, and how far the first other line or the longest of them is
indented. -/
def measureIndent : Nat → Nat → Cursor → List Char × Nat × Cursor
  | 0, deepest, c => ([], deepest, c)
  | fuel + 1, deepest, c =>
    let c := c.skipSpaces
    let deepest := max deepest c.column
    match c.lineBreak? with
    | none => ([], deepest, c)
    | some (b, c) =>
      let (more, deepest, c) := measureIndent fuel deepest c
      (b :: more, deepest, c)

/-- Passes over the spaces of an indentation. -/
def skipIndent (indent : Nat) (c : Cursor) : Cursor :=
  c.advance ((c.rest.take (indent - c.column)).takeWhile (· = ' ')).length

/-- The empty lines from here on, and the place in the line behind them. -/
def emptyLines (indent : Nat) : Nat → Cursor → List Char × Cursor
  | 0, c => ([], c)
  | fuel + 1, c =>
    let c := skipIndent indent c
    match c.lineBreak? with
    | none => ([], c)
    | some (b, c) =>
      let (more, c) := emptyLines indent fuel c
      (b :: more, c)

/-- Whether a line of the scalar starts here. -/
def atLine (indent : Nat) (c : Cursor) : Bool := c.column == indent && !c.atEnd

/-- Reads the lines of a scalar from the start of its first line on, `empty` being the line breaks
before it. Gives the text up to the last line, the break of that line, and what is left. -/
def readLines (folded : Bool) (indent : Nat) :
    Nat → List Char → Cursor → List Char × List Char × List Char × Cursor
  | 0, empty, c => ([], [], empty, c)
  | fuel + 1, empty, c =>
    if atLine indent c then
      let line := c.takeWhile (!isBreak ·)
      let dense := !c.sees isBlank
      let c := c.advance line.length
      let (last, c) := match c.lineBreak? with
        | some (b, c) => ([b], c)
        | none => ([], c)
      let (after, c) := emptyLines indent (c.left + 1) c
      if atLine indent c then
        let joint :=
          if folded && last == ['\n'] && dense && !c.sees isBlank then
            if after.isEmpty then [' '] else []
          else last
        let (text, rest) := readLines folded indent fuel after c
        (empty ++ line ++ joint ++ text, rest)
      else (empty ++ line, last, after, c)
    else ([], [], empty, c)

/-- Reads a block scalar from its first sign on, in a block indented by `least` less one. -/
def read (folded : Bool) (least : Nat) (c : Cursor) : Except Fault (List Char × Cursor) := do
  let (chomping, n, c) ← readHeader c.next
  let least := max 1 least
  let (empty, indent, c) := match n with
    | none =>
      let (empty, deepest, c) := measureIndent (c.left + 1) 0 c
      (empty, max least deepest, c)
    | some n =>
      let indent := least + n - 1
      let (empty, c) := emptyLines indent (c.left + 1) c
      (empty, indent, c)
  let (text, last, after, c) := readLines folded indent (c.left + 1) empty c
  let tail := match chomping with
    | .strip => []
    | .clip => last
    | .keep => last ++ after
  .ok (text ++ tail, c)

end VersionGate.Yaml.BlockScalar
