import VersionGate.Yaml.Cursor

/-!
# Plain scalars

A plain scalar has no quotes around it. It goes on until a colon with a separator behind it, a
number sign with a separator before it, a line that is not indented enough, a document mark or,
between brackets, one of the signs that mean something there. Spaces and line breaks inside it are
folded as in a quoted scalar; tabs end it.
-/

namespace VersionGate.Yaml.PlainScalar

/-- The signs that mean something between brackets. -/
def flowSigns : List Char := ",[]\x7b\x7d".toList

/-- The word at the front of a text, up to what can end a plain scalar. -/
def word (flow : Bool) : List Char → List Char
  | [] => []
  | ch :: rest =>
    if isSeparator ch
        || (ch = ':' && endsOr (fun d => isSeparator d || (flow && flowSigns.contains d)) rest)
        || (flow && (ch = '?' || flowSigns.contains ch)) then []
    else ch :: word flow rest

/-- The empty lines and spaces from the start of a line on, `none` if a document mark ends them. -/
def emptyLines : Nat → Cursor → Option (List Char) × Cursor
  | 0, c => (none, c)
  | fuel + 1, c =>
    if c.atMark then (none, c)
    else
      let c := c.skipSpaces
      match c.lineBreak? with
      | none => (some [], c)
      | some (b, c) =>
        let (more, c) := emptyLines fuel c
        (more.map (b :: ·), c)

/-- The gap behind a word: what it folds to, empty if the scalar ends here, the place behind it, and
whether it holds a line break. -/
def readGap (c : Cursor) : List Char × Cursor × Bool :=
  let spaces := c.takeWhile (· = ' ')
  let c := c.skipSpaces
  match c.lineBreak? with
  | none => (spaces, c, false)
  | some (b, c) =>
    match emptyLines (c.left + 1) c with
    | (none, c) => ([], c, true)
    | (some empty, c) =>
      let folded :=
        if b ≠ '\n' then b :: empty
        else if empty.isEmpty then [' ']
        else empty
      (folded, c, true)

/-- Reads words with the gaps between them, where lines have to be indented by `indent`. The flag
says whether the place behind the scalar is on a line on which nothing stands before it; `fresh` is
the flag if no word follows. -/
def readWords (flow : Bool) (indent : Nat) (fresh : Bool) :
    Nat → Cursor → List Char × Cursor × Bool
  | 0, c => ([], c, fresh)
  | fuel + 1, c =>
    let w := if c.sees (· = '#') then [] else word flow c.rest
    if w.isEmpty then ([], c, fresh)
    else
      let (gap, after, broken) := readGap (c.advance w.length)
      if gap.isEmpty || (!flow && after.column < indent) then (w, after, broken)
      else
        match readWords flow indent broken fuel after with
        | ([], c, fresh) => (w, c, fresh)
        | (more, c, fresh) => (w ++ gap ++ more, c, fresh)

/-- Reads a plain scalar. -/
def read (flow : Bool) (indent : Nat) (c : Cursor) : List Char × Cursor × Bool :=
  readWords flow indent false (c.left + 1) c

end VersionGate.Yaml.PlainScalar
