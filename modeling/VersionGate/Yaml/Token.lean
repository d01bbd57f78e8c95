import VersionGate.Yaml.BlockScalar
import VersionGate.Yaml.PlainScalar
import VersionGate.Yaml.Property
import VersionGate.Yaml.QuotedScalar

/-!
# Tokens of YAML

A document is cut into tokens before its structure is looked at. Two things about the structure are
settled here, because they depend on the layout: where blocks start and end, by indentation, and
which scalars are keys. A key that is not marked by a question mark is only known by the colon
behind it, so the scanner remembers where the last one could have started, `PendingKey`, and puts
the tokens that mark it in afterwards.

Such a key is on one line and of at most `keyLength` characters. In a block it may stand only where
a new entry may, `keyAllowed`.

Where the text goes wrong the tokens end with `broken`. In front of it are only those that are sure:
none from the first place on where a key could have started, because what follows would say whether
the token there is a key.
-/

namespace VersionGate.Yaml

/-- A token. -/
inductive Token where
  | directive (directive : Directive)
  | documentStart
  | documentEnd
  | blockListStart
  | blockMapStart
  | blockEnd
  | flowListStart
  | flowListEnd
  | flowMapStart
  | flowMapEnd
  | flowEntry
  | blockEntry
  | key
  | value
  | reference (name : String)
  | anchor (name : String)
  | tag (name : TagName)
  /-- A scalar, by the spelling of its text. -/
  | scalar (text : String) (plain : Bool)
  /-- From here on the text cannot be cut into tokens. -/
  | broken (fault : Fault)
  deriving DecidableEq, Repr

/-- The greatest distance between the start of a key and its colon. -/
def keyLength : Nat := 1024

/-- Where a key could have started. -/
structure PendingKey where
  /-- The number of tokens in front of it. -/
  token : Nat
  /-- Whether there has to be a key, because it starts where the entries of a block do. -/
  required : Bool
  index : Nat
  line : Nat
  column : Nat
  deriving DecidableEq, Repr

/-- What has been scanned, and what the layout says so far. -/
structure Scanner where
  cursor : Cursor
  /-- The tokens, the last one first. -/
  tokens : List Token := []
  /-- The number of tokens. -/
  count : Nat := 0
  /-- The columns of the open blocks, the innermost first. -/
  blocks : List Nat := []
  /-- Whether a key may start here. -/
  keyAllowed : Bool := true
  /-- Where a key could have started between the innermost brackets, or outside of all. -/
  pending : Option PendingKey := none
  /-- The same for what is around each open bracket, the innermost first. -/
  outer : List (Option PendingKey) := []
  deriving DecidableEq, Repr

namespace Scanner

/-- Whether the place is between brackets. -/
def inFlow (s : Scanner) : Bool := !s.outer.isEmpty

/-- Adds a token. -/
def push (s : Scanner) (t : Token) : Scanner :=
  { s with tokens := t :: s.tokens, count := s.count + 1 }

/-- Moves on. -/
def moveTo (s : Scanner) (c : Cursor) : Scanner := { s with cursor := c }

/-- Adds a token of `n` characters and moves behind it. -/
def pushNext (s : Scanner) (t : Token) (n : Nat) : Scanner :=
  (s.push t).moveTo (s.cursor.advance n)

/-- Says whether a key may start from here on. -/
def allowKey (s : Scanner) (allowed : Bool) : Scanner := { s with keyAllowed := allowed }

/-- Forgets where a key could have started, which a key that has to be there does not allow. -/
def dropPending (s : Scanner) : Except Fault Scanner :=
  if s.pending.any (·.required) then .error .form else .ok { s with pending := none }

/-- Whether a key that started there would end too late. -/
def PendingKey.isStale (c : Cursor) (k : PendingKey) : Bool :=
  k.line != c.line || keyLength < c.index - k.index

/-- Forgets one place where a key could have started if it is too far away. -/
def refreshOne (c : Cursor) : Option PendingKey → Except Fault (Option PendingKey)
  | none => .ok none
  | some k =>
    if PendingKey.isStale c k then (if k.required then .error .form else .ok none) else .ok (some k)

/-- Forgets the places where a key could have started that are too far away. -/
def refresh (s : Scanner) : Except Fault Scanner := do
  let pending ← refreshOne s.cursor s.pending
  let outer ← s.outer.mapM (refreshOne s.cursor)
  .ok { s with pending, outer }

/-- Remembers that a key could start here. -/
def markPending (s : Scanner) : Except Fault Scanner :=
  if s.keyAllowed then do
    let s ← s.dropPending
    let c := s.cursor
    let required := !s.inFlow && s.blocks.head? == some c.column
    .ok { s with pending := some ⟨s.count, required, c.index, c.line, c.column⟩ }
  else .ok s

/-- Ends the blocks that are indented further than `column`; between brackets
layout says nothing. -/
def closeBlocks (s : Scanner) (column : Nat) : Scanner :=
  if s.inFlow then s
  else
    let closed := (s.blocks.takeWhile (column < ·)).length
    { s with
      blocks := s.blocks.drop closed
      tokens := List.replicate closed .blockEnd ++ s.tokens
      count := closed + s.count }

/-- Ends all blocks. -/
def closeAllBlocks (s : Scanner) : Scanner :=
  if s.inFlow then s
  else { s with
    blocks := []
    tokens := List.replicate s.blocks.length .blockEnd ++ s.tokens
    count := s.blocks.length + s.count }

/-- Whether an entry at `column` starts a new block. -/
def startsBlock (s : Scanner) (column : Nat) : Bool := s.blocks.head?.all (· < column)

/-- Starts a block for an entry at this place if there has to be one. -/
def openBlock (s : Scanner) (t : Token) : Scanner :=
  if s.startsBlock s.cursor.column then { s.push t with blocks := s.cursor.column :: s.blocks }
  else s

/-- Passes over blanks, comments and line breaks. After a line break outside of brackets a key may
start. A byte order mark may stand at the very start. -/
def skipToToken : Nat → Scanner → Scanner
  | 0, s => s
  | fuel + 1, s =>
    let c := s.cursor
    let c := if c.index = 0 && c.sees (· = byteOrderMark) then c.next else c
    let c := c.skipSpaces.skipComment
    match c.lineBreak? with
    | none => s.moveTo c
    | some (_, c) =>
      let s := s.moveTo c
      skipToToken fuel (if s.inFlow then s else s.allowKey true)

/-- Opens a bracket, which may be a key. -/
def openFlow (s : Scanner) (t : Token) : Except Fault Scanner := do
  let s ← s.markPending
  let s := { s with outer := s.pending :: s.outer, pending := none }
  .ok ((s.allowKey true).pushNext t 1)

/-- Closes a bracket, of which there has to be one. -/
def closeFlow (s : Scanner) (t : Token) : Except Fault Scanner := do
  let s ← s.dropPending
  match s.outer with
  | [] => .error .form
  | pending :: outer => .ok (({ s with pending, outer }.allowKey false).pushNext t 1)

/-- Starts an entry of a block, which is only possible where a key may start. -/
def startEntry (s : Scanner) (block : Token) : Except Fault Scanner :=
  if s.inFlow then .ok s
  else if s.keyAllowed then .ok (s.openBlock block)
  else .error .form

/-- The dash in front of an item. -/
def blockEntry (s : Scanner) : Except Fault Scanner := do
  let s ← s.startEntry .blockListStart
  let s ← (s.allowKey true).dropPending
  .ok (s.pushNext .blockEntry 1)

/-- The question mark in front of a key. -/
def explicitKey (s : Scanner) : Except Fault Scanner := do
  let s ← s.startEntry .blockMapStart
  let s ← (s.allowKey !s.inFlow).dropPending
  .ok (s.pushNext .key 1)

/-- Puts tokens in, which come in reverse order, behind the first `n` tokens. -/
def insertAfter (s : Scanner) (n : Nat) (new : List Token) : Scanner :=
  let later := s.count - n
  { s with
    tokens := s.tokens.take later ++ new ++ s.tokens.drop later
    count := new.length + s.count }

/-- The colon in front of a value: behind a key that was not marked it marks the key. -/
def value (s : Scanner) : Except Fault Scanner :=
  match s.pending with
  | some k =>
    let opens := !s.inFlow && s.startsBlock k.column
    let new := if opens then [.key, .blockMapStart] else [.key]
    let s := { s.insertAfter k.token new with
      pending := none
      blocks := if opens then k.column :: s.blocks else s.blocks }
    .ok ((s.allowKey false).pushNext .value 1)
  | none => do
    let s ← s.startEntry .blockMapStart
    let s ← (s.allowKey !s.inFlow).dropPending
    .ok (s.pushNext .value 1)

/-- A token that may be a key, or stand in front of one. -/
def content (s : Scanner) (read : Cursor → Except Fault (Token × Cursor)) :
    Except Fault Scanner := do
  let s ← s.markPending
  let (t, c) ← read s.cursor
  .ok (((s.allowKey false).push t).moveTo c)

/-- A scalar between quotes. -/
def quoted (s : Scanner) (quote : Char) : Except Fault Scanner :=
  s.content fun c => do
    let (letters, c) ← QuotedScalar.read quote c
    .ok (.scalar (String.ofList (letters.flatMap Text.Letter.spell)) false, c)

/-- The least column of a line inside the innermost block. -/
def innerColumn (s : Scanner) : Nat :=
  match s.blocks with
  | [] => 0
  | column :: _ => column + 1

/-- A scalar on lines of its own. -/
def block (s : Scanner) (folded : Bool) : Except Fault Scanner := do
  let s ← (s.allowKey true).dropPending
  let (text, c) ← BlockScalar.read folded s.innerColumn s.cursor
  .ok ((s.push (.scalar (String.ofList (Text.spell text)) false)).moveTo c)

/-- A scalar without quotes. -/
def plain (s : Scanner) : Except Fault Scanner := do
  let s ← s.markPending
  let (text, c, fresh) := PlainScalar.read s.inFlow s.innerColumn s.cursor
  .ok (((s.allowKey fresh).push (.scalar (String.ofList (Text.spell text)) true)).moveTo c)

/-- A document mark. -/
def documentMark (s : Scanner) (t : Token) : Except Fault Scanner := do
  let s ← s.closeAllBlocks.dropPending
  .ok ((s.allowKey false).pushNext t 3)

/-- A directive. -/
def directive (s : Scanner) : Except Fault Scanner := do
  let s ← s.closeAllBlocks.dropPending
  let (d, c) ← Property.readDirective s.cursor
  .ok (((s.allowKey false).push (.directive d)).moveTo c)

/-- The characters that no plain scalar starts with. -/
def signs : List Char := "-?:,[]\x7b\x7d#&*!|>'\"%@`".toList

/-- Whether a plain scalar starts with `ch`, where `gap` says whether a separator or the end is
behind it. -/
def startsPlain (s : Scanner) (ch : Char) (gap : Bool) : Bool :=
  !(isSeparator ch || signs.contains ch)
    || (!gap && (ch = '-' || (!s.inFlow && (ch = '?' || ch = ':'))))

/-- Scans the token at this place. -/
def token (s : Scanner) (ch : Char) (rest : List Char) : Except Fault Scanner :=
  let c := s.cursor
  let gap := endsOr isSeparator rest
  if ch = '%' && c.column = 0 then s.directive
  else if c.column = 0 && c.atMarkOf '-' then s.documentMark .documentStart
  else if c.column = 0 && c.atMarkOf '.' then s.documentMark .documentEnd
  else if ch = '[' then s.openFlow .flowListStart
  else if ch = '\x7b' then s.openFlow .flowMapStart
  else if ch = ']' then s.closeFlow .flowListEnd
  else if ch = '\x7d' then s.closeFlow .flowMapEnd
  else if ch = ',' then do
    let s ← (s.allowKey true).dropPending
    .ok (s.pushNext .flowEntry 1)
  else if ch = '-' && gap then s.blockEntry
  else if ch = '?' && (s.inFlow || gap) then s.explicitKey
  else if ch = ':' && (s.inFlow || gap) then s.value
  else if ch = '*' then s.content fun c => do
    let (name, c) ← Property.readAnchor c
    .ok (.reference name, c)
  else if ch = '&' then s.content fun c => do
    let (name, c) ← Property.readAnchor c
    .ok (.anchor name, c)
  else if ch = '!' then s.content fun c => do
    let (name, c) ← Property.readTag c
    .ok (.tag name, c)
  else if ch = '|' && !s.inFlow then s.block false
  else if ch = '>' && !s.inFlow then s.block true
  else if ch = '\'' || ch = '"' then s.quoted ch
  else if s.startsPlain ch gap then s.plain
  else .error .form

/-- Scans the next token; `true` if that was the end. -/
def step (s : Scanner) : Except Fault (Bool × Scanner) := do
  let s ← (skipToToken (s.cursor.left + 1) s).refresh
  match s.cursor.rest with
  | [] =>
    let s ← s.closeAllBlocks.dropPending
    .ok (true, s)
  | ch :: rest => do
    let s ← (s.closeBlocks s.cursor.column).token ch rest
    .ok (false, s)

/-- The places where a key could have started that are not too far away. -/
def possibleKeys (s : Scanner) : List PendingKey :=
  ((s.pending :: s.outer).filterMap id).filter fun k => !PendingKey.isStale s.cursor k

/-- The tokens in front of the first place where a key could have started. -/
def sureTokens (s : Scanner) : List Token :=
  s.tokens.reverse.take ((s.possibleKeys.map (·.token)).foldl min s.count)

/-- Scans tokens to the end, or as far as that is possible. -/
def run : Nat → Scanner → List Token
  | 0, s => s.sureTokens ++ [.broken .form]
  | fuel + 1, s =>
    match s.step with
    | .error fault => s.sureTokens ++ [.broken fault]
    | .ok (true, s) => s.tokens.reverse
    | .ok (false, s) => run fuel s

end Scanner

/-- The tokens of a document. Every token but the last takes at least one character. -/
def Token.scan (cs : List Char) : List Token :=
  Scanner.run (cs.length + 1) { cursor := .start cs }

end VersionGate.Yaml
