import VersionGate.Text.Hex
import VersionGate.Yaml.Cursor

/-!
# Anchors, tags and directives

What can stand in front of a node, an anchor to refer to it and a tag that says what it is, and the
directives at the front of a document.

A tag is a suffix behind a handle, and directives say what the handles stand for. A tag between
angle brackets has no handle, and a single exclamation mark is a tag of its own.
-/

namespace VersionGate.Yaml

/-- A tag as it is written. -/
structure TagName where
  handle : Option String
  suffix : String
  deriving DecidableEq, Repr

/-- A directive. -/
inductive Directive where
  | version (major minor : Nat)
  | handle (handle root : String)
  | other
  deriving DecidableEq, Repr

namespace Property

/-- Whether a character ends a word in a directive. -/
def endsWord (c : Char) : Bool := c = ' ' || isBreak c

/-- Reads a name of ASCII letters, digits, dashes and low lines. -/
def readName (c : Cursor) : Except Fault (List Char × Cursor) :=
  match c.takeWhile isNameChar with
  | [] => .error .form
  | name => .ok (name, c.advance name.length)

/-- Reads the name of an anchor, from its sign on. -/
def readAnchor (c : Cursor) : Except Fault (String × Cursor) := do
  let (name, c) ← readName c.next
  if endsOr (fun d => isSeparator d || "?:,]\x7d%@`".toList.contains d) c.rest then
    .ok (String.ofList name, c)
  else .error .form

/-- The bytes that escapes in a tag stand for. -/
def readEscapes : Nat → Cursor → Except Fault (List UInt8 × Cursor)
  | 0, c => .ok ([], c)
  | fuel + 1, c =>
    match c.rest with
    | '%' :: rest =>
      let digits := rest.take 2
      if digits.length = 2 && digits.all Text.isHexDigit then do
        let (more, c) ← readEscapes fuel (c.advance 3)
        .ok (UInt8.ofNat (Text.hexValue digits) :: more, c)
      else .error .form
    | _ => .ok ([], c)

/-- Reads the characters of a tag, in which escapes have to make whole characters. -/
def readTagChars : Nat → Cursor → Except Fault (List Char × Cursor)
  | 0, _ => .error .form
  | fuel + 1, c =>
    match c.rest with
    | [] => .ok ([], c)
    | ch :: _ =>
      if ch = '%' then do
        let (bytes, c) ← readEscapes (c.left + 1) c
        match String.fromUTF8? ⟨bytes.toArray⟩ with
        | none => .error .form
        | some s => do
          let (more, c) ← readTagChars fuel c
          .ok (s.toList ++ more, c)
      else if isTagChar ch then do
        let (more, c) ← readTagChars fuel c.next
        .ok (ch :: more, c)
      else .ok ([], c)

/-- Reads the suffix of a tag, which is not empty. -/
def readSuffix (c : Cursor) : Except Fault (String × Cursor) := do
  let (chars, after) ← readTagChars (c.left + 1) c
  if after.index = c.index then .error .form else .ok (String.ofList chars, after)

/-- Reads a handle: an exclamation mark, or a name between two, or nothing between two. -/
def readHandle (c : Cursor) : Except Fault (String × Cursor) :=
  if !c.sees (· = '!') then .error .form
  else
    let after := c.next
    if after.sees (· = ' ') then .ok ("!", after)
    else
      let name := after.takeWhile isNameChar
      let after := after.advance name.length
      if after.sees (· = '!') then .ok (String.ofList ('!' :: name ++ ['!']), after.next)
      else .error .form

/-- Reads a tag, from its exclamation mark on. -/
def readTag (c : Cursor) : Except Fault (TagName × Cursor) := do
  let after := c.next
  let (tag, c) ←
    if after.sees (· = '<') then do
      let (suffix, c) ← readSuffix after.next
      if c.sees (· = '>') then .ok (TagName.mk none suffix, c.next) else .error .form
    else if endsOr isSeparator after.rest then .ok (TagName.mk none "!", after)
    else do
      let named := (after.rest.takeWhile fun d => !endsWord d).contains '!'
      let (handle, c) ← if named then readHandle c else .ok ("!", after)
      let (suffix, c) ← readSuffix c
      .ok (TagName.mk (some handle) suffix, c)
  if endsOr endsWord c.rest then .ok (tag, c) else .error .form

/-- Reads a number of a version directive. -/
def readVersionPart (c : Cursor) : Except Fault (Nat × Cursor) :=
  match c.takeWhile Char.isDigit with
  | [] => .error .form
  | digits =>
    match Decimal.read digits with
    | .ok n => .ok (n, c.advance digits.length)
    | .error e => .error (.tooLong e)

/-- Reads the version in a directive. -/
def readVersion (c : Cursor) : Except Fault (Directive × Cursor) := do
  let (major, c) ← readVersionPart c.skipSpaces
  if !c.sees (· = '.') then .error .form
  else do
    let (minor, c) ← readVersionPart c.next
    if endsOr endsWord c.rest then .ok (.version major minor, c) else .error .form

/-- Reads a handle and what it stands for in a directive. -/
def readHandleRule (c : Cursor) : Except Fault (Directive × Cursor) := do
  let (handle, c) ← readHandle c.skipSpaces
  if !c.sees (· = ' ') then .error .form
  else do
    let (root, c) ← readSuffix c.skipSpaces
    if endsOr endsWord c.rest then .ok (.handle handle root, c) else .error .form

/-- Reads a directive, from its sign to the end of its line. -/
def readDirective (c : Cursor) : Except Fault (Directive × Cursor) := do
  let (name, c) ← readName c.next
  if !endsOr endsWord c.rest then .error .form
  else do
    let (directive, c) ←
      if name = "YAML".toList then readVersion c
      else if name = "TAG".toList then readHandleRule c
      else .ok (.other, c.skipWhile (!isBreak ·))
    .ok (directive, ← c.skipLine)

end Property

end VersionGate.Yaml
