import VersionGate.Json.Basic
import VersionGate.Text.Hex
import VersionGate.Text.Letter

/-!
# JSON texts of strings

A string stands between double quotes. The quote, the backslash and the control characters below the
space are escaped when written, the common ones by a letter and the others by four hexadecimal
digits; everything else stands for itself. On reading every escape of the format is known, two
escapes that together are one character are put together, and a control character that is not
escaped is refused. An escape of half a character that has no other half beside it is that half.
-/

namespace VersionGate.Json

open Text (Letter)

/-- How one character is written inside a string. -/
def escapeChar (c : Char) : List Char :=
  if c = '"' then ['\\', '"']
  else if c = '\\' then ['\\', '\\']
  else if c = '\n' then ['\\', 'n']
  else if c = '\r' then ['\\', 'r']
  else if c = '\t' then ['\\', 't']
  else if c = '\x0c' then ['\\', 'f']
  else if c = '\x08' then ['\\', 'b']
  else if c.toNat < 0x20 then '\\' :: 'u' :: Text.hexDigits 4 c.toNat
  else [c]

/-- A string between its quotes. -/
def encodeString (s : List Char) : List Char := '"' :: s.flatMap escapeChar ++ ['"']

/-- The character that an escaped letter stands for. -/
def unescapeChar? : Char → Option Char
  | '"' => some '"'
  | '\\' => some '\\'
  | '/' => some '/'
  | 'b' => some '\x08'
  | 'f' => some '\x0c'
  | 'n' => some '\n'
  | 'r' => some '\r'
  | 't' => some '\t'
  | _ => none

/-- Reads four hexadecimal digits. -/
def fourHex? : List Char → Option (Nat × List Char)
  | a :: b :: c :: d :: rest =>
    if [a, b, c, d].all Text.isHexDigit then some (Text.hexValue [a, b, c, d], rest) else none
  | _ => none

/-- Whether a code is the first half of a character beyond the first plane. -/
def isHighHalf (n : Nat) : Bool := 0xd800 ≤ n && n ≤ 0xdbff

/-- Whether a code is the second half of a character beyond the first plane. -/
def isLowHalf (n : Nat) : Bool := 0xdc00 ≤ n && n ≤ 0xdfff

/-- Reads an escape by code, what follows its `u`: two halves in a row make one character. -/
def codeEscape? (cs : List Char) : Option (Letter × List Char) := do
  let (n, rest) ← fourHex? cs
  match rest with
  | '\\' :: 'u' :: more =>
    if isHighHalf n then
      let (m, after) ← fourHex? more
      if isLowHalf m then
        some (.ofCode (0x10000 + (n - 0xd800) * 0x400 + (m - 0xdc00)), after)
      else some (.ofCode n, rest)
    else some (.ofCode n, rest)
  | _ => some (.ofCode n, rest)

/-- Reads a string up to its closing quote. Every step takes at least one character, so as many
steps as there are characters are enough. -/
def decodeSteps : Nat → List Char → Option (List Char × List Char)
  | 0, _ => none
  | steps + 1, cs =>
    match cs with
    | [] => none
    | '"' :: rest => some ([], rest)
    | '\\' :: 'u' :: rest => do
      let (l, rest) ← codeEscape? rest
      let (s, rest) ← decodeSteps steps rest
      some (l.spell ++ s, rest)
    | '\\' :: c :: rest => do
      let c ← unescapeChar? c
      let (s, rest) ← decodeSteps steps rest
      some (c :: s, rest)
    | c :: rest =>
      if c = '\\' || c.toNat < 0x20 then none
      else do
        let (s, rest) ← decodeSteps steps rest
        some (c :: s, rest)

/-- Reads what follows the opening quote of a string, up to and with the closing one. -/
def decodeString? (cs : List Char) : Option (List Char × List Char) := decodeSteps cs.length cs

end VersionGate.Json
