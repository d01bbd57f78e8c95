import VersionGate.Text.Hex
import VersionGate.Text.Letter
import VersionGate.Text.Printable

/-!
# Quoted texts

How messages and logs show a text: between single quotes, or between double quotes when the text
holds a single quote and no double quote. The backslash and the quote in use are written with a
backslash, a character that is not printable and half of one as an escape, and all else as it is.
Bytes are shown like the text of their characters, but only the characters of ASCII as themselves.
-/

namespace VersionGate.Text

/-- The quote that a text is shown between. -/
def quoteFor (cs : List Char) : Char :=
  if cs.contains '\'' && !cs.contains '"' then '"' else '\''

/-- The escape of a character that is not printable: the shortest of the three widths that fits. -/
def escapeUnprintable (c : Char) : List Char :=
  if c.toNat < 0x100 then '\\' :: 'x' :: hexDigits 2 c.toNat
  else if c.toNat < 0x10000 then '\\' :: 'u' :: hexDigits 4 c.toNat
  else '\\' :: 'U' :: hexDigits 8 c.toNat

/-- How one character shows between the quotes `q`. -/
def quotedChar (q c : Char) : List Char :=
  if c = q || c = '\\' then ['\\', c]
  else if c = '\n' then ['\\', 'n']
  else if c = '\r' then ['\\', 'r']
  else if c = '\t' then ['\\', 't']
  else if isPrintable c then [c]
  else escapeUnprintable c

/-- How a letter shows if a character shows as `chars` says: half of one shows as an escape. -/
def shownLetter (chars : Char → List Char) : Letter → List Char
  | .char c => chars c
  | l@(.half _) => '\\' :: 'u' :: hexDigits 4 l.code

/-- A text between its quotes. -/
def quotedChars (cs : List Char) : List Char :=
  let q := quoteFor cs
  q :: (letters cs).flatMap (shownLetter (quotedChar q)) ++ [q]

/-- A text between its quotes. -/
def quoted (s : String) : String := String.ofList (quotedChars s.toList)

/-- Bytes between their quotes, with a letter in front. -/
def quotedBytes (bytes : List UInt8) : String :=
  let cs := bytes.map Char.ofUInt8
  let q := quoteFor cs
  let shownByte (c : Char) := if c.toNat < 0x80 then quotedChar q c else escapeUnprintable c
  String.ofList ('b' :: q :: cs.flatMap shownByte ++ [q])

/-- A text as it is but for its halves of characters, which show as escapes. -/
def shown (s : String) : String :=
  String.ofList ((letters s.toList).flatMap (shownLetter fun c => [c]))

end VersionGate.Text
