/-!
# Characters of YAML

The classes of characters that the layout of YAML is made of. Besides the line feed and the carriage
return three more characters break a line: the next-line character and the two separators.
-/

namespace VersionGate.Yaml

/-- Whether a character breaks a line. -/
def isBreak (c : Char) : Bool :=
  c = '\n' || c = '\r' || c = '\u0085' || c = '\u2028' || c = '\u2029'

/-- Whether a character is a space or a tab. -/
def isBlank (c : Char) : Bool := c = ' ' || c = '\t'

/-- Whether a character separates words: a space, a tab or a line break. -/
def isSeparator (c : Char) : Bool := isBlank c || isBreak c

/-- Whether a text ends here or goes on with a character that satisfies `p`. -/
def endsOr (p : Char → Bool) : List Char → Bool
  | [] => true
  | c :: _ => p c

/-- The byte order mark. -/
def byteOrderMark : Char := '\ufeff'

/-- Whether a character may stand in a document at all. -/
def isAllowed (c : Char) : Bool :=
  c = '\t' || c = '\n' || c = '\r' || c = '\u0085' || (' ' ≤ c && c ≤ '~')
    || ('\u00a0' ≤ c && c.toNat ≤ 0xfffd) || 0x10000 ≤ c.toNat

/-- Whether a character may be part of the name of an anchor or of a directive. -/
def isNameChar (c : Char) : Bool := c.isAlphanum || c = '-' || c = '_'

/-- Whether a character may be part of a tag. -/
def isTagChar (c : Char) : Bool := c.isAlphanum || "-;/?:@&=+$,_.!~*'()[]%".toList.contains c

/-- What a line break stands for in a scalar: the two separators for themselves, all others for a
line feed. -/
def breakMeaning (c : Char) : Char := if c = '\u2028' || c = '\u2029' then c else '\n'

end VersionGate.Yaml
